import Pulse.Names.Tables

/-! What holds of the tables and of the requests under way, in every interleaving of them. -/
namespace Pulse.Names
open Library.Lts Library.UniqueIndex Tenants
variable [Citext]

/-- What a request wants to call its row. -/
def Call.Asks (world : World) (key : Key) : Call → Prop
  | .register email => key = .email (Citext.fold email)
  | .createOrg slug => key = .orgSlug slug
  | .inviteMember orgId body => ∃ user ∈ world.directory.users,
    Citext.fold user.email = Citext.fold body.email ∧ key = .membership orgId user.id
  | .createProject body => key = .projectSlug body.orgId body.slug
  | .createQueue body => key = .queueName body.projectId body.name
  | .updateQueue _ body => ∃ projectId, ∃ name ∈ body.name, key = .queueName projectId name

theorem existing_iff (draft : Draft) (world : World) :
    draft.existing world = true ↔ draft.key ∈ keys world := by
  cases draft <;> simp [Draft.existing, Draft.key, Draft.row, keys, rows, Row.key, Directory.findUser,
    Directory.findMembership, Db.queueNameTaken]

/-- A draft is of the row which its request asks for. -/
structure Draft.Asked (world : World) (call : Call) (draft : Draft) : Prop where
  named : call.Asks world draft.key
  policy : draft.policy = call.policy
  parents : ∀ ref ∈ draft.parents, ref ∈ refs world
  creator : ∀ slug userId, draft = .organization slug userId → (.users, userId) ∈ refs world

/-- What a request inserts: its row, or an organization and a first member. -/
inductive Batch (world : World) (call : Call) : Row → List Row → Prop where
  | one {row : Row} (named : call.Asks world row.key)
      (homed : ∀ member, row = .member member → (.organizations, member.orgId) ∈ refs world) :
      Batch world call row [row]
  | founded {org : Organization} {member : OrganizationMember}
      (named : call.Asks world (Row.organization org).key) (inside : member.orgId = org.id) :
      Batch world call (.organization org) [.organization org, .member member]

/-- What a request knows before a statement of its authorization. -/
inductive Gate.Ready (world : World) : Call → Gate → Prop where
  | user {call userId} : Ready world call (.user userId)
  | member {userId orgId body} : Ready world (.inviteMember orgId body) (.member userId orgId body)
  | invited {actor body} (homed : (.organizations, actor.orgId) ∈ refs world) :
      Ready world (.inviteMember actor.orgId body) (.invited actor body)
  | queue {userId id body} : Ready world (.updateQueue id body) (.queue userId id body)
  | placing {userId body} :
      Ready world (.createQueue body) (.project userId body.projectId (.queue body))
  | placed {userId orgId body} (present : (.projects, body.projectId) ∈ refs world) :
      Ready world (.createQueue body) (.role userId orgId (.queue body))
  | fetched {userId projectId loaded body} :
      Ready world (.updateQueue loaded.id body) (.project userId projectId (.update loaded body))
  | cleared {userId orgId loaded body} :
      Ready world (.updateQueue loaded.id body) (.role userId orgId (.update loaded body))
  | project {userId body} :
      Ready world (.createProject body) (.role userId body.orgId (.project body))

/-- What a session may rely on, by what its transaction has inserted, renamed and locked. -/
inductive Fits (world : World) : List Row → List Queue → List Uuid → Option Session → Prop where
  | none : Fits world [] [] [] none
  | authorizing {call gate} (ready : Gate.Ready world call gate) :
      Fits world [] [] [] (some ⟨call, .authorizing gate⟩)
  | looking {call draft} (asked : Draft.Asked world call draft) :
      Fits world [] [] [] (some ⟨call, .looking draft⟩)
  | validating {call body} (asked : (Draft.queue body).Asked world call) :
      Fits world [] [] [] (some ⟨call, .validating body⟩)
  | inserting {call draft} (asked : Draft.Asked world call draft) :
      Fits world [] [] [] (some ⟨call, .inserting draft none⟩)
  | founding {slug userId org} (creator : (.users, userId) ∈ refs world)
      (named : org.slug = slug) :
      Fits world [.organization org] [] [] (some ⟨.createOrg slug,
        .inserting (.member org.id userId .owner) (some (.organization org))⟩)
  | flushed {call first batch} (made : Batch world call first batch) :
      Fits world batch [] [] (some ⟨call, .flushed first⟩)
  | changing {id loaded body} (own : loaded.id = id) :
      Fits world [] [] [] (some ⟨.updateQueue id body, .changing loaded body⟩)
  | revalidating {id loaded body} (own : loaded.id = id) :
      Fits world [] [] [] (some ⟨.updateQueue id body, .revalidating loaded body⟩)
  | updating {id loaded body} (own : loaded.id = id) :
      Fits world [] [] [] (some ⟨.updateQueue id body, .updating loaded body⟩)
  | locked {id body current next} (stored : current ∈ world.engine.db.queues)
      (own : current.id = id) (same : next.id = id) (project : next.projectId = current.projectId)
      (name : next.name = current.name ∨ body.name = some next.name)
      (policy : next.retryPolicyId = current.retryPolicyId ∨
        body.retryPolicyId = some next.retryPolicyId) :
      Fits world [] [] [id] (some ⟨.updateQueue id body, .locked current next⟩)
  | written {id body current next renamed} (stored : current ∈ world.engine.db.queues)
      (own : current.id = id) (same : next.id = id)
      (entered : renamed = [] ∧ (Row.queue next).key = (Row.queue current).key ∨ renamed = [next]) :
      Fits world [] renamed [id] (some ⟨.updateQueue id body, .written next⟩)
  | refreshing {call row} (kind : ∀ id body, call = .updateQueue id body → row.ref.1 = .queues)
      (stored : row.ref.1.permanent = true → row ∈ rows world ∧ call.Asks world row.key) :
      Fits world [] [] [] (some ⟨call, .refreshing row⟩)

section Frames
variable {world after : World} {locked : List Uuid} {call : Call}

theorem Call.Asks.mono {key : Key} (asks : call.Asks world key)
    (persists : Persists world after locked) : call.Asks after key := by
  cases call with
  | inviteMember orgId body =>
    obtain ⟨user, member, same, rfl⟩ := asks
    refine ⟨user, ?_, same, rfl⟩
    exact (mem_rows : Row.user user ∈ rows _ ↔ _).mp (persists.rows _ ((mem_rows : Row.user user ∈ rows _ ↔ _).mpr member)
      rfl)
  | _ => exact asks

/-- Only a queue is renamed. -/
theorem Call.Asks.kind {row : Row} (asks : call.Asks world row.key) :
    ∀ id body, call = .updateQueue id body → row.ref.1 = .queues := by
  rintro id body rfl
  obtain ⟨_, _, _, same⟩ := asks
  cases row <;> cases same
  rfl

theorem Draft.Asked.mono {draft : Draft} (asked : draft.Asked world call)
    (persists : Persists world after locked) : draft.Asked after call where
  named := asked.named.mono persists
  policy := asked.policy
  parents := fun ref parent =>
    persists.refs (asked.parents ref parent) (draft.parents_permanent parent)
  creator := fun slug userId same => persists.refs (asked.creator slug userId same) rfl

omit [Citext] in
theorem Gate.Ready.mono {gate : Gate} (ready : gate.Ready world call)
    (persists : Persists world after locked) : gate.Ready after call := by
  cases ready with
  | user => exact .user
  | member => exact .member
  | invited homed => exact .invited (persists.refs homed rfl)
  | queue => exact .queue
  | placing => exact .placing
  | placed present => exact .placed (persists.refs present rfl)
  | fetched => exact .fetched
  | cleared => exact .cleared
  | project => exact .project

theorem Batch.mono {first : Row} {batch : List Row} (made : Batch world call first batch)
    (persists : Persists world after locked) : Batch after call first batch := by
  cases made with
  | one named homed =>
    exact .one (named.mono persists) fun member same => persists.refs (homed member same) rfl
  | founded named inside => exact .founded (named.mono persists) inside

theorem Fits.mono {inserted : List Row} {renamed : List Queue} {session : Option Session}
    (fits : Fits world inserted renamed locked session) (persists : Persists world after locked) :
    Fits after inserted renamed locked session := by
  cases fits with
  | none => exact .none
  | authorizing ready => exact .authorizing (ready.mono persists)
  | looking asked => exact .looking (asked.mono persists)
  | validating asked => exact .validating (asked.mono persists)
  | inserting asked => exact .inserting (asked.mono persists)
  | founding creator named => exact .founding (persists.refs creator rfl) named
  | flushed made => exact .flushed (made.mono persists)
  | changing own => exact .changing own
  | revalidating own => exact .revalidating own
  | updating own => exact .updating own
  | locked stored own same project name policy =>
    exact .locked (persists.queues _ stored (by simp [own])) own same project name policy
  | written stored own same entered =>
    exact .written (persists.queues _ stored (by simp [own])) own same entered
  | refreshing kind stored =>
    exact .refreshing kind fun permanent => ⟨persists.rows _ (stored permanent).1 permanent,
      (stored permanent).2.mono persists⟩

end Frames

structure Inv (state : Service) : Prop where
  keys : Unique (keys state.world) state.entries
  refs : Unique (refs state.world) (state.inserted.map (Prod.map id Row.ref))
  drawn : ∀ ref ∈ Names.refs state.world, ref.2 < state.nextUuid
  pending : ∀ entry ∈ state.inserted, entry.2.ref.2 < state.nextUuid
  homed : ∀ row ∈ state.world.directory.members,
    (.organizations, row.orgId) ∈ Names.refs state.world
  locks : (state.locked.map Prod.snd).Nodup
  fits : ∀ sid, Fits state.world (own state.inserted sid) (own state.renamed sid)
    (own state.locked sid) (state.sessions sid)
  answered : ∀ answer ∈ state.answers, ∀ row, answer.reply = .created row →
    row.ref.1.permanent = true → row ∈ rows state.world

section Operations
variable {state : Service} {sid : Sid} {call : Call}

/-- Where one session goes on, the others fit as before. -/
theorem fits_update {world : World} {inserted : List (Sid × Row)} {renamed : List (Sid × Queue)}
    {locked : List (Sid × Uuid)} {sessions : Sid → Option Session} {next : Option Session}
    (own_ : Fits world (own inserted sid) (own renamed sid) (own locked sid) next)
    (others : ∀ other, other ≠ sid → Fits world (own inserted other) (own renamed other)
      (own locked other) (sessions other)) :
    ∀ other, Fits world (own inserted other) (own renamed other) (own locked other)
      (Function.update sessions sid next other) := by
  intro other
  by_cases same : other = sid
  · subst same
    rw [Function.update_self]
    exact own_
  · rw [Function.update_of_ne same]
    exact others other same

theorem Inv.go (inv : Inv state) {stage : Stage} (fits : Fits state.world (own state.inserted sid)
    (own state.renamed sid) (own state.locked sid) (some ⟨call, stage⟩)) :
    Inv (state.go sid call stage) :=
  { inv with fits := fits_update fits fun other _ => inv.fits other }

theorem entries_release (state : Service) (sid : Sid) :
    (state.rollback sid).entries = release state.entries sid := by
  simp [Service.entries, Service.rollback, release, List.filter_map, Function.comp_def]

/-- A transaction ends where the tables keep what the others rely on. -/
theorem Inv.ends (inv : Inv state) {world : World} {next : Option Session} {answers : List Answer}
    (persists : ∀ other, other ≠ sid → Persists state.world world (own state.locked other))
    (keys : Unique (Names.keys world) (release state.entries sid))
    (refs : Unique (Names.refs world) (release (state.inserted.map (Prod.map id Row.ref)) sid))
    (drawn : ∀ ref ∈ Names.refs world, ref.2 < state.nextUuid)
    (homed : ∀ row ∈ world.directory.members, (.organizations, row.orgId) ∈ Names.refs world)
    (fits : Fits world [] [] [] next)
    (answered : ∀ answer ∈ answers, ∀ row, answer.reply = .created row →
      row.ref.1.permanent = true → row ∈ rows world) :
    Inv { state.rollback sid with
      world, answers, sessions := Function.update state.sessions sid next } where
  keys := entries_release state sid ▸ keys
  refs := by
    rw [release_map] at refs
    exact refs
  drawn := drawn
  pending := fun entry member => inv.pending entry (mem_release.mp member).1
  homed := homed
  locks := List.Nodup.sublist (List.filter_sublist.map _) inv.locks
  fits := by
    refine fits_update ?_ fun other different => ?_
    · simp only [Service.rollback, own_release_self]
      exact fits
    · simp only [Service.rollback, own_release_of_ne _ different]
      exact (inv.fits other).mono (persists other different)
  answered := answered

theorem Inv.rollback (inv : Inv state) (sid : Sid) : Inv (state.rollback sid) :=
  inv.ends (fun _ _ => .refl _ _) (inv.keys.rollback sid) (inv.refs.rollback sid) inv.drawn inv.homed
    .none inv.answered

theorem Inv.answer (inv : Inv state) {reply : Reply} (stored : ∀ row, reply = .created row →
    row.ref.1.permanent = true → row ∈ rows state.world) : Inv (state.answer sid call reply) := by
  refine inv.ends (fun _ _ => .refl _ _) (inv.keys.rollback sid) (inv.refs.rollback sid) inv.drawn
    inv.homed .none ?_
  intro answer member
  rcases List.mem_cons.mp member with rfl | old
  · exact stored
  · exact inv.answered answer old

theorem fresh_ref (inv : Inv state) {row : Row} (drawn : row.ref.2 = state.nextUuid) :
    insertion (Names.refs state.world) (state.inserted.map (Prod.map id Row.ref)) sid row.ref =
      .enters := by
  refine enters_iff.mpr ⟨fun listed => ?_, fun listed => ?_⟩
  · exact absurd (inv.drawn _ listed) (drawn ▸ Nat.lt_irrefl _)
  · obtain ⟨entry, member, same⟩ := List.mem_map.mp listed
    obtain ⟨pending, present, rfl⟩ := List.mem_map.mp member
    have older := inv.pending pending present
    rw [show pending.2.ref = row.ref from same, drawn] at older
    exact Nat.lt_irrefl _ older

/-- What one INSERT adds. -/
theorem Inv.inserts (inv : Inv state) {row : Row} {stage : Stage}
    (drawn : row.ref.2 = state.nextUuid)
    (enters : insertion (Names.keys state.world) state.entries sid row.key = .enters)
    (fits : Fits state.world (own state.inserted sid ++ [row]) (own state.renamed sid)
      (own state.locked sid) (some ⟨call, stage⟩)) :
    Inv { state.go sid call stage with
      nextUuid := state.nextUuid + 1
      inserted := state.inserted ++ [(sid, row)] } where
  keys := by
    refine (inv.keys.insert enters).perm (.refl _) ?_
    simp only [Service.entries, Service.go, List.map_append, List.append_assoc]
    exact List.Perm.append_left _ List.perm_append_comm
  refs := by
    have enters : insertion _ _ sid row.ref = .enters := fresh_ref inv drawn
    have entered := inv.refs.insert enters
    simpa [Service.go] using entered
  drawn := fun ref listed => Nat.lt_succ_of_lt (inv.drawn ref listed)
  pending := by
    intro entry member
    rcases List.mem_append.mp member with old | new
    · exact Nat.lt_succ_of_lt (inv.pending entry old)
    · rw [List.mem_singleton.mp new]
      exact drawn ▸ Nat.lt_succ_self _
  homed := inv.homed
  locks := inv.locks
  fits := by
    refine fits_update ?_ fun other different => ?_
    · rw [own_append, own_cons_self, own_nil]
      exact fits
    · rw [own_append, own_cons_of_ne _ different, own_nil, List.append_nil]
      exact inv.fits other
  answered := inv.answered

theorem own_entries (state : Service) (sid : Sid) : own state.entries sid =
    (own state.inserted sid).map Row.key ++
      (own state.renamed sid).map fun queue => (Row.queue queue).key := by
  simp [Service.entries, own_map]

/-- The rows of a transaction are published. -/
theorem Inv.publishes (inv : Inv state) {first : Row}
    (session : state.sessions sid = some ⟨call, .flushed first⟩) :
    Inv (state.commit sid call ((own state.inserted sid).foldl add state.world) first) := by
  have fits := inv.fits sid
  rw [session] at fits
  generalize batchIs : own state.inserted sid = batch at fits
  generalize renamedIs : own state.renamed sid = renamed at fits
  generalize own state.locked sid = locked at fits
  have published := rows_addAll batch state.world
  have persists := fun locked => persists_addAll batch state.world locked
  have stored : ∀ row ∈ batch, row ∈ rows (batch.foldl add state.world) := fun row member =>
    published.mem_iff.mpr (List.mem_append_right _ member)
  cases fits with
  | flushed made =>
    refine inv.ends (fun _ _ => persists _) ?_ ?_ ?_ ?_ ?_ ?_
    · refine (inv.keys.commit sid).perm ?_ (.refl _)
      rw [own_entries, batchIs, renamedIs]
      simpa [Names.keys] using published.map Row.key
    · refine (inv.refs.commit sid).perm ?_ (.refl _)
      rw [own_map, batchIs]
      simpa [Names.refs] using published.map Row.ref
    · intro ref listed
      obtain ⟨row, member, rfl⟩ := List.mem_map.mp listed
      rcases List.mem_append.mp (published.mem_iff.mp member) with old | new
      · exact inv.drawn _ (List.mem_map_of_mem old)
      · exact inv.pending (sid, row) (mem_own.mp (batchIs ▸ new))
    · intro member present
      have listed := published.mem_iff.mp ((mem_rows : Row.member member ∈ rows _ ↔ _).mpr present)
      rcases List.mem_append.mp listed with old | new
      · exact (persists []).refs (inv.homed member ((mem_rows : Row.member member ∈ rows _ ↔ _).mp old)) rfl
      · cases made with
        | one _ homed =>
          exact (persists []).refs (homed member (List.mem_singleton.mp new).symm) rfl
        | @founded org member' _ inside =>
          have same : member = member' := by simpa using new
          rw [same, inside]
          exact List.mem_map_of_mem (f := Row.ref) (stored _ List.mem_cons_self)
    · have made' := made.mono (persists [])
      cases made' with
      | one named =>
        exact .refreshing named.kind fun _ => ⟨stored _ (List.mem_singleton_self _), named⟩
      | founded named => exact .refreshing named.kind fun _ => ⟨stored _ List.mem_cons_self, named⟩
    · intro answer member row reply permanent
      exact (persists []).rows row (inv.answered answer member row reply permanent) permanent

/-- The row lock of an UPDATE. -/
theorem Inv.locks_ (inv : Inv state) {id : Uuid} {stage : Stage}
    (free : ∀ lock ∈ state.locked, lock.2 ≠ id)
    (fits : Fits state.world (own state.inserted sid) (own state.renamed sid)
      (id :: own state.locked sid) (some ⟨call, stage⟩)) :
    Inv { state.go sid call stage with locked := (sid, id) :: state.locked } :=
  { inv with
    locks := List.nodup_cons.mpr ⟨fun listed => by
      obtain ⟨lock, member, same⟩ := List.mem_map.mp listed
      exact free lock member same, inv.locks⟩
    fits := by
      refine fits_update ?_ fun other different => ?_
      · rw [own_cons_self]
        exact fits
      · rw [own_cons_of_ne _ different]
        exact inv.fits other }

/-- The entry of a new name. -/
theorem Inv.renames (inv : Inv state) {queue : Queue} {stage : Stage}
    (enters : insertion (Names.keys state.world) state.entries sid (Row.queue queue).key = .enters)
    (fits : Fits state.world (own state.inserted sid) (queue :: own state.renamed sid)
      (own state.locked sid) (some ⟨call, stage⟩)) :
    Inv { state.go sid call stage with renamed := (sid, queue) :: state.renamed } :=
  { inv with
    keys := by
      refine (inv.keys.insert enters).perm (.refl _) ?_
      simp only [Service.entries, Service.go, List.map_cons, List.append_assoc]
      exact List.Perm.append_left _ (List.perm_append_singleton _ _).symm
    fits := by
      refine fits_update ?_ fun other different => ?_
      · rw [own_cons_self]
        exact fits
      · rw [own_cons_of_ne _ different]
        exact inv.fits other }

theorem Inv.queueIds (inv : Inv state) : (state.world.engine.db.queues.map Queue.id).Nodup := by
  have distinct := inv.refs.rows
  simp only [Names.refs, rows, List.map_append, List.map_map] at distinct
  refine List.Nodup.of_map (fun id => (Table.queues, id)) ?_
  rw [List.map_map]
  exact (List.nodup_append.mp distinct).2.1

/-- One queue is another's lock. -/
theorem Inv.locks_apart (inv : Inv state) {other : Sid} {id : Uuid} (different : other ≠ sid)
    (held : id ∈ own state.locked sid) : id ∉ own state.locked other := by
  intro also
  have same := List.inj_on_of_nodup_map inv.locks (mem_own.mp held) (mem_own.mp also) rfl
  exact different (congrArg Prod.fst same).symm

/-- The rows, with these in the place of one queue between two others. -/
def rowsBut (world : World) (front back : List Queue) (between : List Row) : List Row :=
  world.directory.users.map .user ++ world.directory.organizations.map .organization ++
    world.directory.members.map .member ++ world.projects.map .project ++
    (front.map .queue ++ (between ++ back.map .queue))

/-- The UPDATE of a queue is published. -/
theorem Inv.publishesUpdate (inv : Inv state) {next : Queue}
    (session : state.sessions sid = some ⟨call, .written next⟩) :
    Inv (state.commit sid call (withQueues state.world (List.map (onId Queue.id next.id fun _ => next)))
      (.queue next)) := by
  have fits := inv.fits sid
  rw [session] at fits
  generalize insertedIs : own state.inserted sid = inserted at fits
  generalize renamedIs : own state.renamed sid = renamed at fits
  generalize lockedIs : own state.locked sid = locked at fits
  cases fits with
  | @written _ body current _ _ stored own_ same entered =>
    have named : next.id = current.id := same.trans own_.symm
    obtain ⟨front, back, split, written⟩ :=
      onId_split (f := fun _ => next) inv.queueIds stored
    rw [named]
    set after := withQueues state.world (List.map (onId Queue.id current.id fun _ => next))
      with afterIs
    have moved : rows after = rowsBut state.world front back [.queue next] := by
      rw [afterIs, rows_withQueues, written]
      simp [rowsBut]
    have old : rows state.world = rowsBut state.world front back [.queue current] := by
      simp [rows, rowsBut, split]
    have persists : ∀ locked, current.id ∉ locked → Persists state.world after locked := by
      intro locked free
      refine persists_withQueues fun queue member held => ?_
      refine List.mem_map.mpr ⟨queue, member, if_neg fun same : queue.id = current.id =>
        free (same ▸ held)⟩
    have refsSame : Names.refs after = Names.refs state.world := by
      simp [Names.refs, moved, old, rowsBut, Row.ref, named]
    refine inv.ends (fun other different => persists _ ?_) ?_ (refsSame ▸ inv.refs.rollback sid)
      (refsSame ▸ inv.drawn) (fun member present => refsSame ▸ inv.homed member present) ?_ ?_
    · refine inv.locks_apart different ?_
      rw [lockedIs, own_]
      exact List.mem_singleton_self _
    · rcases entered with ⟨_, same⟩ | rfl
      · have keysSame : Names.keys after = Names.keys state.world := by
          simp [Names.keys, moved, old, rowsBut, same]
        exact keysSame ▸ inv.keys.rollback sid
      · have committed := inv.keys.commit sid
        rw [own_entries, insertedIs, renamedIs] at committed
        have fewer : ((rowsBut state.world front back []).map Row.key ++ [(Row.queue next).key]).Sublist
            (Names.keys state.world ++ [(Row.queue next).key]) := by
          rw [Names.keys, old]
          exact ((((List.sublist_cons_self _ _).append_left _).append_left _).map _).append_right _
        refine (committed.sublist fewer).perm ?_ (.refl _)
        rw [Names.keys, moved]
        refine List.perm_iff_count.mpr fun other => ?_
        simp only [rowsBut, List.map_append, List.map_cons, List.map_nil, List.count_append,
          List.count_nil]
        omega
    · exact .refreshing (fun _ _ _ => rfl) fun permanent => by cases permanent
    · intro answer member row reply permanent
      exact (persists [] List.not_mem_nil).rows row (inv.answered answer member row reply permanent)
        permanent

/-- The tables lose rows, or columns which no constraint is about. -/
theorem Inv.shrinks (inv : Inv state) {world : World}
    (keys : (Names.keys world).Sublist (Names.keys state.world))
    (refs : (Names.refs world).Sublist (Names.refs state.world))
    (members : world.directory.members ⊆ state.world.directory.members)
    (persists : ∀ sid, Persists state.world world (own state.locked sid)) :
    Inv { state with world } where
  keys := inv.keys.sublist keys
  refs := inv.refs.sublist refs
  drawn := fun ref listed => inv.drawn ref (refs.subset listed)
  pending := inv.pending
  homed := fun row member => (persists 0).refs (inv.homed row (members member)) rfl
  locks := inv.locks
  fits := fun sid => (inv.fits sid).mono (persists sid)
  answered := fun answer member row reply permanent =>
    (persists 0).rows row (inv.answered answer member row reply permanent) permanent

omit [Citext] in
/-- A queue which some transaction has locked. -/
theorem locked_any {id : Uuid} (free : (state.locked.any fun lock => lock.2 = id) = false) (sid : Sid) :
    id ∉ own state.locked sid := by
  intro held
  have listed := List.any_eq_false.mp free _ (mem_own.mp held)
  simp at listed

/-- Every queue keeps its constraints, and the locked ones stay. -/
theorem Inv.mapsQueues (inv : Inv state) {f : Queue → Queue}
    (same : ∀ queue, (Row.queue (f queue)).key = (Row.queue queue).key ∧ (f queue).id = queue.id)
    (kept : ∀ queue ∈ state.world.engine.db.queues, ∀ sid, queue.id ∈ own state.locked sid →
      f queue = queue) : Inv { state with world := withQueues state.world (List.map f) } := by
  have keys : Names.keys (withQueues state.world (List.map f)) = Names.keys state.world := by
    simp [Names.keys, rows, withQueues, same]
  have refs : Names.refs (withQueues state.world (List.map f)) = Names.refs state.world := by
    simp [Names.refs, rows, withQueues, Row.ref, same]
  refine inv.shrinks (keys ▸ .refl _) (refs ▸ .refl _) (List.Subset.refl _) fun sid => ?_
  exact persists_withQueues fun queue member held =>
    List.mem_map.mpr ⟨queue, member, kept queue member sid held⟩

theorem Inv.other (inv : Inv state) {request : Other} (free : request.waits state = false) :
    Inv { state with world := request.perform state.world } := by
  cases request with
  | removeMember id =>
    have fewer : (rows ((Other.removeMember id).perform state.world)).Sublist (rows state.world) := by
      refine List.Sublist.append_right (List.Sublist.append_right (List.Sublist.append_left ?_ _) _) _
      exact List.filter_sublist.map _
    refine inv.shrinks (fewer.map _) (fewer.map _) (List.filter_subset_self _) fun sid => ⟨?_, ?_⟩
    · intro row member permanent
      cases row with
      | member => cases permanent
      | _ => exact mem_rows.mpr (mem_rows.mp member)
    · exact fun queue member _ => member
  | deleteQueue id =>
    have fewer : (rows ((Other.deleteQueue id).perform state.world)).Sublist (rows state.world) :=
      List.Sublist.append_left (List.filter_sublist.map _) _
    refine inv.shrinks (fewer.map _) (fewer.map _) (List.Subset.refl _) fun sid => ?_
    refine persists_withQueues fun queue member held => List.mem_filter.mpr ⟨member, ?_⟩
    have apart : queue.id ≠ id := fun same => locked_any free sid (same ▸ held)
    simpa using apart
  | setPaused id isPaused =>
    refine inv.mapsQueues (fun queue => ?_) fun queue member sid held => ?_
    · unfold onId
      split <;> exact ⟨rfl, rfl⟩
    · exact if_neg fun same : queue.id = id => locked_any free sid (same ▸ held)
  | deleteRetryPolicy id =>
    obtain ⟨⟨queues, _⟩, _⟩ : (_ ∧ _) ∧ _ := by
      simpa only [Other.waits, Bool.or_eq_false_iff] using free
    have cleared := inv.mapsQueues (f := fun row =>
      if row.retryPolicyId = some id then { row with retryPolicyId := none } else row) ?_ ?_
    · exact cleared.shrinks (List.Sublist.refl _) (List.Sublist.refl _) (List.Subset.refl _)
        fun sid => ⟨fun _ member _ => member, fun _ member _ => member⟩
    · intro queue
      split <;> exact ⟨rfl, rfl⟩
    · intro queue member sid held
      refine if_neg fun same => ?_
      have busy := List.any_eq_false.mp queues queue member
      rw [Bool.and_eq_true, not_and] at busy
      exact busy (by simpa using same) (List.any_eq_true.mpr ⟨_, mem_own.mp held, by simp⟩)

theorem inviteMember_user {db : Directory} {actor : OrganizationMember} {body : MemberInvite}
    {user : User} (invited : Pulse.inviteMember db actor body = .ok user) :
    user ∈ db.users ∧ Citext.fold user.email = Citext.fold body.email := by
  unfold Pulse.inviteMember at invited
  split at invited
  · cases invited
  · split at invited <;> cases invited
    rename_i found
    exact ⟨List.mem_of_find?_eq_some found, by simpa using List.find?_some found⟩

theorem homed_permits (inv : Inv state) {userId orgId : Uuid} {minimum : MemberRole}
    (permits : state.world.Permits userId orgId minimum) :
    (.organizations, orgId) ∈ Names.refs state.world := by
  obtain ⟨membership, found, _⟩ := permits
  obtain ⟨present, rfl, _⟩ := Directory.findMembership_some found
  exact inv.homed membership present

/-- What follows the SELECT of the user. -/
theorem authenticated_fits {world : World} {userId : Uuid} {stage : Stage}
    (known : (.users, userId) ∈ Names.refs world) (next : call.authenticated userId = .ok stage) :
    Fits world [] [] [] (some ⟨call, stage⟩) := by
  cases call with
  | register email =>
    cases next
    exact .looking ⟨rfl, rfl, by simp [Draft.parents], by simp⟩
  | createOrg slug =>
    cases next
    refine .looking ⟨rfl, rfl, by simp [Draft.parents], ?_⟩
    rintro _ _ ⟨⟩
    exact known
  | inviteMember orgId body =>
    cases next
    exact .authorizing .member
  | createProject body =>
    cases next
    exact .authorizing .project
  | createQueue body =>
    simp only [Call.authenticated] at next
    split at next <;> cases next
    exact .authorizing .placing
  | updateQueue id body =>
    simp only [Call.authenticated] at next
    split at next <;> cases next
    exact .authorizing .queue

/-- What one statement of the authorization establishes. -/
theorem authorized_fits (inv : Inv state) {gate : Gate} {stage : Stage}
    (ready : gate.Ready state.world call) (authorized : authorize state.world call gate = .ok stage) :
    Fits state.world [] [] [] (some ⟨call, stage⟩) := by
  have users : ∀ {user : User}, user ∈ state.world.directory.users →
      (.users, user.id) ∈ Names.refs state.world := fun {user} member =>
    mem_refs.mpr ⟨.user user, mem_rows.mpr member, rfl⟩
  cases ready with
  | user =>
    obtain ⟨user, known, next⟩ := bind_ok authorized
    exact authenticated_fits (users (getCurrentUser_mem known)) next
  | @member userId orgId body =>
    obtain ⟨actor, ensured, same⟩ := bind_ok authorized
    cases same
    obtain ⟨present, inside⟩ := ensureRole_row ensured
    rw [← inside]
    exact .authorizing (.invited (inv.homed actor present))
  | invited homed =>
    obtain ⟨target, invited, same⟩ := bind_ok authorized
    cases same
    obtain ⟨present, address⟩ := inviteMember_user invited
    refine .looking ⟨⟨target, present, address, rfl⟩, rfl, ?_, by simp⟩
    simpa [Draft.parents] using ⟨homed, users present⟩
  | queue =>
    obtain ⟨loaded, found, same⟩ := bind_ok authorized
    cases same
    have named := List.find?_some (getQueue_found found)
    rw [← of_decide_eq_true named]
    exact .authorizing .fetched
  | @placing userId body =>
    obtain ⟨project, found, same⟩ := bind_ok authorized
    cases same
    exact .authorizing (.placed (getProject_ref found))
  | placed present =>
    obtain ⟨_, _, same⟩ := bind_ok authorized
    cases same
    exact .looking ⟨rfl, rfl, by simpa [Draft.parents] using present, by simp⟩
  | fetched =>
    obtain ⟨_, _, same⟩ := bind_ok authorized
    cases same
    exact .authorizing .cleared
  | cleared =>
    obtain ⟨_, _, same⟩ := bind_ok authorized
    cases same
    exact .changing rfl
  | project =>
    obtain ⟨_, ensured, same⟩ := bind_ok authorized
    cases same
    refine .looking ⟨rfl, rfl, ?_, by simp⟩
    simpa [Draft.parents] using homed_permits inv (ensureRole_permits ensured)

end Operations

end Pulse.Names
