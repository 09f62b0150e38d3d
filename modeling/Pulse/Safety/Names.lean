import Pulse.Names.Invariant

/-! Names stay unique where requests race, and every answer to such a request is justified. -/
namespace Pulse.Names
open Library.Lts Library.UniqueIndex Tenants

section Races
variable [Citext]

/-- The row which a request is about to insert, or has inserted. -/
def Session.claim : Session → Option (Table × Uuid)
  | ⟨.updateQueue _ _, _⟩ => none
  | ⟨_, .inserting _ (some row)⟩ | ⟨_, .flushed row⟩ | ⟨_, .refreshing row⟩ => some row.ref
  | _ => none

/-- The row which a statement addresses by its primary key. -/
def Stage.target : Stage → Option (Table × Uuid)
  | .updating loaded _ => some (.queues, loaded.id)
  | .refreshing row => some row.ref
  | _ => none

/-- The row which a statement of the authorization addresses by its primary key. -/
def Gate.target : Gate → Option (Table × Uuid)
  | .user userId => some (.users, userId)
  | .queue _ id _ => some (.queues, id)
  | .project _ projectId _ => some (.projects, projectId)
  | .member _ _ _ | .invited _ _ | .role _ _ _ => none

/-- Whose role in which organization it asks for. -/
def Gate.needs : Gate → Option (Uuid × Uuid)
  | .member userId orgId _ | .role userId orgId _ => some (userId, orgId)
  | _ => none

/-- The project in which a statement looks for the retry policy. -/
def Stage.scope : Stage → Option Uuid
  | .validating body => some body.projectId
  | .revalidating loaded _ => some loaded.projectId
  | _ => none

/-- What an answer says holds of the tables at that time: a refusal is for the lack of what it names, a
conflict is with a row which has the name or with the loss of the retry policy, and 500 comes of the
deletion of the row itself. -/
inductive Justified (world : World) (session : Session) : Reply → Prop where
  | unauthorized {userId : Uuid} {message : String}
      (needed : session.stage = .authorizing (.user userId)) (missing : (.users, userId) ∉ refs world) :
      Justified world session (.refused (.unauthorized message))
  | notFound {gate : Gate} {ref : Table × Uuid} {message : String}
      (needed : session.stage = .authorizing gate) (target : gate.target = some ref)
      (missing : ref ∉ refs world) : Justified world session (.refused (.notFound message))
  | nobody {actor : OrganizationMember} {body : MemberInvite} {message : String}
      (needed : session.stage = .authorizing (.invited actor body))
      (missing : ∀ user ∈ world.directory.users,
        Citext.fold user.email ≠ Citext.fold body.email) :
      Justified world session (.refused (.notFound message))
  | forbidden {gate : Gate} {userId orgId : Uuid} {message : String}
      (needed : session.stage = .authorizing gate) (asked : gate.needs = some (userId, orgId))
      (lacks : ¬ world.Permits userId orgId .admin) :
      Justified world session (.refused (.forbidden message))
  | ownersOnly {actor : OrganizationMember} {body : MemberInvite} {message : String}
      (needed : session.stage = .authorizing (.invited actor body)) (asked : body.role = .owner)
      (lacks : actor.role ≠ .owner) : Justified world session (.refused (.forbidden message))
  | invalid {message : String} (sent : session.call.valid = false) :
      Justified world session (.refused (.unprocessable message))
  | created {row : Row} (claimed : session.claim = some row.ref) (stored : row ∈ rows world)
      (named : row.ref.1.permanent = true → session.call.Asks world row.key) :
      Justified world session (.created row)
  | updated {queue : Queue} (same : session.stage.target = some (.queues, queue.id))
      (stored : queue ∈ world.engine.db.queues) : Justified world session (.updated queue)
  | taken {key : Key} {message : String} (asked : session.call.Asks world key)
      (listed : key ∈ keys world) : Justified world session (.refused (.conflict message))
  | policyGone {id : Uuid} {message : String} (asked : session.call.policy = some id)
      (gone : ∀ row ∈ world.engine.db.retryPolicies, row.id ≠ id) :
      Justified world session (.refused (.conflict message))
  | policyForeign {id projectId : Uuid} {message : String}
      (asked : session.call.policy = some id) (scope : session.stage.scope = some projectId)
      (foreign : ∀ row, (world.engine.db.retryPolicies.find? fun row => row.id = id) = some row →
        row.projectId ≠ projectId) :
      Justified world session (.refused (.unprocessable message))
  | gone {ref : Table × Uuid} (target : session.stage.target = some ref)
      (deletable : ref.1.permanent = false) (gone : ref ∉ refs world) :
      Justified world session .internalError

/-- What one statement of a request does. -/
inductive Does (state : Service) (sid : Sid) (session : Session) : Service → Prop where
  | goes {stage : Stage} (fits : Fits state.world (own state.inserted sid) (own state.renamed sid)
        (own state.locked sid) (some ⟨session.call, stage⟩))
      (claim : Session.claim ⟨session.call, stage⟩ = session.claim) :
      Does state sid session (state.go sid session.call stage)
  | answers {reply : Reply} (justified : Justified state.world session reply) :
      Does state sid session (state.answer sid session.call reply)
  | inserts {row : Row} {stage : Stage} (drawn : row.ref.2 = state.nextUuid)
      (enters : insertion (keys state.world) state.entries sid row.key = .enters)
      (fits : Fits state.world (own state.inserted sid ++ [row]) (own state.renamed sid)
        (own state.locked sid) (some ⟨session.call, stage⟩))
      (claim : Session.claim ⟨session.call, stage⟩ = some row.ref ∨
        Session.claim ⟨session.call, stage⟩ = session.claim) :
      Does state sid session { state.go sid session.call stage with
        nextUuid := state.nextUuid + 1
        inserted := state.inserted ++ [(sid, row)] }
  | locks {id : Uuid} {stage : Stage} (free : ∀ lock ∈ state.locked, lock.2 ≠ id)
      (fits : Fits state.world (own state.inserted sid) (own state.renamed sid)
        (id :: own state.locked sid) (some ⟨session.call, stage⟩))
      (claim : Session.claim ⟨session.call, stage⟩ = session.claim) :
      Does state sid session { state.go sid session.call stage with
        locked := (sid, id) :: state.locked }
  | renames {queue : Queue} {stage : Stage}
      (enters : insertion (keys state.world) state.entries sid (Row.queue queue).key = .enters)
      (fits : Fits state.world (own state.inserted sid) (queue :: own state.renamed sid)
        (own state.locked sid) (some ⟨session.call, stage⟩))
      (claim : Session.claim ⟨session.call, stage⟩ = session.claim) :
      Does state sid session { state.go sid session.call stage with
        renamed := (sid, queue) :: state.renamed }
  | commits {world : World} {row : Row} (inv : Inv (state.commit sid session.call world row))
      (claim : Session.claim ⟨session.call, .refreshing row⟩ = session.claim) :
      Does state sid session (state.commit sid session.call world row)

/-- An open transaction which has written. -/
def Service.Writes (state : Service) (sid : Sid) : Prop :=
  own state.inserted sid ≠ [] ∨ own state.renamed sid ≠ [] ∨ own state.locked sid ≠ []

section Statements
variable {state after : Service} {sid : Sid} {call : Call}

theorem admits_enters {key : Key} (enters : state.admits sid key = .enters) :
    insertion (keys state.world) state.entries sid key = .enters := by
  unfold Service.admits at enters
  split at enters
  · cases enters
  · exact enters

theorem admits_violates {key : Key} (violates : state.admits sid key = .violates) :
    key ∈ keys state.world ∨ key ∈ own state.entries sid := by
  unfold Service.admits at violates
  split at violates
  · cases violates
  · exact (violates_iff.mp violates).imp id mem_own.mpr

/-- A statement on the index waits for another transaction which has written something. -/
theorem admits_waits {key : Key} (waits : state.admits sid key = .waits) :
    ∃ other, other ≠ sid ∧ state.Writes other := by
  unfold Service.admits at waits
  split at waits
  · rename_i leaving
    obtain ⟨lock, member, free⟩ := List.any_eq_true.mp leaving
    rw [Bool.and_eq_true] at free
    exact ⟨lock.1, by simpa using free.1, .inr (.inr (List.ne_nil_of_mem (mem_own.mpr member)))⟩
  · obtain ⟨other, different, entered⟩ := waits_other waits
    have written := mem_own.mpr entered
    rw [own_entries] at written
    refine ⟨other, different, ?_⟩
    rcases List.mem_append.mp written with inserted | renamed
    · exact .inl fun none => by simp [none] at inserted
    · exact .inr (.inl fun none => by simp [none] at renamed)

theorem row_key (draft : Draft) (id : Uuid) : (draft.row id).key = draft.key := by
  cases draft <;> rfl

/-- An integrity error of an INSERT is a conflict over the name, or the loss of the policy. -/
theorem insert_justified (inv : Inv state) {draft : Draft} {first : Option Row}
    (running : state.sessions sid = some ⟨call, .inserting draft first⟩)
    (fails : draft.key ∈ keys state.world ∨ draft.key ∈ own state.entries sid ∨
      state.hasParents sid draft = false ∨ state.hasPolicy draft.policy = false) :
    Justified state.world ⟨call, .inserting draft first⟩ integrityError := by
  have fits := inv.fits sid
  rw [running] at fits
  generalize insertedIs : own state.inserted sid = inserted at fits
  generalize renamedIs : own state.renamed sid = renamed at fits
  generalize own state.locked sid = locked at fits
  rw [own_entries, insertedIs, renamedIs] at fails
  cases fits with
  | inserting asked =>
    rcases fails with listed | entered | orphan | gone
    · exact .taken asked.named listed
    · cases entered
    · obtain ⟨ref, parent, missing⟩ := List.all_eq_false.mp orphan
      simp [asked.parents ref parent] at missing
    · obtain ⟨id, policy, gone⟩ := hasPolicy_false gone
      exact .policyGone (asked.policy.symm.trans policy) gone
  | @founding slug userId org creator named =>
    have pending : (sid, Row.organization org) ∈ state.inserted :=
      mem_own.mp (insertedIs ▸ List.mem_singleton_self _)
    rcases fails with listed | entered | orphan | gone
    · -- a member of an organization which is not there yet
      obtain ⟨row, member, same⟩ := List.mem_map.mp listed
      cases row with
      | member row =>
        have inside : row.orgId = org.id := by
          simp only [Row.key, Draft.key, Draft.row, Key.membership.injEq] at same
          exact same.1
        have homed := inv.homed row (mem_rows.mp member)
        rw [inside] at homed
        exact absurd homed (inv.refs.fresh (List.mem_map_of_mem (f := Prod.map id Row.ref) pending))
      | _ => cases same
    · simp [Draft.key, Draft.row, Row.key] at entered
    · obtain ⟨ref, parent, missing⟩ := List.all_eq_false.mp orphan
      simp only [Draft.parents, List.mem_cons, List.not_mem_nil, or_false] at parent
      rcases parent with rfl | rfl
      · simp [insertedIs, Row.ref] at missing
      · simp [creator] at missing
    · cases gone

theorem insert_does (inv : Inv state) {draft : Draft} {first : Option Row}
    (running : state.sessions sid = some ⟨call, .inserting draft first⟩)
    (taken : insert state sid call draft first = some after) :
    Does state sid ⟨call, .inserting draft first⟩ after := by
  have fits := inv.fits sid
  rw [running] at fits
  unfold insert at taken
  dsimp only at taken
  rw [row_key] at taken
  split at taken
  · rename_i violates
    cases taken
    refine .answers (insert_justified inv running ?_)
    exact (admits_violates violates).imp id .inl
  · cases taken
  · rename_i enters
    have entering := admits_enters enters
    rw [← row_key draft state.nextUuid] at entering
    split at taken
    · rename_i broken
      cases taken
      refine .answers (insert_justified inv running (.inr (.inr ?_)))
      rwa [Bool.not_eq_true', Bool.and_eq_false_iff] at broken
    · cases taken
      refine .inserts (row_drawn draft _) entering ?_ ?_
      · generalize own state.inserted sid = inserted at fits
        generalize own state.renamed sid = renamed at fits
        generalize own state.locked sid = locked at fits
        cases fits with
        | inserting asked =>
          cases draft with
          | organization slug userId =>
            cases call with
            | createOrg wanted =>
              have same : slug = wanted := by simpa [Draft.key, Draft.row, Row.key, Call.Asks] using
                asked.named
              exact .founding (asked.creator slug userId rfl) same
            | inviteMember orgId body =>
              obtain ⟨_, _, _, same⟩ := asked.named
              cases same
            | updateQueue id body =>
              obtain ⟨_, _, _, same⟩ := asked.named
              cases same
            | _ => cases asked.named
          | member orgId userId role =>
            refine .flushed (.one asked.named fun member same => ?_)
            cases same
            exact asked.parents _ List.mem_cons_self
          | _ =>
            refine .flushed (.one asked.named fun member same => ?_)
            cases same
        | founding creator named =>
          exact .flushed (.founded (congrArg Key.orgSlug named) rfl)
      · generalize own state.inserted sid = inserted at fits
        generalize own state.renamed sid = renamed at fits
        generalize own state.locked sid = locked at fits
        cases fits with
        | inserting asked =>
          cases call with
          | updateQueue => exact .inr rfl
          | _ => cases draft <;> exact .inl rfl
        | founding => exact .inr rfl

theorem lock_does (inv : Inv state) {loaded : Queue} {body : QueueUpdate}
    (running : state.sessions sid = some ⟨call, .updating loaded body⟩)
    (taken : lockQueue state sid call loaded body = some after) :
    Does state sid ⟨call, .updating loaded body⟩ after := by
  have fits := inv.fits sid
  rw [running] at fits
  generalize insertedIs : own state.inserted sid = inserted at fits
  generalize renamedIs : own state.renamed sid = renamed at fits
  generalize lockedIs : own state.locked sid = locked at fits
  cases fits with
  | @updating id _ _ own_ =>
    unfold lockQueue at taken
    split at taken
    · cases taken
      refine .commits ?_ rfl
      exact inv.ends (fun _ _ => .refl _ _) (inv.keys.rollback sid) (inv.refs.rollback sid) inv.drawn
        inv.homed (.refreshing (fun _ _ _ => rfl) fun permanent => by cases permanent) inv.answered
    · split at taken
      · rename_i missing
        cases taken
        refine .answers (@Justified.gone _ _ _ (.queues, loaded.id) rfl rfl fun listed => ?_)
        obtain ⟨queue, member, same⟩ := ref_queues listed
        exact findQueue_none missing queue member same
      · rename_i current found
        have named : current.id = loaded.id := by simpa using List.find?_some found
        split at taken
        · cases taken
        · rename_i free
          cases taken
          refine .locks (fun lock member same => ?_) ?_ rfl
          · refine free (List.any_eq_true.mpr ⟨lock, member, ?_⟩)
            have other : lock.1 ≠ sid := by
              rintro rfl
              have held := mem_own.mpr (show (lock.1, lock.2) ∈ state.locked from member)
              rw [lockedIs] at held
              cases held
            simp [other, same]
          · rw [insertedIs, renamedIs, lockedIs, named.trans own_]
            exact .locked (List.mem_of_find?_eq_some found) (named.trans own_) (named.trans own_) rfl
              (getD_dirty _ _ _) (getD_dirty _ _ _)

theorem enter_does (inv : Inv state) {current next : Queue}
    (running : state.sessions sid = some ⟨call, .locked current next⟩)
    (taken : enterName state sid call current next = some after) :
    Does state sid ⟨call, .locked current next⟩ after := by
  have fits := inv.fits sid
  rw [running] at fits
  generalize insertedIs : own state.inserted sid = inserted at fits
  generalize renamedIs : own state.renamed sid = renamed at fits
  generalize lockedIs : own state.locked sid = locked at fits
  cases fits with
  | @locked id body _ _ stored own_ same project name policy =>
    have gone : (next.retryPolicyId = current.retryPolicyId || state.hasPolicy next.retryPolicyId) =
        false → Justified state.world ⟨.updateQueue id body, .locked current next⟩ integrityError := by
      intro invalid
      obtain ⟨changed, missing⟩ : ¬ next.retryPolicyId = current.retryPolicyId ∧
          state.hasPolicy next.retryPolicyId = false := by simpa using invalid
      obtain ⟨policyId, sent, gone⟩ := hasPolicy_false missing
      have asked := policy.resolve_left changed
      refine @Justified.policyGone _ _ _ policyId _ ?_ gone
      simp [Call.policy, asked, sent]
    unfold enterName at taken
    dsimp only at taken
    split at taken
    · rename_i unchanged
      split at taken
      · cases taken
        refine .goes ?_ rfl
        rw [insertedIs, renamedIs, lockedIs]
        exact .written stored own_ same (.inl ⟨rfl, by simp [Row.key, project, unchanged]⟩)
      · rename_i invalid
        cases taken
        exact .answers (gone (Bool.eq_false_iff.mpr invalid))
    · rename_i changed
      have asked : (Call.updateQueue id body).Asks state.world (Row.queue next).key :=
        ⟨next.projectId, next.name, name.resolve_left changed, rfl⟩
      split at taken
      · rename_i violates
        cases taken
        refine .answers ?_
        rcases admits_violates violates with listed | entered
        · exact .taken asked listed
        · rw [own_entries, insertedIs, renamedIs] at entered
          cases entered
      · cases taken
      · rename_i enters
        split at taken
        · cases taken
          refine .renames (admits_enters enters) ?_ rfl
          rw [insertedIs, renamedIs, lockedIs]
          exact .written stored own_ same (.inr rfl)
        · rename_i invalid
          cases taken
          exact .answers (gone (Bool.eq_false_iff.mpr invalid))

theorem inviteMember_error {world : World} {actor : OrganizationMember} {body : MemberInvite}
    {error : ApiError} (failed : Pulse.inviteMember world.directory actor body = .error error) :
    ((∀ user ∈ world.directory.users, Citext.fold user.email ≠ Citext.fold body.email) ∧
      ∃ message, error = .notFound message) ∨
    (body.role = .owner ∧ actor.role ≠ .owner) ∧ ∃ message, error = .forbidden message := by
  unfold Pulse.inviteMember at failed
  split at failed
  · rename_i refused
    cases failed
    right
    simp only [ensureWhere, ensureCanManageOwnerRole] at refused
    split at refused
    · rename_i owner
      split at refused <;> cases refused
      rename_i lacks
      exact ⟨⟨by simpa using owner, lacks⟩, _, rfl⟩
    · cases refused
  · split at failed <;> cases failed
    rename_i missing
    left
    refine ⟨fun user member same => ?_, _, rfl⟩
    have none := List.find?_eq_none.mp missing user member
    simp [same] at none

/-- A statement of the authorization refuses for a reason. -/
theorem refused_justified {world : World} {gate : Gate} {error : ApiError}
    (refused : authorize world call gate = .error error) :
    Justified world ⟨call, .authorizing gate⟩ (.refused error) := by
  cases gate with
  | user userId =>
    rcases bind_error refused with failed | ⟨user, _, failed⟩
    · obtain ⟨missing, message, rfl⟩ := getCurrentUser_error failed
      exact .unauthorized rfl missing
    · obtain ⟨invalid, message, rfl⟩ := authenticated_error failed
      exact .invalid invalid
  | member userId orgId body =>
    rcases bind_error refused with failed | ⟨_, _, failed⟩
    · obtain ⟨lacks, message, rfl⟩ := ensureRole_error failed
      exact .forbidden rfl rfl lacks
    · cases failed
  | invited actor body =>
    rcases bind_error refused with failed | ⟨_, _, failed⟩
    · rcases inviteMember_error failed with ⟨missing, message, rfl⟩ | ⟨⟨asked, lacks⟩, message, rfl⟩
      · exact .nobody rfl missing
      · exact .ownersOnly rfl asked lacks
    · cases failed
  | queue userId id body =>
    rcases bind_error refused with failed | ⟨_, _, failed⟩
    · obtain ⟨missing, message, rfl⟩ := getQueue_missing failed
      exact .notFound rfl rfl missing
    · cases failed
  | project userId projectId goal =>
    rcases bind_error refused with failed | ⟨_, _, failed⟩
    · obtain ⟨missing, message, rfl⟩ := getProject_missing failed
      exact .notFound rfl rfl missing
    · cases failed
  | role userId orgId goal =>
    rcases bind_error refused with failed | ⟨_, _, failed⟩
    · obtain ⟨lacks, message, rfl⟩ := ensureRole_error failed
      exact .forbidden rfl rfl lacks
    · cases failed

/-- The authorization claims no row. -/
theorem authorized_unclaimed {world : World} {gate : Gate} {stage : Stage}
    (authorized : authorize world call gate = .ok stage) : Session.claim ⟨call, stage⟩ = none := by
  cases gate with
  | user userId =>
    obtain ⟨user, _, next⟩ := bind_ok authorized
    cases call with
    | createQueue | updateQueue =>
      simp only [Call.authenticated] at next
      split at next <;> cases next
      rfl
    | _ =>
      cases next
      rfl
  | member | invited | queue | project =>
    obtain ⟨_, _, same⟩ := bind_ok authorized
    cases same
    cases call <;> rfl
  | role userId orgId goal =>
    obtain ⟨_, _, same⟩ := bind_ok authorized
    cases same
    cases goal <;> cases call <;> rfl

theorem Session.next_does (inv : Inv state) {session : Session}
    (running : state.sessions sid = some session) (taken : session.next state sid = some after) :
    Does state sid session after := by
  obtain ⟨call, stage⟩ := session
  have fits := inv.fits sid
  rw [running] at fits
  cases stage with
  | authorizing gate =>
    simp only [Session.next] at taken
    generalize insertedIs : own state.inserted sid = inserted at fits
    generalize renamedIs : own state.renamed sid = renamed at fits
    generalize lockedIs : own state.locked sid = locked at fits
    cases fits with
    | authorizing ready =>
      split at taken
      · rename_i refused
        cases taken
        exact .answers (refused_justified refused)
      · rename_i stage authorized
        cases taken
        refine .goes ?_ ?_
        · rw [insertedIs, renamedIs, lockedIs]
          exact authorized_fits inv ready authorized
        · rw [authorized_unclaimed authorized]
          cases call <;> rfl
  | inserting draft first => exact insert_does inv running taken
  | updating loaded body => exact lock_does inv running taken
  | locked current next => exact enter_does inv running taken
  | flushed first =>
    cases taken
    exact .commits (inv.publishes running) (by cases call <;> rfl)
  | written next =>
    cases taken
    refine .commits (inv.publishesUpdate running) ?_
    generalize own state.inserted sid = inserted at fits
    generalize own state.renamed sid = renamed at fits
    generalize own state.locked sid = locked at fits
    cases fits
    rfl
  | looking draft =>
    simp only [Session.next] at taken
    generalize insertedIs : own state.inserted sid = inserted at fits
    generalize renamedIs : own state.renamed sid = renamed at fits
    generalize lockedIs : own state.locked sid = locked at fits
    cases fits with
    | looking asked =>
      split at taken
      · rename_i existing
        cases taken
        exact .answers (.taken asked.named ((existing_iff draft _).mp existing))
      · split at taken <;> cases taken
        · refine .goes ?_ (by cases call <;> rfl)
          rw [insertedIs, renamedIs, lockedIs]
          exact .validating asked
        · refine .goes ?_ (by cases call <;> rfl)
          rw [insertedIs, renamedIs, lockedIs]
          exact .inserting asked
  | validating body =>
    simp only [Session.next] at taken
    generalize insertedIs : own state.inserted sid = inserted at fits
    generalize renamedIs : own state.renamed sid = renamed at fits
    generalize lockedIs : own state.locked sid = locked at fits
    cases fits with
    | validating asked =>
      split at taken
      · cases taken
        refine .goes ?_ (by cases call <;> rfl)
        rw [insertedIs, renamedIs, lockedIs]
        exact .inserting asked
      · rename_i invalid
        cases taken
        obtain ⟨id, sent, foreign⟩ := validateRetryPolicy_sent invalid
        exact .answers (.policyForeign (asked.policy.symm.trans sent) rfl foreign)
  | changing loaded body =>
    simp only [Session.next] at taken
    generalize insertedIs : own state.inserted sid = inserted at fits
    generalize renamedIs : own state.renamed sid = renamed at fits
    generalize lockedIs : own state.locked sid = locked at fits
    cases fits with
    | changing same =>
      split at taken
      · rename_i existing
        cases taken
        obtain ⟨name, sent, found⟩ := (Option.any_eq_true _ _).mp existing
        rw [Bool.and_eq_true] at found
        obtain ⟨queue, member, named⟩ := List.any_eq_true.mp found.2
        obtain ⟨project, title⟩ : queue.projectId = loaded.projectId ∧ queue.name = name := by
          simpa using named
        refine .answers (@Justified.taken _ _ _ (Row.queue queue).key _ ?_ ?_)
        · exact ⟨queue.projectId, queue.name, title ▸ sent, rfl⟩
        · exact List.mem_map_of_mem (mem_rows.mpr member)
      · cases taken
        refine .goes ?_ rfl
        rw [insertedIs, renamedIs, lockedIs]
        exact .revalidating same
  | revalidating loaded body =>
    simp only [Session.next] at taken
    generalize insertedIs : own state.inserted sid = inserted at fits
    generalize renamedIs : own state.renamed sid = renamed at fits
    generalize lockedIs : own state.locked sid = locked at fits
    cases fits with
    | revalidating same =>
      split at taken
      · cases taken
        refine .goes ?_ rfl
        rw [insertedIs, renamedIs, lockedIs]
        exact .updating same
      · rename_i invalid
        cases taken
        obtain ⟨id, sent, foreign⟩ := validateRetryPolicy_sent invalid
        exact .answers (.policyForeign sent rfl foreign)
  | refreshing row =>
    simp only [Session.next] at taken
    generalize own state.inserted sid = inserted at fits
    generalize own state.renamed sid = renamed at fits
    generalize own state.locked sid = locked at fits
    cases fits with
    | refreshing kind stored =>
      split at taken
      · rename_i missing
        cases taken
        have absent : row.ref ∉ refs state.world := by
          intro listed
          obtain ⟨found, member, same⟩ := List.mem_map.mp listed
          simpa [same] using List.find?_eq_none.mp missing found member
        refine .answers (.gone rfl ?_ absent)
        refine Bool.eq_false_iff.mpr fun permanent => absent ?_
        exact List.mem_map_of_mem (stored permanent).1
      · rename_i queue found
        have same : (Row.queue queue).ref = row.ref := by simpa using List.find?_some found
        have member := List.mem_of_find?_eq_some found
        cases taken
        refine .answers ?_
        split
        · exact .updated (congrArg some same.symm) (mem_rows.mp member)
        · rename_i other
          refine .created ?_ member fun permanent => by cases permanent
          cases call with
          | updateQueue id body => exact absurd rfl (other id body)
          | _ => exact congrArg some same.symm
      · rename_i found other seen
        have same : found.ref = row.ref := by simpa using List.find?_some seen
        have member := List.mem_of_find?_eq_some seen
        cases taken
        refine .answers (.created ?_ member fun permanent => ?_)
        · cases call with
          | updateQueue id body =>
            have queue := (congrArg Prod.fst same).trans (kind id body rfl)
            cases found with
            | queue row => exact absurd rfl (other row)
            | _ => cases queue
          | _ => exact congrArg some same.symm
        · obtain ⟨present, named⟩ := stored (same ▸ permanent)
          rwa [List.inj_on_of_nodup_map inv.refs.rows member present same]

theorem Inv.does (inv : Inv state) {session : Session} (does : Does state sid session after) :
    Inv after := by
  cases does with
  | goes fits => exact inv.go fits
  | answers justified =>
    refine inv.answer fun row created _ => ?_
    subst created
    cases justified
    assumption
  | inserts drawn enters fits => exact inv.inserts drawn enters fits
  | locks free fits => exact inv.locks_ free fits
  | renames enters fits => exact inv.renames enters fits
  | commits inv => exact inv

theorem step_begin {userId : Uuid} (taken : step state (.begin sid userId call) = some after) :
    state.sessions sid = none ∧ after = state.go sid call (call.start userId) := by
  simp only [step] at taken
  split at taken
  · cases taken
  · rename_i idle
    exact ⟨by simpa using idle, (Option.some.inj taken).symm⟩

/-- A failed request is answered 500, or not at all. -/
theorem step_fail {handled : Bool} (taken : step state (.fail sid handled) = some after) :
    ∃ session, state.sessions sid = some session ∧
      (handled = true ∧ after = state.answer sid session.call .internalError ∨
        after = state.rollback sid) := by
  obtain ⟨session, running, made⟩ := Option.map_eq_some_iff.mp taken
  refine ⟨session, running, ?_⟩
  split at made
  · rename_i answered
    exact .inl ⟨answered, made.symm⟩
  · exact .inr made.symm

theorem start_fits (world : World) (userId : Uuid) (call : Call) :
    Fits world [] [] [] (some ⟨call, call.start userId⟩) := by
  cases call with
  | register email => exact .looking ⟨rfl, rfl, by simp [Draft.parents], by simp⟩
  | _ => exact .authorizing .user

/-- A session without a request has written nothing. -/
theorem Inv.clean (inv : Inv state) (idle : state.sessions sid = none) :
    own state.inserted sid = [] ∧ own state.renamed sid = [] ∧ own state.locked sid = [] := by
  have fits := inv.fits sid
  rw [idle] at fits
  generalize own state.inserted sid = inserted at fits ⊢
  generalize own state.renamed sid = renamed at fits ⊢
  generalize own state.locked sid = locked at fits ⊢
  cases fits
  exact ⟨rfl, rfl, rfl⟩

theorem Inv.step (inv : Inv state) {move : Move} (taken : Names.step state move = some after) :
    Inv after := by
  cases move with
  | begin sid userId call =>
    obtain ⟨idle, rfl⟩ := step_begin taken
    obtain ⟨inserted, renamed, locked⟩ := inv.clean idle
    refine inv.go ?_
    rw [inserted, renamed, locked]
    exact start_fits state.world userId call
  | next sid =>
    obtain ⟨session, running, made⟩ := Option.bind_eq_some_iff.mp taken
    exact inv.does (session.next_does inv running made)
  | fail sid handled =>
    obtain ⟨session, _, ⟨_, rfl⟩ | rfl⟩ := step_fail taken
    · exact inv.answer fun row created => by cases created
    · exact inv.rollback sid
  | other request =>
    simp only [Names.step] at taken
    split at taken
    · cases taken
    · rename_i free
      cases taken
      exact inv.other (Bool.eq_false_iff.mpr free)

end Statements
end Races

/-! Whom a row is answered to. -/

/-- Rows which requests have claimed, each at most one, and those which were answered. -/
structure Once (claims : Sid → Option (Table × Uuid)) (answered : List (Table × Uuid))
    (bound : Uuid) : Prop where
  drawn : ∀ sid ref, claims sid = some ref → ref.2 < bound ∧ ref ∉ answered
  apart : ∀ first second ref, claims first = some ref → claims second = some ref → first = second
  once : answered.Nodup
  older : ∀ ref ∈ answered, ref.2 < bound

section Claims
variable {claims later : Sid → Option (Table × Uuid)} {answered : List (Table × Uuid)}
  {bound : Uuid} {sid : Sid} {ref : Table × Uuid}

theorem Once.keeps (once : Once claims answered bound)
    (kept : ∀ sid ref, later sid = some ref → claims sid = some ref) : Once later answered bound where
  drawn := fun sid ref claimed => once.drawn sid ref (kept sid ref claimed)
  apart := fun first second ref left right =>
    once.apart first second ref (kept first ref left) (kept second ref right)
  once := once.once
  older := once.older

theorem Once.draws (once : Once claims answered bound) (fresh : ref.2 = bound)
    (own_ : later sid = some ref) (others : ∀ other, other ≠ sid → later other = claims other) :
    Once later answered (bound + 1) := by
  have claimed : ∀ other row, later other = some row → (other = sid ∧ row = ref) ∨
      (other ≠ sid ∧ claims other = some row) := by
    intro other row found
    by_cases same : other = sid
    · subst same
      exact .inl ⟨rfl, Option.some.inj (found.symm.trans own_)⟩
    · exact .inr ⟨same, (others other same).symm.trans found⟩
  have unused : ∀ other, claims other ≠ some ref := fun other found =>
    absurd (once.drawn other ref found).1 (fresh ▸ Nat.lt_irrefl _)
  refine ⟨fun other row found => ?_, fun first second row left right => ?_, once.once,
    fun row listed => Nat.lt_succ_of_lt (once.older row listed)⟩
  · rcases claimed other row found with ⟨_, rfl⟩ | ⟨_, old⟩
    · exact ⟨fresh ▸ Nat.lt_succ_self _, fun listed =>
        absurd (once.older _ listed) (fresh ▸ Nat.lt_irrefl _)⟩
    · obtain ⟨older, open_⟩ := once.drawn other row old
      exact ⟨Nat.lt_succ_of_lt older, open_⟩
  · rcases claimed first row left with ⟨rfl, rfl⟩ | ⟨_, old⟩
    · rcases claimed second _ right with ⟨rfl, _⟩ | ⟨_, old⟩
      · rfl
      · exact absurd old (unused second)
    · rcases claimed second row right with ⟨_, rfl⟩ | ⟨_, also⟩
      · exact absurd old (unused first)
      · exact once.apart first second row old also

theorem Once.answers (once : Once claims answered bound) (claimed : claims sid = some ref)
    (own_ : later sid = none) (others : ∀ other, other ≠ sid → later other = claims other) :
    Once later (ref :: answered) bound := by
  have kept : ∀ other row, later other = some row → other ≠ sid ∧ claims other = some row := by
    intro other row found
    have different : other ≠ sid := by
      rintro rfl
      cases own_.symm.trans found
    exact ⟨different, (others other different).symm.trans found⟩
  obtain ⟨older, open_⟩ := once.drawn sid ref claimed
  refine ⟨fun other row found => ?_, fun first second row left right => ?_,
    List.nodup_cons.mpr ⟨open_, once.once⟩, List.forall_mem_cons.mpr ⟨older, once.older⟩⟩
  · obtain ⟨different, old⟩ := kept other row found
    refine ⟨(once.drawn other row old).1, fun listed => ?_⟩
    rcases List.mem_cons.mp listed with rfl | listed
    · exact different (once.apart other sid row old claimed)
    · exact (once.drawn other row old).2 listed
  · exact once.apart first second row (kept first row left).2 (kept second row right).2

end Claims

def Answer.claim : Answer → Option (Table × Uuid)
  | ⟨_, .created row⟩ => some row.ref
  | _ => none

/-- The name which a 201 gives away for good. -/
def Answer.name [Citext] : Answer → Option Key
  | ⟨_, .created row⟩ => if row.ref.1.permanent then some row.key else none
  | _ => none

def Service.claim (state : Service) (sid : Sid) : Option (Table × Uuid) :=
  (state.sessions sid).bind Session.claim

/-- No row is answered for twice. -/
def Service.Once (state : Service) : Prop :=
  Names.Once state.claim (state.answers.filterMap Answer.claim) state.nextUuid

section Answers
variable {state : Service} {sid : Sid} {call : Call}

theorem claim_update {sessions : Sid → Option Session} {next : Option Session} (other : Sid)
    (different : other ≠ sid) : (Function.update sessions sid next other).bind Session.claim =
      (sessions other).bind Session.claim := by
  rw [Function.update_of_ne different]

theorem Once.goes {claims : Sid → Option (Table × Uuid)} {answered : List (Table × Uuid)} {bound : Uuid}
    (once : Names.Once claims answered bound) {later : Sid → Option (Table × Uuid)} (sid : Sid)
    (own_ : later sid = none ∨ later sid = claims sid)
    (others : ∀ other, other ≠ sid → later other = claims other) :
    Names.Once later answered bound := by
  refine once.keeps fun other ref claimed => ?_
  by_cases same : other = sid
  · subst same
    rcases own_ with none | kept
    · cases none.symm.trans claimed
    · exact kept.symm.trans claimed
  · exact (others other same).symm.trans claimed

theorem Service.Once.answered (once : state.Once) {reply : Reply}
    (claimed : ∀ row, reply = .created row → state.claim sid = some row.ref) :
    (state.answer sid call reply).Once := by
  have own_ : (state.answer sid call reply).claim sid = none := by
    simp [Service.claim, Service.answer, Service.rollback]
  cases reply with
  | created row => exact Names.Once.answers once (claimed row rfl) own_ fun other => claim_update other
  | _ => exact Once.goes once sid (.inl own_) fun other => claim_update other

end Answers

section Runs
variable [Citext] {state after : Service} {sid : Sid} {call : Call}

theorem Service.Once.does (once : state.Once) {session : Session}
    (running : state.sessions sid = some session) (does : Does state sid session after) :
    after.Once := by
  have claimed : state.claim sid = session.claim := by simp [Service.claim, running]
  have goes : ∀ {stage}, Session.claim ⟨session.call, stage⟩ = session.claim →
      (state.go sid session.call stage).Once := by
    intro stage claim
    refine Once.goes once sid (.inr ?_) fun other => claim_update other
    rw [claimed, ← claim]
    simp [Service.claim, Service.go]
  cases does with
  | goes _ claim => exact goes claim
  | answers justified =>
    refine once.answered fun row created => ?_
    subst created
    cases justified
    rwa [claimed]
  | @inserts row stage drawn _ _ claim =>
    rcases claim with new | kept
    · refine Names.Once.draws once drawn ?_ fun other => claim_update other
      simpa [Service.claim, Service.go] using new
    · have kept := goes kept
      exact ⟨fun other ref found => (kept.drawn other ref found).imp Nat.lt_succ_of_lt id, kept.apart,
        kept.once, fun ref listed => Nat.lt_succ_of_lt (kept.older ref listed)⟩
  | locks _ _ claim => exact goes claim
  | renames _ _ claim => exact goes claim
  | commits _ claim => exact goes claim

theorem Service.Once.step (once : state.Once) (inv : Inv state) {move : Move}
    (taken : Names.step state move = some after) : after.Once := by
  cases move with
  | begin sid userId call =>
    obtain ⟨idle, rfl⟩ := step_begin taken
    refine Once.goes once sid (.inl ?_) fun other => claim_update other
    cases call <;> simp [Service.claim, Service.go, Session.claim, Call.start]
  | next sid =>
    obtain ⟨session, running, made⟩ := Option.bind_eq_some_iff.mp taken
    exact once.does running (session.next_does inv running made)
  | fail sid handled =>
    obtain ⟨session, _, ⟨_, rfl⟩ | rfl⟩ := step_fail taken
    · exact once.answered fun row created => by cases created
    · refine Once.goes once sid (.inl ?_) fun other => claim_update other
      simp [Service.claim, Service.rollback]
  | other request =>
    simp only [Names.step] at taken
    split at taken
    · cases taken
    · cases taken
      exact once

theorem Inv.reachable (reachable : names.Reachable anyStep state) : Inv state ∧ state.Once := by
  refine @Machine.Reachable.invariant _ _ names anyStep (fun state => Inv state ∧ state.Once) ?_ ?_
    state reachable
  · rintro state ⟨keys, refs, drawn, homed, idle, inserted, renamed, locked, answers⟩
    refine ⟨⟨?_, ?_, drawn, ?_, homed, ?_, fun sid => ?_, ?_⟩, ?_, ?_, ?_, ?_⟩
    · simpa [Library.UniqueIndex.Unique, Service.entries, inserted, renamed] using keys
    · simpa [Library.UniqueIndex.Unique, inserted] using refs
    · simp [inserted]
    · simp [locked]
    · rw [inserted, renamed, locked, idle]
      exact .none
    · simp [answers]
    · simp [Service.claim, idle]
    · simp [Service.claim, idle]
    · simp [answers]
    · simp [answers]
  · exact fun _ _ _ both _ taken => ⟨both.1.step taken, both.2.step both.1 taken⟩

/-- The names given away for good are all different. -/
theorem Inv.names_once (inv : Inv state) (once : state.Once) :
    (state.answers.filterMap Answer.name).Nodup := by
  refine List.pairwise_filterMap.mpr ?_
  refine (List.pairwise_filterMap.mp once.once).imp_of_mem fun {first second} left right apart => ?_
  intro key named other also same
  have given : ∀ answer ∈ state.answers, ∀ key, Answer.name answer = some key →
      ∃ row, answer.reply = .created row ∧ row ∈ rows state.world ∧ row.key = key ∧
        answer.claim = some row.ref := by
    rintro ⟨call, reply⟩ listed key named
    cases reply with
    | created row =>
      simp only [Answer.name] at named
      split at named
      · rename_i permanent
        exact ⟨row, rfl, inv.answered _ listed row rfl permanent, Option.some.inj named, rfl⟩
      · cases named
    | _ => cases named
  obtain ⟨row, _, stored, rfl, claim⟩ := given first left key named
  obtain ⟨row', _, stored', rfl, claim'⟩ := given second right other also
  have one := List.inj_on_of_nodup_map inv.keys.rows stored stored' same
  exact apart _ claim _ claim' (congrArg Row.ref one)

/-- A request which has to wait waits for another open transaction which has written. -/
theorem Session.next_waits {session : Session} (waits : session.next state sid = none) :
    ∃ other, other ≠ sid ∧ state.Writes other := by
  obtain ⟨call, stage⟩ := session
  cases stage with
  | inserting draft first =>
    simp only [Session.next, insert] at waits
    split at waits
    · cases waits
    · rename_i held
      exact admits_waits held
    · split at waits <;> cases waits
  | updating loaded body =>
    simp only [Session.next, lockQueue] at waits
    split at waits
    · cases waits
    · split at waits
      · cases waits
      · split at waits
        · rename_i held
          obtain ⟨lock, member, other⟩ := List.any_eq_true.mp held
          rw [Bool.and_eq_true] at other
          exact ⟨lock.1, by simpa using other.1,
            .inr (.inr (List.ne_nil_of_mem (mem_own.mpr member)))⟩
        · cases waits
  | locked current next =>
    simp only [Session.next, enterName] at waits
    split at waits
    · split at waits <;> cases waits
    · split at waits
      · cases waits
      · rename_i held
        exact admits_waits held
      · split at waits <;> cases waits
  | looking draft =>
    simp only [Session.next] at waits
    split at waits
    · cases waits
    · split at waits <;> cases waits
  | authorizing | validating | changing | revalidating =>
    simp only [Session.next] at waits
    split at waits <;> cases waits
  | flushed | written => cases waits
  | refreshing row =>
    simp only [Session.next] at waits
    split at waits <;> cases waits

/-- In every interleaving of the requests, with others, failures and lost races: names are unique at
any time, no email, slug of an organization or slug of a project in one is given to two requests, every
answer is justified by the tables or is the 500 for a failure, and a request only ever waits for a
transaction which has written. -/
theorem names_unique (reachable : names.Reachable anyStep state) :
    (keys state.world).Nodup ∧ (state.answers.filterMap Answer.claim).Nodup ∧
      (state.answers.filterMap Answer.name).Nodup ∧
      (∀ move after, step state move = some after → after.answers = state.answers ∨
        ∃ sid session reply, state.sessions sid = some session ∧
          after.answers = ⟨session.call, reply⟩ :: state.answers ∧
          (move = .next sid ∧ Justified state.world session reply ∨
            move = .fail sid true ∧ reply = .internalError)) ∧
      ∀ sid session, state.sessions sid = some session → step state (.next sid) = none →
        ∃ other, other ≠ sid ∧ state.Writes other := by
  obtain ⟨inv, once⟩ := Inv.reachable reachable
  refine ⟨inv.keys.rows, once.once, inv.names_once once, fun move after taken => ?_,
    fun sid session running waits => ?_⟩
  · cases move with
    | begin sid userId call =>
      obtain ⟨_, rfl⟩ := step_begin taken
      exact .inl rfl
    | next sid =>
      obtain ⟨session, running, made⟩ := Option.bind_eq_some_iff.mp taken
      cases session.next_does inv running made with
      | answers justified => exact .inr ⟨sid, session, _, running, rfl, .inl ⟨rfl, justified⟩⟩
      | _ => exact .inl rfl
    | fail sid handled =>
      obtain ⟨session, running, ⟨rfl, rfl⟩ | rfl⟩ := step_fail taken
      · exact .inr ⟨sid, session, _, running, rfl, .inr ⟨rfl, rfl⟩⟩
      · exact .inl rfl
    | other request =>
      simp only [step] at taken
      split at taken
      · cases taken
      · cases taken
        exact .inl rfl
  · simp only [step, running, Option.bind_some] at waits
    exact session.next_waits waits

end Runs


/-- An organization with one project, its queue and its owner. -/
def acme : World where
  directory := {
    users := [⟨1, "ada@a.io"⟩]
    organizations := [⟨2, "acme"⟩]
    members := [⟨3, 2, 1, .owner⟩] }
  projects := [⟨4, 2, "Mail", "mail"⟩]
  engine := { db := { queues := [⟨5, 4, none, "default", 0, 5, none, false⟩] } }

/-- Two users register with one address; a queue gets the name with which another is created; and
a user who is no member creates a project. -/
def races : List Move := [
  .begin 1 0 (.register "bob@a.io"),
  .begin 2 0 (.register "Bob@a.io"),
  .next 1,
  .next 2,
  .next 1,
  .next 1,
  .next 2,
  .next 1,
  .begin 3 1 (.createQueue { projectId := 4, name := "mail" }),
  .begin 4 1 (.updateQueue 5 { name := some "mail" }),
  .next 3,
  .next 3,
  .next 3,
  .next 4,
  .next 4,
  .next 4,
  .next 4,
  .next 3,
  .next 3,
  .next 4,
  .next 4,
  .next 4,
  .next 4,
  .next 4,
  .next 3,
  .next 4,
  .begin 5 10 (.createProject { orgId := 2, name := "Web", slug := "web" }),
  .next 5,
  .next 5]

attribute [local instance] Citext.ascii

theorem names_unique_races : ∃ state, names.Reachable anyStep state ∧
    state.answers.map Answer.reply = [.refused (.forbidden "You are not a member of this organization"),
      .updated ⟨5, 4, none, "mail", 0, 5, none, false⟩, integrityError,
      .created (.user ⟨10, "bob@a.io"⟩), integrityError] ∧
    (keys state.world).Nodup ∧ (state.answers.filterMap Answer.claim).Nodup ∧
    (state.answers.filterMap Answer.name).Nodup ∧
    (∀ move after, step state move = some after → after.answers = state.answers ∨
      ∃ sid session reply, state.sessions sid = some session ∧
        after.answers = ⟨session.call, reply⟩ :: state.answers ∧
        (move = .next sid ∧ Justified state.world session reply ∨
          move = .fail sid true ∧ reply = .internalError)) ∧
    ∀ sid session, state.sessions sid = some session → step state (.next sid) = none →
      ∃ other, other ≠ sid ∧ state.Writes other := by
  have ran : (names.run anyStep { world := acme, nextUuid := 10 } races).any (fun state =>
      state.answers.map Answer.reply =
        [.refused (.forbidden "You are not a member of this organization"),
        .updated ⟨5, 4, none, "mail", 0, 5, none, false⟩, integrityError,
        .created (.user ⟨10, "bob@a.io"⟩), integrityError]) = true := by
    decide +kernel
  obtain ⟨state, reachable, passes⟩ := Machine.reachable_of_check
    (by exact ⟨by decide +kernel, by decide, by decide, by decide, fun _ => rfl, rfl, rfl, rfl, rfl⟩)
    races ran
  exact ⟨state, reachable, of_decide_eq_true passes, names_unique reachable⟩

end Pulse.Names
