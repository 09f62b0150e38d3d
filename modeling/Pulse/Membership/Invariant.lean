import Pulse.Membership.Step

/-! What the stages of requests have established, and what a step publishes. -/
namespace Pulse.Membership
open Library.RowLock Library.Lts

/-- The actor may touch the target, whose id names a row of the actor's organization
or none. -/
structure Checked (db : Directory) (bound : Uuid) (actor target : OrganizationMember)
    (change : MemberChange) : Prop where
  authority : change.touchesOwner target = true → actor.role = .owner
  known : target.id < bound
  inside : ∀ row ∈ db.members, row.id = target.id → row.orgId = actor.orgId

/-- A target whose owner role goes away was counted for. -/
def Counted (target : OrganizationMember) (change : MemberChange) (counted : Option Nat) : Prop :=
  change.revokesOwner target = true → ∃ owners, counted = some owners ∧ 1 < owners

def Stage.Sound (db : Directory) (bound : Uuid) : Stage → Prop
  | .idle | .authorized _ _ => True
  | .invited actor _ role | .adding actor _ role | .added actor _ role =>
    role = .owner → actor.role = .owner
  | .counting actor target change => Checked db bound actor target change
  | .changing actor target change counted | .changed actor target change counted =>
    Checked db bound actor target change ∧ Counted target change counted

structure Service.Sound (state : Service) : Prop where
  distinct : (state.db.members.map OrganizationMember.id).Nodup
  members : ∀ row ∈ state.db.members, row.id < state.nextUuid
  organizations : ∀ org ∈ state.db.organizations, org.id < state.nextUuid
  stages : ∀ sid, (state.sessions sid).Sound state.db state.nextUuid

/-- Rows keep their ids and organizations, and new rows get new ids. -/
def Extends (bound : Uuid) (before after : Directory) : Prop :=
  ∀ row ∈ after.members, row.id < bound →
    ∃ former ∈ before.members, former.id = row.id ∧ former.orgId = row.orgId

section Stages
variable {db after : Directory} {bound larger : Uuid} {actor target : OrganizationMember}
  {change : MemberChange}

theorem Extends.refl : Extends bound db db :=
  fun row member _ => ⟨row, member, rfl, rfl⟩

theorem Checked.mono (checked : Checked db bound actor target change)
    (extends' : Extends bound db after) (grows : bound ≤ larger) :
    Checked after larger actor target change := by
  refine ⟨checked.authority, Nat.lt_of_lt_of_le checked.known grows, ?_⟩
  intro row member named
  obtain ⟨former, present, same, inside⟩ := extends' row member (named ▸ checked.known)
  rw [← inside]
  exact checked.inside former present (same.trans named)

theorem Stage.Sound.mono {stage : Stage} (sound : stage.Sound db bound)
    (extends' : Extends bound db after) (grows : bound ≤ larger) : stage.Sound after larger := by
  cases stage with
  | idle | authorized => trivial
  | invited | adding | added => exact sound
  | counting => exact Checked.mono sound extends' grows
  | changing | changed => exact ⟨Checked.mono sound.1 extends' grows, sound.2⟩

theorem proceed_sound (checked : Checked db bound actor target change) :
    (proceed actor change target).Sound db bound := by
  unfold proceed
  split
  · exact checked
  · rename_i kept
    exact ⟨checked, fun revokes => absurd revokes kept⟩

theorem proceed_actor : (proceed actor change target).actor = some actor := by
  unfold proceed
  split <;> rfl

/-- What a request loaded is a row of the actor's organization. -/
theorem changeMember_checked {memberId : Uuid} (distinct : (db.members.map (·.id)).Nodup)
    (known : ∀ row ∈ db.members, row.id < bound)
    (passed : changeMember db actor memberId change = .ok target) :
    Checked db bound actor target change := by
  obtain ⟨found, authority⟩ := changeMember_ok passed
  obtain ⟨named, row, present, same, inside⟩ := loadTarget_some found
  refine ⟨authority, ?_, ?_⟩
  · rw [named, ← same]
    exact known row present
  · intro other member equal
    have identical := List.inj_on_of_nodup_map distinct member present
      (equal.trans (named.trans same.symm))
    rw [identical, inside]

end Stages

section Effects
variable {state : Service} {sid : Sid}

theorem answer_hold {α : Type} {result : Except ApiError α} {make : α → Stage} {next : Stage}
    {locks : List (Key × Mode)} (made : answer result make = .hold next locks) :
    ∃ value, result = .ok value ∧ next = make value := by
  unfold answer at made
  split at made
  · rename_i value
    cases made
    exact ⟨value, rfl, rfl⟩
  · cases made

theorem answer_commit {α : Type} {result : Except ApiError α} {make : α → Stage}
    {write : List OrganizationMember → List OrganizationMember} :
    answer result make ≠ .commit write := by
  unfold answer
  split <;> exact fun made => nomatch made

variable [Citext]

/-- A statement which goes on keeps the actor, and establishes the next stage. -/
theorem Stage.effect_hold (sound : state.Sound) {next : Stage} {locks : List (Key × Mode)}
    (made : (state.sessions sid).effect state sid = some (.hold next locks)) :
    next.Sound state.db state.nextUuid ∧ next.actor = (state.sessions sid).actor := by
  have before := sound.stages sid
  generalize state.sessions sid = stage at made before
  cases stage with
  | idle => cases made
  | authorized actor call =>
    have made := Option.some.inj made
    cases call with
    | inviteMember body =>
      obtain ⟨user, passed, rfl⟩ := answer_hold made
      exact ⟨inviteMember_ok passed, rfl⟩
    | updateMemberRole memberId role =>
      obtain ⟨target, passed, rfl⟩ := answer_hold made
      exact ⟨proceed_sound (changeMember_checked sound.distinct sound.members passed), proceed_actor⟩
    | removeMember memberId =>
      obtain ⟨target, passed, rfl⟩ := answer_hold made
      exact ⟨proceed_sound (changeMember_checked sound.distinct sound.members passed), proceed_actor⟩
  | invited actor userId role =>
    obtain ⟨_, _, rfl⟩ := answer_hold (Option.some.inj made)
    exact ⟨before, rfl⟩
  | adding actor userId role =>
    simp only [Stage.effect, insertMember] at made
    split at made
    · split at made <;> cases made
    · cases made
      exact ⟨before, rfl⟩
  | added => cases made
  | counting actor target change =>
    obtain ⟨_, passed, rfl⟩ := answer_hold (Option.some.inj made)
    refine ⟨⟨before, fun _ => ⟨_, rfl, ?_⟩⟩, rfl⟩
    simp only [ensureOwnerRemains] at passed
    split at passed
    · cases passed
    · omega
  | changing actor target change counted =>
    simp only [Stage.effect, writeMember, Option.some.injEq] at made
    split at made
    · cases made
    · split at made
      · cases made
        exact ⟨before, rfl⟩
      · split at made <;> cases made
  | changed => cases made

/-- What a COMMIT publishes. -/
theorem Stage.effect_commit {write : List OrganizationMember → List OrganizationMember}
    {stage : Stage} (made : stage.effect state sid = some (.commit write)) :
    write = id ∨
      (∃ actor userId role, stage = .added actor userId role ∧
        write = fun rows => rows ++ [newMember state actor userId role]) ∨
      ∃ actor target change counted, stage = .changed actor target change counted ∧
        write = change.write target.id := by
  cases stage with
  | idle => cases made
  | authorized actor call =>
    cases call <;> exact absurd (Option.some.inj made) answer_commit
  | invited | counting => exact absurd (Option.some.inj made) answer_commit
  | adding actor userId role =>
    simp only [Stage.effect, insertMember] at made
    split at made
    · split at made <;> cases made
    · cases made
  | added actor userId role =>
    cases made
    exact .inr (.inl ⟨actor, userId, role, rfl, rfl⟩)
  | changing actor target change counted =>
    simp only [Stage.effect, writeMember, Option.some.injEq] at made
    split at made
    · cases made
      exact .inl rfl
    · split at made
      · cases made
      · split at made
        · cases made
          exact .inl rfl
        · cases made
  | changed actor target change counted =>
    cases made
    exact .inr (.inr ⟨actor, target, change, counted, rfl, rfl⟩)

end Effects

/-- What one step does. -/
inductive Stepped (state : Service) : Action → Service → Prop where
  | refused {action} : Stepped state action state
  | registered {email user} : Stepped state (.register email) { state with
      db := { state.db with users := state.db.users ++ [user] }
      nextUuid := state.nextUuid + 1 }
  | created {userId slug} : Stepped state (.createOrg userId slug) { state with
      db := { state.db with
        organizations := state.db.organizations ++ [{ id := state.nextUuid, slug }]
        members := state.db.members ++ [{
          id := state.nextUuid + 1, orgId := state.nextUuid, userId, role := .owner }] }
      nextUuid := state.nextUuid + 2 }
  | begun {sid userId orgId call actor locks}
      (found : state.db.findMembership orgId userId = some actor) :
      Stepped state (.begin sid userId orgId call) (state.hold sid (.authorized actor call) locks)
  | advanced {sid next locks} (sound : next.Sound state.db state.nextUuid)
      (actor : next.actor = (state.sessions sid).actor) :
      Stepped state (.next sid) (state.hold sid next locks)
  | kept {sid} : Stepped state (.next sid) (state.commit sid id)
  | added {sid actor userId role} (stage : state.sessions sid = .added actor userId role) :
      Stepped state (.next sid)
        (state.commit sid fun rows => rows ++ [newMember state actor userId role])
  | changed {sid actor target change counted}
      (stage : state.sessions sid = .changed actor target change counted) :
      Stepped state (.next sid) (state.commit sid (change.write target.id))
  | ended {action sid} : Stepped state action (state.rollback sid)

section Steps
variable {state after : Service} {action : Action}

theorem authorize_ok {db : Directory} {userId orgId : Uuid} {actor : OrganizationMember}
    (passed : authorize db userId orgId = .ok actor) :
    db.findMembership orgId userId = some actor := by
  unfold authorize getCurrentUser at passed
  split at passed
  · cases passed
  · rename_i user current
    split at current
    · rename_i row seen
      cases current
      have same : user.id = userId := by simpa using List.find?_some seen
      rw [same] at passed
      unfold getOrgMembership at passed
      split at passed
      · cases passed
      · rename_i membership inside
        split at inside
        · rename_i found
          cases inside
          unfold requireRole at passed
          split at passed
          · cases passed
            exact found
          · cases passed
        · cases inside
    · cases current

theorem perform_cases {sid : Sid} {effect : Effect}
    (taken : state.perform sid effect = some after) :
    (∃ next locks, effect = .hold next locks ∧ after = state.hold sid next locks) ∨
      (∃ write, effect = .commit write ∧ after = state.commit sid write) ∨
      effect = .rollback ∧ after = state.rollback sid := by
  cases effect with
  | hold next locks =>
    simp only [Service.perform] at taken
    split at taken
    · cases taken
    · exact .inl ⟨next, locks, rfl, (Option.some.inj taken).symm⟩
  | commit write => exact .inr (.inl ⟨write, rfl, (Option.some.inj taken).symm⟩)
  | rollback => exact .inr (.inr ⟨rfl, (Option.some.inj taken).symm⟩)

/-- Every step is one of these. -/
theorem step_cases [Citext] (sound : state.Sound) (taken : step state action = some after) :
    Stepped state action after := by
  cases action with
  | register email =>
    simp only [step] at taken
    split at taken <;> cases taken
    · exact .refused
    · exact .registered
  | createOrg userId slug =>
    simp only [step] at taken
    split at taken
    · cases taken
      exact .refused
    · rename_i user current
      split at taken
      · cases taken
        exact .refused
      · rename_i org membership made
        cases taken
        have same : user.id = userId := by
          unfold getCurrentUser at current
          split at current
          · rename_i seen
            cases current
            simpa using List.find?_some seen
          · cases current
        unfold Pulse.createOrg at made
        split at made
        · cases made
        · cases made
          rw [same]
          exact .created
  | begin sid userId orgId call =>
    simp only [step] at taken
    split at taken
    · rcases perform_cases taken with ⟨next, locks, made, rfl⟩ | ⟨write, made, rfl⟩ | ⟨_, rfl⟩
      · obtain ⟨actor, passed, rfl⟩ := answer_hold made
        exact .begun (authorize_ok passed)
      · exact absurd made answer_commit
      · exact .ended
    · cases taken
  | next sid =>
    obtain ⟨effect, made, performed⟩ := Option.bind_eq_some_iff.mp taken
    rcases perform_cases performed with ⟨next, locks, rfl, rfl⟩ | ⟨write, rfl, rfl⟩ | ⟨rfl, rfl⟩
    · obtain ⟨established, actor⟩ := Stage.effect_hold sound made
      exact .advanced established actor
    · rcases Stage.effect_commit made with rfl | ⟨actor, userId, role, stage, rfl⟩ |
        ⟨actor, target, change, counted, stage, rfl⟩
      · exact .kept
      · exact .added stage
      · exact .changed stage
    · exact .ended
  | fail sid =>
    cases taken
    exact .ended

theorem mem_write {change : MemberChange} {memberId : Uuid} {rows : List OrganizationMember}
    {row : OrganizationMember} (member : row ∈ change.write memberId rows) :
    ∃ former ∈ rows, former.id = row.id ∧ former.orgId = row.orgId := by
  cases change with
  | setRole role =>
    obtain ⟨former, present, rfl⟩ := List.mem_map.mp member
    refine ⟨former, present, ?_⟩
    unfold onId
    split <;> exact ⟨rfl, rfl⟩
  | delete => exact ⟨row, List.mem_of_mem_filter member, rfl, rfl⟩

theorem write_ids (change : MemberChange) (memberId : Uuid) (rows : List OrganizationMember) :
    ((change.write memberId rows).map OrganizationMember.id).Sublist
      (rows.map OrganizationMember.id) := by
  cases change with
  | setRole role =>
    rw [show (MemberChange.setRole role).write memberId rows = rows.map
      (onId OrganizationMember.id memberId fun row => { row with role }) from rfl, List.map_map]
    have same : (OrganizationMember.id ∘ onId OrganizationMember.id memberId fun row =>
        { row with role }) = OrganizationMember.id := by
      funext row
      simp only [Function.comp, onId]
      split <;> rfl
    rw [same]
  | delete => exact (List.filter_sublist).map _

/-- What publishes new rows and moves one session keeps the invariant. -/
theorem Service.Sound.publish (sound : state.Sound)
    (distinct : (after.db.members.map OrganizationMember.id).Nodup)
    (members : ∀ row ∈ after.db.members, row.id < after.nextUuid)
    (organizations : ∀ org ∈ after.db.organizations, org.id < after.nextUuid)
    (extends' : Extends state.nextUuid state.db after.db) (grows : state.nextUuid ≤ after.nextUuid)
    (sessions : ∀ sid, after.sessions sid = state.sessions sid ∨
      (after.sessions sid).Sound after.db after.nextUuid) : after.Sound := by
  refine ⟨distinct, members, organizations, ?_⟩
  intro sid
  rcases sessions sid with same | established
  · rw [same]
    exact (sound.stages sid).mono extends' grows
  · exact established

theorem session_replaced {sid : Sid} {next : Stage} {db : Directory} {bound : Uuid}
    (established : next.Sound db bound) (other : Sid) :
    Function.update state.sessions sid next other = state.sessions other ∨
      (Function.update state.sessions sid next other).Sound db bound := by
  by_cases same : other = sid
  · subst same
    right
    rwa [Function.update_self]
  · exact .inl (Function.update_of_ne same ..)

/-- A row with a new id keeps ids unique and below the next one. -/
theorem append_new (sound : state.Sound) (row : OrganizationMember)
    (new : state.nextUuid ≤ row.id) {bound : Uuid} (below : row.id < bound) :
    ((state.db.members ++ [row]).map OrganizationMember.id).Nodup ∧
      (∀ other ∈ state.db.members ++ [row], other.id < bound) ∧
      ∀ other ∈ state.db.members ++ [row], other.id < state.nextUuid → other ∈ state.db.members := by
  refine ⟨?_, ?_, ?_⟩
  · rw [List.map_append, List.nodup_append]
    refine ⟨sound.distinct, List.nodup_singleton _, ?_⟩
    intro id listed other single
    obtain ⟨former, present, rfl⟩ := List.mem_map.mp listed
    rw [List.mem_singleton.mp single]
    exact Nat.ne_of_lt (Nat.lt_of_lt_of_le (sound.members former present) new)
  · intro other member
    rcases List.mem_append.mp member with old | added
    · have := sound.members other old
      lia
    · rwa [List.mem_singleton.mp added]
  · intro other member old
    rcases List.mem_append.mp member with present | added
    · exact present
    · rw [List.mem_singleton.mp added] at old
      lia

theorem Service.Sound.step [Citext] (sound : state.Sound) (taken : step state action = some after) :
    after.Sound := by
  cases step_cases sound taken with
  | refused => exact sound
  | registered =>
    refine sound.publish sound.distinct ?_ ?_ .refl (Nat.le_succ _) fun _ => .inl rfl
    · exact fun row member => Nat.lt_succ_of_lt (sound.members row member)
    · exact fun org member => Nat.lt_succ_of_lt (sound.organizations org member)
  | @created userId slug =>
    obtain ⟨distinct, below, kept⟩ := append_new sound
      { id := state.nextUuid + 1, orgId := state.nextUuid, userId, role := .owner }
      (Nat.le_succ _) (Nat.lt_succ_self _)
    refine sound.publish distinct below ?_ ?_ (Nat.le_add_right _ 2) fun _ => .inl rfl
    · intro org member
      show org.id < state.nextUuid + 2
      rcases List.mem_append.mp member with old | new
      · have := sound.organizations org old
        lia
      · rw [List.mem_singleton.mp new]
        show state.nextUuid < state.nextUuid + 2
        lia
    · exact fun row member old => ⟨row, kept row member old, rfl, rfl⟩
  | begun =>
    exact sound.publish sound.distinct sound.members sound.organizations .refl (Nat.le_refl _)
      (session_replaced trivial)
  | advanced established =>
    exact sound.publish sound.distinct sound.members sound.organizations .refl (Nat.le_refl _)
      (session_replaced established)
  | kept =>
    refine sound.publish sound.distinct ?_ ?_ .refl (Nat.le_succ _) (session_replaced trivial)
    · exact fun row member => Nat.lt_succ_of_lt (sound.members row member)
    · exact fun org member => Nat.lt_succ_of_lt (sound.organizations org member)
  | @added sid actor userId role stage =>
    obtain ⟨distinct, below, kept⟩ := append_new sound (newMember state actor userId role)
      (Nat.le_refl _) (Nat.lt_succ_self _)
    refine sound.publish distinct below ?_ ?_ (Nat.le_succ _) (session_replaced trivial)
    · exact fun org member => Nat.lt_succ_of_lt (sound.organizations org member)
    · exact fun row member old => ⟨row, kept row member old, rfl, rfl⟩
  | @changed sid actor target change counted stage =>
    refine sound.publish (sound.distinct.sublist (write_ids ..)) ?_ ?_ ?_ (Nat.le_succ _)
      (session_replaced trivial)
    · intro row member
      obtain ⟨former, present, same, _⟩ := mem_write member
      rw [← same]
      exact Nat.lt_succ_of_lt (sound.members former present)
    · exact fun org member => Nat.lt_succ_of_lt (sound.organizations org member)
    · exact fun row member _ => mem_write member
  | ended =>
    exact sound.publish sound.distinct sound.members sound.organizations .refl (Nat.le_refl _)
      (session_replaced trivial)

end Steps

theorem Service.Sound.reachable [Citext] {allowed : Service → Action → Prop} {state : Service}
    (reachable : service.Reachable allowed state) : state.Sound := by
  refine reachable.invariant ?_ fun _ _ _ sound _ taken => sound.step taken
  rintro _ rfl
  exact ⟨List.nodup_nil, fun _ member => (nomatch member), fun _ member => (nomatch member),
    fun _ => trivial⟩

end Pulse.Membership
