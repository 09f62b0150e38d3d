import Pulse.Membership.Invariant
import Mathlib.Data.List.Count

/-! Owners of organizations: an organization keeps one, and only an owner makes or
unmakes one. -/
namespace Pulse.Membership
open Library.Lts

def ownerOf (orgId : Uuid) (row : OrganizationMember) : Bool :=
  row.orgId = orgId && row.role = .owner

/-- The owners' rows of an organization. -/
def owners (db : Directory) (orgId : Uuid) : List OrganizationMember :=
  db.members.filter (ownerOf orgId)

section Writes
variable {rows : List OrganizationMember} {change : MemberChange} {memberId orgId : Uuid}

/-- A row with another id survives a write. -/
theorem kept_by_write {row : OrganizationMember} (member : row ∈ rows) (other : row.id ≠ memberId) :
    row ∈ change.write memberId rows := by
  cases change with
  | setRole role => exact List.mem_map.mpr ⟨row, member, by simp [onId, other]⟩
  | delete => exact List.mem_filter.mpr ⟨member, by simpa using other⟩

/-- A row which a write adds has the written id and role. -/
theorem made_by_write {row : OrganizationMember} (member : row ∈ change.write memberId rows)
    (new : row ∉ rows) : change = .setRole row.role ∧ row.id = memberId := by
  cases change with
  | setRole role =>
    obtain ⟨former, present, rfl⟩ := List.mem_map.mp member
    unfold onId at new ⊢
    split
    · rename_i named
      exact ⟨rfl, named⟩
    · rename_i other
      rw [if_neg other] at new
      exact absurd present new
  | delete => exact absurd (List.mem_of_mem_filter member) new

/-- The other rows' owners are still there. -/
theorem count_others_le (rows : List OrganizationMember) (change : MemberChange)
    (memberId orgId : Uuid) : (rows.filter fun row => row.id ≠ memberId).countP (ownerOf orgId) ≤
    (change.write memberId rows).countP (ownerOf orgId) := by
  cases change with
  | setRole role =>
    rw [show (MemberChange.setRole role).write memberId rows = rows.map
      (onId OrganizationMember.id memberId fun row => { row with role }) from rfl,
      List.countP_map, List.countP_filter]
    apply List.countP_mono_left
    intro row _ holds
    simp only [Bool.and_eq_true, decide_eq_true_eq] at holds
    simpa [onId, holds.2] using holds.1
  | delete => exact Nat.le_refl _

/-- At most one row has the id. -/
theorem count_le_others (memberId orgId : Uuid)
    (distinct : (rows.map OrganizationMember.id).Nodup) :
    rows.countP (ownerOf orgId) ≤
      (rows.filter fun row => row.id ≠ memberId).countP (ownerOf orgId) + 1 := by
  induction rows with
  | nil => exact Nat.zero_le _
  | cons row rest ih =>
    obtain ⟨absent, remaining⟩ := List.nodup_cons.mp distinct
    by_cases named : row.id = memberId
    · have others : (row :: rest).filter (fun row => row.id ≠ memberId) = rest := by
        rw [List.filter_cons_of_neg (by simpa using named)]
        apply List.filter_eq_self.mpr
        intro other member
        have different : other.id ≠ memberId := fun same =>
          absent (List.mem_map.mpr ⟨other, member, same.trans named.symm⟩)
        simpa using different
      rw [others, List.countP_cons]
      split <;> omega
    · rw [List.filter_cons_of_pos (by simpa using named), List.countP_cons, List.countP_cons]
      have := ih remaining
      omega

/-- A write loses at most one owner. -/
theorem count_write (change : MemberChange) (memberId orgId : Uuid)
    (distinct : (rows.map OrganizationMember.id).Nodup) :
    rows.countP (ownerOf orgId) ≤ (change.write memberId rows).countP (ownerOf orgId) + 1 := by
  have others := count_others_le rows change memberId orgId
  have single := count_le_others memberId orgId distinct
  omega

/-- A write which takes the owner role from no owner of the organization loses none. -/
theorem count_write_kept (kept : ∀ row ∈ rows, row.id = memberId → ownerOf orgId row = true →
    change.revokesOwner row = false) :
    rows.countP (ownerOf orgId) ≤ (change.write memberId rows).countP (ownerOf orgId) := by
  cases change with
  | setRole role =>
    rw [show (MemberChange.setRole role).write memberId rows = rows.map
      (onId OrganizationMember.id memberId fun row => { row with role }) from rfl, List.countP_map]
    apply List.countP_mono_left
    intro row member owns
    simp only [Function.comp, onId]
    split
    · rename_i named
      have spared := kept row member named owns
      simp only [ownerOf, Bool.and_eq_true, decide_eq_true_eq] at owns ⊢
      simp only [MemberChange.revokesOwner, owns.2, decide_true, Bool.true_and, decide_eq_false_iff_not,
        not_not] at spared
      exact ⟨owns.1, spared⟩
    · exact owns
  | delete =>
    rw [show MemberChange.delete.write memberId rows =
      rows.filter fun row => row.id ≠ memberId from rfl, List.countP_filter]
    apply List.countP_mono_left
    intro row member owns
    have other : row.id ≠ memberId := by
      intro named
      have spared := kept row member named owns
      simp only [ownerOf, Bool.and_eq_true, decide_eq_true_eq] at owns
      simp [MemberChange.revokesOwner, owns.2] at spared
    simp [owns, other]

/-- A write which neither finds nor makes an owner of the organization leaves its
owners as they are. -/
theorem filter_write (before : ∀ row ∈ rows, row.id = memberId → ownerOf orgId row = false)
    (after : ∀ row ∈ rows, row.id = memberId → row.orgId = orgId → change ≠ .setRole .owner) :
    (change.write memberId rows).filter (ownerOf orgId) = rows.filter (ownerOf orgId) := by
  cases change with
  | setRole role =>
    have same : ∀ row ∈ rows, (ownerOf orgId ∘ onId OrganizationMember.id memberId
        fun row => { row with role }) row = ownerOf orgId row := by
      intro row member
      simp only [Function.comp, onId]
      split
      · rename_i named
        rw [before row member named]
        simp only [ownerOf, Bool.and_eq_false_iff, decide_eq_false_iff_not]
        by_cases inside : row.orgId = orgId
        · right
          intro owner
          exact after row member named inside (by rw [owner])
        · exact .inl inside
      · rfl
    have untouched : ∀ row ∈ rows.filter (ownerOf orgId), onId OrganizationMember.id memberId
        (fun row => { row with role }) row = id row := by
      intro row member
      obtain ⟨present, owns⟩ := List.mem_filter.mp member
      apply if_neg
      intro named
      rw [before row present named] at owns
      cases owns
    rw [show (MemberChange.setRole role).write memberId rows = rows.map
      (onId OrganizationMember.id memberId fun row => { row with role }) from rfl, List.filter_map,
      List.filter_congr same, List.map_congr_left untouched, List.map_id]
  | delete =>
    rw [show MemberChange.delete.write memberId rows =
      rows.filter fun row => row.id ≠ memberId from rfl, List.filter_filter]
    apply List.filter_congr
    intro row member
    by_cases named : row.id = memberId
    · simp [named, before row member named]
    · simp [named]

end Writes

/-! The last owner. -/

/-- Where an UPDATE or DELETE commits, the check of its endpoint still passes: the row
as it is then loses the owner role only where the organization has two owners. -/
def GuardHolds (state : Service) : Action → Prop
  | .next sid => match state.sessions sid with
    | .changed _ target change _ => ∀ row ∈ state.db.members, row.id = target.id →
        change.revokesOwner row = true → 1 < countOwners state.db row.orgId
    | _ => True
  | _ => True

/-- The write which a session is about to commit. -/
def Stage.writing : Stage → Option (OrganizationMember × MemberChange)
  | .changed _ target change _ => some (target, change)
  | _ => none

instance (state : Service) : (action : Action) → Decidable (GuardHolds state action)
  | .next sid => decidable_of_iff (∀ write ∈ (state.sessions sid).writing,
      ∀ row ∈ state.db.members, row.id = write.1.id → write.2.revokesOwner row = true →
        1 < countOwners state.db row.orgId) (by
    cases stage : state.sessions sid <;> simp [GuardHolds, stage, Stage.writing])
  | .register .. | .createOrg .. | .begin .. | .fail .. => isTrue trivial

/-- What a request has read is still so: the role of its target, and how many owners
there are where it counted them. -/
def ReadsCurrent (state : Service) (sid : Sid) : Prop :=
  match state.sessions sid with
  | .changed actor target _ counted =>
    (∀ row ∈ state.db.members, row.id = target.id → row.role = target.role) ∧
      ∀ owners, counted = some owners → countOwners state.db actor.orgId = owners
  | _ => True

/-- An organization which has an owner has one in every later committed state. -/
def KeepsOwner [Citext] (allowed : Service → Action → Prop) (state : Service) : Prop :=
  ∀ orgId, 0 < countOwners state.db orgId → ∀ later, service.Path allowed state later →
    0 < countOwners later.db orgId

section LastOwner
variable {state after : Service} {action : Action} {orgId : Uuid}

theorem owner_stays [Citext] (sound : state.Sound) (guard : GuardHolds state action)
    (taken : step state action = some after) (owned : 0 < countOwners state.db orgId) :
    0 < countOwners after.db orgId := by
  cases step_cases sound taken with
  | refused | registered | begun | advanced | kept | ended => exact owned
  | created =>
    show 0 < List.countP (ownerOf orgId) (_ ++ _)
    rw [List.countP_append]
    exact Nat.add_pos_left owned _
  | added =>
    show 0 < List.countP (ownerOf orgId) (_ ++ _)
    rw [List.countP_append]
    exact Nat.add_pos_left owned _
  | @changed sid actor target change counted stage =>
    simp only [GuardHolds, stage] at guard
    show 0 < List.countP (ownerOf orgId) (change.write target.id state.db.members)
    by_cases revoked : ∃ row ∈ state.db.members, row.id = target.id ∧ ownerOf orgId row = true ∧
        change.revokesOwner row = true
    · obtain ⟨row, member, named, owns, revokes⟩ := revoked
      have two := guard row member named revokes
      have inside : row.orgId = orgId := by
        simp only [ownerOf, Bool.and_eq_true, decide_eq_true_eq] at owns
        exact owns.1
      rw [inside] at two
      have lost := count_write change target.id orgId sound.distinct
      have two : 1 < List.countP (ownerOf orgId) state.db.members := two
      omega
    · refine Nat.lt_of_lt_of_le owned (count_write_kept ?_)
      intro row member named owns
      by_contra revokes
      exact revoked ⟨row, member, named, owns, by simpa using revokes⟩

/-- A request whose reads are current keeps the guard: only a race breaks it. -/
theorem guard_of_current (sound : state.Sound) {sid : Sid} (current : ReadsCurrent state sid) :
    GuardHolds state (.next sid) := by
  have established := sound.stages sid
  unfold ReadsCurrent at current
  unfold GuardHolds
  dsimp only
  split
  · rename_i actor target change counted stage
    rw [stage] at established current
    obtain ⟨checked, guarded⟩ := established
    obtain ⟨roles, counts⟩ := current
    intro row member named revokes
    have read : change.revokesOwner target = true := by
      rw [← revokes]
      cases change <;> simp [MemberChange.revokesOwner, roles row member named]
    obtain ⟨owners, same, two⟩ := guarded read
    rw [checked.inside row member named, counts owners same]
    exact two
  · trivial

/-- In a run whose COMMITs meet the guard, from any state the requests can reach, no
organization loses its last owner; a COMMIT whose reads are current meets it. -/
theorem last_owner_stays [Citext] (reachable : service.Reachable anyStep state) :
    KeepsOwner GuardHolds state ∧ ∀ sid, ReadsCurrent state sid → GuardHolds state (.next sid) := by
  have sound := Service.Sound.reachable reachable
  refine ⟨?_, fun sid => guard_of_current sound⟩
  intro orgId owned later path
  refine (@Machine.Path.preserves _ _ service GuardHolds
    (fun state => state.Sound ∧ 0 < countOwners state.db orgId) ?_ state later path
    ⟨sound, owned⟩).2
  rintro earlier action next ⟨sound, owned⟩ guard taken
  exact ⟨sound.step taken, owner_stays sound guard taken owned⟩

end LastOwner

/-- An organization with two owners. -/
def founded : List Action := [
  .register "ann@pulse.dev",
  .register "bob@pulse.dev",
  .createOrg 1 "acme",
  .begin 0 1 3 (.inviteMember { email := "bob@pulse.dev", role := .owner }),
  .next 0, .next 0, .next 0, .next 0]

/-- One owner demotes the other. -/
def demotion : List Action := [
  .begin 1 1 3 (.updateMemberRole 5 .admin),
  .next 1, .next 1, .next 1, .next 1]

/-- Each owner takes the role from the other; both count two owners. -/
def mutualRemoval : List Action := [
  .begin 1 1 3 (.removeMember 5),
  .begin 2 2 3 (.updateMemberRole 4 .viewer),
  .next 1, .next 2, .next 1, .next 2, .next 1, .next 2, .next 1, .next 2]

section Races
attribute [local instance] Citext.ascii

theorem last_owner_stays_demoted : ∃ state later, service.Reachable anyStep state ∧
    service.Path GuardHolds state later ∧ countOwners state.db 3 = 2 ∧
    countOwners later.db 3 = 1 ∧ KeepsOwner GuardHolds state ∧
    ∀ sid, ReadsCurrent state sid → GuardHolds state (.next sid) := by
  have ran : (service.run anyStep {} founded).any (fun state => countOwners state.db 3 = 2 &&
      (service.run GuardHolds state demotion).any fun later => countOwners later.db 3 = 1) = true := by
    decide +kernel
  obtain ⟨state, reachable, passes⟩ := Machine.reachable_of_check rfl founded ran
  simp only [Bool.and_eq_true, decide_eq_true_eq] at passes
  obtain ⟨later, path, one⟩ := Machine.path_of_check _ passes.2
  exact ⟨state, later, reachable, path, passes.1, by simpa using one, last_owner_stays reachable⟩

/-- After the two requests the organization has no owner. -/
theorem mutual_removal : ∃ state, service.Reachable anyStep state ∧ ¬ KeepsOwner anyStep state := by
  have ran : (service.run anyStep {} founded).any (fun state => 0 < countOwners state.db 3 &&
      (service.run anyStep state mutualRemoval).any fun later =>
        countOwners later.db 3 = 0) = true := by
    decide +kernel
  obtain ⟨state, reachable, passes⟩ := Machine.reachable_of_check rfl founded ran
  simp only [Bool.and_eq_true, decide_eq_true_eq] at passes
  obtain ⟨later, path, none⟩ := Machine.path_of_check _ passes.2
  refine ⟨state, reachable, ?_⟩
  intro keeps
  have some := keeps 3 passes.1 later path
  rw [show countOwners later.db 3 = 0 by simpa using none] at some
  cases some

end Races

/-! Who disposes of the owner role. -/

/-- A row becomes an owner's, or an owner's row stops being one. -/
def DisposesOwner (before after : Directory) : Prop :=
  (∃ row ∈ after.members, row.role = .owner ∧ row ∉ before.members) ∨
    ∃ row ∈ before.members, row.role = .owner ∧ row ∉ after.members

instance (before after : Directory) : Decidable (DisposesOwner before after) :=
  inferInstanceAs (Decidable (_ ∨ _))

/-- Whoever makes or unmakes an owner was read as an owner. -/
def OwnersDispose [Citext] (allowed : Service → Action → Prop) (state : Service) : Prop :=
  ∀ sid after, allowed state (.next sid) → step state (.next sid) = some after →
    DisposesOwner state.db after.db →
    ∃ actor, (state.sessions sid).actor = some actor ∧ actor.role = .owner

/-- A row which is an owner's where its UPDATE or DELETE commits was read as an
owner's. -/
def OwnerSeen (state : Service) : Action → Prop
  | .next sid => match state.sessions sid with
    | .changed _ target _ _ => ∀ row ∈ state.db.members, row.id = target.id →
        row.role = .owner → target.role = .owner
    | _ => True
  | _ => True

instance (state : Service) : (action : Action) → Decidable (OwnerSeen state action)
  | .next sid => decidable_of_iff (∀ write ∈ (state.sessions sid).writing,
      ∀ row ∈ state.db.members, row.id = write.1.id → row.role = .owner → write.1.role = .owner) (by
    cases stage : state.sessions sid <;> simp [OwnerSeen, stage, Stage.writing])
  | .register .. | .createOrg .. | .begin .. | .fail .. => isTrue trivial

/-- Only these users make requests in the organization. -/
def RequestsBy (users : Uuid → Prop) (orgId : Uuid) : Action → Prop
  | .begin _ userId inside _ => inside = orgId → users userId
  | _ => True

/-- No request under way in the organization is an owner's. -/
def NoOwnerActs (orgId : Uuid) (sessions : Sid → Stage) : Prop :=
  ∀ sid actor, (sessions sid).actor = some actor → actor.orgId = orgId → actor.role ≠ .owner

/-- Where none of these users is an owner, they neither make nor unmake one. -/
def NoEscalation [Citext] (allowed : Service → Action → Prop) (state : Service) : Prop :=
  ∀ orgId ∈ state.db.organizations.map Organization.id, ∀ users : Uuid → Prop,
    (∀ row ∈ owners state.db orgId, ¬ users row.userId) → NoOwnerActs orgId state.sessions →
    ∀ later, service.Path (fun state action => allowed state action ∧
      RequestsBy users orgId action) state later → owners later.db orgId = owners state.db orgId

section Authority
variable {state after : Service} {action : Action} {sid : Sid} {orgId : Uuid}

theorem same_members_dispose {before after : Directory} (same : after.members = before.members) :
    ¬ DisposesOwner before after := by
  rintro (⟨row, member, _, new⟩ | ⟨row, member, _, lost⟩)
  · exact new (same ▸ member)
  · exact lost (same ▸ member)

/-- The COMMIT which makes or unmakes an owner is an owner's. -/
theorem disposer_owner [Citext] (sound : state.Sound) (seen : OwnerSeen state (.next sid))
    (taken : step state (.next sid) = some after) (disposes : DisposesOwner state.db after.db) :
    ∃ actor, (state.sessions sid).actor = some actor ∧ actor.role = .owner := by
  have established := sound.stages sid
  cases step_cases sound taken with
  | refused | advanced | kept | ended => exact absurd disposes (same_members_dispose rfl)
  | @added _ actor userId role stage =>
    rw [stage] at established ⊢
    refine ⟨actor, rfl, ?_⟩
    rcases disposes with ⟨row, member, owner, new⟩ | ⟨row, member, _, lost⟩
    · rcases List.mem_append.mp member with old | made
      · exact absurd old new
      · rw [List.mem_singleton.mp made] at owner
        exact established owner
    · exact absurd (List.mem_append_left _ member) lost
  | @changed _ actor target change counted stage =>
    simp only [OwnerSeen, stage] at seen
    rw [stage] at established ⊢
    obtain ⟨checked, _⟩ := established
    refine ⟨actor, rfl, checked.authority ?_⟩
    rcases disposes with ⟨row, member, owner, new⟩ | ⟨row, member, owner, lost⟩
    · obtain ⟨granted, _⟩ := made_by_write member new
      simp [granted, owner, MemberChange.touchesOwner]
    · have named : row.id = target.id := by
        by_contra other
        exact lost (kept_by_write member other)
      exact touchesOwner_of_owner change (seen row member named owner)

/-- What holds along a run in which only users act who are no owners. -/
structure Unescalated (users : Uuid → Prop) (orgId : Uuid) (rows : List OrganizationMember)
    (state : Service) : Prop where
  sound : state.Sound
  exists' : orgId < state.nextUuid
  same : owners state.db orgId = rows
  acts : NoOwnerActs orgId state.sessions

theorem NoOwnerActs.replace {sessions : Sid → Stage} {next : Stage}
    (acts : NoOwnerActs orgId sessions)
    (own : ∀ actor, next.actor = some actor → actor.orgId = orgId → actor.role ≠ .owner) :
    NoOwnerActs orgId (Function.update sessions sid next) := by
  intro other
  by_cases same : other = sid
  · rw [same, Function.update_self]
    exact own
  · rw [Function.update_of_ne same]
    exact acts other

theorem owners_append {db : Directory} {row : OrganizationMember}
    (other : row.orgId = orgId → row.role ≠ .owner) :
    (db.members ++ [row]).filter (ownerOf orgId) = owners db orgId := by
  have outside : ownerOf orgId row = false := by
    simp only [ownerOf, Bool.and_eq_false_iff, decide_eq_false_iff_not]
    by_cases inside : row.orgId = orgId
    · exact .inr (other inside)
    · exact .inl inside
  rw [List.filter_append, List.filter_cons_of_neg (by simp [outside]), List.filter_nil,
    List.append_nil]
  rfl

theorem Unescalated.step [Citext] {users : Uuid → Prop} {rows : List OrganizationMember}
    (strangers : ∀ row ∈ rows, ¬ users row.userId) (holds : Unescalated users orgId rows state)
    (seen : OwnerSeen state action) (requests : RequestsBy users orgId action)
    (taken : Membership.step state action = some after) : Unescalated users orgId rows after := by
  have sound := holds.sound.step taken
  cases step_cases holds.sound taken with
  | refused => exact holds
  | registered => exact ⟨sound, Nat.lt_succ_of_lt holds.exists', holds.same, holds.acts⟩
  | created =>
    refine ⟨sound, Nat.lt_add_right 2 holds.exists', ?_, holds.acts⟩
    rw [← holds.same]
    exact owners_append fun inside => absurd inside (Nat.ne_of_gt holds.exists')
  | @begun sid userId inside call actor locks found =>
    obtain ⟨member, organization, user⟩ := Directory.findMembership_some found
    refine ⟨sound, holds.exists', holds.same, holds.acts.replace ?_⟩
    intro same acting within owner
    cases acting
    have listed : actor ∈ rows := by
      rw [← holds.same]
      exact List.mem_filter.mpr ⟨member, by simp [ownerOf, within, owner]⟩
    exact strangers actor listed (user ▸ requests (organization.symm.trans within))
  | @advanced sid next locks established actor =>
    refine ⟨sound, holds.exists', holds.same, holds.acts.replace ?_⟩
    intro same acting
    exact holds.acts sid same (actor ▸ acting)
  | kept =>
    exact ⟨sound, Nat.lt_succ_of_lt holds.exists', holds.same,
      holds.acts.replace fun _ acting => nomatch acting⟩
  | @added sid actor userId role stage =>
    have established := holds.sound.stages sid
    have acts := holds.acts sid actor
    rw [stage] at established acts
    refine ⟨sound, Nat.lt_succ_of_lt holds.exists', ?_,
      holds.acts.replace fun _ acting => nomatch acting⟩
    rw [← holds.same]
    exact owners_append fun inside owner => acts rfl inside (established owner)
  | @changed sid actor target change counted stage =>
    have established := holds.sound.stages sid
    have acts := holds.acts sid actor
    rw [stage] at established acts
    simp only [OwnerSeen, stage] at seen
    obtain ⟨checked, _⟩ := established
    refine ⟨sound, Nat.lt_succ_of_lt holds.exists', ?_,
      holds.acts.replace fun _ acting => nomatch acting⟩
    rw [← holds.same]
    apply filter_write
    · intro row member named
      rw [Bool.eq_false_iff]
      intro owns
      simp only [ownerOf, Bool.and_eq_true, decide_eq_true_eq] at owns
      have read := seen row member named owns.2
      have within := (checked.inside row member named).symm.trans owns.1
      exact acts rfl within (checked.authority (touchesOwner_of_owner change read))
    · rintro row member named inside rfl
      have within := (checked.inside row member named).symm.trans inside
      exact acts rfl within (checked.authority (by simp [MemberChange.touchesOwner]))
  | ended =>
    exact ⟨sound, holds.exists', holds.same, holds.acts.replace fun _ acting => nomatch acting⟩

theorem no_escalation [Citext] (sound : state.Sound) : NoEscalation OwnerSeen state := by
  intro orgId listed users strangers acts later path
  obtain ⟨org, member, rfl⟩ := List.mem_map.mp listed
  have initially : Unescalated users org.id (owners state.db org.id) state :=
    ⟨sound, sound.organizations org member, rfl, acts⟩
  exact (path.preserves (fun _ _ _ holds permitted taken =>
    holds.step strangers permitted.1 permitted.2 taken) initially).same

/-- From any state the requests can reach: a COMMIT of a row read for what it is which
makes or unmakes an owner is the request of an owner, and in runs of such COMMITs users
who are at most admins neither make nor unmake one. -/
theorem owner_role_guarded [Citext] (reachable : service.Reachable anyStep state) :
    OwnersDispose OwnerSeen state ∧ NoEscalation OwnerSeen state := by
  have sound := Service.Sound.reachable reachable
  exact ⟨fun sid after seen taken disposes => disposer_owner sound seen taken disposes,
    no_escalation sound⟩

end Authority

attribute [local instance] Citext.ascii

theorem owner_role_guarded_demoted : ∃ state, service.Reachable anyStep state ∧
    OwnerSeen state (.next 1) ∧ ((step state (.next 1)).any fun after =>
      DisposesOwner state.db after.db) = true ∧
    OwnersDispose OwnerSeen state ∧ NoEscalation OwnerSeen state := by
  have ran : (service.run anyStep {} (founded ++ demotion.take 4)).any (fun state =>
      OwnerSeen state (.next 1) && (step state (.next 1)).any fun after =>
        DisposesOwner state.db after.db) = true := by
    decide +kernel
  obtain ⟨state, reachable, passes⟩ := Machine.reachable_of_check rfl _ ran
  simp only [Bool.and_eq_true, decide_eq_true_eq] at passes
  exact ⟨state, reachable, passes.1, passes.2, owner_role_guarded reachable⟩

/-- An admin is about to demote a member, whom the owner has promoted since. -/
def overtaken : List Action := [
  .register "ann@pulse.dev",
  .register "bob@pulse.dev",
  .register "cid@pulse.dev",
  .createOrg 1 "acme",
  .begin 0 1 4 (.inviteMember { email := "bob@pulse.dev", role := .admin }),
  .next 0, .next 0, .next 0, .next 0,
  .begin 0 1 4 (.inviteMember { email := "cid@pulse.dev" }),
  .next 0, .next 0, .next 0, .next 0,
  .begin 2 2 4 (.updateMemberRole 7 .viewer),
  .next 2,
  .begin 1 1 4 (.updateMemberRole 7 .owner),
  .next 1, .next 1, .next 1,
  .next 2]

/-- The admin's COMMIT takes the owner role away. -/
theorem admin_demotes_owner : ∃ state, service.Reachable anyStep state ∧
    ¬ OwnersDispose anyStep state := by
  have ran : (service.run anyStep {} overtaken).any (fun state =>
      ((state.sessions 2).actor.all fun actor => actor.role = .admin) &&
        (step state (.next 2)).any fun after => DisposesOwner state.db after.db) = true := by
    decide +kernel
  obtain ⟨state, reachable, passes⟩ := Machine.reachable_of_check rfl overtaken ran
  simp only [Bool.and_eq_true, Option.all_eq_true, Option.any_eq_true, decide_eq_true_eq] at passes
  obtain ⟨admins, after, taken, disposes⟩ := passes
  refine ⟨state, reachable, ?_⟩
  intro guarded
  obtain ⟨actor, acting, owner⟩ := guarded 2 after trivial taken disposes
  have admin := admins actor acting
  rw [owner] at admin
  cases admin

end Pulse.Membership
