import Pulse.Core.Rbac

/-! What the endpoints of `api/orgs.py` and `register` decide between two of their
statements. -/
namespace Pulse

/-- `POST /auth/register`. -/
def register [Citext] (db : Directory) (id : Uuid) (email : String) : Except ApiError User :=
  match db.findUser email with
  | some _ => .error (.conflict "A user with this email already exists")
  | none => .ok { id, email }

/-- `POST /orgs`: the organization and the membership of its creator. -/
def createOrg (db : Directory) (id : Uuid) (userId : Uuid) (slug : String) :
    Except ApiError (Organization × OrganizationMember) :=
  match db.organizations.find? fun org => org.slug = slug with
  | some _ => .error (.conflict "An organization with this slug already exists")
  | none => .ok ({ id, slug }, { id := id + 1, orgId := id, userId, role := .owner })

structure MemberInvite where
  email : String
  role : MemberRole := .member
deriving DecidableEq, Repr

/-- The write of `update_member_role` or `remove_member`. -/
inductive MemberChange where
  | setRole (role : MemberRole)
  | delete
deriving DecidableEq, Repr

def MemberChange.write (change : MemberChange) (memberId : Uuid)
    (rows : List OrganizationMember) : List OrganizationMember :=
  match change with
  | .setRole role => rows.map (onId OrganizationMember.id memberId fun row => { row with role })
  | .delete => rows.filter fun row => row.id ≠ memberId

/-- The request needs an owner: the old or the new role is the owner role. -/
def MemberChange.touchesOwner (change : MemberChange) (target : OrganizationMember) : Bool :=
  match change with
  | .setRole role => target.role = .owner || role = .owner
  | .delete => target.role = .owner

/-- The request takes the owner role from its target. -/
def MemberChange.revokesOwner (change : MemberChange) (target : OrganizationMember) : Bool :=
  match change with
  | .setRole role => target.role = .owner && role ≠ .owner
  | .delete => target.role = .owner

def MemberChange.lastOwnerMessage : MemberChange → String
  | .setRole _ => "Cannot demote the last remaining owner"
  | .delete => "Cannot remove the last remaining owner"

/-- The ORM emits no UPDATE for an attribute set to the value it has. -/
def MemberChange.idle (change : MemberChange) (target : OrganizationMember) : Bool :=
  match change with
  | .setRole role => role = target.role
  | .delete => false

/-- `_count_owners`. -/
def countOwners (db : Directory) (orgId : Uuid) : Nat :=
  db.members.countP fun row => row.orgId = orgId && row.role = .owner

def ensureCanManageOwnerRole (actor : OrganizationMember) : Except ApiError Unit :=
  if actor.role = .owner then .ok ()
  else .error (.forbidden "Only an owner can grant, change or revoke the owner role")

/-- The check which some requests make. -/
def ensureWhere (asked : Bool) (actor : OrganizationMember) : Except ApiError Unit :=
  if asked then ensureCanManageOwnerRole actor else .ok ()

/-- `invite_member` up to its first SELECT: the invited user. -/
def inviteMember [Citext] (db : Directory) (actor : OrganizationMember) (body : MemberInvite) :
    Except ApiError User :=
  match ensureWhere (body.role = .owner) actor with
  | .error error => .error error
  | .ok _ =>
    match db.findUser body.email with
    | none => .error (.notFound "No registered user with this email")
    | some user => .ok user

/-- The second SELECT of `invite_member`. -/
def ensureNotMember (db : Directory) (orgId userId : Uuid) : Except ApiError Unit :=
  match db.findMembership orgId userId with
  | some _ => .error (.conflict "User is already a member of this organization")
  | none => .ok ()

/-- The SELECT of the target. The identity map of the request's session already has
the actor's own row, and keeps the role which was read first. -/
def loadTarget (db : Directory) (actor : OrganizationMember) (memberId : Uuid) :
    Option OrganizationMember :=
  (db.members.find? fun row => row.id = memberId && row.orgId = actor.orgId).map fun row =>
    if row.id = actor.id then actor else row

/-- The target of a change, where the actor may touch it. -/
def changeMember (db : Directory) (actor : OrganizationMember) (memberId : Uuid)
    (change : MemberChange) : Except ApiError OrganizationMember :=
  match loadTarget db actor memberId with
  | none => .error (.notFound "Membership not found")
  | some target =>
    match ensureWhere (change.touchesOwner target) actor with
    | .error error => .error error
    | .ok _ => .ok target

def updateMemberRole (db : Directory) (actor : OrganizationMember) (memberId : Uuid)
    (role : MemberRole) : Except ApiError OrganizationMember :=
  changeMember db actor memberId (.setRole role)

def removeMember (db : Directory) (actor : OrganizationMember) (memberId : Uuid) :
    Except ApiError OrganizationMember :=
  changeMember db actor memberId .delete

/-- The answer to a count of the owners. -/
def ensureOwnerRemains (owners : Nat) (change : MemberChange) : Except ApiError Unit :=
  if owners ≤ 1 then .error (.forbidden change.lastOwnerMessage) else .ok ()

section Guards
variable {db : Directory} {actor target : OrganizationMember}

theorem ensureWhere_ok {asked : Bool} {done : Unit}
    (passed : ensureWhere asked actor = .ok done) : asked = true → actor.role = .owner := by
  intro needed
  simp only [ensureWhere, needed, if_true, ensureCanManageOwnerRole] at passed
  split at passed
  · assumption
  · cases passed

theorem inviteMember_ok [Citext] {body : MemberInvite} {user : User}
    (passed : inviteMember db actor body = .ok user) :
    body.role = .owner → actor.role = .owner := by
  unfold inviteMember at passed
  split at passed
  · cases passed
  · rename_i checked
    intro owner
    exact ensureWhere_ok checked (by simpa using owner)

theorem loadTarget_some {memberId : Uuid} (found : loadTarget db actor memberId = some target) :
    target.id = memberId ∧ ∃ row ∈ db.members, row.id = memberId ∧ row.orgId = actor.orgId := by
  obtain ⟨row, seen, rfl⟩ := Option.map_eq_some_iff.mp found
  have present := List.mem_of_find?_eq_some seen
  obtain ⟨named, inside⟩ : row.id = memberId ∧ row.orgId = actor.orgId := by
    simpa [Bool.and_eq_true] using List.find?_some seen
  refine ⟨?_, row, present, named, inside⟩
  split
  · rename_i own
    exact own ▸ named
  · exact named

theorem changeMember_ok {memberId : Uuid} {change : MemberChange}
    (passed : changeMember db actor memberId change = .ok target) :
    loadTarget db actor memberId = some target ∧
      (change.touchesOwner target = true → actor.role = .owner) := by
  unfold changeMember at passed
  split at passed
  · cases passed
  · rename_i found
    split at passed
    · cases passed
    · rename_i checked
      cases passed
      exact ⟨found, ensureWhere_ok checked⟩

/-- Whatever is done to an owner's row needs an owner. -/
theorem touchesOwner_of_owner (change : MemberChange) (owner : target.role = .owner) :
    change.touchesOwner target = true := by
  cases change <;> simp [MemberChange.touchesOwner, owner]

end Guards

end Pulse
