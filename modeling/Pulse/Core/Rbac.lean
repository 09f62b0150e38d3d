import Pulse.Schema

/-! Members of organizations and their roles, and the check in front of the
endpoints which need one. -/
namespace Pulse

/-- `AppError`, by the message of its answer. -/
inductive ApiError where
  | notFound (message : String)
  | conflict (message : String)
  | unprocessable (message : String)
  | unauthorized (message : String)
  | forbidden (message : String)
deriving DecidableEq, Repr

inductive MemberRole where
  | owner | admin | member | viewer
deriving DecidableEq, Repr

def MemberRole.value : MemberRole → String
  | .owner => "owner"
  | .admin => "admin"
  | .member => "member"
  | .viewer => "viewer"

/-- How `CITEXT` folds a text before it compares it. -/
class Citext where
  fold : String → String

/-- In the C locale these are the ASCII letters. -/
@[reducible] def Citext.ascii : Citext where
  fold text := String.ofList (text.toList.map Char.toLower)

/-- The column of the address is `CITEXT`. -/
structure User where
  id : Uuid
  email : String
deriving DecidableEq, Repr

structure Organization where
  id : Uuid
  slug : String
deriving DecidableEq, Repr

structure OrganizationMember where
  id : Uuid
  orgId : Uuid
  userId : Uuid
  role : MemberRole
deriving DecidableEq, Repr

/-- The committed rows of the tables of users, organizations and members. -/
structure Directory where
  users : List User := []
  organizations : List Organization := []
  members : List OrganizationMember := []
deriving DecidableEq, Repr

/-- `User.email == email`. -/
def Directory.findUser [Citext] (db : Directory) (email : String) : Option User :=
  db.users.find? fun user => Citext.fold user.email = Citext.fold email

/-- The row of `uq_org_members_org_user`. -/
def Directory.findMembership (db : Directory) (orgId userId : Uuid) : Option OrganizationMember :=
  db.members.find? fun row => row.orgId = orgId && row.userId = userId

def Directory.findMember (db : Directory) (id : Uuid) : Option OrganizationMember :=
  db.members.find? fun row => row.id = id

/-- `ROLE_ORDER`. -/
def roleOrder : MemberRole → Nat
  | .viewer => 0
  | .member => 1
  | .admin => 2
  | .owner => 3

def roleAtLeast (role minimum : MemberRole) : Bool :=
  roleOrder minimum ≤ roleOrder role

/-- `get_current_user`, past the check of the token. -/
def getCurrentUser (db : Directory) (userId : Uuid) : Except ApiError User :=
  match db.users.find? fun user => user.id = userId with
  | some user => .ok user
  | none => .error (.unauthorized "User no longer exists")

def getOrgMembership (db : Directory) (orgId userId : Uuid) :
    Except ApiError OrganizationMember :=
  match db.findMembership orgId userId with
  | some membership => .ok membership
  | none => .error (.forbidden "You are not a member of this organization")

def requireRole (minimum : MemberRole) (membership : OrganizationMember) :
    Except ApiError OrganizationMember :=
  if roleAtLeast membership.role minimum then .ok membership
  else .error (.forbidden ("Requires role '" ++ minimum.value ++ "' or higher"))

section Lookup
variable {db : Directory}

theorem Directory.findMembership_some {orgId userId : Uuid} {row : OrganizationMember}
    (found : db.findMembership orgId userId = some row) :
    row ∈ db.members ∧ row.orgId = orgId ∧ row.userId = userId := by
  refine ⟨List.mem_of_find?_eq_some found, ?_⟩
  simpa [Bool.and_eq_true] using List.find?_some found

end Lookup

end Pulse
