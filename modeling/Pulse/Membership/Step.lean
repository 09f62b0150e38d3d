import Pulse.Api.Orgs
import Pulse.Library.Lts
import Pulse.Library.RowLock
import Mathlib.Logic.Function.Basic

/-! The requests which change the members of organizations, one SQL statement at a
time. What a request's session has read is kept in its stage. -/
namespace Pulse.Membership
open Library.RowLock Library.Lts

abbrev Sid := Nat

/-- A row of `organization_members`, or an entry of its unique index. -/
inductive Key where
  | member (id : Uuid)
  | membership (orgId userId : Uuid)
deriving DecidableEq, Repr

inductive Call where
  | inviteMember (body : MemberInvite)
  | updateMemberRole (memberId : Uuid) (role : MemberRole)
  | removeMember (memberId : Uuid)
deriving DecidableEq, Repr

/-- Where a request stands: past `require_role(MemberRole.admin)`, past the SELECT of
the invited user, past the SELECT which found no membership, past the INSERT, before
`_count_owners`, before the UPDATE or DELETE, before its COMMIT. `actor` is the
membership of the user who makes the request, as it was read; `counted` is auxiliary:
what `_count_owners` returned. -/
inductive Stage where
  | idle
  | authorized (actor : OrganizationMember) (call : Call)
  | invited (actor : OrganizationMember) (userId : Uuid) (role : MemberRole)
  | adding (actor : OrganizationMember) (userId : Uuid) (role : MemberRole)
  | added (actor : OrganizationMember) (userId : Uuid) (role : MemberRole)
  | counting (actor target : OrganizationMember) (change : MemberChange)
  | changing (actor target : OrganizationMember) (change : MemberChange) (counted : Option Nat)
  | changed (actor target : OrganizationMember) (change : MemberChange) (counted : Option Nat)
deriving DecidableEq, Repr

def Stage.actor : Stage → Option OrganizationMember
  | .idle => none
  | .authorized actor _ | .invited actor _ _ | .adding actor _ _ | .added actor _ _
  | .counting actor _ _ | .changing actor _ _ _ | .changed actor _ _ _ => some actor

/-- The committed rows, the granted locks and the sessions. `nextUuid` is above every
id drawn so far. -/
structure Service where
  db : Directory := {}
  grants : List (Grant Key Sid) := []
  sessions : Sid → Stage := fun _ => .idle
  nextUuid : Uuid := 1

inductive Effect where
  | hold (next : Stage) (locks : List (Key × Mode))
  | commit (write : List OrganizationMember → List OrganizationMember)
  | rollback

def Service.waits (state : Service) (sid : Sid) (lock : Key × Mode) : Bool :=
  blocked state.grants sid lock.1 lock.2

def Service.hold (state : Service) (sid : Sid) (next : Stage) (locks : List (Key × Mode)) :
    Service :=
  { state with
    grants := acquire state.grants sid locks
    sessions := Function.update state.sessions sid next }

def Service.commit (state : Service) (sid : Sid)
    (write : List OrganizationMember → List OrganizationMember) : Service :=
  { db := { state.db with members := write state.db.members }
    grants := release state.grants sid
    sessions := Function.update state.sessions sid .idle
    nextUuid := state.nextUuid + 1 }

def Service.rollback (state : Service) (sid : Sid) : Service :=
  { state with
    grants := release state.grants sid
    sessions := Function.update state.sessions sid .idle }

/-- A statement is not enabled while one of its locks has to wait. -/
def Service.perform (state : Service) (sid : Sid) : Effect → Option Service
  | .hold next locks =>
    if locks.any (state.waits sid) then none else some (state.hold sid next locks)
  | .commit write => some (state.commit sid write)
  | .rollback => some (state.rollback sid)

/-- An error answer ends the transaction. -/
def answer {α : Type} (result : Except ApiError α) (next : α → Stage) : Effect :=
  match result with
  | .ok value => .hold (next value) []
  | .error _ => .rollback

/-- Only a target whose owner role goes away is counted for. -/
def proceed (actor : OrganizationMember) (change : MemberChange) (target : OrganizationMember) :
    Stage :=
  if change.revokesOwner target then .counting actor target change
  else .changing actor target change none

/-- The first SELECT of an endpoint. -/
def Call.effect [Citext] (db : Directory) (actor : OrganizationMember) : Call → Effect
  | .inviteMember body =>
    answer (Pulse.inviteMember db actor body) fun user => .invited actor user.id body.role
  | .updateMemberRole memberId role =>
    answer (Pulse.updateMemberRole db actor memberId role) (proceed actor (.setRole role))
  | .removeMember memberId =>
    answer (Pulse.removeMember db actor memberId) (proceed actor .delete)

/-- `INSERT INTO organization_members`. The unique index waits for whoever is
inserting the same pair or writing the row which has it. -/
def insertMember (state : Service) (sid : Sid) (actor : OrganizationMember) (userId : Uuid)
    (role : MemberRole) : Option Effect :=
  match state.db.findMembership actor.orgId userId with
  | some row => if state.waits sid (.member row.id, .noKeyUpdate) then none else some .rollback
  | none => some (.hold (.added actor userId role) [(.membership actor.orgId userId, .update)])

/-- The row which the INSERT adds. -/
def newMember (state : Service) (actor : OrganizationMember) (userId : Uuid)
    (role : MemberRole) : OrganizationMember :=
  { id := state.nextUuid, orgId := actor.orgId, userId, role }

def lockMode : MemberChange → Mode
  | .setRole _ => .noKeyUpdate
  | .delete => .update

/-- The UPDATE or DELETE by primary key, which gets the newest version of the row. An
UPDATE which finds no row raises, a DELETE only warns. -/
def writeMember (state : Service) (actor target : OrganizationMember) (change : MemberChange)
    (counted : Option Nat) : Effect :=
  if change.idle target then .commit id
  else match state.db.findMember target.id with
    | some _ => .hold (.changed actor target change counted)
        [(.member target.id, lockMode change)]
    | none => if change = .delete then .commit id else .rollback

/-- The next statement of a request. -/
def Stage.effect [Citext] (state : Service) (sid : Sid) : Stage → Option Effect
  | .idle => none
  | .authorized actor call => some (call.effect state.db actor)
  | .invited actor userId role =>
    some (answer (ensureNotMember state.db actor.orgId userId) fun _ => .adding actor userId role)
  | .adding actor userId role => insertMember state sid actor userId role
  | .added actor userId role =>
    some (.commit fun rows => rows ++ [newMember state actor userId role])
  | .counting actor target change =>
    let owners := countOwners state.db actor.orgId
    some (answer (ensureOwnerRemains owners change) fun _ =>
      .changing actor target change (some owners))
  | .changing actor target change counted => some (writeMember state actor target change counted)
  | .changed _ target change _ => some (.commit (change.write target.id))

inductive Action where
  | register (email : String)
  | createOrg (userId : Uuid) (slug : String)
  | begin (sid : Sid) (userId orgId : Uuid) (call : Call)
  | next (sid : Sid)
  | fail (sid : Sid)
deriving DecidableEq, Repr

/-- The dependencies of the three endpoints. -/
def authorize (db : Directory) (userId orgId : Uuid) : Except ApiError OrganizationMember :=
  match getCurrentUser db userId with
  | .error error => .error error
  | .ok user =>
    match getOrgMembership db orgId user.id with
    | .error error => .error error
    | .ok membership => requireRole .admin membership

def step [Citext] (state : Service) : Action → Option Service
  | .register email =>
    match Pulse.register state.db state.nextUuid email with
    | .error _ => some state
    | .ok user => some { state with
        db := { state.db with users := state.db.users ++ [user] }
        nextUuid := state.nextUuid + 1 }
  | .createOrg userId slug =>
    match getCurrentUser state.db userId with
    | .error _ => some state
    | .ok user =>
      match Pulse.createOrg state.db state.nextUuid user.id slug with
      | .error _ => some state
      | .ok (org, membership) => some { state with
          db := { state.db with
            organizations := state.db.organizations ++ [org]
            members := state.db.members ++ [membership] }
          nextUuid := state.nextUuid + 2 }
  | .begin sid userId orgId call =>
    if state.sessions sid = .idle then
      state.perform sid (answer (authorize state.db userId orgId) fun actor =>
        .authorized actor call)
    else none
  | .next sid => ((state.sessions sid).effect state sid).bind (state.perform sid)
  | .fail sid => some (state.rollback sid)

def service [Citext] : Machine Service Action where
  init := fun state => state = {}
  step := step

end Pulse.Membership
