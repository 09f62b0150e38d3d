import Pulse.Library.UniqueIndex
import Pulse.Api.Orgs
import Pulse.Tenants.Requests

/-! The endpoints which look for a name and then write it, statement by statement. Where two of
them race, the unique constraints decide, and `integrity_error_handler` answers for them. -/
namespace Pulse.Names
open Library.Lts Library.UniqueIndex Tenants

/-- The entries of the unique constraints. -/
inductive Key where
  | email (folded : String)
  | orgSlug (slug : String)
  | membership (orgId userId : Uuid)
  | projectSlug (orgId : Uuid) (slug : String)
  | queueName (projectId : Uuid) (name : String)
deriving DecidableEq, Repr

inductive Table where
  | users | organizations | organizationMembers | projects | queues
deriving DecidableEq, Repr

inductive Row where
  | user (row : User)
  | organization (row : Organization)
  | member (row : OrganizationMember)
  | project (row : Project)
  | queue (row : Queue)
deriving DecidableEq, Repr

def Row.key [Citext] : Row → Key
  | .user row => .email (Citext.fold row.email)
  | .organization row => .orgSlug row.slug
  | .member row => .membership row.orgId row.userId
  | .project row => .projectSlug row.orgId row.slug
  | .queue row => .queueName row.projectId row.name

/-- The primary key. -/
def Row.ref : Row → Table × Uuid
  | .user row => (.users, row.id)
  | .organization row => (.organizations, row.id)
  | .member row => (.organizationMembers, row.id)
  | .project row => (.projects, row.id)
  | .queue row => (.queues, row.id)

/-- No endpoint deletes or renames a row of the table. -/
def Table.permanent : Table → Bool
  | .users | .organizations | .projects => true
  | .organizationMembers | .queues => false

/-- The committed rows. -/
def rows (world : World) : List Row :=
  world.directory.users.map .user ++ world.directory.organizations.map .organization ++
    world.directory.members.map .member ++ world.projects.map .project ++
    world.engine.db.queues.map .queue

def keys [Citext] (world : World) : List Key :=
  (rows world).map Row.key

def refs (world : World) : List (Table × Uuid) :=
  (rows world).map Row.ref

def withQueues (world : World) (f : List Queue → List Queue) : World :=
  { world with engine := { world.engine with
      db := { world.engine.db with queues := f world.engine.db.queues } } }

def add (world : World) : Row → World
  | .user row =>
    { world with directory := { world.directory with users := world.directory.users ++ [row] } }
  | .organization row => { world with directory := { world.directory with
      organizations := world.directory.organizations ++ [row] } }
  | .member row =>
    { world with directory := { world.directory with members := world.directory.members ++ [row] } }
  | .project row => { world with projects := world.projects ++ [row] }
  | .queue row => withQueues world fun rows => rows ++ [row]

/-- A row before its INSERT, which draws its id. -/
inductive Draft where
  | user (email : String)
  | organization (slug : String) (userId : Uuid)
  | member (orgId userId : Uuid) (role : MemberRole)
  | project (body : ProjectCreate)
  | queue (body : QueueCreate)
deriving DecidableEq, Repr

def Draft.row (id : Uuid) : Draft → Row
  | .user email => .user { id, email }
  | .organization slug _ => .organization { id, slug }
  | .member orgId userId role => .member { id, orgId, userId, role }
  | .project body => .project { id, orgId := body.orgId, name := body.name, slug := body.slug }
  | .queue body => .queue {
      id, projectId := body.projectId, retryPolicyId := body.retryPolicyId, name := body.name,
      priorityDefault := body.priorityDefault, concurrencyLimit := body.concurrencyLimit,
      rateLimitPerSec := body.rateLimitPerSec, isPaused := false }

def Draft.key [Citext] (draft : Draft) : Key :=
  (draft.row 0).key

/-- `create_org` inserts the membership of its user next. -/
def Draft.follower (id : Uuid) : Draft → Option Draft
  | .organization _ userId => some (.member id userId .owner)
  | _ => none

/-- The rows of permanent tables which it references. -/
def Draft.parents : Draft → List (Table × Uuid)
  | .user _ | .organization _ _ => []
  | .member orgId userId _ => [(.organizations, orgId), (.users, userId)]
  | .project body => [(.organizations, body.orgId)]
  | .queue body => [(.projects, body.projectId)]

def Draft.policy : Draft → Option Uuid
  | .queue body => body.retryPolicyId
  | _ => none

/-- The SELECT for the name. -/
def Draft.existing [Citext] (world : World) : Draft → Bool
  | .user email => (world.directory.findUser email).isSome
  | .organization slug _ => world.directory.organizations.any fun org => org.slug = slug
  | .member orgId userId _ => (world.directory.findMembership orgId userId).isSome
  | .project body =>
    world.projects.any fun project => project.orgId = body.orgId && project.slug = body.slug
  | .queue body => world.engine.db.queueNameTaken body.projectId body.name

def Draft.taken : Draft → String
  | .user _ => "A user with this email already exists"
  | .organization _ _ => "An organization with this slug already exists"
  | .member _ _ _ => "User is already a member of this organization"
  | .project _ => "A project with this slug already exists in this organization"
  | .queue _ => "A queue with this name already exists in this project"

inductive Call where
  | register (email : String)
  | createOrg (slug : String)
  | inviteMember (orgId : Uuid) (body : MemberInvite)
  | createProject (body : ProjectCreate)
  | createQueue (body : QueueCreate)
  | updateQueue (id : Uuid) (body : QueueUpdate)
deriving DecidableEq, Repr

def Call.policy : Call → Option Uuid
  | .createQueue body => body.retryPolicyId
  | .updateQueue _ body => body.retryPolicyId.getD none
  | _ => none

/-- What a request needs the role for. -/
inductive Goal where
  | project (body : ProjectCreate)
  | queue (body : QueueCreate)
  | update (loaded : Queue) (body : QueueUpdate)
deriving DecidableEq, Repr

/-- The statement of its authorization which a request is before: the SELECT of its user, of the
user's membership (and of whom it invites), of the queue, of its project, and of the role in its
organization. -/
inductive Gate where
  | user (userId : Uuid)
  | member (userId orgId : Uuid) (body : MemberInvite)
  | invited (actor : OrganizationMember) (body : MemberInvite)
  | queue (userId id : Uuid) (body : QueueUpdate)
  | project (userId projectId : Uuid) (goal : Goal)
  | role (userId orgId : Uuid) (goal : Goal)
deriving DecidableEq, Repr

/-- The schema accepts the body. -/
def Call.valid : Call → Bool
  | .createQueue body => body.valid
  | .updateQueue _ body => body.valid
  | _ => true

/-- A request between two of its statements: in its authorization, past it, past the SELECT for its
name, before an INSERT (with the row which the request is for, where that is not its first one), before
the COMMIT, before the SELECT of `refresh`; and `update_queue` with the row it has loaded, with the row
lock of its UPDATE, and with the entry of a new name. -/
inductive Stage where
  | authorizing (gate : Gate)
  | looking (draft : Draft)
  | validating (body : QueueCreate)
  | inserting (draft : Draft) (first : Option Row)
  | flushed (first : Row)
  | changing (loaded : Queue) (body : QueueUpdate)
  | revalidating (loaded : Queue) (body : QueueUpdate)
  | updating (loaded : Queue) (body : QueueUpdate)
  | locked (current next : Queue)
  | written (next : Queue)
  | refreshing (row : Row)
deriving DecidableEq, Repr

structure Session where
  call : Call
  stage : Stage
deriving DecidableEq, Repr

inductive Reply where
  | created (row : Row)
  | updated (queue : Queue)
  | refused (error : ApiError)
  | internalError
deriving DecidableEq, Repr

structure Answer where
  call : Call
  reply : Reply
deriving DecidableEq, Repr

/-- The committed tables and the sessions. Of the open transactions: the rows they have inserted, the
names they have given to queues, and the queues which they have updated. `answers` is auxiliary, the
newest first. -/
structure Service where
  world : World := {}
  nextUuid : Uuid := 1
  sessions : Sid → Option Session := fun _ => none
  inserted : List (Sid × Row) := []
  renamed : List (Sid × Queue) := []
  locked : List (Sid × Uuid) := []
  answers : List Answer := []

namespace Service
variable (state : Service) (sid : Sid)

/-- The index entries of the open transactions. -/
def entries [Citext] : List (Sid × Key) :=
  state.inserted.map (Prod.map id Row.key) ++
    state.renamed.map (Prod.map id fun queue => (Row.queue queue).key)

/-- Another transaction has updated the row which has the key. -/
def leaving [Citext] (key : Key) : Bool :=
  state.locked.any fun lock => lock.1 ≠ sid &&
    state.world.engine.db.queues.any fun queue => queue.id = lock.2 && (Row.queue queue).key = key

/-- The index waits for whoever may free the key. -/
def admits [Citext] (key : Key) : Insertion :=
  if state.leaving sid key then .waits
  else insertion (keys state.world) state.entries sid key

/-- The foreign key on a retry policy. -/
def hasPolicy (policy : Option Uuid) : Bool :=
  policy.all fun id => state.world.engine.db.retryPolicies.any fun row => row.id = id

/-- The other foreign keys: a transaction sees its own rows. -/
def hasParents (draft : Draft) : Bool :=
  draft.parents.all fun ref => ref ∈ refs state.world || ref ∈ (own state.inserted sid).map Row.ref

def go (call : Call) (stage : Stage) : Service :=
  { state with sessions := Function.update state.sessions sid (some ⟨call, stage⟩) }

/-- The transaction ends, and leaves nothing behind. -/
def rollback : Service :=
  { state with
    sessions := Function.update state.sessions sid none
    inserted := release state.inserted sid
    renamed := release state.renamed sid
    locked := release state.locked sid }

def answer (call : Call) (reply : Reply) : Service :=
  { state.rollback sid with answers := ⟨call, reply⟩ :: state.answers }

/-- The transaction publishes the world and goes on to its `refresh`. -/
def commit (call : Call) (world : World) (row : Row) : Service :=
  { state.rollback sid with
    world
    sessions := Function.update state.sessions sid (some ⟨call, .refreshing row⟩) }

end Service

/-- `integrity_error_handler`. -/
def integrityError : Reply :=
  .refused (.conflict "The request conflicts with existing data")

/-- The columns which the ORM writes: those which were set to another value than was loaded. -/
def dirty (body : QueueUpdate) (loaded : Queue) : QueueUpdate where
  name := body.name.filter (· ≠ loaded.name)
  priorityDefault := body.priorityDefault.filter (· ≠ loaded.priorityDefault)
  concurrencyLimit := body.concurrencyLimit.filter (· ≠ loaded.concurrencyLimit)
  rateLimitPerSec := body.rateLimitPerSec.filter (· ≠ loaded.rateLimitPerSec)
  retryPolicyId := body.retryPolicyId.filter (· ≠ loaded.retryPolicyId)

/-- INSERT of one row. -/
def insert [Citext] (state : Service) (sid : Sid) (call : Call) (draft : Draft) (first : Option Row) :
    Option Service :=
  let row := draft.row state.nextUuid
  match state.admits sid row.key with
  | .violates => some (state.answer sid call integrityError)
  | .waits => none
  | .enters =>
    if !(state.hasParents sid draft && state.hasPolicy draft.policy) then
      some (state.answer sid call integrityError)
    else
      let next := match draft.follower state.nextUuid with
        | some draft => Stage.inserting draft (some row)
        | none => .flushed (first.getD row)
      some { state.go sid call next with
        nextUuid := state.nextUuid + 1
        inserted := state.inserted ++ [(sid, row)] }

/-- UPDATE of one queue, up to its row lock: where the row has gone the ORM raises. -/
def lockQueue (state : Service) (sid : Sid) (call : Call) (loaded : Queue) (body : QueueUpdate) :
    Option Service :=
  if dirty body loaded = {} then
    some (state.commit sid call state.world (.queue loaded))
  else match state.world.engine.db.findQueue loaded.id with
    | none => some (state.answer sid call .internalError)
    | some current =>
      if state.locked.any fun lock => lock.1 ≠ sid && lock.2 = current.id then none
      else some { state.go sid call (.locked current ((dirty body loaded).write current)) with
        locked := (sid, current.id) :: state.locked }

/-- The rest of the UPDATE: the entry of a new name, and the foreign key. -/
def enterName [Citext] (state : Service) (sid : Sid) (call : Call) (current next : Queue) :
    Option Service :=
  let valid := next.retryPolicyId = current.retryPolicyId || state.hasPolicy next.retryPolicyId
  if next.name = current.name then
    if valid then some (state.go sid call (.written next))
    else some (state.answer sid call integrityError)
  else match state.admits sid (Row.queue next).key with
    | .violates => some (state.answer sid call integrityError)
    | .waits => none
    | .enters =>
      if valid then
        some { state.go sid call (.written next) with renamed := (sid, next) :: state.renamed }
      else some (state.answer sid call integrityError)

/-- What comes after the SELECT of the user: the schema first. -/
def Call.authenticated (userId : Uuid) : Call → Except ApiError Stage
  | .register email => .ok (.looking (.user email))
  | .createOrg slug => .ok (.looking (.organization slug userId))
  | .inviteMember orgId body => .ok (.authorizing (.member userId orgId body))
  | .createProject body => .ok (.authorizing (.role userId body.orgId (.project body)))
  | .createQueue body =>
    if body.valid then .ok (.authorizing (.project userId body.projectId (.queue body)))
    else .error (.unprocessable "Request validation failed")
  | .updateQueue id body =>
    if body.valid then .ok (.authorizing (.queue userId id body))
    else .error (.unprocessable "Request validation failed")

def Goal.stage : Goal → Stage
  | .project body => .looking (.project body)
  | .queue body => .looking (.queue body)
  | .update loaded body => .changing loaded body

/-- One statement of the authorization. -/
def authorize [Citext] (world : World) (call : Call) : Gate → Except ApiError Stage
  | .user userId => do
    let user ← getCurrentUser world.directory userId
    call.authenticated user.id
  | .member userId orgId body => do
    let actor ← world.ensureRole userId .admin orgId
    return .authorizing (.invited actor body)
  | .invited actor body => do
    let target ← Pulse.inviteMember world.directory actor body
    return .looking (.member actor.orgId target.id body.role)
  | .queue userId id body => do
    let queue ← world.getQueueOr404 id
    return .authorizing (.project userId queue.projectId (.update queue body))
  | .project userId projectId goal => do
    let project ← world.getProjectOr404 projectId
    return .authorizing (.role userId project.orgId goal)
  | .role userId orgId goal => do
    let _ ← world.ensureRole userId .admin orgId
    return goal.stage

/-- The first statement of a request; `register` needs no user. -/
def Call.start (userId : Uuid) : Call → Stage
  | .register email => .looking (.user email)
  | _ => .authorizing (.user userId)

/-- The next statement of a request. -/
def Session.next [Citext] (state : Service) (sid : Sid) (session : Session) : Option Service :=
  let call := session.call
  match session.stage with
  | .authorizing gate =>
    match authorize state.world call gate with
    | .error error => some (state.answer sid call (.refused error))
    | .ok stage => some (state.go sid call stage)
  | .looking draft =>
    if draft.existing state.world then
      some (state.answer sid call (.refused (.conflict draft.taken)))
    else match draft with
      | .queue body => some (state.go sid call (.validating body))
      | _ => some (state.go sid call (.inserting draft none))
  | .validating body =>
    if validateRetryPolicy state.world.engine.db body.retryPolicyId body.projectId then
      some (state.go sid call (.inserting (.queue body) none))
    else some (state.answer sid call (.refused (.unprocessable
      "retry_policy_id does not refer to a retry policy in this project")))
  | .inserting draft first => insert state sid call draft first
  | .flushed first =>
    some (state.commit sid call ((own state.inserted sid).foldl add state.world) first)
  | .changing loaded body =>
    if body.name.any fun name => name ≠ loaded.name &&
        state.world.engine.db.queueNameTaken loaded.projectId name then
      some (state.answer sid call (.refused (.conflict
        "A queue with this name already exists in this project")))
    else some (state.go sid call (.revalidating loaded body))
  | .revalidating loaded body =>
    if validateRetryPolicy state.world.engine.db (body.retryPolicyId.getD none) loaded.projectId then
      some (state.go sid call (.updating loaded body))
    else some (state.answer sid call (.refused (.unprocessable
      "retry_policy_id does not refer to a retry policy in this project")))
  | .updating loaded body => lockQueue state sid call loaded body
  | .locked current next => enterName state sid call current next
  | .written next =>
    let write := List.map (onId Queue.id next.id fun _ => next)
    some (state.commit sid call (withQueues state.world write) (.queue next))
  | .refreshing row =>
    match (rows state.world).find? fun found => found.ref = row.ref with
    | none => some (state.answer sid call .internalError)
    | some (.queue queue) => some (state.answer sid call
        (match call with
        | .updateQueue _ _ => .updated queue
        | _ => .created (.queue queue)))
    | some found => some (state.answer sid call (.created found))

/-- Requests of one statement which touch what has a name. -/
inductive Other where
  | removeMember (id : Uuid)
  | deleteQueue (id : Uuid)
  | setPaused (id : Uuid) (isPaused : Bool)
  | deleteRetryPolicy (id : Uuid)
deriving DecidableEq, Repr

/-- They wait for the row locks of open transactions; a policy which one of them references is
locked by it. -/
def Other.waits (state : Service) : Other → Bool
  | .removeMember _ => false
  | .deleteQueue id | .setPaused id _ => state.locked.any fun lock => lock.2 = id
  | .deleteRetryPolicy id =>
    (state.world.engine.db.queues.any fun queue => queue.retryPolicyId = some id &&
      state.locked.any fun lock => lock.2 = queue.id) ||
    (state.inserted.any fun entry => match entry.2 with
      | .queue queue => queue.retryPolicyId = some id
      | _ => false) ||
    state.renamed.any fun entry => entry.2.retryPolicyId = some id

def Other.perform (world : World) : Other → World
  | .removeMember id => { world with directory := { world.directory with
      members := world.directory.members.filter fun row => row.id ≠ id } }
  | .deleteQueue id => withQueues world fun rows => rows.filter fun row => row.id ≠ id
  | .setPaused id isPaused =>
    withQueues world fun rows => rows.map (onId Queue.id id fun row => { row with isPaused })
  | .deleteRetryPolicy id =>
    let cleared := withQueues world fun rows => rows.map fun row =>
      if row.retryPolicyId = some id then { row with retryPolicyId := none } else row
    { cleared with engine := { cleared.engine with db := { cleared.engine.db with
        retryPolicies := cleared.engine.db.retryPolicies.filter fun row => row.id ≠ id } } }

/-- Where the process survives a failure, `unhandled_exception_handler` answers. -/
inductive Move where
  | begin (sid : Sid) (userId : Uuid) (call : Call)
  | next (sid : Sid)
  | fail (sid : Sid) (handled : Bool)
  | other (request : Other)
deriving DecidableEq, Repr

def step [Citext] (state : Service) : Move → Option Service
  | .begin sid userId call =>
    if (state.sessions sid).isSome then none else some (state.go sid call (call.start userId))
  | .next sid => (state.sessions sid).bind fun session => session.next state sid
  | .fail sid handled => (state.sessions sid).map fun session =>
    if handled then state.answer sid session.call .internalError else state.rollback sid
  | .other request =>
    if request.waits state then none else some { state with world := request.perform state.world }

/-- Any tables which meet their constraints, with no request under way. -/
def names [Citext] : Machine Service Move where
  init := fun state => (keys state.world).Nodup ∧ (refs state.world).Nodup ∧
    (∀ ref ∈ refs state.world, ref.2 < state.nextUuid) ∧
    (∀ row ∈ state.world.directory.members, (.organizations, row.orgId) ∈ refs state.world) ∧
    (∀ sid, state.sessions sid = none) ∧ state.inserted = [] ∧ state.renamed = [] ∧
    state.locked = [] ∧ state.answers = []
  step := step

end Pulse.Names
