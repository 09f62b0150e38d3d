import Pulse.Tenants.Requests
import Pulse.Tokens.Step
import Pulse.Ws.Publisher

/-! `ws_endpoint` of `ws/router.py` beside the publisher, whose tick is taken here to its end: past
the job updates come the workers, the statistics of the queues and the metrics. -/
namespace Pulse.Ws
open Library Library.Lts Tokens

/-- The columns of `workers` and of `job_executions` which the publisher selects. -/
structure WorkerRow where
  id : Uuid
  projectId : Uuid
  name : String
  status : WorkerStatus
  lastHeartbeatAt : Option Time
deriving DecidableEq, Repr

structure ExecutionRow where
  jobId : Uuid
  status : ExecutionStatus
  finishedAt : Option Time
deriving DecidableEq, Repr

/-- The committed rows. -/
structure Database where
  tables : Tables := {}
  workers : List WorkerRow := []
  executions : List ExecutionRow := []
  directory : Directory := {}
  projects : List Tenants.Project := []

inductive Message where
  | jobUpdated (id : Uuid) (status : JobStatus) (queueId : Uuid)
  | workerUpdated (id : Uuid) (name : String) (status : WorkerStatus) (lastHeartbeatAt : Option Time)
  | queueStats (queueId : Uuid) (name : String) (depth running : Nat) (isPaused : Bool)
  | metricsTick (completedLastMin failedLastMin : Nat) (ts : Time)
deriving DecidableEq, Repr

def JobRow.message (row : JobRow) : Message :=
  .jobUpdated row.id row.status row.queueId

def WorkerRow.message (row : WorkerRow) : Message :=
  .workerUpdated row.id row.name row.status row.lastHeartbeatAt

namespace Database
variable (db : Database) (projectId : Uuid)

def workersSince (since : Time) : List WorkerRow :=
  db.workers.filter fun worker =>
    worker.projectId = projectId && worker.lastHeartbeatAt.any fun beat => since < beat

def queuesOf : List Queue :=
  db.tables.queues.filter fun queue => queue.projectId = projectId

/-- One group of the counts. -/
def count (queueId : Uuid) (status : JobStatus) : Nat :=
  db.tables.jobs.countP fun job => job.queueId = queueId && job.status = status

def stats (queue : Queue) : Message :=
  .queueStats queue.id queue.name (db.count queue.id .queued)
    (db.count queue.id .claimed + db.count queue.id .running) queue.isPaused

def finished (since : Time) (status : ExecutionStatus) : Nat :=
  db.executions.countP fun execution => execution.status = status &&
    execution.finishedAt.any (fun time => since ≤ time) &&
    (db.tables.jobsOf projectId).any fun job => job.id = execution.jobId

end Database

/-- What comes of a visit after its job updates: nothing yet, a SELECT, a broadcast, nothing more. -/
inductive Rest where
  | jobs
  | workers
  | queues
  | counts (queues : List Queue)
  | completed
  | failed (oneMinAgo : Time) (completed : Nat)
  | done
  | pushing (messages : List Message) (after : Rest)
  | sending (message : Message) (targets dead : List WebSocket) (messages : List Message) (after : Rest)
deriving DecidableEq, Repr

/-- What `_authorize` has read: the user of the token, and the project. -/
structure Pass (Token : Type) where
  token : Token
  decodedAt : Time
  user : User
  project : Tenants.Project
deriving DecidableEq, Repr

/-- `ws_endpoint`: past the SELECT of the user, past the one of the project, past `ensure_role`,
in its loop, and at its end. -/
inductive Endpoint (Token : Type) where
  | fresh
  | identified (token : Token) (decodedAt : Time) (user : User) (projectId : Uuid)
  | located (pass : Pass Token)
  | authorized (pass : Pass Token)
  | connected (pass : Pass Token)
  | closed (pass : Option (Pass Token))
deriving DecidableEq, Repr

structure Delivery where
  websocket : WebSocket
  projectId : Uuid
  message : Message
deriving DecidableEq, Repr

/-- `past` and `delivered` are auxiliary: all the rows which were committed, and what was sent. -/
structure Sockets (Token : Type) where
  publisher : Publisher := {}
  db : Database := {}
  rest : Rest := .jobs
  endpoints : WebSocket → Endpoint Token := fun _ => .fresh
  past : List Database := [{}]
  delivered : List Delivery := []

/-- Clients and commits do not come as events of the publisher here. -/
def Event.inner : Event → Bool
  | .connect _ _ | .disconnect _ _ | .commit _ => false
  | _ => true

/-- Whether the rest of the visit lets the event of the publisher happen, and what it is then. -/
def Rest.after : Rest → Event → Option Rest
  | .done, .advance => some .jobs
  | .jobs, .advance => none
  | _, .fail => some .jobs
  | .jobs, _ => some .jobs
  | _, _ => none

/-- What a call of `send_text` which returns delivers. -/
def sends : Stage → Event → List Delivery
  | .sending visit row (websocket :: _) _, .send true => [⟨websocket, visit.projectId, row.message⟩]
  | _, _ => []

inductive Traffic (Token : Type) where
  | publisher (event : Event)
  | commit (db : Database)
  | connection (websocket : WebSocket) (token : Token) (projectId : Uuid) (now : Time)
  | findProject (websocket : WebSocket)
  | ensureRole (websocket : WebSocket)
  | accept (websocket : WebSocket) (accepted : Bool)
  | disconnect (websocket : WebSocket)
  | abort (websocket : WebSocket)
  | selectWorkers (workers : List WorkerRow)
  | selectQueues (queues : List Queue)
  | selectCounts
  | countCompleted (now : Time)
  | countFailed (ts : Time)
  | broadcast
  | send (reached : Bool)
  | dropDead

section Steps
variable {Token : Type} (jwt : Jwt Token)

namespace Sockets
variable (state : Sockets Token)

def moves (websocket : WebSocket) (endpoint : Endpoint Token) : Sockets Token :=
  { state with endpoints := Function.update state.endpoints websocket endpoint }

def goes (rest : Rest) : Sockets Token :=
  { state with rest }

def drops (projectId : Uuid) (dead : List WebSocket) : Sockets Token :=
  { state with publisher := { state.publisher with
      manager := dead.foldl (fun manager ws => manager.disconnect projectId ws)
        state.publisher.manager } }

end Sockets

/-- `_authorize` up to the SELECT of the user. -/
def identify (db : Database) (token : Token) (projectId : Uuid) (now : Time) : Endpoint Token :=
  match userOf jwt db.directory now token .access with
  | .ok user => .identified token now user projectId
  | .error _ => .closed none

def locate (db : Database) (token : Token) (decodedAt : Time) (user : User) (projectId : Uuid) :
    Endpoint Token :=
  match db.projects.find? fun project => project.id = projectId with
  | some project => .located { token, decodedAt, user, project }
  | none => .closed none

def admission (db : Database) (pass : Pass Token) : Endpoint Token :=
  match getOrgMembership db.directory pass.project.orgId pass.user.id >>= requireRole .viewer with
  | .ok _ => .authorized pass
  | .error _ => .closed none

/-- What the visit under way goes on with once its job updates are sent. -/
def continues (state : Sockets Token) (visit : Visit) : Traffic Token → Option (Sockets Token)
  | .selectWorkers workers =>
    let since := state.publisher.since visit.projectId visit.now
    if state.rest = .jobs ∧ workers.Perm (state.db.workersSince visit.projectId since) then
      some (state.goes (.pushing (workers.map WorkerRow.message) .queues))
    else none
  | .selectQueues queues =>
    if state.rest = .queues ∧ queues.Perm (state.db.queuesOf visit.projectId) then
      some (state.goes (if queues.isEmpty then .completed else .counts queues))
    else none
  | .selectCounts => match state.rest with
    | .counts queues => some (state.goes (.pushing (queues.map state.db.stats) .completed))
    | _ => none
  | .countCompleted now => match state.rest with
    | .completed => some (state.goes
        (.failed (now - 60) (state.db.finished visit.projectId (now - 60) .completed)))
    | _ => none
  | .countFailed ts => match state.rest with
    | .failed oneMinAgo completed => some (state.goes (.pushing [.metricsTick completed
        (state.db.finished visit.projectId oneMinAgo .failed) ts] .done))
    | _ => none
  | .broadcast => match state.rest with
    | .pushing [] after => some (state.goes after)
    | .pushing (message :: messages) after => some (state.goes
        (.sending message (state.publisher.manager.conns visit.projectId) [] messages after))
    | _ => none
  | .send reached => match state.rest with
    | .sending message (websocket :: targets) dead messages after =>
      if reached then some { state.goes (.sending message targets dead messages after) with
        delivered := ⟨websocket, visit.projectId, message⟩ :: state.delivered }
      else some (state.goes (.sending message targets (websocket :: dead) messages after))
    | _ => none
  | .dropDead => match state.rest with
    | .sending _ [] dead messages after =>
      some ((state.drops visit.projectId dead).goes (.pushing messages after))
    | _ => none
  | _ => none

def traffic (state : Sockets Token) (event : Traffic Token) : Option (Sockets Token) :=
  match event with
  | .publisher event =>
    if event.inner then do
      let rest ← state.rest.after event
      let publisher ← Ws.step state.publisher event
      return { state with
        publisher, rest
        delivered := sends state.publisher.stage event ++ state.delivered }
    else none
  | .commit db => some { state with
      db
      publisher := { state.publisher with tables := db.tables }
      past := db :: state.past }
  | .connection websocket token projectId now => match state.endpoints websocket with
    | .fresh => some (state.moves websocket (identify jwt state.db token projectId now))
    | _ => none
  | .findProject websocket => match state.endpoints websocket with
    | .identified token decodedAt user projectId =>
      some (state.moves websocket (locate state.db token decodedAt user projectId))
    | _ => none
  | .ensureRole websocket => match state.endpoints websocket with
    | .located pass => some (state.moves websocket (admission state.db pass))
    | _ => none
  | .accept websocket accepted => match state.endpoints websocket with
    | .authorized pass =>
      if accepted then some { state.moves websocket (.connected pass) with
        publisher := { state.publisher with
          manager := state.publisher.manager.connect pass.project.id websocket } }
      else some (state.moves websocket (.closed none))
    | _ => none
  | .disconnect websocket => match state.endpoints websocket with
    | .connected pass => some { state.moves websocket (.closed (some pass)) with
        publisher := { state.publisher with
          manager := state.publisher.manager.disconnect pass.project.id websocket } }
    | _ => none
  | .abort websocket => match state.endpoints websocket with
    | .identified .. | .located _ => some (state.moves websocket (.closed none))
    | _ => none
  | event => match state.publisher.stage with
    | .updating visit => if visit.rows.isEmpty then continues state visit event else none
    | _ => none

def sockets : Machine (Sockets Token) (Traffic Token) where
  init := fun state => state = {}
  step := traffic jwt

end Steps

end Pulse.Ws
