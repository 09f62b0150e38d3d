import Pulse.Tenants.Requests

/-! `chaos_kill` of `api/chaos.py` beside the worker processes which it aims at: `register`,
`_heartbeat_once`, `shutdown` and `_on_chaos` of `worker/main.py`, one await a step. -/
namespace Pulse.Chaos
open Library.Lts

abbrev Pid := Nat
abbrev Rid := Nat

/-- The columns of `workers` which a kill or a heartbeat is about. -/
structure WorkerRow where
  id : Uuid
  projectId : Uuid
  hostname : String
  status : WorkerStatus
  lastHeartbeatAt : Option Time
  chaosKillRequestedAt : Option Time := none
deriving DecidableEq, Repr

/-- `chaosMode` is in lower case, `inCluster` what `_in_cluster` answers. -/
structure Settings where
  chaosEnabled : Bool
  chaosMode : String
  inCluster : Bool
  visibilityTimeoutSec : Nat

def Settings.resolvedMode (settings : Settings) : String :=
  if settings.chaosMode = "auto" then if settings.inCluster then "kubernetes" else "signal"
  else settings.chaosMode

/-- `_live_filter`. -/
def WorkerRow.live (settings : Settings) (now : Time) (projectId : Uuid) (row : WorkerRow) : Bool :=
  row.projectId = projectId && (row.status = .active || row.status = .idle) &&
    row.lastHeartbeatAt.any (fun beat => now - settings.visibilityTimeoutSec ≤ beat) &&
    row.chaosKillRequestedAt.isNone

/-- Where `register` or `_heartbeat_once` stands: outside of both, before the INSERT, between its
commit and the assignment of `worker_id`, between the read of the row and the commit. `before` is
auxiliary: how many kills were committed when the row was read. -/
inductive Stage where
  | idle
  | registering
  | refreshing (id : Uuid)
  | loaded (id : Uuid) (status : Option WorkerStatus) (now : Time) (before : Nat)
deriving DecidableEq, Repr

inductive Exit where
  | flag (id : Uuid)
  | notification (id : Uuid)
  | sigkill
  | other
deriving DecidableEq, Repr

/-- What `shutdown` has loaded and is to commit. -/
structure Leaving where
  id : Uuid
  status : Option WorkerStatus
  lastHeartbeatAt : Option Time
deriving DecidableEq, Repr

/-- The two transactions of `shutdown`: the drain, and the end where a time is given. -/
def WorkerRow.leaving (row : WorkerRow) (retiredAt : Option Time) : Leaving :=
  let status : WorkerStatus := if retiredAt.isSome then .dead else .draining
  ⟨row.id, if row.status = status then none else some status, retiredAt⟩

/-- `listener` are the notifications which the connection has not handed over yet. `own` and
`addressed` are auxiliary: the rows which the process registered, and the kills of its worker which
were committed while its connection stood. -/
structure Process where
  hostname : String
  workerId : Option Uuid := none
  stage : Stage := .registering
  shuttingDown : Bool := false
  leaving : Option Leaving := none
  listener : Option (List Uuid) := none
  exit : Option Exit := none
  own : List Uuid := []
  addressed : List Uuid := []
deriving DecidableEq, Repr

/-- The tables which `get_project_or_404` and `ensure_role` read. -/
structure Tables where
  directory : Directory := {}
  projects : List Tenants.Project := []

/-- What a request has chosen. Auxiliary are `rows`, the table from which it chose, and `earlier`, how
many kills were committed before. -/
structure Kill where
  userId : Uuid
  project : Tenants.Project
  row : WorkerRow
  readAt : Time
  mode : String
  rows : List WorkerRow
  earlier : Nat
deriving DecidableEq, Repr

/-- A request of `chaos_kill`: past `get_current_user`, past `get_project_or_404`, past `ensure_role`,
before the answer of `_delete_pod`, before its commit. -/
inductive Request where
  | loading (userId projectId : Uuid) (workerId : Option Uuid)
  | checking (userId : Uuid) (project : Tenants.Project) (workerId : Option Uuid)
  | choosing (userId : Uuid) (project : Tenants.Project) (workerId : Option Uuid)
  | deleting (kill : Kill)
  | committing (kill : Kill)
deriving DecidableEq, Repr

/-- `pods`, `kills`, `past` and `late` are auxiliary: the pods deleted and the kills committed, the
latter oldest first, the tables so far, and the heartbeats of a row which were committed after its
kill, each by how many kills were committed when it read the row. -/
structure Fleet where
  tables : Tables := {}
  rows : List WorkerRow := []
  nextUuid : Uuid := 0
  processes : Pid → Option Process := fun _ => none
  requests : Rid → Option Request := fun _ => none
  pods : List Kill := []
  kills : List Kill := []
  past : List Tables := [{}]
  late : Uuid → List Nat := fun _ => []

inductive Move where
  | start (pid : Pid) (hostname : String)
  | register (pid : Pid) (projectId : Uuid) (now : Time)
  | refresh (pid : Pid)
  | listen (pid : Pid)
  | lose (pid : Pid)
  | notified (pid : Pid)
  | heartbeat (pid : Pid) (now : Time) (busy : Bool)
  | commitHeartbeat (pid : Pid)
  | fail (pid : Pid)
  | shutdown (pid : Pid)
  | leave (pid : Pid) (retiredAt : Option Time)
  | commitLeave (pid : Pid)
  | crash (pid : Pid)
  | sigkill (pid : Pid)
  | commit (tables : Tables)
  | markDead (ids : List Uuid)
  | prune (ids : List Uuid)
  | chaosKill (rid : Rid) (userId projectId : Uuid) (workerId : Option Uuid)
  | getProject (rid : Rid)
  | ensureRole (rid : Rid)
  | choose (rid : Rid) (now : Time) (pick : Nat)
  | deletePod (rid : Rid) (deleted answered : Bool)
  | commitKill (rid : Rid) (now : Time)
  | abort (rid : Rid)

namespace Process
variable (process : Process)

/-- An exception: `main` does not go on without a first registration. -/
def raises : Process :=
  if process.workerId.isNone then { process with exit := some .other }
  else { process with stage := .idle }

/-- The ORM writes a status only where it differs from the one loaded. -/
def target (row : WorkerRow) (busy : Bool) : Option WorkerStatus :=
  let status : WorkerStatus := if busy then .active else .idle
  if process.shuttingDown || row.status = status then none else some status

/-- `_heartbeat_once` up to its commit. -/
def heartbeatOnce (rows : List WorkerRow) (id : Uuid) (now : Time) (busy : Bool) (before : Nat) :
    Process :=
  match rows.find? fun row => row.id = id with
  | none => { process with stage := .registering }
  | some row =>
    if row.chaosKillRequestedAt.isSome then { process with exit := some (.flag id) }
    else { process with stage := .loaded id (process.target row busy) now before }

/-- `_on_chaos`. -/
def onChaos (payload : Uuid) (rest : List Uuid) : Process :=
  if process.workerId = some payload then { process with exit := some (.notification payload) }
  else { process with listener := some rest }

/-- The NOTIFY of a commit. -/
def notify (payload : Uuid) : Process :=
  { process with
    listener := process.listener.map (· ++ [payload])
    addressed := if process.listener.isSome && process.workerId = some payload then
      payload :: process.addressed else process.addressed }

end Process

namespace Fleet
variable (fleet : Fleet)

def running (pid : Pid) : Option Process :=
  (fleet.processes pid).filter fun process => process.exit.isNone

def set (pid : Pid) (process : Process) : Fleet :=
  { fleet with processes := Function.update fleet.processes pid (some process) }

def setRequest (rid : Rid) (request : Option Request) : Fleet :=
  { fleet with requests := Function.update fleet.requests rid request }

def hasRow (id : Uuid) : Bool := fleet.rows.any fun row => row.id = id

/-- The row is there and is to be killed. -/
def doomed (id : Uuid) : Bool :=
  fleet.rows.any fun row => row.id = id && row.chaosKillRequestedAt.isSome

def update (id : Uuid) (f : WorkerRow → WorkerRow) : Fleet :=
  { fleet with rows := fleet.rows.map (onId WorkerRow.id id f) }

def register (pid : Pid) (process : Process) (projectId : Uuid) (now : Time) : Fleet :=
  let id := fleet.nextUuid
  { fleet.set pid { process with stage := .refreshing id, own := id :: process.own } with
    nextUuid := id + 1
    rows := fleet.rows ++ [{
      id, projectId, hostname := process.hostname, status := .idle, lastHeartbeatAt := some now }] }

/-- The commit of a heartbeat; an UPDATE which finds no row raises. -/
def commitHeartbeat (pid : Pid) (process : Process) (id : Uuid) (status : Option WorkerStatus)
    (now : Time) (before : Nat) : Fleet :=
  if fleet.hasRow id then
    { (fleet.set pid { process with stage := .idle }).update id fun row =>
        { row with status := status.getD row.status, lastHeartbeatAt := some now } with
      late := if fleet.doomed id then Function.update fleet.late id (before :: fleet.late id)
        else fleet.late }
  else fleet.set pid { process with stage := .idle }

def commitLeave (pid : Pid) (process : Process) (leaving : Leaving) : Fleet :=
  (fleet.set pid { process with leaving := none }).update leaving.id fun row =>
    { row with
      status := leaving.status.getD row.status
      lastHeartbeatAt := leaving.lastHeartbeatAt.or row.lastHeartbeatAt }

/-- The row which `chaos_kill` chooses. -/
def chosen (settings : Settings) (now : Time) (projectId : Uuid) (pick : Nat) :
    Option Uuid → Option WorkerRow
  | some id => fleet.rows.find? fun row => row.id = id && row.live settings now projectId
  | none =>
    let candidates := fleet.rows.filter (WorkerRow.live settings now projectId)
    candidates[pick % candidates.length]?

/-- The end of `chaos_kill`; the NOTIFY goes out with the commit. -/
def commitKill (rid : Rid) (kill : Kill) (now : Time) : Fleet :=
  if fleet.hasRow kill.row.id then
    { (fleet.setRequest rid none).update kill.row.id fun row =>
        { row with chaosKillRequestedAt := some now } with
      kills := fleet.kills ++ [kill]
      processes := fun pid => (fleet.processes pid).map fun process =>
        if kill.mode = "signal" then process.notify kill.row.id else process }
  else fleet.setRequest rid none

end Fleet

/-- `ensure_role`. -/
def ensureRole (tables : Tables) (userId orgId : Uuid) (minimum : MemberRole) :
    Except ApiError OrganizationMember :=
  getOrgMembership tables.directory orgId userId >>= requireRole minimum

def step (settings : Settings) (fleet : Fleet) : Move → Option Fleet
  | .start pid hostname =>
    if (fleet.processes pid).isNone then some (fleet.set pid { hostname }) else none
  | .register pid projectId now => do
    let process ← fleet.running pid
    if process.stage = .registering then some (fleet.register pid process projectId now) else none
  | .refresh pid => do
    let process ← fleet.running pid
    match process.stage with
    | .refreshing id =>
      if fleet.hasRow id then
        some (fleet.set pid { process with workerId := some id, stage := .idle })
      else some (fleet.set pid process.raises)
    | _ => none
  | .listen pid => do
    let process ← fleet.running pid
    if process.listener.isNone && process.workerId.isSome then
      some (fleet.set pid { process with listener := some [] })
    else none
  | .lose pid => do
    let process ← fleet.running pid
    some (fleet.set pid { process with listener := none, addressed := [] })
  | .notified pid => do
    let process ← fleet.running pid
    match process.listener with
    | some (payload :: rest) => some (fleet.set pid (process.onChaos payload rest))
    | _ => none
  | .heartbeat pid now busy => do
    let process ← fleet.running pid
    match process.stage, process.workerId with
    | .idle, some id => some (fleet.set pid
        (process.heartbeatOnce fleet.rows id now busy fleet.kills.length))
    | _, _ => none
  | .commitHeartbeat pid => do
    let process ← fleet.running pid
    match process.stage with
    | .loaded id status now before =>
      some (fleet.commitHeartbeat pid process id status now before)
    | _ => none
  | .fail pid => do
    let process ← fleet.running pid
    if process.stage = .idle then none else some (fleet.set pid process.raises)
  | .shutdown pid => do
    let process ← fleet.running pid
    some (fleet.set pid { process with shuttingDown := true })
  | .leave pid retiredAt => do
    let process ← fleet.running pid
    match process.leaving, process.workerId with
    | none, some id => match fleet.rows.find? fun row => row.id = id with
      | some row =>
        if process.shuttingDown then
          some (fleet.set pid { process with leaving := some (row.leaving retiredAt) })
        else none
      | none => none
    | _, _ => none
  | .commitLeave pid => do
    let process ← fleet.running pid
    let leaving ← process.leaving
    some (fleet.commitLeave pid process leaving)
  | .crash pid => do
    let process ← fleet.running pid
    some (fleet.set pid { process with exit := some .other })
  | .sigkill pid => do
    let process ← fleet.running pid
    if fleet.pods.any fun kill => kill.row.hostname = process.hostname then
      some (fleet.set pid { process with exit := some .sigkill })
    else none
  | .commit tables => some { fleet with tables, past := tables :: fleet.past }
  | .markDead ids => some { fleet with
      rows := fleet.rows.map fun row => if row.id ∈ ids then { row with status := .dead } else row }
  | .prune ids => some { fleet with rows := fleet.rows.filter fun row => row.id ∉ ids }
  -- a request which is refused ends, and has changed nothing
  | .chaosKill rid userId projectId workerId =>
    if (fleet.requests rid).isNone && (getCurrentUser fleet.tables.directory userId).isOk &&
        settings.chaosEnabled then
      some (fleet.setRequest rid (some (.loading userId projectId workerId)))
    else none
  | .getProject rid => match fleet.requests rid with
    | some (.loading userId projectId workerId) =>
      let loaded := fleet.tables.projects.find? fun project => project.id = projectId
      some (fleet.setRequest rid (loaded.map fun project => .checking userId project workerId))
    | _ => none
  | .ensureRole rid => match fleet.requests rid with
    | some (.checking userId project workerId) => some (fleet.setRequest rid
        (if (ensureRole fleet.tables userId project.orgId .admin).isOk then
          some (.choosing userId project workerId) else none))
    | _ => none
  | .choose rid now pick => match fleet.requests rid with
    | some (.choosing userId project workerId) =>
      let picked := fleet.chosen settings now project.id pick workerId
      some (fleet.setRequest rid (picked.map fun row =>
        let kill : Kill := {
          userId, project, row, readAt := now, mode := settings.resolvedMode
          rows := fleet.rows, earlier := fleet.kills.length }
        if kill.mode = "kubernetes" then .deleting kill else .committing kill))
    | _ => none
  | .deletePod rid deleted answered => match fleet.requests rid with
    | some (.deleting kill) => some { fleet.setRequest rid (some (.committing
        (if answered then kill else { kill with mode := "signal" }))) with
      pods := if deleted then kill :: fleet.pods else fleet.pods }
    | _ => none
  | .commitKill rid now => match fleet.requests rid with
    | some (.committing kill) => some (fleet.commitKill rid kill now)
    | _ => none
  | .abort rid => some (fleet.setRequest rid none)

def chaos (settings : Settings) : Machine Fleet Move where
  init := fun fleet => fleet = {}
  step := step settings

end Pulse.Chaos
