import Pulse.Api.Queues
import Pulse.Library.Lts
import Pulse.Library.RowLock
import Mathlib.Logic.Function.Basic

/-! The database sessions of the API, the workers, the reaper and the scheduler
replicas, each stopped between two of its SQL statements. What a transaction has
written so far is kept in its session and published when it commits. -/
namespace Pulse
open Library.RowLock

abbrev Sid := Nat

/-- What a lock is taken on: a row, or one of the advisory lock keys. -/
inductive Key where
  | job (id : Uuid)
  | deadLetter (id : Uuid)
  | worker (id : Uuid)
  | queue (id : Uuid)
  | scheduledJob (id : Uuid)
  | queueClaims (queueId : Uuid)
  | schedulerLock
  | reaperLock
deriving DecidableEq, Repr

abbrev Lock := Key × Mode

/-- How `claim_jobs` gets the rows which it returns: the source selects them again
by id after its commit; a claim which returns what its UPDATE wrote is the other
reading of the claims about the rest of the engine. -/
inductive Handover where
  | reread
  | returning
deriving DecidableEq, Repr

/-- A row written by one claim statement. -/
structure ClaimedRow where
  jobId : Uuid
  token : Uuid
  attempts : Nat
deriving DecidableEq, Repr

/-- One `_execute` run. `token` is the `lock_token` of the `Job` object handed to
it, `written` is auxiliary: the token which its claim wrote. -/
structure Task where
  workerId : Uuid
  jobId : Uuid
  token : Option Uuid
  attempt : Nat
  written : Uuid
deriving DecidableEq, Repr

inductive Outcome where
  | success
  | failure (errorType errorMessage : String)
deriving DecidableEq, Repr

/-- A read-modify-write of a worker's own row; a heartbeat of a worker which is
shutting down leaves its status alone. -/
inductive WorkerUpdate where
  | heartbeat (busy : Option Bool)
  | drain
  | retire
deriving DecidableEq, Repr

/-- The reaper's transaction after its sweep: the workers it marked, the jobs it
recovers, the workers it deletes and the other jobs which the foreign key
unassigns from them. -/
structure Sweep where
  now : Time
  lost : List Uuid
  orphans : List Uuid
  removed : List Uuid := []
  unassigned : List Uuid := []
deriving DecidableEq, Repr

/-- A row which the statement in progress is still to visit; `recheck` when its
WHERE clause is evaluated again on the newest version of the row. -/
structure Target where
  jobId : Uuid
  change : Change
  recheck : Bool
deriving DecidableEq, Repr

/-- A row written by a tick. `found` is auxiliary: the status it had. -/
structure RowWrite where
  jobId : Uuid
  change : Change
  found : JobStatus
deriving DecidableEq, Repr

inductive TickStage where
  | locked
  | promoting (queues : List Uuid)
  | spawning
  | resolving
  | deciding (pending : List (Uuid × List Uuid))
  | committing
deriving DecidableEq, Repr

/-- One scheduler tick. `now` is the transaction's `now()`. -/
structure Tick where
  now : Time
  stage : TickStage := .locked
  rateLimited : List Uuid := []
  targets : List Target := []
  writes : List RowWrite := []
  spawned : List Job := []
  schedules : List ScheduleWrite := []
deriving DecidableEq, Repr

inductive Session where
  | idle
  | claimLocked (queueId workerId : Uuid) (limit : Nat) (now : Time)
  | claimWritten (queueId workerId : Uuid) (now : Time) (rows : List ClaimedRow)
  | claimCommitted (workerId : Uuid) (rows : List ClaimedRow)
  | handing (workerId : Uuid) (tasks : List Task)
  | execute (task : Task)
  | starting (task : Task)
  | handling (task : Task) (executionId : Uuid)
  | returned (task : Task) (executionId : Uuid) (durationMs : Int) (outcome : Outcome)
  | finishing (task : Task) (executionId : Uuid) (durationMs : Int) (outcome : Outcome)
  | workerLoaded (workerId : Uuid) (status : WorkerStatus) (update : WorkerUpdate)
  | reaperLocked
  | reaperStale (now : Time) (stale : List Uuid)
  | reaperRead (now : Time) (lost : List Uuid)
  | reaperMarked (now : Time) (lost : List Uuid)
  | reaperSwept (sweep : Sweep)
  | reaperPruned (sweep : Sweep)
  | tick (tick : Tick)
  | cancelling (jobId : Uuid)
  | retrying (jobId : Uuid)
  | superseded (jobId : Uuid) (entries : List Uuid)
  | replaying (entryId jobId : Uuid)
  | replayingJob (entryId jobId : Uuid)
deriving DecidableEq, Repr

/-- The worker whose process runs the session. -/
def Session.worker : Session → Option Uuid
  | .claimLocked _ workerId _ _ | .claimWritten _ workerId _ _ | .claimCommitted workerId _
  | .handing workerId _ | .workerLoaded workerId _ _ => some workerId
  | .execute task | .starting task | .handling task _ | .returned task _ _ _
  | .finishing task _ _ _ => some task.workerId
  | _ => none

/-- A statement of the session is outstanding, or an open transaction: an
exception may end it. Between two transactions only its own code runs. -/
def Session.fallible : Session → Bool
  | .idle | .handing _ _ | .handling _ _ => false
  | _ => true

/-- The system: the committed database, the granted locks and the sessions.
`currentId` is a worker process's `self.worker_id`, by the id it registered
first; `exited` are the ids of the processes which have ended. `nextUuid` is
above every id and token drawn so far. `passed` and `finished` are auxiliary: the
claims whose `_execute` has passed the first and the second guard. -/
structure System where
  db : Db := {}
  grants : List (Grant Key Sid) := []
  sessions : Sid → Session := fun _ => .idle
  currentId : Uuid → Uuid := id
  exited : List Uuid := []
  nextUuid : Uuid := 1
  passed : List Uuid := []
  finished : List Uuid := []

/-- The process which registered as `workerId` still runs. -/
def System.live (state : System) (workerId : Uuid) : Prop :=
  state.currentId workerId ∉ state.exited

instance (state : System) (workerId : Uuid) : Decidable (state.live workerId) :=
  inferInstanceAs (Decidable (_ ∉ _))

/-- What `gen_random_uuid()` returns in one statement for the row with that id. -/
def System.draw (state : System) (rowId : Uuid) : Uuid :=
  state.nextUuid + rowId

/-- A lock on the key in that mode would have to wait. -/
def System.waits (state : System) (sid : Sid) (lock : Lock) : Bool :=
  blocked state.grants sid lock.1 lock.2

/-- What one statement of a session does: it holds more locks and goes on, it ends
the transaction by a commit, or by a rollback. -/
inductive Effect where
  | hold (next : Session) (locks : List Lock)
  | commit (next : Session) (locks : List Lock) (patch : Patch)
  | rollback

/-- The claims whose first guard a session has just passed. -/
def Session.passes : Session → List Uuid
  | .starting task => [task.written]
  | _ => []

/-- The claims whose second guard a session has just passed. -/
def Session.finishes : Session → List Uuid
  | .finishing task _ _ _ => [task.written]
  | _ => []

namespace System
variable (state : System) (sid : Sid)

/-- The statement was granted its locks and keeps its transaction open. -/
def hold (next : Session) (locks : List Lock) : System :=
  { state with
    grants := acquire state.grants sid locks
    sessions := Function.update state.sessions sid next
    nextUuid := 2 * state.nextUuid
    passed := next.passes ++ state.passed
    finished := next.finishes ++ state.finished }

/-- The transaction publishes its writes and releases its locks. -/
def commit (next : Session) (patch : Patch) : System :=
  { state with
    db := state.db.apply patch
    grants := release state.grants sid
    sessions := Function.update state.sessions sid next
    nextUuid := 2 * state.nextUuid + patch.newJobs.length }

/-- The transaction leaves nothing behind. -/
def rollback : System :=
  { state with
    grants := release state.grants sid
    sessions := Function.update state.sessions sid .idle }

/-- Perform a statement; `none` while one of its locks has to wait. -/
def perform : Effect → Option System
  | .hold next locks =>
    if locks.any (state.waits sid) then none else some (state.hold sid next locks)
  | .commit next locks patch =>
    if locks.any (state.waits sid) then none else some (state.commit sid next patch)
  | .rollback => some (state.rollback sid)

section Fields
variable (next : Session) (locks : List Lock) (patch : Patch)

@[simp] theorem hold_db : (state.hold sid next locks).db = state.db := rfl

@[simp] theorem hold_nextUuid : (state.hold sid next locks).nextUuid = 2 * state.nextUuid := rfl

@[simp] theorem hold_sessions :
    (state.hold sid next locks).sessions = Function.update state.sessions sid next := rfl

@[simp] theorem commit_db : (state.commit sid next patch).db = state.db.apply patch := rfl

@[simp] theorem commit_nextUuid :
    (state.commit sid next patch).nextUuid = 2 * state.nextUuid + patch.newJobs.length := rfl

@[simp] theorem commit_sessions :
    (state.commit sid next patch).sessions = Function.update state.sessions sid next := rfl

@[simp] theorem rollback_db : (state.rollback sid).db = state.db := rfl

@[simp] theorem rollback_nextUuid : (state.rollback sid).nextUuid = state.nextUuid := rfl

@[simp] theorem rollback_sessions :
    (state.rollback sid).sessions = Function.update state.sessions sid .idle := rfl

end Fields

/-- What holds of every session still does where one of them is replaced. -/
theorem update_sessions (property : Sid → Session → Prop) {sessions : Sid → Session} {sid : Sid}
    {next : Session} (own : property sid next)
    (others : ∀ other, other ≠ sid → property other (sessions other)) :
    ∀ other, property other (Function.update sessions sid next other) :=
  (Function.forall_update_iff sessions property).mpr ⟨own, others⟩

theorem perform_hold {state : System} {sid : Sid} {next : Session} {locks : List Lock}
    {after : System} (taken : state.perform sid (.hold next locks) = some after) :
    locks.any (state.waits sid) = false ∧ after = state.hold sid next locks := by
  simp only [perform] at taken
  split at taken
  · cases taken
  · rename_i free
    exact ⟨by simpa using free, (Option.some.inj taken).symm⟩

theorem perform_commit {state : System} {sid : Sid} {next : Session} {locks : List Lock}
    {patch : Patch} {after : System}
    (taken : state.perform sid (.commit next locks patch) = some after) :
    locks.any (state.waits sid) = false ∧ after = state.commit sid next patch := by
  simp only [perform] at taken
  split at taken
  · cases taken
  · rename_i free
    exact ⟨by simpa using free, (Option.some.inj taken).symm⟩

end System

end Pulse
