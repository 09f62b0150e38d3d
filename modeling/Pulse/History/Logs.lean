import Pulse.Tenants.Requests

/-! The rows of `job_logs`. `_execute` adds them in the transactions in which it starts and ends an
execution, and they go when their job is deleted. -/
namespace Pulse
open Library.Lts

inductive LogLevel where
  | debug | info | warn | error
deriving DecidableEq, Repr

structure JobLog where
  jobId : Uuid
  executionId : Uuid
  ts : Time
  level : LogLevel
  message : String
deriving DecidableEq, Repr

def runningMessage (handler : String) (attempt maxAttempts : Nat) : String :=
  "Running handler '" ++ handler ++ "' (attempt " ++ toString attempt ++ "/" ++
    toString maxAttempts ++ ")"

def completedMessage (durationMs : Int) : String :=
  "Completed successfully in " ++ toString durationMs ++ "ms"

def failedMessage (errorType errorMessage : String) (resultStatus : JobStatus) : String :=
  errorType ++ ": " ++ errorMessage ++ " (-> " ++ resultStatus.value ++ ")"

/-- The row which the second transaction adds for what came of the handler. -/
def endRow (jobId executionId : Uuid) (finishedAt : Time) (durationMs : Int)
    (resultStatus : JobStatus) : Outcome → JobLog
  | .success => ⟨jobId, executionId, finishedAt, .info, completedMessage durationMs⟩
  | .failure errorType errorMessage =>
    ⟨jobId, executionId, finishedAt, .error, failedMessage errorType errorMessage resultStatus⟩

/-- The rows which the commit of a session adds. -/
def Session.jobLogs (state : System) (input : Input) : Session → List JobLog
  | .starting task => (state.db.findJob task.jobId).toList.map fun record =>
      ⟨task.jobId, state.draw task.jobId, input.now, .info,
        runningMessage record.job.handler task.attempt record.job.maxAttempts⟩
  | .finishing task executionId durationMs outcome =>
    (state.db.findJob task.jobId).toList.map fun record =>
      let written := finishWrite state task executionId durationMs outcome input.now input.uniform record
      endRow task.jobId executionId input.now durationMs written.job.status outcome
  | _ => []

def Action.effect (env : Environment) (state : System) : Action → Option Effect
  | .begin sid request => request.effect env state sid
  | .next sid input => (state.sessions sid).effect env state sid input
  | .fail _ | .submit _ _ | .exit _ | .reregister _ _ => none

def Action.jobLogs (state : System) : Action → List JobLog
  | .next sid input => (state.sessions sid).jobLogs state input
  | .begin _ _ | .fail _ | .submit _ _ | .exit _ | .reregister _ _ => []

/-- The table after a step: `ON DELETE CASCADE` on both of its foreign keys. -/
def noteLogs (env : Environment) (state : System) (action : Action) (logs : List JobLog) :
    List JobLog :=
  match action.effect env state with
  | some (.commit _ _ patch) =>
    (logs ++ action.jobLogs state).filter fun log => log.jobId ∉ patch.deletedJobs
  | _ => logs

def logging (env : Environment) : Machine (System × List JobLog) Action :=
  (pulse env).recorded (fun logs => logs = []) (noteLogs env)

end Pulse
