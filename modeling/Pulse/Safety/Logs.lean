import Pulse.History.Logs
import Pulse.Safety.Handlers

/-! The logs of a job tell of its executions: one row of each start, and one of each end which the
worker has recorded itself. -/
namespace Pulse
open Library.RowLock Library.Lts

namespace JobExecution
variable (job : Job) (execution : JobExecution)

/-- What came of the handler, as the execution has it. -/
def outcome : Outcome :=
  if execution.status = .completed then .success
  else .failure (execution.errorType.getD "") (execution.errorMessage.getD "")

/-- What came of the job when an execution which failed was its attempt. -/
def resultStatus : JobStatus :=
  if execution.status = .completed then .completed
  else if job.maxAttempts ≤ execution.attemptNumber then .dead else .retrying

def startRow : JobLog :=
  ⟨job.id, execution.id, execution.startedAt, .info,
    runningMessage job.handler execution.attemptNumber job.maxAttempts⟩

/-- The rows which tell of an execution. A worker which was lost has recorded no duration. -/
def jobLogs : List JobLog :=
  execution.startRow job :: match execution.durationMs, execution.finishedAt with
    | some durationMs, some finishedAt => [endRow job.id execution.id finishedAt durationMs
        (execution.resultStatus job) execution.outcome]
    | _, _ => []

end JobExecution

/-- The row tells of that execution. -/
def JobLog.tells (jobId executionId : Uuid) (log : JobLog) : Bool :=
  log.jobId = jobId && log.executionId = executionId

/-- The execution whose handler a session runs, or whose end it has yet to record. -/
def Session.attempt : Session → Option (Task × Uuid)
  | .handling task executionId | .returned task executionId _ _
  | .finishing task executionId _ _ => some (task, executionId)
  | _ => none

/-- No end of the session's execution is recorded yet. -/
def Unended (db : Db) (task : Task) (executionId : Uuid) : Prop :=
  ∀ record ∈ db.jobs, record.job.id = task.jobId → ∃ execution ∈ record.executions,
    execution.id = executionId ∧ execution.attemptNumber = task.attempt ∧
      execution.durationMs = none

structure Logging (state : System) (logs : List JobLog) : Prop where
  told : ∀ record ∈ state.db.jobs, ∀ execution ∈ record.executions,
    logs.filter (JobLog.tells record.job.id execution.id) = execution.jobLogs record.job
  ended : ∀ record ∈ state.db.jobs, ∀ execution ∈ record.executions,
    execution.durationMs.isSome = true → execution.status ≠ .running
  rows : ∀ log ∈ logs, ∃ record ∈ state.db.jobs, record.job.id = log.jobId ∧
    ∃ execution ∈ record.executions, execution.id = log.executionId
  known : ∀ sid task executionId, (state.sessions sid).attempt = some (task, executionId) →
    executionId < state.nextUuid ∧ task.jobId < state.nextUuid
  unended : ∀ sid task executionId, (state.sessions sid).attempt = some (task, executionId) →
    Unended state.db task executionId
  apart : ∀ first second task other executionId,
    (state.sessions first).attempt = some (task, executionId) →
    (state.sessions second).attempt = some (other, executionId) →
    task.jobId = other.jobId → first = second

section Records
variable {state : System} {session : Session} {record after : JobRecord} {job later : Job}
  {logs lines : List JobLog}

/-- The rows depend on what no transition changes of a job. -/
theorem JobExecution.jobLogs_congr (execution : JobExecution) (id : later.id = job.id)
    (handler : later.handler = job.handler) (maxAttempts : later.maxAttempts = job.maxAttempts) :
    execution.jobLogs later = execution.jobLogs job := by
  simp only [jobLogs, startRow, resultStatus, id, handler, maxAttempts]

/-- What a transition which records no end does to an execution: the loss of its worker ends one
which is under way. -/
def Lost (execution found : JobExecution) : Prop :=
  found = execution ∨ execution.status = .running ∧ ∃ now, found = { execution with
    status := .failed, finishedAt := some now, errorType := some WORKER_LOST_ERROR,
    errorMessage := some workerLostMessage }

theorem Lost.jobLogs {execution found : JobExecution} (lost : Lost execution found) (job : Job)
    (ended : execution.durationMs.isSome = true → execution.status ≠ .running) :
    found.jobLogs job = execution.jobLogs job ∧
      (found.durationMs.isSome = true → found.status ≠ .running) ∧ found.id = execution.id ∧
      found.attemptNumber = execution.attemptNumber ∧ found.durationMs = execution.durationMs := by
  rcases lost with rfl | ⟨running, now, rfl⟩
  · exact ⟨rfl, ended, rfl, rfl, rfl⟩
  · have none : execution.durationMs = none := by
      by_contra some
      exact ended (Option.isSome_iff_ne_none.mpr some) running
    refine ⟨?_, fun _ => by simp, rfl, rfl, rfl⟩
    simp [JobExecution.jobLogs, JobExecution.startRow, none]

/-- The executions of a job under the commit of any session but one which starts or ends one. -/
theorem Move.executions (move : Move state session record after)
    (starts : ∀ task, session ≠ .starting task)
    (ends : ∀ task executionId durationMs outcome,
      session ≠ .finishing task executionId durationMs outcome) :
    ∃ f : JobExecution → JobExecution, after.executions = record.executions.map f ∧
      ∀ execution, Lost execution (f execution) := by
  have same : ∀ {found : JobRecord}, found.executions = record.executions →
      ∃ f : JobExecution → JobExecution, found.executions = record.executions.map f ∧
        ∀ execution, Lost execution (f execution) := by
    intro found kept
    exact ⟨id, by rw [kept, List.map_id], fun _ => .inl rfl⟩
  have lost : ∀ {found : JobRecord} (now : Time),
      found.executions = (record.chargeLost now).executions →
      ∃ f : JobExecution → JobExecution, found.executions = record.executions.map f ∧
        ∀ execution, Lost execution (f execution) := by
    intro found now charged
    refine ⟨_, charged, fun execution => ?_⟩
    split
    · rename_i running
      exact .inr ⟨running, now, rfl⟩
    · exact .inl rfl
  cases move with
  | start => exact absurd rfl (starts _)
  | complete | backoff | bury => exact absurd rfl (ends _ _ _ _)
  | requeueLost | buryLost => exact lost _ rfl
  | detach =>
    unfold JobRecord.detach
    split <;> exact same rfl
  | @write _ write => cases write.change <;> exact same rfl
  | keep | claim | requeueClaimed | unassign | cancel | retry | replay => exact same rfl

end Records

section Commits
variable {state : System} {sid : Sid} {next : Session} {patch : Patch} {logs : List JobLog}
  {task : Task} {executionId : Uuid}

theorem Leaves.attempt (leaves : Leaves state (state.sessions sid) next)
    (starts : ∀ task, state.sessions sid ≠ .starting task) : next.attempt = none := by
  generalize state.sessions sid = session at leaves starts
  cases leaves with
  | done | claimed => rfl
  | started => exact absurd rfl (starts _)

/-- What is said of the sessions with an execution holds of those which stay as they are. -/
theorem attempt_others (next : Session) (none : next.attempt = none) : ∀ other task executionId,
    (Function.update state.sessions sid next other).attempt = some (task, executionId) →
      other ≠ sid ∧ (state.sessions other).attempt = some (task, executionId) := by
  intro other task executionId busy
  by_cases same : other = sid
  · subst same
    rw [Function.update_self, none] at busy
    cases busy
  · rw [Function.update_of_ne same] at busy
    exact ⟨same, busy⟩

/-- A session leaves its execution, or has none. -/
theorem Logging.leave (logging : Logging state logs) {after : System} {later : List JobLog}
    (none : next.attempt = none)
    (sessions : after.sessions = Function.update state.sessions sid next)
    (grows : state.nextUuid ≤ after.nextUuid)
    (told : ∀ record ∈ after.db.jobs, ∀ execution ∈ record.executions,
      later.filter (JobLog.tells record.job.id execution.id) = execution.jobLogs record.job)
    (ended : ∀ record ∈ after.db.jobs, ∀ execution ∈ record.executions,
      execution.durationMs.isSome = true → execution.status ≠ .running)
    (rows : ∀ log ∈ later, ∃ record ∈ after.db.jobs, record.job.id = log.jobId ∧
      ∃ execution ∈ record.executions, execution.id = log.executionId)
    (unended : ∀ other task executionId, other ≠ sid →
      (state.sessions other).attempt = some (task, executionId) →
      Unended after.db task executionId) : Logging after later where
  told := told
  ended := ended
  rows := rows
  known := by
    intro other task executionId busy
    rw [sessions] at busy
    obtain ⟨_, before⟩ := attempt_others next none other task executionId busy
    obtain ⟨first, second⟩ := logging.known other task executionId before
    exact ⟨first.trans_le grows, second.trans_le grows⟩
  unended := by
    intro other task executionId busy
    rw [sessions] at busy
    obtain ⟨different, before⟩ := attempt_others next none other task executionId busy
    exact unended other task executionId different before
  apart := by
    intro first second task other executionId busy working same
    rw [sessions] at busy working
    obtain ⟨_, before⟩ := attempt_others next none first task executionId busy
    obtain ⟨_, earlier⟩ := attempt_others next none second other executionId working
    exact logging.apart first second task other executionId before earlier same

/-- The commit of a session which neither starts an execution nor records an end. -/
theorem Logging.silent (logging : Logging state logs) (commits : Commits state sid next patch)
    (starts : ∀ task, state.sessions sid ≠ .starting task)
    (ends : ∀ task executionId durationMs outcome,
      state.sessions sid ≠ .finishing task executionId durationMs outcome) :
    Logging (state.commit sid next patch)
      (logs.filter fun log => log.jobId ∉ patch.deletedJobs) := by
  have kept : ∀ record ∈ state.db.jobs, record.job.id ∉ patch.deletedJobs →
      ∃ f : JobExecution → JobExecution,
        (patch.job record).executions = record.executions.map f ∧
          ∀ execution, Lost execution (f execution) :=
    fun record member stays => (commits.moves record member stays).executions starts ends
  refine logging.leave (commits.leaves.attempt starts) rfl ?_ ?_ ?_ ?_ ?_
  · rw [System.commit_nextUuid]
    lia
  · intro record member execution listed
    rcases commits.origin member with ⟨old, present, stays, rfl, move⟩ | ⟨job, inserted, rfl⟩
    · obtain ⟨f, executions, lost⟩ := kept old present stays
      rw [executions] at listed
      obtain ⟨before, was, rfl⟩ := List.mem_map.mp listed
      obtain ⟨lines, _, id, _⟩ := (lost before).jobLogs old.job
        (logging.ended old present before was)
      obtain ⟨handler, _⟩ := move.handler
      rw [JobExecution.jobLogs_congr _ move.job_id handler move.maxAttempts, lines, id, move.job_id,
        ← logging.told old present before was, List.filter_filter]
      refine List.filter_congr fun log _ => ?_
      rw [Bool.and_eq_left_iff_imp]
      intro tells
      have here : log.jobId = old.job.id := of_decide_eq_true (Bool.and_eq_true_iff.mp tells).1
      exact decide_eq_true (here ▸ stays)
    · cases listed
  · intro record member execution listed
    rcases commits.origin member with ⟨old, present, stays, rfl, move⟩ | ⟨job, inserted, rfl⟩
    · obtain ⟨f, executions, lost⟩ := kept old present stays
      rw [executions] at listed
      obtain ⟨before, was, rfl⟩ := List.mem_map.mp listed
      exact ((lost before).jobLogs old.job (logging.ended old present before was)).2.1
    · cases listed
  · intro log member
    obtain ⟨listed, stays⟩ := List.mem_filter.mp member
    obtain ⟨old, present, same, execution, was, id⟩ := logging.rows log listed
    have stays : old.job.id ∉ patch.deletedJobs := same ▸ of_decide_eq_true stays
    obtain ⟨f, executions, lost⟩ := kept old present stays
    refine ⟨patch.job old, mem_apply_jobs.mpr (.inl ⟨old, present, stays, rfl⟩),
      (commits.moves old present stays).job_id.trans same, f execution, ?_, ?_⟩
    · rw [executions]
      exact List.mem_map_of_mem was
    · obtain ⟨_, _, number, _⟩ := (lost execution).jobLogs old.job
        (logging.ended old present execution was)
      exact number.trans id
  · intro other task executionId _ busy record member same
    rcases commits.origin member with ⟨old, present, stays, rfl, move⟩ | ⟨job, inserted, rfl⟩
    · obtain ⟨f, executions, lost⟩ := kept old present stays
      obtain ⟨before, was, id, number, open_⟩ := logging.unended other task executionId busy old
        present (move.job_id.symm.trans same)
      obtain ⟨_, _, id', number', open'⟩ := (lost before).jobLogs old.job
        (logging.ended old present before was)
      refine ⟨f before, ?_, id'.trans id, number'.trans number, open'.trans open_⟩
      rw [executions]
      exact List.mem_map_of_mem was
    · have fresh := (commits.inserted job inserted).2.1
      have below := (logging.known other task executionId busy).2
      rw [← same] at below
      exact absurd below (Nat.not_lt.mpr fresh)

/-- A commit which changes one job in place. -/
theorem mem_apply_onJob {jobId : Uuid} {f : JobRecord → JobRecord} {record : JobRecord} :
    record ∈ (state.db.apply { job := onJob jobId f }).jobs ↔
      ∃ old ∈ state.db.jobs, onJob jobId f old = record := by
  rw [mem_apply_jobs]
  simp

theorem tells_iff {jobId executionId : Uuid} {log : JobLog} :
    log.tells jobId executionId = true ↔ log.jobId = jobId ∧ log.executionId = executionId := by
  simp [JobLog.tells]

/-- A new row tells of one execution and of no other. -/
theorem filter_append_row (logs : List JobLog) (row : JobLog) (jobId executionId : Uuid) :
    (logs ++ [row]).filter (JobLog.tells jobId executionId) =
      logs.filter (JobLog.tells jobId executionId) ++
        if row.jobId = jobId ∧ row.executionId = executionId then [row] else [] := by
  rw [List.filter_append]
  congr 1
  by_cases tells : row.jobId = jobId ∧ row.executionId = executionId
  · rw [if_pos tells, List.filter_cons_of_pos (tells_iff.mpr tells), List.filter_nil]
  · rw [if_neg tells, List.filter_cons_of_neg fun told => tells (tells_iff.mp told), List.filter_nil]

/-- No row tells of an execution which no job has. -/
theorem Logging.untold (logging : Logging state logs)
    (absent : ∀ old ∈ state.db.jobs, ∀ execution ∈ old.executions, execution.id ≠ executionId)
    (jobId : Uuid) : logs.filter (JobLog.tells jobId executionId) = [] := by
  refine List.filter_eq_nil_iff.mpr fun log member told => ?_
  obtain ⟨_, id⟩ := tells_iff.mp told
  obtain ⟨other, inside, _, row, listed, number⟩ := logging.rows log member
  exact absent other inside row listed (number.trans id)

/-- A session which begins an execution is alone with it: its id is newly drawn. -/
theorem Logging.apart_start (logging : Logging state logs) (drawn : state.nextUuid ≤ executionId)
    {first second : Sid} {one two : Task} {id : Uuid}
    (busy : (Function.update state.sessions sid (.handling task executionId) first).attempt =
      some (one, id))
    (working : (Function.update state.sessions sid (.handling task executionId) second).attempt =
      some (two, id))
    (jobs : one.jobId = two.jobId) : first = second := by
  have before : ∀ other busy id, other ≠ sid →
      (Function.update state.sessions sid (.handling task executionId) other).attempt =
        some (busy, id) →
      (state.sessions other).attempt = some (busy, id) ∧ id ≠ executionId := by
    intro other busy id different working
    rw [Function.update_of_ne different] at working
    refine ⟨working, fun here => ?_⟩
    have lt := (logging.known other busy id working).1
    rw [here] at lt
    exact absurd lt (Nat.not_lt.mpr drawn)
  by_cases left : first = sid <;> by_cases right : second = sid
  · rw [left, right]
  · rw [left, Function.update_self] at busy
    cases busy
    exact absurd rfl (before second two _ right working).2
  · rw [right, Function.update_self] at working
    cases working
    exact absurd rfl (before first one _ left busy).2
  · exact logging.apart first second one two id (before first one _ left busy).1
      (before second two _ right working).1 jobs

theorem Logging.start (logging : Logging state logs) (base : Base state) {record : JobRecord}
    (present : record ∈ state.db.jobs) (same : record.job.id = task.jobId) (now : Time) :
    Logging (state.commit sid (.handling task (state.draw task.jobId)) {
      job := onJob task.jobId fun record =>
        record.start now (state.draw task.jobId) task.attempt })
      (logs ++ [⟨task.jobId, state.draw task.jobId, now, .info,
        runningMessage record.job.handler task.attempt record.job.maxAttempts⟩]) := by
  have below : task.jobId < state.nextUuid := same ▸ (base.sound record present).id_lt
  have drawn : state.nextUuid ≤ state.draw task.jobId := Nat.le_add_right _ _
  have unique : ∀ old ∈ state.db.jobs, old.job.id = task.jobId → old = record :=
    fun old member here => unique_record base.distinct member present (here.trans same.symm)
  have older : ∀ old ∈ state.db.jobs, ∀ execution ∈ old.executions,
      execution.id ≠ state.draw task.jobId := by
    intro old member execution listed here
    have lt := (base.sound old member).execution_lt execution listed
    rw [here] at lt
    exact absurd lt (Nat.not_lt.mpr drawn)
  refine ⟨?_, ?_, ?_, ?_, ?_, ?_⟩
  · intro after member execution listed
    obtain ⟨old, there, rfl⟩ := mem_apply_onJob.mp member
    rw [filter_append_row]
    by_cases here : old.job.id = task.jobId
    · rw [onJob_same here] at listed ⊢
      rcases List.mem_append.mp listed with before | new
      · rw [if_neg fun told => older old there execution before told.2.symm, List.append_nil]
        exact logging.told old there execution before
      · cases List.mem_singleton.mp new
        have none := logging.untold older old.job.id
        rw [if_pos ⟨here.symm, rfl⟩, unique old there here]
        rw [unique old there here] at none
        exact (congrArg (· ++ _) none).trans (by
          simp [JobExecution.jobLogs, JobExecution.startRow, JobRecord.start, same])
    · rw [onJob_other here] at listed ⊢
      rw [if_neg fun told => here told.1.symm, List.append_nil]
      exact logging.told old there execution listed
  · intro after member execution listed
    obtain ⟨old, there, rfl⟩ := mem_apply_onJob.mp member
    by_cases here : old.job.id = task.jobId
    · rw [onJob_same here] at listed
      rcases List.mem_append.mp listed with before | new
      · exact logging.ended old there execution before
      · cases List.mem_singleton.mp new
        exact fun ended => by cases ended
    · rw [onJob_other here] at listed
      exact logging.ended old there execution listed
  · intro log member
    rcases List.mem_append.mp member with old | new
    · obtain ⟨other, inside, id, row, listed, number⟩ := logging.rows log old
      refine ⟨_, mem_apply_onJob.mpr ⟨other, inside, rfl⟩, ?_⟩
      by_cases here : other.job.id = task.jobId
      · rw [onJob_same here]
        exact ⟨id, row, List.mem_append_left _ listed, number⟩
      · rw [onJob_other here]
        exact ⟨id, row, listed, number⟩
    · cases List.mem_singleton.mp new
      refine ⟨_, mem_apply_onJob.mpr ⟨record, present, rfl⟩, ?_⟩
      rw [onJob_same same]
      exact ⟨same, _, List.mem_append_right _ (List.mem_singleton_self _), rfl⟩
  · intro other busy executionId working
    rw [System.commit_nextUuid]
    by_cases here : other = sid
    · subst here
      rw [System.commit_sessions, Function.update_self] at working
      cases working
      have drawn : state.draw task.jobId = state.nextUuid + task.jobId := rfl
      constructor <;> lia
    · rw [System.commit_sessions, Function.update_of_ne here] at working
      obtain ⟨first, second⟩ := logging.known other busy executionId working
      constructor <;> lia
  · intro other busy executionId working after member id
    obtain ⟨old, there, rfl⟩ := mem_apply_onJob.mp member
    by_cases here : other = sid
    · subst here
      rw [System.commit_sessions, Function.update_self] at working
      cases working
      by_cases own : old.job.id = task.jobId
      · rw [onJob_same own]
        exact ⟨_, List.mem_append_right _ (List.mem_singleton_self _), rfl, rfl, rfl⟩
      · rw [onJob_other own] at id
        exact absurd id own
    · rw [System.commit_sessions, Function.update_of_ne here] at working
      by_cases own : old.job.id = task.jobId
      · rw [onJob_same own] at id ⊢
        obtain ⟨row, listed, reason⟩ := logging.unended other busy executionId working old there id
        exact ⟨row, List.mem_append_left _ listed, reason⟩
      · rw [onJob_other own] at id ⊢
        exact logging.unended other busy executionId working old there id
  · intro first second one two executionId busy working jobs
    exact logging.apart_start drawn busy working jobs

/-- What the second transaction writes to its execution. -/
def JobExecution.finish (now : Time) (durationMs : Int) (execution : JobExecution) :
    Outcome → JobExecution
  | .success => { execution with
      status := .completed, finishedAt := some now, durationMs := some durationMs }
  | .failure errorType errorMessage => { execution with
      status := .failed, errorType := some errorType, errorMessage := some errorMessage,
      finishedAt := some now, durationMs := some durationMs }

section Finish
variable {durationMs : Int} {outcome : Outcome} {now : Time} {uniform : ℚ} {record : JobRecord}

theorem finishWrite_executions :
    (finishWrite state task executionId durationMs outcome now uniform record).executions =
      record.executions.map (onId JobExecution.id executionId fun execution =>
        execution.finish now durationMs outcome) := by
  cases outcome with
  | success => rfl
  | failure =>
    simp only [finishWrite, JobRecord.applyFailure]
    split <;> rfl

theorem finishWrite_job :
    (finishWrite state task executionId durationMs outcome now uniform record).job.id =
        record.job.id ∧
      (finishWrite state task executionId durationMs outcome now uniform record).job.handler =
        record.job.handler ∧
      (finishWrite state task executionId durationMs outcome now uniform record).job.maxAttempts =
        record.job.maxAttempts := by
  cases outcome with
  | success => exact ⟨rfl, rfl, rfl⟩
  | failure =>
    simp only [finishWrite, JobRecord.applyFailure]
    split <;> exact ⟨rfl, rfl, rfl⟩

/-- What the second transaction makes of the job. -/
theorem finishWrite_status :
    (finishWrite state task executionId durationMs outcome now uniform record).job.status =
      if outcome = .success then .completed
      else if record.job.maxAttempts ≤ task.attempt then .dead else .retrying := by
  cases outcome with
  | success => rfl
  | failure errorType errorMessage =>
    have counted : (record.chargeAttempt now executionId task.attempt durationMs errorType
        errorMessage).job.attempts = task.attempt := rfl
    have limit : (record.chargeAttempt now executionId task.attempt durationMs errorType
        errorMessage).job.maxAttempts = record.job.maxAttempts := rfl
    rw [if_neg (by simp), finishWrite]
    simp only [JobRecord.applyFailure, counted, limit, ge_iff_le]
    split <;> rfl

/-- The execution whose end is recorded gets the row of that end. -/
theorem JobExecution.jobLogs_finish {execution : JobExecution} (open_ : execution.durationMs = none)
    (number : execution.attemptNumber = task.attempt) :
    (execution.finish now durationMs outcome).jobLogs record.job = execution.jobLogs record.job ++
      [endRow record.job.id execution.id now durationMs
        (finishWrite state task executionId durationMs outcome now uniform record).job.status
        outcome] := by
  rw [finishWrite_status]
  cases outcome with
  | success =>
    simp [jobLogs, startRow, JobExecution.finish, JobExecution.outcome, resultStatus, open_]
  | failure errorType errorMessage =>
    simp [jobLogs, startRow, JobExecution.finish, JobExecution.outcome, resultStatus, open_, number]

theorem Logging.finish (logging : Logging state logs) (base : Base state)
    (finishing : state.sessions sid = .finishing task executionId durationMs outcome)
    (present : record ∈ state.db.jobs) (same : record.job.id = task.jobId) :
    Logging (state.commit sid .idle {
      job := onJob task.jobId
        (finishWrite state task executionId durationMs outcome now uniform) })
      (logs ++ [endRow task.jobId executionId now durationMs
        (finishWrite state task executionId durationMs outcome now uniform record).job.status
        outcome]) := by
  have busy : (state.sessions sid).attempt = some (task, executionId) := by rw [finishing]; rfl
  obtain ⟨own, listed, rfl, number, open_⟩ := logging.unended sid task executionId busy record
    present same
  have unique : ∀ old ∈ state.db.jobs, old.job.id = task.jobId → old = record :=
    fun old member here => unique_record base.distinct member present (here.trans same.symm)
  have alone : ∀ execution ∈ record.executions, execution.id = own.id → execution = own :=
    fun execution member here =>
      List.inj_on_of_nodup_map (base.sound record present).executions member listed here
  have row : ∀ status, (endRow task.jobId own.id now durationMs status outcome).jobId =
      task.jobId ∧ (endRow task.jobId own.id now durationMs status outcome).executionId = own.id :=
    fun status => by cases outcome <;> exact ⟨rfl, rfl⟩
  refine logging.leave (show Session.idle.attempt = none from rfl) rfl ?_ ?_ ?_ ?_ ?_
  · rw [System.commit_nextUuid]
    lia
  · intro after member execution written
    obtain ⟨old, there, rfl⟩ := mem_apply_onJob.mp member
    rw [filter_append_row, (row _).1, (row _).2]
    by_cases here : old.job.id = task.jobId
    · cases unique old there here
      rw [onJob_same here] at written ⊢
      rw [finishWrite_executions] at written
      obtain ⟨before, was, rfl⟩ := List.mem_map.mp written
      rw [JobExecution.jobLogs_congr _ finishWrite_job.1 finishWrite_job.2.1 finishWrite_job.2.2,
        finishWrite_job.1]
      have told := logging.told record present before was
      by_cases ours : before.id = own.id
      · cases alone before was ours
        have same_id : (own.finish now durationMs outcome).id = own.id := by cases outcome <;> rfl
        rw [onId, if_pos rfl, same_id, if_pos ⟨here.symm, rfl⟩, told, ← here]
        exact (JobExecution.jobLogs_finish open_ number).symm
      · rw [onId, if_neg ours, if_neg fun row => ours row.2.symm, List.append_nil]
        exact told
    · rw [onJob_other here] at written ⊢
      rw [if_neg fun told => here told.1.symm, List.append_nil]
      exact logging.told old there execution written
  · intro after member execution written
    obtain ⟨old, there, rfl⟩ := mem_apply_onJob.mp member
    by_cases here : old.job.id = task.jobId
    · rw [onJob_same here, finishWrite_executions] at written
      obtain ⟨before, was, rfl⟩ := List.mem_map.mp written
      unfold onId
      split
      · intro _
        cases outcome <;> simp [JobExecution.finish]
      · exact logging.ended old there before was
    · rw [onJob_other here] at written
      exact logging.ended old there execution written
  · intro log member
    have kept : ∀ old ∈ state.db.jobs, ∀ execution ∈ old.executions, ∃ after ∈
        (state.db.apply {
          job := onJob task.jobId
            (finishWrite state task own.id durationMs outcome now uniform) }).jobs,
        after.job.id = old.job.id ∧ ∃ later ∈ after.executions, later.id = execution.id := by
      intro old there execution was
      refine ⟨_, mem_apply_onJob.mpr ⟨old, there, rfl⟩, ?_⟩
      by_cases here : old.job.id = task.jobId
      · rw [onJob_same here, finishWrite_executions]
        refine ⟨finishWrite_job.1, _, List.mem_map_of_mem was, ?_⟩
        unfold onId
        split
        · cases outcome <;> rfl
        · rfl
      · rw [onJob_other here]
        exact ⟨rfl, execution, was, rfl⟩
    rcases List.mem_append.mp member with old | new
    · obtain ⟨other, inside, id, execution, was, number⟩ := logging.rows log old
      obtain ⟨after, present, job, later, listed, this⟩ := kept other inside execution was
      exact ⟨after, present, job.trans id, later, listed, this.trans number⟩
    · cases List.mem_singleton.mp new
      obtain ⟨after, there, job, later, was, this⟩ := kept record present own listed
      exact ⟨after, there, (job.trans same).trans (row _).1.symm, later, was,
        this.trans (row _).2.symm⟩
  · intro other theirs executionId different working after member id
    obtain ⟨old, there, rfl⟩ := mem_apply_onJob.mp member
    by_cases here : old.job.id = task.jobId
    · rw [onJob_same here] at id ⊢
      rw [finishWrite_executions]
      have id : old.job.id = theirs.jobId := finishWrite_job.1.symm.trans id
      obtain ⟨execution, was, mine, reason⟩ := logging.unended other theirs executionId working
        old there id
      -- Two sessions of one job have executions of their own.
      have foreign : execution.id ≠ own.id := by
        intro shared
        have apart := logging.apart other sid theirs task own.id
          (by rw [working, ← mine, shared]) busy (id.symm.trans here)
        exact different apart
      exact ⟨execution, List.mem_map.mpr ⟨execution, was, if_neg foreign⟩, mine, reason⟩
    · rw [onJob_other here] at id ⊢
      exact logging.unended other theirs executionId working old there id

end Finish

end Commits

/-! Along a run. -/
section Runs
variable {env : Environment} {state after : System} {sid : Sid} {next : Session}
  {session : Session} {locks : List Lock} {patch : Patch} {logs : List JobLog}

theorem handingOver_attempt (workerId : Uuid) (tasks : List Task) :
    (handingOver workerId tasks).attempt = none := by
  unfold handingOver
  split <;> rfl

/-- A statement inside a transaction begins no execution. -/
theorem Advance.attempt (advance : Advance env state session next locks) :
    next.attempt = none ∨ next.attempt = session.attempt := by
  cases advance with
  | handled | passSecond => exact .inr rfl
  | select => exact .inl (handingOver_attempt _ _)
  | _ => exact .inl rfl

/-- A step which writes no job. -/
theorem Logging.frame (logging : Logging state logs) (jobs : after.db.jobs = state.db.jobs)
    (grows : state.nextUuid ≤ after.nextUuid)
    (attempts : ∀ sid, (after.sessions sid).attempt = none ∨
      (after.sessions sid).attempt = (state.sessions sid).attempt) : Logging after logs := by
  have before : ∀ sid task executionId, (after.sessions sid).attempt = some (task, executionId) →
      (state.sessions sid).attempt = some (task, executionId) := by
    intro sid task executionId busy
    rcases attempts sid with none | same
    · rw [none] at busy
      cases busy
    · exact same ▸ busy
  refine ⟨jobs ▸ logging.told, jobs ▸ logging.ended, jobs ▸ logging.rows, ?_, ?_, ?_⟩
  · intro sid task executionId busy
    obtain ⟨first, second⟩ := logging.known sid task executionId (before _ _ _ busy)
    exact ⟨first.trans_le grows, second.trans_le grows⟩
  · intro sid task executionId busy
    unfold Unended
    rw [jobs]
    exact logging.unended sid task executionId (before _ _ _ busy)
  · intro first second task other executionId busy working
    exact logging.apart first second task other executionId (before _ _ _ busy)
      (before _ _ _ working)

theorem Logging.hold (logging : Logging state logs)
    (advance : Advance env state (state.sessions sid) next locks) :
    Logging (state.hold sid next locks) logs := by
  refine logging.frame rfl ?_ fun other => ?_
  · rw [System.hold_nextUuid]
    lia
  · rw [System.hold_sessions]
    by_cases same : other = sid
    · subst same
      rw [Function.update_self]
      exact advance.attempt
    · rw [Function.update_of_ne same]
      exact .inr rfl

theorem Logging.rollback (logging : Logging state logs) : Logging (state.rollback sid) logs := by
  refine logging.frame rfl le_rfl fun other => ?_
  rw [System.rollback_sessions]
  by_cases same : other = sid
  · subst same
    rw [Function.update_self]
    exact .inl rfl
  · rw [Function.update_of_ne same]
    exact .inr rfl

/-- The row of a job whose session has it locked. -/
theorem findJob_locked (base : Base state) {jobId : Uuid}
    (locked : jobId ∈ (state.sessions sid).rows) :
    ∃ record ∈ state.db.jobs, record.job.id = jobId ∧ state.db.findJob jobId = some record := by
  obtain ⟨record, present, same, _⟩ := base.expects sid jobId locked
  cases found : state.db.findJob jobId with
  | none => exact absurd same (Db.findJob_none found record present)
  | some other =>
    obtain ⟨member, id⟩ := Db.findJob_some found
    exact ⟨other, member, id, rfl⟩

/-- A commit which deletes no job adds its rows. -/
theorem filter_undeleted (logs : List JobLog) (none : patch.deletedJobs = []) :
    (logs.filter fun log => log.jobId ∉ patch.deletedJobs) = logs := by
  refine List.filter_eq_self.mpr fun log _ => ?_
  simp [none]

/-- The commit of a session, whichever it is. -/
theorem Logging.commit (logging : Logging state logs) (base : Base state) {input : Input}
    (made : (state.sessions sid).effect env state sid input = some (.commit next locks patch)) :
    Logging (state.commit sid next patch)
      ((logs ++ (state.sessions sid).jobLogs state input).filter
        fun log => log.jobId ∉ patch.deletedJobs) := by
  have commits := Session.effect_commits base made
  have silent : (state.sessions sid).jobLogs state input = [] →
      (∀ task, state.sessions sid ≠ .starting task) →
      (∀ task executionId durationMs outcome,
        state.sessions sid ≠ .finishing task executionId durationMs outcome) →
      Logging (state.commit sid next patch)
        ((logs ++ (state.sessions sid).jobLogs state input).filter
          fun log => log.jobId ∉ patch.deletedJobs) := by
    intro none starts ends
    rw [none, List.append_nil]
    exact logging.silent commits starts ends
  cases running : state.sessions sid with
  | starting task =>
    have locked : task.jobId ∈ (state.sessions sid).rows := by simp [running, Session.rows]
    obtain ⟨record, present, same, found⟩ := findJob_locked base locked
    rw [running] at made
    simp only [Session.effect, startEffect] at made
    split at made
    · cases made
    · cases made
      rw [filter_undeleted _ rfl, Session.jobLogs, found]
      exact logging.start base present same input.now
  | finishing task executionId durationMs outcome =>
    have locked : task.jobId ∈ (state.sessions sid).rows := by simp [running, Session.rows]
    obtain ⟨record, present, same, found⟩ := findJob_locked base locked
    rw [running] at made
    cases made
    rw [filter_undeleted _ rfl, Session.jobLogs, found]
    exact logging.finish base running present same
  | _ =>
    rw [running] at silent
    exact silent rfl (by simp) (by simp)

theorem Logging.step (logging : Logging state logs) (base : Base state) {action : Action}
    (guards : GuardsToken state action) (taken : Pulse.step env state action = some after) :
    Logging after (noteLogs env state action logs) := by
  cases step_inverted taken with
  | @begin sid request effect after idle made performed =>
    cases effect with
    | hold next locks =>
      obtain ⟨_, rfl⟩ := System.perform_hold performed
      rw [noteLogs, Action.effect, made]
      have advance : Advance env state (state.sessions sid) next locks := by
        rw [idle]
        exact Request.effect_advance made
      exact logging.hold advance
    | commit next locks patch =>
      obtain ⟨free, rfl⟩ := System.perform_commit performed
      rw [noteLogs, Action.effect, made, Action.jobLogs, List.append_nil]
      exact logging.silent (Request.effect_commits base idle made free)
        (by simp [idle]) (by simp [idle])
    | rollback =>
      cases Option.some.inj performed
      rw [noteLogs, Action.effect, made]
      exact logging.rollback
  | @next sid input effect after running made performed =>
    cases effect with
    | hold next locks =>
      obtain ⟨_, rfl⟩ := System.perform_hold performed
      rw [noteLogs, Action.effect, made]
      exact logging.hold (Session.effect_advance base.distinct made)
    | commit next locks patch =>
      obtain ⟨_, rfl⟩ := System.perform_commit performed
      rw [noteLogs, Action.effect, made]
      exact logging.commit base made
    | rollback =>
      cases Option.some.inj performed
      rw [noteLogs, Action.effect, made]
      exact logging.rollback
  | fail => exact logging.rollback
  | submit =>
    refine logging.frame rfl le_rfl ?_
    exact System.handed_forall (fun other session => session.attempt = none ∨
      session.attempt = (state.sessions other).attempt) (.inl rfl)
      (.inl (handingOver_attempt _ _)) fun _ _ => .inr rfl
  | exit => exact logging.frame rfl le_rfl fun _ => .inr rfl
  | reregister =>
    refine logging.frame rfl ?_ fun _ => .inr rfl
    show state.nextUuid ≤ 2 * state.nextUuid
    lia

end Runs

/-- In every run the rows which tell of an execution are one of its start and, where the worker
has recorded its end, one of that end, in this order; and every row is of such an execution. -/
theorem job_logs_exact {env : Environment} {pair : System × List JobLog}
    (reachable : (logging env).Reachable (fun pair => GuardsToken pair.1) pair) :
    (∀ record ∈ pair.1.db.jobs, ∀ execution ∈ record.executions,
      pair.2.filter (JobLog.tells record.job.id execution.id) = execution.jobLogs record.job) ∧
    ∀ log ∈ pair.2, ∃ record ∈ pair.1.db.jobs, record.job.id = log.jobId ∧
      ∃ execution ∈ record.executions, execution.id = log.executionId := by
  have both : Base pair.1 ∧ Logging pair.1 pair.2 := by
    refine @Machine.Reachable.invariant _ _ (logging env) (fun pair => GuardsToken pair.1)
      (fun pair => Base pair.1 ∧ Logging pair.1 pair.2) ?_ ?_ pair reachable
    · rintro ⟨_, _⟩ ⟨rfl, rfl⟩
      refine ⟨initial_base, by simp, by simp, by simp, ?_, ?_, ?_⟩ <;>
        simp [Session.attempt]
    · rintro ⟨state, logs⟩ action ⟨after, later⟩ ⟨base, logging⟩ guards taken
      obtain ⟨stepped, noted⟩ := Machine.recorded_step taken
      cases noted
      exact ⟨base.step guards stepped, logging.step base guards stepped⟩
  exact ⟨both.2.told, both.2.rows⟩

/-- A job fails once and completes: two rows tell of each of its executions. -/
theorem job_logs_exact_failedOnce : ∃ pair : System × List JobLog,
    (logging (sample .returning)).Reachable (fun pair => GuardsToken pair.1) pair ∧
    pair.2.map JobLog.level = [.info, .error, .info, .info] ∧
    ∃ record ∈ pair.1.db.jobs, record.executions.length = 2 ∧
      ∀ execution ∈ record.executions,
        pair.2.filter (JobLog.tells record.job.id execution.id) = execution.jobLogs record.job := by
  have ran : ((logging (sample .returning)).run (fun pair => GuardsToken pair.1) ({}, [])
      failedOnce).any (fun pair => pair.2.map JobLog.level = [.info, .error, .info, .info] &&
        pair.1.db.jobs.any fun record => record.executions.length = 2) = true := by
    decide +kernel
  obtain ⟨pair, reachable, passes⟩ := Machine.reachable_of_check (by exact ⟨rfl, rfl⟩) failedOnce ran
  obtain ⟨levels, passes⟩ := Bool.and_eq_true_iff.mp passes
  obtain ⟨record, member, twice⟩ := List.any_eq_true.mp passes
  exact ⟨pair, reachable, of_decide_eq_true levels, record, member, of_decide_eq_true twice,
    (job_logs_exact reachable).1 record member⟩

end Pulse
