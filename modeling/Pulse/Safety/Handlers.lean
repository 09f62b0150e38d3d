import Pulse.Engine.Handlers
import Pulse.System.Accounts

/-! The life of a job whose handler is `fail_n_times`: it fails on the attempts up to `fail_until` and on
no later one, whatever workers die meanwhile. -/
namespace Pulse
open Library.RowLock Library.Lts

/-- The task whose handler runs. -/
def Session.underWay : Session → Option Task
  | .handling task _ => some task
  | _ => none

/-- The handlers of the registered name do what `fail_n_times_handler` does. -/
def FailsNTimes (failUntil : String → Except (String × String) Int) (state : System) :
    Action → Prop
  | .next sid input => ∀ task ∈ (state.sessions sid).underWay, ∀ record ∈ state.db.jobs,
    record.job.id = task.jobId → record.job.handler = "fail_n_times" →
      input.outcome = failNTimesHandler (failUntil record.job.payload) task.attempt
  | _ => True

instance (failUntil : String → Except (String × String) Int) (state : System) :
    (action : Action) → Decidable (FailsNTimes failUntil state action)
  | .next sid input => inferInstanceAs (Decidable (∀ task ∈ (state.sessions sid).underWay,
    ∀ record ∈ state.db.jobs, record.job.id = task.jobId → record.job.handler = "fail_n_times" →
      input.outcome = failNTimesHandler (failUntil record.job.payload) task.attempt))
  | .begin .. | .fail .. | .submit .. | .exit .. | .reregister .. => isTrue trivial

/-- The outcome which a session is about to record of a job which is still its own. -/
def Session.Deliberate (failUntil : String → Except (String × String) Int) (record : JobRecord) :
    Session → Prop
  | .returned task _ _ outcome | .finishing task _ _ outcome =>
    record.job.lockToken = some task.written → record.job.handler = "fail_n_times" →
      outcome = failNTimesHandler (failUntil record.job.payload) task.attempt
  | _ => True

/-- A completed execution is of an attempt after `failUntil`, and a failed one of an attempt up to it
unless its worker was lost. -/
structure JobExecution.FailsUntil (execution : JobExecution) (failUntil : Int) : Prop where
  completed : execution.status = .completed → failUntil < execution.attemptNumber
  failed : execution.status = .failed → execution.errorType ≠ some WORKER_LOST_ERROR →
    execution.attemptNumber ≤ failUntil

/-- A job waits to be retried only after an attempt up to `failUntil`, and a dead letter which no lost
worker has left means that no later attempt was left. -/
structure JobRecord.FailsUntil (record : JobRecord) (failUntil : Int) : Prop where
  executions : ∀ execution ∈ record.executions, execution.FailsUntil failUntil
  retrying : record.job.status = .retrying → record.job.attempts ≤ failUntil
  letters : ∀ entry ∈ record.deadLetters, entry.finalError ≠ workerLostFinal →
    record.job.maxAttempts ≤ failUntil

/-- Every `fail_n_times` job of the database. -/
def Db.FailsUntil (failUntil : String → Except (String × String) Int) (db : Db) : Prop :=
  ∀ record ∈ db.jobs, record.job.handler = "fail_n_times" → ∀ bound,
    failUntil record.job.payload = .ok bound → record.FailsUntil bound

structure Handled (failUntil : String → Except (String × String) Int) (state : System) : Prop where
  jobs : state.db.FailsUntil failUntil
  sessions : ∀ sid, ∀ record ∈ state.db.jobs, (state.sessions sid).Deliberate failUntil record

section Records
variable {record after : JobRecord} {bound : Int}

/-- Writes to the columns of a job alone. -/
theorem JobRecord.FailsUntil.withJob (fails : record.FailsUntil bound)
    (executions : after.executions = record.executions)
    (letters : after.deadLetters.map DeadLetterEntry.finalError =
      record.deadLetters.map DeadLetterEntry.finalError)
    (maxAttempts : after.job.maxAttempts = record.job.maxAttempts)
    (retrying : after.job.status ≠ .retrying) : after.FailsUntil bound where
  executions := executions ▸ fails.executions
  retrying := fun status => absurd status retrying
  letters := by
    intro entry member own
    have listed : entry.finalError ∈ record.deadLetters.map DeadLetterEntry.finalError :=
      letters ▸ List.mem_map_of_mem member
    obtain ⟨old, present, same⟩ := List.mem_map.mp listed
    rw [maxAttempts]
    exact fails.letters old present (same ▸ own)

/-- The loss of a worker closes executions, but not as the handler's failures. -/
theorem JobRecord.FailsUntil.chargeLost (fails : record.FailsUntil bound) (now : Time)
    {execution : JobExecution} (member : execution ∈ (record.chargeLost now).executions) :
    execution.FailsUntil bound := by
  obtain ⟨row, present, rfl⟩ := List.mem_map.mp member
  split
  · exact ⟨by simp, by simp⟩
  · exact fails.executions row present

/-- The attempt under way is the one row with its id. -/
theorem JobRecord.Account.numbers (account : record.Account) (running : record.job.status = .running)
    (distinct : (record.executions.map JobExecution.id).Nodup) {earlier : List JobExecution}
    {last : JobExecution} (runs : record.runs = earlier ++ [last]) {row : JobExecution}
    (member : row ∈ record.executions) (same : row.id = last.id) :
    row.attemptNumber = record.job.attempts + 1 := by
  have lastly : last ∈ record.runs := by simp [runs]
  rw [List.inj_on_of_nodup_map distinct member (List.mem_of_mem_filter lastly) same]
  exact congrArg Prod.fst (account.under_way running runs).2

/-- What a write to the execution under way leaves. -/
theorem JobRecord.FailsUntil.onExecution (fails : record.FailsUntil bound) (account : record.Account)
    (running : record.job.status = .running)
    (distinct : (record.executions.map JobExecution.id).Nodup) {earlier : List JobExecution}
    {last : JobExecution} (runs : record.runs = earlier ++ [last]) {f : JobExecution → JobExecution}
    (written : ∀ row, row.attemptNumber = record.job.attempts + 1 → (f row).FailsUntil bound)
    {execution : JobExecution} (member : execution ∈ (record.onExecution last.id f).executions) :
    execution.FailsUntil bound := by
  obtain ⟨row, present, rfl⟩ := List.mem_map.mp member
  unfold onId
  split
  · rename_i same
    exact written row (account.numbers running distinct runs present same)
  · exact fails.executions row present

end Records

section Moves
variable {state : System} {session : Session} {record after : JobRecord}
  {failUntil : String → Except (String × String) Int} {bound : Int}

/-- No transition changes what is executed. -/
theorem Move.handler (move : Move state session record after) :
    after.job.handler = record.job.handler ∧ after.job.payload = record.job.payload := by
  cases move with
  | detach =>
    unfold JobRecord.detach
    split <;> exact ⟨rfl, rfl⟩
  | @write _ write => cases write.change <;> exact ⟨rfl, rfl⟩
  | _ => exact ⟨rfl, rfl⟩

theorem failNTimes_success {attempt : Nat}
    (outcome : Outcome.success = failNTimesHandler (.ok bound) attempt) : bound < attempt := by
  unfold failNTimesHandler at outcome
  dsimp only at outcome
  split at outcome
  · cases outcome
  · rename_i later
    exact not_le.mp later

theorem failNTimes_failure {attempt : Nat} {errorType errorMessage : String}
    (outcome : Outcome.failure errorType errorMessage = failNTimesHandler (.ok bound) attempt) :
    attempt ≤ bound := by
  unfold failNTimesHandler at outcome
  dsimp only at outcome
  split at outcome
  · assumption
  · cases outcome

theorem Move.failsUntil (move : Move state session record after)
    (sound : record.Sound state.nextUuid) (account : record.Account) (carries : session.Carries)
    (knows : ∀ token ∈ session.tokens, record.job.lockToken = some token → session.Knows record)
    (deliberate : session.Deliberate failUntil record)
    (handler : record.job.handler = "fail_n_times")
    (payload : failUntil record.job.payload = .ok bound) (fails : record.FailsUntil bound) :
    after.FailsUntil bound := by
  cases move with
  | keep => exact fails
  | detach =>
    unfold JobRecord.detach
    split
    · exact ⟨fails.executions, fails.retrying, fails.letters⟩
    · exact fails
  | claim | requeueClaimed | cancel =>
    exact fails.withJob rfl rfl rfl (by simp [JobRecord.claim, JobRecord.requeue, JobRecord.cancel])
  | unassign => exact ⟨fails.executions, fails.retrying, fails.letters⟩
  | start =>
    refine ⟨fun execution member => ?_, by simp [JobRecord.start], fails.letters⟩
    rcases List.mem_append.mp member with old | new
    · exact fails.executions execution old
    · rw [List.mem_singleton.mp new]
      exact ⟨by simp, by simp⟩
  | complete _ token =>
    obtain ⟨running, _, attempt, earlier, last, runs, rfl⟩ := Session.knows_own rfl token carries knows
    have outcome := deliberate (token.trans carries) handler
    rw [payload, attempt] at outcome
    refine ⟨fun execution member => ?_, by simp [JobRecord.complete], fails.letters⟩
    refine fails.onExecution account running sound.executions runs (fun row number => ?_) member
    exact ⟨fun _ => number ▸ failNTimes_success outcome, by simp⟩
  | backoff _ token =>
    obtain ⟨running, _, attempt, earlier, last, runs, rfl⟩ := Session.knows_own rfl token carries knows
    have outcome := deliberate (token.trans carries) handler
    rw [payload] at outcome
    have early := failNTimes_failure outcome
    refine ⟨fun execution member => ?_, fun _ => early, fails.letters⟩
    refine fails.onExecution account running sound.executions runs (fun row number => ?_) member
    exact ⟨by simp, fun _ _ => number ▸ attempt ▸ early⟩
  | bury _ token _ spent =>
    obtain ⟨running, _, attempt, earlier, last, runs, rfl⟩ := Session.knows_own rfl token carries knows
    have outcome := deliberate (token.trans carries) handler
    rw [payload] at outcome
    have early := failNTimes_failure outcome
    refine ⟨fun execution member => ?_, by simp [JobRecord.moveToDlq], fun entry member own => ?_⟩
    · refine fails.onExecution account running sound.executions runs (fun row number => ?_) member
      exact ⟨by simp, fun _ _ => number ▸ attempt ▸ early⟩
    · exact le_trans (Int.ofNat_le.mpr spent) early
  | requeueLost =>
    exact ⟨fun _ => fails.chargeLost _, by simp [JobRecord.requeue], fails.letters⟩
  | buryLost =>
    refine ⟨fun _ => fails.chargeLost _, by simp [JobRecord.moveToDlq], fun entry member own => ?_⟩
    rcases List.mem_append.mp member with old | new
    · exact fails.letters entry old own
    · rw [List.mem_singleton.mp new] at own
      exact absurd rfl own
  | @write _ write =>
    cases write.change <;> exact fails.withJob rfl rfl rfl (by simp [Change.write, JobRecord.promote,
      JobRecord.release, JobRecord.cancel])
  | retry | replay =>
    refine fails.withJob rfl ?_ rfl (by simp [JobRecord.reset])
    simp only [JobRecord.reset, JobRecord.consume, List.map_map]
    refine List.map_congr_left fun entry _ => ?_
    dsimp only [Function.comp_apply]
    split <;> rfl

end Moves

section Runs
variable {env : Environment} {state after : System} {sid : Sid} {next : Session} {patch : Patch}
  {failUntil : String → Except (String × String) Int}

/-- Only the return of a handler brings an outcome. -/
theorem Advance.deliberate {session : Session} {locks : List Lock} {record : JobRecord}
    (advance : Advance env state session next locks)
    (other : ∀ task executionId, session ≠ .handling task executionId)
    (before : session.Deliberate failUntil record) : next.Deliberate failUntil record := by
  cases advance with
  | handled => exact absurd rfl (other _ _)
  | passSecond => exact before
  | select =>
    unfold handingOver
    split <;> trivial
  | _ => trivial

/-- What a session is about to record stays right while others commit. -/
theorem Move.deliberate {session other : Session} {record moved : JobRecord}
    (move : Move state session record moved) (sound : record.Sound state.nextUuid)
    (carries : session.Carries) (foreign : ∀ token ∈ other.tokens, token ∉ session.tokens)
    (before : other.Deliberate failUntil record) : other.Deliberate failUntil moved := by
  obtain ⟨handler, payload⟩ := move.handler
  cases other with
  | returned | finishing =>
    intro token named
    have held := (move.carried sound carries token (foreign _ List.mem_cons_self)).1
    rw [payload]
    exact before held (handler ▸ named)
  | _ => trivial

theorem Handled.commit (handled : Handled failUntil state) (fenced : Fenced state)
    (accounted : Accounted state) (commits : Commits state sid next patch) :
    Handled failUntil (state.commit sid next patch) := by
  refine ⟨?_, ?_⟩
  · intro record member handler bound payload
    rcases commits.origin member with ⟨old, present, _, _, move⟩ | ⟨job, inserted, rfl⟩
    · obtain ⟨same, text⟩ := move.handler
      rw [same] at handler
      rw [text] at payload
      exact move.failsUntil (fenced.base.sound old present) (accounted old present).1
        (fenced.carries sid) (fenced.knows sid old present) (handled.sessions sid old present)
        handler payload (handled.jobs old present handler bound payload)
    · refine ⟨(by simp), fun status => ?_, (by simp)⟩
      rcases (commits.inserted job inserted).1.status with queued | scheduled
      · cases queued.symm.trans status
      · cases scheduled.symm.trans status
  · refine System.update_sessions (fun _ session => ∀ record ∈ (state.db.apply patch).jobs,
      session.Deliberate failUntil record) ?_ ?_
    · intro record _
      have leaves := commits.leaves
      generalize state.sessions sid = session at leaves
      cases leaves <;> trivial
    · intro other different record member
      rcases commits.origin member with ⟨old, present, _, _, move⟩ | ⟨job, inserted, rfl⟩
      · refine move.deliberate (fenced.base.sound old present) (fenced.carries sid) ?_
          (handled.sessions other old present)
        intro token held own
        exact different (fenced.separate other sid token held own)
      · have free := commits.inserted_free inserted
        cases state.sessions other with
        | returned task | finishing task => exact fun token => absurd token (free task.written)
        | _ => trivial

theorem Handled.update (handled : Handled failUntil state)
    (own : ∀ record ∈ state.db.jobs, next.Deliberate failUntil record) :
    ∀ other, ∀ record ∈ state.db.jobs,
      (Function.update state.sessions sid next other).Deliberate failUntil record :=
  System.update_sessions (fun _ session => ∀ record ∈ state.db.jobs,
    session.Deliberate failUntil record) own fun other _ => handled.sessions other

theorem Handled.rollback (handled : Handled failUntil state) (sid : Sid) :
    Handled failUntil (state.rollback sid) :=
  ⟨handled.jobs, handled.update fun _ _ => trivial⟩

theorem Handled.performs (handled : Handled failUntil state) (fenced : Fenced state)
    (accounted : Accounted state)
    (other : ∀ task executionId, state.sessions sid ≠ .handling task executionId)
    (performs : Performs env state sid after) : Handled failUntil after := by
  cases performs with
  | hold advance =>
    exact ⟨handled.jobs, handled.update fun record member =>
      advance.deliberate other (handled.sessions sid record member)⟩
  | commit commits => exact handled.commit fenced accounted commits
  | rollback => exact handled.rollback sid

theorem Handled.step (handled : Handled failUntil state) (fenced : Fenced state)
    (accounted : Accounted state) {action : Action} (fails : FailsNTimes failUntil state action)
    (taken : Pulse.step env state action = some after) : Handled failUntil after := by
  cases step_cases fenced.base (fenced.guards action) taken with
  | begin idle performs => exact handled.performs fenced accounted (by simp [idle]) performs
  | @next sid input _ _ performs =>
    cases handling : state.sessions sid with
    | handling task executionId =>
      obtain ⟨effect, made, performed⟩ := next_effect taken
      rw [handling] at made
      cases Option.some.inj made
      obtain ⟨_, rfl⟩ := System.perform_hold performed
      refine ⟨handled.jobs, handled.update fun record member token named => ?_⟩
      have known := fenced.knows sid record member task.written (by simp [handling, Session.tokens])
        token
      rw [handling] at known
      exact fails task (by simp [handling, Session.underWay]) record member known.2.1.symm named
    | _ => exact handled.performs fenced accounted (by simp [handling]) performs
  | fail => exact handled.rollback _
  | @submit sid newSid workerId task rest =>
    refine ⟨handled.jobs, ?_⟩
    refine System.handed_forall (fun _ session => ∀ record ∈ state.db.jobs,
      session.Deliberate failUntil record) (fun _ _ => trivial) ?_ fun other _ =>
        handled.sessions other
    intro record _
    unfold handingOver
    split <;> trivial
  | exit | reregister => exact ⟨handled.jobs, handled.sessions⟩

/-- Every life of a `fail_n_times` job, whatever workers are lost meanwhile, where every claim hands
over its own tokens: its handler fails on attempts up to `fail_until` alone and succeeds on a later
one alone; so the job completes only after that many attempts and only if one is left, and with such
an attempt left, only lost workers can bring it to the dead letters. -/
theorem fail_n_times_lives
    (reachable : (pulse env).Reachable (fun state action =>
      HandsOwn env state action ∧ FailsNTimes failUntil state action) state) :
    ∀ record ∈ state.db.jobs, record.job.handler = "fail_n_times" → ∀ bound : Int,
      failUntil record.job.payload = .ok bound → record.FailsUntil bound ∧
        (record.job.status = .completed →
          bound ≤ record.job.attempts ∧ bound < record.job.maxAttempts) ∧
        (bound < record.job.maxAttempts →
          ∀ entry ∈ record.deadLetters, entry.finalError = workerLostFinal) := by
  have all : Fenced state ∧ Accounted state ∧ Handled failUntil state := by
    refine @Machine.Reachable.invariant _ _ (pulse env) _
      (fun state => Fenced state ∧ Accounted state ∧ Handled failUntil state) ?_ ?_ state reachable
    · rintro _ rfl
      refine ⟨initial_fenced, ?_, ?_, ?_⟩
      · intro record member
        cases member
      · intro record member
        cases member
      · intro sid record member
        cases member
    · rintro earlier action next ⟨fenced, accounted, handled⟩ ⟨hands, fails⟩ taken
      exact ⟨fenced.step hands taken, accounted.step fenced taken,
        handled.step fenced accounted fails taken⟩
  obtain ⟨_, accounted, handled⟩ := all
  intro record member handler bound payload
  have fails := handled.jobs record member handler bound payload
  refine ⟨fails, fun completed => ?_, fun left entry listed => ?_⟩
  · obtain ⟨account, _⟩ := accounted record member
    have below := account.bounded (by simp [completed])
    -- the ledger ends with the attempt which completed
    have entries : (record.job.attempts + 1, ExecutionStatus.completed) ∈
        record.runs.map JobExecution.entry := by
      rw [account.ledger]
      simp [JobRecord.uncharged, completed]
    obtain ⟨execution, run, same⟩ := List.mem_map.mp entries
    have later := (fails.executions execution (List.mem_of_mem_filter run)).completed
      (congrArg Prod.snd same)
    have number : execution.attemptNumber = record.job.attempts + 1 := congrArg Prod.fst same
    rw [number] at later
    constructor <;> lia
  · by_contra own
    have spent := fails.letters entry listed own
    exact absurd left (not_lt.mpr spent)

end Runs

/-- A job which is to fail once fails, is retried by a tick and completes. -/
def failedOnce : List Action := [
  .begin 0 (.api 0 (.createQueue { projectId := 0, name := "default" })),
  .begin 0 (.api 0 .registerWorker),
  .begin 0 (.api 90 .registerWorker),
  .begin 0 (.api 0 (.createJob { queueId := 1, type := .immediate, handler := "fail_n_times" })),
  .begin 1 (.claimJobs 1 2 1 0),
  .next 1 { picked := [8] },
  .next 1 {},
  .next 1 {},
  .submit 1 10,
  .next 10 {},
  .next 10 {},
  .next 10 { outcome := .failure "RuntimeError" (deliberateFailure 1 1) },
  .next 10 {},
  .next 10 {},
  .begin 4 (.tick 50),
  .next 4 {},
  .next 4 {},
  .next 4 { jobId := 8 },
  .next 4 {},
  .next 4 {},
  .next 4 {},
  .begin 3 (.claimJobs 1 4 1 50),
  .next 3 { picked := [8] },
  .next 3 {},
  .next 3 {},
  .submit 3 11,
  .next 11 {},
  .next 11 {},
  .next 11 {},
  .next 11 {},
  .next 11 {}]

theorem fail_n_times_lives_failedOnce : ∃ state,
    (pulse (sample .returning)).Reachable (fun state action =>
      HandsOwn (sample .returning) state action ∧ FailsNTimes (fun _ => .ok 1) state action) state ∧
    ∃ record ∈ state.db.jobs, record.job.status = .completed ∧ record.executions.length = 2 ∧
      record.FailsUntil 1 ∧
      (record.job.status = .completed →
        (1 : Int) ≤ record.job.attempts ∧ (1 : Int) < record.job.maxAttempts) := by
  have ran : ((pulse (sample .returning)).run (fun state action =>
      HandsOwn (sample .returning) state action ∧ FailsNTimes (fun _ => .ok 1) state action) {}
      failedOnce).any (fun state => state.db.jobs.any fun record =>
        record.job.handler = "fail_n_times" && (record.job.status = .completed &&
          record.executions.length = 2)) = true := by
    decide +kernel
  obtain ⟨state, reachable, passes⟩ := Machine.reachable_of_check rfl failedOnce ran
  obtain ⟨record, member, found⟩ := List.any_eq_true.mp passes
  simp only [Bool.and_eq_true, decide_eq_true_eq] at found
  obtain ⟨handler, completed, twice⟩ := found
  obtain ⟨fails, completes, _⟩ := fail_n_times_lives reachable record member handler 1 rfl
  exact ⟨state, reachable, record, member, completed, twice, fails, completes⟩

end Pulse
