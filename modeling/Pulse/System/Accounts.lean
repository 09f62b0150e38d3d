import Pulse.System.Fenced

/-! The account of one job: its counter, its status, its executions and its dead
letters tell the same story, kept by every commit of a fenced system. -/
namespace Pulse
open Library.RowLock Library.Lts

/-- What an execution row says about an attempt. -/
def JobExecution.entry (execution : JobExecution) : Nat × ExecutionStatus :=
  (execution.attemptNumber, execution.status)

/-- The entries of the attempts counted so far. -/
def charged (attempts : Nat) : List (Nat × ExecutionStatus) :=
  (List.range' 1 attempts).map fun number => (number, .failed)

theorem charged_succ (attempts : Nat) :
    charged (attempts + 1) = charged attempts ++ [(attempts + 1, .failed)] := by
  rw [charged, List.range'_1_concat, List.map_append, Nat.add_comm 1 attempts]
  rfl

namespace JobRecord

/-- The entry of an attempt which is not counted: the one that runs, or completed. -/
def uncharged (record : JobRecord) : List (Nat × ExecutionStatus) :=
  match record.job.status with
  | .running => [(record.job.attempts + 1, .running)]
  | .completed => [(record.job.attempts + 1, .completed)]
  | _ => []

/-- The executions of earlier lives. -/
def past (record : JobRecord) : List JobExecution :=
  record.executions.filter fun execution => execution.life ≠ record.resets

/-- The failed executions of one life. -/
def failures (record : JobRecord) (life : Nat) : Nat :=
  record.executions.countP fun execution => execution.life = life && execution.status = .failed

/-- The ledger of the current life, the bound on its counter, and the earlier lives. -/
structure Account (record : JobRecord) : Prop where
  ledger : record.runs.map JobExecution.entry = charged record.job.attempts ++ record.uncharged
  spent : record.job.status = .dead → record.job.attempts = record.job.maxAttempts
  bounded : record.job.status ≠ .dead → record.job.attempts < record.job.maxAttempts
  closed : ∀ execution ∈ record.past,
    execution.life < record.resets ∧ execution.status = .failed

section Changes
variable {record : JobRecord}

theorem Account.resets_le (account : record.Account) {execution : JobExecution}
    (member : execution ∈ record.executions) : execution.life ≤ record.resets := by
  by_cases current : execution.life = record.resets
  · exact current.le
  · have earlier : execution ∈ record.past := List.mem_filter.mpr ⟨member, by simpa using current⟩
    exact (account.closed execution earlier).1.le

/-- A job with no attempt under way has only failed executions in its current life. -/
theorem Account.all_failed (account : record.Account) (none : record.uncharged = [])
    {execution : JobExecution} (member : execution ∈ record.executions) :
    execution.status = .failed := by
  by_cases current : execution.life = record.resets
  · have run : execution ∈ record.runs := List.mem_filter.mpr ⟨member, by simpa using current⟩
    have listed : execution.entry ∈ record.runs.map JobExecution.entry := List.mem_map_of_mem run
    rw [account.ledger, none, List.append_nil] at listed
    obtain ⟨number, _, same⟩ := List.mem_map.mp listed
    exact (congrArg Prod.snd same).symm
  · have earlier : execution ∈ record.past := List.mem_filter.mpr ⟨member, by simpa using current⟩
    exact (account.closed execution earlier).2

/-- A write to the job's columns which leaves the counter as it is. -/
theorem Account.withJob (account : record.Account) {job : Job}
    (attempts : job.attempts = record.job.attempts)
    (limit : job.maxAttempts = record.job.maxAttempts)
    (dead : job.status = .dead ↔ record.job.status = .dead)
    (waiting : ({ record with job } : JobRecord).uncharged = record.uncharged) :
    ({ record with job } : JobRecord).Account where
  ledger := by
    rw [waiting, attempts]
    exact account.ledger
  spent := by simpa [attempts, limit, dead] using account.spent
  bounded := by simpa [attempts, limit, dead] using account.bounded
  closed := account.closed

/-- Each execution is written in a way which keeps the life it belongs to. -/
theorem runs_map {f : JobExecution → JobExecution} (keeps : ∀ row, (f row).life = row.life) :
    ({ record with executions := record.executions.map f } : JobRecord).runs =
      record.runs.map f := by
  simp [runs, List.filter_map, Function.comp_def, keeps]

theorem past_map {f : JobExecution → JobExecution} (keeps : ∀ row, (f row).life = row.life) :
    ({ record with executions := record.executions.map f } : JobRecord).past =
      record.past.map f := by
  simp [past, List.filter_map, Function.comp_def, keeps]

/-- While a job runs, its last execution is the attempt under way. -/
theorem Account.under_way (account : record.Account) (running : record.job.status = .running)
    {earlier : List JobExecution} {last : JobExecution} (runs : record.runs = earlier ++ [last]) :
    earlier.map JobExecution.entry = charged record.job.attempts ∧
      last.entry = (record.job.attempts + 1, .running) := by
  have ledger := account.ledger
  rw [runs, uncharged, running, List.map_append] at ledger
  obtain ⟨before, after⟩ := List.append_inj' ledger rfl
  exact ⟨before, List.singleton_inj.mp after⟩

/-- Closing the attempt under way touches no other execution. -/
theorem Account.close (account : record.Account) (running : record.job.status = .running)
    (distinct : (record.executions.map JobExecution.id).Nodup)
    {earlier : List JobExecution} {last : JobExecution} (runs : record.runs = earlier ++ [last])
    {f : JobExecution → JobExecution} (life : ∀ row, (f row).life = row.life)
    (number : ∀ row, (f row).attemptNumber = row.attemptNumber) :
    (record.onExecution last.id f).runs.map JobExecution.entry =
        charged record.job.attempts ++ [(record.job.attempts + 1, (f last).status)] ∧
      (record.onExecution last.id f).past = record.past := by
  have keeps : ∀ row, (onId JobExecution.id last.id f row).life = row.life := by
    intro row
    unfold onId
    split
    · exact life row
    · rfl
  have present : ∀ row ∈ record.runs, row ∈ record.executions :=
    fun row member => List.mem_of_mem_filter member
  have lastly : last ∈ record.runs := by simp [runs]
  have written : onId JobExecution.id last.id f last = f last := if_pos rfl
  -- Ids are unique, so the UPDATE by id reaches the last execution alone.
  have kept : ∀ row ∈ record.executions, row ≠ last → onId JobExecution.id last.id f row = row := by
    intro row member other
    refine if_neg fun same => other ?_
    exact List.inj_on_of_nodup_map distinct member (present last lastly) same
  obtain ⟨before, under_way⟩ := account.under_way running runs
  constructor
  · rw [onExecution, runs_map keeps, runs, List.map_append, List.map_append, List.map_map]
    have first : earlier.map (JobExecution.entry ∘ onId JobExecution.id last.id f) =
        earlier.map JobExecution.entry := by
      apply List.map_congr_left
      intro row member
      have apart : row ≠ last := by
        rintro rfl
        have listed : row.entry ∈ earlier.map JobExecution.entry := List.mem_map_of_mem member
        rw [before, under_way] at listed
        obtain ⟨_, _, same⟩ := List.mem_map.mp listed
        cases congrArg Prod.snd same
      have there : row ∈ record.runs := by simp [runs, member]
      rw [Function.comp_apply, kept row (present row there) apart]
    have second : (f last).entry = (record.job.attempts + 1, (f last).status) := by
      have same : last.attemptNumber = record.job.attempts + 1 := congrArg Prod.fst under_way
      rw [JobExecution.entry, number, same]
    rw [first, before, List.map_singleton, List.map_singleton, written, second]
  · rw [onExecution, past_map keeps]
    have same : record.past.map (onId JobExecution.id last.id f) = record.past.map id := by
      apply List.map_congr_left
      intro row member
      have apart : row ≠ last := by
        rintro rfl
        have now := (List.mem_filter.mp lastly).2
        have earlier := (List.mem_filter.mp member).2
        simp only [decide_eq_true_eq, ne_eq] at now earlier
        exact earlier now
      exact kept row (List.mem_of_mem_filter member) apart
    rw [same, List.map_id]

/-- A failing task closes its own attempt as failed. -/
theorem Account.failed (account : record.Account) (running : record.job.status = .running)
    (distinct : (record.executions.map JobExecution.id).Nodup)
    {earlier : List JobExecution} {last : JobExecution} (runs : record.runs = earlier ++ [last])
    (now : Time) (attempt : Nat) (durationMs : Int) (errorType errorMessage : String) :
    (record.chargeAttempt now last.id attempt durationMs errorType errorMessage).runs.map
        JobExecution.entry = charged (record.job.attempts + 1) ∧
      (record.chargeAttempt now last.id attempt durationMs errorType errorMessage).past =
        record.past := by
  rw [charged_succ]
  exact account.close running distinct runs
    (f := fun execution => { execution with
      status := .failed, errorType := some errorType, errorMessage := some errorMessage,
      finishedAt := some now, durationMs := some durationMs })
    (fun _ => rfl) fun _ => rfl

/-- The reaper's charge closes the attempt under way as failed. -/
theorem Account.lost (account : record.Account) (running : record.job.status = .running)
    (now : Time) :
    (record.chargeLost now).runs.map JobExecution.entry = charged (record.job.attempts + 1) ∧
      (record.chargeLost now).past = record.past := by
  generalize charge : (fun execution : JobExecution =>
    if execution.status = .running then
      { execution with
        status := .failed, finishedAt := some now, errorType := some WORKER_LOST_ERROR,
        errorMessage := some workerLostMessage }
    else execution) = f
  have life : ∀ row, (f row).life = row.life := by
    intro row
    rw [← charge]
    dsimp only
    split <;> rfl
  have entry : ∀ row, (f row).entry =
      (row.attemptNumber, if row.status = .running then .failed else row.status) := by
    intro row
    rw [← charge]
    dsimp only
    split <;> simp_all [JobExecution.entry]
  have written : record.chargeLost now =
      { record with
        job := { record.job with attempts := record.job.attempts + 1 }
        executions := record.executions.map f } := by
    rw [← charge]
    rfl
  rw [written]
  constructor
  · change ({ record with executions := record.executions.map f } : JobRecord).runs.map _ = _
    have factored : JobExecution.entry ∘ f =
        (fun pair => (pair.1, if pair.2 = .running then ExecutionStatus.failed else pair.2)) ∘
          JobExecution.entry := funext entry
    rw [runs_map life, List.map_map, factored, ← List.map_map, account.ledger, uncharged, running,
      List.map_append, charged_succ]
    simp [charged, Function.comp_def]
  · change ({ record with executions := record.executions.map f } : JobRecord).past = _
    rw [past_map life]
    have same : record.past.map f = record.past.map id := by
      apply List.map_congr_left
      intro row member
      have failed := (account.closed row member).2
      rw [← charge]
      simp [failed]
    rw [same, List.map_id]

/-- A commit which closes the attempt under way as failed and counts it. -/
theorem Account.charge (account : record.Account) {closed : JobRecord}
    (ledger : closed.runs.map JobExecution.entry = charged (record.job.attempts + 1))
    (past : closed.past = record.past) (resets : closed.resets = record.resets)
    (counted : closed.job.attempts = record.job.attempts + 1)
    (idle : closed.uncharged = [])
    (spent : closed.job.status = .dead → closed.job.attempts = closed.job.maxAttempts)
    (bounded : closed.job.status ≠ .dead → closed.job.attempts < closed.job.maxAttempts) :
    closed.Account where
  ledger := by rw [ledger, counted, idle, List.append_nil]
  spent := spent
  bounded := bounded
  closed := by
    rw [past, resets]
    exact account.closed

/-- A reset opens a new life, in which nothing has run. -/
theorem Account.reset (account : record.Account) (none : record.uncharged = [])
    (positive : 0 < record.job.maxAttempts) (now : Time) (chosen : List Uuid) :
    ((record.consume now chosen).reset now).Account where
  ledger := by
    have empty : ((record.consume now chosen).reset now).runs = [] := by
      apply List.filter_eq_nil_iff.mpr
      intro execution member
      have older := account.resets_le member
      have other : execution.life ≠ record.resets + 1 := by omega
      exact fun current => other (of_decide_eq_true current)
    rw [empty]
    rfl
  spent := by simp [JobRecord.reset]
  bounded := fun _ => positive
  closed := by
    intro execution member
    have listed : execution ∈ record.executions := List.mem_of_mem_filter member
    exact ⟨Nat.lt_succ_of_le (account.resets_le listed), account.all_failed none listed⟩

end Changes
end JobRecord

section Moves
variable {state : System} {session : Session} {record after : JobRecord}

/-- What the session of a task knows about the job whose token it still carries. -/
theorem Session.knows_own {task : Task} (tokens : session.tokens = [task.written])
    (token : record.job.lockToken = task.token) (own : task.token = some task.written)
    (knows : ∀ token ∈ session.tokens, record.job.lockToken = some token → session.Knows record) :
    session.Knows record :=
  knows task.written (by simp [tokens]) (token.trans own)

/-- Every commit keeps the account of its job. -/
theorem Move.account (move : Move state session record after)
    (sound : record.Sound state.nextUuid) (carries : session.Carries)
    (knows : ∀ token ∈ session.tokens, record.job.lockToken = some token → session.Knows record)
    (account : record.Account) : after.Account := by
  cases move with
  | keep => exact account
  | @detach _ id =>
    unfold JobRecord.detach
    split
    · exact account.withJob rfl rfl Iff.rfl rfl
    · exact account
  | claim _ _ queued =>
    exact account.withJob rfl rfl (by simp [queued]) (by simp [JobRecord.uncharged, queued])
  | @start task now record same token =>
    obtain ⟨claimed, _, attempt⟩ := Session.knows_own rfl token carries knows
    obtain ⟨last, runs, _, number, status⟩ :=
      record.runs_start now (state.draw task.jobId) task.attempt
    have alive : record.job.status ≠ .dead := by simp [claimed]
    refine ⟨?_, by simp [JobRecord.start], fun _ => account.bounded alive, ?_⟩
    · rw [runs, List.map_append, account.ledger]
      simp [JobRecord.uncharged, JobRecord.start, claimed, JobExecution.entry, number, status,
        attempt]
    · intro execution member
      obtain ⟨listed, earlier⟩ := List.mem_filter.mp member
      rcases List.mem_append.mp listed with old | new
      · exact account.closed execution (List.mem_filter.mpr ⟨old, earlier⟩)
      · rw [List.mem_singleton.mp new] at earlier
        simp [JobRecord.start] at earlier
  | @complete task executionId durationMs now record same token =>
    obtain ⟨running, _, _, earlier, last, runs, rfl⟩ := Session.knows_own rfl token carries knows
    have alive : record.job.status ≠ .dead := by simp [running]
    obtain ⟨ledger, past⟩ := account.close running sound.executions runs
      (f := fun execution => { execution with
        status := .completed, finishedAt := some now, durationMs := some durationMs })
      (fun _ => rfl) (fun _ => rfl)
    refine ⟨ledger, by simp [JobRecord.complete], fun _ => account.bounded alive, ?_⟩
    change ∀ execution ∈ (record.onExecution last.id _).past, _
    rw [past]
    exact account.closed
  | @backoff task executionId durationMs errorType errorMessage now retryPolicy uniform record same
      token _ more =>
    obtain ⟨running, _, attempt, earlier, last, runs, rfl⟩ :=
      Session.knows_own rfl token carries knows
    obtain ⟨ledger, past⟩ := account.failed running sound.executions runs now task.attempt
      durationMs errorType errorMessage
    exact account.charge ledger past rfl attempt rfl (by simp [JobRecord.backoff]) fun _ => more
  | @bury task executionId durationMs errorType errorMessage now record same token _ spent =>
    obtain ⟨running, _, attempt, earlier, last, runs, rfl⟩ :=
      Session.knows_own rfl token carries knows
    obtain ⟨ledger, past⟩ := account.failed running sound.executions runs now task.attempt
      durationMs errorType errorMessage
    have below := account.bounded (by simp [running])
    refine account.charge ledger past rfl attempt rfl (fun _ => ?_)
      (by simp [JobRecord.moveToDlq])
    change task.attempt = record.job.maxAttempts
    omega
  | requeueClaimed _ _ claimed =>
    exact account.withJob rfl rfl (by simp [claimed]) (by simp [JobRecord.uncharged, claimed])
  | requeueLost _ _ running more =>
    obtain ⟨ledger, past⟩ := account.lost running _
    exact account.charge ledger past rfl rfl rfl (by simp [JobRecord.requeue]) fun _ => more
  | buryLost _ _ running spent =>
    obtain ⟨ledger, past⟩ := account.lost running _
    have below := account.bounded (by simp [running])
    refine account.charge ledger past rfl rfl rfl (fun _ => ?_) (by simp [JobRecord.moveToDlq])
    change record.job.attempts + 1 = record.job.maxAttempts
    omega
  | unassign => exact account.withJob rfl rfl Iff.rfl rfl
  | @write tick write _ member same found parked =>
    rw [← found] at parked
    clear found
    cases write.change <;> refine account.withJob rfl rfl ?_ ?_ <;>
      cases status : record.job.status <;> simp_all [JobStatus.parked, JobRecord.uncharged]
  | cancel _ cancellable =>
    refine account.withJob rfl rfl ?_ ?_ <;>
      cases status : record.job.status <;> simp_all [JobStatus.cancellable, JobRecord.uncharged]
  | retry _ retryable =>
    refine account.reset ?_ sound.maxAttempts _ _
    cases status : record.job.status <;> simp_all [JobStatus.retryable, JobRecord.uncharged]
  | replay _ dead => exact account.reset (by simp [JobRecord.uncharged, dead]) sound.maxAttempts _ _

end Moves

/-! Dead letters. -/

namespace JobRecord

/-- Every life but the current one has ended in a dead letter, which is consumed; the
current one has one, still open, if the job is dead. -/
structure Deaths (record : JobRecord) : Prop where
  lives : record.deadLetters.map DeadLetterEntry.life =
    List.range (record.resets + if record.job.status = .dead then 1 else 0)
  opened : ∀ entry ∈ record.deadLetters, entry.replayedAt = none ↔ entry.life = record.resets
  totals : ∀ entry ∈ record.deadLetters, entry.totalAttempts = record.job.maxAttempts ∧
    record.failures entry.life = record.job.maxAttempts

section Deaths
variable {record after : JobRecord}

theorem failures_past (past : after.past = record.past) (resets : after.resets = record.resets)
    {life : Nat} (earlier : life ≠ record.resets) : after.failures life = record.failures life := by
  have counted : ∀ {other : JobRecord}, other.resets = record.resets → other.failures life =
      other.past.countP fun execution => execution.life = life && execution.status = .failed := by
    intro other same
    rw [failures, JobRecord.past, List.countP_filter]
    apply List.countP_congr
    intro execution _
    simp only [Bool.and_eq_true, decide_eq_true_eq, ne_eq, same]
    constructor
    · rintro ⟨rfl, failed⟩
      exact ⟨⟨rfl, failed⟩, earlier⟩
    · exact fun both => both.1
  rw [counted resets, counted rfl, past]

/-- The failed executions of the current life are those in its ledger. -/
theorem failures_current {attempts : Nat}
    (ledger : record.runs.map JobExecution.entry = charged attempts) :
    record.failures record.resets = attempts := by
  have counted : record.failures record.resets =
      (record.runs.map JobExecution.entry).countP fun pair => pair.2 = .failed := by
    rw [failures, runs, List.countP_map, List.countP_filter]
    apply List.countP_congr
    intro execution _
    rw [Bool.and_comm]
    exact Iff.rfl
  have whole : (charged attempts).countP (fun pair => pair.2 = .failed) =
      (charged attempts).length := by
    apply List.countP_eq_length.mpr
    intro pair member
    obtain ⟨number, _, rfl⟩ := List.mem_map.mp member
    rfl
  rw [counted, ledger, whole, charged, List.length_map, List.length_range']

theorem past_start (record : JobRecord) (now : Time) (executionId : Uuid) (attempt : Nat) :
    (record.start now executionId attempt).past = record.past := by
  change (record.executions ++ [_]).filter
    (fun execution : JobExecution => execution.life ≠ record.resets) = _
  rw [List.filter_append, List.filter_cons_of_neg (by simp), List.filter_nil, List.append_nil]
  rfl

theorem Deaths.life_le (deaths : record.Deaths) {entry : DeadLetterEntry}
    (member : entry ∈ record.deadLetters) : entry.life ≤ record.resets := by
  have listed : entry.life ∈ record.deadLetters.map DeadLetterEntry.life :=
    List.mem_map_of_mem member
  rw [deaths.lives, List.mem_range] at listed
  split at listed <;> omega

theorem Deaths.life_lt (deaths : record.Deaths) (alive : record.job.status ≠ .dead)
    {entry : DeadLetterEntry} (member : entry ∈ record.deadLetters) :
    entry.life < record.resets := by
  have listed : entry.life ∈ record.deadLetters.map DeadLetterEntry.life :=
    List.mem_map_of_mem member
  rwa [deaths.lives, if_neg alive, Nat.add_zero, List.mem_range] at listed

/-- A dead job has one open dead letter. -/
theorem Deaths.open_unique (deaths : record.Deaths) {first second : DeadLetterEntry}
    (left : first ∈ record.deadLetters) (right : second ∈ record.deadLetters)
    (open_left : first.replayedAt = none) (open_right : second.replayedAt = none) :
    first = second := by
  have distinct : (record.deadLetters.map DeadLetterEntry.life).Nodup := by
    rw [deaths.lives]
    exact List.nodup_range
  have same := ((deaths.opened first left).mp open_left).trans
    ((deaths.opened second right).mp open_right).symm
  exact List.inj_on_of_nodup_map distinct left right same

/-- A commit which writes no dead letter and closes no life. -/
theorem Deaths.frame (deaths : record.Deaths) (letters : after.deadLetters = record.deadLetters)
    (resets : after.resets = record.resets)
    (limit : after.job.maxAttempts = record.job.maxAttempts)
    (dead : after.job.status = .dead ↔ record.job.status = .dead)
    (failures : ∀ entry ∈ record.deadLetters,
      after.failures entry.life = record.failures entry.life) : after.Deaths where
  lives := by
    rw [letters, resets, deaths.lives]
    simp only [dead]
  opened := by
    rw [letters, resets]
    exact deaths.opened
  totals := by
    rw [letters, limit]
    intro entry member
    rw [failures entry member]
    exact deaths.totals entry member

/-- A commit of a job which lives on. -/
theorem Deaths.alive (deaths : record.Deaths) (letters : after.deadLetters = record.deadLetters)
    (resets : after.resets = record.resets)
    (limit : after.job.maxAttempts = record.job.maxAttempts)
    (before : record.job.status ≠ .dead) (now : after.job.status ≠ .dead)
    (past : after.past = record.past) : after.Deaths := by
  refine deaths.frame letters resets limit (by simp [before, now]) ?_
  intro entry member
  exact failures_past past resets (deaths.life_lt before member).ne

/-- The last attempt of a life ends in a dead letter. -/
theorem Deaths.bury (deaths : record.Deaths) (alive : record.job.status ≠ .dead)
    {closed : JobRecord} (past : closed.past = record.past)
    (ledger : closed.runs.map JobExecution.entry = charged closed.job.attempts)
    (letters : closed.deadLetters = record.deadLetters)
    (resets : closed.resets = record.resets)
    (limit : closed.job.maxAttempts = record.job.maxAttempts)
    (spent : closed.job.attempts = closed.job.maxAttempts)
    (now : Time) (entryId : Uuid) (finalError : String) :
    (closed.moveToDlq now entryId finalError).Deaths where
  lives := by
    simp only [moveToDlq, List.map_append, letters, deaths.lives, if_neg alive, resets, if_true,
      Nat.add_zero, List.range_succ, List.map_singleton]
  opened := by
    intro entry member
    change entry.replayedAt = none ↔ entry.life = closed.resets
    rcases List.mem_append.mp member with old | new
    · rw [letters] at old
      rw [resets]
      exact deaths.opened entry old
    · rw [List.mem_singleton.mp new]
      exact ⟨fun _ => rfl, fun _ => rfl⟩
  totals := by
    intro entry member
    change entry.totalAttempts = closed.job.maxAttempts ∧
      closed.failures entry.life = closed.job.maxAttempts
    rcases List.mem_append.mp member with old | new
    · rw [letters] at old
      have earlier := (deaths.life_lt alive old).ne
      rw [limit, failures_past past resets earlier]
      exact deaths.totals entry old
    · rw [List.mem_singleton.mp new]
      exact ⟨spent, (failures_current ledger).trans spent⟩

/-- A reset consumes the open dead letter. -/
theorem Deaths.reset (deaths : record.Deaths) (dead : record.job.status = .dead) {now : Time}
    {chosen : List Uuid}
    (consumed : ∀ entry ∈ record.deadLetters, entry.replayedAt = none → entry.id ∈ chosen) :
    ((record.consume now chosen).reset now).Deaths := by
  have life : ∀ entry : DeadLetterEntry,
      (if entry.id ∈ chosen then { entry with replayedAt := some now } else entry).life =
        entry.life := fun entry => by split <;> rfl
  refine ⟨?_, ?_, ?_⟩
  · change (record.deadLetters.map _).map DeadLetterEntry.life = List.range (record.resets + 1 + 0)
    have unchanged : (DeadLetterEntry.life ∘ fun entry : DeadLetterEntry =>
        if entry.id ∈ chosen then { entry with replayedAt := some now } else entry) =
        DeadLetterEntry.life := funext life
    rw [List.map_map, unchanged, deaths.lives, if_pos dead]
  · intro entry member
    obtain ⟨old, present, rfl⟩ := List.mem_map.mp member
    have older := deaths.life_le present
    change _ ↔ _ = record.resets + 1
    rw [life old]
    have spent : (if old.id ∈ chosen then { old with replayedAt := some now } else old).replayedAt
        ≠ none := by
      split
      · exact Option.some_ne_none now
      · rename_i unchosen
        exact fun opened => unchosen (consumed old present opened)
    exact ⟨fun opened => absurd opened spent, fun same => by omega⟩
  · intro entry member
    obtain ⟨old, present, rfl⟩ := List.mem_map.mp member
    rw [life old]
    have totals := deaths.totals old present
    exact ⟨by split <;> exact totals.1, totals.2⟩

end Deaths
end JobRecord

section Moves
variable {state : System} {session : Session} {record after : JobRecord}

/-- Every commit keeps the correspondence between a job and its dead letters. -/
theorem Move.deaths (move : Move state session record after)
    (sound : record.Sound state.nextUuid) (carries : session.Carries)
    (knows : ∀ token ∈ session.tokens, record.job.lockToken = some token → session.Knows record)
    (account : record.Account) (deaths : record.Deaths) : after.Deaths := by
  cases move with
  | keep => exact deaths
  | @detach _ id =>
    unfold JobRecord.detach
    split
    · exact deaths.frame rfl rfl rfl Iff.rfl fun _ _ => rfl
    · exact deaths
  | claim _ _ queued =>
    exact deaths.frame rfl rfl rfl (by simp [JobRecord.claim, queued]) fun _ _ => rfl
  | @start task now record same token =>
    obtain ⟨claimed, _, _⟩ := Session.knows_own rfl token carries knows
    exact deaths.alive rfl rfl rfl (by simp [claimed]) (by simp [JobRecord.start])
      (record.past_start ..)
  | @complete task executionId durationMs now record same token =>
    obtain ⟨running, _, _, earlier, last, runs, rfl⟩ := Session.knows_own rfl token carries knows
    obtain ⟨_, past⟩ := account.close running sound.executions runs
      (f := fun execution => { execution with
        status := .completed, finishedAt := some now, durationMs := some durationMs })
      (fun _ => rfl) (fun _ => rfl)
    exact deaths.alive rfl rfl rfl (by simp [running]) (by simp [JobRecord.complete]) past
  | @backoff task executionId durationMs errorType errorMessage now retryPolicy uniform record same
      token =>
    obtain ⟨running, _, _, earlier, last, runs, rfl⟩ := Session.knows_own rfl token carries knows
    obtain ⟨_, past⟩ := account.failed running sound.executions runs now task.attempt
      durationMs errorType errorMessage
    exact deaths.alive rfl rfl rfl (by simp [running]) (by simp [JobRecord.backoff]) past
  | @bury task executionId durationMs errorType errorMessage now record same token _ spent =>
    obtain ⟨running, _, attempt, earlier, last, runs, rfl⟩ :=
      Session.knows_own rfl token carries knows
    obtain ⟨ledger, past⟩ := account.failed running sound.executions runs now task.attempt
      durationMs errorType errorMessage
    have alive : record.job.status ≠ .dead := by simp [running]
    have below := account.bounded alive
    rw [← attempt] at ledger
    refine deaths.bury alive past ledger rfl rfl rfl ?_ _ _ _
    change task.attempt = record.job.maxAttempts
    omega
  | requeueClaimed _ _ claimed =>
    exact deaths.frame rfl rfl rfl (by simp [JobRecord.requeue, claimed]) fun _ _ => rfl
  | requeueLost _ _ running more =>
    obtain ⟨_, past⟩ := account.lost running _
    exact deaths.alive rfl rfl rfl (by simp [running]) (by simp [JobRecord.requeue]) past
  | buryLost _ _ running spent =>
    obtain ⟨ledger, past⟩ := account.lost running _
    have alive : record.job.status ≠ .dead := by simp [running]
    have below := account.bounded alive
    refine deaths.bury alive past ledger rfl rfl rfl ?_ _ _ _
    change record.job.attempts + 1 = record.job.maxAttempts
    omega
  | unassign => exact deaths.frame rfl rfl rfl Iff.rfl fun _ _ => rfl
  | @write tick write _ member same found parked =>
    rw [← found] at parked
    clear found
    cases write.change <;> refine deaths.frame rfl rfl rfl ?_ fun _ _ => rfl <;>
      cases status : record.job.status <;> simp_all [JobStatus.parked, Change.write,
        JobRecord.promote, JobRecord.release, JobRecord.cancel]
  | cancel _ cancellable =>
    refine deaths.frame rfl rfl rfl ?_ fun _ _ => rfl
    cases status : record.job.status <;> simp_all [JobStatus.cancellable, JobRecord.cancel]
  | retry _ retryable superseded =>
    have dead : record.job.status = .dead := by
      have live := sound.notFailed
      cases status : record.job.status <;> simp_all [JobStatus.retryable]
    exact deaths.reset dead superseded
  | @replay entryId jobId now record _ dead opened =>
    refine deaths.reset dead ?_
    intro entry member unread
    obtain ⟨chosen, present, rfl, waiting⟩ := opened
    rw [deaths.open_unique member present unread waiting]
    exact List.mem_singleton.mpr rfl

end Moves

/-! Along a run. -/

/-- Every job's account and dead letters are in order. -/
def Accounted (state : System) : Prop :=
  ∀ record ∈ state.db.jobs, record.Account ∧ record.Deaths

theorem Job.Fresh.accounted {job : Job} (fresh : job.Fresh) :
    ({ job } : JobRecord).Account ∧ ({ job } : JobRecord).Deaths := by
  have alive : job.status ≠ .dead := by rcases fresh.status with status | status <;> simp [status]
  refine ⟨⟨?_, fun dead => absurd dead alive, fun _ => ?_, fun _ member => nomatch member⟩,
    ⟨?_, fun _ member => (nomatch member), fun _ member => nomatch member⟩⟩
  · rcases fresh.status with status | status <;>
      simp [JobRecord.runs, JobRecord.uncharged, charged, status, fresh.attempts]
  · rw [fresh.attempts]
    exact fresh.maxAttempts
  · simp [alive]

section Runs
variable {env : Environment} {state after : System} {sid : Sid}

theorem Accounted.performs (accounted : Accounted state) (fenced : Fenced state)
    (performs : Performs env state sid after) : Accounted after := by
  cases performs with
  | hold => exact accounted
  | commit commits =>
    intro record member
    rcases commits.origin member with ⟨old, present, _, _, move⟩ | ⟨job, inserted, rfl⟩
    · have sound := fenced.base.sound old present
      have knows := fenced.knows sid old present
      obtain ⟨account, deaths⟩ := accounted old present
      exact ⟨move.account sound (fenced.carries sid) knows account,
        move.deaths sound (fenced.carries sid) knows account deaths⟩
    · exact (commits.inserted job inserted).1.accounted
  | rollback => exact accounted

theorem Accounted.step (accounted : Accounted state) (fenced : Fenced state) {action : Action}
    (taken : Pulse.step env state action = some after) : Accounted after := by
  cases step_cases fenced.base (fenced.guards action) taken with
  | begin _ performs | next _ performs => exact accounted.performs fenced performs
  | _ => exact accounted

theorem Accounted.reachable (returning : env.handover = .returning)
    {allowed : System → Action → Prop} (reachable : (pulse env).Reachable allowed state) :
    Accounted state := by
  have both : Fenced state ∧ Accounted state := by
    refine @Machine.Reachable.invariant _ _ (pulse env) allowed
      (fun state => Fenced state ∧ Accounted state) ?_ ?_ state reachable
    · rintro _ rfl
      exact ⟨initial_fenced, fun _ member => nomatch member⟩
    · rintro earlier action next ⟨fenced, accounted⟩ _ taken
      exact ⟨fenced.step (returning_hands returning earlier action) taken,
        accounted.step fenced taken⟩
  exact both.2

end Runs
end Pulse
