import Pulse.System.Accounts

/-! Attempt accounting: in every reachable state a job's counter, its status and the
executions of its current life agree. -/
namespace Pulse
open Library.RowLock Library.Lts

namespace JobRecord

/-- The executions of the current life are numbered from 1; the failed ones are those
which `attempts` counts, and at most one more runs or has completed. In no life have
more than `max_attempts` been started. -/
structure AttemptsCounted (record : JobRecord) : Prop where
  numbered : record.runs.map JobExecution.attemptNumber = List.range' 1 record.runs.length
  failed : (record.runs.filter fun execution => execution.status = .failed).length =
    record.job.attempts
  running : (record.runs.filter fun execution => execution.status = .running).map
    JobExecution.attemptNumber =
      if record.job.status = .running then [record.job.attempts + 1] else []
  completed : (record.runs.filter fun execution => execution.status = .completed).length =
    if record.job.status = .completed then 1 else 0
  bounded : record.job.status ≠ .dead → record.job.attempts < record.job.maxAttempts
  spent : record.job.status = .dead → record.job.attempts = record.job.maxAttempts
  started : ∀ life, (record.executions.filter fun execution => execution.life = life).length ≤
    record.job.maxAttempts

section Account
variable {record : JobRecord}

/-- What the ledger says about the executions with one status. -/
theorem Account.with_status (account : record.Account) (status : ExecutionStatus) :
    (record.runs.filter fun execution => execution.status = status).map JobExecution.entry =
      (charged record.job.attempts ++ record.uncharged).filter fun pair => pair.2 = status := by
  rw [← account.ledger, List.filter_map]
  rfl

theorem charged_filter (attempts : Nat) (status : ExecutionStatus) :
    (charged attempts).filter (fun pair => pair.2 = status) =
      if status = .failed then charged attempts else [] := by
  split
  · rename_i failed
    apply List.filter_eq_self.mpr
    intro pair member
    obtain ⟨number, _, rfl⟩ := List.mem_map.mp member
    simp [failed]
  · rename_i other
    apply List.filter_eq_nil_iff.mpr
    intro pair member
    obtain ⟨number, _, rfl⟩ := List.mem_map.mp member
    simpa using fun same => other same.symm

theorem Account.runs_length (account : record.Account) :
    record.runs.length = record.job.attempts + record.uncharged.length := by
  have lengths := congrArg List.length account.ledger
  simpa [charged] using lengths

theorem uncharged_length : record.uncharged.length ≤ 1 := by
  unfold uncharged
  split <;> simp

theorem Account.numbered (account : record.Account) :
    record.runs.map JobExecution.attemptNumber = List.range' 1 record.runs.length := by
  have numbers := congrArg (List.map Prod.fst) account.ledger
  rw [List.map_map, List.map_append, charged, List.map_map] at numbers
  have ledger : record.runs.map JobExecution.attemptNumber =
      List.range' 1 record.job.attempts ++ record.uncharged.map Prod.fst := by
    simpa [Function.comp_def, JobExecution.entry] using numbers
  rw [ledger, account.runs_length]
  unfold uncharged
  split <;> simp [List.range'_1_concat, Nat.add_comm]

/-- The current life has started one attempt beyond those counted, at most. -/
theorem Account.started (account : record.Account) :
    record.runs.length ≤ record.job.maxAttempts := by
  rw [account.runs_length]
  by_cases dead : record.job.status = .dead
  · have spent := account.spent dead
    simp [uncharged, dead, spent]
  · have bounded := account.bounded dead
    have single : record.uncharged.length ≤ 1 := uncharged_length
    omega

/-- No life has started more attempts than the job may have. -/
theorem Account.life_bounded (account : record.Account) (deaths : record.Deaths) (life : Nat) :
    (record.executions.filter fun execution => execution.life = life).length ≤
      record.job.maxAttempts := by
  rcases Nat.lt_trichotomy life record.resets with earlier | rfl | later
  · have closed : life ∈ record.deadLetters.map DeadLetterEntry.life := by
      rw [deaths.lives, List.mem_range]
      omega
    obtain ⟨entry, member, rfl⟩ := List.mem_map.mp closed
    have all_failed : record.executions.filter (fun execution => execution.life = entry.life) =
        record.executions.filter fun execution =>
          execution.life = entry.life && execution.status = .failed := by
      apply List.filter_congr
      intro execution listed
      by_cases same : execution.life = entry.life
      · have past : execution ∈ record.past :=
          List.mem_filter.mpr ⟨listed, by simpa [same] using earlier.ne⟩
        simp [same, (account.closed execution past).2]
      · simp [same]
    rw [all_failed, ← List.countP_eq_length_filter]
    exact (deaths.totals entry member).2.le
  · exact account.started
  · have none : record.executions.filter (fun execution => execution.life = life) = [] := by
      apply List.filter_eq_nil_iff.mpr
      intro execution member
      have older := account.resets_le member
      have apart : execution.life ≠ life := by omega
      simpa using apart
    simp [none]

theorem Account.counted (account : record.Account) (deaths : record.Deaths) :
    record.AttemptsCounted where
  numbered := account.numbered
  failed := by
    have entries := congrArg List.length (account.with_status .failed)
    rw [List.filter_append, charged_filter, if_pos rfl, List.length_map, List.length_append]
      at entries
    rw [entries]
    unfold uncharged
    split <;> simp [charged]
  running := by
    have entries := congrArg (List.map Prod.fst) (account.with_status .running)
    rw [List.filter_append, charged_filter, if_neg (by decide), List.map_map] at entries
    refine Eq.trans entries ?_
    unfold uncharged
    split <;> simp_all
  completed := by
    have entries := congrArg List.length (account.with_status .completed)
    rw [List.filter_append, charged_filter, if_neg (by decide), List.length_map] at entries
    rw [entries]
    unfold uncharged
    split <;> simp_all
  bounded := account.bounded
  spent := account.spent
  started := account.life_bounded deaths

end Account
end JobRecord

/-- In every reachable state every job's attempts are accounted for, whatever crashes. -/
theorem attempts_counted {env : Environment} {state : System}
    (returning : env.handover = .returning) (reachable : (pulse env).Reachable anyStep state) :
    ∀ record ∈ state.db.jobs, record.AttemptsCounted := by
  intro record member
  obtain ⟨account, deaths⟩ := Accounted.reachable returning reachable record member
  exact account.counted deaths

/-- The task of the run fails once, is retried by a tick and starts its second attempt. -/
def attemptedTwice : List Action := executedOnce.dropLast ++ [
  .next 10 { outcome := .failure "RuntimeError" "boom" },
  .next 10 {},
  .next 10 {},
  .begin 4 (.tick 50),
  .next 4 {},
  .next 4 {},
  .next 4 { jobId := 8 },
  .next 4 {},
  .next 4 {},
  .next 4 {},
  .begin 3 (.claimJobs 1 4 1 50),
  .next 3 { picked := [8] },
  .next 3 {},
  .next 3 {},
  .submit 3 11,
  .next 11 {},
  .next 11 {}]

theorem attempts_counted_twice : ∃ state, (pulse (sample .returning)).Reachable anyStep state ∧
    ∃ record ∈ state.db.jobs, record.job.status = .running ∧ record.job.attempts = 1 ∧
      record.AttemptsCounted := by
  have ran : ((pulse (sample .returning)).run anyStep {} attemptedTwice).any (fun state =>
      state.db.jobs.any fun record =>
        record.job.status = .running && record.job.attempts = 1) = true := by
    decide +kernel
  obtain ⟨state, reachable, passes⟩ := Machine.reachable_of_check rfl attemptedTwice ran
  obtain ⟨record, member, found⟩ := List.any_eq_true.mp passes
  simp only [Bool.and_eq_true, decide_eq_true_eq] at found
  exact ⟨state, reachable, record, member, found.1, found.2,
    attempts_counted rfl reachable record member⟩

end Pulse
