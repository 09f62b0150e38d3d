import Pulse.System.Accounts

/-! Dead letters: a job is dead exactly while one of its dead letters is open, and a
consumed dead letter is never opened again. -/
namespace Pulse
open Library.RowLock Library.Lts

namespace JobRecord

/-- The dead letters of a job: one is open if it is dead and none otherwise, each counts
the attempts of the life it closed, and one was consumed for each reset of the job. -/
structure LettersExact (record : JobRecord) : Prop where
  opened : record.openLetters.length = if record.job.status = .dead then 1 else 0
  totals : ∀ entry ∈ record.deadLetters, entry.totalAttempts = record.job.maxAttempts ∧
    entry.totalAttempts = record.failures entry.life
  consumed : (record.deadLetters.filter fun entry => entry.replayedAt ≠ none).length =
    record.resets

variable {record : JobRecord}

/-- The open dead letters are those of the current life. -/
theorem Deaths.open_lives (deaths : record.Deaths) :
    record.openLetters.map DeadLetterEntry.life =
      if record.job.status = .dead then [record.resets] else [] := by
  have current : record.openLetters =
      record.deadLetters.filter fun entry => entry.life = record.resets := by
    apply List.filter_congr
    intro entry member
    simpa using deaths.opened entry member
  have lives : (record.deadLetters.filter fun entry => entry.life = record.resets).map
      DeadLetterEntry.life =
      (record.deadLetters.map DeadLetterEntry.life).filter fun life => life = record.resets := by
    rw [List.filter_map]
    rfl
  have earlier : (List.range record.resets).filter (fun life => life = record.resets) = [] := by
    apply List.filter_eq_nil_iff.mpr
    intro life member
    have below := List.mem_range.mp member
    have apart : life ≠ record.resets := by omega
    simpa using apart
  rw [current, lives, deaths.lives]
  split
  · rw [List.range_succ, List.filter_append, earlier]
    simp
  · exact earlier

theorem Deaths.open_count (deaths : record.Deaths) :
    record.openLetters.length = if record.job.status = .dead then 1 else 0 := by
  have count := congrArg List.length deaths.open_lives
  rw [List.length_map] at count
  rw [count]
  split <;> rfl

theorem Deaths.exact (deaths : record.Deaths) : record.LettersExact where
  opened := deaths.open_count
  totals := fun entry member => by
    obtain ⟨total, failed⟩ := deaths.totals entry member
    exact ⟨total, total.trans failed.symm⟩
  consumed := by
    have whole := congrArg List.length deaths.lives
    rw [List.length_map, List.length_range] at whole
    have parts := record.deadLetters.length_eq_length_filter_add
      fun entry => decide (entry.replayedAt = none)
    have open_part : (record.deadLetters.filter fun entry => entry.replayedAt = none).length = _ :=
      deaths.open_count
    simp only [ne_eq, decide_not]
    omega

end JobRecord

/-- A consumed dead letter stays as it is in every later state. -/
def ConsumedStays (env : Environment) (state : System) : Prop :=
  ∀ record ∈ state.db.jobs, ∀ entry ∈ record.deadLetters, entry.replayedAt ≠ none →
    ∀ later, (pulse env).Path anyStep state later →
      ∀ kept ∈ later.db.jobs, kept.job.id = record.job.id → entry ∈ kept.deadLetters

/-- A dead job is requeued only by a reset, which takes one more dead letter. -/
def RequeuedByReset (env : Environment) (state : System) : Prop :=
  ∀ action after, step env state action = some after →
    ∀ record ∈ state.db.jobs, record.job.status = .dead →
      ∀ kept ∈ after.db.jobs, kept.job.id = record.job.id → kept.job.status ≠ .dead →
        kept.resets = record.resets + 1

section Consumed
variable {env : Environment} {state after : System} {sid : Sid} {session : Session}
  {record moved : JobRecord}

theorem JobRecord.consume_kept {entry : DeadLetterEntry} (member : entry ∈ record.deadLetters)
    {chosen : List Uuid} (spared : entry.id ∉ chosen) (now : Time) :
    entry ∈ (record.consume now chosen).deadLetters :=
  List.mem_map.mpr ⟨entry, member, if_neg spared⟩

/-- A commit consumes open dead letters only. -/
theorem Move.consumed (move : Move state session record moved)
    (sound : record.Sound state.nextUuid) {entry : DeadLetterEntry}
    (member : entry ∈ record.deadLetters) (consumed : entry.replayedAt ≠ none) :
    entry ∈ moved.deadLetters := by
  cases move with
  | detach =>
    unfold JobRecord.detach
    split <;> exact member
  | bury | buryLost => exact List.mem_append_left _ member
  | @write tick write => cases write.change <;> exact member
  | retry _ _ _ opened =>
    exact JobRecord.consume_kept member (fun chosen => consumed (opened entry member chosen)) _
  | @replay entryId jobId now record _ _ opened =>
    obtain ⟨chosen, present, rfl, waiting⟩ := opened
    refine JobRecord.consume_kept member ?_ _
    intro named
    have same := List.inj_on_of_nodup_map sound.letters member present (List.mem_singleton.mp named)
    exact consumed (same ▸ waiting)
  | _ => exact member

/-- A commit takes a dead job out of that status only by a reset. -/
theorem Move.reset (move : Move state session record moved) (sound : record.Sound state.nextUuid)
    (dead : record.job.status = .dead) (left : moved.job.status ≠ .dead) :
    moved.resets = record.resets + 1 := by
  have idle := sound.no_token (by simp [dead, JobStatus.inFlight])
  cases move with
  | keep | unassign => exact absurd dead left
  | detach =>
    rw [JobRecord.detach_job_status] at left
    exact absurd dead left
  | claim _ _ status | requeueClaimed _ _ status | requeueLost _ _ status | buryLost _ _ status =>
    rw [dead] at status
    cases status
  | start _ token held | complete _ token held | backoff _ token held | bury _ token held =>
    rw [← token, idle] at held
    cases held
  | write _ _ found parked =>
    rw [← found, dead] at parked
    cases parked
  | cancel _ cancellable =>
    rw [dead] at cancellable
    cases cancellable
  | retry | replay => rfl

theorem Performs.requeued (performs : Performs env state sid after) (base : Base state)
    (member : record ∈ state.db.jobs) (dead : record.job.status = .dead)
    (present : moved ∈ after.db.jobs) (same : moved.job.id = record.job.id)
    (left : moved.job.status ≠ .dead) : moved.resets = record.resets + 1 := by
  have unmoved : moved ∈ state.db.jobs → moved.resets = record.resets + 1 := by
    intro there
    rw [unique_record base.distinct there member same] at left
    exact absurd dead left
  cases performs with
  | hold | rollback => exact unmoved present
  | commit commits =>
    rcases commits.origin present with ⟨old, there, _, _, move⟩ | ⟨job, inserted, rfl⟩
    · have identical := unique_record base.distinct there member (move.job_id.symm.trans same)
      rw [identical] at move
      exact move.reset (base.sound record member) dead left
    · have above := (commits.inserted job inserted).2.1
      have known := (base.sound record member).id_lt
      rw [← same] at known
      exact absurd known (Nat.not_lt.mpr above)

theorem Fenced.requeued (fenced : Fenced state) : RequeuedByReset env state := by
  intro action after taken record member dead kept present same left
  have unmoved : kept ∈ state.db.jobs → kept.resets = record.resets + 1 := by
    intro there
    rw [unique_record fenced.base.distinct there member same] at left
    exact absurd dead left
  cases step_cases fenced.base (fenced.guards action) taken with
  | begin _ performs | next _ performs =>
    exact performs.requeued fenced.base member dead present same left
  | fail | submit | exit | reregister => exact unmoved present

/-- The dead letter is among those of its job. -/
structure Filed (jobId : Uuid) (entry : DeadLetterEntry) (state : System) : Prop where
  known : jobId < state.nextUuid
  filed : ∀ record ∈ state.db.jobs, record.job.id = jobId → entry ∈ record.deadLetters

variable {jobId : Uuid} {entry : DeadLetterEntry}

theorem Filed.performs (filed : Filed jobId entry state) (consumed : entry.replayedAt ≠ none)
    (base : Base state) (performs : Performs env state sid after) : Filed jobId entry after := by
  have known := filed.known
  cases performs with
  | hold => exact ⟨show jobId < 2 * state.nextUuid by lia, filed.filed⟩
  | @commit next patch commits =>
    refine ⟨show jobId < 2 * state.nextUuid + patch.newJobs.length by lia, ?_⟩
    rintro record member rfl
    rcases commits.origin member with ⟨old, present, _, _, move⟩ | ⟨job, inserted, rfl⟩
    · have held := filed.filed old present move.job_id.symm
      exact move.consumed (base.sound old present) held consumed
    · have above := (commits.inserted job inserted).2.1
      exact absurd known (Nat.not_lt.mpr above)
  | rollback => exact ⟨known, filed.filed⟩

theorem Filed.step (filed : Filed jobId entry state) (consumed : entry.replayedAt ≠ none)
    (fenced : Fenced state) {action : Action}
    (taken : Pulse.step env state action = some after) : Filed jobId entry after := by
  have known := filed.known
  cases step_cases fenced.base (fenced.guards action) taken with
  | begin _ performs | next _ performs => exact filed.performs consumed fenced.base performs
  | fail => exact filed.performs consumed fenced.base (.rollback : Performs env state _ _)
  | submit | exit => exact ⟨known, filed.filed⟩
  | reregister => exact ⟨show jobId < 2 * state.nextUuid by lia, filed.filed⟩

/-- In every reachable state the dead letters of every job are exact, those which are
consumed stay so, and a dead job is requeued by consuming one. -/
theorem letters_exact (returning : env.handover = .returning)
    (reachable : (pulse env).Reachable anyStep state) :
    (∀ record ∈ state.db.jobs, record.LettersExact) ∧ ConsumedStays env state ∧
      RequeuedByReset env state := by
  have fenced := Fenced.of_returning returning reachable
  refine ⟨?_, ?_, fenced.requeued⟩
  · intro record member
    exact (Accounted.reachable returning reachable record member).2.exact
  · intro record member entry listed consumed later path kept present same
    have filed : Filed record.job.id entry state := by
      refine ⟨(fenced.base.sound record member).id_lt, ?_⟩
      intro other there named
      rwa [unique_record fenced.base.distinct there member named]
    have stays : Fenced later ∧ Filed record.job.id entry later := by
      refine @Machine.Path.preserves _ _ (pulse env) anyStep
        (fun state => Fenced state ∧ Filed record.job.id entry state) ?_ _ _ path ⟨fenced, filed⟩
      rintro earlier action next ⟨fenced, filed⟩ _ taken
      exact ⟨fenced.step (returning_hands returning earlier action) taken,
        filed.step consumed fenced taken⟩
    exact stays.2.filed kept present same

end Consumed

/-- A job with one attempt dies, is retried, and dies again. -/
def diedTwice : List Action := claimedOnce.take 3 ++ [
  .begin 0 (.api 0 (.createJob
    { queueId := 1, type := .immediate, handler := "noop", maxAttempts := some 1 })),
  .begin 1 (.claimJobs 1 2 1 0),
  .next 1 { picked := [8] },
  .next 1 {},
  .next 1 {},
  .submit 1 10,
  .next 10 {},
  .next 10 {},
  .next 10 { outcome := .failure "RuntimeError" "boom" },
  .next 10 {},
  .next 10 {},
  .begin 5 (.retryJob 8),
  .next 5 {},
  .next 5 {},
  .begin 3 (.claimJobs 1 4 1 0),
  .next 3 { picked := [8] },
  .next 3 {},
  .next 3 {},
  .submit 3 11,
  .next 11 {},
  .next 11 {},
  .next 11 { outcome := .failure "RuntimeError" "boom" },
  .next 11 {},
  .next 11 {}]

theorem letters_exact_died : ∃ state, (pulse (sample .returning)).Reachable anyStep state ∧
    (∃ record ∈ state.db.jobs, record.job.status = .dead ∧ record.resets = 1 ∧
      record.deadLetters.length = 2) ∧
    (∀ record ∈ state.db.jobs, record.LettersExact) ∧ ConsumedStays (sample .returning) state ∧
      RequeuedByReset (sample .returning) state := by
  have ran : ((pulse (sample .returning)).run anyStep {} diedTwice).any (fun state =>
      state.db.jobs.any fun record => record.job.status = .dead && record.resets = 1 &&
        record.deadLetters.length = 2) = true := by
    decide +kernel
  obtain ⟨state, reachable, passes⟩ := Machine.reachable_of_check rfl diedTwice ran
  obtain ⟨record, member, found⟩ := List.any_eq_true.mp passes
  simp only [Bool.and_eq_true, decide_eq_true_eq] at found
  exact ⟨state, reachable, ⟨record, member, found.1.1, found.1.2, found.2⟩,
    letters_exact rfl reachable⟩

end Pulse
