import Pulse.Library.Timed
import Pulse.System.Fenced

/-! No job runs before its `run_at`. The engine runs beside one clock; API servers, workers,
the reaper and the scheduler replicas use readings of it which may be old when they act. -/
namespace Pulse
open Library.RowLock Library.Lts

/-- The readings of the clock which an action brings; what a statement does not read is
of no effect. -/
def Action.readings : Action → List Time
  | .begin _ (.claimJobs _ _ _ now) | .begin _ (.tick now) | .begin _ (.api now _) => [now]
  | .next _ input => [input.now]
  | .reregister _ now => [now]
  | _ => []

/-- Whatever does not wait for its time, or was cancelled, is due. -/
def Db.Due (db : Db) (now : Time) : Prop :=
  ∀ record ∈ db.jobs, record.job.status.parked = false → record.job.runAt ≤ now

/-- A handler of a job starts only when it is due. -/
def StartsDue (env : Environment) (state : System) (now : Time) : Prop :=
  ∀ sid input task executionId after, state.sessions sid = .starting task →
    step env state (.next sid input) = some after →
    after.sessions sid = .handling task executionId →
    ∀ record ∈ after.db.jobs, record.job.id = task.jobId → record.job.runAt ≤ now

/-- The job which a tick changes is due after the change, unless that cancels it. -/
def Change.Timely (db : Db) (now : Time) (jobId : Uuid) : Change → Prop
  | .promote => ∀ record ∈ db.jobs, record.job.id = jobId → record.job.runAt ≤ now
  | .release released => released ≤ now
  | .cancel _ => True

/-- What a tick puts into the queue, or has put there, is due. -/
structure Tick.Timely (db : Db) (now : Time) (current : Tick) : Prop where
  began : current.now ≤ now
  targets : ∀ target ∈ current.targets, target.change.Timely db now target.jobId
  writes : ∀ write ∈ current.writes, write.change.Timely db now write.jobId
  spawned : ∀ job ∈ current.spawned, job.runAt ≤ now

structure Punctual (state : System) (now : Time) : Prop where
  due : state.db.Due now
  ticks : ∀ sid current, state.sessions sid = .tick current → current.Timely state.db now

/-! Time goes on. -/

theorem Change.Timely.later {db : Db} {now later : Time} {jobId : Uuid} {change : Change}
    (timely : change.Timely db now jobId) (forward : now ≤ later) :
    change.Timely db later jobId := by
  cases change with
  | promote => exact fun record member same => (timely record member same).trans forward
  | release => exact le_trans timely forward
  | cancel => trivial

theorem Punctual.later {state : System} {now later : Time} (punctual : Punctual state now)
    (forward : now ≤ later) : Punctual state later := by
  refine ⟨fun record member past => (punctual.due record member past).trans forward, ?_⟩
  intro sid current ticking
  have timely := punctual.ticks sid current ticking
  exact ⟨timely.began.trans forward, fun target listed => (timely.targets target listed).later forward,
    fun write listed => (timely.writes write listed).later forward,
    fun job listed => (timely.spawned job listed).trans forward⟩

/-! The writes to one job. -/

section Moves
variable {state : System} {session : Session} {record after : JobRecord}

/-- A job is taken out of the parked statuses by a write of a tick alone. -/
theorem Move.unparked (move : Move state session record after) (sound : record.Sound state.nextUuid)
    (past : after.job.status.parked = false) : record.job.status.parked = false ∨
      ∃ current write, session = .tick current ∧ write ∈ current.writes ∧
        write.jobId = record.job.id ∧ after = write.change.write record := by
  by_cases parked : record.job.status.parked = true
  · right
    by_cases ticking : ∃ current, session = .tick current
    · obtain ⟨current, rfl⟩ := ticking
      cases move with
      | keep => simp [parked] at past
      | write member same => exact ⟨current, _, rfl, member, same.symm, rfl⟩
      | requeueClaimed swept | requeueLost swept | buryLost swept | unassign swept => cases swept
    · have kept := move.parked (fun current same => ticking ⟨current, same⟩) sound parked
      simp [kept] at past
  · exact .inl (by simpa using parked)

/-- Whoever is not a tick leaves a parked job its time. -/
theorem Move.parked_runAt (move : Move state session record after)
    (other : ∀ current, session ≠ .tick current) (sound : record.Sound state.nextUuid)
    (parked : record.job.status.parked = true) : after.job.runAt = record.job.runAt := by
  have idle := sound.no_token (JobStatus.parked_waiting parked)
  cases move with
  | detach => unfold JobRecord.detach; split <;> rfl
  | backoff _ token held =>
    rw [← token, idle] at held
    cases held
  | write => exact absurd rfl (other _)
  | retry _ retryable =>
    cases status : record.job.status <;> simp_all [JobStatus.parked, JobStatus.retryable]
  | replay _ dead => simp [dead, JobStatus.parked] at parked
  | _ => rfl

end Moves

/-- The `run_at` which a commit leaves a job: the old one, that of a retry, the clock reading
of a reset, or what a tick writes. -/
def Redates (session : Session) (reading : Time) (before after : JobRecord) : Prop :=
  after.job.runAt = before.job.runAt ∨ after.job.status = .retrying ∨
    after.job.runAt = reading ∨
      ∃ current write, session = .tick current ∧ write ∈ current.writes ∧
        write.jobId = before.job.id ∧ after = write.change.write before

section Writes
variable {env : Environment} {state : System} {sid : Sid} {session next : Session}
  {locks : List Lock} {patch : Patch} {input : Input}

theorem Redates.onJob {jobId : Uuid} {f : JobRecord → JobRecord} {record : JobRecord}
    (redates : Redates session input.now record (f record)) :
    Redates session input.now record (onJob jobId f record) := by
  by_cases same : record.job.id = jobId
  · rwa [onJob_same same]
  · rw [onJob_other same]
    exact .inl rfl

theorem finishWrite_redates (task : Task) (executionId : Uuid) (durationMs : Int) (outcome : Outcome)
    (now : Time) (uniform : ℚ) (record : JobRecord) : Redates session input.now record
      (finishWrite state task executionId durationMs outcome now uniform record) := by
  cases outcome with
  | success => exact .inl rfl
  | failure =>
    simp only [finishWrite, JobRecord.applyFailure]
    split
    · exact .inl rfl
    · exact .inr (.inl rfl)

theorem sweepWrite_runAt (sweep : Sweep) (record : JobRecord) :
    (sweepWrite state sweep record).job.runAt = record.job.runAt := by
  unfold sweepWrite
  split
  · unfold JobRecord.reap
    split
    · dsimp only
      split <;> rfl
    · rfl
  · split <;> rfl

/-- Every commit of a session of several statements. -/
theorem Session.effect_redates
    (made : session.effect env state sid input = some (.commit next locks patch))
    (record : JobRecord) : Redates session input.now record (patch.job record) := by
  cases Session.effect_closes made with
  | @claim _ workerId now rows =>
    left
    dsimp only
    by_cases locked : record.job.id ∈ rows.map ClaimedRow.jobId
    · obtain ⟨row, _, _, written⟩ := @claimWrite_own workerId now rows record locked
      rw [written]
      rfl
    · rw [claimWrite_other locked]
  | start | cancel => exact Redates.onJob (.inl rfl)
  | finish => exact Redates.onJob (finishWrite_redates ..)
  | worker => exact .inl rfl
  | sweep => exact .inl (sweepWrite_runAt ..)
  | @tick current =>
    by_cases locked : record.job.id ∈ current.writes.map RowWrite.jobId
    · obtain ⟨write, listed, same, written⟩ := tickWrite_own locked
      exact .inr (.inr (.inr ⟨current, write, rfl, listed, same, written⟩))
    · left
      dsimp only
      rw [tickWrite_other locked]
  | @requeue _ jobId entries now running =>
    -- The reading is the one which the statement brought.
    have written : onJob jobId (fun record => (record.consume input.now entries).reset input.now) =
        onJob jobId fun record => (record.consume now entries).reset now := by
      rcases running with rfl | ⟨_, rfl, rfl⟩ <;>
        exact congrArg Patch.job (Effect.commit.inj (Option.some.inj made)).2.2
    dsimp only
    rw [← written]
    exact Redates.onJob (.inr (.inr (.inl rfl)))

/-- A job which is queued as it is inserted is due. -/
theorem initialStatusAndRunAt_due {now : Time} {runAt : Option Time} {gated : Bool}
    (past : (initialStatusAndRunAt now runAt gated).1.parked = false) :
    (initialStatusAndRunAt now runAt gated).2 ≤ now := by
  unfold initialStatusAndRunAt at past ⊢
  dsimp only at past ⊢
  split at past
  · cases past
  · split at past
    · rename_i free due
      simp [free, due]
    · cases past

theorem Answers.due {now : Time} {call : ApiCall} (answers : Answers env state now call locks patch) :
    ∀ job ∈ patch.newJobs, job.status.parked = false → job.runAt ≤ now := by
  intro job listed past
  cases answers with
  | @createJob body created made =>
    cases created with
    | none => cases listed
    | some job =>
      cases List.mem_singleton.mp listed
      obtain ⟨queue, _, _, _, _, rfl⟩ := createJob_row made
      exact initialStatusAndRunAt_due past
  | @createBatch body jobs made =>
    obtain ⟨queue, _, rfl⟩ := createBatch_rows made
    obtain ⟨index, within, rfl⟩ := List.mem_mapIdx.mp listed
    exact initialStatusAndRunAt_due past
  | deleteSchedule made | deleteQueue made =>
    cases made
    cases listed
  | _ => cases listed

end Writes

/-! Ticks. -/

section Ticks
variable {env : Environment} {state : System} {sid : Sid} {current tick : Tick}
  {locks : List Lock} {input : Input} {now : Time}

/-- What a tick sees due is due in the database. -/
theorem Base.sees_due (base : Base state) {job : Job}
    (member : job ∈ (current.view state.db).map JobRecord.job) {began : Time}
    (due : job.due began = true) :
    ∀ record ∈ state.db.jobs, record.job.id = job.id → record.job.runAt ≤ began := by
  obtain ⟨seen, present, rfl⟩ := List.mem_map.mp member
  obtain ⟨record, there, rfl⟩ := List.mem_map.mp present
  intro other known same
  rw [tickWrite_id] at same
  cases unique_record base.distinct known there same
  have waiting := due_waiting due
  have unwritten : tickWrite current.writes record = record := by
    rcases waiting with scheduled | retrying
    · exact (view_unwritten scheduled ⟨by decide, by decide⟩).1
    · exact (view_unwritten retrying ⟨by decide, by decide⟩).1
  rw [unwritten] at due
  simp only [Job.due, Bool.and_eq_true, decide_eq_true_eq] at due
  exact due.1

/-- A tick spawns what its templates say, no earlier than that. -/
theorem promoteCronJobs_due {reading : Time}
    (made : promoteCronJobs env.getNext state current reading = .hold (.tick tick) locks) :
    ∀ job ∈ tick.spawned, job.runAt ≤ current.now := by
  cases made
  intro job member
  obtain ⟨pair, present, spawned⟩ := List.mem_filterMap.mp member
  obtain ⟨due, listed, rfl⟩ := List.mem_map.mp present
  obtain ⟨sched, there, found⟩ := List.mem_filterMap.mp listed
  split at found
  · rename_i active
    obtain ⟨queue, _, rfl⟩ := Option.map_eq_some_iff.mp found
    simp only [Bool.and_eq_true, decide_eq_true_eq] at active
    unfold spawn at spawned
    split at spawned
    · cases spawned
    · cases Option.some.inj spawned
      exact active.2
  · cases found

/-- What a tick releases gets the reading which the statement brought. -/
theorem resolveDependent_timely {statuses : Uuid → Option JobStatus} {reading : Time}
    {dependsOn : List Uuid} {change : Change} {db : Db} {jobId : Uuid}
    (decided : resolveDependent statuses reading dependsOn = some change) (past : reading ≤ now) :
    change.Timely db now jobId := by
  unfold resolveDependent at decided
  dsimp only at decided
  split at decided
  · cases decided
  · split at decided
    · cases Option.some.inj decided
      trivial
    · split at decided
      · cases Option.some.inj decided
        exact past
      · cases decided

/-- Every statement of a tick. -/
theorem Tick.Timely.next (timely : current.Timely state.db now) (base : Base state)
    (past : input.now ≤ now)
    (made : tickEffect env state sid current input = some (.hold (.tick tick) locks)) :
    tick.Timely state.db now := by
  obtain ⟨_, same, ticks⟩ := tickEffect_ticks made
  cases same
  cases ticks with
  | locked idle => exact ⟨timely.began, by simp [idle], timely.writes, timely.spawned⟩
  | selectRateLimited _ _ due =>
    refine ⟨timely.began, ?_, timely.writes, timely.spawned⟩
    intro target listed
    obtain ⟨jobId, picked, rfl⟩ := List.mem_map.mp listed
    obtain ⟨job, present, rfl, waiting⟩ := due jobId picked
    exact fun record member same =>
      (base.sees_due present waiting record member same).trans timely.began
  | selectUnlimited _ _ selected =>
    cases selected
    refine ⟨timely.began, ?_, timely.writes, timely.spawned⟩
    intro target listed
    obtain ⟨job, chosen, rfl⟩ := List.mem_map.mp listed
    obtain ⟨present, matching⟩ := List.mem_filter.mp chosen
    simp only [Bool.and_eq_true] at matching
    exact fun record member same =>
      (base.sees_due present matching.1 record member same).trans timely.began
  | promoteCronJobs idle _ spawns =>
    have due := promoteCronJobs_due spawns
    cases spawns
    exact ⟨timely.began, by simp [idle], timely.writes,
      fun job listed => (due job listed).trans timely.began⟩
  | selectPending idle _ selected =>
    cases selected
    exact ⟨timely.began, by simp [idle], timely.writes, timely.spawned⟩
  | decideDependents idle stage decided =>
    cases decided
    simp only [tickEffect, idle, ne_eq, not_true_eq_false, if_false, stage, decideDependents,
      Option.some.injEq, Effect.hold.injEq, Session.tick.injEq, Tick.mk.injEq, true_and,
      and_true] at made
    refine ⟨timely.began, ?_, timely.writes, timely.spawned⟩
    dsimp only
    rw [← made]
    intro target listed
    obtain ⟨dependent, _, chosen⟩ := List.mem_filterMap.mp listed
    obtain ⟨change, resolved, rfl⟩ := Option.map_eq_some_iff.mp chosen
    exact resolveDependent_timely resolved past
  | skip =>
    exact ⟨timely.began, fun target listed => timely.targets target (List.mem_of_mem_erase listed),
      timely.writes, timely.spawned⟩
  | @write target record chosen =>
    refine ⟨timely.began, fun other listed => timely.targets other (List.mem_of_mem_erase listed),
      ?_, timely.spawned⟩
    intro write listed
    rcases List.mem_cons.mp listed with rfl | old
    · exact timely.targets target chosen
    · exact timely.writes write old

/-- What a tick has written over a row leaves it due. -/
theorem Tick.Timely.written (timely : current.Timely state.db now) {write : RowWrite}
    {record : JobRecord} (listed : write ∈ current.writes) (member : record ∈ state.db.jobs)
    (same : write.jobId = record.job.id)
    (past : (write.change.write record).job.status.parked = false) :
    (write.change.write record).job.runAt ≤ now := by
  have due := timely.writes write listed
  rw [Change.write_status] at past
  cases change : write.change with
  | promote =>
    rw [change] at due
    exact due record member same.symm
  | release =>
    rw [change] at due
    exact due
  | cancel =>
    rw [change] at past
    cases past

end Ticks

/-! Steps. -/

section Steps
variable {env : Environment} {state after : System} {sid : Sid} {next : Session} {patch : Patch}
  {now : Time}

theorem Punctual.commit (punctual : Punctual state now) (base : Base state)
    (commits : Commits state sid next patch) {reading : Time} (past : reading ≤ now)
    (redates : ∀ record ∈ state.db.jobs, Redates (state.sessions sid) reading record (patch.job record))
    (entered : ∀ job ∈ patch.newJobs, job.status.parked = false → job.runAt ≤ now) :
    Punctual (state.commit sid next patch) now := by
  constructor
  · intro record member unparked
    rcases commits.origin member with ⟨old, present, _, rfl, move⟩ | ⟨job, inserted, rfl⟩
    · have written : ∀ current write, state.sessions sid = .tick current →
          write ∈ current.writes → write.jobId = old.job.id →
          patch.job old = write.change.write old → (patch.job old).job.runAt ≤ now := by
        intro current write ticking listed same changed
        rw [changed] at unparked ⊢
        exact (punctual.ticks sid current ticking).written listed present same unparked
      rcases move.unparked (base.sound old present) unparked with
        before | ⟨current, write, ticking, listed, same, changed⟩
      · rcases redates old present with
          kept | retrying | reset | ⟨current, write, ticking, listed, same, changed⟩
        · rw [kept]
          exact punctual.due old present before
        · simp [retrying, JobStatus.parked] at unparked
        · rwa [reset]
        · exact written current write ticking listed same changed
      · exact written current write ticking listed same changed
    · exact entered job inserted unparked
  · refine System.update_sessions (fun _ session => ∀ current, session = .tick current →
      current.Timely (state.db.apply patch) now) ?_ ?_
    · intro current ticking
      have leaves := commits.leaves
      rw [ticking] at leaves
      generalize state.sessions sid = session at leaves
      cases leaves
    · intro other different current ticking
      have timely := punctual.ticks other current ticking
      have selected := base.targets other
      have locked := base.expects other
      rw [ticking] at selected
      have still : ∀ rival, state.sessions sid ≠ .tick rival :=
        fun rival ticks => different (base.one_tick ticking ticks)
      refine ⟨timely.began, ?_, ?_, timely.spawned⟩
      · intro target listed
        have id : target.jobId ∈ (Session.tick current).targetIds :=
          List.mem_append_left _ (List.mem_map.mpr ⟨target, listed, rfl⟩)
        obtain ⟨below, parked⟩ := selected _ id
        have due := timely.targets target listed
        cases change : target.change with
        | promote =>
          rw [change] at due
          intro record member same
          rcases commits.origin member with ⟨old, present, _, _, move⟩ | ⟨job, inserted, rfl⟩
          · have named := move.job_id.symm.trans same
            rw [move.parked_runAt still (base.sound old present) (parked old present named)]
            exact due old present named
          · have above := (commits.inserted job inserted).2.1
            exact absurd (same ▸ below) (Nat.not_lt.mpr above)
        | release =>
          rw [change] at due
          exact due
        | cancel => trivial
      · intro write listed
        have due := timely.writes write listed
        cases change : write.change with
        | promote =>
          rw [change] at due
          intro record member same
          have owned : write.jobId ∈ (state.sessions other).rows := by
            rw [ticking]
            exact List.mem_map.mpr ⟨write, listed, rfl⟩
          obtain ⟨old, present, named, _⟩ := locked write.jobId owned
          rw [← named] at owned
          have kept := commits.untouched base different present owned
          rw [unique_record (commits.distinct base) member kept (same.trans named.symm)]
          exact due old present named
        | release =>
          rw [change] at due
          exact due
        | cancel => trivial

/-- Steps which publish nothing about jobs: a tick stays as it was, or is timely. -/
theorem Punctual.relax (punctual : Punctual state now) (jobs : after.db.jobs = state.db.jobs)
    (sessions : ∀ sid current, after.sessions sid = .tick current →
      state.sessions sid = .tick current ∨ current.Timely state.db now) : Punctual after now := by
  have same : ∀ {change : Change} {jobId : Uuid}, change.Timely state.db now jobId →
      change.Timely after.db now jobId := by
    intro change jobId timely
    cases change with
    | promote =>
      intro record member
      rw [jobs] at member
      exact timely record member
    | release => exact timely
    | cancel => trivial
  refine ⟨?_, ?_⟩
  · intro record member
    rw [jobs] at member
    exact punctual.due record member
  · intro sid current ticking
    have timely : current.Timely state.db now := by
      rcases sessions sid current ticking with before | timely
      · exact punctual.ticks sid current before
      · exact timely
    exact ⟨timely.began, fun target listed => same (timely.targets target listed),
      fun write listed => same (timely.writes write listed), timely.spawned⟩

theorem Punctual.rollback (punctual : Punctual state now) (sid : Sid) :
    Punctual (state.rollback sid) now := by
  refine punctual.relax rfl ?_
  exact System.update_sessions (fun other session => ∀ current, session = .tick current →
    state.sessions other = .tick current ∨ current.Timely state.db now)
    (fun _ ticking => by cases ticking) fun _ _ _ ticking => .inl ticking

theorem Punctual.hold (punctual : Punctual state now) {locks : List Lock}
    (timely : ∀ tick, next = .tick tick → tick.Timely state.db now) :
    Punctual (state.hold sid next locks) now := by
  refine punctual.relax rfl ?_
  exact System.update_sessions (fun other session => ∀ current, session = .tick current →
    state.sessions other = .tick current ∨ current.Timely state.db now)
    (fun current ticking => .inr (timely current ticking)) fun _ _ _ ticking => .inl ticking

theorem Punctual.step (punctual : Punctual state now) (base : Base state) {action : Action}
    (past : ∀ reading ∈ action.readings, reading ≤ now)
    (taken : Pulse.step env state action = some after) : Punctual after now := by
  cases step_inverted taken with
  | @begin sid request effect _ idle made performed =>
    cases effect with
    | hold next locks =>
      obtain ⟨_, rfl⟩ := System.perform_hold performed
      refine punctual.hold ?_
      rintro tick rfl
      obtain ⟨began, rfl, rfl⟩ := Request.begins_tick made
      exact ⟨past began (List.mem_singleton_self _), by simp, by simp, by simp⟩
    | commit next locks patch =>
      obtain ⟨free, rfl⟩ := System.perform_commit performed
      have commits := Request.effect_commits base idle made free
      obtain ⟨reading, call, rfl, rfl, answers⟩ := Request.effect_closes made
      have early := past reading (List.mem_singleton_self _)
      refine punctual.commit base commits early ?_ ?_
      · intro record member
        left
        cases answers with
        | deleteSchedule deleted =>
          cases deleted
          dsimp only [JobRecord.detach]
          split <;> rfl
        | deleteQueue deleted => cases deleted; rfl
        | _ => rfl
      · exact fun job listed unparked => (answers.due job listed unparked).trans early
    | rollback =>
      cases Option.some.inj performed
      exact punctual.rollback sid
  | @next sid input effect _ _ made performed =>
    have early := past input.now (List.mem_singleton_self _)
    cases effect with
    | hold next locks =>
      obtain ⟨_, rfl⟩ := System.perform_hold performed
      refine punctual.hold ?_
      rintro tick rfl
      obtain ⟨current, ticking⟩ := Session.effect_tick made
      rw [ticking] at made
      exact (punctual.ticks sid current ticking).next base early made
    | commit next locks patch =>
      obtain ⟨_, rfl⟩ := System.perform_commit performed
      have commits := Session.effect_commits base made
      refine punctual.commit base commits early
        (fun record _ => Session.effect_redates made record) ?_
      have closes := Session.effect_closes made
      generalize running : state.sessions sid = session at closes
      cases closes with
      | tick =>
        intro job listed _
        obtain ⟨spawned, there, _, _, rfl⟩ := numbered_member listed
        exact (punctual.ticks sid _ running).spawned spawned there
      | _ => intro job listed; cases listed
    | rollback =>
      cases Option.some.inj performed
      exact punctual.rollback sid
  | fail => exact punctual.rollback _
  | @submit sid newSid workerId task rest =>
    refine punctual.relax rfl ?_
    refine System.handed_forall (fun other session => ∀ current, session = .tick current →
      state.sessions other = .tick current ∨ current.Timely state.db now) ?_ ?_
      fun _ _ _ ticking => .inl ticking
    · intro current ticking
      cases ticking
    · intro current ticking
      unfold handingOver at ticking
      split at ticking <;> cases ticking
  | exit | reregister => exact punctual.relax rfl fun _ _ ticking => .inl ticking

theorem Punctual.reachable
    (reachable : ((pulse env).timed Action.readings).Reachable (Timed.lift GuardsToken) (state, now)) :
    Punctual state now := by
  refine reachable.timed_invariant ?_ ?_ ?_
  · rintro _ now rfl
    refine ⟨?_, ?_⟩
    · intro record member
      cases member
    · intro sid current ticking
      cases ticking
  · exact fun _ _ _ forward punctual => punctual.later forward
  · exact fun _ _ _ _ before punctual guards past taken =>
      punctual.step (Base.reachable before) past taken

/-- The first transaction of `_execute` starts its job while it is in flight, and leaves it
its time. -/
theorem start_inFlight (base : Base state) {input : Input} {task : Task} {executionId : Uuid}
    (starting : state.sessions sid = .starting task)
    (taken : step env state (.next sid input) = some after)
    (handling : after.sessions sid = .handling task executionId) :
    ∀ record ∈ after.db.jobs, record.job.id = task.jobId → ∃ old ∈ state.db.jobs,
      old.job.status.inFlight = true ∧ record.job.runAt = old.job.runAt := by
  obtain ⟨effect, made, performed⟩ := next_effect taken
  rw [starting] at made
  simp only [Session.effect, startEffect] at made
  split at made
  · cases made
  cases Option.some.inj made
  obtain ⟨_, rfl⟩ := System.perform_commit performed
  intro record member same
  rcases mem_apply_jobs.mp member with ⟨old, present, _, rfl⟩ | ⟨job, inserted, _⟩
  · have id : old.job.id = task.jobId :=
      ((onJob_kept (fun record => record.start_kept ..) old).job_id).symm.trans same
    refine ⟨old, present, ?_, by simp only [onJob_same id]; rfl⟩
    have armed := base.armed sid
    have locked : old.job.id ∈ (state.sessions sid).rows := by
      rw [starting, id]
      exact List.mem_singleton_self _
    have expected := base.expect present locked
    rw [starting] at armed expected
    by_contra waiting
    have idle := (base.sound old present).no_token (by simpa using waiting)
    have held : task.token.isSome = true := armed
    rw [← (show old.job.lockToken = task.token from expected), idle] at held
    cases held
  · cases inserted

/-- Beside one clock, in every run in which no `_execute` passes its first guard with a null
token: every job which neither waits for its time nor was cancelled is due, and no handler
starts before the `run_at` of its job. -/
theorem no_early_start
    (reachable : ((pulse env).timed Action.readings).Reachable (Timed.lift GuardsToken) (state, now)) :
    state.db.Due now ∧ StartsDue env state now := by
  have punctual := Punctual.reachable reachable
  refine ⟨punctual.due, ?_⟩
  intro sid input task executionId after starting taken handling record member same
  have base := Base.reachable reachable.untimed
  obtain ⟨old, present, inFlight, kept⟩ :=
    start_inFlight base starting taken handling record member same
  rw [kept]
  refine punctual.due old present ?_
  cases status : old.job.status <;> simp_all [JobStatus.inFlight, JobStatus.parked]

end Steps

/-- A job which is to run at 50 is created at 0; at 60 a tick promotes it, and a worker claims
it and is about to start it. -/
def delayedUntil50 : List (Timed Time Action) := [
  .act (.begin 0 (.api 0 (.createQueue { projectId := 0, name := "default" }))),
  .act (.begin 0 (.api 0 .registerWorker)),
  .act (.begin 0 (.api 0 (.createJob {
    queueId := 1, type := .delayed, handler := "noop", runAt := some 50 }))),
  .pass 60,
  .act (.begin 3 (.tick 60)),
  .act (.next 3 {}),
  .act (.next 3 {}),
  .act (.next 3 { jobId := 4 }),
  .act (.next 3 {}),
  .act (.next 3 {}),
  .act (.next 3 {}),
  .act (.begin 1 (.claimJobs 1 2 1 60)),
  .act (.next 1 { picked := [4] }),
  .act (.next 1 {}),
  .act (.next 1 {}),
  .act (.submit 1 10),
  .act (.next 10 {})]

theorem no_early_start_delayed : ∃ state,
    ((pulse (sample .reread)).timed Action.readings).Reachable (Timed.lift GuardsToken)
      (state, (60 : Time)) ∧
    (∃ task, state.sessions 10 = .starting task ∧ task.jobId = 4) ∧
    (∃ record ∈ state.db.jobs, record.job.runAt = 50 ∧ record.job.status = .claimed) ∧
    state.db.Due 60 ∧ StartsDue (sample .reread) state 60 := by
  have ran : (((pulse (sample .reread)).timed Action.readings).run (Timed.lift GuardsToken)
      ({}, (0 : Time)) delayedUntil50).any (fun pair => pair.2 = 60 &&
        pair.1.sessions 10 = .starting ⟨2, 4, some 2308, 1, 2308⟩ &&
        pair.1.db.jobs.any fun record =>
          record.job.runAt = 50 && record.job.status = .claimed) = true := by
    decide +kernel
  obtain ⟨⟨state, now⟩, reachable, passes⟩ := Machine.reachable_of_check (by exact rfl) delayedUntil50 ran
  simp only [Bool.and_eq_true, List.any_eq_true, decide_eq_true_eq] at passes
  obtain ⟨⟨rfl, starts⟩, claimed⟩ := passes
  exact ⟨state, reachable, ⟨_, starts, rfl⟩, claimed, no_early_start reachable⟩

end Pulse
