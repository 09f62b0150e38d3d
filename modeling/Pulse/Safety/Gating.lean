import Pulse.Safety.Dependencies

/-! Dependency gating: a job leaves `scheduled` only after its dependencies have completed,
whichever statement moves it. -/
namespace Pulse
open Library.RowLock Library.Lts

/-- Every job which it depends on and which still exists has completed. -/
def Db.Done (db : Db) (job : Job) : Prop :=
  ∀ dep ∈ job.dependsOn.getD [], ∀ other ∈ db.jobs, other.job.id = dep →
    other.job.status = .completed

/-- No dependent is past its gate before its dependencies are done. -/
def Db.Gated (db : Db) : Prop :=
  ∀ record ∈ db.jobs, record.job.noDeps = false → record.job.status ≠ .scheduled →
    record.job.status ≠ .cancelled → db.Done record.job

/-- A handler of a job starts only when its dependencies are done. -/
def StartsDone (env : Environment) (state : System) : Prop :=
  ∀ sid input task executionId after, state.sessions sid = .starting task →
    step env state (.next sid input) = some after →
    after.sessions sid = .handling task executionId →
    ∀ record ∈ after.db.jobs, record.job.id = task.jobId → after.db.Done record.job

/-- The dependents which the tick is about to decide on. -/
def Tick.pending (current : Tick) : List (Uuid × List Uuid) :=
  match current.stage with
  | .deciding pending => pending
  | _ => []

/-- Every row of the job may be put into the queue. -/
def Db.Cleared (db : Db) (jobId : Uuid) : Prop :=
  ∀ record ∈ db.jobs, record.job.id = jobId → db.Done record.job

/-- What a tick puts into the queue, or has put there, is cleared. -/
structure Tick.Cleared (db : Db) (current : Tick) : Prop where
  targets : ∀ target ∈ current.targets, target.change.status = .queued → db.Cleared target.jobId
  writes : ∀ write ∈ current.writes, write.change.status = .queued → db.Cleared write.jobId
  pending : ∀ dependent ∈ current.pending, ∀ record ∈ db.jobs, record.job.id = dependent.1 →
    record.job.dependsOn = some dependent.2

structure Gating (state : System) : Prop where
  gated : state.db.Gated
  ticks : ∀ sid current, state.sessions sid = .tick current → current.Cleared state.db

theorem Db.Done.of_noDeps {db : Db} {job : Job} (free : job.noDeps = true) : db.Done job := by
  intro dep refers
  unfold Job.noDeps at free
  split at free <;> simp_all

theorem Db.Gated.done {db : Db} (gated : db.Gated) {record : JobRecord} (member : record ∈ db.jobs)
    (past : record.job.status ≠ .scheduled) (alive : record.job.status ≠ .cancelled) :
    db.Done record.job := by
  by_cases free : record.job.noDeps = true
  · exact .of_noDeps free
  · exact gated record member (by simpa using free) past alive

/-! Selections. -/

section Ticks
variable {env : Environment} {state : System} {current tick : Tick} {locks : List Lock}

/-- What a tick selects as due is cleared. -/
theorem Gating.due (gating : Gating state)
    (distinct : (state.db.jobs.map fun record => record.job.id).Nodup) {job : Job}
    (member : job ∈ (current.view state.db).map JobRecord.job) (due : job.due current.now = true) :
    state.db.Cleared job.id := by
  obtain ⟨seen, present, rfl⟩ := List.mem_map.mp member
  obtain ⟨record, there, rfl⟩ := List.mem_map.mp present
  intro other known same
  rw [tickWrite_id] at same
  cases unique_record distinct known there same
  simp only [Job.due, Job.dueFilter, Bool.and_eq_true, Bool.or_eq_true, decide_eq_true_eq] at due
  rcases due.2 with ⟨scheduled, free⟩ | retrying
  · obtain ⟨unwritten, _⟩ := view_unwritten scheduled ⟨by decide, by decide⟩
    rw [unwritten] at free
    exact .of_noDeps free
  · obtain ⟨_, status⟩ := view_unwritten retrying ⟨by decide, by decide⟩
    exact gating.gated.done there (by simp [status]) (by simp [status])

/-- What a tick decides to release is cleared. -/
theorem Tick.Cleared.release (cleared : current.Cleared state.db)
    (distinct : (state.db.jobs.map fun record => record.job.id).Nodup)
    {dependent : Uuid × List Uuid} (pending : dependent ∈ current.pending) {now : Time}
    {change : Change} (decided : resolveDependent (statusById (current.view state.db)) now
      dependent.2 = some change) (released : change.status = .queued) :
    state.db.Cleared dependent.1 := by
  intro record member same dep refers other there named
  rw [cleared.pending dependent pending record member same] at refers
  obtain ⟨seen, present, id, completed⟩ :=
    statusById_some (resolveDependent_release decided released dep refers)
  obtain ⟨row, known, rfl⟩ := List.mem_map.mp present
  rw [tickWrite_id] at id
  cases unique_record distinct there known (named.trans id.symm)
  exact (view_unwritten completed ⟨by decide, by decide⟩).2

theorem Ticks.cleared (ticks : Ticks env state current tick locks) (gating : Gating state)
    (distinct : (state.db.jobs.map fun record => record.job.id).Nodup)
    (cleared : current.Cleared state.db) : tick.Cleared state.db := by
  cases ticks with
  | locked idle => exact ⟨by simp [idle], cleared.writes, by simp [Tick.pending]⟩
  | selectRateLimited _ _ due =>
    refine ⟨?_, cleared.writes, by simp [Tick.pending]⟩
    intro target listed _
    obtain ⟨jobId, picked, rfl⟩ := List.mem_map.mp listed
    obtain ⟨job, present, rfl, waiting⟩ := due jobId picked
    exact gating.due distinct present waiting
  | selectUnlimited _ _ made =>
    cases made
    refine ⟨?_, cleared.writes, by simp [Tick.pending]⟩
    intro target listed _
    obtain ⟨job, selected, rfl⟩ := List.mem_map.mp listed
    obtain ⟨present, matching⟩ := List.mem_filter.mp selected
    simp only [Bool.and_eq_true] at matching
    exact gating.due distinct present matching.1
  | promoteCronJobs idle _ made =>
    cases made
    exact ⟨by simp [idle], cleared.writes, by simp [Tick.pending]⟩
  | selectPending idle _ made =>
    cases made
    refine ⟨by simp [idle], cleared.writes, ?_⟩
    intro dependent listed record member same
    have pending : dependent ∈ pendingDependents (current.view state.db) := by
      by_cases none : pendingDependents (current.view state.db) = []
      · simp [Tick.pending, none] at listed
      · simpa [Tick.pending, none] using listed
    obtain ⟨seen, present, id, depends, scheduled, _⟩ := mem_pendingDependents.mp pending
    obtain ⟨row, known, rfl⟩ := List.mem_map.mp present
    rw [tickWrite_id] at id
    cases unique_record distinct member known (same.trans id.symm)
    rwa [(view_unwritten scheduled ⟨by decide, by decide⟩).1] at depends
  | @decideDependents pending now _ _ idle stage made =>
    cases made
    refine ⟨?_, cleared.writes, by simp [Tick.pending]⟩
    intro target listed queued
    obtain ⟨dependent, present, decided⟩ := List.mem_filterMap.mp listed
    obtain ⟨change, chosen, rfl⟩ := Option.map_eq_some_iff.mp decided
    exact cleared.release distinct (by simpa [Tick.pending, stage] using present) chosen queued
  | skip =>
    refine ⟨?_, cleared.writes, cleared.pending⟩
    exact fun target listed => cleared.targets target (List.mem_of_mem_erase listed)
  | @write target record chosen =>
    refine ⟨fun other listed => cleared.targets other (List.mem_of_mem_erase listed), ?_,
      cleared.pending⟩
    intro write listed queued
    rcases List.mem_cons.mp listed with rfl | old
    · exact cleared.targets target chosen queued
    · exact cleared.writes write old queued

end Ticks
/-! Commits. -/

section Steps
variable {env : Environment} {state after : System} {sid : Sid} {next : Session} {patch : Patch}

/-- Completed dependencies stay completed, and no new job has the id of one. -/
theorem Db.Done.commit (commits : Commits state sid next patch) (base : Base state)
    (references : References state) {old record : JobRecord} (member : old ∈ state.db.jobs)
    (depends : record.job.dependsOn = old.job.dependsOn) (done : state.db.Done old.job) :
    (state.db.apply patch).Done record.job := by
  intro dep refers other there same
  rw [depends] at refers
  rcases commits.origin there with ⟨seen, present, _, _, move⟩ | ⟨job, inserted, rfl⟩
  · have completed := done dep refers seen present (move.job_id.symm.trans same)
    rcases move.rests (base.sound seen present) (by simp [completed, JobStatus.resting]) with
      kept | ⟨scheduled, _⟩ | ⟨_, write, _, _, _, found, parked, _⟩
    · exact kept.trans completed
    · rw [completed] at scheduled
      cases scheduled
    · rw [found, completed] at parked
      cases parked
  · have below := references.older old member dep refers
    have above := (commits.inserted job inserted).2.1
    exact absurd (same ▸ below) (Nat.not_lt.mpr above)

theorem Db.Cleared.commit (commits : Commits state sid next patch) (base : Base state)
    (references : References state) {jobId : Uuid} (below : jobId < state.nextUuid)
    (cleared : state.db.Cleared jobId) : (state.db.apply patch).Cleared jobId := by
  intro record member same
  rcases commits.origin member with ⟨old, present, _, _, move⟩ | ⟨job, inserted, rfl⟩
  · exact (cleared old present (move.job_id.symm.trans same)).commit commits base references present
      move.dependsOn
  · have above := (commits.inserted job inserted).2.1
    exact absurd (same ▸ below) (Nat.not_lt.mpr above)

theorem Gating.commit (gating : Gating state) (base : Base state) (references : References state)
    (commits : Commits state sid next patch)
    (entered : ∀ job ∈ patch.newJobs, job.Entered state.db state.nextUuid) :
    Gating (state.commit sid next patch) := by
  constructor
  · intro record member gate past alive
    rcases commits.origin member with ⟨old, present, _, _, move⟩ | ⟨job, inserted, rfl⟩
    · refine Db.Done.commit commits base references present move.dependsOn ?_
      by_cases waiting : old.job.status = .scheduled ∨ old.job.status = .cancelled
      · have resting : old.job.status.resting = true := by
          rcases waiting with status | status <;> simp [status, JobStatus.resting]
        rcases move.rests (base.sound old present) resting with
          kept | ⟨_, cancelled⟩ | ⟨current, write, running, listed, same, _, _, written⟩
        · rcases waiting with status | status
          · exact absurd (kept.trans status) past
          · exact absurd (kept.trans status) alive
        · exact absurd cancelled alive
        · refine (gating.ticks sid current running).writes write listed ?_ old present same.symm
          rw [written, Change.write_status] at alive
          cases change : write.change with
          | promote | release => rfl
          | cancel =>
            rw [change] at alive
            exact absurd rfl alive
      · push Not at waiting
        exact gating.gated.done present waiting.1 waiting.2
    · rcases (entered job inserted).status with scheduled | ⟨_, free⟩
      · exact absurd scheduled past
      · rw [free] at gate
        cases gate
  · refine System.update_sessions (fun _ session => ∀ current, session = .tick current →
      current.Cleared (state.db.apply patch)) ?_ ?_
    · intro current ticking
      have leaves := commits.leaves
      rw [ticking] at leaves
      generalize state.sessions sid = session at leaves
      cases leaves
    · intro other _ current ticking
      have cleared := gating.ticks other current ticking
      have selected := base.targets other
      have locked := base.expects other
      rw [ticking] at selected locked
      refine ⟨?_, ?_, ?_⟩
      · intro target listed queued
        have id : target.jobId ∈ (Session.tick current).targetIds :=
          List.mem_append_left _ (List.mem_map.mpr ⟨target, listed, rfl⟩)
        exact (cleared.targets target listed queued).commit commits base references (selected _ id).1
      · intro write listed queued
        obtain ⟨row, present, same, _⟩ := locked write.jobId (List.mem_map.mpr ⟨write, listed, rfl⟩)
        refine (cleared.writes write listed queued).commit commits base references ?_
        rw [← same]
        exact (base.sound row present).id_lt
      · intro dependent listed record member same
        have id : dependent.1 ∈ (Session.tick current).targetIds := by
          refine List.mem_append_right _ ?_
          unfold Tick.pending at listed
          cases stage : current.stage with
          | deciding pending =>
            rw [stage] at listed
            exact List.mem_map.mpr ⟨dependent, listed, rfl⟩
          | _ =>
            rw [stage] at listed
            cases listed
        rcases commits.origin member with ⟨old, present, _, _, move⟩ | ⟨job, inserted, rfl⟩
        · rw [move.dependsOn]
          exact cleared.pending dependent listed old present (move.job_id.symm.trans same)
        · have above := (commits.inserted job inserted).2.1
          exact absurd (same ▸ (selected _ id).1) (Nat.not_lt.mpr above)

theorem Gating.hold (gating : Gating state) (shape : Shape state) {locks : List Lock}
    (advance : Advance env state (state.sessions sid) next locks)
    (ticks : ∀ current, state.sessions sid = .tick current →
      ∃ tick, next = .tick tick ∧ Ticks env state current tick locks) :
    Gating (state.hold sid next locks) := by
  refine ⟨gating.gated, ?_⟩
  refine System.update_sessions (fun _ session => ∀ current, session = .tick current →
    current.Cleared state.db) ?_ fun other _ => gating.ticks other
  intro tick ticking
  rcases advance.tick_origin ticking with ⟨_, now, rfl⟩ | ⟨current, running⟩
  · exact ⟨by simp, by simp, by simp [Tick.pending]⟩
  · obtain ⟨_, same, ticks⟩ := ticks current running
    cases ticking.symm.trans same
    exact ticks.cleared gating shape.distinct (gating.ticks sid current running)

/-- Steps which publish nothing about jobs and start no tick. -/
theorem Gating.relax (gating : Gating state) (jobs : after.db.jobs = state.db.jobs)
    (sessions : ∀ sid current, after.sessions sid = .tick current →
      state.sessions sid = .tick current) : Gating after := by
  have done : ∀ job, after.db.Done job ↔ state.db.Done job := by
    intro job
    rw [Db.Done, Db.Done, jobs]
  have cleared : ∀ jobId, after.db.Cleared jobId ↔ state.db.Cleared jobId := by
    intro jobId
    simp only [Db.Cleared, jobs, done]
  refine ⟨?_, ?_⟩
  · intro record member
    rw [jobs] at member
    rw [done]
    exact gating.gated record member
  · intro sid current ticking
    have before := gating.ticks sid current (sessions sid current ticking)
    refine ⟨?_, ?_, ?_⟩
    · simpa only [cleared] using before.targets
    · simpa only [cleared] using before.writes
    · simpa only [jobs] using before.pending

theorem Gating.rollback (gating : Gating state) (sid : Sid) : Gating (state.rollback sid) := by
  refine gating.relax rfl ?_
  intro other current ticking
  by_cases same : other = sid
  · subst same
    simp at ticking
  · rwa [System.rollback_sessions, Function.update_of_ne same] at ticking

theorem Gating.submit (gating : Gating state) (sid newSid : Sid) (workerId : Uuid) (task : Task)
    (rest : List Task) : Gating (state.handed sid newSid workerId task rest) := by
  refine gating.relax rfl ?_
  refine System.handed_forall (fun other session => ∀ current, session = .tick current →
    state.sessions other = .tick current) ?_ ?_ fun other _ current => id
  · intro current ticking
    cases ticking
  · intro current ticking
    unfold handingOver at ticking
    split at ticking <;> cases ticking

theorem Gating.performs (gating : Gating state) (base : Base state) (references : References state)
    (shape : Shape state) (performs : Performs env state sid after) : Gating after := by
  cases performs with
  | hold advance _ _ ticks => exact gating.hold shape advance ticks
  | commit commits publishes =>
    exact gating.commit base references commits (references.entered shape publishes)
  | rollback => exact gating.rollback sid

theorem Gating.step (gating : Gating state) (fenced : Fenced state) (references : References state)
    (shape : Shape state) {action : Action}
    (taken : Pulse.step env state action = some after) : Gating after := by
  cases step_cases fenced.base (fenced.guards action) taken with
  | begin _ performs | next _ performs =>
    exact gating.performs fenced.base references shape performs
  | fail => exact gating.rollback _
  | submit => exact gating.submit ..
  | exit | reregister => exact gating.relax rfl fun _ _ => id

theorem Gating.reachable (returning : env.handover = .returning)
    (reachable : (pulse env).Reachable anyStep state) : Gating state := by
  have all : Fenced state ∧ Shape state ∧ References state ∧ Gating state := by
    refine @Machine.Reachable.invariant _ _ (pulse env) anyStep
      (fun state => Fenced state ∧ Shape state ∧ References state ∧ Gating state) ?_ ?_ state reachable
    · rintro _ rfl
      refine ⟨initial_fenced, initial_shape, initial_references, ?_, ?_⟩
      · exact fun _ member => nomatch member
      · exact fun _ _ ticking => nomatch ticking
    · rintro earlier action next ⟨fenced, shape, references, gating⟩ _ taken
      exact ⟨fenced.step (returning_hands returning earlier action) taken, shape.step taken,
        references.step shape taken, gating.step fenced references shape taken⟩
  exact all.2.2.2

/-- The first transaction of `_execute` leaves its job running. -/
theorem start_running {input : Input} {task : Task} {executionId : Uuid}
    (starting : state.sessions sid = .starting task)
    (taken : step env state (.next sid input) = some after)
    (handling : after.sessions sid = .handling task executionId) :
    ∀ record ∈ after.db.jobs, record.job.id = task.jobId → record.job.status = .running := by
  obtain ⟨effect, made, performed⟩ := next_effect taken
  rw [starting] at made
  simp only [Session.effect, startEffect] at made
  split at made
  · cases made
  cases Option.some.inj made
  obtain ⟨_, rfl⟩ := System.perform_commit performed
  intro record member same
  rcases mem_apply_jobs.mp member with ⟨old, present, _, rfl⟩ | ⟨job, inserted, _⟩
  · have id : old.job.id = task.jobId :=
      ((onJob_kept (fun record => record.start_kept ..) old).job_id).symm.trans same
    show (onJob task.jobId _ old).job.status = .running
    rw [onJob_same id]
    rfl
  · cases inserted

/-- In every reachable state the existing dependencies of every job which is neither
scheduled nor cancelled have completed, and no handler starts before that. -/
theorem dependencies_gate (returning : env.handover = .returning)
    (reachable : (pulse env).Reachable anyStep state) :
    state.db.Gated ∧ StartsDone env state := by
  refine ⟨(Gating.reachable returning reachable).gated, ?_⟩
  intro sid input task executionId after starting taken handling record member same
  have performed : (pulse env).step state (.next sid input) = some after := taken
  have later : (pulse env).Reachable anyStep after := reachable.extend trivial performed
  have running := start_running starting taken handling record member same
  exact (Gating.reachable returning later).gated.done member (by simp [running]) (by simp [running])

end Steps

/-- Two jobs, the second of which depends on the first: the first is executed, a tick
releases the second, and the worker is about to start it. -/
def releasedByTick : List Action := executedOnce.take 4 ++ [
  .begin 0 (.api 0 (.createJob
    { queueId := 1, type := .immediate, handler := "noop", dependsOn := some [8] }))] ++
  executedOnce.drop 4 ++ [
  .next 10 {},
  .next 10 {},
  .begin 2 (.tick 0),
  .next 2 {},
  .next 2 {},
  .next 2 {},
  .next 2 {},
  .next 2 {},
  .next 2 { jobId := 17 },
  .next 2 {},
  .begin 1 (.claimJobs 1 2 1 0),
  .next 1 { picked := [17] },
  .next 1 {},
  .next 1 {},
  .submit 1 11,
  .next 11 {}]

theorem dependencies_gate_released : ∃ state,
    (pulse (sample .returning)).Reachable anyStep state ∧
    (∃ task, state.sessions 11 = .starting task ∧ task.jobId = 17) ∧
    (∃ record ∈ state.db.jobs, record.job.dependsOn = some [8] ∧ record.job.status = .claimed) ∧
    state.db.Gated ∧ StartsDone (sample .returning) state := by
  have ran : ((pulse (sample .returning)).run anyStep {} releasedByTick).any (fun state =>
      state.sessions 11 = .starting ⟨2, 17, some 9175057, 1, 9175057⟩ &&
      state.db.jobs.any fun record =>
        record.job.dependsOn = some [8] && record.job.status = .claimed) = true := by
    decide +kernel
  obtain ⟨state, reachable, passes⟩ := Machine.reachable_of_check rfl releasedByTick ran
  simp only [Bool.and_eq_true, List.any_eq_true, decide_eq_true_eq] at passes
  obtain ⟨starts, claimed⟩ := passes
  exact ⟨state, reachable, ⟨_, starts, rfl⟩, claimed, dependencies_gate rfl reachable⟩

end Pulse
