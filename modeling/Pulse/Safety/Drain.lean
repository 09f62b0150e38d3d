import Pulse.Drain.Process
import Pulse.Safety.Serving

/-! A worker which shuts down records the outcomes of the handlers which return within its
grace period, and no reaper takes its jobs until then. -/
namespace Pulse
open Library.RowLock Library.Lts

/-- A claim of the worker or the run of one of its jobs is under way. -/
def Session.works (workerId : Uuid) : Session → Bool
  | .workerLoaded _ _ _ => false
  | session => session.worker = some workerId

/-- The claim whose handler has returned and whose outcome is not recorded yet. -/
def Session.settles : Session → Option Uuid
  | .returned task _ _ _ | .finishing task _ _ _ => some task.written
  | _ => none

section Sessions
variable {env : Environment} {state after : System} {workerId token : Uuid} {sid : Sid}
  {session next : Session} {locks : List Lock} {patch : Patch}

theorem Session.settles_works (settling : session.settles = some token)
    (own : session.worker = some workerId) : session.works workerId = true := by
  cases session with
  | returned | finishing => simpa [Session.works] using own
  | _ => cases settling

theorem handingOver_works {own : Uuid} {tasks : List Task}
    (working : (handingOver own tasks).works workerId = true) : own = workerId := by
  unfold handingOver at working
  split at working
  · cases working
  · simpa [Session.works, Session.worker] using working

/-- A session keeps the worker for which it works. -/
theorem Advance.works (advance : Advance env state session next locks)
    (begun : session ≠ .idle) (working : next.works workerId = true) :
    session.works workerId = true := by
  cases advance with
  | lockClaims | tryReaper | tryTick | lockCancel | lockRetry | lockLetter | loadWorker =>
    exact absurd rfl begun
  | select => simpa [Session.works, Session.worker] using handingOver_works working
  | claim | passFirst | handled | passSecond => exact working
  | _ => cases working

theorem Closes.works (closes : Closes env state session next patch)
    (working : next.works workerId = true) : session.works workerId = true := by
  cases closes with
  | claim =>
    split at working
    · cases working
    · exact working
  | start => exact working
  | _ => cases working

/-- A worker's work begins with a claim. -/
theorem Request.works {request : Request}
    (made : request.effect env state sid = some (.hold next locks))
    (working : next.works workerId = true) :
    ∃ queueId limit now, request = .claimJobs queueId workerId limit now := by
  cases request with
  | claimJobs queueId own limit now =>
    simp only [Request.effect] at made
    split at made
    · cases Option.some.inj made
      cases (by simpa [Session.works, Session.worker] using working : own = workerId)
      exact ⟨queueId, limit, now, rfl⟩
    · cases made
  | updateWorker =>
    simp only [Request.effect] at made
    split at made
    · split at made
      · cases Option.some.inj made
        cases working
      · cases made
    · cases made
  | reaper | tick =>
    simp only [Request.effect, tryLock, Option.some.injEq] at made
    split at made
    · cases made
    · cases made
      cases working
  | cancelJob | retryJob =>
    obtain ⟨rfl, _⟩ := lockJob_hold made
    cases working
  | replayDlqEntry =>
    obtain ⟨owner, rfl⟩ := lockLetter_hold made
    cases working
  | api now call => exact absurd (Option.some.inj made) ApiCall.effect_ends

/-- While the worker claims nothing, no other of its sessions sets to work. -/
theorem step_works (shape : Shape state) (staffed : Staffed state) {action : Action}
    (claims : ∀ sid queueId limit now, action ≠ .begin sid (.claimJobs queueId workerId limit now))
    (resting : ∀ sid, (state.sessions sid).works workerId = false)
    (taken : step env state action = some after) :
    ∀ sid, (after.sessions sid).works workerId = false := by
  have others : ∀ {sid next}, (next.works workerId = true → (state.sessions sid).works workerId = true) →
      ∀ other, (Function.update state.sessions sid next other).works workerId = false := by
    intro sid next kept
    refine System.update_sessions (fun _ session => session.works workerId = false) ?_
      fun other _ => resting other
    rw [← Bool.not_eq_true]
    intro working
    rw [resting sid] at kept
    exact Bool.false_ne_true (kept working)
  cases step_inverted taken with
  | @begin sid request effect _ idle made performed =>
    cases effect with
    | hold next locks =>
      obtain ⟨_, rfl⟩ := System.perform_hold performed
      refine others fun working => ?_
      obtain ⟨queueId, limit, now, rfl⟩ := Request.works made working
      exact absurd rfl (claims sid queueId limit now)
    | commit next locks patch =>
      obtain ⟨_, rfl⟩ := System.perform_commit performed
      obtain ⟨_, _, _, rfl, _⟩ := Request.effect_closes made
      exact others nofun
    | rollback =>
      cases Option.some.inj performed
      exact others nofun
  | @next sid input effect _ _ made performed =>
    cases effect with
    | hold next locks =>
      obtain ⟨_, rfl⟩ := System.perform_hold performed
      refine others ((Session.effect_advance shape.distinct made).works ?_)
      intro idle
      rw [idle] at made
      cases made
    | commit next locks patch =>
      obtain ⟨_, rfl⟩ := System.perform_commit performed
      exact others (Session.effect_closes made).works
    | rollback =>
      cases Option.some.inj performed
      exact others nofun
  | fail => exact others nofun
  | @submit sid newSid own task rest handing =>
    have ours := staffed sid own _ handing task List.mem_cons_self
    have rested := resting sid
    rw [handing] at rested
    refine System.handed_forall (fun _ session => session.works workerId = false) ?_ ?_
      fun other _ => resting other
    · simpa [Session.works, Session.worker, ours] using rested
    · rw [← Bool.not_eq_true]
      intro working
      cases handingOver_works working
      simp [Session.works, Session.worker] at rested
  | exit | reregister => exact resting

/-- The guard of a claim which is still owed passes. -/
theorem Served.loads (served : Served workerId state) (fenced : Fenced state) {task : Task}
    {executionId : Uuid} {durationMs : Int} {outcome : Outcome}
    (returned : state.sessions sid = .returned task executionId durationMs outcome)
    (own : task.workerId = workerId) :
    (loadForTransition state.db task.jobId task.token).isSome = true := by
  have carried := fenced.carries sid
  have owed : task.written ∈ (state.sessions sid).owed := by
    rw [returned]
    exact List.mem_singleton_self _
  obtain ⟨record, member, held, known⟩ := served.guard fenced owed (by rw [returned, ← own]; rfl)
  rw [returned] at carried known
  refine List.find?_isSome.mpr ⟨record, member, ?_⟩
  have token : task.token = some task.written := carried
  simp [token, held, known.2.1]

/-- A claim of the worker stays unsettled until its session records it. -/
theorem Served.settles (served : Served workerId state) (fenced : Fenced state) {action : Action}
    (serves : Sustains env workerId state action) (taken : Pulse.step env state action = some after)
    (own : (state.sessions sid).worker = some workerId)
    (settling : (state.sessions sid).settles = some token) :
    ((after.sessions sid).worker = some workerId ∧ (after.sessions sid).settles = some token) ∨
      ∃ input task executionId durationMs outcome, action = .next sid input ∧
        state.sessions sid = .finishing task executionId durationMs outcome ∧
        task.workerId = workerId ∧ task.written = token := by
  by_cases about : sid ∈ action.sids
  · cases action with
    | begin other request =>
      cases List.mem_singleton.mp about
      cases step_inverted taken with
      | begin idle =>
        rw [idle] at own
        cases own
    | next other input =>
      cases List.mem_singleton.mp about
      obtain ⟨effect, made, performed⟩ := next_effect taken
      cases running : state.sessions sid with
      | returned task executionId durationMs outcome =>
        rw [running] at own settling made
        have ours : task.workerId = workerId := Option.some.inj own
        have loads := served.loads fenced running ours
        simp only [Session.effect, guarded, Option.some.injEq] at made
        split at made
        · subst made
          obtain ⟨_, rfl⟩ := System.perform_hold performed
          left
          rw [System.hold_sessions, Function.update_self]
          exact ⟨own, settling⟩
        · rename_i missing
          rw [missing] at loads
          cases loads
      | finishing task executionId durationMs outcome =>
        rw [running] at own settling
        exact .inr ⟨input, task, executionId, durationMs, outcome, rfl, rfl, Option.some.inj own,
          Option.some.inj settling⟩
      | _ =>
        rw [running] at settling
        cases settling
    | fail other =>
      cases List.mem_singleton.mp about
      exact absurd own serves
    | submit first second =>
      cases step_inverted taken with
      | submit handing idle =>
        rcases List.mem_pair.mp about with rfl | rfl
        · rw [handing] at settling
          cases settling
        · rw [idle] at settling
          cases settling
    | exit | reregister => cases about
  · left
    rw [step_other taken about]
    exact ⟨own, settling⟩

end Sessions

namespace Drain

/-- The worker's sessions do not fail. -/
def Healthy (workerId : Uuid) (pair : System × Process) : Move → Prop
  | .act (.fail sid) => (pair.1.sessions sid).worker ≠ some workerId
  | _ => True

/-- Until the process sets itself dead, reapers find its heartbeat within the visibility
timeout; when it does, no outcome is still to be recorded, and unless the grace period is
over no work is left. -/
def StaysFresh (env : Environment) (settings : WorkerSettings) (workerId : Uuid)
    (pair : System × Process) : Move → Prop
  | .act action => HandsOwn env pair.1 action ∧
      (pair.2.shutdown.active = true → Sustains env workerId pair.1 action)
  | .retire _ => ∀ sid, (pair.1.sessions sid).works workerId = true →
      (pair.1.sessions sid).settles = none ∧ pair.2.inGrace settings = false
  | _ => True

instance (workerId : Uuid) (pair : System × Process) :
    (move : Move) → Decidable (Healthy workerId pair move)
  | .act (.fail _) => inferInstanceAs (Decidable (_ ≠ _))
  | .act (.begin ..) | .act (.next ..) | .act (.submit ..) | .act (.exit ..)
  | .act (.reregister ..) | .pass _ | .start | .beat _ | .heard | .again | .stop _ | .wait
  | .retire _ | .leave => isTrue trivial

/-- Until the process sets itself dead, no reaper takes a job of the worker, and the job of
each claim still carries its token; a handler which returns within the grace period has its
outcome recorded, or is about to until then. -/
structure Drained (workerId : Uuid) (state : System) (process : Process) : Prop where
  spared : process.shutdown.active = true → ∀ sid, ∀ id ∈ (state.sessions sid).sweeps,
    ∀ record ∈ state.db.jobs, record.job.id = id → record.job.workerId ≠ some workerId
  held : process.shutdown.active = true → ∀ sid, (state.sessions sid).worker = some workerId →
    ∀ token ∈ (state.sessions sid).owed, ∃ record ∈ state.db.jobs,
      record.job.lockToken = some token ∧ record.job.workerId = some workerId
  recorded : ∀ token ∈ process.inTime, token ∈ process.recorded ∨
    (process.shutdown.active = true ∧ ∃ sid, (state.sessions sid).worker = some workerId ∧
      (state.sessions sid).settles = some token)

structure Draining (settings : WorkerSettings) (workerId : Uuid) (state : System)
    (process : Process) : Prop where
  fenced : Fenced state
  shape : Shape state
  staffed : Staffed state
  served : process.shutdown.active = true → Served workerId state
  recorded : ∀ token ∈ process.inTime, token ∈ process.recorded ∨
    (process.shutdown.active = true ∧ ∃ sid, (state.sessions sid).worker = some workerId ∧
      (state.sessions sid).settles = some token)
  spent : process.shutdown.active = false → process.inGrace settings = false ∨
    ∀ sid, (state.sessions sid).works workerId = false

section Runs
variable {env : Environment} {settings : WorkerSettings} {workerId : Uuid} {state after : System}
  {process later : Process}

theorem Draining.drained (draining : Draining settings workerId state process) :
    Drained workerId state process :=
  ⟨fun active sid => ((draining.served active).sessions sid).sweeps,
    fun active sid => ((draining.served active).sessions sid).owned, draining.recorded⟩

/-- The process goes on while the system stands. -/
theorem Draining.relax (draining : Draining settings workerId state process)
    (older : process.now ≤ later.now) (started : later.shutdown.started = process.shutdown.started)
    (active : later.shutdown.active = process.shutdown.active)
    (inTime : later.inTime = process.inTime) (recorded : later.recorded = process.recorded) :
    Draining settings workerId state later := by
  refine ⟨draining.fenced, draining.shape, draining.staffed, ?_, ?_, ?_⟩
  · rw [active]
    exact draining.served
  · rw [active, inTime, recorded]
    exact draining.recorded
  · rw [active]
    intro ended
    rcases draining.spent ended with elapsed | resting
    · left
      rw [← Bool.not_eq_true] at elapsed ⊢
      exact fun inGrace => elapsed (Process.inGrace_of_later started older inGrace)
    · exact .inr resting

/-- A step of the system, of whatever part, keeps what the process relies on. -/
theorem Draining.engine (draining : Draining settings workerId state process) {action : Action}
    (hands : HandsOwn env state action)
    (serves : process.shutdown.active = true → Sustains env workerId state action)
    (claims : ∀ sid queueId limit now, action = .begin sid (.claimJobs queueId workerId limit now) →
      process.shutdown.active = true)
    (taken : Pulse.step env state action = some after)
    (finishes : ∀ sid input task executionId durationMs outcome, action = .next sid input →
      state.sessions sid = .finishing task executionId durationMs outcome →
        task.workerId = workerId → task.written ∈ later.recorded)
    (kept : process.recorded ⊆ later.recorded)
    (inTime : ∀ token ∈ later.inTime, token ∈ process.inTime ∨ (process.shutdown.active = true ∧
      ∃ sid, (after.sessions sid).worker = some workerId ∧
        (after.sessions sid).settles = some token))
    (now : later.now = process.now) (started : later.shutdown.started = process.shutdown.started)
    (active : later.shutdown.active = process.shutdown.active) :
    Draining settings workerId after later := by
  obtain ⟨fenced, shape, staffed, served, recorded, spent⟩ := draining
  refine ⟨fenced.step hands taken, shape.step taken, staffed.step shape taken, ?_, ?_, ?_⟩
  · rw [active]
    exact fun serving => (served serving).step fenced shape staffed (serves serving) taken
  · rw [active]
    intro token listed
    rcases inTime token listed with old | new
    · rcases recorded token old with written | ⟨serving, sid, own, settling⟩
      · exact .inl (kept written)
      rcases (served serving).settles fenced (serves serving) taken own settling with
        still | ⟨input, task, executionId, durationMs, outcome, same, finishing, ours, rfl⟩
      · exact .inr ⟨serving, sid, still⟩
      · exact .inl (finishes sid input task executionId durationMs outcome same finishing ours)
    · exact .inr new
  · rw [active]
    intro ended
    rcases spent ended with elapsed | resting
    · left
      rw [← Bool.not_eq_true] at elapsed ⊢
      exact fun inGrace => elapsed (Process.inGrace_of_later started now.ge inGrace)
    · right
      refine step_works shape staffed ?_ resting taken
      intro sid queueId limit time same
      rw [claims sid queueId limit time same] at ended
      cases ended

theorem handling_returned {sid : Sid} {input : Input} {task : Task} {executionId : Uuid}
    (handling : state.sessions sid = .handling task executionId)
    (taken : Pulse.step env state (.next sid input) = some after) :
    after.sessions sid = .returned task executionId input.durationMs input.outcome := by
  obtain ⟨effect, made, performed⟩ := next_effect taken
  rw [handling] at made
  cases Option.some.inj made
  obtain ⟨_, rfl⟩ := System.perform_hold performed
  exact Function.update_self ..

theorem Draining.act (draining : Draining settings workerId state process) {action : Action}
    (fresh : StaysFresh env settings workerId (state, process) (.act action))
    (permitted : process.permits workerId state action = true)
    (taken : Pulse.step env state action = some after) :
    Draining settings workerId after (process.note settings workerId state action) := by
  obtain ⟨now, shutdown⟩ := @Process.note_frame settings workerId state process action
  obtain ⟨kept, finishes⟩ := @Process.note_recorded settings workerId state process action
  refine draining.engine fresh.1 fresh.2 ?_ taken finishes kept ?_ now (by rw [shutdown])
    (by rw [shutdown])
  · intro sid queueId limit time same
    simp only [same, Process.permits, ne_eq, not_true_eq_false, decide_false, Bool.false_or,
      decide_eq_true_eq] at permitted
    simp [permitted, Shutdown.active]
  · intro token listed
    rcases Process.note_inTime listed with
      old | ⟨sid, input, task, executionId, rfl, handling, own, inGrace, rfl⟩
    · exact .inl old
    · right
      constructor
      · by_contra ended
        rcases draining.spent (Bool.eq_false_iff.mpr ended) with elapsed | resting
        · rw [inGrace] at elapsed
          cases elapsed
        · have rested := resting sid
          simp [handling, Session.works, Session.worker, own] at rested
      · refine ⟨sid, ?_⟩
        rw [handling_returned handling taken]
        exact ⟨congrArg some own, rfl⟩

/-- The process begins an update of its row and serves on. -/
theorem Draining.update (draining : Draining settings workerId state process) {sid : Sid}
    {update : WorkerUpdate} (serving : update ≠ .retire)
    (taken : Pulse.step env state (.begin sid (.updateWorker workerId update)) = some after) :
    Draining settings workerId after process := by
  have hands : HandsOwn env state (.begin sid (.updateWorker workerId update)) := trivial
  exact draining.engine hands (fun _ _ => serving) (by simp) taken (by simp) (fun _ => id)
    (fun _ => .inl) rfl rfl rfl

theorem Draining.retire (draining : Draining settings workerId state process) {sid : Sid}
    {started called : Time} {tasks : List RunningTask}
    (waiting : process.shutdown = .waiting started called tasks)
    (fresh : StaysFresh env settings workerId (state, process) (.retire sid))
    (taken : Pulse.step env state (.begin sid (.updateWorker workerId .retire)) = some after) :
    Draining settings workerId after { process with shutdown := .retiring sid started } := by
  obtain ⟨fenced, shape, staffed, _, recorded, _⟩ := draining
  have hands : HandsOwn env state (.begin sid (.updateWorker workerId .retire)) := trivial
  refine ⟨fenced.step hands taken, shape.step taken, staffed.step shape taken, nofun, ?_, ?_⟩
  · intro token listed
    rcases recorded token listed with written | ⟨_, other, own, settling⟩
    · exact .inl written
    · obtain ⟨settled, _⟩ := fresh other (Session.settles_works settling own)
      rw [settled] at settling
      cases settling
  · intro _
    by_cases resting : ∀ other, (state.sessions other).works workerId = false
    · exact .inr (step_works shape staffed (by simp) resting taken)
    · left
      push Not at resting
      obtain ⟨other, working⟩ := resting
      have elapsed := (fresh other (by simpa using working)).2
      simpa [Process.inGrace, waiting, Shutdown.started] using elapsed

theorem Draining.step (draining : Draining settings workerId state process) {move : Move}
    (fresh : StaysFresh env settings workerId (state, process) move)
    (taken : Drain.step env settings workerId (state, process) move = some (after, later)) :
    Draining settings workerId after later := by
  cases step_moved taken with
  | pass forward =>
    exact draining.relax (le_add_of_nonneg_right forward) rfl rfl rfl rfl
  | act permitted stepped => exact draining.act fresh permitted stepped
  | rest started active => exact draining.relax (le_refl _) started active rfl rfl
  | beat stepped =>
    have serves : process.heartbeat state ≠ .retire := by simp [Process.heartbeat]
    exact (draining.update serves stepped).relax (le_refl _) rfl rfl rfl rfl
  | stop serving stepped =>
    have active : process.shutdown.active = true := by simp [serving, Shutdown.active]
    obtain ⟨fenced, shape, staffed, served, recorded, _⟩ := draining.update (by simp) stepped
    refine ⟨fenced, shape, staffed, fun _ => served active, ?_, by simp [Shutdown.active]⟩
    rw [active] at recorded
    exact recorded
  | retire waiting stepped => exact draining.retire waiting fresh stepped
  | leave retiring stepped =>
    have hands : HandsOwn env state (.exit workerId) := trivial
    refine draining.engine hands (fun _ => trivial) (by simp) stepped (by simp) (fun _ => id)
      (fun _ => .inl) rfl ?_ ?_
    · simp [retiring, Shutdown.started]
    · simp [retiring, Shutdown.active]

theorem initial_draining (now : Time) : Draining settings workerId {} { now } :=
  ⟨initial_fenced, initial_shape, nofun, fun _ => initial_served, nofun, nofun⟩

end Runs

/-! Runs: a worker which has claimed one job, serves a heartbeat later and drains. -/

/-- Steps before the process sets itself dead. -/
def Waits (env : Environment) (workerId : Uuid) (pair : System × Process) : Move → Prop
  | .act action => HandsOwn env pair.1 action ∧ Sustains env workerId pair.1 action
  | .retire _ => False
  | _ => True

instance (env : Environment) (workerId : Uuid) (pair : System × Process) :
    (move : Move) → Decidable (Waits env workerId pair move)
  | .act _ => inferInstanceAs (Decidable (_ ∧ _))
  | .retire _ => isFalse id
  | .pass _ | .start | .beat _ | .heard | .again | .stop _ | .wait | .leave => isTrue trivial

theorem Waits.fresh {env : Environment} {settings : WorkerSettings} {workerId : Uuid}
    {pair : System × Process} {move : Move} (waits : Waits env workerId pair move) :
    StaysFresh env settings workerId pair move := by
  cases move with
  | act => exact ⟨waits.1, fun _ => waits.2⟩
  | retire => exact waits.elim
  | _ => trivial

/-- The handler of the only job runs when the first heartbeat is written. -/
def served : List Move := [
  .act (.begin 0 (.api 0 (.createQueue { projectId := 0, name := "default" }))),
  .act (.begin 0 (.api 0 .registerWorker)),
  .act (.begin 0 (.api 0 (.createJob { queueId := 1, type := .immediate, handler := "sleep" }))),
  .start,
  .act (.begin 1 (.claimJobs 1 2 1 0)),
  .act (.next 1 { picked := [4] }),
  .act (.next 1 {}),
  .act (.next 1 {}),
  .act (.submit 1 10),
  .act (.next 10 {}),
  .act (.next 10 {}),
  .pass 5,
  .beat 7,
  .act (.next 7 { now := 5 }),
  .heard]

/-- A reaper takes the jobs of the workers which it finds silent. -/
def reaped (now : Time) : List Move := [
  .act (.begin 9 .reaper),
  .act (.next 9 { now }),
  .act (.next 9 {}),
  .act (.next 9 {}),
  .act (.next 9 {}),
  .act (.next 9 {})]

/-- The handler returns, and its outcome is recorded or discarded. -/
def returns : List Move := [.act (.next 10 {}), .act (.next 10 {})]

/-- An outcome in time which the process has left behind. -/
theorem not_drained {workerId : Uuid} {pair : System × Process}
    (lost : (pair.2.inTime.any (· ∉ pair.2.recorded) && !pair.2.shutdown.active) = true) :
    ¬ Drained workerId pair.1 pair.2 := by
  intro drained
  simp only [Bool.and_eq_true, List.any_eq_true, decide_eq_true_eq, Bool.not_eq_true'] at lost
  obtain ⟨⟨token, listed, missing⟩, ended⟩ := lost
  rcases drained.recorded token listed with written | ⟨active, _⟩
  · exact missing written
  · rw [ended] at active
    cases active

/-- With the default settings: the shutdown begins while the loop ensures its listener, two
seconds after the last heartbeat. -/
theorem drain_mistaken_default : ∃ pair, (draining (sample .returning) {} 2).Reachable
    (Healthy 2) pair ∧ ¬ Drained 2 pair.1 pair.2 := by
  have ran : ((draining (sample .returning) {} 2).run (Healthy 2) ({}, { now := 0 })
      (served ++ [.pass 2, .stop 8, .act (.next 8 {}), .wait, .again, .pass 29] ++ reaped 36 ++
        [.pass 1] ++ returns ++ [.retire 8])).any (fun pair =>
      pair.2.inTime.any (· ∉ pair.2.recorded) && !pair.2.shutdown.active) = true := by
    decide +kernel
  obtain ⟨pair, reachable, passes⟩ := Machine.reachable_of_check (by exact ⟨rfl, 0, rfl⟩) _ ran
  exact ⟨pair, reachable, not_drained passes⟩

end Drain

end Pulse
