import Pulse.System.Shape

/-! The invariant along a run. -/
namespace Pulse
open Library.RowLock Library.Lts

/-- No `_execute` whose `Job` object carries a null token passes its first guard. -/
def GuardsToken (state : System) : Action → Prop
  | .next sid _ => match state.sessions sid with
    | .execute task =>
      task.token = none → loadForTransition state.db task.jobId task.token = none
    | _ => True
  | _ => True

def Session.executing : Session → Option Task
  | .execute task => some task
  | _ => none

instance (state : System) : (action : Action) → Decidable (GuardsToken state action)
  | .next sid _ => decidable_of_iff (∀ task ∈ (state.sessions sid).executing,
      task.token = none → loadForTransition state.db task.jobId task.token = none) (by
    cases stage : state.sessions sid <;> simp [GuardsToken, stage, Session.executing])
  | .begin .. | .fail .. | .submit .. | .exit .. | .reregister .. => isTrue trivial

/-- The three ways in which a statement of a session ends. -/
inductive Performs (env : Environment) (state : System) (sid : Sid) : System → Prop where
  | hold {next locks} (advance : Advance env state (state.sessions sid) next locks)
      (guards : Advance.Guards (state.sessions sid) next)
      (free : locks.any (state.waits sid) = false)
      (ticks : ∀ current, state.sessions sid = .tick current →
        ∃ tick, next = .tick tick ∧ Ticks env state current tick locks) :
      Performs env state sid (state.hold sid next locks)
  | commit {next patch} (commits : Commits state sid next patch)
      (publishes : Publishes env state sid next patch) :
      Performs env state sid (state.commit sid next patch)
  | rollback : Performs env state sid (state.rollback sid)

/-- What one step of the system does. -/
inductive Stepped (env : Environment) (state : System) : Action → System → Prop where
  | begin {sid request after} (idle : state.sessions sid = .idle)
      (performs : Performs env state sid after) : Stepped env state (.begin sid request) after
  | next {sid input after}
      (running : ∀ workerId, (state.sessions sid).worker = some workerId → state.live workerId)
      (performs : Performs env state sid after) : Stepped env state (.next sid input) after
  | fail {sid} (stopped : (state.sessions sid).fallible = true ∨
      ∃ workerId, (state.sessions sid).worker = some workerId ∧ ¬ state.live workerId) :
      Stepped env state (.fail sid) (state.rollback sid)
  | submit {sid newSid workerId task rest}
      (handing : state.sessions sid = .handing workerId (task :: rest))
      (idle : state.sessions newSid = .idle) (different : sid ≠ newSid)
      (live : state.live workerId) :
      Stepped env state (.submit sid newSid) (state.handed sid newSid workerId task rest)
  | exit {workerId} (acting : state.acting workerId) (known : workerId < state.nextUuid) :
      Stepped env state (.exit workerId) { state with exited := workerId :: state.exited }
  | reregister {former now} (acting : state.acting former) (known : former < state.nextUuid)
      (missing : state.db.findWorker former = none) :
      Stepped env state (.reregister former now) (state.reregister former now)

section Steps
variable {env : Environment} {state after : System} {sid : Sid}

theorem begin_performs (base : Base state) {request : Request}
    (taken : step env state (.begin sid request) = some after) :
    Performs env state sid after := by
  simp only [step] at taken
  split at taken
  · rename_i idle
    obtain ⟨effect, made, performed⟩ := Option.bind_eq_some_iff.mp taken
    cases effect with
    | hold next locks =>
      obtain ⟨free, rfl⟩ := System.perform_hold performed
      refine .hold ?_ ?_ free ?_
      · rw [idle]
        exact Request.effect_advance made
      · intro task running
        rw [idle] at running
        cases running
      · intro current running
        rw [idle] at running
        cases running
    | commit next locks patch =>
      obtain ⟨free, rfl⟩ := System.perform_commit performed
      exact .commit (Request.effect_commits base idle made free)
        (Request.effect_publishes idle made free)
    | rollback =>
      cases Option.some.inj performed
      exact .rollback
  · cases taken

theorem next_effect {input : Input} (taken : step env state (.next sid input) = some after) :
    ∃ effect, (state.sessions sid).effect env state sid input = some effect ∧
      state.perform sid effect = some after := by
  simp only [step] at taken
  split at taken
  · exact Option.bind_eq_some_iff.mp taken
  · cases taken

theorem next_performs (base : Base state) {input : Input}
    (guards : GuardsToken state (.next sid input))
    (taken : step env state (.next sid input) = some after) : Performs env state sid after := by
  obtain ⟨effect, made, performed⟩ := next_effect taken
  cases effect with
  | hold next locks =>
    obtain ⟨free, rfl⟩ := System.perform_hold performed
    refine .hold (Session.effect_advance base.distinct made) ?_ free ?_
    · intro task running starts
      simp only [GuardsToken, running] at guards
      rw [running] at made
      simp only [Session.effect, guarded, Option.some.injEq] at made
      split at made
      · rename_i found
        cases token : task.token with
        | none =>
          rw [guards token] at found
          cases found
        | some _ => rfl
      · cases made
    · intro current running
      rw [running] at made
      exact tickEffect_ticks made
  | commit next locks patch =>
    obtain ⟨_, rfl⟩ := System.perform_commit performed
    exact .commit (Session.effect_commits base made) (Session.effect_publishes made)
  | rollback =>
    cases Option.some.inj performed
    exact .rollback

theorem step_cases (base : Base state) {action : Action} (guards : GuardsToken state action)
    (taken : step env state action = some after) : Stepped env state action after := by
  cases step_inverted taken with
  | begin idle => exact .begin idle (begin_performs base taken)
  | next running => exact .next running (next_performs base guards taken)
  | fail stopped => exact .fail stopped
  | submit handing idle different live => exact .submit handing idle different live
  | exit acting known => exact .exit acting known
  | reregister acting known missing => exact .reregister acting known missing

/-- A stage which relies on no lock and no row. -/
def Session.Quiet (bound : Uuid) (session : Session) : Prop :=
  session.locks = [] ∧ session.rows = [] ∧ session.replays = none ∧ session.targetIds = [] ∧
    session.Armed ∧ ∀ token ∈ session.tokens, token < bound

theorem Session.idle_quiet (bound : Uuid) : Session.idle.Quiet bound :=
  ⟨rfl, rfl, rfl, rfl, trivial, fun _ member => nomatch member⟩

theorem handingOver_quiet {bound workerId : Uuid} {tasks : List Task}
    (older : ∀ task ∈ tasks, task.written < bound) :
    (handingOver workerId tasks).Quiet bound := by
  obtain ⟨locks, rows, replays, targetIds, armed⟩ := handingOver_locks workerId tasks
  refine ⟨locks, rows, replays, targetIds, armed, ?_⟩
  intro token member
  rw [handingOver_tokens] at member
  obtain ⟨task, listed, rfl⟩ := List.mem_map.mp member
  exact older task listed

/-- Steps which publish nothing about jobs: every session stays as it was, with its
locks, or becomes quiet. -/
theorem Base.relax (base : Base state) (jobs : after.db.jobs = state.db.jobs)
    (policies : after.db.retryPolicies = state.db.retryPolicies)
    (grows : state.nextUuid ≤ after.nextUuid) (compatible : Compatible after.grants)
    (sessions : ∀ sid, (after.sessions sid).Quiet after.nextUuid ∨
      (after.sessions sid = state.sessions sid ∧ ∀ lock, Holds state.grants sid lock →
        Holds after.grants sid lock)) : Base after := by
  refine ⟨Nat.lt_of_lt_of_le base.positive grows, compatible, ?_, by rw [jobs]; exact base.distinct,
    ?_, ?_, ?_, ?_, ?_, ?_, by rw [policies]; exact base.policies⟩
  · intro sid lock member
    rcases sessions sid with ⟨locks, _⟩ | ⟨same, kept⟩
    · simp [locks] at member
    · rw [same] at member
      exact kept lock (base.granted sid lock member)
  · intro record member
    rw [jobs] at member
    exact (base.sound record member).mono grows
  · intro sid id locked
    rcases sessions sid with ⟨_, rows, _⟩ | ⟨same, _⟩
    · simp [rows] at locked
    · rw [same] at locked ⊢
      rw [jobs]
      exact base.expects sid id locked
  · intro sid entryId jobId replay
    rcases sessions sid with ⟨_, _, replays, _⟩ | ⟨same, _⟩
    · simp [replays] at replay
    · rw [same] at replay
      rw [jobs]
      exact base.replays sid entryId jobId replay
  · intro sid id selected
    rcases sessions sid with ⟨_, _, _, targetIds, _⟩ | ⟨same, _⟩
    · simp [targetIds] at selected
    · rw [same] at selected
      rw [jobs]
      obtain ⟨below, parked⟩ := base.targets sid id selected
      exact ⟨Nat.lt_of_lt_of_le below grows, parked⟩
  · intro sid
    rcases sessions sid with ⟨_, _, _, _, armed, _⟩ | ⟨same, _⟩
    · exact armed
    · rw [same]
      exact base.armed sid
  · intro sid token member
    rcases sessions sid with ⟨_, _, _, _, _, tokens⟩ | ⟨same, _⟩
    · exact tokens token member
    · rw [same] at member
      exact Nat.lt_of_lt_of_le (base.tokens sid token member) grows

/-- A session which gives up its transaction leaves the rest as it was. -/
theorem Base.rollback (base : Base state) : Base (state.rollback sid) := by
  refine base.relax rfl rfl (Nat.le_refl _) (base.compatible.release sid) ?_
  intro other
  by_cases same : other = sid
  · subst same
    left
    simpa using Session.idle_quiet _
  · right
    exact ⟨Function.update_of_ne same .., fun lock held => held.release same⟩

theorem Base.performs (base : Base state) (performs : Performs env state sid after) :
    Base after := by
  cases performs with
  | hold advance guards free => exact base.hold advance guards free
  | commit commits => exact base.commit commits
  | rollback => exact base.rollback

theorem Base.submit (base : Base state) {newSid : Sid} {workerId : Uuid} {task : Task}
    {rest : List Task} (handing : state.sessions sid = .handing workerId (task :: rest)) :
    Base (state.handed sid newSid workerId task rest) := by
  have older := base.tokens sid
  rw [handing] at older
  refine base.relax rfl rfl (Nat.le_refl _) base.compatible ?_
  refine System.handed_forall (fun other session => session.Quiet state.nextUuid ∨
    (session = state.sessions other ∧ ∀ lock, Holds state.grants other lock →
      Holds state.grants other lock)) (.inl ?_) (.inl ?_) fun other _ => .inr ⟨rfl, fun _ => id⟩
  · refine ⟨rfl, rfl, rfl, rfl, trivial, ?_⟩
    intro token member
    rw [List.mem_singleton.mp member]
    exact older task.written List.mem_cons_self
  · exact handingOver_quiet fun task listed =>
      older task.written (List.mem_map.mpr ⟨task, List.mem_cons_of_mem _ listed, rfl⟩)

theorem initial_base : Base {} where
  positive := Nat.one_pos
  compatible := compatible_nil
  granted := fun _ _ member => nomatch member
  distinct := List.nodup_nil
  sound := fun _ member => nomatch member
  expects := fun _ _ member => nomatch member
  replays := fun _ _ _ replay => nomatch replay
  targets := fun _ _ member => nomatch member
  armed := fun _ => trivial
  tokens := fun _ _ member => nomatch member
  policies := fun _ member => nomatch member

/-- Every step keeps the invariant. -/
theorem Base.step (base : Base state) {action : Action} (guards : GuardsToken state action)
    (taken : Pulse.step env state action = some after) : Base after := by
  cases step_cases base guards taken with
  | begin _ performs | next _ performs => exact base.performs performs
  | fail => exact base.rollback
  | submit handing => exact base.submit handing
  | exit => exact base.relax rfl rfl (Nat.le_refl _) base.compatible fun _ => .inr ⟨rfl, fun _ => id⟩
  | reregister =>
    refine base.relax rfl rfl ?_ base.compatible fun _ => .inr ⟨rfl, fun _ => id⟩
    show state.nextUuid ≤ 2 * state.nextUuid
    lia

end Steps

/-- The invariant holds wherever a run leads whose steps all meet the condition. -/
theorem Base.reachable {env : Environment} {state : System}
    (reachable : (pulse env).Reachable GuardsToken state) : Base state :=
  reachable.invariant (fun _ initial => initial ▸ initial_base)
    fun _ _ _ base guards taken => base.step guards taken

/-! Sessions which a run leaves alone. -/

/-- The sessions which an action may change. -/
def Action.sids : Action → List Sid
  | .begin sid _ | .next sid _ | .fail sid => [sid]
  | .submit sid newSid => [sid, newSid]
  | .exit _ | .reregister _ _ => []

theorem perform_other {state after : System} {sid other : Sid} {effect : Effect}
    (taken : state.perform sid effect = some after) (different : other ≠ sid) :
    after.sessions other = state.sessions other := by
  cases effect with
  | hold =>
    obtain ⟨_, rfl⟩ := System.perform_hold taken
    exact Function.update_of_ne different ..
  | commit =>
    obtain ⟨_, rfl⟩ := System.perform_commit taken
    exact Function.update_of_ne different ..
  | rollback =>
    cases Option.some.inj taken
    exact Function.update_of_ne different ..

/-- A step changes the sessions it is about alone. -/
theorem step_other {env : Environment} {state after : System} {action : Action} {other : Sid}
    (taken : step env state action = some after) (different : other ∉ action.sids) :
    after.sessions other = state.sessions other := by
  cases action with
  | begin sid request =>
    simp only [step] at taken
    split at taken
    · obtain ⟨effect, _, performed⟩ := Option.bind_eq_some_iff.mp taken
      exact perform_other performed (List.ne_of_not_mem_cons different)
    · cases taken
  | next sid input =>
    obtain ⟨effect, _, performed⟩ := next_effect taken
    exact perform_other performed (List.ne_of_not_mem_cons different)
  | fail sid =>
    simp only [step] at taken
    split at taken
    · exact perform_other taken (List.ne_of_not_mem_cons different)
    · cases taken
  | submit sid newSid =>
    simp only [step, System.submit] at taken
    have first := List.ne_of_not_mem_cons different
    have second := List.ne_of_not_mem_cons (List.not_mem_of_not_mem_cons different)
    split at taken
    · split at taken
      · cases Option.some.inj taken
        rw [System.handed_sessions, Function.update_of_ne second, Function.update_of_ne first]
      · cases taken
    · cases taken
  | exit | reregister =>
    simp only [step] at taken
    split at taken
    · cases Option.some.inj taken
      rfl
    · cases taken

/-- Steps of the listed sessions alone. -/
def Within (sids : List Sid) (_ : System) (action : Action) : Prop :=
  ∀ sid ∈ action.sids, sid ∈ sids

instance (sids : List Sid) (state : System) (action : Action) :
    Decidable (Within sids state action) :=
  inferInstanceAs (Decidable (∀ _ ∈ _, _))

/-- A session which no step is about has never begun. -/
theorem idle_of_within {env : Environment} {sids : List Sid} {state : System}
    (reachable : (pulse env).Reachable (Within sids) state) :
    ∀ sid, sid ∉ sids → state.sessions sid = .idle := by
  refine @Machine.Reachable.invariant _ _ (pulse env) (Within sids)
    (fun state => ∀ sid, sid ∉ sids → state.sessions sid = .idle) ?_ ?_ state reachable
  · rintro _ rfl sid _
    rfl
  · intro earlier action next idle within taken sid outside
    rw [step_other taken fun named => outside (within sid named)]
    exact idle sid outside

/-- A run of the listed sessions which meets a condition among them meets it among all,
as the others have never begun. -/
theorem reachable_of_within {env : Environment} {sids : List Sid}
    {among allowed : System → Action → Prop} {state : System}
    (within : ∀ state action, among state action → Within sids state action)
    (widens : ∀ state action, (∀ sid, sid ∉ sids → state.sessions sid = .idle) →
      among state action → allowed state action)
    (reachable : (pulse env).Reachable among state) : (pulse env).Reachable allowed state := by
  refine @Machine.Reachable.weaken _ _ (pulse env) among allowed
    (fun state => ∀ sid, sid ∉ sids → state.sessions sid = .idle) ?_ widens state reachable
  intro earlier reached
  exact idle_of_within (@Machine.Reachable.weaken _ _ (pulse env) among (Within sids)
    (fun _ => True) (fun _ _ => trivial) (fun state action _ => within state action) earlier reached)

/-! Ticks. -/

section Ticks
variable {env : Environment} {state after : System} {sid : Sid} {next : Session} {tick : Tick}
  {locks : List Lock}

/-- One session goes on while the others stay. -/
theorem ticks_update {property : Tick → Prop}
    (own : ∀ current, next = .tick current → property current) :
    ∀ other current, Function.update state.sessions sid next other = .tick current →
      state.sessions other = .tick current ∨ property current :=
  System.update_sessions (fun other session => ∀ current, session = .tick current →
    state.sessions other = .tick current ∨ property current)
    (fun current same => .inr (own current same)) fun _ _ _ same => .inl same

/-- A tick begins with nothing read but the time. -/
theorem Request.begins_tick {request : Request}
    (made : request.effect env state sid = some (.hold (.tick tick) locks)) :
    ∃ now, request = .tick now ∧ tick = { now } := by
  cases request with
  | tick now =>
    simp only [Request.effect, tryLock, Option.some.injEq] at made
    split at made
    · cases made
    · cases made
      exact ⟨now, rfl, rfl⟩
  | claimJobs =>
    simp only [Request.effect] at made
    split at made <;> cases made
  | updateWorker =>
    simp only [Request.effect] at made
    split at made
    · split at made <;> cases made
    · cases made
  | reaper =>
    simp only [Request.effect, tryLock, Option.some.injEq] at made
    split at made <;> cases made
  | cancelJob | retryJob =>
    obtain ⟨same, _⟩ := lockJob_hold made
    cases same
  | replayDlqEntry =>
    obtain ⟨owner, same⟩ := lockLetter_hold made
    cases same
  | api => exact absurd (Option.some.inj made) ApiCall.effect_ends

/-- Only a tick goes on as a tick. -/
theorem Session.effect_tick {session : Session} {input : Input}
    (made : session.effect env state sid input = some (.hold (.tick tick) locks)) :
    ∃ current, session = .tick current := by
  cases session with
  | tick current => exact ⟨current, rfl⟩
  | idle | handing | claimWritten | finishing | cancelling | superseded | replayingJob
  | handling | reaperLocked | reaperStale | reaperRead | reaperMarked | reaperPruned => cases made
  | claimLocked =>
    simp only [Session.effect, claimStatement] at made
    split at made
    · split at made
      · cases made
      · split at made <;> cases made
    · cases made
  | claimCommitted =>
    simp only [Session.effect, handingOver, Option.some.injEq, Effect.hold.injEq] at made
    obtain ⟨same, _⟩ := made
    split at same <;> cases same
  | execute | returned =>
    simp only [Session.effect, guarded, Option.some.injEq] at made
    split at made <;> cases made
  | starting =>
    simp only [Session.effect, startEffect] at made
    split at made <;> cases made
  | workerLoaded =>
    simp only [Session.effect] at made
    split at made <;> cases made
  | reaperSwept =>
    simp only [Session.effect, Option.some.injEq] at made
    split at made <;> cases made
  | retrying =>
    obtain ⟨_, _, same⟩ := Option.map_eq_some_iff.mp made
    cases same
  | replaying =>
    simp only [Session.effect] at made
    obtain ⟨same, _⟩ := lockJob_hold made
    cases same

/-- What holds of every tick when it begins, and is kept by its statements, holds of every
tick of a run. -/
theorem ticks_step {property : Tick → Prop} (begins : ∀ now, property { now })
    (keeps : ∀ current tick locks, Ticks env state current tick locks → property current →
      property tick)
    (holds : ∀ sid current, state.sessions sid = .tick current → property current)
    {action : Action} (taken : step env state action = some after) :
    ∀ sid current, after.sessions sid = .tick current → property current := by
  have one : ∀ {sid next}, (∀ current, next = .tick current → property current) →
      ∀ other current, Function.update state.sessions sid next other = .tick current →
        property current := by
    intro sid next own other current ticking
    rcases ticks_update own other current ticking with same | new
    · exact holds other current same
    · exact new
  cases step_inverted taken with
  | @begin sid _ effect _ _ made performed =>
    cases effect with
    | hold next locks =>
      obtain ⟨_, rfl⟩ := System.perform_hold performed
      refine one ?_
      rintro current rfl
      obtain ⟨now, _, rfl⟩ := Request.begins_tick made
      exact begins _
    | commit =>
      obtain ⟨_, rfl⟩ := System.perform_commit performed
      obtain ⟨_, _, _, rfl, _⟩ := Request.effect_closes made
      exact one nofun
    | rollback =>
      cases Option.some.inj performed
      exact one nofun
  | @next sid _ effect _ _ made performed =>
    cases effect with
    | hold next locks =>
      obtain ⟨_, rfl⟩ := System.perform_hold performed
      refine one ?_
      rintro tick rfl
      obtain ⟨current, ticking⟩ := Session.effect_tick made
      rw [ticking] at made
      obtain ⟨other, same, ticks⟩ := tickEffect_ticks made
      cases same
      exact keeps current tick locks ticks (holds sid current ticking)
    | commit =>
      obtain ⟨_, rfl⟩ := System.perform_commit performed
      refine one ?_
      intro current ticking
      exact absurd ticking ((Session.effect_publishes made).not_tick current)
    | rollback =>
      cases Option.some.inj performed
      exact one nofun
  | fail => exact one nofun
  | submit =>
    refine System.handed_forall (fun _ session => ∀ current, session = .tick current →
      property current) nofun ?_ fun other _ => holds other
    intro current same
    unfold handingOver at same
    split at same <;> cases same
  | exit | reregister => exact holds

end Ticks

/-! Runs on which conditions are exercised: no cron expression is in use. -/

def sample (handover : Handover) : Environment where
  handover := handover
  getNext := fun _ _ _ => none

/-- A queue, two workers and one job, which the first worker claims. -/
def claimedOnce : List Action := [
  .begin 0 (.api 0 (.createQueue { projectId := 0, name := "default" })),
  .begin 0 (.api 0 .registerWorker),
  .begin 0 (.api 90 .registerWorker),
  .begin 0 (.api 0 (.createJob { queueId := 1, type := .immediate, handler := "noop" })),
  .begin 1 (.claimJobs 1 2 1 0),
  .next 1 { picked := [8] },
  .next 1 {}]

/-- The claimed job is handed over and started, and its handler succeeds. -/
def executedOnce : List Action := claimedOnce ++ [
  .next 1 {},
  .submit 1 10,
  .next 10 {},
  .next 10 {},
  .next 10 {}]

end Pulse
