import Pulse.System.Advances
import Pulse.System.Publishes

/-! What a step of the system does, and what holds in every run: the locks are
consistent and rows have ids of their own. -/
namespace Pulse
open Library.RowLock Library.Lts

/-! Steps. -/

/-- The step function inverted: what each action needs and does. -/
inductive Steps (env : Environment) (state : System) : Action → System → Prop where
  | begin {sid request effect after} (idle : state.sessions sid = .idle)
      (made : request.effect env state sid = some effect)
      (performed : state.perform sid effect = some after) :
      Steps env state (.begin sid request) after
  | next {sid input effect after}
      (running : ∀ workerId, (state.sessions sid).worker = some workerId → state.live workerId)
      (made : (state.sessions sid).effect env state sid input = some effect)
      (performed : state.perform sid effect = some after) : Steps env state (.next sid input) after
  | fail {sid} (stopped : (state.sessions sid).fallible = true ∨
      ∃ workerId, (state.sessions sid).worker = some workerId ∧ ¬ state.live workerId) :
      Steps env state (.fail sid) (state.rollback sid)
  | submit {sid newSid workerId task rest}
      (handing : state.sessions sid = .handing workerId (task :: rest))
      (idle : state.sessions newSid = .idle) (different : sid ≠ newSid)
      (live : state.live workerId) :
      Steps env state (.submit sid newSid) (state.handed sid newSid workerId task rest)
  | exit {workerId} (acting : state.acting workerId) (known : workerId < state.nextUuid) :
      Steps env state (.exit workerId) { state with exited := workerId :: state.exited }
  | reregister {former now} (acting : state.acting former) (known : former < state.nextUuid)
      (missing : state.db.findWorker former = none) :
      Steps env state (.reregister former now) (state.reregister former now)

/-- The three ways in which a statement of a session ends, in any run. -/
inductive Executes (env : Environment) (state : System) (sid : Sid) : System → Prop where
  | hold {next locks} (advance : Advance env state (state.sessions sid) next locks)
      (ticks : ∀ current, state.sessions sid = .tick current →
        ∃ tick, next = .tick tick ∧ Ticks env state current tick locks)
      (free : locks.any (state.waits sid) = false) :
      Executes env state sid (state.hold sid next locks)
  | commit {next patch} (publishes : Publishes env state sid next patch) :
      Executes env state sid (state.commit sid next patch)
  | rollback : Executes env state sid (state.rollback sid)

/-- Primary keys: none occurs twice, and all were drawn before. -/
def Issued (bound : Uuid) (ids : List Uuid) : Prop :=
  ids.Nodup ∧ ∀ id ∈ ids, id < bound

structure Db.Issued (db : Db) (bound : Uuid) : Prop where
  jobs : Pulse.Issued bound (db.jobs.map fun record => record.job.id)
  queues : Pulse.Issued bound (db.queues.map Queue.id)
  policies : Pulse.Issued bound (db.retryPolicies.map RetryPolicy.id)
  workers : Pulse.Issued bound (db.workers.map Worker.id)
  templates : Pulse.Issued bound (db.scheduledJobs.map ScheduledJob.id)

/-- What holds in every run: the locks are consistent and rows have ids of their own. -/
structure Shape (state : System) : Prop where
  positive : 0 < state.nextUuid
  compatible : Compatible state.grants
  granted : ∀ sid, ∀ lock ∈ (state.sessions sid).locks, Holds state.grants sid lock
  issued : state.db.Issued state.nextUuid

namespace Issued
variable {bound wider : Uuid} {ids fewer : List Uuid}

theorem mono (issued : Issued bound ids) (within : bound ≤ wider) : Issued wider ids :=
  ⟨issued.1, fun id listed => Nat.lt_of_lt_of_le (issued.2 id listed) within⟩

theorem sublist (issued : Issued bound ids) (sublist : fewer.Sublist ids) : Issued bound fewer :=
  ⟨issued.1.sublist sublist, fun id listed => issued.2 id (sublist.subset listed)⟩

theorem perm (issued : Issued bound ids) {listed : List Uuid} (perm : ids.Perm listed) :
    Issued bound listed :=
  ⟨perm.nodup_iff.mp issued.1, fun id member => issued.2 id (perm.mem_iff.mpr member)⟩

theorem append (issued : Issued bound ids) {drawn : List Uuid} (distinct : drawn.Nodup)
    (fresh : ∀ id ∈ drawn, bound ≤ id ∧ id < wider) (within : bound ≤ wider) :
    Issued wider (ids ++ drawn) := by
  refine ⟨List.nodup_append.mpr ⟨issued.1, distinct, ?_⟩, ?_⟩
  · rintro id old _ new rfl
    exact Nat.not_lt.mpr (fresh id new).1 (issued.2 id old)
  · intro id listed
    rcases List.mem_append.mp listed with old | new
    · exact Nat.lt_of_lt_of_le (issued.2 id old) within
    · exact (fresh id new).2

/-- A table in which at most one row with a new id was inserted. -/
theorem grown (issued : Issued bound ids) (positive : 0 < bound) (within : 2 * bound ≤ wider)
    (sublist : fewer.Sublist (ids ++ [bound])) : Issued wider fewer := by
  refine Issued.sublist (issued.append (List.nodup_singleton bound) ?_ (by lia)) sublist
  intro id listed
  rw [List.mem_singleton.mp listed]
  exact ⟨Nat.le_refl _, by lia⟩

end Issued

section Steps
variable {env : Environment} {state after : System} {sid : Sid}

theorem step_inverted {action : Action} (taken : step env state action = some after) :
    Steps env state action after := by
  cases action with
  | begin sid request =>
    simp only [step] at taken
    split at taken
    · rename_i idle
      obtain ⟨effect, made, performed⟩ := Option.bind_eq_some_iff.mp taken
      exact .begin idle made performed
    · cases taken
  | next sid input =>
    simp only [step] at taken
    split at taken
    · rename_i running
      obtain ⟨effect, made, performed⟩ := Option.bind_eq_some_iff.mp taken
      refine .next ?_ made performed
      intro workerId owner
      simpa [owner] using running
    · cases taken
  | fail sid =>
    simp only [step] at taken
    split at taken
    · rename_i stopped
      cases Option.some.inj taken
      refine .fail ?_
      simpa [Option.any_eq_true] using stopped
    · cases taken
  | submit sid newSid =>
    simp only [step, System.submit] at taken
    split at taken
    · rename_i workerId task rest handing idle
      split at taken
      · rename_i live
        cases Option.some.inj taken
        refine .submit handing idle ?_ live
        rintro rfl
        rw [handing] at idle
        cases idle
      · cases taken
    · cases taken
  | exit workerId =>
    simp only [step] at taken
    split at taken
    · rename_i enabled
      cases Option.some.inj taken
      exact .exit enabled.1 enabled.2
    · cases taken
  | reregister former now =>
    simp only [step] at taken
    split at taken
    · rename_i enabled
      cases Option.some.inj taken
      exact .reregister enabled.1 enabled.2.1 (by simpa using enabled.2.2)
    · cases taken

theorem Request.executes {request : Request} {effect : Effect}
    (idle : state.sessions sid = .idle) (made : request.effect env state sid = some effect)
    (performed : state.perform sid effect = some after) : Executes env state sid after := by
  cases effect with
  | hold next locks =>
    obtain ⟨free, rfl⟩ := System.perform_hold performed
    refine .hold (idle ▸ Request.effect_advance made) ?_ free
    intro current running
    rw [idle] at running
    cases running
  | commit next locks patch =>
    obtain ⟨free, rfl⟩ := System.perform_commit performed
    exact .commit (Request.effect_publishes idle made free)
  | rollback =>
    cases Option.some.inj performed
    exact .rollback

theorem Shape.executes (shape : Shape state) {input : Input} {effect : Effect}
    (made : (state.sessions sid).effect env state sid input = some effect)
    (performed : state.perform sid effect = some after) : Executes env state sid after := by
  cases effect with
  | hold next locks =>
    obtain ⟨free, rfl⟩ := System.perform_hold performed
    refine .hold (Session.effect_advance shape.issued.jobs.1 made) ?_ free
    intro current running
    rw [running] at made
    exact tickEffect_ticks made
  | commit next locks patch =>
    obtain ⟨_, rfl⟩ := System.perform_commit performed
    exact .commit (Session.effect_publishes made)
  | rollback =>
    cases Option.some.inj performed
    exact .rollback

theorem Publishes.issued (publishes : Publishes env state sid next patch)
    (positive : 0 < state.nextUuid) (issued : state.db.Issued state.nextUuid) :
    (state.db.apply patch).Issued (2 * state.nextUuid + patch.newJobs.length) := by
  have grows := publishes.grows
  have within : 2 * state.nextUuid ≤ 2 * state.nextUuid + patch.newJobs.length := Nat.le_add_right ..
  refine ⟨?_, issued.queues.grown positive within grows.queues,
    issued.policies.grown positive within grows.policies,
    issued.workers.grown positive within grows.workers,
    issued.templates.grown positive within grows.templates⟩
  obtain ⟨numbered, fresh⟩ := publishes.inserted positive
  have same : ∀ record : JobRecord, (patch.job record).job.id = record.job.id :=
    fun record => (publishes.kept record).job_id
  simp only [Db.apply, List.map_append, List.map_map, Function.comp_def, same]
  refine (issued.jobs.sublist (List.filter_sublist.map _)).append numbered ?_ (by lia)
  intro id listed
  obtain ⟨job, inserted, rfl⟩ := List.mem_map.mp listed
  exact fresh job inserted

/-- A statement takes its locks, and its session keeps no others. -/
theorem Shape.takes (shape : Shape state) {next : Session} {locks : List Lock}
    (free : locks.any (state.waits sid) = false)
    (kept : ∀ lock ∈ next.locks, Holds (acquire state.grants sid locks) sid lock) :
    Shape (state.hold sid next locks) := by
  have positive := shape.positive
  have grows : state.nextUuid ≤ 2 * state.nextUuid := by lia
  obtain ⟨jobs, queues, policies, workers, templates⟩ := shape.issued
  refine ⟨Nat.lt_of_lt_of_le positive grows,
    shape.compatible.acquire sid locks (Base.unblocked free), ?_,
    ⟨jobs.mono grows, queues.mono grows, policies.mono grows, workers.mono grows,
      templates.mono grows⟩⟩
  refine System.update_sessions (fun other session => ∀ lock ∈ session.locks,
    Holds (acquire state.grants sid locks) other lock) kept ?_
  intro other _ lock member
  exact (shape.granted other lock member).acquire locks

theorem Shape.hold (shape : Shape state) {next : Session} {locks : List Lock}
    (advance : Advance env state (state.sessions sid) next locks)
    (free : locks.any (state.waits sid) = false) : Shape (state.hold sid next locks) := by
  refine shape.takes free fun lock member => ?_
  rcases advance.locks_granted lock member with held | asked
  · exact (shape.granted sid lock held).acquire locks
  · exact holds_of_acquired asked

theorem Shape.commit (shape : Shape state) {next : Session} {patch : Patch}
    (publishes : Publishes env state sid next patch) : Shape (state.commit sid next patch) := by
  have positive := shape.positive
  refine ⟨?_, shape.compatible.release sid, ?_, publishes.issued positive shape.issued⟩
  · rw [System.commit_nextUuid]
    lia
  · refine System.update_sessions (fun other session => ∀ lock ∈ session.locks,
      Holds (release state.grants sid) other lock) ?_ ?_
    · simp [publishes.quiet]
    · intro other different lock member
      exact (shape.granted other lock member).release different

/-- Rows with ids of their own are inserted beside the sessions. -/
theorem Shape.publishes (shape : Shape state) {rows : List Job}
    (issued : Issued state.nextUuid ((state.db.jobs.map fun record => record.job.id) ++
      rows.map Job.id)) : Shape (state.commit sid .idle { newJobs := rows }) := by
  have positive := shape.positive
  have grows : state.nextUuid ≤ 2 * state.nextUuid + rows.length := by lia
  obtain ⟨_, queues, policies, workers, templates⟩ := shape.issued
  refine ⟨Nat.lt_of_lt_of_le positive grows, shape.compatible.release sid, ?_,
    ⟨?_, queues.mono grows, policies.mono grows, workers.mono grows, templates.mono grows⟩⟩
  · refine System.update_sessions (fun other session => ∀ lock ∈ session.locks,
      Holds (release state.grants sid) other lock) (fun _ member => nomatch member) ?_
    intro other different lock member
    exact (shape.granted other lock member).release different
  · rw [System.commit_db, Db.apply]
    simpa [Function.comp_def] using issued.mono grows

theorem Shape.rollback (shape : Shape state) (sid : Sid) : Shape (state.rollback sid) := by
  refine ⟨shape.positive, shape.compatible.release sid, ?_, shape.issued⟩
  refine System.update_sessions (fun other session => ∀ lock ∈ session.locks,
    Holds (release state.grants sid) other lock) (fun _ member => nomatch member) ?_
  intro other different lock member
  exact (shape.granted other lock member).release different

theorem Shape.submit (shape : Shape state) (sid newSid : Sid) (workerId : Uuid) (task : Task)
    (rest : List Task) : Shape (state.handed sid newSid workerId task rest) := by
  refine ⟨shape.positive, shape.compatible, ?_, shape.issued⟩
  refine System.handed_forall (fun other session => ∀ lock ∈ session.locks,
    Holds state.grants other lock) (fun _ member => nomatch member) ?_ fun other _ =>
      shape.granted other
  intro lock member
  rw [(handingOver_locks workerId rest).1] at member
  cases member

theorem Shape.reregister (shape : Shape state) (former : Uuid) (now : Time) :
    Shape (state.reregister former now) := by
  have positive := shape.positive
  have grows : state.nextUuid ≤ 2 * state.nextUuid := by lia
  obtain ⟨jobs, queues, policies, workers, templates⟩ := shape.issued
  refine ⟨Nat.lt_of_lt_of_le positive grows, shape.compatible, shape.granted,
    ⟨jobs.mono grows, queues.mono grows, policies.mono grows, ?_, templates.mono grows⟩⟩
  refine workers.grown positive (Nat.le_refl _) ?_
  simp [System.reregister]

theorem Shape.run (shape : Shape state) (executes : Executes env state sid after) : Shape after := by
  cases executes with
  | hold advance _ free => exact shape.hold advance free
  | commit publishes => exact shape.commit publishes
  | rollback => exact shape.rollback sid

theorem Shape.step (shape : Shape state) {action : Action}
    (taken : Pulse.step env state action = some after) : Shape after := by
  cases step_inverted taken with
  | begin idle made performed => exact shape.run (Request.executes idle made performed)
  | next _ made performed => exact shape.run (shape.executes made performed)
  | fail => exact shape.rollback _
  | submit => exact shape.submit ..
  | exit => exact ⟨shape.positive, shape.compatible, shape.granted, shape.issued⟩
  | reregister => exact shape.reregister ..

end Steps

theorem initial_shape : Shape {} where
  positive := Nat.one_pos
  compatible := compatible_nil
  granted := fun _ _ member => nomatch member
  issued := by constructor <;> exact ⟨List.nodup_nil, fun _ member => nomatch member⟩

theorem Shape.distinct {state : System} (shape : Shape state) :
    (state.db.jobs.map fun record => record.job.id).Nodup :=
  shape.issued.jobs.1

theorem Shape.id_lt {state : System} (shape : Shape state) {record : JobRecord}
    (member : record ∈ state.db.jobs) : record.job.id < state.nextUuid :=
  shape.issued.jobs.2 _ (List.mem_map.mpr ⟨record, member, rfl⟩)

/-! Frames. -/

section Frames
variable {env : Environment} {state : System} {sid other : Sid} {next : Session}
  {locks : List Lock} {patch : Patch} {record : JobRecord}

/-- Only requests of one transaction delete jobs. -/
theorem Closes.deletes {session : Session} (closes : Closes env state session next patch) :
    patch.deletedJobs = [] := by
  cases closes <;> rfl

/-- A session writes the rows alone which it has locked. -/
theorem Closes.frame {session : Session} (closes : Closes env state session next patch)
    (free : record.job.id ∉ session.rows) :
    patch.job record = record ∧ record.job.id ∉ patch.deletedJobs := by
  refine ⟨?_, by simp [closes.deletes]⟩
  cases closes with
  | claim => exact claimWrite_other free
  | start | finish | cancel =>
    dsimp only
    exact onJob_other (List.ne_of_not_mem_cons free)
  | worker => rfl
  | @sweep _ sweep running =>
    have spared : record.job.id ∉ sweep.orphans ++ sweep.unassigned := by
      rcases running with rfl | rfl <;> exact free
    rw [List.mem_append, not_or] at spared
    simp [sweepWrite, spared]
  | tick => exact tickWrite_other free
  | requeue running =>
    dsimp only
    refine onJob_other ?_
    rcases running with rfl | ⟨_, _, rfl⟩ <;> exact List.ne_of_not_mem_cons free

/-- A row which another session has locked for writing nobody can write. -/
theorem Shape.blocks (shape : Shape state) (different : other ≠ sid)
    (locked : record.job.id ∈ (state.sessions other).rows) (mode : Mode)
    (writes : mode.writes = true) (asked : (Key.job record.job.id, mode) ∈ locks)
    (free : locks.any (state.waits sid) = false) : False := by
  obtain ⟨held, writing, member⟩ := Session.rows_locked locked
  exact different ((shape.granted other _ member).excludes (Base.unblocked free _ asked)
    (Mode.writes_conflict writing writes))

theorem Answers.frame {now : Time} {call : ApiCall} (shape : Shape state)
    (answers : Answers env state now call locks patch)
    (free : locks.any (state.waits sid) = false) (different : other ≠ sid)
    (member : record ∈ state.db.jobs) (locked : record.job.id ∈ (state.sessions other).rows) :
    patch.job record = record ∧ record.job.id ∉ patch.deletedJobs := by
  cases answers with
  | @deleteSchedule id _ _ made =>
    cases made
    refine ⟨?_, List.not_mem_nil⟩
    dsimp only [JobRecord.detach]
    split
    · rename_i spawned
      refine (shape.blocks different locked .noKeyUpdate rfl ?_ free).elim
      refine List.mem_cons_of_mem _ (List.mem_map.mpr ⟨record, ?_, rfl⟩)
      exact List.mem_filter.mpr ⟨member, by simpa using spawned⟩
    · rfl
  | @deleteQueue id _ _ made =>
    cases made
    refine ⟨rfl, fun doomed => ?_⟩
    obtain ⟨twin, listed, same⟩ := List.mem_map.mp doomed
    refine shape.blocks different locked .update rfl ?_ free
    refine List.mem_append_left _ (List.mem_cons_of_mem _ (List.mem_map.mpr ⟨twin, listed, ?_⟩))
    rw [same]
  | _ => exact ⟨rfl, List.not_mem_nil⟩

/-- A queue stays until it is deleted. -/
theorem Answers.houses {now : Time} {call : ApiCall} (answers : Answers env state now call locks patch)
    {id : Uuid} (listed : id ∈ state.db.queues.map Queue.id) :
    id ∈ (patch.queues state.db.queues).map Queue.id ∨ call = .deleteQueue id := by
  cases answers with
  | createQueue =>
    left
    rw [List.map_append]
    exact List.mem_append_left _ listed
  | updateQueue made =>
    left
    obtain ⟨rfl, _⟩ := updateQueue_write made
    rwa [map_ids (onId_id fun _ => by rfl)]
  | setPaused made =>
    left
    cases setPaused_write made
    rwa [map_ids (onId_id fun _ => by rfl)]
  | deleteRetryPolicy =>
    left
    rwa [map_ids fun row => by split <;> rfl]
  | @deleteQueue doomed _ _ made =>
    cases made
    by_cases same : doomed = id
    · exact .inr (congrArg _ same)
    · left
      obtain ⟨queue, present, rfl⟩ := List.mem_map.mp listed
      exact List.mem_map_of_mem (List.mem_filter.mpr ⟨present, by simpa using Ne.symm same⟩)
  | deleteSchedule made =>
    cases made
    exact .inl listed
  | _ => exact .inl listed

theorem Closes.untouched (shape : Shape state)
    (closes : Closes env state (state.sessions sid) next patch) (different : other ≠ sid)
    (member : record ∈ state.db.jobs) (locked : record.job.id ∈ (state.sessions other).rows) :
    record ∈ (state.db.apply patch).jobs := by
  have free : record.job.id ∉ (state.sessions sid).rows := by
    intro own
    obtain ⟨held, writing, listed⟩ := Session.rows_locked locked
    obtain ⟨mode, writes, taken⟩ := Session.rows_locked own
    exact different (shape.compatible.holder_unique (shape.granted other _ listed)
      (shape.granted sid _ taken) (Mode.writes_conflict writing writes))
  obtain ⟨same, stays⟩ := closes.frame free
  exact mem_apply_jobs.mpr (.inl ⟨record, member, stays, same⟩)

end Frames

theorem Shape.reachable {env : Environment} {allowed : System → Action → Prop} {state : System}
    (reachable : (pulse env).Reachable allowed state) : Shape state :=
  reachable.invariant (fun _ initial => initial ▸ initial_shape)
    fun _ _ _ shape _ taken => shape.step taken

end Pulse
