import Pulse.Safety.Finality
import Pulse.Safety.Gating
import Pulse.System.Lifecycle

/-! The engine refines the state diagram: whatever sessions interleave, one job's life is a run of
`lifecycle`, and each edge is taken by the process to which the diagram gives it. -/
namespace Pulse
open Library.RowLock Library.Lts

/-! Dependents. -/

/-- Every row of the job waits for its dependencies, or has been cancelled. -/
def Db.Waits (db : Db) (jobId : Uuid) : Prop :=
  ∀ record ∈ db.jobs, record.job.id = jobId →
    record.job.status = .scheduled ∨ record.job.status = .cancelled

/-- What a tick decides about dependencies is about jobs which wait for them. -/
structure Tick.Depends (db : Db) (current : Tick) : Prop where
  targets : ∀ target ∈ current.targets, target.change ≠ .promote → db.Waits target.jobId
  writes : ∀ write ∈ current.writes, write.change ≠ .promote →
    write.found = .scheduled ∨ write.found = .cancelled
  pending : ∀ dependent ∈ current.pending, db.Waits dependent.1

def Depending (state : System) : Prop :=
  ∀ sid current, state.sessions sid = .tick current → current.Depends state.db

section Ticks
variable {env : Environment} {state after : System} {sid : Sid} {next : Session}
  {current tick : Tick} {locks : List Lock} {patch : Patch}

theorem Ticks.depends (ticks : Ticks env state current tick locks)
    (distinct : (state.db.jobs.map fun record => record.job.id).Nodup)
    (depends : current.Depends state.db) : tick.Depends state.db := by
  cases ticks with
  | locked idle => exact ⟨by simp [idle], depends.writes, by simp [Tick.pending]⟩
  | selectRateLimited =>
    refine ⟨?_, depends.writes, by simp [Tick.pending]⟩
    intro target listed other
    obtain ⟨jobId, _, rfl⟩ := List.mem_map.mp listed
    exact absurd rfl other
  | selectUnlimited _ _ made =>
    cases made
    refine ⟨?_, depends.writes, by simp [Tick.pending]⟩
    intro target listed other
    obtain ⟨job, _, rfl⟩ := List.mem_map.mp listed
    exact absurd rfl other
  | promoteCronJobs idle _ made =>
    cases made
    exact ⟨by simp [idle], depends.writes, by simp [Tick.pending]⟩
  | selectPending idle _ made =>
    cases made
    refine ⟨by simp [idle], depends.writes, ?_⟩
    intro dependent listed record member same
    have pending : dependent ∈ pendingDependents (current.view state.db) := by
      by_cases none : pendingDependents (current.view state.db) = []
      · simp [Tick.pending, none] at listed
      · simpa [Tick.pending, none] using listed
    obtain ⟨seen, present, id, _, scheduled, _⟩ := mem_pendingDependents.mp pending
    obtain ⟨row, known, rfl⟩ := List.mem_map.mp present
    rw [tickWrite_id] at id
    cases unique_record distinct member known (same.trans id.symm)
    exact .inl (view_unwritten scheduled ⟨by decide, by decide⟩).2
  | @decideDependents pending now _ _ idle stage made =>
    cases made
    refine ⟨?_, depends.writes, by simp [Tick.pending]⟩
    intro target listed _
    obtain ⟨dependent, present, decided⟩ := List.mem_filterMap.mp listed
    obtain ⟨change, _, rfl⟩ := Option.map_eq_some_iff.mp decided
    exact depends.pending dependent (by simpa [Tick.pending, stage] using present)
  | skip =>
    refine ⟨?_, depends.writes, depends.pending⟩
    exact fun target listed => depends.targets target (List.mem_of_mem_erase listed)
  | @write target record chosen member same =>
    refine ⟨fun other listed => depends.targets other (List.mem_of_mem_erase listed), ?_,
      depends.pending⟩
    intro write listed other
    rcases List.mem_cons.mp listed with rfl | old
    · exact depends.targets target chosen other record member same
    · exact depends.writes write old other

/-- Nobody but a tick takes a job out of waiting, unless to cancel it. -/
theorem Db.Waits.commit (commits : Commits state sid next patch) (base : Base state)
    (other : ∀ current, state.sessions sid ≠ .tick current) {jobId : Uuid}
    (below : jobId < state.nextUuid) (waits : state.db.Waits jobId) :
    (state.db.apply patch).Waits jobId := by
  intro record member same
  rcases commits.origin member with ⟨old, present, _, _, move⟩ | ⟨job, inserted, rfl⟩
  · have waiting := waits old present (move.job_id.symm.trans same)
    have resting : old.job.status.resting = true := by
      rcases waiting with status | status <;> simp [status, JobStatus.resting]
    rcases move.rests (base.sound old present) resting with
      kept | ⟨_, cancelled⟩ | ⟨current, _, running, _⟩
    · rwa [kept]
    · exact .inr cancelled
    · exact absurd running (other current)
  · have above := (commits.inserted job inserted).2.1
    exact absurd (same ▸ below) (Nat.not_lt.mpr above)

theorem Depending.commit (depending : Depending state) (base : Base state)
    (commits : Commits state sid next patch) : Depending (state.commit sid next patch) := by
  refine System.update_sessions (fun _ session => ∀ current, session = .tick current →
    current.Depends (state.db.apply patch)) ?_ ?_
  · intro current ticking
    have leaves := commits.leaves
    rw [ticking] at leaves
    generalize state.sessions sid = session at leaves
    cases leaves
  · intro other different current ticking
    have depends := depending other current ticking
    have selected := base.targets other
    rw [ticking] at selected
    have rival : ∀ current, state.sessions sid ≠ .tick current := fun rival running =>
      different (base.one_tick ticking running)
    refine ⟨?_, depends.writes, ?_⟩
    · intro target listed changes
      have id : target.jobId ∈ (Session.tick current).targetIds :=
        List.mem_append_left _ (List.mem_map.mpr ⟨target, listed, rfl⟩)
      exact (depends.targets target listed changes).commit commits base rival (selected _ id).1
    · intro dependent listed
      have id : dependent.1 ∈ (Session.tick current).targetIds := by
        refine List.mem_append_right _ ?_
        unfold Tick.pending at listed
        cases stage : current.stage with
        | deciding pending =>
          rw [stage] at listed
          exact List.mem_map.mpr ⟨dependent, listed, rfl⟩
        | _ =>
          rw [stage] at listed
          cases listed
      exact (depends.pending dependent listed).commit commits base rival (selected _ id).1

/-- Steps which publish nothing about jobs and start no tick. -/
theorem Depending.relax (depending : Depending state) (jobs : after.db.jobs = state.db.jobs)
    (sessions : ∀ sid current, after.sessions sid = .tick current →
      state.sessions sid = .tick current) : Depending after := by
  intro sid current ticking
  have before := depending sid current (sessions sid current ticking)
  have waits : ∀ jobId, after.db.Waits jobId ↔ state.db.Waits jobId := by
    intro jobId
    simp only [Db.Waits, jobs]
  refine ⟨?_, before.writes, ?_⟩
  · simpa only [waits] using before.targets
  · simpa only [waits] using before.pending

theorem Depending.rollback (depending : Depending state) (sid : Sid) :
    Depending (state.rollback sid) := by
  refine depending.relax rfl ?_
  intro other current ticking
  by_cases same : other = sid
  · subst same
    simp at ticking
  · rwa [System.rollback_sessions, Function.update_of_ne same] at ticking

theorem Depending.performs (depending : Depending state) (base : Base state)
    (performs : Performs env state sid after) : Depending after := by
  cases performs with
  | @hold next locks advance _ _ ticks =>
    refine System.update_sessions (fun _ session => ∀ current, session = .tick current →
      current.Depends state.db) ?_ fun other _ => depending other
    intro tick ticking
    rcases advance.tick_origin ticking with ⟨_, now, rfl⟩ | ⟨current, running⟩
    · exact ⟨by simp, by simp, by simp [Tick.pending]⟩
    · obtain ⟨_, same, ticks⟩ := ticks current running
      cases ticking.symm.trans same
      exact ticks.depends base.distinct (depending sid current running)
  | commit commits => exact depending.commit base commits
  | rollback => exact depending.rollback sid

theorem Depending.step (depending : Depending state) (base : Base state) {action : Action}
    (guards : GuardsToken state action)
    (taken : Pulse.step env state action = some after) : Depending after := by
  cases step_cases base guards taken with
  | begin _ performs | next _ performs => exact depending.performs base performs
  | fail => exact depending.rollback _
  | @submit sid newSid workerId task rest =>
    refine depending.relax rfl ?_
    refine System.handed_forall (fun other session => ∀ current, session = .tick current →
      state.sessions other = .tick current) ?_ ?_ fun other _ current => id
    · intro current ticking
      cases ticking
    · intro current ticking
      unfold handingOver at ticking
      split at ticking <;> cases ticking
  | exit | reregister => exact depending.relax rfl fun _ _ => id

end Ticks

/-! Edges. -/

/-- A session takes an edge from one phase to another, or none. -/
def Session.Takes (session : Session) (before after : Option Phase) : Prop :=
  after = before ∨ ∃ edge : Edge, session.actor ∈ edge.actors ∧ edge.step before = some after

section Moves
variable {state : System} {session : Session} {record after : JobRecord}

theorem Session.takes_move (edge : Edge) (actor : session.actor ∈ edge.actors)
    (between : edge.sources ≠ []) (source : record.job.status ∈ edge.sources)
    (admitted : edge.admits record.phase = true) (target : edge.target record.phase = after.phase) :
    session.Takes (some record.phase) (some after.phase) := by
  have moved : edge.move record.phase = some after.phase := by
    rw [Edge.move, if_pos ⟨source, admitted⟩, target]
  refine .inr ⟨edge, actor, ?_⟩
  cases edge with
  | create | delete => exact absurd rfl between
  | _ => simp [Edge.step, moved]

/-- A sweep runs in the reaper. -/
theorem Session.sweep_actor {sweep : Sweep} (swept : session.sweep? = some sweep) :
    session.actor = .reaper := by
  cases session <;> first | rfl | cases swept

/-- Every move of a job is an edge of the diagram. -/
theorem Move.takes (move : Move state session record after) (sound : record.Sound state.nextUuid)
    (carries : session.Carries) (waited : session.Waited)
    (depends : ∀ current, session = .tick current → current.Depends state.db)
    (knows : ∀ token ∈ session.tokens, record.job.lockToken = some token → session.Knows record) :
    session.Takes (some record.phase) (some after.phase) := by
  cases move with
  | keep | unassign => exact .inl rfl
  | detach =>
    refine .inl ?_
    unfold JobRecord.detach
    split <;> rfl
  | claim _ _ queued =>
    exact Session.takes_move .claim List.mem_cons_self (by decide) (by simp [Edge.sources, queued]) rfl rfl
  | start _ token held =>
    obtain ⟨claimed, _⟩ := knows _ List.mem_cons_self (token.trans carries)
    exact Session.takes_move .start List.mem_cons_self (by decide) (by simp [Edge.sources, claimed]) rfl rfl
  | complete _ token held =>
    obtain ⟨running, _⟩ := knows _ List.mem_cons_self (token.trans carries)
    exact Session.takes_move .succeed List.mem_cons_self (by decide) (by simp [Edge.sources, running])
      rfl rfl
  | backoff _ token held more =>
    obtain ⟨running, _, attempt, _⟩ := knows _ List.mem_cons_self (token.trans carries)
    refine Session.takes_move .backOff List.mem_cons_self (by decide) (by simp [Edge.sources, running]) ?_ ?_
    · exact decide_eq_true (attempt ▸ more)
    · simp [Edge.target, JobRecord.phase, JobRecord.backoff, JobRecord.chargeAttempt,
        JobRecord.onExecution, attempt]
  | bury _ token held spent =>
    obtain ⟨running, _, attempt, _⟩ := knows _ List.mem_cons_self (token.trans carries)
    refine Session.takes_move .bury List.mem_cons_self (by decide) (by simp [Edge.sources, running]) ?_ ?_
    · exact decide_eq_true (attempt ▸ spent)
    · simp [Edge.target, JobRecord.phase, JobRecord.moveToDlq, JobRecord.chargeAttempt,
        JobRecord.onExecution, attempt]
  | requeueClaimed swept _ claimed =>
    exact Session.takes_move .abandon (by simp [Session.sweep_actor swept, Edge.actors]) (by decide)
      (by simp [Edge.sources, claimed]) rfl rfl
  | requeueLost swept _ running more =>
    exact Session.takes_move .lose (by simp [Session.sweep_actor swept, Edge.actors]) (by decide)
      (by simp [Edge.sources, running]) (decide_eq_true more) rfl
  | buryLost swept _ running spent =>
    exact Session.takes_move .buryLost (by simp [Session.sweep_actor swept, Edge.actors]) (by decide)
      (by simp [Edge.sources, running]) (decide_eq_true spent) rfl
  | @write current write _ listed same found parked =>
    have before := waited write listed
    have waiting := (depends current rfl).writes write listed
    cases change : write.change with
    | promote =>
      refine Session.takes_move .promote List.mem_cons_self (by decide) ?_ rfl rfl
      rw [found]
      cases status : write.found <;>
        simp_all [Edge.sources, JobStatus.parked, Change.status]
    | release now =>
      refine Session.takes_move .promote List.mem_cons_self (by decide) ?_ rfl rfl
      rw [found]
      rcases waiting (by simp [change]) with scheduled | cancelled
      · simp [Edge.sources, scheduled]
      · simp [change, Change.status] at before
        exact absurd cancelled before
    | cancel now =>
      rcases waiting (by simp [change]) with scheduled | cancelled
      · refine Session.takes_move .dependencyEnded List.mem_cons_self (by decide) ?_ rfl rfl
        simp [Edge.sources, found, scheduled]
      · refine .inl ?_
        simp [JobRecord.phase, Change.write, JobRecord.cancel, found, cancelled]
  | cancel _ cancellable =>
    refine Session.takes_move .cancel List.mem_cons_self (by decide) ?_ rfl rfl
    cases status : record.job.status <;> simp_all [Edge.sources, JobStatus.cancellable]
  | retry _ retryable =>
    refine Session.takes_move .replay List.mem_cons_self (by decide) ?_ rfl rfl
    have alive := sound.notFailed
    cases status : record.job.status <;> simp_all [Edge.sources, JobStatus.retryable]
  | replay _ dead =>
    exact Session.takes_move .replay List.mem_cons_self (by decide) (by simp [Edge.sources, dead]) rfl rfl

end Moves

section Steps
variable {env : Environment} {state after : System} {sid : Sid} {next : Session} {patch : Patch}

theorem Db.phase_of_mem {db : Db} (distinct : (db.jobs.map fun record => record.job.id).Nodup)
    {record : JobRecord} (member : record ∈ db.jobs) :
    db.phase record.job.id = some record.phase := by
  cases found : db.findJob record.job.id with
  | none => exact absurd rfl (Db.findJob_none found record member)
  | some other =>
    obtain ⟨present, same⟩ := Db.findJob_some found
    cases unique_record distinct present member same
    rw [Db.phase, found]
    rfl

theorem Db.phase_of_not_mem {db : Db} {jobId : Uuid}
    (absent : ∀ record ∈ db.jobs, record.job.id ≠ jobId) : db.phase jobId = none := by
  cases found : db.findJob jobId with
  | none => rw [Db.phase, found]; rfl
  | some record =>
    obtain ⟨present, same⟩ := Db.findJob_some found
    exact absurd same (absent record present)

/-- Only requests and ticks insert jobs, and only requests delete them. -/
theorem Publishes.creates (publishes : Publishes env state sid next patch) :
    (patch.newJobs = [] ∨ (state.sessions sid).actor ∈ [Actor.api, .scheduler]) ∧
      (patch.deletedJobs = [] ∨ (state.sessions sid).actor = .api) := by
  cases publishes with
  | rows _ _ inserted deleted => exact ⟨.inl inserted, .inl deleted⟩
  | tick running made =>
    cases made
    exact ⟨.inr (by simp [running, Session.actor]), .inl rfl⟩
  | api idle => exact ⟨.inr (by simp [idle, Session.actor]), .inr (by simp [idle, Session.actor])⟩

/-- The commit of a session takes one edge with each job. -/
theorem Commits.takes (commits : Commits state sid next patch)
    (publishes : Publishes env state sid next patch) (fenced : Fenced state)
    (waited : Waited state) (depending : Depending state) (jobId : Uuid) :
    (state.sessions sid).Takes (state.db.phase jobId) ((state.db.apply patch).phase jobId) := by
  have base := fenced.base
  by_cases present : ∃ record ∈ (state.db.apply patch).jobs, record.job.id = jobId
  · obtain ⟨record, member, rfl⟩ := present
    rw [Db.phase_of_mem (commits.distinct base) member]
    rcases commits.origin member with ⟨old, there, _, _, move⟩ | ⟨job, inserted, rfl⟩
    · rw [move.job_id, Db.phase_of_mem base.distinct there]
      exact move.takes (base.sound old there) (fenced.carries sid) (waited sid) (depending sid)
        (fenced.knows sid old there)
    · obtain ⟨fresh, above, _⟩ := commits.inserted job inserted
      rw [Db.phase_of_not_mem fun old there same =>
        absurd (base.sound old there).id_lt (Nat.not_lt.mpr (same ▸ above))]
      refine .inr ⟨.create job.status job.maxAttempts, ?_, ?_⟩
      · exact publishes.creates.1.resolve_left (List.ne_nil_of_mem inserted)
      · have waiting : job.status ∈ [JobStatus.scheduled, .queued] := by
          rcases fresh.status with status | status <;> simp [status]
        rw [Edge.step, if_pos ⟨rfl, waiting, fresh.maxAttempts⟩, JobRecord.phase, fresh.attempts]
  · push Not at present
    rw [Db.phase_of_not_mem present]
    by_cases known : ∃ record ∈ state.db.jobs, record.job.id = jobId
    · obtain ⟨old, there, rfl⟩ := known
      have deleted : old.job.id ∈ patch.deletedJobs := by
        by_contra kept
        exact present _ (mem_apply_jobs.mpr (.inl ⟨old, there, kept, rfl⟩))
          (commits.moves old there kept).job_id
      have actor := publishes.creates.2.resolve_left (List.ne_nil_of_mem deleted)
      refine .inr ⟨.delete, by simp [actor, Edge.actors], ?_⟩
      rw [Db.phase_of_mem base.distinct there]
      rfl
    · push Not at known
      exact .inl (Db.phase_of_not_mem known).symm

/-- `claim_jobs` hands over its own tokens, and no tick writes over a cancellation. -/
def Follows (env : Environment) (state : System) (action : Action) : Prop :=
  HandsOwn env state action ∧ WritesWaiting state action

instance (env : Environment) (state : System) (action : Action) :
    Decidable (Follows env state action) :=
  inferInstanceAs (Decidable (_ ∧ _))

theorem Performs.takes (performs : Performs env state sid after) (fenced : Fenced state)
    (waited : Waited state) (depending : Depending state) (jobId : Uuid) :
    (state.sessions sid).Takes (state.db.phase jobId) (after.db.phase jobId) := by
  cases performs with
  | hold | rollback => exact .inl rfl
  | commit commits publishes => exact commits.takes publishes fenced waited depending jobId

/-- One step of the engine is one step in the life of each job, by a session of the action. -/
theorem step_takes (fenced : Fenced state) (waited : Waited state) (depending : Depending state)
    {action : Action} (taken : Pulse.step env state action = some after) (jobId : Uuid) :
    after.db.phase jobId = state.db.phase jobId ∨ ∃ sid ∈ action.sids, ∃ edge : Edge,
      (state.sessions sid).actor ∈ edge.actors ∧
        edge.step (state.db.phase jobId) = some (after.db.phase jobId) := by
  cases step_cases fenced.base (fenced.guards action) taken with
  | @begin sid _ _ _ performs | @next sid _ _ _ performs =>
    refine (performs.takes fenced waited depending jobId).imp id ?_
    exact fun ⟨edge, actor, made⟩ => ⟨sid, List.mem_cons_self, edge, actor, made⟩
  | fail | submit | exit | reregister => exact .inl rfl

theorem Depending.reachable (reachable : (pulse env).Reachable (Follows env) state) :
    Fenced state ∧ Waited state ∧ Depending state := by
  refine @Machine.Reachable.invariant _ _ (pulse env) (Follows env)
    (fun state => Fenced state ∧ Waited state ∧ Depending state) ?_ ?_ state reachable
  · rintro _ rfl
    refine ⟨initial_fenced, fun _ => trivial, fun _ _ ticking => ?_⟩
    cases ticking
  · rintro earlier action next ⟨fenced, waited, depending⟩ ⟨hands, waiting⟩ taken
    exact ⟨fenced.step hands taken, waited.step fenced waiting taken,
      depending.step fenced.base (fenced.guards action) taken⟩

theorem pulse_refines (env : Environment) (jobId : Uuid) :
    (pulse env).Refines (Follows env) lifecycle fun state => state.db.phase jobId where
  start := fun state initial => by
    cases initial
    rfl
  step := fun state action next reachable _ taken => by
    obtain ⟨fenced, waited, depending⟩ := Depending.reachable reachable
    refine (step_takes fenced waited depending taken jobId).imp id ?_
    exact fun ⟨_, _, edge, _, made⟩ => ⟨edge, made⟩

end Steps

end Pulse
