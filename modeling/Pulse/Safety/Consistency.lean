import Pulse.Safety.Dependencies

/-! Consistency of a job's columns, where every transaction is atomic: no other session is
inside a transaction when a statement runs. -/
namespace Pulse
open Library.RowLock Library.Lts

/-- The status, and the columns which follow it. -/
structure JobRecord.Consistent (record : JobRecord) : Prop where
  token : record.job.lockToken.isSome = true ↔
    record.job.status = .claimed ∨ record.job.status = .running
  assigned : record.job.status = .claimed ∨ record.job.status = .running →
    record.job.workerId.isSome = true
  unassigned : record.job.status = .scheduled ∨ record.job.status = .queued ∨
    record.job.status = .retrying ∨ record.job.status = .dead ∨
    record.job.status = .cancelled → record.job.workerId = none
  finished : record.job.finishedAt.isSome = true ↔ record.job.status = .completed ∨
    record.job.status = .dead ∨ record.job.status = .cancelled
  notFailed : record.job.status ≠ .failed

/-- The session has begun a transaction and not ended it. -/
def Session.inTransaction : Session → Bool
  | .idle | .claimCommitted _ _ | .handing _ _ | .execute _ | .handling _ _
  | .returned _ _ _ _ => false
  | _ => true

/-- Transactions are atomic: where a session runs a statement, no other one is inside a
transaction. -/
def Alone (state : System) : Action → Prop
  | .begin sid _ | .next sid _ =>
    ∀ other, other ≠ sid → (state.sessions other).inTransaction = false
  | .reregister _ _ => ∀ other, (state.sessions other).inTransaction = false
  | _ => True

/-- The reaper's orphans are all the jobs in flight under a worker which it sees dead. -/
def Sweep.covers (db : Db) (sweep : Sweep) : Prop :=
  ∀ record ∈ db.jobs, record.job.status.inFlight = true →
    record.job.workerId.any (deadInView db sweep.lost) = true → record.job.id ∈ sweep.orphans

/-- Every row of the job is one which a tick may promote or decide about. -/
def Db.Pending (db : Db) (id : Uuid) : Prop :=
  ∀ record ∈ db.jobs, record.job.id = id →
    record.job.status = .scheduled ∨ record.job.status = .retrying

/-- What a transaction has selected is still so, as nobody else has committed since. -/
def Session.Current (db : Db) : Session → Prop
  | .tick current => (∀ id ∈ (Session.tick current).targetIds, db.Pending id) ∧
    ∀ write ∈ current.writes, write.found = .scheduled ∨ write.found = .retrying
  | .reaperSwept sweep => sweep.covers db ∧ sweep.unassigned = []
  | .reaperPruned sweep => ∀ record ∈ db.jobs, record.job.id ∈ sweep.unassigned →
      record.job.status.inFlight = false
  | _ => True

structure Solo (state : System) : Prop where
  holders : ∀ grant ∈ state.grants, (state.sessions grant.sid).inTransaction = true
  current : ∀ sid, (state.sessions sid).Current state.db
  consistent : ∀ record ∈ state.db.jobs, record.Consistent

section Columns
variable {record : JobRecord}

theorem JobStatus.inFlight_iff {status : JobStatus} :
    status.inFlight = true ↔ status = .claimed ∨ status = .running := by
  cases status <;> simp [JobStatus.inFlight]

/-- The invariant of tokens says what the first column does. -/
theorem JobRecord.Consistent.of_sound {bound : Uuid} (sound : record.Sound bound)
    (assigned : record.job.status.inFlight = true → record.job.workerId.isSome = true)
    (unassigned : record.job.status.inFlight = false → record.job.status ≠ .completed →
      record.job.workerId = none)
    (finished : record.job.finishedAt.isSome = true ↔ record.job.status = .completed ∨
      record.job.status = .dead ∨ record.job.status = .cancelled) : record.Consistent where
  token := by rw [sound.token, JobStatus.inFlight_iff]
  assigned := fun status => assigned (JobStatus.inFlight_iff.mpr status)
  unassigned := by
    intro status
    rcases status with status | status | status | status | status <;>
      exact unassigned (by simp [status, JobStatus.inFlight]) (by simp [status])
  finished := finished
  notFailed := sound.notFailed

/-- A job which a worker holds. -/
theorem JobRecord.Consistent.of_flying {bound : Uuid} (sound : record.Sound bound)
    (flying : record.job.status.inFlight = true) (assigned : record.job.workerId.isSome = true)
    (finished : record.job.finishedAt.isSome = true ↔ record.job.status = .completed ∨
      record.job.status = .dead ∨ record.job.status = .cancelled) : record.Consistent :=
  .of_sound sound (fun _ => assigned) (fun rest => absurd (rest.symm.trans flying) Bool.false_ne_true)
    finished

/-- A job which no worker holds. -/
theorem JobRecord.Consistent.of_rest {bound : Uuid} (sound : record.Sound bound)
    (rest : record.job.status.inFlight = false) (unassigned : record.job.workerId = none)
    (finished : record.job.finishedAt.isSome = true ↔ record.job.status = .completed ∨
      record.job.status = .dead ∨ record.job.status = .cancelled) : record.Consistent :=
  .of_sound sound (fun flying => absurd (rest.symm.trans flying) Bool.false_ne_true)
    (fun _ _ => unassigned) finished

/-- A job which waits has neither a worker nor a time of completion. -/
theorem JobRecord.Consistent.waiting (consistent : record.Consistent)
    (waiting : record.job.status = .scheduled ∨ record.job.status = .queued ∨
      record.job.status = .retrying) :
    record.job.workerId = none ∧ record.job.finishedAt = none := by
  have finished := consistent.finished
  have unassigned := consistent.unassigned
  rcases waiting with status | status | status <;> simp_all

/-- A job in flight has a worker and no time of completion. -/
theorem JobRecord.Consistent.flying (consistent : record.Consistent)
    (inFlight : record.job.status.inFlight = true) :
    record.job.workerId.isSome = true ∧ record.job.finishedAt = none := by
  have finished := consistent.finished
  have assigned := consistent.assigned
  rcases JobStatus.inFlight_iff.mp inFlight with status | status <;> simp_all

end Columns

section Moves
variable {state : System} {session : Session} {record after : JobRecord}

theorem Session.Current.unassigned {db : Db} (current : session.Current db) {sweep : Sweep}
    (swept : session.sweep? = some sweep) (member : record ∈ db.jobs)
    (chosen : record.job.id ∈ sweep.unassigned) : record.job.status.inFlight = false := by
  cases session with
  | reaperSwept =>
    cases swept
    rw [current.2] at chosen
    cases chosen
  | reaperPruned =>
    cases swept
    exact current record member chosen
  | _ => cases swept

/-- Every move keeps the columns consistent, where its session's view is current. -/
theorem Move.consistent (move : Move state session record after) (member : record ∈ state.db.jobs)
    (sound : record.Sound state.nextUuid) {bound : Uuid} (kept : after.Sound bound)
    (current : session.Current state.db) (consistent : record.Consistent) : after.Consistent := by
  have held : ∀ {task : Task}, record.job.lockToken = task.token → task.token.isSome = true →
      record.job.status.inFlight = true := fun token some => by rw [← sound.token, token, some]
  cases move with
  | keep => exact consistent
  | detach =>
    unfold JobRecord.detach
    split
    · exact ⟨consistent.token, consistent.assigned, consistent.unassigned, consistent.finished,
        consistent.notFailed⟩
    · exact consistent
  | claim _ _ queued =>
    obtain ⟨_, unfinished⟩ := consistent.waiting (.inr (.inl queued))
    exact .of_flying kept rfl rfl (by simp [JobRecord.claim, unfinished])
  | start _ token some =>
    obtain ⟨assigned, unfinished⟩ := consistent.flying (held token some)
    exact .of_flying kept rfl assigned (by simp [JobRecord.start, unfinished])
  | complete =>
    exact .of_sound kept (fun flying => absurd flying Bool.false_ne_true)
      (fun _ other => absurd rfl other) (by simp [JobRecord.complete])
  | backoff _ token some =>
    obtain ⟨_, unfinished⟩ := consistent.flying (held token some)
    refine .of_rest kept rfl rfl ?_
    simp [JobRecord.backoff, JobRecord.chargeAttempt, JobRecord.onExecution, unfinished]
  | bury | buryLost =>
    exact .of_rest kept rfl rfl (by simp [JobRecord.moveToDlq])
  | requeueClaimed _ _ status =>
    obtain ⟨_, unfinished⟩ := consistent.flying (by simp [status, JobStatus.inFlight])
    exact .of_rest kept rfl rfl (by simp [JobRecord.requeue, unfinished])
  | requeueLost _ _ status =>
    obtain ⟨_, unfinished⟩ := consistent.flying (by simp [status, JobStatus.inFlight])
    refine .of_rest kept rfl rfl ?_
    simp [JobRecord.requeue, JobRecord.chargeLost, unfinished]
  | unassign swept chosen =>
    have waiting := current.unassigned swept member chosen
    refine .of_sound kept (fun inFlight => ?_) (fun _ _ => rfl) consistent.finished
    rw [show record.unassign.job.status = record.job.status from rfl, waiting] at inFlight
    cases inFlight
  | @write tick write _ listed _ found =>
    have waiting := current.2 write listed
    rw [← found] at waiting
    obtain ⟨free, unfinished⟩ := consistent.waiting (by tauto)
    cases change : write.change with
    | promote =>
      rw [change] at kept
      exact .of_rest kept rfl free (by simp [Change.write, JobRecord.promote, unfinished])
    | release moment =>
      rw [change] at kept
      exact .of_rest kept rfl free (by simp [Change.write, JobRecord.release, unfinished])
    | cancel moment =>
      rw [change] at kept
      exact .of_rest kept rfl free (by simp [Change.write, JobRecord.cancel])
  | cancel _ cancellable =>
    have waiting : record.job.status = .scheduled ∨ record.job.status = .queued ∨
        record.job.status = .retrying := by
      cases status : record.job.status <;> simp_all [JobStatus.cancellable]
    obtain ⟨free, _⟩ := consistent.waiting waiting
    exact .of_rest kept rfl free (by simp [JobRecord.cancel])
  | retry | replay =>
    exact .of_rest kept rfl rfl (by simp [JobRecord.reset])

end Moves

/-! Selections. -/

section Selections
variable {env : Environment} {state : System} {session next : Session} {current tick : Tick}
  {locks : List Lock}

/-- Only a transaction has anything to remember. -/
theorem Session.Current.outside (db : Db) (outside : session.inTransaction = false) :
    session.Current db := by
  cases session with
  | tick | reaperSwept | reaperPruned => cases outside
  | _ => trivial

/-- What a tick sees scheduled or retrying is so in the database. -/
theorem Db.Pending.of_view (distinct : (state.db.jobs.map fun record => record.job.id).Nodup)
    {seen : JobRecord} (member : seen ∈ current.view state.db)
    (waiting : seen.job.status = .scheduled ∨ seen.job.status = .retrying) :
    state.db.Pending seen.job.id := by
  intro record present same
  obtain ⟨row, known, rfl⟩ := List.mem_map.mp member
  rw [tickWrite_id] at same
  cases unique_record distinct present known same
  rcases waiting with status | status
  · exact .inl (view_unwritten status ⟨by decide, by decide⟩).2
  · exact .inr (view_unwritten status ⟨by decide, by decide⟩).2

theorem Db.Pending.of_due (distinct : (state.db.jobs.map fun record => record.job.id).Nodup)
    {job : Job} (member : job ∈ (current.view state.db).map JobRecord.job)
    (due : job.due current.now = true) : state.db.Pending job.id := by
  obtain ⟨seen, present, rfl⟩ := List.mem_map.mp member
  exact .of_view distinct present (due_waiting due)

theorem Ticks.pending (ticks : Ticks env state current tick locks)
    (distinct : (state.db.jobs.map fun record => record.job.id).Nodup)
    (before : (Session.tick current).Current state.db) : (Session.tick tick).Current state.db := by
  obtain ⟨targets, writes⟩ := before
  simp only [Session.targetIds, List.mem_append] at targets
  cases ticks with
  | locked idle => exact ⟨by simp [Session.targetIds, idle], writes⟩
  | selectRateLimited _ _ due =>
    refine ⟨?_, writes⟩
    intro id selected
    simp only [Session.targetIds, List.map_map, List.append_nil, List.mem_map,
      Function.comp_apply, exists_eq_right] at selected
    obtain ⟨job, present, rfl, waiting⟩ := due id selected
    exact .of_due distinct present waiting
  | selectUnlimited _ _ made =>
    cases made
    refine ⟨?_, writes⟩
    intro id selected
    simp only [Session.targetIds, List.map_map, List.append_nil] at selected
    obtain ⟨job, listed, rfl⟩ := List.mem_map.mp selected
    obtain ⟨present, matching⟩ := List.mem_filter.mp listed
    simp only [Bool.and_eq_true] at matching
    exact .of_due distinct present matching.1
  | promoteCronJobs idle _ made =>
    cases made
    exact ⟨by simp [Session.targetIds, idle], writes⟩
  | selectPending idle _ made =>
    cases made
    refine ⟨?_, writes⟩
    intro id selected
    have pending : id ∈ (pendingDependents (current.view state.db)).map Prod.fst := by
      by_cases none : pendingDependents (current.view state.db) = []
      · simp [Session.targetIds, idle, none] at selected
      · simpa [Session.targetIds, idle, none] using selected
    obtain ⟨dependent, listed, rfl⟩ := List.mem_map.mp pending
    obtain ⟨seen, present, same, _, scheduled, _⟩ := mem_pendingDependents.mp listed
    rw [← same]
    exact .of_view distinct present (.inl scheduled)
  | @decideDependents pending now _ _ idle stage made =>
    cases made
    refine ⟨?_, writes⟩
    intro id selected
    simp only [Session.targetIds, List.append_nil] at selected
    obtain ⟨target, listed, rfl⟩ := List.mem_map.mp selected
    obtain ⟨dependent, present, decided⟩ := List.mem_filterMap.mp listed
    obtain ⟨change, _, rfl⟩ := Option.map_eq_some_iff.mp decided
    refine targets dependent.1 (.inr ?_)
    rw [stage]
    exact List.mem_map.mpr ⟨dependent, present, rfl⟩
  | skip =>
    refine ⟨?_, writes⟩
    intro id selected
    rcases List.mem_append.mp selected with waiting | decided
    · exact targets id (.inl ((List.erase_sublist.map _).subset waiting))
    · exact targets id (.inr decided)
  | @write target record chosen member same =>
    refine ⟨?_, ?_⟩
    · intro id selected
      rcases List.mem_append.mp selected with waiting | decided
      · exact targets id (.inl ((List.erase_sublist.map _).subset waiting))
      · exact targets id (.inr decided)
    · intro write listed
      rcases List.mem_cons.mp listed with rfl | old
      · exact targets _ (.inl (List.mem_map.mpr ⟨target, chosen, rfl⟩)) record member same
      · exact writes write old

end Selections

/-! Steps. -/

section Steps
variable {env : Environment} {state after : System} {sid : Sid} {next : Session}
  {locks : List Lock} {patch : Patch}

/-- Alone in its transaction, a session waits for nobody. -/
theorem Solo.waits_none (solo : Solo state)
    (alone : ∀ other, other ≠ sid → (state.sessions other).inTransaction = false) (lock : Lock) :
    state.waits sid lock = false := by
  refine not_blocked_iff.mpr ?_
  intro grant member _ different
  have open' := solo.holders grant member
  rw [alone grant.sid different] at open'
  cases open'

/-- The sweep finds every job in flight under a worker which it sees dead. -/
theorem Solo.covers (solo : Solo state)
    (alone : ∀ other, other ≠ sid → (state.sessions other).inTransaction = false) {now : Time}
    {lost : List Uuid} {sweep : Sweep}
    (made : sweepStatement state sid now lost = .hold (.reaperSwept sweep) locks) :
    sweep.covers state.db ∧ sweep.unassigned = [] := by
  cases made
  refine ⟨?_, rfl⟩
  intro record member inFlight dead
  refine List.mem_map.mpr ⟨record, List.mem_filter.mpr ⟨member, ?_⟩, rfl⟩
  simp [inFlight, dead, solo.waits_none alone]

/-- A worker which is deleted is dead in the reaper's view. -/
theorem prunedWorkers_dead {settings : Settings} {db : Db} {lost : List Uuid} {now : Time}
    {workerId : Uuid} (removed : workerId ∈ prunedWorkers settings db lost now) :
    deadInView db lost workerId = true := by
  obtain ⟨seen, listed, rfl⟩ := List.mem_map.mp removed
  obtain ⟨marked, longDead⟩ := List.mem_filter.mp listed
  obtain ⟨row, present, rfl⟩ := List.mem_map.mp marked
  simp only [Worker.longDead, Bool.and_eq_true, decide_eq_true_eq] at longDead
  exact List.any_eq_true.mpr ⟨row, present, by simp [markDead_id, longDead.1]⟩

/-- What a statement has selected is so in the database. -/
theorem Solo.selects (solo : Solo state) (shape : Shape state)
    (alone : ∀ other, other ≠ sid → (state.sessions other).inTransaction = false) {input : Input}
    (made : (state.sessions sid).effect env state sid input = some (.hold next locks)) :
    next.Current state.db := by
  have before := solo.current sid
  have advance := Session.effect_advance shape.distinct made
  generalize state.sessions sid = session at made before advance
  cases advance with
  | select =>
    unfold handingOver
    split <;> trivial
  | sweep => exact solo.covers alone (Option.some.inj made)
  | @prune sweep _ _ _ chosen referring =>
    intro record member unassigned
    obtain ⟨other, present, same, assigned, spared⟩ := (referring _).mp unassigned
    cases unique_record shape.distinct member present same.symm
    have dead : record.job.workerId.any (deadInView state.db sweep.lost) = true := by
      cases worker : record.job.workerId with
      | none => simp [worker] at assigned
      | some workerId =>
        simp only [worker, Option.any_some, decide_eq_true_eq] at assigned ⊢
        exact prunedWorkers_dead (chosen ▸ assigned)
    by_contra inFlight
    exact spared (before.1 record member (by simpa using inFlight) dead)
  | tickRead | tickWrite =>
    obtain ⟨tick, same, ticks⟩ := tickEffect_ticks made
    cases same
    exact ticks.pending shape.distinct before
  | _ => trivial

/-- What a request has selected first. -/
theorem Request.selects {request : Request}
    (made : request.effect env state sid = some (.hold next locks)) : next.Current state.db := by
  have advance := Request.effect_advance made
  generalize beginning : Session.idle = session at advance
  cases advance with
  | tryTick => exact ⟨by simp [Session.targetIds], by simp⟩
  | tickRead | tickWrite | sweep | prune | select => cases beginning
  | _ => trivial

/-- A session which has locks is in a transaction. -/
theorem Advance.inTransaction {session : Session} (advance : Advance env state session next locks) :
    next.inTransaction = true ∨ (session.inTransaction = false ∧ locks = []) := by
  cases advance with
  | select | handled => exact .inr ⟨rfl, rfl⟩
  | _ => exact .inl rfl

theorem Solo.hold (solo : Solo state) (advance : Advance env state (state.sessions sid) next locks)
    (selects : next.Current state.db) : Solo (state.hold sid next locks) := by
  refine ⟨?_, ?_, solo.consistent⟩
  · intro grant member
    by_cases own : grant.sid = sid
    · subst own
      rw [System.hold_sessions, Function.update_self]
      rcases advance.inTransaction with begun | ⟨outside, none⟩
      · exact begun
      · subst none
        have open' := solo.holders grant member
        rw [outside] at open'
        cases open'
    · rw [System.hold_sessions, Function.update_of_ne own]
      rcases List.mem_append.mp member with asked | held
      · obtain ⟨lock, _, rfl⟩ := List.mem_map.mp asked
        exact absurd rfl own
      · exact solo.holders grant held
  · exact System.update_sessions (fun _ session => session.Current state.db) selects
      fun other _ => solo.current other

/-- Where a transaction ends, its session holds nothing, and the others held nothing. -/
theorem Solo.holders_release (solo : Solo state) {sessions : Sid → Session}
    (others : ∀ other, other ≠ sid → sessions other = state.sessions other) :
    ∀ grant ∈ release state.grants sid, (sessions grant.sid).inTransaction = true := by
  intro grant member
  obtain ⟨held, different⟩ := List.mem_filter.mp member
  rw [others grant.sid (by simpa using different)]
  exact solo.holders grant held

theorem Solo.commit (solo : Solo state) (base : Base state)
    (alone : ∀ other, other ≠ sid → (state.sessions other).inTransaction = false)
    (commits : Commits state sid next patch) (later : Base (state.commit sid next patch))
    (entered : ∀ job ∈ patch.newJobs, job.Entered state.db state.nextUuid) :
    Solo (state.commit sid next patch) := by
  refine ⟨solo.holders_release fun _ different => Function.update_of_ne different .., ?_, ?_⟩
  · refine System.update_sessions (fun _ session => session.Current (state.db.apply patch)) ?_ ?_
    · refine .outside _ ?_
      have leaves := commits.leaves
      generalize state.sessions sid = session at leaves
      cases leaves <;> rfl
    · exact fun other different => .outside _ (alone other different)
  · intro record member
    have sound := later.sound record member
    rcases commits.origin member with ⟨old, present, _, _, move⟩ | ⟨job, inserted, rfl⟩
    · exact move.consistent present (base.sound old present) sound (solo.current sid)
        (solo.consistent old present)
    · have fresh := (commits.inserted job inserted).1
      refine .of_sound sound (fun inFlight => ?_) (fun _ _ => fresh.workerId) ?_
      · rcases fresh.status with status | status <;> simp [status, JobStatus.inFlight] at inFlight
      · rcases fresh.status with status | status <;>
          simp [status, (entered job inserted).unfinished]

theorem Solo.rollback (solo : Solo state) (sid : Sid) : Solo (state.rollback sid) where
  holders := solo.holders_release fun _ different => Function.update_of_ne different ..
  current := System.update_sessions (fun _ session => session.Current state.db) trivial
    fun other _ => solo.current other
  consistent := solo.consistent

theorem Solo.submit (solo : Solo state) {newSid : Sid} {workerId : Uuid} {task : Task}
    {rest : List Task} (handing : state.sessions sid = .handing workerId (task :: rest))
    (idle : state.sessions newSid = .idle) :
    Solo (state.handed sid newSid workerId task rest) := by
  refine ⟨?_, ?_, solo.consistent⟩
  · intro grant member
    have open' := solo.holders grant member
    have first : grant.sid ≠ sid := by
      intro same
      rw [same, handing] at open'
      cases open'
    have second : grant.sid ≠ newSid := by
      intro same
      rw [same, idle] at open'
      cases open'
    rwa [System.handed_sessions, Function.update_of_ne second, Function.update_of_ne first]
  · refine System.handed_forall (fun _ session => session.Current state.db) trivial ?_
      fun other _ => solo.current other
    unfold handingOver
    split <;> trivial

theorem Solo.step (solo : Solo state) (fenced : Fenced state) (references : References state)
    (shape : Shape state) (later : Fenced after) {action : Action} (alone : Alone state action)
    (taken : Pulse.step env state action = some after) : Solo after := by
  cases step_inverted taken with
  | @begin sid request effect _ idle made performed =>
    cases effect with
    | hold next locks =>
      obtain ⟨_, rfl⟩ := System.perform_hold performed
      exact solo.hold (idle ▸ Request.effect_advance made) (Request.selects made)
    | commit next locks patch =>
      obtain ⟨free, rfl⟩ := System.perform_commit performed
      exact solo.commit fenced.base alone (Request.effect_commits fenced.base idle made free)
        later.base (references.entered shape (Request.effect_publishes idle made free))
    | rollback =>
      cases Option.some.inj performed
      exact solo.rollback sid
  | @next sid input effect _ _ made performed =>
    cases effect with
    | hold next locks =>
      obtain ⟨_, rfl⟩ := System.perform_hold performed
      exact solo.hold (Session.effect_advance shape.distinct made) (solo.selects shape alone made)
    | commit next locks patch =>
      obtain ⟨_, rfl⟩ := System.perform_commit performed
      exact solo.commit fenced.base alone (Session.effect_commits fenced.base made) later.base
        (references.entered shape (Session.effect_publishes made))
    | rollback =>
      cases Option.some.inj performed
      exact solo.rollback sid
  | fail => exact solo.rollback _
  | submit handing idle => exact solo.submit handing idle
  | exit => exact ⟨solo.holders, solo.current, solo.consistent⟩
  | reregister => exact ⟨solo.holders, fun sid => .outside _ (alone sid), solo.consistent⟩

theorem initial_solo : Solo {} where
  holders := fun _ member => nomatch member
  current := fun _ => trivial
  consistent := fun _ member => nomatch member

theorem Solo.reachable (returning : env.handover = .returning)
    (reachable : (pulse env).Reachable Alone state) : Solo state := by
  have all : Fenced state ∧ Shape state ∧ References state ∧ Solo state := by
    refine @Machine.Reachable.invariant _ _ (pulse env) Alone
      (fun state => Fenced state ∧ Shape state ∧ References state ∧ Solo state) ?_ ?_ state reachable
    · rintro _ rfl
      exact ⟨initial_fenced, initial_shape, initial_references, initial_solo⟩
    · rintro earlier action next ⟨fenced, shape, references, solo⟩ alone taken
      have later := fenced.step (returning_hands returning earlier action) taken
      exact ⟨later, shape.step taken, references.step shape taken,
        solo.step fenced references shape later alone taken⟩
  exact all.2.2.2

/-- Where transactions are atomic and a claim returns what it wrote, the columns of every
job agree with its status in every reachable state. -/
theorem records_consistent (returning : env.handover = .returning)
    (reachable : (pulse env).Reachable Alone state) :
    ∀ record ∈ state.db.jobs, record.Consistent :=
  (Solo.reachable returning reachable).consistent

end Steps

/-- The steps of the listed sessions, each alone among them. -/
def AloneAmong (sids : List Sid) (state : System) (action : Action) : Prop :=
  Within sids state action ∧ match action with
    | .begin sid _ | .next sid _ =>
      ∀ other ∈ sids, other ≠ sid → (state.sessions other).inTransaction = false
    | _ => action.sids ≠ []

instance (sids : List Sid) (state : System) :
    (action : Action) → Decidable (AloneAmong sids state action)
  | .begin .. | .next .. => inferInstanceAs (Decidable (_ ∧ ∀ _ ∈ _, _ → _ = _))
  | .fail .. | .submit .. | .exit .. | .reregister .. => inferInstanceAs (Decidable (_ ∧ _ ≠ _))

theorem alone_of_among {env : Environment} {sids : List Sid} {state : System}
    (reachable : (pulse env).Reachable (AloneAmong sids) state) :
    (pulse env).Reachable Alone state := by
  refine reachable_of_within (fun _ _ => And.left) ?_ reachable
  intro earlier action idle among
  have alone : ∀ other, (other ∈ sids → (earlier.sessions other).inTransaction = false) →
      (earlier.sessions other).inTransaction = false := by
    intro other inside
    by_cases listed : other ∈ sids
    · exact inside listed
    · rw [idle other listed]
      rfl
  cases action with
  | begin sid | next sid =>
    exact fun other different => alone other fun listed => among.2 other listed different
  | reregister => exact absurd rfl among.2
  | _ => trivial

/-- A job runs when its worker, long silent, is found dead and deleted. -/
def lostAndDeleted : List Action := executedOnce.dropLast ++ [
  .begin 2 .reaper,
  .next 2 { now := 100000 },
  .next 2 {},
  .next 2 {},
  .next 2 {},
  .next 2 { prune := true, now := 100000 },
  .next 2 {}]

theorem records_consistent_lost : ∃ state, (pulse (sample .returning)).Reachable Alone state ∧
    state.db.workers = [] ∧
    ∃ record ∈ state.db.jobs, record.job.status = .queued ∧ record.job.attempts = 1 ∧
      record.Consistent := by
  have ran : ((pulse (sample .returning)).run (AloneAmong [0, 1, 2, 10]) {} lostAndDeleted).any
      (fun state => state.db.workers = [] && state.db.jobs.any fun record =>
        record.job.status = .queued && record.job.attempts = 1) = true := by
    decide +kernel
  obtain ⟨state, among, passes⟩ := Machine.reachable_of_check rfl lostAndDeleted ran
  simp only [Bool.and_eq_true, List.any_eq_true, decide_eq_true_eq] at passes
  obtain ⟨pruned, record, member, queued, charged⟩ := passes
  have reachable := alone_of_among among
  exact ⟨state, reachable, pruned, record, member, queued, charged,
    records_consistent rfl reachable record member⟩

end Pulse
