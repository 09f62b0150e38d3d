import Pulse.System.Runs

/-! Whose jobs the reaper takes: workers which were silent for the visibility timeout, or
which have ended themselves. -/
namespace Pulse
open Library.RowLock Library.Lts

/-- The last heartbeat, or else the registration, was before the cutoff. -/
def Worker.silent (cutoff : Time) (row : Worker) : Prop :=
  row.lastHeartbeatAt.getD row.registeredAt < cutoff

instance (cutoff : Time) (row : Worker) : Decidable (row.silent cutoff) :=
  inferInstanceAs (Decidable (_ < _))

/-- Auxiliary: the time which a reaper has read last, and the workers which have set
themselves dead. -/
structure Watch where
  clock : Time
  retired : List Uuid := []
deriving Repr

def Watch.note (state : System) (action : Action) (watch : Watch) : Watch :=
  match action with
  | .next sid input => match state.sessions sid with
    | .reaperLocked => { watch with clock := input.now }
    | .workerLoaded workerId _ .retire => { watch with retired := workerId :: watch.retired }
    | _ => watch
  | _ => watch

def watched (env : Environment) : Machine (System × Watch) Action :=
  (pulse env).recorded (fun watch => watch.retired = []) Watch.note

/-- The worker has ended itself, or was silent before the cutoff of the reaper which has
read the clock last. -/
def Watch.Gone (env : Environment) (watch : Watch) (row : Worker) : Prop :=
  row.id ∈ watch.retired ∨ row.silent (watch.clock - env.settings.visibilityTimeoutSec)

instance (env : Environment) (watch : Watch) (row : Worker) : Decidable (watch.Gone env row) :=
  inferInstanceAs (Decidable (_ ∨ _))

/-- A job which the reaper is about to recover belonged, when it was selected, to a worker
which was gone. -/
def ReapsGone (env : Environment) (state : System) (watch : Watch) : Prop :=
  ∀ sid input now lost sweep after, state.sessions sid = .reaperMarked now lost →
    step env state (.next sid input) = some after → (after.sessions sid).sweep? = some sweep →
    ∀ record ∈ state.db.jobs, record.job.id ∈ sweep.orphans →
      ∃ row ∈ state.db.workers, record.job.workerId = some row.id ∧ (row.id ∈ watch.retired ∨
        row.silent (now - env.settings.visibilityTimeoutSec))

/-- Reapers read a clock which does not go backwards; whom one marks dead is gone when it
does so; and an update of a worker's row which leaves it dead leaves it gone. -/
def Session.MarksGone (env : Environment) (db : Db) (watch : Watch) (input : Input) : Session → Prop
  | .reaperLocked => watch.clock ≤ input.now
  | .reaperRead _ lost => ∀ row ∈ db.workers, row.id ∈ lost → watch.Gone env row
  | .workerLoaded workerId loaded update => ∀ row ∈ db.workers, row.id = workerId →
      update ≠ .retire → (update.write loaded input.now row).status = .dead →
        watch.Gone env (update.write loaded input.now row)
  | _ => True

def MarksGone (env : Environment) (pair : System × Watch) : Action → Prop
  | .next sid input => (pair.1.sessions sid).MarksGone env pair.1.db pair.2 input
  | _ => True

instance (env : Environment) (db : Db) (watch : Watch) (input : Input) :
    (session : Session) → Decidable (session.MarksGone env db watch input)
  | .reaperLocked => inferInstanceAs (Decidable (_ ≤ _))
  | .reaperRead .. => inferInstanceAs (Decidable (∀ _ ∈ _, _ → _))
  | .workerLoaded .. => inferInstanceAs (Decidable (∀ _ ∈ _, _ → _ → _ → _))
  | .idle | .claimLocked .. | .claimWritten .. | .claimCommitted .. | .handing .. | .execute ..
  | .starting .. | .handling .. | .returned .. | .finishing .. | .reaperStale .. | .reaperMarked ..
  | .reaperSwept .. | .reaperPruned .. | .tick .. | .cancelling .. | .retrying .. | .superseded ..
  | .replaying .. | .replayingJob .. => isTrue trivial

instance (env : Environment) (pair : System × Watch) :
    (action : Action) → Decidable (MarksGone env pair action)
  | .next _ _ => inferInstanceAs (Decidable (Session.MarksGone ..))
  | .begin .. | .fail .. | .submit .. | .exit .. | .reregister .. => isTrue trivial

/-- The time which the reaper's transaction has read. -/
def Session.reads : Session → Option Time
  | .reaperStale now _ | .reaperRead now _ | .reaperMarked now _ => some now
  | .reaperSwept sweep | .reaperPruned sweep => some sweep.now
  | _ => none

/-- The workers which it has found. -/
def Session.finds : Session → List Uuid
  | .reaperStale _ lost | .reaperRead _ lost | .reaperMarked _ lost => lost
  | .reaperSwept sweep | .reaperPruned sweep => sweep.lost
  | _ => []

/-- The workers which it has marked dead. -/
def Session.marks : Session → List Uuid
  | .reaperMarked _ lost => lost
  | .reaperSwept sweep | .reaperPruned sweep => sweep.lost
  | _ => []

/-- What a reaper has read is the last reading of the clock, and whom it has marked dead
is gone. -/
structure Session.Watches (env : Environment) (state : System) (watch : Watch)
    (session : Session) : Prop where
  reads : ∀ now, session.reads = some now → now = watch.clock
  known : ∀ id ∈ session.finds, id < state.nextUuid
  marked : ∀ id ∈ session.marks, ∀ row ∈ state.db.workers, row.id = id → watch.Gone env row

structure Watched (env : Environment) (state : System) (watch : Watch) : Prop where
  shape : Shape state
  dead : ∀ row ∈ state.db.workers, row.status = .dead → watch.Gone env row
  sessions : ∀ sid, (state.sessions sid).Watches env state watch

section Sessions
variable {env : Environment} {state after : System} {watch later : Watch} {sid other : Sid}
  {session next : Session} {locks : List Lock} {row : Worker}

theorem Session.marks_found {id : Uuid} (marked : id ∈ session.marks) : id ∈ session.finds := by
  cases session with
  | reaperMarked | reaperSwept | reaperPruned => exact marked
  | _ => cases marked

/-- Whatever a reaper has marked it has locked. -/
theorem Session.marks_locked {id : Uuid} (marked : id ∈ session.marks) :
    (Key.worker id, Mode.noKeyUpdate) ∈ session.locks := by
  cases session with
  | reaperMarked | reaperSwept | reaperPruned =>
    simp only [Session.marks] at marked
    simp [Session.locks, marked]
  | _ => cases marked

/-- There is one reaper at a time. -/
theorem Session.reads_locked {now : Time} (reads : session.reads = some now) :
    (Key.reaperLock, Mode.update) ∈ session.locks := by
  cases session with
  | reaperStale | reaperRead | reaperMarked | reaperSwept | reaperPruned => simp [Session.locks]
  | _ => cases reads

theorem Session.marks_read {id : Uuid} (marked : id ∈ session.marks) :
    ∃ now, session.reads = some now := by
  cases session with
  | reaperMarked now => exact ⟨now, rfl⟩
  | reaperSwept sweep | reaperPruned sweep => exact ⟨sweep.now, rfl⟩
  | _ => cases marked

/-- A session which is no reaper has read nothing. -/
theorem Session.Watches.quiet (reads : session.reads = none) (finds : session.finds = []) :
    session.Watches env state watch := by
  refine ⟨by simp [reads], by simp [finds], ?_⟩
  intro id marked
  have found := Session.marks_found marked
  rw [finds] at found
  cases found

theorem Watch.Gone.mono (gone : watch.Gone env row) (clock : watch.clock ≤ later.clock)
    (retired : watch.retired ⊆ later.retired) : later.Gone env row := by
  rcases gone with ended | silent
  · exact .inl (retired ended)
  · refine .inr (lt_of_lt_of_le silent ?_)
    exact sub_le_sub_right clock _

/-- The record only grows. -/
theorem Watch.note_grows {action : Action} (marks : MarksGone env (state, watch) action) :
    watch.clock ≤ (watch.note state action).clock ∧
      watch.retired ⊆ (watch.note state action).retired := by
  cases action with
  | next sid input =>
    simp only [Watch.note, MarksGone] at marks ⊢
    split
    · rename_i locked
      rw [locked] at marks
      exact ⟨marks, fun _ => id⟩
    · exact ⟨le_refl _, fun _ => List.mem_cons_of_mem _⟩
    · exact ⟨le_refl _, fun _ => id⟩
  | _ => exact ⟨le_refl _, fun _ => id⟩

/-- The session stays as it is while the rows which it has marked do. -/
theorem Session.Watches.kept (watches : session.Watches env state watch)
    (grows : state.nextUuid ≤ after.nextUuid)
    (reads : ∀ now, session.reads = some now → later.clock = watch.clock)
    (retired : watch.retired ⊆ later.retired)
    (rows : ∀ id ∈ session.marks, ∀ row ∈ after.db.workers, row.id = id → row ∈ state.db.workers) :
    session.Watches env after later := by
  refine ⟨?_, fun id found => Nat.lt_of_lt_of_le (watches.known id found) grows, ?_⟩
  · intro now read
    rw [reads now read]
    exact watches.reads now read
  · intro id marked row member same
    obtain ⟨now, read⟩ := Session.marks_read marked
    have gone := watches.marked id marked row (rows id marked row member same) same
    exact gone.mono (le_of_eq (reads now read).symm) retired

/-- Nobody else reads the clock while a reaper is at work. -/
theorem Watch.note_clock (shape : Shape state) {input : Input} (different : other ≠ sid)
    {now : Time} (reads : (state.sessions other).reads = some now) :
    (watch.note state (.next sid input)).clock = watch.clock := by
  simp only [Watch.note]
  split
  · rename_i locked
    have held := shape.granted other _ (Session.reads_locked reads)
    have taken := shape.granted sid (.reaperLock, .update) (by simp [locked, Session.locks])
    exact absurd (shape.compatible.holder_unique held taken rfl) different
  · rfl
  · rfl

/-! Steps. -/

/-- What a statement inside a transaction has read or marked. -/
theorem Watched.advance (watched : Watched env state watch) {input : Input}
    (marks : MarksGone env (state, watch) (.next sid input))
    (made : (state.sessions sid).effect env state sid input = some (.hold next locks)) :
    next.Watches env (state.hold sid next locks) (watch.note state (.next sid input)) := by
  have advance := Session.effect_advance watched.shape.distinct made
  have before := watched.sessions sid
  have positive := watched.shape.positive
  have workers : ∀ {filter : Worker → Bool},
      ∀ id ∈ (state.db.workers.filter filter).map Worker.id, id < 2 * state.nextUuid := by
    intro filter id listed
    have below := watched.shape.issued.workers.2 id ((List.filter_sublist.map _).subset listed)
    lia
  have known : ∀ {id : Uuid}, id < state.nextUuid → id < 2 * state.nextUuid := fun below => by lia
  simp only [Watch.note, MarksGone] at marks ⊢
  generalize state.sessions sid = session at made advance before marks
  cases advance with
  | readStale =>
    cases Option.some.inj made
    exact ⟨fun _ read => (Option.some.inj read).symm, workers, by simp [Session.marks]⟩
  | readSilent =>
    refine ⟨before.reads, ?_, by simp [Session.marks]⟩
    intro id found
    rcases List.mem_append.mp found with old | new
    · exact known (before.known id old)
    · exact workers id new
  | markDead =>
    refine ⟨before.reads, fun id found => known (before.known id found), ?_⟩
    intro id marked row member same
    exact marks row member (same ▸ marked)
  | sweep | prune =>
    exact ⟨before.reads, fun id found => known (before.known id found), before.marked⟩
  | select =>
    refine .quiet ?_ ?_ <;> unfold handingOver <;> split <;> rfl
  | _ => exact .quiet rfl rfl

/-- The rows of `workers` after the commit of a session, each as it was before, written by
its own worker or marked dead. -/
theorem Session.effect_workers {input : Input} {patch : Patch}
    (made : session.effect env state sid input = some (.commit next locks patch))
    (member : row ∈ patch.workers state.db.workers) :
    row ∈ state.db.workers ∨
      (∃ workerId loaded update, ∃ old ∈ state.db.workers,
        session = .workerLoaded workerId loaded update ∧
          locks = [(.worker workerId, .noKeyUpdate)] ∧ old.id = workerId ∧
            row = update.write loaded input.now old) ∨
      ∃ old ∈ state.db.workers, old.id ∈ session.marks ∧ row = markDead session.marks old := by
  by_cases loads : ∃ workerId loaded update, session = .workerLoaded workerId loaded update
  · obtain ⟨workerId, loaded, update, rfl⟩ := loads
    simp only [Session.effect] at made
    split at made
    · cases made
    · cases Option.some.inj made
      obtain ⟨old, present, rfl⟩ := List.mem_map.mp member
      by_cases same : old.id = workerId
      · exact .inr (.inl ⟨workerId, loaded, update, old, present, rfl, rfl, same,
          by simp [onId, same]⟩)
      · left
        simpa [onId, same] using present
  · cases Session.effect_closes made with
    | worker => exact absurd ⟨_, _, _, rfl⟩ loads
    | @sweep _ sweep running =>
      have marks : session.marks = sweep.lost := by rcases running with rfl | rfl <;> rfl
      obtain ⟨marked, _⟩ := List.mem_filter.mp member
      obtain ⟨old, present, rfl⟩ := List.mem_map.mp marked
      by_cases lost : old.id ∈ sweep.lost
      · exact .inr (.inr ⟨old, present, marks ▸ lost, by rw [marks]⟩)
      · left
        simpa [markDead, lost] using present
    | _ => exact .inl member

theorem Watch.Gone.marked (gone : watch.Gone env row) (lost : List Uuid) :
    watch.Gone env (markDead lost row) := by
  unfold markDead
  split <;> exact gone

/-- Every row which a session's commit leaves dead is gone. -/
theorem Watched.closes_dead (watched : Watched env state watch) {input : Input} {patch : Patch}
    (marks : MarksGone env (state, watch) (.next sid input))
    (made : (state.sessions sid).effect env state sid input = some (.commit next locks patch))
    (member : row ∈ patch.workers state.db.workers) (dead : row.status = .dead) :
    (watch.note state (.next sid input)).Gone env row := by
  obtain ⟨clock, retired⟩ := Watch.note_grows marks
  rcases Session.effect_workers made member with
    old | ⟨workerId, loaded, update, old, present, running, _, same, rfl⟩ | ⟨old, present, lost, rfl⟩
  · exact (watched.dead row old dead).mono clock retired
  · by_cases retires : update = .retire
    · left
      rw [update.write_id, same]
      simp [Watch.note, running, retires]
    · simp only [MarksGone, Session.MarksGone, running] at marks
      exact (marks old present same retires dead).mono clock retired
  · have gone := (watched.sessions sid).marked old.id lost old present rfl
    exact (gone.mono clock retired).marked _

/-- Another reaper's commit, or a worker's, leaves the rows which a reaper has marked. -/
theorem Watched.marks_kept (watched : Watched env state watch) {input : Input} {patch : Patch}
    (made : (state.sessions sid).effect env state sid input = some (.commit next locks patch))
    (free : locks.any (state.waits sid) = false) (different : other ≠ sid) {id : Uuid}
    (marked : id ∈ (state.sessions other).marks) (member : row ∈ patch.workers state.db.workers)
    (same : row.id = id) : row ∈ state.db.workers := by
  have shape := watched.shape
  rcases Session.effect_workers made member with
    old | ⟨workerId, loaded, update, old, _, _, rfl, own, rfl⟩ | ⟨old, _, lost, _⟩
  · exact old
  · rw [update.write_id, own] at same
    subst same
    have held := shape.granted other _ (Session.marks_locked marked)
    have clear := Base.unblocked free _ (List.mem_singleton_self _)
    exact absurd (held.excludes clear rfl) different
  · obtain ⟨_, reads⟩ := Session.marks_read marked
    obtain ⟨_, ours⟩ := Session.marks_read lost
    have held := shape.granted other _ (Session.reads_locked reads)
    have taken := shape.granted sid _ (Session.reads_locked ours)
    exact absurd (shape.compatible.holder_unique held taken rfl) different

theorem Closes.quiet {patch : Patch} (closes : Closes env state session next patch) :
    next.reads = none ∧ next.finds = [] := by
  cases closes with
  | claim => split <;> exact ⟨rfl, rfl⟩
  | _ => exact ⟨rfl, rfl⟩

theorem Watched.next_commit (watched : Watched env state watch) {input : Input} {patch : Patch}
    (marks : MarksGone env (state, watch) (.next sid input))
    (made : (state.sessions sid).effect env state sid input = some (.commit next locks patch))
    (free : locks.any (state.waits sid) = false) :
    Watched env (state.commit sid next patch) (watch.note state (.next sid input)) := by
  obtain ⟨_, retired⟩ := Watch.note_grows marks
  obtain ⟨reads, finds⟩ := (Session.effect_closes made).quiet
  refine ⟨watched.shape.commit (Session.effect_publishes made),
    fun row member dead => watched.closes_dead marks made member dead, ?_⟩
  refine System.update_sessions (fun _ session => session.Watches env (state.commit sid next patch)
    (watch.note state (.next sid input))) (.quiet reads finds) ?_
  intro other different
  refine (watched.sessions other).kept ?_ (fun _ => Watch.note_clock watched.shape different)
    retired fun id marked row member same =>
      watched.marks_kept made free different marked member same
  rw [System.commit_nextUuid]
  lia

theorem Watched.next_hold (watched : Watched env state watch) {input : Input}
    (marks : MarksGone env (state, watch) (.next sid input))
    (made : (state.sessions sid).effect env state sid input = some (.hold next locks))
    (free : locks.any (state.waits sid) = false) :
    Watched env (state.hold sid next locks) (watch.note state (.next sid input)) := by
  obtain ⟨clock, retired⟩ := Watch.note_grows marks
  have advance := Session.effect_advance watched.shape.distinct made
  refine ⟨watched.shape.hold advance free,
    fun row member dead => (watched.dead row member dead).mono clock retired, ?_⟩
  refine System.update_sessions (fun _ session => session.Watches env (state.hold sid next locks)
    (watch.note state (.next sid input))) (watched.advance marks made) ?_
  intro other different
  refine (watched.sessions other).kept ?_ (fun _ => Watch.note_clock watched.shape different)
    retired fun _ _ _ member _ => member
  rw [System.hold_nextUuid]
  lia

/-- Steps which mark no row and read no clock: new workers are not dead. -/
theorem Watched.relax (watched : Watched env state watch) (shape : Shape after)
    (grows : state.nextUuid ≤ after.nextUuid)
    (rows : ∀ row ∈ after.db.workers, row ∈ state.db.workers ∨
      (row.status ≠ .dead ∧ row.id = state.nextUuid))
    (sessions : ∀ sid, after.sessions sid = state.sessions sid ∨
      ((after.sessions sid).reads = none ∧ (after.sessions sid).finds = [])) :
    Watched env after watch := by
  refine ⟨shape, ?_, ?_⟩
  · intro row member dead
    rcases rows row member with old | ⟨alive, _⟩
    · exact watched.dead row old dead
    · exact absurd dead alive
  · intro sid
    rcases sessions sid with same | ⟨reads, finds⟩
    · rw [same]
      refine (watched.sessions sid).kept grows (fun _ _ => rfl) (fun _ => id) ?_
      intro id marked row member named
      rcases rows row member with old | ⟨_, new⟩
      · exact old
      · have below := (watched.sessions sid).known id (Session.marks_found marked)
        exact absurd (named ▸ new) (Nat.ne_of_lt below)
    · exact .quiet reads finds

theorem Advance.begins_quiet (advance : Advance env state .idle next locks) :
    next.reads = none ∧ next.finds = [] := by
  cases advance <;> exact ⟨rfl, rfl⟩

theorem Answers.worker_rows {now : Time} {call : ApiCall} {patch : Patch}
    (answers : Answers env state now call locks patch)
    (member : row ∈ patch.workers state.db.workers) :
    row ∈ state.db.workers ∨ (row.status ≠ .dead ∧ row.id = state.nextUuid) := by
  cases answers with
  | registerWorker =>
    rcases List.mem_append.mp member with old | new
    · exact .inl old
    · rw [List.mem_singleton.mp new]
      exact .inr ⟨nofun, rfl⟩
  | deleteSchedule made | deleteQueue made =>
    cases made
    exact .inl member
  | _ => exact .inl member

theorem Watched.step (watched : Watched env state watch) {action : Action}
    (marks : MarksGone env (state, watch) action)
    (taken : Pulse.step env state action = some after) :
    Watched env after (watch.note state action) := by
  have shape := watched.shape.step taken
  have one : ∀ {sid : Sid} {next : Session}, next.reads = none → next.finds = [] →
      ∀ other, Function.update state.sessions sid next other = state.sessions other ∨
        ((Function.update state.sessions sid next other).reads = none ∧
          (Function.update state.sessions sid next other).finds = []) := by
    intro sid next reads finds
    exact System.update_sessions (fun other session => session = state.sessions other ∨
      (session.reads = none ∧ session.finds = [])) (.inr ⟨reads, finds⟩) fun _ _ => .inl rfl
  cases step_inverted taken with
  | @begin sid request effect _ idle made performed =>
    cases effect with
    | hold next locks =>
      obtain ⟨_, rfl⟩ := System.perform_hold performed
      obtain ⟨reads, finds⟩ := (Request.effect_advance made).begins_quiet
      refine watched.relax shape ?_ (fun _ => .inl) (one reads finds)
      rw [System.hold_nextUuid]
      lia
    | commit next locks patch =>
      obtain ⟨_, rfl⟩ := System.perform_commit performed
      obtain ⟨now, call, _, rfl, answers⟩ := Request.effect_closes made
      refine watched.relax shape ?_ (fun row => answers.worker_rows) (one rfl rfl)
      rw [System.commit_nextUuid]
      lia
    | rollback =>
      cases Option.some.inj performed
      exact watched.relax shape (le_refl _) (fun _ => .inl) (one rfl rfl)
  | @next sid input effect _ _ made performed =>
    cases effect with
    | hold next locks =>
      obtain ⟨free, rfl⟩ := System.perform_hold performed
      exact watched.next_hold marks made free
    | commit next locks patch =>
      obtain ⟨free, rfl⟩ := System.perform_commit performed
      exact watched.next_commit marks made free
    | rollback =>
      cases Option.some.inj performed
      have same : watch.note state (.next sid input) = watch := by
        simp only [Watch.note]
        split
        · rename_i locked
          rw [locked] at made
          cases made
        · rename_i loaded
          rw [loaded] at made
          simp only [Session.effect] at made
          split at made <;> cases made
        · rfl
      rw [same]
      exact watched.relax shape (le_refl _) (fun _ => .inl) (one rfl rfl)
  | fail => exact watched.relax shape (le_refl _) (fun _ => .inl) (one rfl rfl)
  | submit =>
    refine watched.relax shape (le_refl _) (fun _ => .inl) ?_
    refine System.handed_forall (fun other session => session = state.sessions other ∨
      (session.reads = none ∧ session.finds = [])) (.inr ⟨rfl, rfl⟩) ?_ fun _ _ => .inl rfl
    unfold handingOver
    split <;> exact .inr ⟨rfl, rfl⟩
  | exit => exact watched.relax shape (le_refl _) (fun _ => .inl) fun _ => .inl rfl
  | reregister =>
    refine watched.relax shape ?_ ?_ fun _ => .inl rfl
    · show state.nextUuid ≤ 2 * state.nextUuid
      lia
    · intro row member
      rcases List.mem_append.mp member with old | new
      · exact .inl old
      · rw [List.mem_singleton.mp new]
        exact .inr ⟨by simp, rfl⟩

/-- The reaper recovers jobs of workers which are gone alone. -/
theorem Watched.recovers_gone (watched : Watched env state watch) : ReapsGone env state watch := by
  intro sid input now lost sweep after marked taken swept record member orphan
  obtain ⟨effect, made, performed⟩ := next_effect taken
  have ours := watched.sessions sid
  rw [marked] at made ours
  cases Option.some.inj made
  obtain ⟨_, rfl⟩ := System.perform_hold performed
  rw [System.hold_sessions, Function.update_self] at swept
  cases swept
  cases ours.reads now rfl
  obtain ⟨seen, listed, same⟩ := List.mem_map.mp orphan
  obtain ⟨present, matching⟩ := List.mem_filter.mp listed
  cases unique_record watched.shape.distinct member present same.symm
  simp only [Bool.and_eq_true, Option.any_eq_true, deadInView, List.any_eq_true,
    decide_eq_true_eq] at matching
  obtain ⟨⟨_, workerId, assigned, row, known, named, dead⟩, _⟩ := matching
  refine ⟨row, known, by rw [assigned, named], ?_⟩
  unfold markDead at dead
  split at dead
  · rename_i listed
    exact ours.marked row.id listed row known rfl
  · exact watched.dead row known dead

/-- In every run in which whoever is marked dead is gone, the reaper recovers only jobs of
workers which had ended themselves or whose last heartbeat was older than its cutoff. -/
theorem reaps_gone {pair : System × Watch}
    (reachable : (watched env).Reachable (MarksGone env) pair) : ReapsGone env pair.1 pair.2 := by
  have all : Watched env pair.1 pair.2 := by
    refine @Machine.Reachable.invariant _ _ (watched env) (MarksGone env)
      (fun pair => Watched env pair.1 pair.2) ?_ ?_ pair reachable
    · rintro ⟨_, watch⟩ ⟨rfl, _⟩
      exact ⟨initial_shape, by simp, fun _ => .quiet rfl rfl⟩
    · rintro ⟨state, watch⟩ action ⟨after, later⟩ watched marks taken
      obtain ⟨stepped, noted⟩ := Machine.recorded_step taken
      cases noted
      exact watched.step marks stepped
  exact all.recovers_gone

end Sessions

/-- The session's sweep would take a job of a worker which is not gone. -/
def sweepsLive (env : Environment) (sid : Sid) (pair : System × Watch) : Bool :=
  match pair.1.sessions sid with
  | .reaperMarked now _ => ((step env pair.1 (.next sid {})).bind fun after =>
      (after.sessions sid).sweep?).any fun sweep => pair.1.db.jobs.any fun record =>
        record.job.id ∈ sweep.orphans && pair.1.db.workers.all fun row =>
          record.job.workerId ≠ some row.id || (row.id ∉ pair.2.retired &&
            ¬ row.silent (now - env.settings.visibilityTimeoutSec))
  | _ => false

theorem not_reapsGone {env : Environment} {sid : Sid} {pair : System × Watch}
    (live : sweepsLive env sid pair = true) : ¬ ReapsGone env pair.1 pair.2 := by
  intro gone
  unfold sweepsLive at live
  split at live
  · rename_i now lost marked
    obtain ⟨sweep, taken, found⟩ := (Option.any_eq_true _ _).mp live
    obtain ⟨after, stepped, swept⟩ := Option.bind_eq_some_iff.mp taken
    obtain ⟨record, member, found⟩ := List.any_eq_true.mp found
    simp only [Bool.and_eq_true, decide_eq_true_eq] at found
    obtain ⟨row, known, assigned, ended⟩ :=
      gone sid {} now lost sweep after marked stepped swept record member found.1
    have alive := List.all_eq_true.mp found.2 row known
    simp only [assigned, ne_eq, not_true_eq_false, decide_false, Bool.false_or, Bool.and_eq_true,
      decide_eq_true_eq] at alive
    rcases ended with retired | silent
    · exact alive.1 retired
    · exact alive.2 silent
  · cases live

/-- A worker was silent for the visibility timeout and a reaper sweeps its job. -/
theorem reaps_gone_silent : ∃ pair, (watched (sample .reread)).Reachable (MarksGone (sample .reread)) pair ∧
    pair.1.sessions 2 = .reaperMarked 100 [2] ∧ ReapsGone (sample .reread) pair.1 pair.2 := by
  have ran : ((watched (sample .reread)).run (MarksGone (sample .reread)) ({}, { clock := 0 })
      (claimedOnce ++ [
        .begin 7 (.updateWorker 4 (.heartbeat (some false))),
        .next 7 { now := 95 },
        .begin 2 .reaper,
        .next 2 { now := 100 },
        .next 2 {},
        .next 2 {}])).any (fun pair => pair.1.sessions 2 = .reaperMarked 100 [2]) = true := by
    decide +kernel
  obtain ⟨pair, reachable, passes⟩ := Machine.reachable_of_check (by exact ⟨rfl, rfl⟩) _ ran
  exact ⟨pair, reachable, by simpa using passes, reaps_gone reachable⟩

/-- A heartbeat commits between the reaper's read of the stale workers and its UPDATE. -/
theorem live_worker_reaped : ∃ pair, (watched (sample .reread)).Reachable anyStep pair ∧
    ¬ ReapsGone (sample .reread) pair.1 pair.2 := by
  have ran : ((watched (sample .reread)).run anyStep ({}, { clock := 0 }) (claimedOnce ++ [
      .begin 2 .reaper,
      .next 2 { now := 100 },
      .next 2 {},
      .begin 7 (.updateWorker 2 (.heartbeat (some true))),
      .next 7 { now := 100 },
      .next 2 {}])).any (sweepsLive (sample .reread) 2) = true := by
    decide +kernel
  obtain ⟨pair, reachable, passes⟩ := Machine.reachable_of_check (by exact ⟨rfl, rfl⟩) _ ran
  exact ⟨pair, reachable, not_reapsGone passes⟩

/-- A heartbeat which has read its row before the reaper marked it leaves the row dead,
and the next reaper takes what the worker has claimed since. -/
theorem late_heartbeat_reaped : ∃ pair, (watched (sample .reread)).Reachable anyStep pair ∧
    ¬ ReapsGone (sample .reread) pair.1 pair.2 := by
  have ran : ((watched (sample .reread)).run anyStep ({}, { clock := 0 }) (claimedOnce ++ [
      .begin 7 (.updateWorker 2 (.heartbeat (some false))),
      .begin 2 .reaper,
      .next 2 { now := 100 },
      .next 2 {},
      .next 2 {},
      .next 2 {},
      .next 2 {},
      .next 7 { now := 101 },
      .begin 3 (.claimJobs 1 2 1 101),
      .next 3 { picked := [8] },
      .next 3 {},
      .begin 2 .reaper,
      .next 2 { now := 110 },
      .next 2 {},
      .next 2 {}])).any (sweepsLive (sample .reread) 2) = true := by
    decide +kernel
  obtain ⟨pair, reachable, passes⟩ := Machine.reachable_of_check (by exact ⟨rfl, rfl⟩) _ ran
  exact ⟨pair, reachable, not_reapsGone passes⟩

end Pulse
