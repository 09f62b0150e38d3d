import Pulse.System.Statements

/-! The invariant of the whole system: locked rows are as their session expects, and
every job is sound. It holds of every run in which no `_execute` passes its first
guard with a null token. -/
namespace Pulse
open Library.RowLock Library.Lts

structure Base (state : System) : Prop where
  positive : 0 < state.nextUuid
  compatible : Compatible state.grants
  granted : ∀ sid, ∀ lock ∈ (state.sessions sid).locks, Holds state.grants sid lock
  distinct : (state.db.jobs.map fun record => record.job.id).Nodup
  sound : ∀ record ∈ state.db.jobs, record.Sound state.nextUuid
  expects : ∀ sid, ∀ id ∈ (state.sessions sid).rows,
    ∃ record ∈ state.db.jobs, record.job.id = id ∧ (state.sessions sid).Expects record
  replays : ∀ sid entryId jobId, (state.sessions sid).replays = some (entryId, jobId) →
    ∃ record ∈ state.db.jobs, record.job.id = jobId ∧
      ∃ entry ∈ record.deadLetters, entry.id = entryId ∧ entry.replayedAt = none
  targets : ∀ sid, ∀ id ∈ (state.sessions sid).targetIds, id < state.nextUuid ∧
    ∀ record ∈ state.db.jobs, record.job.id = id → record.job.status.parked = true
  armed : ∀ sid, (state.sessions sid).Armed
  tokens : ∀ sid, ∀ token ∈ (state.sessions sid).tokens, token < state.nextUuid
  policies : ∀ policy ∈ state.db.retryPolicies, policy.usable

/-- A session leaves its transaction to be idle, to hand over what it claimed or to
run the handler. -/
inductive Leaves (state : System) : Session → Session → Prop where
  | done {session} : Leaves state session .idle
  | claimed {queueId workerId now rows} :
      Leaves state (.claimWritten queueId workerId now rows) (.claimCommitted workerId rows)
  | started {task} : Leaves state (.starting task) (.handling task (state.draw task.jobId))

/-- A commit deletes no worker but those which a reaper removes. -/
def KeepsWorkers (state : System) (session : Session) (patch : Patch) : Prop :=
  ∀ row ∈ state.db.workers, (∃ kept ∈ patch.workers state.db.workers, kept.id = row.id) ∨
    ∃ sweep, session.sweep? = some sweep ∧ row.id ∈ sweep.removed

theorem KeepsWorkers.unchanged {state : System} {session : Session} {patch : Patch}
    (same : patch.workers = id) : KeepsWorkers state session patch := by
  intro row member
  rw [same]
  exact .inl ⟨row, member, rfl⟩

/-- What a commit publishes: a move of every job which it does not delete, and fresh
jobs. Nobody else has locked what it changes. -/
structure Commits (state : System) (sid : Sid) (next : Session) (patch : Patch) : Prop where
  leaves : Leaves state (state.sessions sid) next
  moves : ∀ record ∈ state.db.jobs, record.job.id ∉ patch.deletedJobs →
    Move state (state.sessions sid) record (patch.job record)
  frame : ∀ record ∈ state.db.jobs,
    (record.job.id ∈ patch.deletedJobs ∨ patch.job record ≠ record) →
      state.waits sid (.job record.job.id, .noKeyUpdate) = false
  letters : ∀ record ∈ state.db.jobs, record.job.id ∈ patch.deletedJobs →
    ∀ entry ∈ record.deadLetters, state.waits sid (.deadLetter entry.id, .noKeyUpdate) = false
  inserted : ∀ job ∈ patch.newJobs, job.Fresh ∧ state.nextUuid ≤ job.id ∧
    job.id < 2 * state.nextUuid + patch.newJobs.length
  numbered : (patch.newJobs.map Job.id).Nodup
  policies : (∀ policy ∈ state.db.retryPolicies, policy.usable) →
    ∀ policy ∈ patch.retryPolicies state.db.retryPolicies, policy.usable
  workers : KeepsWorkers state (state.sessions sid) patch

section Moves
variable {state : System} {session : Session} {record after : JobRecord}

/-- Only a tick takes a job out of the statuses over which a tick may write. -/
theorem Move.parked (move : Move state session record after)
    (other : ∀ current, session ≠ .tick current) (sound : record.Sound state.nextUuid)
    (parked : record.job.status.parked = true) : after.job.status.parked = true := by
  have idle := sound.no_token (JobStatus.parked_waiting parked)
  cases move with
  | keep => exact parked
  | detach => simpa using parked
  | claim _ _ queued => simp [queued, JobStatus.parked] at parked
  | start _ token held | complete _ token held | backoff _ token held | bury _ token held =>
    rw [← token, idle] at held
    cases held
  | requeueClaimed _ _ status | requeueLost _ _ status | buryLost _ _ status =>
    simp [status, JobStatus.parked] at parked
  | unassign => exact parked
  | write => exact absurd rfl (other _)
  | cancel => rfl
  | retry _ retryable =>
    cases status : record.job.status <;> simp_all [JobStatus.parked, JobStatus.retryable]
  | replay _ dead => simp [dead, JobStatus.parked] at parked

/-- What takes a job out of a status in which no worker has it and none may claim it: a
cancellation of a scheduled job, or a write of a tick over a parked one. -/
theorem Move.rests (move : Move state session record after) (sound : record.Sound state.nextUuid)
    (resting : record.job.status.resting = true) : after.job.status = record.job.status ∨
      (record.job.status = .scheduled ∧ after.job.status = .cancelled) ∨
      ∃ current write, session = .tick current ∧ write ∈ current.writes ∧
        write.jobId = record.job.id ∧ write.found = record.job.status ∧
        write.found.parked = true ∧ after = write.change.write record := by
  have waiting : record.job.status.inFlight = false := by
    cases status : record.job.status <;> simp_all [JobStatus.resting, JobStatus.inFlight]
  have idle := sound.no_token waiting
  cases move with
  | keep | unassign => exact .inl rfl
  | detach => exact .inl (by simp)
  | claim _ _ queued => simp [queued, JobStatus.resting] at resting
  | start _ token held | complete _ token held | backoff _ token held | bury _ token held =>
    rw [← token, idle] at held
    cases held
  | requeueClaimed _ _ status | requeueLost _ _ status | buryLost _ _ status =>
    simp [status, JobStatus.inFlight] at waiting
  | write member same found parked =>
    exact .inr (.inr ⟨_, _, rfl, member, same.symm, found.symm, parked, rfl⟩)
  | cancel _ cancellable =>
    refine .inr (.inl ⟨?_, rfl⟩)
    cases status : record.job.status <;> simp_all [JobStatus.resting, JobStatus.cancellable]
  | retry _ retryable =>
    cases status : record.job.status <;> simp_all [JobStatus.resting, JobStatus.retryable]
  | replay _ dead => simp [dead, JobStatus.resting] at resting

/-- A dead letter is changed only by a session which has locked it. -/
theorem Move.letter_kept (move : Move state session record after) {entry : DeadLetterEntry}
    (member : entry ∈ record.deadLetters) (opened : entry.replayedAt = none) :
    (∃ kept ∈ after.deadLetters, kept.id = entry.id ∧ kept.replayedAt = none) ∨
      ∃ mode : Mode, mode.writes = true ∧ (Key.deadLetter entry.id, mode) ∈ session.locks := by
  cases move with
  | detach =>
    left
    unfold JobRecord.detach
    split <;> exact ⟨entry, member, rfl, opened⟩
  | bury | buryLost => exact .inl ⟨entry, List.mem_append_left _ member, rfl, opened⟩
  | @write tick write =>
    left
    cases write.change <;> exact ⟨entry, member, rfl, opened⟩
  | retry _ _ superseded =>
    have listed := superseded entry member opened
    exact .inr ⟨.noKeyUpdate, rfl, by simp [Session.locks, listed]⟩
  | @replay entryId jobId now record =>
    by_cases same : entry.id = entryId
    · exact .inr ⟨.update, rfl, by simp [Session.locks, same]⟩
    · refine .inl ⟨entry, ?_, rfl, opened⟩
      exact List.mem_map.mpr ⟨entry, member, by simp [same]⟩
  | _ => exact .inl ⟨entry, member, rfl, opened⟩

end Moves

namespace Base
variable {state : System} {sid : Sid}

/-- What a session expects of a row which it has locked. -/
theorem expect (base : Base state) {record : JobRecord} (member : record ∈ state.db.jobs)
    (locked : record.job.id ∈ (state.sessions sid).rows) :
    (state.sessions sid).Expects record := by
  obtain ⟨other, present, same, expected⟩ := base.expects sid _ locked
  rwa [unique_record base.distinct present member same] at expected

/-- A row which a session has locked it may write at once. -/
theorem writable (base : Base state) {id : Uuid} (locked : id ∈ (state.sessions sid).rows) :
    state.waits sid (.job id, .noKeyUpdate) = false := by
  obtain ⟨mode, writes, held⟩ := Session.rows_locked locked
  exact base.compatible.not_blocked (base.granted sid _ held) writes

/-- Nobody else writes a row which a session has locked. -/
theorem protects (base : Base state) {other : Sid} {id : Uuid}
    (locked : id ∈ (state.sessions sid).rows)
    (free : state.waits other (.job id, .noKeyUpdate) = false) : sid = other := by
  obtain ⟨mode, writes, held⟩ := Session.rows_locked locked
  exact (base.granted sid _ held).excludes free (Mode.writes_conflict writes rfl)

/-- At most one session is a tick. -/
theorem one_tick (base : Base state) {other : Sid} {current rival : Tick}
    (left : state.sessions sid = .tick current) (right : state.sessions other = .tick rival) :
    sid = other := by
  have held := base.granted sid (.schedulerLock, .update) (by simp [left, Session.locks])
  have taken := base.granted other (.schedulerLock, .update) (by simp [right, Session.locks])
  exact base.compatible.holder_unique held taken rfl

theorem unblocked {locks : List Lock} (free : locks.any (state.waits sid) = false) :
    ∀ lock ∈ locks, blocked state.grants sid lock.1 lock.2 = false := by
  intro lock member
  simpa [System.waits] using List.any_eq_false.mp free lock member

end Base

theorem Session.targetIds_tick {session : Session} {id : Uuid} (member : id ∈ session.targetIds) :
    ∃ current, session = .tick current := by
  cases session with
  | tick current => exact ⟨current, rfl⟩
  | _ => cases member

namespace Leaves
variable {state : System} {session next : Session}

theorem locks (leaves : Leaves state session next) : next.locks = [] := by
  cases leaves <;> rfl

theorem rows (leaves : Leaves state session next) : next.rows = [] := by
  cases leaves <;> rfl

theorem replays (leaves : Leaves state session next) : next.replays = none := by
  cases leaves <;> rfl

theorem targetIds (leaves : Leaves state session next) : next.targetIds = [] := by
  cases leaves <;> rfl

theorem armed (leaves : Leaves state session next) (armed : session.Armed) : next.Armed := by
  cases leaves with
  | started => exact armed
  | _ => trivial

theorem tokens (leaves : Leaves state session next) : next.tokens ⊆ session.tokens := by
  cases leaves with
  | done => exact List.nil_subset _
  | _ => exact List.Subset.refl _

end Leaves

section Commit
variable {state : System} {sid : Sid} {next : Session} {patch : Patch}

/-- Where a job of the new database comes from. -/
theorem Commits.origin (commits : Commits state sid next patch) {record : JobRecord}
    (member : record ∈ (state.db.apply patch).jobs) :
    (∃ old ∈ state.db.jobs, old.job.id ∉ patch.deletedJobs ∧ patch.job old = record ∧
      Move state (state.sessions sid) old record) ∨
    ∃ job ∈ patch.newJobs, { job } = record := by
  rcases mem_apply_jobs.mp member with ⟨old, present, kept, rfl⟩ | fresh
  · exact .inl ⟨old, present, kept, rfl, commits.moves old present kept⟩
  · exact .inr fresh

/-- A new job carries no token. -/
theorem Commits.inserted_free (commits : Commits state sid next patch) {job : Job}
    (inserted : job ∈ patch.newJobs) (token : Uuid) :
    ({ job : JobRecord }).job.lockToken ≠ some token := by
  have fresh := (commits.inserted job inserted).1
  simp [fresh.lockToken]

/-- A job locked by another session stays as it is. -/
theorem Commits.untouched (commits : Commits state sid next patch) (base : Base state)
    {other : Sid} (different : other ≠ sid) {record : JobRecord} (member : record ∈ state.db.jobs)
    (locked : record.job.id ∈ (state.sessions other).rows) :
    record ∈ (state.db.apply patch).jobs := by
  have safe : ¬ (record.job.id ∈ patch.deletedJobs ∨ patch.job record ≠ record) := by
    intro changed
    exact different (base.protects locked (commits.frame record member changed))
  push Not at safe
  exact mem_apply_jobs.mpr (.inl ⟨record, member, safe.1, safe.2⟩)

theorem Commits.distinct (commits : Commits state sid next patch) (base : Base state) :
    ((state.db.apply patch).jobs.map fun record => record.job.id).Nodup := by
  simp only [Db.apply, List.map_append, List.map_map]
  apply List.nodup_append.mpr
  refine ⟨?_, by simpa [Function.comp_def] using commits.numbered, ?_⟩
  · have kept : (state.db.jobs.filter fun record => record.job.id ∉ patch.deletedJobs).map
        ((fun record => record.job.id) ∘ patch.job) =
        (state.db.jobs.filter fun record => record.job.id ∉ patch.deletedJobs).map
          fun record => record.job.id := by
      apply List.map_congr_left
      intro record member
      obtain ⟨present, survives⟩ := List.mem_filter.mp member
      exact (commits.moves record present (by simpa using survives)).job_id
    rw [kept]
    exact base.distinct.sublist (List.filter_sublist.map _)
  · intro id old new fresh
    obtain ⟨record, member, rfl⟩ := List.mem_map.mp old
    obtain ⟨job, inserted, rfl⟩ := List.mem_map.mp fresh
    obtain ⟨present, survives⟩ := List.mem_filter.mp member
    have bound := (base.sound record present).id_lt
    have above := (commits.inserted job inserted).2.1
    have same := (commits.moves record present (by simpa using survives)).job_id
    simp only [Function.comp_apply, same]
    lia

/-- A commit keeps the invariant. -/
theorem Base.commit (base : Base state) (commits : Commits state sid next patch) :
    Base (state.commit sid next patch) := by
  have leaves := commits.leaves
  have positive := base.positive
  refine ⟨?_, base.compatible.release sid, ?_, commits.distinct base, ?_, ?_, ?_, ?_, ?_, ?_, ?_⟩
  · show 0 < 2 * state.nextUuid + _
    lia
  · refine System.update_sessions (fun other session => ∀ lock ∈ session.locks,
      Holds (release state.grants sid) other lock) ?_ ?_
    · simp [leaves.locks]
    · intro other different lock member
      exact (base.granted other lock member).release different
  · intro record member
    show record.Sound (2 * state.nextUuid + patch.newJobs.length)
    rcases commits.origin member with ⟨old, present, _, _, move⟩ | ⟨job, inserted, rfl⟩
    · exact (move.sound (base.sound old present) (base.tokens sid)).mono (by lia)
    · obtain ⟨fresh, _, within⟩ := commits.inserted job inserted
      exact fresh.sound within
  · refine System.update_sessions (fun _ session => ∀ id ∈ session.rows,
      ∃ record ∈ (state.db.apply patch).jobs, record.job.id = id ∧ session.Expects record) ?_ ?_
    · simp [leaves.rows]
    · intro other different id locked
      obtain ⟨record, member, rfl, expected⟩ := base.expects other id locked
      exact ⟨record, commits.untouched base different member locked, rfl, expected⟩
  · refine System.update_sessions (fun _ session => ∀ entryId jobId,
      session.replays = some (entryId, jobId) →
      ∃ record ∈ (state.db.apply patch).jobs, record.job.id = jobId ∧
        ∃ entry ∈ record.deadLetters, entry.id = entryId ∧ entry.replayedAt = none) ?_ ?_
    · simp [leaves.replays]
    · intro other different entryId jobId replay
      obtain ⟨record, member, rfl, entry, listed, rfl, opened⟩ :=
        base.replays other entryId jobId replay
      have held := base.granted other _ (Session.replays_locked replay)
      have kept : record.job.id ∉ patch.deletedJobs := by
        intro deleted
        exact different (held.excludes (commits.letters record member deleted entry listed) rfl)
      have move := commits.moves record member kept
      refine ⟨patch.job record, mem_apply_jobs.mpr (.inl ⟨record, member, kept, rfl⟩),
        move.job_id, ?_⟩
      rcases move.letter_kept listed opened with letter | ⟨mode, writes, owned⟩
      · exact letter
      · have conflict : Mode.update.conflicts mode = true := Mode.writes_conflict rfl writes
        exact absurd (base.compatible.holder_unique held (base.granted sid _ owned) conflict)
          different
  · refine System.update_sessions (fun _ session => ∀ id ∈ session.targetIds,
      id < 2 * state.nextUuid + patch.newJobs.length ∧ ∀ record ∈ (state.db.apply patch).jobs,
        record.job.id = id → record.job.status.parked = true) ?_ ?_
    · simp [leaves.targetIds]
    · intro other different id selected
      obtain ⟨below, parked⟩ := base.targets other id selected
      obtain ⟨rival, ticking⟩ := Session.targetIds_tick selected
      refine ⟨by lia, ?_⟩
      intro record member rfl
      rcases commits.origin member with ⟨old, present, _, _, move⟩ | ⟨job, inserted, rfl⟩
      · refine move.parked ?_ (base.sound old present) (parked old present move.job_id.symm)
        intro current ticks
        exact different (base.one_tick ticking ticks)
      · have above := (commits.inserted job inserted).2.1
        exact absurd below (Nat.not_lt.mpr above)
  · exact System.update_sessions (fun _ session => session.Armed) (leaves.armed (base.armed sid))
      fun other _ => base.armed other
  · have below : ∀ {other token}, token ∈ (state.sessions other).tokens →
        token < 2 * state.nextUuid + patch.newJobs.length := by
      intro other token member
      have older := base.tokens other token member
      lia
    exact System.update_sessions (fun _ session => ∀ token ∈ session.tokens,
      token < 2 * state.nextUuid + patch.newJobs.length)
      (fun _ member => below (leaves.tokens member)) fun _ _ _ => below
  · exact commits.policies base.policies

end Commit

end Pulse
