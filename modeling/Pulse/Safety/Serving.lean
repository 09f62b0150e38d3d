import Pulse.Safety.Heartbeats
import Pulse.Safety.Consistency
import Pulse.System.Fenced

/-! A worker whose heartbeats are never found stale: the reaper leaves its jobs alone, and
each of them goes on carrying the token of its claim. -/
namespace Pulse
open Library.RowLock Library.Lts

/-- The tokens of the claims which have committed and are not yet done. -/
def Session.owed : Session → List Uuid
  | .claimWritten _ _ _ _ => []
  | session => session.tokens

/-- The worker's last heartbeat is within the visibility timeout. -/
def Db.Fresh (db : Db) (env : Environment) (workerId : Uuid) (now : Time) : Prop :=
  ∀ row ∈ db.workers, row.id = workerId → ¬ row.silent (now - env.settings.visibilityTimeoutSec)

instance (db : Db) (env : Environment) (workerId : Uuid) (now : Time) :
    Decidable (db.Fresh env workerId now) :=
  inferInstanceAs (Decidable (∀ _ ∈ _, _ → ¬ _))

/-- No job of the queue is in flight under the worker. -/
def Db.Spares (db : Db) (workerId queueId : Uuid) : Prop :=
  ∀ record ∈ db.jobs, record.job.queueId = queueId → record.job.status.inFlight = true →
    record.job.workerId ≠ some workerId

instance (db : Db) (workerId queueId : Uuid) : Decidable (db.Spares workerId queueId) :=
  inferInstanceAs (Decidable (∀ _ ∈ _, _ → _ → _))

/-- A step while the worker serves: both queries of the reaper find it fresh, its own
sessions do not fail, it does not set itself dead, and no queue is deleted under it. -/
def Sustains (env : Environment) (workerId : Uuid) (state : System) : Action → Prop
  | .begin _ (.updateWorker id update) => id = workerId → update ≠ .retire
  | .begin _ (.api _ (.deleteQueue queueId)) => state.db.Spares workerId queueId
  | .next sid input => match state.sessions sid with
    | .reaperLocked => state.db.Fresh env workerId input.now
    | .reaperStale now _ => state.db.Fresh env workerId now
    | _ => True
  | .fail sid => (state.sessions sid).worker ≠ some workerId
  | _ => True

/-- The time with which the reaper's next query compares the heartbeats. -/
def Session.compares (input : Input) : Session → Option Time
  | .reaperLocked => some input.now
  | .reaperStale now _ => some now
  | _ => none

instance (env : Environment) (workerId : Uuid) (state : System) :
    (action : Action) → Decidable (Sustains env workerId state action)
  | .begin _ (.updateWorker _ _) => inferInstanceAs (Decidable (_ → _))
  | .begin _ (.api _ (.deleteQueue _)) => inferInstanceAs (Decidable (Db.Spares ..))
  | .next sid input => decidable_of_iff (∀ now ∈ (state.sessions sid).compares input,
      state.db.Fresh env workerId now) (by
    cases stage : state.sessions sid <;> simp [Sustains, stage, Session.compares])
  | .fail _ => inferInstanceAs (Decidable (_ ≠ _))
  | .begin _ (.claimJobs ..) | .begin _ .reaper | .begin _ (.tick _) | .begin _ (.cancelJob _)
  | .begin _ (.retryJob _) | .begin _ (.replayDlqEntry _) | .begin _ (.api _ .registerWorker)
  | .begin _ (.api _ (.createJob _)) | .begin _ (.api _ (.createBatch _))
  | .begin _ (.api _ (.createSchedule _)) | .begin _ (.api _ (.updateSchedule ..))
  | .begin _ (.api _ (.deleteSchedule _)) | .begin _ (.api _ (.createQueue _))
  | .begin _ (.api _ (.updateQueue ..)) | .begin _ (.api _ (.setPaused ..))
  | .begin _ (.api _ (.createRetryPolicy _)) | .begin _ (.api _ (.updateRetryPolicy ..))
  | .begin _ (.api _ (.deleteRetryPolicy _)) | .submit .. | .exit _ | .reregister .. =>
    isTrue trivial

/-- The jobs which a reaper's transaction writes. -/
def Session.sweeps (session : Session) : List Uuid :=
  session.sweep?.toList.flatMap fun sweep => sweep.orphans ++ sweep.unassigned

/-- What a session does to the worker and to its jobs. -/
structure Session.Keeps (workerId : Uuid) (db : Db) (session : Session) : Prop where
  spared : workerId ∉ session.finds
  stays : ∀ loaded, session ≠ .workerLoaded workerId loaded .retire
  sweeps : ∀ id ∈ session.sweeps, ∀ record ∈ db.jobs, record.job.id = id →
    record.job.workerId ≠ some workerId
  owned : session.worker = some workerId → ∀ token ∈ session.owed,
    ∃ record ∈ db.jobs, record.job.lockToken = some token ∧ record.job.workerId = some workerId

/-- Whoever hands jobs over has claimed them. -/
def Staffed (state : System) : Prop :=
  ∀ sid own tasks, state.sessions sid = .handing own tasks → ∀ task ∈ tasks, task.workerId = own

structure Served (workerId : Uuid) (state : System) : Prop where
  alive : ∀ row ∈ state.db.workers, row.id = workerId → row.status ≠ .dead
  sessions : ∀ sid, (state.sessions sid).Keeps workerId state.db

section Moves
variable {state : System} {session : Session} {record after : JobRecord}

theorem Session.sweeps_rows {id : Uuid} (swept : id ∈ session.sweeps) : id ∈ session.rows := by
  cases session with
  | reaperSwept | reaperPruned => simpa [Session.sweeps, Session.sweep?, Session.rows] using swept
  | _ => cases swept

/-- A job in flight keeps its token and its worker while only other sessions commit, and no
reaper which writes it. -/
theorem Move.holds (move : Move state session record after) (sound : record.Sound state.nextUuid)
    (carries : session.Carries) {token : Uuid} (held : record.job.lockToken = some token)
    (foreign : token ∉ session.tokens) (spared : record.job.id ∉ session.sweeps) :
    after.job.lockToken = some token ∧ after.job.workerId = record.job.workerId := by
  have inFlight : record.job.status.inFlight = true := by
    rw [← sound.token, held]
    rfl
  have swept : ∀ {sweep}, session.sweep? = some sweep → record.job.id ∉ sweep.orphans ∧
      record.job.id ∉ sweep.unassigned := by
    intro sweep same
    simpa [Session.sweeps, same] using spared
  have own : ∀ {task : Task}, record.job.lockToken = task.token → task.token = some task.written →
      session.tokens = [task.written] → False := by
    intro task same carried tokens
    refine foreign ?_
    rw [tokens, List.mem_singleton]
    exact Option.some.inj (held.symm.trans (same.trans carried))
  cases move with
  | keep => exact ⟨held, rfl⟩
  | detach =>
    unfold JobRecord.detach
    split <;> exact ⟨held, rfl⟩
  | claim _ _ queued => simp [queued, JobStatus.inFlight] at inFlight
  | start _ token | complete _ token | backoff _ token | bury _ token =>
    exact (own token carries rfl).elim
  | requeueClaimed same orphan | requeueLost same orphan | buryLost same orphan =>
    exact absurd orphan (swept same).1
  | unassign same chosen => exact absurd chosen (swept same).2
  | write _ _ found parked =>
    have waiting := JobStatus.parked_waiting (found ▸ parked)
    rw [waiting] at inFlight
    cases inFlight
  | cancel _ cancellable =>
    rw [JobStatus.cancellable_waiting cancellable] at inFlight
    cases inFlight
  | retry _ retryable =>
    cases status : record.job.status <;>
      simp_all [JobStatus.retryable, JobStatus.inFlight]
  | replay _ dead => simp [dead, JobStatus.inFlight] at inFlight

end Moves

section Steps
variable {env : Environment} {state after : System} {workerId : Uuid} {sid other : Sid}
  {session next : Session} {locks : List Lock} {patch : Patch}

/-- A session which has nothing to do with a worker's jobs. -/
theorem Session.Keeps.quiet {db : Db} (finds : session.finds = []) (sweeps : session.sweeps = [])
    (owed : session.owed = [])
    (stays : ∀ loaded, session ≠ .workerLoaded workerId loaded .retire) :
    session.Keeps workerId db :=
  ⟨by simp [finds], stays, by simp [sweeps], by simp [owed]⟩

theorem Session.Keeps.idle {db : Db} : Session.idle.Keeps workerId db :=
  .quiet rfl rfl rfl (by simp)

/-- A reaper which has found other workers. -/
theorem Session.Keeps.reading {db : Db} (nobody : session.worker = none)
    (spared : workerId ∉ session.finds)
    (sweeps : ∀ id ∈ session.sweeps, ∀ record ∈ db.jobs, record.job.id = id →
      record.job.workerId ≠ some workerId) : session.Keeps workerId db where
  spared := spared
  stays := by
    rintro loaded rfl
    cases nobody
  sweeps := sweeps
  owned := by simp [nobody]

/-- A session which works for a worker. -/
theorem Session.Keeps.working {db : Db} (finds : session.finds = []) (sweeps : session.sweeps = [])
    (stays : ∀ loaded, session ≠ .workerLoaded workerId loaded .retire)
    (owned : session.worker = some workerId → ∀ token ∈ session.owed,
      ∃ record ∈ db.jobs, record.job.lockToken = some token ∧
        record.job.workerId = some workerId) : session.Keeps workerId db :=
  ⟨by simp [finds], stays, by simp [sweeps], owned⟩

/-- A worker which is not dead, nor found lost, is not dead in the reaper's view. -/
theorem Served.not_dead (served : Served workerId state) {lost : List Uuid}
    (spared : workerId ∉ lost) : deadInView state.db lost workerId = false := by
  refine List.any_eq_false.mpr fun row member => ?_
  simp only [Bool.and_eq_true, decide_eq_true_eq, not_and]
  intro same
  unfold markDead
  rw [same, if_neg spared]
  exact served.alive row member same

theorem claimedTasks_staff (handover : Handover) (db : Db) (workerId : Uuid)
    (rows : List ClaimedRow) : ∀ task ∈ claimedTasks handover db workerId rows,
      task.workerId = workerId := by
  intro task listed
  cases handover with
  | returning =>
    obtain ⟨row, _, rfl⟩ := List.mem_map.mp listed
    rfl
  | reread =>
    obtain ⟨row, _, found⟩ := List.mem_filterMap.mp listed
    obtain ⟨record, _, rfl⟩ := Option.map_eq_some_iff.mp found
    rfl

theorem Staffed.one (staffed : Staffed state) (own : ∀ worker tasks,
    next = .handing worker tasks → ∀ task ∈ tasks, task.workerId = worker)
    (sessions : after.sessions = Function.update state.sessions sid next) : Staffed after := by
  intro other
  rw [sessions]
  exact System.update_sessions (fun _ session => ∀ worker tasks,
    session = .handing worker tasks → ∀ task ∈ tasks, task.workerId = worker) own
    (fun other _ => staffed other) other

theorem handingOver_staff {own : Uuid} {tasks : List Task}
    (staff : ∀ task ∈ tasks, task.workerId = own) (worker : Uuid) (rest : List Task)
    (handing : handingOver own tasks = .handing worker rest) :
    ∀ task ∈ rest, task.workerId = worker := by
  unfold handingOver at handing
  split at handing
  · cases handing
  · cases handing
    exact staff

/-- Only a claim hands jobs over. -/
theorem Advance.staff (advance : Advance env state session next locks) (worker : Uuid)
    (tasks : List Task) (handing : next = .handing worker tasks) :
    ∀ task ∈ tasks, task.workerId = worker := by
  cases advance with
  | select => exact handingOver_staff (claimedTasks_staff _ _ _ _) worker tasks handing
  | _ => cases handing

theorem Staffed.rest (staffed : Staffed state)
    (sessions : after.sessions = Function.update state.sessions sid .idle) : Staffed after := by
  refine staffed.one ?_ sessions
  intro worker tasks handing
  cases handing

theorem Closes.staff (closes : Closes env state session next patch) (worker : Uuid)
    (tasks : List Task) (handing : next = .handing worker tasks) :
    ∀ task ∈ tasks, task.workerId = worker := by
  cases closes with
  | claim => split at handing <;> cases handing
  | _ => cases handing

theorem Staffed.step (staffed : Staffed state) (shape : Shape state) {action : Action}
    (taken : Pulse.step env state action = some after) : Staffed after := by
  cases step_inverted taken with
  | @begin sid request effect _ _ made performed =>
    cases effect with
    | hold =>
      obtain ⟨_, rfl⟩ := System.perform_hold performed
      exact staffed.one (Request.effect_advance made).staff rfl
    | commit =>
      obtain ⟨_, rfl⟩ := System.perform_commit performed
      obtain ⟨_, _, _, rfl, _⟩ := Request.effect_closes made
      exact staffed.rest rfl
    | rollback =>
      cases Option.some.inj performed
      exact staffed.rest rfl
  | @next sid input effect _ _ made performed =>
    cases effect with
    | hold =>
      obtain ⟨_, rfl⟩ := System.perform_hold performed
      exact staffed.one (Session.effect_advance shape.distinct made).staff rfl
    | commit =>
      obtain ⟨_, rfl⟩ := System.perform_commit performed
      exact staffed.one (Session.effect_closes made).staff rfl
    | rollback =>
      cases Option.some.inj performed
      exact staffed.rest rfl
  | fail => exact staffed.rest rfl
  | submit handing =>
    refine System.handed_forall (fun _ session => ∀ worker tasks,
      session = .handing worker tasks → ∀ task ∈ tasks, task.workerId = worker)
      ?_ ?_ fun other _ => staffed other
    · intro worker tasks handing
      cases handing
    · exact handingOver_staff fun task listed =>
        staffed _ _ _ handing task (List.mem_cons_of_mem _ listed)
  | exit | reregister => exact staffed

/-- What a statement has read of the workers and selected of the jobs. -/
theorem Served.advance (served : Served workerId state) (shape : Shape state) {input : Input}
    (serves : Sustains env workerId state (.next sid input))
    (made : (state.sessions sid).effect env state sid input = some (.hold next locks)) :
    next.Keeps workerId state.db := by
  have advance := Session.effect_advance shape.distinct made
  have before := served.sessions sid
  simp only [Sustains] at serves
  generalize state.sessions sid = session at made advance before serves
  have tasks : ∀ {task : Task} {later : Session}, later.owed = [task.written] →
      later.worker = some task.workerId → session.owed = [task.written] →
      session.worker = some task.workerId → later.worker = some workerId →
      ∀ token ∈ later.owed, ∃ record ∈ state.db.jobs, record.job.lockToken = some token ∧
        record.job.workerId = some workerId := by
    intro task later owed worker same own assigned token listed
    refine before.owned (own.trans (worker.symm.trans assigned)) token ?_
    rwa [same, ← owed]
  have assigned : ∀ {lost : List Uuid}, workerId ∉ lost → ∀ {assigned : Option Uuid},
      assigned.any (deadInView state.db lost) = true → assigned ≠ some workerId := by
    rintro lost spared _ dead rfl
    rw [Option.any_some, served.not_dead spared] at dead
    cases dead
  cases advance with
  | readStale =>
    cases Option.some.inj made
    refine .reading rfl ?_ (by simp [Session.sweeps, Session.sweep?])
    intro found
    obtain ⟨row, listed, same⟩ := List.mem_map.mp found
    obtain ⟨member, stale⟩ := List.mem_filter.mp listed
    refine serves row member same ?_
    simp only [Worker.stale, Bool.and_eq_true, Option.any_eq_true, decide_eq_true_eq] at stale
    obtain ⟨_, beat, last, before⟩ := stale
    simpa [Worker.silent, last] using before
  | readSilent =>
    refine .reading rfl ?_ (by simp [Session.sweeps, Session.sweep?])
    intro found
    rcases List.mem_append.mp found with old | new
    · exact before.spared old
    · obtain ⟨row, listed, same⟩ := List.mem_map.mp new
      obtain ⟨member, never⟩ := List.mem_filter.mp listed
      refine serves row member same ?_
      simp only [Worker.neverHeartbeat, Bool.and_eq_true, decide_eq_true_eq,
        Option.isNone_iff_eq_none] at never
      simpa [Worker.silent, never.1.2] using never.2
  | markDead => exact .reading rfl before.spared (by simp [Session.sweeps, Session.sweep?])
  | @sweep now lost orphans orphan =>
    refine .reading rfl before.spared ?_
    intro id swept record member same
    have chosen : id ∈ orphans := by simpa [Session.sweeps, Session.sweep?] using swept
    obtain ⟨twin, present, named, _, dead⟩ := orphan id chosen
    cases unique_record shape.distinct member present (same.trans named.symm)
    exact assigned before.spared dead
  | @prune sweep now removed unassigned chosen referring =>
    refine .reading rfl before.spared ?_
    intro id swept record member same
    have listed : id ∈ sweep.orphans ∨ id ∈ unassigned := by
      simpa [Session.sweeps, Session.sweep?] using swept
    rcases listed with orphan | unassigned
    · exact before.sweeps id (by simp [Session.sweeps, Session.sweep?, orphan]) record member same
    · obtain ⟨twin, present, named, gone, _⟩ := (referring id).mp unassigned
      cases unique_record shape.distinct member present (same.trans named.symm)
      intro own
      rw [own, Option.any_some, decide_eq_true_eq, chosen] at gone
      have alive : deadInView state.db sweep.lost workerId = false := served.not_dead before.spared
      have dead := prunedWorkers_dead gone
      rw [alive] at dead
      cases dead
  | @select own rows =>
    have written := (claimedTasks_written env.handover state.db own rows).subset
    unfold handingOver
    split
    · exact .idle
    · exact .working rfl rfl (by simp) fun own token listed =>
        before.owned own token (written listed)
  | passFirst => exact .working rfl rfl (by simp) (tasks rfl rfl rfl rfl)
  | handled => exact .working rfl rfl (by simp) (tasks rfl rfl rfl rfl)
  | passSecond => exact .working rfl rfl (by simp) (tasks rfl rfl rfl rfl)
  | loadWorker => cases made
  | _ => exact .quiet rfl rfl rfl (by simp)

theorem Session.owed_tokens : session.owed ⊆ session.tokens := by
  cases session with
  | claimWritten => exact List.nil_subset _
  | _ => exact fun _ => id

/-- Another session's commit leaves a reaper's rows and a worker's jobs. -/
theorem Served.commit_other (served : Served workerId state) (fenced : Fenced state)
    (commits : Commits state sid next patch) (different : other ≠ sid)
    (survives : ∀ record ∈ state.db.jobs, record.job.status.inFlight = true →
      record.job.workerId = some workerId → record.job.id ∉ patch.deletedJobs) :
    (state.sessions other).Keeps workerId (state.db.apply patch) := by
  have base := fenced.base
  obtain ⟨spared, stays, sweeps, owned⟩ := served.sessions other
  refine ⟨spared, stays, ?_, ?_⟩
  · intro id swept record member same
    have locked := Session.sweeps_rows swept
    obtain ⟨old, present, named, _⟩ := base.expects other id locked
    have kept := commits.untouched base different present (named ▸ locked)
    cases unique_record (commits.distinct base) member kept (same.trans named.symm)
    exact sweeps id swept record present same
  · intro own token listed
    obtain ⟨record, member, held, assigned⟩ := owned own token listed
    have sound := base.sound record member
    have inFlight : record.job.status.inFlight = true := by
      rw [← sound.token, held]
      rfl
    have stays := survives record member inFlight assigned
    have foreign : token ∉ (state.sessions sid).tokens := fun ours =>
      different (fenced.separate other sid token (Session.owed_tokens listed) ours)
    have clear : record.job.id ∉ (state.sessions sid).sweeps := fun swept =>
      (served.sessions sid).sweeps _ swept record member rfl assigned
    obtain ⟨still, same⟩ := (commits.moves record member stays).holds sound (fenced.carries sid)
      held foreign clear
    exact ⟨patch.job record, mem_apply_jobs.mpr (.inl ⟨record, member, stays, rfl⟩), still,
      same.trans assigned⟩

/-- What a session owes once it has committed. -/
theorem Served.commit_own (served : Served workerId state) (fenced : Fenced state)
    (closes : Closes env state (state.sessions sid) next patch)
    (commits : Commits state sid next patch) : next.Keeps workerId (state.db.apply patch) := by
  have before := served.sessions sid
  have armed := fenced.base.armed sid
  have located := fenced.base.expects sid
  have moves := commits.moves
  generalize state.sessions sid = session at closes before armed located moves
  cases closes with
  | @claim queueId own now rows =>
    split
    · exact .idle
    · refine .working rfl rfl (by simp) ?_
      intro same token listed
      cases Option.some.inj same
      obtain ⟨row, present, rfl⟩ := List.mem_map.mp listed
      have locked : row.jobId ∈ rows.map ClaimedRow.jobId := List.mem_map.mpr ⟨row, present, rfl⟩
      obtain ⟨record, member, named, _⟩ := located row.jobId locked
      refine ⟨claimWrite workerId now rows record,
        mem_apply_jobs.mpr (.inl ⟨record, member, List.not_mem_nil, rfl⟩), ?_⟩
      have chosen : rows.find? (fun row => row.jobId = record.job.id) = some row := by
        rw [named]
        exact find_of_mem armed present
      simp [claimWrite, chosen, JobRecord.claim]
  | @start task now =>
    refine .working rfl rfl (by simp) ?_
    intro own token listed
    obtain ⟨record, member, held, assigned⟩ := before.owned own token listed
    refine ⟨_, mem_apply_jobs.mpr (.inl ⟨record, member, List.not_mem_nil, rfl⟩), ?_⟩
    dsimp only [onJob, onId]
    split <;> exact ⟨held, assigned⟩
  | _ => exact .idle

/-- Only its last update sets a worker dead. -/
theorem WorkerUpdate.write_dead {update : WorkerUpdate} {loaded : WorkerStatus} {now : Time}
    {row : Worker} (other : update ≠ .retire) (dead : (update.write loaded now row).status = .dead) :
    row.status = .dead := by
  have set : ∀ status : WorkerStatus, status ≠ .dead →
      (if loaded = status then row else { row with status }).status = .dead → row.status = .dead := by
    intro status alive written
    split at written
    · exact written
    · exact absurd written alive
  cases update with
  | heartbeat busy =>
    cases busy with
    | none => exact dead
    | some busy => exact set _ (by split <;> simp) dead
  | drain => exact set .draining (by simp) dead
  | retire => exact absurd rfl other

/-- The rows of `workers` after a commit while the worker serves. -/
theorem Served.alive_commit (served : Served workerId state) {input : Input}
    (made : (state.sessions sid).effect env state sid input = some (.commit next locks patch)) :
    ∀ row ∈ patch.workers state.db.workers, row.id = workerId → row.status ≠ .dead := by
  intro row member same dead
  have before := served.sessions sid
  rcases Session.effect_workers made member with
    old | ⟨own, loaded, update, old, present, running, _, named, rfl⟩ | ⟨old, present, lost, rfl⟩
  · exact served.alive row old same dead
  · rw [update.write_id] at same
    have other : update ≠ .retire := by
      rintro rfl
      exact before.stays loaded (by rw [running, ← named, same])
    exact served.alive old present same (update.write_dead other dead)
  · rw [markDead_id] at same
    have found := Session.marks_found lost
    rw [same] at found
    exact before.spared found

/-- A deletion of jobs is that of a queue, which spares those of the worker. -/
theorem Answers.survives {now : Time} {call : ApiCall} (shape : Shape state)
    (answers : Answers env state now call locks patch)
    (serves : Sustains env workerId state (.begin sid (.api now call))) :
    ∀ record ∈ state.db.jobs, record.job.status.inFlight = true →
      record.job.workerId = some workerId → record.job.id ∉ patch.deletedJobs := by
  intro record member inFlight assigned
  cases answers with
  | @deleteQueue queueId _ _ made =>
    cases made
    intro doomed
    obtain ⟨twin, listed, same⟩ := List.mem_map.mp doomed
    obtain ⟨present, queue⟩ := List.mem_filter.mp listed
    cases unique_record shape.distinct member present same.symm
    exact serves record member (by simpa using queue) inFlight assigned
  | deleteSchedule made =>
    cases made
    exact List.not_mem_nil
  | _ => exact List.not_mem_nil

theorem Advance.begins_free (advance : Advance env state .idle next locks) :
    next.finds = [] ∧ next.sweeps = [] ∧ next.owed = [] := by
  cases advance <;> exact ⟨rfl, rfl, rfl⟩

/-- Steps which publish no job and mark no worker: the sessions go on or come to rest. -/
theorem Served.relax (served : Served workerId state) (jobs : after.db.jobs = state.db.jobs)
    (rows : ∀ row ∈ after.db.workers, row ∈ state.db.workers ∨ row.status ≠ .dead)
    (sessions : ∀ sid, after.sessions sid = state.sessions sid ∨
      (after.sessions sid).Keeps workerId state.db) : Served workerId after := by
  refine ⟨?_, ?_⟩
  · intro row member same
    rcases rows row member with old | alive
    · exact served.alive row old same
    · exact alive
  · intro sid
    have keeps : (after.sessions sid).Keeps workerId state.db := by
      rcases sessions sid with same | keeps
      · exact same ▸ served.sessions sid
      · exact keeps
    exact ⟨keeps.spared, keeps.stays, jobs ▸ keeps.sweeps, jobs ▸ keeps.owned⟩

theorem Served.rollback (served : Served workerId state) (sid : Sid) :
    Served workerId (state.rollback sid) :=
  served.relax rfl (fun _ => .inl) (System.update_sessions (fun other session =>
    session = state.sessions other ∨ session.Keeps workerId state.db) (.inr .idle)
    fun _ _ => .inl rfl)

theorem Served.submit (served : Served workerId state) (staffed : Staffed state) {newSid : Sid}
    {own : Uuid} {task : Task} {rest : List Task}
    (handing : state.sessions sid = .handing own (task :: rest)) :
    Served workerId (state.handed sid newSid own task rest) := by
  have owned := (served.sessions sid).owned
  rw [handing] at owned
  have ours := staffed sid own _ handing
  refine served.relax rfl (fun _ => .inl) (System.handed_forall (fun other session =>
    session = state.sessions other ∨ session.Keeps workerId state.db) (.inr ?_) (.inr ?_)
    fun _ _ => .inl rfl)
  · refine .working rfl rfl (by simp) ?_
    intro assigned token listed
    have same : own = workerId :=
      (ours task List.mem_cons_self).symm.trans (Option.some.inj assigned)
    rw [List.mem_singleton.mp listed]
    exact owned (congrArg some same) task.written List.mem_cons_self
  · unfold handingOver
    split
    · exact .idle
    · exact .working rfl rfl (by simp) fun assigned token listed =>
        owned assigned token (List.mem_cons_of_mem _ listed)

theorem Served.step (served : Served workerId state) (fenced : Fenced state) (shape : Shape state)
    (staffed : Staffed state) {action : Action} (serves : Sustains env workerId state action)
    (taken : Pulse.step env state action = some after) : Served workerId after := by
  cases step_inverted taken with
  | @begin sid request effect _ idle made performed =>
    cases effect with
    | hold next locks =>
      obtain ⟨_, rfl⟩ := System.perform_hold performed
      obtain ⟨finds, sweeps, owed⟩ := (Request.effect_advance made).begins_free
      refine ⟨served.alive, System.update_sessions (fun _ session =>
        session.Keeps workerId state.db) (.quiet finds sweeps owed ?_)
        fun other _ => served.sessions other⟩
      intro loaded retires
      cases (Request.begins made).2.2 workerId loaded .retire retires
      exact serves rfl rfl
    | commit next locks patch =>
      obtain ⟨free, rfl⟩ := System.perform_commit performed
      obtain ⟨now, call, rfl, rfl, answers⟩ := Request.effect_closes made
      refine ⟨?_, System.update_sessions (fun _ session =>
        session.Keeps workerId (state.db.apply patch)) .idle fun other different =>
          served.commit_other fenced (Request.effect_commits fenced.base idle made free) different
            (answers.survives shape serves)⟩
      intro row member same
      rcases answers.worker_rows member with old | ⟨alive, _⟩
      · exact served.alive row old same
      · exact alive
    | rollback =>
      cases Option.some.inj performed
      exact served.rollback sid
  | @next sid input effect _ _ made performed =>
    cases effect with
    | hold next locks =>
      obtain ⟨_, rfl⟩ := System.perform_hold performed
      exact ⟨served.alive, System.update_sessions (fun _ session =>
        session.Keeps workerId state.db) (served.advance shape serves made)
        fun other _ => served.sessions other⟩
    | commit next locks patch =>
      obtain ⟨free, rfl⟩ := System.perform_commit performed
      have closes := Session.effect_closes made
      have commits := Session.effect_commits fenced.base made
      refine ⟨served.alive_commit made, System.update_sessions (fun _ session =>
        session.Keeps workerId (state.db.apply patch)) (served.commit_own fenced closes commits)
        fun other different => served.commit_other fenced commits different ?_⟩
      simp [closes.deletes]
    | rollback =>
      cases Option.some.inj performed
      exact served.rollback sid
  | fail => exact served.rollback _
  | submit handing => exact served.submit staffed handing
  | exit => exact ⟨served.alive, served.sessions⟩
  | reregister =>
    refine served.relax rfl ?_ fun _ => .inl rfl
    intro row member
    rcases List.mem_append.mp member with old | new
    · exact .inl old
    · rw [List.mem_singleton.mp new]
      exact .inr nofun

theorem initial_served : Served workerId {} :=
  ⟨by simp, fun _ => .idle⟩

/-- The job of a task of the worker still carries its token: both guards pass. -/
theorem Served.guard (served : Served workerId state) (fenced : Fenced state) {task : Task}
    (running : task.written ∈ (state.sessions sid).owed)
    (assigned : (state.sessions sid).worker = some workerId) :
    ∃ record ∈ state.db.jobs, record.job.lockToken = some task.written ∧
      (state.sessions sid).Knows record := by
  obtain ⟨record, member, held, _⟩ := (served.sessions sid).owned assigned task.written running
  exact ⟨record, member, held,
    fenced.knows sid record member task.written (Session.owed_tokens running) held⟩

end Steps

end Pulse
