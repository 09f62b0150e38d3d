import Pulse.System.Runs

/-! Recovery: a job in flight names a worker whose row exists, so that a sweep will find
it, provided the reaper deletes no worker which still has jobs outside its sweep. -/
namespace Pulse
open Library.RowLock Library.Lts

/-- Every job in flight names an existing worker, and the sweep's condition holds of it
once that worker is dead or found lost. -/
def Recoverable (state : System) : Prop :=
  ∀ record ∈ state.db.jobs, record.job.status.inFlight = true →
    ∃ worker ∈ state.db.workers, record.job.workerId = some worker.id ∧
      ∀ lost, worker.status = .dead ∨ worker.id ∈ lost →
        record.job.workerId.any (deadInView state.db lost) = true

/-- At its DELETE of long-dead workers, every job in flight under one of them is among
those which the reaper's own sweep is about to recover. -/
def SweepsFirst (env : Environment) (state : System) : Action → Prop
  | .next sid input => match state.sessions sid with
    | .reaperSwept sweep => input.prune = true → ∀ record ∈ state.db.jobs,
        record.job.status.inFlight = true →
        record.job.workerId.any
          (· ∈ prunedWorkers env.settings state.db sweep.lost input.now) = true →
        record.job.id ∈ sweep.orphans
    | _ => True
  | _ => True

def Session.swept : Session → Option Sweep
  | .reaperSwept sweep => some sweep
  | _ => none

instance (env : Environment) (state : System) :
    (action : Action) → Decidable (SweepsFirst env state action)
  | .next sid input => decidable_of_iff (∀ sweep ∈ (state.sessions sid).swept,
      input.prune = true → ∀ record ∈ state.db.jobs, record.job.status.inFlight = true →
        record.job.workerId.any
          (· ∈ prunedWorkers env.settings state.db sweep.lost input.now) = true →
        record.job.id ∈ sweep.orphans) (by
    cases stage : state.sessions sid <;> simp [SweepsFirst, stage, Session.swept])
  | .begin .. | .fail .. | .submit .. | .exit .. | .reregister .. => isTrue trivial

/-- The condition on a step: the reaper leaves no job behind, and no `_execute` passes
its first guard with a null token. -/
def KeepsOwners (env : Environment) (state : System) (action : Action) : Prop :=
  SweepsFirst env state action ∧ GuardsToken state action

instance (env : Environment) (state : System) (action : Action) :
    Decidable (KeepsOwners env state action) :=
  inferInstanceAs (Decidable (_ ∧ _))

/-- The worker for which an open transaction has claimed jobs. -/
def Session.claimant : Session → Option Uuid
  | .claimWritten _ workerId _ rows => if rows = [] then none else some workerId
  | _ => none

section Moves
variable {state : System} {session : Session} {record moved : JobRecord}

/-- A job is in flight under the worker it was in flight under, or under the one which
claims it, or the reaper has unassigned it. -/
theorem Move.owner (move : Move state session record moved) (sound : record.Sound state.nextUuid)
    (flying : moved.job.status.inFlight = true) :
    record.job.status.inFlight = true ∧ (moved.job.workerId = record.job.workerId ∧
        (∀ sweep, session.sweep? = some sweep → record.job.id ∉ sweep.orphans) ∨
      ∃ sweep, session.sweep? = some sweep ∧ record.job.id ∈ sweep.unassigned ∧
        record.job.id ∉ sweep.orphans) ∨
    ∃ workerId, session.claimant = some workerId ∧ moved.job.workerId = some workerId := by
  cases move with
  | keep other =>
    refine .inl ⟨flying, .inl ⟨rfl, ?_⟩⟩
    intro sweep swept orphan
    cases session with
    | reaperSwept | reaperPruned =>
      cases Option.some.inj swept
      exact other (List.mem_append_left _ orphan)
    | _ => cases swept
  | detach =>
    refine .inl ⟨by simpa using flying, .inl ⟨?_, fun _ swept => nomatch swept⟩⟩
    unfold JobRecord.detach
    split <;> rfl
  | claim member =>
    exact .inr ⟨_, if_neg (List.ne_nil_of_mem member), rfl⟩
  | start _ token held =>
    refine .inl ⟨?_, .inl ⟨rfl, fun _ swept => nomatch swept⟩⟩
    rw [← sound.token, token]
    exact held
  | unassign swept chosen other => exact .inl ⟨flying, .inr ⟨_, swept, chosen, other⟩⟩
  | @write tick write =>
    rw [Change.write_status] at flying
    cases change : write.change <;> simp [change, Change.status, JobStatus.inFlight] at flying
  | complete | backoff | bury | requeueClaimed | requeueLost | buryLost | cancel | retry | replay =>
    cases flying

end Moves

section Runs
variable {env : Environment} {state after : System} {sid : Sid}

theorem Session.claimant_locks {session : Session} {workerId : Uuid}
    (claims : session.claimant = some workerId) :
    (Key.worker workerId, Mode.keyShare) ∈ session.locks := by
  cases session with
  | claimWritten queueId own now rows =>
    by_cases none : rows = []
    · simp [Session.claimant, none] at claims
    · simp only [Session.claimant, none, if_false, Option.some.injEq] at claims
      simp [Session.locks, none, claims]
  | _ => cases claims

theorem Session.removed_locks {session : Session} {sweep : Sweep}
    (swept : session.sweep? = some sweep) {workerId : Uuid} (removed : workerId ∈ sweep.removed) :
    (Key.worker workerId, Mode.update) ∈ session.locks := by
  cases session with
  | reaperSwept | reaperPruned =>
    cases Option.some.inj swept
    simp [Session.locks, removed]
  | _ => cases swept

/-- The foreign key: no worker is deleted while a claim for it is open. -/
theorem Base.spares_claimant (base : Base state) {other : Sid} {sweep : Sweep} {workerId : Uuid}
    (swept : (state.sessions sid).sweep? = some sweep) (removed : workerId ∈ sweep.removed)
    (claims : (state.sessions other).claimant = some workerId) : False := by
  have held := base.granted sid _ (Session.removed_locks swept removed)
  have shared := base.granted other _ (Session.claimant_locks claims)
  have same := base.compatible.holder_unique held shared rfl
  subst same
  generalize state.sessions sid = session at swept claims
  cases session with
  | claimWritten => cases swept
  | _ => cases claims

/-- A reaper's transaction leaves no job in flight behind. -/
def Session.Covers (jobs : List JobRecord) (session : Session) : Prop :=
  ∀ sweep, session.sweep? = some sweep →
    ∀ record ∈ jobs, record.job.status.inFlight = true →
      (∀ workerId, record.job.workerId = some workerId → workerId ∈ sweep.removed →
        record.job.id ∈ sweep.orphans) ∧
      (record.job.id ∈ sweep.unassigned → record.job.id ∈ sweep.orphans)

structure Owned (state : System) : Prop where
  jobs : ∀ record ∈ state.db.jobs, record.job.status.inFlight = true →
    ∃ worker ∈ state.db.workers, record.job.workerId = some worker.id
  claims : ∀ sid workerId, (state.sessions sid).claimant = some workerId →
    ∃ worker ∈ state.db.workers, worker.id = workerId
  covers : ∀ sid, (state.sessions sid).Covers state.db.jobs

theorem Leaves.quits {session next : Session} (leaves : Leaves state session next) :
    next.claimant = none ∧ next.sweep? = none := by
  cases leaves <;> exact ⟨rfl, rfl⟩

theorem Owned.commit (owned : Owned state) (base : Base state) {next : Session} {patch : Patch}
    (commits : Commits state sid next patch) : Owned (state.commit sid next patch) := by
  obtain ⟨unclaiming, unswept⟩ := commits.leaves.quits
  -- A worker survives unless the reaper's transaction which commits has removed it.
  have survives : ∀ worker ∈ state.db.workers,
      (∀ sweep, (state.sessions sid).sweep? = some sweep → worker.id ∉ sweep.removed) →
      ∃ kept ∈ patch.workers state.db.workers, kept.id = worker.id := by
    intro worker member spared
    rcases commits.workers worker member with kept | ⟨sweep, swept, removed⟩
    · exact kept
    · exact absurd removed (spared sweep swept)
  have spares : ∀ {other workerId}, (state.sessions other).claimant = some workerId →
      ∀ sweep, (state.sessions sid).sweep? = some sweep → workerId ∉ sweep.removed :=
    fun claims sweep swept removed => base.spares_claimant swept removed claims
  refine ⟨?_, ?_, ?_⟩
  · intro record member flying
    rcases commits.origin member with ⟨old, present, _, _, move⟩ | ⟨job, inserted, rfl⟩
    · rcases move.owner (base.sound old present) flying with
        ⟨before, ⟨same, others⟩ | ⟨sweep, swept, chosen, other⟩⟩ | ⟨workerId, claims, assigned⟩
      · obtain ⟨worker, there, owner⟩ := owned.jobs old present before
        obtain ⟨kept, stays, id⟩ := survives worker there fun sweep swept removed =>
          others sweep swept ((owned.covers sid sweep swept old present before).1 _ owner removed)
        exact ⟨kept, stays, by rw [same, owner, id]⟩
      · exact absurd ((owned.covers sid sweep swept old present before).2 chosen) other
      · obtain ⟨worker, there, rfl⟩ := owned.claims sid workerId claims
        obtain ⟨kept, stays, id⟩ := survives worker there (spares claims)
        exact ⟨kept, stays, by rw [assigned, id]⟩
    · rcases (commits.inserted job inserted).1.status with status | status <;>
        simp [status, JobStatus.inFlight] at flying
  · refine System.update_sessions (fun _ session => ∀ workerId, session.claimant = some workerId →
      ∃ worker ∈ patch.workers state.db.workers, worker.id = workerId) ?_ ?_
    · intro workerId claims
      rw [unclaiming] at claims
      cases claims
    · intro other different workerId claims
      obtain ⟨worker, there, rfl⟩ := owned.claims other workerId claims
      exact survives worker there (spares claims)
  · refine System.update_sessions (fun _ session =>
      session.Covers (state.db.apply patch).jobs) ?_ ?_
    · intro sweep swept
      rw [unswept] at swept
      cases swept
    · intro other different sweep swept record member flying
      have locked : ∀ {id}, id ∈ sweep.unassigned → id ∈ (state.sessions other).rows := by
        intro id chosen
        generalize state.sessions other = session at swept
        cases session with
        | reaperSwept | reaperPruned =>
          cases Option.some.inj swept
          exact List.mem_append_right _ chosen
        | _ => cases swept
      rcases commits.origin member with ⟨old, present, _, _, move⟩ | ⟨job, inserted, rfl⟩
      · rw [move.job_id]
        constructor
        · intro workerId owner removed
          rcases move.owner (base.sound old present) flying with
            ⟨before, ⟨same, _⟩ | ⟨own, swept', chosen, apart⟩⟩ | ⟨claimant, claims, assigned⟩
          · rw [same] at owner
            exact (owned.covers other sweep swept old present before).1 workerId owner removed
          · exact absurd ((owned.covers sid own swept' old present before).2 chosen) apart
          · cases Option.some.inj (assigned.symm.trans owner)
            exact (base.spares_claimant swept removed claims).elim
        · intro chosen
          have kept := commits.untouched base different present (locked chosen)
          have same := unique_record (commits.distinct base) member kept move.job_id
          rw [same] at flying
          exact (owned.covers other sweep swept old present flying).2 chosen
      · rcases (commits.inserted job inserted).1.status with status | status <;>
          simp [status, JobStatus.inFlight] at flying

theorem Owned.hold (owned : Owned state) {next : Session} {locks : List Lock}
    (advance : Advance env state (state.sessions sid) next locks)
    (covers : next.Covers state.db.jobs) : Owned (state.hold sid next locks) := by
  refine ⟨owned.jobs, ?_, ?_⟩
  · refine System.update_sessions (fun _ session => ∀ workerId, session.claimant = some workerId →
      ∃ worker ∈ state.db.workers, worker.id = workerId) ?_ fun other _ => owned.claims other
    intro workerId claims
    generalize state.sessions sid = session at advance
    cases advance with
    | @claim queueId own asked now rows _ _ _ _ known =>
      by_cases none : rows = []
      · rw [Session.claimant, if_pos none] at claims
        cases claims
      · rw [Session.claimant, if_neg none] at claims
        cases Option.some.inj claims
        obtain ⟨worker, found⟩ := Option.isSome_iff_exists.mp (known none)
        obtain ⟨member, same⟩ := Db.findWorker_some found
        exact ⟨worker, member, same⟩
    | select =>
      unfold handingOver at claims
      split at claims <;> cases claims
    | _ => cases claims
  · exact System.update_sessions (fun _ session => session.Covers state.db.jobs) covers
      fun other _ => owned.covers other

/-- Before it prunes a reaper has removed nothing. -/
theorem Advance.covers {session next : Session} {locks : List Lock}
    (advance : Advance env state session next locks) (unswept : session.sweep? = none) :
    next.Covers state.db.jobs := by
  intro sweep swept record member flying
  cases advance with
  | sweep =>
    cases Option.some.inj swept
    exact ⟨fun _ _ removed => (nomatch removed), fun chosen => nomatch chosen⟩
  | prune => cases unswept
  | select =>
    unfold handingOver at swept
    split at swept <;> cases swept
  | _ => cases swept

/-- The prune covers what its condition says. -/
theorem pruneStatement_covers {sweep : Sweep} {now : Time} {next : Session} {locks : List Lock}
    (distinct : (state.db.jobs.map fun record => record.job.id).Nodup)
    (first : ∀ record ∈ state.db.jobs, record.job.status.inFlight = true →
      record.job.workerId.any (· ∈ prunedWorkers env.settings state.db sweep.lost now) = true →
      record.job.id ∈ sweep.orphans)
    (taken : pruneStatement env.settings state sweep now = .hold next locks) :
    next.Covers state.db.jobs := by
  cases taken
  intro pruned swept record member flying
  cases Option.some.inj swept
  constructor
  · intro workerId owner removed
    exact first record member flying (by simpa [owner] using removed)
  · intro chosen
    obtain ⟨other, listed, same⟩ := List.mem_map.mp chosen
    obtain ⟨present, matching⟩ := List.mem_filter.mp listed
    cases unique_record distinct present member same
    simp only [Bool.and_eq_true, decide_eq_true_eq] at matching
    exact first _ present flying matching.1

/-- A session comes to rest. -/
theorem Owned.rest (owned : Owned state) {next : Session} (db : after.db = state.db)
    (sessions : after.sessions = Function.update state.sessions sid next)
    (unclaiming : next.claimant = none) (unswept : next.sweep? = none) : Owned after := by
  refine ⟨by rw [db]; exact owned.jobs, ?_, ?_⟩ <;> rw [db, sessions]
  · refine System.update_sessions (fun _ session => ∀ workerId, session.claimant = some workerId →
      ∃ worker ∈ state.db.workers, worker.id = workerId) ?_ fun other _ => owned.claims other
    intro workerId claims
    rw [unclaiming] at claims
    cases claims
  · refine System.update_sessions (fun _ session => session.Covers state.db.jobs) ?_
      fun other _ => owned.covers other
    intro sweep swept
    rw [unswept] at swept
    cases swept

theorem Owned.performs (owned : Owned state) (base : Base state)
    (other : ∀ sweep, state.sessions sid ≠ .reaperSwept sweep)
    (performs : Performs env state sid after) : Owned after := by
  cases performs with
  | hold advance =>
    refine owned.hold advance ?_
    cases running : state.sessions sid with
    | reaperSwept sweep => exact absurd running (other sweep)
    | reaperPruned =>
      rw [running] at advance
      cases advance
    | _ => exact advance.covers (by rw [running]; rfl)
  | commit commits => exact owned.commit base commits
  | rollback => exact owned.rest rfl rfl rfl rfl

theorem Owned.step (owned : Owned state) (base : Base state) {action : Action}
    (keeps : KeepsOwners env state action)
    (taken : Pulse.step env state action = some after) : Owned after := by
  cases step_cases base keeps.2 taken with
  | begin idle performs => exact owned.performs base (by simp [idle]) performs
  | @next sid input _ _ performs =>
    by_cases swept : ∃ sweep, state.sessions sid = .reaperSwept sweep
    · obtain ⟨sweep, running⟩ := swept
      obtain ⟨effect, made, performed⟩ := next_effect taken
      have first := keeps.1
      simp only [SweepsFirst, running] at first
      rw [running] at made
      cases effect with
      | hold next locks =>
        obtain ⟨_, rfl⟩ := System.perform_hold performed
        have advance := Session.effect_advance base.distinct made
        rw [← running] at advance
        refine owned.hold advance ?_
        simp only [Session.effect, Option.some.injEq] at made
        split at made
        · rename_i pruning
          exact pruneStatement_covers base.distinct (first pruning) made
        · cases made
      | commit next locks patch =>
        obtain ⟨_, rfl⟩ := System.perform_commit performed
        rw [← running] at made
        exact owned.commit base (Session.effect_commits base made)
      | rollback =>
        cases Option.some.inj performed
        exact owned.rest rfl rfl rfl rfl
    · exact owned.performs base (fun sweep running => swept ⟨sweep, running⟩) performs
  | fail => exact owned.rest rfl rfl rfl rfl
  | @submit sid newSid workerId task rest =>
    obtain ⟨unclaiming, unswept⟩ : (handingOver workerId rest).claimant = none ∧
        (handingOver workerId rest).sweep? = none := by
      unfold handingOver
      split <;> exact ⟨rfl, rfl⟩
    have handed : Owned { state with
        sessions := Function.update state.sessions sid (handingOver workerId rest) } :=
      owned.rest rfl rfl unclaiming unswept
    exact handed.rest rfl rfl rfl rfl
  | exit => exact ⟨owned.jobs, owned.claims, owned.covers⟩
  | reregister =>
    refine ⟨?_, ?_, owned.covers⟩
    · intro record member flying
      obtain ⟨worker, there, owner⟩ := owned.jobs record member flying
      exact ⟨worker, List.mem_append_left _ there, owner⟩
    · intro sid workerId claims
      obtain ⟨worker, there, same⟩ := owned.claims sid workerId claims
      exact ⟨worker, List.mem_append_left _ there, same⟩

theorem deadInView_matches {db : Db} {lost : List Uuid} {worker : Worker}
    (member : worker ∈ db.workers) (dead : worker.status = .dead ∨ worker.id ∈ lost) :
    deadInView db lost worker.id = true := by
  refine List.any_eq_true.mpr ⟨worker, member, ?_⟩
  have marked : (markDead lost worker).status = .dead := by
    unfold markDead
    split
    · rfl
    · rename_i found
      exact dead.resolve_right found
  simp [marked]

/-- In every run whose reapers leave no job behind and whose guards see no null token,
every job in flight stays recoverable. -/
theorem recoverable (reachable : (pulse env).Reachable (KeepsOwners env) state) :
    Recoverable state := by
  have both : Base state ∧ Owned state := by
    refine @Machine.Reachable.invariant _ _ (pulse env) (KeepsOwners env)
      (fun state => Base state ∧ Owned state) ?_ ?_ state reachable
    · rintro _ rfl
      exact ⟨initial_base, fun _ member => (nomatch member), fun _ _ claims => (nomatch claims),
        fun _ _ swept => nomatch swept⟩
    · rintro earlier action next ⟨base, owned⟩ keeps taken
      exact ⟨base.step keeps.2 taken, owned.step base keeps taken⟩
  intro record member flying
  obtain ⟨worker, there, owner⟩ := both.2.jobs record member flying
  refine ⟨worker, there, owner, ?_⟩
  intro lost dead
  rw [owner]
  exact deadInView_matches there dead

end Runs

/-- A worker long without a heartbeat is starting its job while a reaper sweeps. -/
def startedInSweep : List Action := claimedOnce ++ [
  .next 1 {},
  .submit 1 10,
  .next 10 {},
  .begin 2 .reaper,
  .next 2 { now := 100000 },
  .next 2 {},
  .next 2 {},
  .next 2 {},
  .next 10 {}]

theorem recoverable_started : ∃ state,
    (pulse (sample .reread)).Reachable (KeepsOwners (sample .reread)) state ∧
    (state.db.jobs.any fun record => record.job.status = .running) = true ∧
    Recoverable state := by
  have ran : ((pulse (sample .reread)).run (KeepsOwners (sample .reread)) {} startedInSweep).any
      (fun state => state.db.jobs.any fun record => record.job.status = .running) = true := by
    decide +kernel
  obtain ⟨state, reachable, passes⟩ := Machine.reachable_of_check rfl startedInSweep ran
  exact ⟨state, reachable, passes, recoverable reachable⟩

/-- The same reaper goes on to delete the worker: the job runs under no worker. -/
theorem prune_orphans_running : ∃ state, (pulse (sample .reread)).Reachable anyStep state ∧
    ¬ Recoverable state := by
  have ran : ((pulse (sample .reread)).run anyStep {} (startedInSweep ++ [
      .next 2 { prune := true, now := 100000 },
      .next 2 {}])).any (fun state => state.db.jobs.any fun record =>
        record.job.status.inFlight && record.job.workerId = none) = true := by
    decide +kernel
  obtain ⟨state, reachable, passes⟩ := Machine.reachable_of_check rfl _ ran
  refine ⟨state, reachable, ?_⟩
  intro recoverable
  obtain ⟨record, member, found⟩ := List.any_eq_true.mp passes
  simp only [Bool.and_eq_true, decide_eq_true_eq] at found
  obtain ⟨worker, _, owner, _⟩ := recoverable record member found.1
  rw [found.2] at owner
  cases owner

end Pulse
