import Pulse.System.Fenced
import Mathlib

/-! The concurrency ceiling: with the claims not yet committed, a queue never has more
jobs in flight than its constant limit. -/
namespace Pulse
open Library.RowLock Library.Lts

/-- The queue's `concurrency_limit` is the given one. -/
def LimitIs (queueId : Uuid) (limit : Nat) (state : System) (_ : Action) : Prop :=
  ∀ queue ∈ state.db.queues, queue.id = queueId → queue.concurrencyLimit = limit

instance (queueId : Uuid) (limit : Nat) (state : System) (action : Action) :
    Decidable (LimitIs queueId limit state action) :=
  inferInstanceAs (Decidable (∀ _ ∈ _, _))

/-- The jobs of the queue which the session's open transaction has claimed. -/
def Session.claiming (queueId : Uuid) : Session → Nat
  | .claimWritten own _ _ rows => if own = queueId then rows.length else 0
  | _ => 0

/-- The queue's jobs in flight, committed or claimed by an open transaction of any of
the sessions, are within the limit. -/
def WithinLimit (queueId : Uuid) (limit : Nat) (state : System) : Prop :=
  ∀ sids : List Sid, sids.Nodup →
    state.db.inFlightCount queueId +
      (sids.map fun sid => (state.sessions sid).claiming queueId).sum ≤ limit

section Count
variable {state : System} {session : Session} {record moved : JobRecord}

/-- The queue's jobs in flight, by id. -/
def Db.inFlightIds (db : Db) (queueId : Uuid) : List Uuid :=
  (db.jobs.filter fun record => record.job.queueId = queueId && record.job.status.inFlight).map
    fun record => record.job.id

theorem Db.inFlightIds_length (db : Db) (queueId : Uuid) :
    (db.inFlightIds queueId).length = db.inFlightCount queueId := by
  rw [inFlightIds, List.length_map, inFlightCount, List.countP_eq_length_filter]

theorem Db.mem_inFlightIds {db : Db} {queueId id : Uuid} :
    id ∈ db.inFlightIds queueId ↔ ∃ record ∈ db.jobs, record.job.id = id ∧
      record.job.queueId = queueId ∧ record.job.status.inFlight = true := by
  simp only [inFlightIds, List.mem_map, List.mem_filter, Bool.and_eq_true, decide_eq_true_eq]
  constructor
  · rintro ⟨record, ⟨member, queue, flying⟩, same⟩
    exact ⟨record, member, same, queue, flying⟩
  · rintro ⟨record, member, same, queue, flying⟩
    exact ⟨record, ⟨member, queue, flying⟩, same⟩

theorem Db.inFlightIds_nodup {db : Db} (distinct : (db.jobs.map fun record => record.job.id).Nodup)
    (queueId : Uuid) : (db.inFlightIds queueId).Nodup :=
  distinct.sublist (List.filter_sublist.map _)

/-- Only the commit of a claim puts a job in flight. -/
theorem Move.in_flight (move : Move state session record moved)
    (sound : record.Sound state.nextUuid) (flying : moved.job.status.inFlight = true) :
    record.job.status.inFlight = true ∨ ∃ queueId workerId now rows,
      session = .claimWritten queueId workerId now rows ∧ record.job.queueId = queueId ∧
        record.job.id ∈ rows.map ClaimedRow.jobId := by
  cases move with
  | keep | unassign => exact .inl flying
  | detach => exact .inl (by simpa using flying)
  | claim member same _ queue =>
    exact .inr ⟨_, _, _, _, rfl, queue, List.mem_map.mpr ⟨_, member, same.symm⟩⟩
  | start _ token held =>
    left
    rw [← sound.token, token]
    exact held
  | @write tick write =>
    rw [Change.write_status] at flying
    cases change : write.change <;> simp [change, Change.status, JobStatus.inFlight] at flying
  | complete | backoff | bury | requeueClaimed | requeueLost | buryLost | cancel | retry | replay =>
    cases flying

end Count

/-- The committed jobs in flight, and those with the claim under way, are within the
limit. -/
structure Ceiling (queueId : Uuid) (limit : Nat) (state : System) : Prop where
  committed : state.db.inFlightCount queueId ≤ limit
  claiming : ∀ sid, state.db.inFlightCount queueId + (state.sessions sid).claiming queueId ≤ limit

section Runs
variable {env : Environment} {state after : System} {sid : Sid} {queueId : Uuid} {limit : Nat}

theorem Session.claiming_locks {session : Session} (claiming : session.claiming queueId ≠ 0) :
    (Key.queueClaims queueId, Mode.update) ∈ session.locks := by
  cases session with
  | claimWritten own workerId now rows =>
    by_cases same : own = queueId
    · subst same
      exact List.mem_cons_self
    · exact absurd (if_neg same) claiming
  | _ => exact absurd rfl claiming

/-- The advisory lock admits one claim of the queue at a time. -/
theorem Base.one_claim (base : Base state) {other : Sid}
    (locked : (Key.queueClaims queueId, Mode.update) ∈ (state.sessions sid).locks)
    (different : other ≠ sid) : (state.sessions other).claiming queueId = 0 := by
  by_contra claiming
  have held := base.granted sid _ locked
  have taken := base.granted other _ (Session.claiming_locks claiming)
  exact different (base.compatible.holder_unique taken held rfl)

/-- What the claim statement may claim. -/
theorem claimLimit_within {asked : Nat} {rows : List ClaimedRow}
    (limited : ∀ queue ∈ state.db.queues, queue.id = queueId → queue.concurrencyLimit = limit)
    (committed : state.db.inFlightCount queueId ≤ limit)
    (within : rows.length ≤ claimLimit asked (state.db.freeSlots queueId)) :
    state.db.inFlightCount queueId + rows.length ≤ limit := by
  unfold Db.freeSlots at within
  split at within
  · rename_i queue found
    have member := List.mem_of_find?_eq_some found
    have named : queue.id = queueId := by simpa using List.find?_some found
    rw [limited queue member named] at within
    split at within
    · simp only [claimLimit] at within
      omega
    · simp only [claimLimit] at within
      omega
  · simp only [claimLimit] at within
    omega

theorem Ceiling.hold (ceiling : Ceiling queueId limit state) {next : Session} {locks : List Lock}
    (advance : Advance env state (state.sessions sid) next locks)
    (limited : ∀ queue ∈ state.db.queues, queue.id = queueId → queue.concurrencyLimit = limit) :
    Ceiling queueId limit (state.hold sid next locks) := by
  refine ⟨ceiling.committed, ?_⟩
  refine System.update_sessions (fun _ session =>
    state.db.inFlightCount queueId + session.claiming queueId ≤ limit) ?_
    fun other _ => ceiling.claiming other
  have quiet : next.claiming queueId = 0 →
      state.db.inFlightCount queueId + next.claiming queueId ≤ limit := by
    intro none
    rw [none, Nat.add_zero]
    exact ceiling.committed
  generalize state.sessions sid = session at advance
  cases advance with
  | @claim own workerId asked now rows _ _ _ within =>
    by_cases same : own = queueId
    · subst same
      have bound := claimLimit_within limited ceiling.committed within
      simpa [Session.claiming] using bound
    · exact quiet (if_neg same)
  | select =>
    refine quiet ?_
    unfold handingOver
    split <;> rfl
  | _ => exact quiet rfl

/-- A commit adds to the jobs in flight at most those which it has claimed. -/
theorem Commits.in_flight {next : Session} {patch : Patch} (base : Base state)
    (commits : Commits state sid next patch) :
    (state.db.apply patch).inFlightCount queueId ≤
      state.db.inFlightCount queueId + (state.sessions sid).claiming queueId := by
  have origin : (state.db.apply patch).inFlightIds queueId ⊆ state.db.inFlightIds queueId ++
      match state.sessions sid with
      | .claimWritten own _ _ rows => if own = queueId then rows.map ClaimedRow.jobId else []
      | _ => [] := by
    intro id member
    obtain ⟨record, present, rfl, queue, flying⟩ := Db.mem_inFlightIds.mp member
    rcases commits.origin present with ⟨old, there, _, _, move⟩ | ⟨job, inserted, rfl⟩
    · rw [move.queueId] at queue
      rw [move.job_id]
      rcases move.in_flight (base.sound old there) flying with
        before | ⟨own, workerId, now, rows, claims, owner, claimed⟩
      · exact List.mem_append_left _ (Db.mem_inFlightIds.mpr ⟨old, there, rfl, queue, before⟩)
      · refine List.mem_append_right _ ?_
        rw [claims]
        simpa only [owner.symm.trans queue, if_true] using claimed
    · rcases (commits.inserted job inserted).1.status with status | status <;>
        simp [status, JobStatus.inFlight] at flying
  have distinct := Db.inFlightIds_nodup (commits.distinct base) queueId
  have count := List.Nodup.length_le_of_subset distinct origin
  rw [List.length_append, Db.inFlightIds_length, Db.inFlightIds_length] at count
  refine count.trans (Nat.add_le_add_left ?_ _)
  cases state.sessions sid with
  | claimWritten own workerId now rows =>
    simp only [Session.claiming]
    split <;> simp
  | _ => exact Nat.le_refl 0

theorem Ceiling.commit (ceiling : Ceiling queueId limit state) (base : Base state)
    {next : Session} {patch : Patch} (commits : Commits state sid next patch) :
    Ceiling queueId limit (state.commit sid next patch) := by
  have count : (state.db.apply patch).inFlightCount queueId ≤
      state.db.inFlightCount queueId + (state.sessions sid).claiming queueId :=
    commits.in_flight base
  have own := ceiling.claiming sid
  have committed : (state.db.apply patch).inFlightCount queueId ≤ limit := count.trans own
  refine ⟨committed, System.update_sessions (fun _ session =>
    (state.db.apply patch).inFlightCount queueId + session.claiming queueId ≤ limit) ?_ ?_⟩
  · have leaves := commits.leaves
    generalize state.sessions sid = session at leaves
    cases leaves <;> exact committed
  · intro other different
    by_cases claiming : (state.sessions sid).claiming queueId = 0
    · rw [claiming, Nat.add_zero] at count
      have before := ceiling.claiming other
      omega
    · rw [base.one_claim (Session.claiming_locks claiming) different]
      exact committed

theorem Ceiling.idle (ceiling : Ceiling queueId limit state) {session : Session}
    (quiet : session.claiming queueId = 0) :
    ∀ other, state.db.inFlightCount queueId +
      (Function.update state.sessions sid session other).claiming queueId ≤ limit := by
  refine System.update_sessions (fun _ session =>
    state.db.inFlightCount queueId + session.claiming queueId ≤ limit) ?_
    fun other _ => ceiling.claiming other
  rw [quiet]
  exact ceiling.committed

theorem Ceiling.performs (ceiling : Ceiling queueId limit state) (base : Base state)
    (limited : ∀ queue ∈ state.db.queues, queue.id = queueId → queue.concurrencyLimit = limit)
    (performs : Performs env state sid after) : Ceiling queueId limit after := by
  cases performs with
  | hold advance => exact ceiling.hold advance limited
  | commit commits => exact ceiling.commit base commits
  | rollback => exact ⟨ceiling.committed, ceiling.idle rfl⟩

theorem Ceiling.step (ceiling : Ceiling queueId limit state) (fenced : Fenced state)
    {action : Action} (limited : LimitIs queueId limit state action)
    (taken : Pulse.step env state action = some after) : Ceiling queueId limit after := by
  cases step_cases fenced.base (fenced.guards action) taken with
  | begin _ performs | next _ performs => exact ceiling.performs fenced.base limited performs
  | fail => exact ⟨ceiling.committed, ceiling.idle rfl⟩
  | @submit sid newSid workerId task rest =>
    have handed : (handingOver workerId rest).claiming queueId = 0 := by
      unfold handingOver
      split <;> rfl
    exact ⟨ceiling.committed, System.update_sessions (fun _ session =>
      state.db.inFlightCount queueId + session.claiming queueId ≤ limit) ceiling.committed
      fun other _ => ceiling.idle handed other⟩
  | exit | reregister => exact ⟨ceiling.committed, ceiling.claiming⟩

/-- Among any sessions at most one is claiming, so the sum is the claim of one of them. -/
theorem Ceiling.within (ceiling : Ceiling queueId limit state) (base : Base state) :
    WithinLimit queueId limit state := by
  intro sids distinct
  by_cases silent : ∀ sid ∈ sids, (state.sessions sid).claiming queueId = 0
  · have none : (sids.map fun sid => (state.sessions sid).claiming queueId).sum = 0 := by
      apply List.sum_eq_zero
      intro count member
      obtain ⟨sid, listed, rfl⟩ := List.mem_map.mp member
      exact silent sid listed
    rw [none]
    exact ceiling.committed
  · push Not at silent
    obtain ⟨sid, listed, claiming⟩ := silent
    have others : ∀ other ∈ sids.erase sid, (state.sessions other).claiming queueId = 0 := by
      intro other member
      exact base.one_claim (Session.claiming_locks claiming) (distinct.mem_erase_iff.mp member).1
    have rest : ((sids.erase sid).map fun sid => (state.sessions sid).claiming queueId).sum = 0 := by
      apply List.sum_eq_zero
      intro count member
      obtain ⟨other, present, rfl⟩ := List.mem_map.mp member
      exact others other present
    have whole := (List.perm_cons_erase listed).map fun sid => (state.sessions sid).claiming queueId
    rw [whole.sum_nat, List.map_cons, List.sum_cons, rest, Nat.add_zero]
    exact ceiling.claiming sid

/-- In every run which leaves the queue's limit as it is, no state has more of its jobs
in flight, claims under way included. -/
theorem ceiling (returning : env.handover = .returning)
    (reachable : (pulse env).Reachable (LimitIs queueId limit) state) :
    WithinLimit queueId limit state := by
  have both : Fenced state ∧ Ceiling queueId limit state := by
    refine @Machine.Reachable.invariant _ _ (pulse env) (LimitIs queueId limit)
      (fun state => Fenced state ∧ Ceiling queueId limit state) ?_ ?_ state reachable
    · rintro _ rfl
      exact ⟨initial_fenced, Nat.zero_le _, fun _ => Nat.zero_le _⟩
    · rintro earlier action next ⟨fenced, ceiling⟩ limited taken
      exact ⟨fenced.step (returning_hands returning earlier action) taken,
        ceiling.step fenced limited taken⟩
  exact both.2.within both.1.base

end Runs

/-- Of three queued jobs a claim takes the one which the limit of one leaves. -/
def claimedAtLimit : List Action := [
  .begin 0 (.api 0 (.createQueue { projectId := 0, name := "default", concurrencyLimit := 1 })),
  .begin 0 (.api 0 .registerWorker),
  .begin 0 (.api 0 (.createJob { queueId := 1, type := .immediate, handler := "noop" })),
  .begin 0 (.api 0 (.createJob { queueId := 1, type := .immediate, handler := "noop" })),
  .begin 1 (.claimJobs 1 2 5 0),
  .next 1 { picked := [4] }]

theorem ceiling_claimed : ∃ state, (pulse (sample .returning)).Reachable (LimitIs 1 1) state ∧
    (state.sessions 1).claiming 1 = 1 ∧ WithinLimit 1 1 state := by
  have ran : ((pulse (sample .returning)).run (LimitIs 1 1) {} claimedAtLimit).any (fun state =>
      (state.sessions 1).claiming 1 = 1) = true := by
    decide +kernel
  obtain ⟨state, reachable, passes⟩ := Machine.reachable_of_check rfl claimedAtLimit ran
  exact ⟨state, reachable, by simpa using passes, ceiling rfl reachable⟩

end Pulse
