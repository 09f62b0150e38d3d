import Pulse.System.Invariant

/-! What `claim_jobs` leaves behind when no other transaction is under way in the queue. -/
namespace Pulse
open Library.RowLock Library.Lts

/-- `claim_jobs` with nothing between its statements; its SELECT of the rows it has claimed
changes nothing. -/
def claimJobs (env : Environment) (state : System) (sid : Sid) (queueId workerId : Uuid)
    (limit : Int) (now : Time) (input : Input) : Option System :=
  if limit ≤ 0 then some state
  else (step env state (.begin sid (.claimJobs queueId workerId limit.toNat now))).bind fun locked =>
    (step env locked (.next sid input)).bind fun written => step env written (.next sid input)

/-- How many jobs of the queue may be claimed: none of a paused or missing queue. -/
def Db.claimCount (db : Db) (queueId : Uuid) (limit : Int) (now : Time) : Nat :=
  match db.findQueue queueId with
  | some queue =>
    if queue.isPaused then 0
    else min limit.toNat (min (queue.concurrencyLimit - db.inFlightCount queueId)
      (db.claimable queueId now).length)
  | none => 0

/-- Job ids are a primary key, and tokens are drawn from the supply. -/
structure Tokened (state : System) : Prop where
  distinct : (state.db.jobs.map fun record => record.job.id).Nodup
  drawn : ∀ record ∈ state.db.jobs, ∀ token ∈ record.job.lockToken, token < state.nextUuid

/-- The states which a run reaches are such states. -/
theorem Base.tokened {state : System} (base : Base state) : Tokened state :=
  ⟨base.distinct, fun record member token carried => (base.sound record member).token_lt token carried⟩

/-- The UPDATE of the listed rows. -/
def Db.claim (db : Db) (ids : List Uuid) (now : Time) (workerId : Uuid) (token : Uuid → Uuid) : Db :=
  { db with jobs := db.jobs.map fun record =>
      if record.job.id ∈ ids then record.claim now workerId (token record.job.id) else record }

/-- The listed jobs, and no others, are claimed by the worker. -/
structure Claimed (before after : Db) (queueId workerId : Uuid) (limit : Int) (now : Time)
    (ids : List Uuid) (token : Uuid → Uuid) : Prop where
  distinct : ids.Nodup
  count : ids.length = before.claimCount queueId limit now
  due : ∀ id ∈ ids, ∃ job ∈ before.claimable queueId now, job.id = id
  first : ∀ job ∈ before.claimable queueId now, job.id ∈ ids →
    ∀ other ∈ before.claimable queueId now, other.id ∉ ids → other.before job = false
  fresh : (∀ id, ∀ record ∈ before.jobs, record.job.lockToken ≠ some (token id)) ∧
    Function.Injective token
  written : after = before.claim ids now workerId token

/-- Nothing makes the call wait, and the worker's process and row are there. -/
structure Unhindered (state : System) (sid : Sid) (queueId workerId : Uuid) : Prop where
  idle : state.sessions sid = .idle
  acting : state.acting workerId
  known : (state.db.findWorker workerId).isSome = true
  claims : state.waits sid (.queueClaims queueId, .update) = false
  worker : state.waits sid (.worker workerId, .keyShare) = false

section Call
variable {env : Environment} {state locked written after : System} {sid : Sid}
  {queueId workerId : Uuid} {limit : Nat} {now : Time} {input : Input} {rows : List ClaimedRow}

/-- The rows which the claim statement returns. -/
def claimRows (state : System) (queueId : Uuid) (now : Time) (picked : List Uuid) : List ClaimedRow :=
  ((state.db.claimable queueId now).filter fun job => job.id ∈ picked).map fun job =>
    { jobId := job.id, token := state.draw job.id, attempts := job.attempts }

/-- The locks of the claim statement. -/
def claimLocks (workerId : Uuid) (rows : List ClaimedRow) : List Lock :=
  if rows = [] then []
  else (.worker workerId, .keyShare) :: rows.map fun row => (.job row.jobId, .update)

theorem claim_begun : step env state (.begin sid (.claimJobs queueId workerId limit now)) = some locked ↔
    state.sessions sid = .idle ∧ state.acting workerId ∧ 0 < limit ∧
      state.waits sid (.queueClaims queueId, .update) = false ∧
        locked = state.hold sid (.claimLocked queueId workerId limit now)
          [(.queueClaims queueId, .update)] := by
  simp only [step, Request.effect]
  by_cases idle : state.sessions sid = .idle
  · by_cases allowed : state.acting workerId ∧ 0 < limit
    · rw [if_pos idle, if_pos allowed, Option.bind_some]
      constructor
      · intro taken
        obtain ⟨granted, rfl⟩ := System.perform_hold taken
        exact ⟨idle, allowed.1, allowed.2, by simpa using granted, rfl⟩
      · rintro ⟨_, _, _, granted, rfl⟩
        simp [System.perform, granted]
    · rw [if_pos idle, if_neg allowed]
      simp only [Option.bind_none, reduceCtorEq, false_iff]
      exact fun given => allowed ⟨given.2.1, given.2.2.1⟩
  · simp [idle]

/-- Where nobody has locked the queue's jobs, none is skipped. -/
theorem claim_stated (free : ∀ job ∈ state.db.claimable queueId now,
      state.waits sid (.job job.id, .update) = false) {effect : Effect} :
    claimStatement state sid queueId workerId limit now input = some effect ↔
      Takes (state.db.claimable queueId now) (claimLimit limit (state.db.freeSlots queueId))
        input.picked ∧
      (claimRows state queueId now input.picked = [] ∨ (state.db.findWorker workerId).isSome = true) ∧
        effect = .hold (.claimWritten queueId workerId now (claimRows state queueId now input.picked))
          (claimLocks workerId (claimRows state queueId now input.picked)) := by
  have all : (state.db.claimable queueId now).filter (fun job =>
      !state.waits sid (.job job.id, .update)) = state.db.claimable queueId now := by
    apply List.filter_eq_self.mpr
    intro job member
    simp [free job member]
  unfold claimStatement
  simp only [all]
  change (if _ then (if claimRows state queueId now input.picked = [] then _ else _) else _) = _ ↔ _
  by_cases takes : Takes (state.db.claimable queueId now)
      (claimLimit limit (state.db.freeSlots queueId)) input.picked
  · rw [if_pos takes]
    by_cases none : claimRows state queueId now input.picked = []
    · simp only [none, if_true, takes, true_or, true_and, claimLocks]
      exact ⟨fun same => (Option.some.inj same).symm, fun same => congrArg some same.symm⟩
    · cases known : state.db.findWorker workerId with
      | none => simp [none]
      | some =>
        simp only [none, if_false, Option.isNone_some, Bool.false_eq_true, takes, false_or,
          Option.isSome_some, true_and, claimLocks]
        exact ⟨fun same => (Option.some.inj same).symm, fun same => congrArg some same.symm⟩
  · rw [if_neg takes]
    simp [takes]

theorem hold_waits {next : Session} {locks : List Lock} (lock : Lock) :
    (state.hold sid next locks).waits sid lock = state.waits sid lock :=
  blocked_acquire ..

/-- What the commit writes to each row. -/
theorem claimWrite_eq {picked : List Uuid} {record : JobRecord}
    (chosen : ∀ id ∈ picked, ∃ job ∈ state.db.claimable queueId now, job.id = id) :
    claimWrite workerId now (claimRows state queueId now picked) record =
      if record.job.id ∈ picked then record.claim now workerId (state.draw record.job.id)
      else record := by
  unfold claimWrite
  cases found : (claimRows state queueId now picked).find? fun row => row.jobId = record.job.id with
  | none =>
    rw [if_neg]
    intro listed
    obtain ⟨job, eligible, same⟩ := chosen _ listed
    have row := List.find?_eq_none.mp found
      { jobId := job.id, token := state.draw job.id, attempts := job.attempts }
      (List.mem_map.mpr ⟨job, List.mem_filter.mpr ⟨eligible, by simpa [same] using listed⟩, rfl⟩)
    exact row (by simpa using same)
  | some row =>
    obtain ⟨job, kept, rfl⟩ := List.mem_map.mp (List.mem_of_find?_eq_some found)
    have same : job.id = record.job.id := by simpa using List.find?_some found
    have listed : job.id ∈ picked := by simpa using (List.mem_filter.mp kept).2
    rw [if_pos (same ▸ listed), ← same]

/-- Where the count of the claimed rows comes from. -/
theorem claimCount_eq (limit : Int) : state.db.claimCount queueId limit now =
    min (claimLimit limit.toNat (state.db.freeSlots queueId))
      (state.db.claimable queueId now).length := by
  unfold Db.claimCount Db.freeSlots claimLimit
  cases state.db.findQueue queueId with
  | none => simp
  | some queue =>
    by_cases paused : queue.isPaused = true
    · simp [paused]
    · simp only [paused]
      change min limit.toNat _ = min (min limit.toNat _) _
      omega

/-- A call which returns has claimed what its statement took. -/
theorem claimJobs_ran {limit : Int} (positive : 0 < limit)
    (free : ∀ job ∈ state.db.claimable queueId now, state.waits sid (.job job.id, .update) = false)
    (ran : claimJobs env state sid queueId workerId limit now input = some after) :
    Takes (state.db.claimable queueId now) (claimLimit limit.toNat (state.db.freeSlots queueId))
        input.picked ∧
      after.db = state.db.claim input.picked now workerId (2 * state.nextUuid + ·) := by
  rw [claimJobs, if_neg (by omega)] at ran
  obtain ⟨held, begun, ran⟩ := Option.bind_eq_some_iff.mp ran
  obtain ⟨written, stated, committed⟩ := Option.bind_eq_some_iff.mp ran
  obtain ⟨-, -, -, -, rfl⟩ := claim_begun.mp begun
  generalize heldIs : state.hold sid (.claimLocked queueId workerId limit.toNat now)
    [(.queueClaims queueId, .update)] = held at stated
  have same : held.db = state.db := heldIs ▸ rfl
  have session : held.sessions sid = .claimLocked queueId workerId limit.toNat now := by
    rw [← heldIs]
    exact Function.update_self ..
  have supply : held.nextUuid = 2 * state.nextUuid := heldIs ▸ rfl
  have ready : ∀ job ∈ held.db.claimable queueId now, held.waits sid (.job job.id, .update) = false := by
    intro job member
    rw [← heldIs, hold_waits]
    exact free job (same ▸ member)
  simp only [step, session] at stated
  split at stated
  · obtain ⟨effect, made, performed⟩ := Option.bind_eq_some_iff.mp stated
    obtain ⟨takes, -, rfl⟩ := (claim_stated ready).mp made
    obtain ⟨-, rfl⟩ := System.perform_hold performed
    simp only [step, System.hold_sessions, Function.update_self] at committed
    split at committed
    · obtain ⟨effect, closing, performed⟩ := Option.bind_eq_some_iff.mp committed
      cases Option.some.inj closing
      obtain ⟨-, rfl⟩ := System.perform_commit performed
      rw [same] at takes
      refine ⟨takes, ?_⟩
      have writes : ∀ record ∈ state.db.jobs,
          claimWrite workerId now (claimRows held queueId now input.picked) record =
            if record.job.id ∈ input.picked then
              record.claim now workerId (2 * state.nextUuid + record.job.id) else record := by
        intro record _
        rw [claimWrite_eq (same.symm ▸ takes.2.2.1), System.draw, supply]
      simp only [System.commit_db, System.hold_db, same, Db.apply, List.not_mem_nil,
        not_false_eq_true, decide_true, List.filter_true, List.map_nil, List.append_nil, id,
        Db.claim]
      rw [List.map_congr_left writes]
    · cases committed
  · cases stated

/-- The call returns where nothing makes it wait. -/
theorem claimJobs_returns {limit : Int}
    (distinct : (state.db.jobs.map fun record => record.job.id).Nodup)
    (free : ∀ job ∈ state.db.claimable queueId now, state.waits sid (.job job.id, .update) = false)
    (unhindered : Unhindered state sid queueId workerId) :
    ∃ input after, claimJobs env state sid queueId workerId limit now input = some after := by
  by_cases positive : 0 < limit
  · obtain ⟨idle, acting, known, claims, worker⟩ := unhindered
    have unique : ((state.db.claimable queueId now).map Job.id).Nodup := by
      have jobs : ((state.db.jobs.map JobRecord.job).map Job.id).Nodup := by
        rw [List.map_map]
        exact distinct
      exact jobs.sublist (List.filter_sublist.map _)
    obtain ⟨picked, takes⟩ := exists_takes unique (claimLimit limit.toNat (state.db.freeSlots queueId))
    refine ⟨{ picked }, ?_⟩
    rw [claimJobs, if_neg (by omega)]
    let held := state.hold sid (.claimLocked queueId workerId limit.toNat now)
      [(.queueClaims queueId, .update)]
    have begun : step env state (.begin sid (.claimJobs queueId workerId limit.toNat now)) =
        some held := claim_begun.mpr ⟨idle, acting, by omega, claims, rfl⟩
    have ready : ∀ job ∈ held.db.claimable queueId now,
        held.waits sid (.job job.id, .update) = false := by
      intro job member
      rw [hold_waits]
      exact free job member
    have session : held.sessions sid = .claimLocked queueId workerId limit.toNat now :=
      Function.update_self ..
    have rows : claimStatement held sid queueId workerId limit.toNat now { picked } = some
        (.hold (.claimWritten queueId workerId now (claimRows held queueId now picked))
          (claimLocks workerId (claimRows held queueId now picked))) :=
      (claim_stated ready).mpr ⟨takes, .inr known, rfl⟩
    have granted : (claimLocks workerId (claimRows held queueId now picked)).any
        (held.waits sid) = false := by
      apply List.any_eq_false.mpr
      intro lock listed
      unfold claimLocks at listed
      split at listed
      · exact absurd listed List.not_mem_nil
      · rw [hold_waits]
        rcases List.mem_cons.mp listed with rfl | written
        · simpa using worker
        · obtain ⟨row, member, rfl⟩ := List.mem_map.mp written
          obtain ⟨job, kept, rfl⟩ := List.mem_map.mp member
          simpa using free job (List.mem_of_mem_filter kept)
    have alive : held.live workerId := acting.1
    let written := held.hold sid
      (.claimWritten queueId workerId now (claimRows held queueId now picked))
      (claimLocks workerId (claimRows held queueId now picked))
    have stated : step env held (.next sid { picked }) = some written := by
      simp [step, session, Session.worker, alive, Session.effect, rows, System.perform, granted,
        written]
    have owned : written.sessions sid =
        .claimWritten queueId workerId now (claimRows held queueId now picked) :=
      Function.update_self ..
    have lives : written.live workerId := alive
    rw [begun, Option.bind_some, stated, Option.bind_some]
    refine Option.isSome_iff_exists.mp ?_
    simp [step, owned, Session.worker, lives, Session.effect, System.perform]
  · exact ⟨{}, state, if_pos (by omega)⟩

end Call

/-- Where no other transaction holds locks on the queue's jobs, `claim_jobs` claims as many
of the due jobs as the queue and the limit allow, the first in the order, and changes nothing
else; where nothing makes it wait it returns. -/
theorem claims_exact {env : Environment} {state : System} {sid : Sid} {queueId workerId : Uuid}
    {limit : Int} {now : Time} (tokened : Tokened state)
    (free : ∀ record ∈ state.db.jobs, record.job.queueId = queueId →
      state.waits sid (.job record.job.id, .update) = false) :
    (Unhindered state sid queueId workerId →
      ∃ input after, claimJobs env state sid queueId workerId limit now input = some after) ∧
    ∀ input after, claimJobs env state sid queueId workerId limit now input = some after →
      ∃ ids token, Claimed state.db after.db queueId workerId limit now ids token := by
  have unlocked : ∀ job ∈ state.db.claimable queueId now,
      state.waits sid (.job job.id, .update) = false := by
    intro job member
    obtain ⟨listed, selected⟩ := List.mem_filter.mp member
    obtain ⟨record, present, rfl⟩ := List.mem_map.mp listed
    simp only [Bool.and_eq_true, decide_eq_true_eq] at selected
    exact free record present selected.1.1
  refine ⟨claimJobs_returns tokened.distinct unlocked, ?_⟩
  intro input after ran
  have fresh : (∀ id, ∀ record ∈ state.db.jobs,
        record.job.lockToken ≠ some (2 * state.nextUuid + id)) ∧
      Function.Injective fun id : Uuid => 2 * state.nextUuid + id := by
    refine ⟨?_, fun _ _ same => Nat.add_left_cancel same⟩
    intro id record member same
    have old : (2 * state.nextUuid + id : Nat) < state.nextUuid := tokened.drawn record member _ same
    omega
  by_cases positive : 0 < limit
  · obtain ⟨takes, written⟩ := claimJobs_ran positive unlocked ran
    obtain ⟨distinct, size, due, first⟩ := takes
    exact ⟨input.picked, _, distinct, size.trans (claimCount_eq limit).symm, due, first, fresh, written⟩
  · rw [claimJobs, if_pos (by omega)] at ran
    cases Option.some.inj ran
    refine ⟨[], _, List.nodup_nil, ?_, by simp, by simp, fresh, by simp [Db.claim]⟩
    rw [claimCount_eq, Int.toNat_of_nonpos (by omega)]
    unfold claimLimit
    cases state.db.freeSlots queueId <;> simp

/-- Queue 1 with room for two more jobs, three due ones and a running one, and worker 2. -/
def crowded : System where
  db := {
    queues := [⟨1, 1, none, "default", 0, 3, none, false⟩]
    workers := [⟨2, .idle, 0, some 0⟩]
    jobs := [
      { job := ⟨8, 1, .immediate, .queued, 0, "8", "email", 0, 0, 3, none, none, none, none, none,
          none, none, none, none, none⟩ },
      { job := ⟨9, 1, .immediate, .queued, 5, "9", "email", 1, 0, 3, none, none, none, none, none,
          none, none, none, none, none⟩ },
      { job := ⟨10, 1, .immediate, .queued, 5, "10", "email", 0, 0, 3, none, none, none, none, none,
          none, none, none, none, none⟩ },
      { job := ⟨11, 1, .immediate, .running, 0, "11", "email", 0, 0, 3, none, some 7, some 2, none,
          none, none, none, none, none, none⟩ }] }
  nextUuid := 16

/-- Both free slots are taken, and the third job is left. -/
theorem claims_exact_crowded : ∃ input after,
    claimJobs { handover := .reread, getNext := fun _ _ _ => none } crowded 0 1 2 5 1 input = some after ∧
      ∃ ids token, ids.length = 2 ∧ Claimed crowded.db after.db 1 2 5 1 ids token := by
  have tokened : Tokened crowded := ⟨by decide, by decide +kernel⟩
  have free : ∀ record ∈ crowded.db.jobs, record.job.queueId = 1 →
      crowded.waits 0 (.job record.job.id, .update) = false := fun _ _ _ => rfl
  have unhindered : Unhindered crowded 0 1 2 := ⟨rfl, by decide, rfl, rfl, rfl⟩
  obtain ⟨returns, exact⟩ := @claims_exact { handover := .reread, getNext := fun _ _ _ => none }
    crowded 0 1 2 5 1 tokened free
  obtain ⟨input, after, ran⟩ := returns unhindered
  obtain ⟨ids, token, claimed⟩ := exact input after ran
  exact ⟨input, after, ran, ids, token, claimed.count.trans (by decide +kernel), claimed⟩

end Pulse
