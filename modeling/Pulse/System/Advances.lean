import Pulse.System.Invariant

/-! A statement inside a transaction keeps the invariant: it leaves the database
alone, and what its stage relies on it has read or locked. -/
namespace Pulse
open Library.RowLock

section Hold
variable {env : Environment} {state : System} {session next : Session} {locks : List Lock}

theorem handingOver_tokens (workerId : Uuid) (tasks : List Task) :
    (handingOver workerId tasks).tokens = tasks.map Task.written := by
  unfold handingOver
  split
  · rename_i empty
    rw [empty]
    rfl
  · rfl

theorem handingOver_locks (workerId : Uuid) (tasks : List Task) :
    (handingOver workerId tasks).locks = [] ∧ (handingOver workerId tasks).rows = [] ∧
      (handingOver workerId tasks).replays = none ∧
      (handingOver workerId tasks).targetIds = [] ∧ (handingOver workerId tasks).Armed := by
  unfold handingOver
  split <;> exact ⟨rfl, rfl, rfl, rfl, trivial⟩

/-- The tasks which a claim hands over stand for rows which it wrote. -/
theorem claimedTasks_written (handover : Handover) (db : Db) (workerId : Uuid)
    (rows : List ClaimedRow) :
    ((claimedTasks handover db workerId rows).map Task.written).Sublist
      (rows.map ClaimedRow.token) := by
  cases handover with
  | returning => simp [claimedTasks, Function.comp_def]
  | reread =>
    induction rows with
    | nil => exact .slnil
    | cons row rest ih =>
      simp only [claimedTasks, List.filterMap_cons, List.map_cons] at ih ⊢
      cases found : db.findJob row.jobId with
      | none => exact ih.cons _
      | some record => exact ih.cons_cons _

/-- Every lock a stage relies on was held before or is taken by the statement. -/
theorem Advance.locks_granted (advance : Advance env state session next locks) :
    ∀ lock ∈ next.locks, lock ∈ session.locks ∨ lock ∈ locks := by
  intro lock member
  cases advance with
  | claim =>
    simp only [Session.locks, List.mem_cons, List.not_mem_nil, or_false] at member ⊢
    exact member
  | select => simp [(handingOver_locks _ _).1] at member
  | handled | loadWorker => cases member
  | readStale | readSilent => exact .inl member
  | markDead =>
    simp only [Session.locks, List.mem_cons, List.not_mem_nil, or_false] at member ⊢
    exact member
  | sweep =>
    simp only [Session.locks, List.map_nil, List.append_nil, List.mem_append] at member ⊢
    exact member
  | prune =>
    simp only [Session.locks, List.mem_append, List.cons_append, List.mem_cons] at member ⊢
    tauto
  | tickRead writes =>
    left
    simpa [Session.locks, writes] using member
  | tickWrite =>
    simp only [Session.locks, List.map_cons, List.mem_cons, List.not_mem_nil, or_false]
      at member ⊢
    tauto
  | supersede =>
    simp only [Session.locks, List.mem_cons, List.not_mem_nil, or_false] at member ⊢
    exact member
  | lockReplayed =>
    simp only [Session.locks, List.mem_cons, List.not_mem_nil, or_false] at member ⊢
    exact member
  | _ => exact .inr member

/-- A tick starts empty, or goes on. -/
theorem Advance.tick_origin (advance : Advance env state session next locks) {tick : Tick}
    (ticking : next = .tick tick) :
    (session = .idle ∧ ∃ now, tick = { now }) ∨ ∃ current, session = .tick current := by
  cases advance with
  | tryTick =>
    cases ticking
    exact .inl ⟨rfl, _, rfl⟩
  | tickRead | tickWrite => exact .inr ⟨_, rfl⟩
  | select =>
    unfold handingOver at ticking
    split at ticking <;> cases ticking
  | _ => cases ticking

/-- The first guard is passed under a token. -/
def Advance.Guards (session next : Session) : Prop :=
  ∀ task, session = .execute task → next = .starting task → task.token.isSome = true

theorem Advance.armed (advance : Advance env state session next locks) (armed : session.Armed)
    (guards : Advance.Guards session next)
    (policies : ∀ policy ∈ state.db.retryPolicies, policy.usable)
    (targets : ∀ id ∈ session.targetIds, ∀ record ∈ state.db.jobs, record.job.id = id →
      record.job.status.parked = true) : next.Armed := by
  cases advance with
  | claim _ _ distinct => exact distinct
  | select => exact (handingOver_locks _ _).2.2.2.2
  | passFirst => exact guards _ rfl rfl
  | handled | passSecond => exact armed
  | tryTick => exact ⟨by simp, by simp⟩
  | tickRead writes _ spawned =>
    refine ⟨by rw [writes]; exact armed.1, ?_⟩
    intro job member
    rcases spawned policies job member with old | fresh
    · exact armed.2 job old
    · exact fresh
  | tickWrite chosen member same =>
    refine ⟨?_, armed.2⟩
    intro write written
    rcases List.mem_cons.mp written with rfl | old
    · refine targets _ ?_ _ member same
      exact List.mem_append_left _ (List.mem_map.mpr ⟨_, chosen, rfl⟩)
    · exact armed.1 write old
  | _ => trivial

theorem Advance.tokens (advance : Advance env state session next locks)
    (sound : ∀ record ∈ state.db.jobs, record.Sound state.nextUuid)
    (older : ∀ token ∈ session.tokens, token < state.nextUuid) :
    ∀ token ∈ next.tokens, token < 2 * state.nextUuid := by
  intro token member
  have wider : ∀ {token : Uuid}, token < state.nextUuid → token < 2 * state.nextUuid :=
    fun below => by lia
  cases advance with
  | claim selected drawn =>
    obtain ⟨row, listed, rfl⟩ := List.mem_map.mp member
    obtain ⟨record, present, same, _⟩ := selected row listed
    have below := (sound record present).id_lt
    rw [drawn row listed, ← same, System.draw]
    lia
  | select =>
    rw [handingOver_tokens] at member
    exact wider (older token ((claimedTasks_written _ _ _ _).subset member))
  | passFirst | handled | passSecond => exact wider (older token member)
  | _ => cases member

theorem Advance.replays (advance : Advance env state session next locks)
    (before : ∀ entryId jobId, session.replays = some (entryId, jobId) →
      ∃ record ∈ state.db.jobs, record.job.id = jobId ∧
        ∃ entry ∈ record.deadLetters, entry.id = entryId ∧ entry.replayedAt = none)
    {entryId jobId : Uuid} (replay : next.replays = some (entryId, jobId)) :
    ∃ record ∈ state.db.jobs, record.job.id = jobId ∧
      ∃ entry ∈ record.deadLetters, entry.id = entryId ∧ entry.replayedAt = none := by
  cases advance with
  | lockLetter member listed same opened =>
    cases Option.some.inj replay
    exact ⟨_, member, rfl, _, listed, same, opened⟩
  | lockReplayed => exact before entryId jobId replay
  | select =>
    rw [(handingOver_locks _ _).2.2.1] at replay
    cases replay
  | _ => cases replay

theorem Advance.targets (advance : Advance env state session next locks)
    (before : ∀ id ∈ session.targetIds, id < state.nextUuid ∧
      ∀ record ∈ state.db.jobs, record.job.id = id → record.job.status.parked = true)
    (sound : ∀ record ∈ state.db.jobs, record.Sound state.nextUuid)
    (distinct : (state.db.jobs.map fun record => record.job.id).Nodup)
    {id : Uuid} (member : id ∈ next.targetIds) : id < state.nextUuid ∧
      ∀ record ∈ state.db.jobs, record.job.id = id → record.job.status.parked = true := by
  cases advance with
  | tickRead _ targets =>
    rcases targets id member with old | ⟨record, present, rfl, parked⟩
    · exact before id old
    · refine ⟨(sound record present).id_lt, ?_⟩
      intro other there same
      rwa [unique_record distinct there present same]
  | tickWrite =>
    refine before id ?_
    rcases List.mem_append.mp member with waiting | pending
    · exact List.mem_append_left _ ((List.erase_sublist.map _).subset waiting)
    · exact List.mem_append_right _ pending
  | select =>
    rw [(handingOver_locks _ _).2.2.2.1] at member
    cases member
  | _ => cases member

/-- A statement leaves the database alone, so a stage expects what its last
statement read or what was expected before. -/
theorem Advance.expects (advance : Advance env state session next locks)
    (before : ∀ id ∈ session.rows,
      ∃ record ∈ state.db.jobs, record.job.id = id ∧ session.Expects record)
    (sound : ∀ record ∈ state.db.jobs, record.Sound state.nextUuid)
    (distinct : (state.db.jobs.map fun record => record.job.id).Nodup)
    {id : Uuid} (locked : id ∈ next.rows) :
    ∃ record ∈ state.db.jobs, record.job.id = id ∧ next.Expects record := by
  cases advance with
  | @claim _ _ _ _ rows selected _ rowIds =>
    obtain ⟨row, listed, rfl⟩ := List.mem_map.mp locked
    obtain ⟨record, present, same, queued, queue, attempts⟩ := selected row listed
    refine ⟨record, present, same, queued, queue, ?_⟩
    intro other there twin
    rw [List.inj_on_of_nodup_map rowIds there listed (twin.trans same), attempts]
  | select =>
    rw [(handingOver_locks _ _).2.1] at locked
    cases locked
  | passFirst member same token | passSecond member same token =>
    cases List.mem_singleton.mp locked
    exact ⟨_, member, same, token⟩
  | sweep orphan =>
    simp only [Session.rows, List.append_nil] at locked
    obtain ⟨record, present, same, inFlight, _⟩ := orphan id locked
    exact ⟨record, present, same, fun _ => inFlight⟩
  | @prune sweep _ removed unassigned _ referring =>
    rcases List.mem_append.mp locked with orphan | chosen
    · exact before id (List.mem_append_left _ orphan)
    · obtain ⟨record, present, same, _, other⟩ := (referring id).mp chosen
      exact ⟨record, present, same, fun orphan => absurd (same ▸ orphan) other⟩
  | tickRead writes =>
    simp only [Session.rows, writes] at locked
    simpa only [Session.Expects, writes] using before id locked
  | @tickWrite current target record chosen member same =>
    have known : ∀ other ∈ state.db.jobs, other.job.id ∈ current.writes.map RowWrite.jobId →
        ∀ write ∈ current.writes, write.jobId = other.job.id →
          other.job.status = write.found := by
      intro other there written
      obtain ⟨seen, present, twin, expected⟩ := before _ written
      rwa [unique_record distinct present there twin] at expected
    have fits : ∀ other ∈ state.db.jobs, other.job.id = id →
        (Session.tick { current with
          targets := current.targets.erase target
          writes := ⟨target.jobId, target.change, record.job.status⟩ ::
            current.writes }).Expects other := by
      intro other there named write listed written
      rcases List.mem_cons.mp listed with rfl | old
      · rw [unique_record distinct there member (written.symm.trans same.symm)]
      · refine known other there ?_ write old written
        rw [← written]
        exact List.mem_map.mpr ⟨write, old, rfl⟩
    rcases List.mem_cons.mp locked with rfl | old
    · exact ⟨record, member, same, fits record member same⟩
    · obtain ⟨other, there, named, _⟩ := before id old
      exact ⟨other, there, named, fits other there named⟩
  | lockCancel member same allowed | lockRetry member same allowed =>
    cases List.mem_singleton.mp locked
    exact ⟨_, member, same, allowed⟩
  | @supersede jobId record member same =>
    cases List.mem_singleton.mp locked
    obtain ⟨other, there, named, allowed⟩ := before _ (List.mem_singleton.mpr rfl)
    have identical := unique_record distinct there member (named.trans same.symm)
    subst identical
    refine ⟨other, there, named, allowed, ?_⟩
    intro entry listed
    simp only [JobRecord.openLetters, List.mem_map, List.mem_filter, decide_eq_true_eq]
    constructor
    · intro opened
      exact ⟨entry, ⟨listed, opened⟩, rfl⟩
    · rintro ⟨twin, ⟨present, opened⟩, sameId⟩
      rwa [List.inj_on_of_nodup_map (sound other there).letters present listed sameId] at opened
  | lockReplayed member same dead =>
    cases List.mem_singleton.mp locked
    exact ⟨_, member, same, dead⟩
  | _ => cases locked

/-- A statement inside a transaction keeps the invariant. -/
theorem Base.hold (base : Base state) {sid : Sid}
    (advance : Advance env state (state.sessions sid) next locks)
    (guards : Advance.Guards (state.sessions sid) next)
    (free : locks.any (state.waits sid) = false) : Base (state.hold sid next locks) := by
  replace free := Base.unblocked free
  have positive := base.positive
  have below : ∀ {id : Uuid}, id < state.nextUuid → id < 2 * state.nextUuid := fun h => by lia
  refine ⟨?_, base.compatible.acquire sid locks free, ?_, base.distinct, ?_, ?_, ?_, ?_, ?_, ?_,
    base.policies⟩
  · show 0 < 2 * state.nextUuid
    lia
  · refine System.update_sessions (fun other session => ∀ lock ∈ session.locks,
      Holds (acquire state.grants sid locks) other lock) ?_ ?_
    · intro lock member
      rcases advance.locks_granted lock member with held | asked
      · exact (base.granted sid lock held).acquire locks
      · exact holds_of_acquired asked
    · intro other _ lock member
      exact (base.granted other lock member).acquire locks
  · intro record member
    exact (base.sound record member).mono (by show state.nextUuid ≤ 2 * state.nextUuid; lia)
  · refine System.update_sessions (fun _ session => ∀ id ∈ session.rows,
      ∃ record ∈ state.db.jobs, record.job.id = id ∧ session.Expects record) ?_ ?_
    · intro id locked
      exact advance.expects (base.expects sid) base.sound base.distinct locked
    · exact fun other _ => base.expects other
  · refine System.update_sessions (fun _ session => ∀ entryId jobId,
      session.replays = some (entryId, jobId) → ∃ record ∈ state.db.jobs, record.job.id = jobId ∧
        ∃ entry ∈ record.deadLetters, entry.id = entryId ∧ entry.replayedAt = none) ?_ ?_
    · intro entryId jobId replay
      exact advance.replays (base.replays sid) replay
    · exact fun other _ => base.replays other
  · refine System.update_sessions (fun _ session => ∀ id ∈ session.targetIds,
      id < 2 * state.nextUuid ∧ ∀ record ∈ state.db.jobs, record.job.id = id →
        record.job.status.parked = true) ?_ ?_
    · intro id selected
      obtain ⟨small, parked⟩ := advance.targets (base.targets sid) base.sound base.distinct selected
      exact ⟨below small, parked⟩
    · intro other _ id selected
      obtain ⟨small, parked⟩ := base.targets other id selected
      exact ⟨below small, parked⟩
  · refine System.update_sessions (fun _ session => session.Armed) ?_ fun other _ => base.armed other
    exact advance.armed (base.armed sid) guards base.policies
      fun id selected => (base.targets sid id selected).2
  · refine System.update_sessions (fun _ session => ∀ token ∈ session.tokens,
      token < 2 * state.nextUuid) ?_ ?_
    · exact advance.tokens base.sound (base.tokens sid)
    · exact fun other _ token member => below (base.tokens other token member)

end Hold
end Pulse
