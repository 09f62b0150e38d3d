import Pulse.Safety.DeadLetters

/-! Deadlocks over the rows of `jobs` and `dead_letter_queue`. -/
namespace Pulse
open Library.RowLock Library.Lts

/-- A row of `jobs` or of `dead_letter_queue`. -/
def Key.ofJobs : Key → Bool
  | .job _ | .deadLetter _ => true
  | _ => false

/-- The row locks for which the session's next statement waits until it has them. SKIP
LOCKED never waits; the UPDATE of a tick visits any of its rows next. -/
def Session.wants (db : Db) : Session → List Lock
  | .execute task | .returned task _ _ _ =>
    if (loadForTransition db task.jobId task.token).isSome then [(.job task.jobId, .update)] else []
  | .tick current => current.targets.map fun target => (.job target.jobId, .noKeyUpdate)
  | .retrying jobId => (db.findJob jobId).toList.flatMap fun record =>
      record.openLetters.map fun entry => (.deadLetter entry.id, .noKeyUpdate)
  | .replaying _ jobId => [(.job jobId, .update)]
  | _ => []

/-- The row lock for which a request waits before it has any other. -/
def Request.wants : Request → List Lock
  | .cancelJob jobId | .retryJob jobId => [(.job jobId, .update)]
  | .replayDlqEntry entryId => [(.deadLetter entryId, .update)]
  | _ => []

/-- What every session waits for, where the idle ones have the given requests pending. -/
def System.wants (state : System) (pending : Sid → Option Request) (sid : Sid) : List Lock :=
  match state.sessions sid with
  | .idle => (pending sid).toList.flatMap Request.wants
  | session => session.wants state.db

def System.Deadlocked (state : System) : Prop :=
  ∃ pending, Library.RowLock.Deadlocked state.grants (state.wants pending)

/-- A retry gets the lock of its job while no replay holds the lock of one of the job's open
dead letters and is still to lock the job; a replay gets the lock of an entry while no
retry holds the lock of the entry's job and is still to supersede its open entries. -/
def LocksInOrder (state : System) : Action → Prop
  | .begin _ (.retryJob jobId) =>
    ∀ record ∈ state.db.jobs, record.job.id = jobId → record.job.status.retryable = true →
      ∀ entry ∈ record.openLetters, ∀ other owner,
        state.sessions other ≠ .replaying entry.id owner
  | .begin _ (.replayDlqEntry entryId) =>
    ∀ other jobId, state.sessions other = .retrying jobId → ∀ record ∈ state.db.jobs,
      record.job.id = jobId → ∀ entry ∈ record.openLetters, entry.id ≠ entryId
  | _ => True

/-- A lock which the session has got in its stage; a sweep waits for none, whatever it holds. -/
def Session.MayHold (session : Session) (lock : Lock) : Prop :=
  lock ∈ session.locks ∨ session.sweep?.isSome = true

/-- No replay which is still to lock its job holds the lock of a dead letter which a retry is
about to supersede. -/
def Apart (db : Db) (sessions : Sid → Session) : Prop :=
  ∀ sid jobId, sessions sid = .retrying jobId →
    ∃ record ∈ db.jobs, record.job.id = jobId ∧ ∀ entry ∈ record.openLetters,
      ∀ other owner, sessions other ≠ .replaying entry.id owner

structure Ordered (state : System) : Prop where
  shape : Shape state
  listed : ∀ grant ∈ state.grants, grant.key.ofJobs = true →
    (state.sessions grant.sid).MayHold (grant.key, grant.mode)
  apart : Apart state.db state.sessions

/-! Ranks. -/

/-- A session waits only for those of a smaller rank. -/
def Session.rank : Session → Nat
  | .idle | .execute _ | .returned _ _ _ _ => 4
  | .replaying _ _ => 3
  | .tick _ => 2
  | .retrying _ => 1
  | _ => 0

section Ranks
variable {state : System} {session : Session} {id : Uuid} {mode : Mode}

/-- Who holds the row of a job does not wait for one, unless it is a tick. -/
theorem Session.rank_of_job (held : session.MayHold (Key.job id, mode)) :
    session.rank ≤ 1 ∨ ∃ current, session = .tick current := by
  cases session with
  | tick current => exact .inr ⟨current, rfl⟩
  | claimWritten | starting | finishing | reaperSwept | reaperPruned | cancelling | retrying
  | superseded | replayingJob => exact .inl (by simp [Session.rank])
  | _ => simp [Session.MayHold, Session.locks, Session.sweep?] at held

theorem Session.rank_of_letter (held : session.MayHold (Key.deadLetter id, mode)) :
    session.rank = 0 ∨ ∃ owner, session = .replaying id owner := by
  cases session with
  | superseded | replayingJob | claimWritten | starting | finishing | reaperSwept | reaperPruned
  | cancelling => exact .inl rfl
  | replaying entryId owner =>
    simp only [Session.MayHold, Session.locks, Session.sweep?, List.mem_singleton, Prod.mk.injEq,
      Key.deadLetter.injEq, Option.isSome_none, Bool.false_eq_true, or_false] at held
    exact .inr ⟨owner, by rw [held.1]⟩
  | _ => simp [Session.MayHold, Session.locks, Session.sweep?] at held

/-- At most one session is a tick. -/
theorem Shape.one_tick (shape : Shape state) {sid other : Sid} {current rival : Tick}
    (left : state.sessions sid = .tick current) (right : state.sessions other = .tick rival) :
    sid = other := by
  have held := shape.granted sid (.schedulerLock, .update) (by simp [left, Session.locks])
  have taken := shape.granted other (.schedulerLock, .update) (by simp [right, Session.locks])
  exact shape.compatible.holder_unique held taken rfl

theorem Ordered.descends (ordered : Ordered state) {pending : Sid → Option Request}
    {sid other : Sid} (waits : WaitsFor state.grants (state.wants pending) sid other) :
    (state.sessions other).rank < (state.sessions sid).rank := by
  obtain ⟨different, lock, wanted, grant, granted, same, rfl, conflict⟩ := waits
  have listed := ordered.listed grant granted
  rw [same] at listed
  have job : ∀ {id mode}, lock = (.job id, mode) →
      (state.sessions grant.sid).rank ≤ 1 ∨ ∃ current, state.sessions grant.sid = .tick current := by
    rintro id mode rfl
    exact Session.rank_of_job (listed rfl)
  have letter : ∀ {id mode}, lock = (.deadLetter id, mode) →
      (state.sessions grant.sid).rank = 0 ∨ ∃ owner, state.sessions grant.sid = .replaying id owner := by
    rintro id mode rfl
    exact Session.rank_of_letter (listed rfl)
  have atMost : ∀ {id mode}, lock = (.job id, mode) → (state.sessions grant.sid).rank ≤ 2 := by
    intro id mode asked
    rcases job asked with low | ⟨current, ticking⟩
    · exact Nat.le_succ_of_le low
    · simp [ticking, Session.rank]
  cases stage : state.sessions sid with
  | idle =>
    simp only [System.wants, stage, List.mem_flatMap, Option.mem_toList] at wanted
    obtain ⟨request, _, wanted⟩ := wanted
    cases request with
    | cancelJob | retryJob =>
      exact Nat.lt_of_le_of_lt (atMost (List.mem_singleton.mp wanted)) (by decide)
    | replayDlqEntry =>
      rcases letter (List.mem_singleton.mp wanted) with low | ⟨owner, replaying⟩
      · rw [low]
        decide
      · simp [replaying, Session.rank]
    | _ => cases wanted
  | execute | returned =>
    simp only [System.wants, stage, Session.wants] at wanted
    split at wanted
    · exact Nat.lt_of_le_of_lt (atMost (List.mem_singleton.mp wanted)) (by simp [Session.rank])
    · cases wanted
  | tick current =>
    simp only [System.wants, stage, Session.wants, List.mem_map] at wanted
    obtain ⟨target, _, rfl⟩ := wanted
    rcases job rfl with low | ⟨rival, ticking⟩
    · exact Nat.lt_of_le_of_lt low (by simp [Session.rank])
    · exact absurd (ordered.shape.one_tick ticking stage) different
  | retrying jobId =>
    simp only [System.wants, stage, Session.wants, List.mem_flatMap, Option.mem_toList,
      List.mem_map] at wanted
    obtain ⟨found, chosen, entry, opened, rfl⟩ := wanted
    obtain ⟨record, member, named, free⟩ := ordered.apart sid jobId stage
    obtain ⟨present, id⟩ := Db.findJob_some chosen
    cases unique_record ordered.shape.distinct present member (id.trans named.symm)
    rcases letter rfl with low | ⟨owner, replaying⟩
    · rw [low]
      simp [Session.rank]
    · exact absurd replaying (free entry opened grant.sid owner)
  | replaying entryId jobId =>
    simp only [System.wants, stage, Session.wants] at wanted
    exact Nat.lt_of_le_of_lt (atMost (List.mem_singleton.mp wanted)) (by simp [Session.rank])
  | _ =>
    simp only [System.wants, stage, Session.wants] at wanted
    cases wanted

theorem Ordered.not_deadlocked (ordered : Ordered state) : ¬ state.Deadlocked := by
  rintro ⟨pending, deadlocked⟩
  exact Library.RowLock.not_deadlocked (fun sid => (state.sessions sid).rank)
    (fun _ _ => ordered.descends) deadlocked

end Ranks

/-! Steps. -/

section Steps
variable {env : Environment} {state after : System} {sid : Sid} {session next : Session}
  {locks : List Lock} {patch : Patch}

theorem Ticks.locks_kept {current tick : Tick} (ticks : Ticks env state current tick locks)
    {lock : Lock} (ofJobs : lock.1.ofJobs = true)
    (held : lock ∈ (Session.tick current).locks ∨ lock ∈ locks) :
    lock ∈ (Session.tick tick).locks := by
  cases ticks with
  | promoteCronJobs _ _ made =>
    cases made
    rcases held with old | cron
    · exact old
    · simp only [List.mem_append, List.mem_map] at cron
      rcases cron with ⟨pair, _, rfl⟩ | ⟨pair, _, rfl⟩ <;> cases ofJobs
  | selectUnlimited _ _ made | selectPending _ _ made | decideDependents _ _ made =>
    cases made
    simpa [Session.locks] using held
  | locked | selectRateLimited | skip => simpa [Session.locks] using held
  | write =>
    simp only [Session.locks, List.map_cons, List.mem_cons, List.not_mem_nil] at held ⊢
    tauto

/-- Every lock on these rows which a session has got is one of its stage. -/
theorem Advance.mayHold (advance : Advance env state session next locks)
    (ticks : ∀ current, session = .tick current →
      ∃ tick, next = .tick tick ∧ Ticks env state current tick locks) {lock : Lock}
    (ofJobs : lock.1.ofJobs = true) (held : session.MayHold lock ∨ lock ∈ locks) :
    next.MayHold lock := by
  cases advance with
  | select | handled | loadWorker => simp [Session.MayHold, Session.locks, Session.sweep?] at held
  | tickRead | tickWrite =>
    obtain ⟨tick, same, ticks⟩ := ticks _ rfl
    rw [same]
    refine .inl (ticks.locks_kept ofJobs ?_)
    simpa [Session.MayHold, Session.sweep?] using held
  | sweep | prune => exact .inr rfl
  | _ =>
    left
    simpa [Session.MayHold, Session.locks, Session.sweep?] using held

/-- The locks which are released were of the session which ends its transaction. -/
theorem Ordered.listed_release (ordered : Ordered state) {sessions : Sid → Session}
    (others : ∀ other, other ≠ sid → sessions other = state.sessions other) :
    ∀ grant ∈ release state.grants sid, grant.key.ofJobs = true →
      (sessions grant.sid).MayHold (grant.key, grant.mode) := by
  intro grant member ofJobs
  obtain ⟨held, different⟩ := List.mem_filter.mp member
  rw [others grant.sid (by simpa using different)]
  exact ordered.listed grant held ofJobs

theorem Ordered.listed_hold (ordered : Ordered state)
    (advance : Advance env state (state.sessions sid) next locks)
    (ticks : ∀ current, state.sessions sid = .tick current →
      ∃ tick, next = .tick tick ∧ Ticks env state current tick locks) :
    ∀ grant ∈ (state.hold sid next locks).grants, grant.key.ofJobs = true →
      ((state.hold sid next locks).sessions grant.sid).MayHold (grant.key, grant.mode) := by
  intro grant member ofJobs
  rw [System.hold_sessions]
  rcases List.mem_append.mp member with asked | held
  · obtain ⟨lock, listed, rfl⟩ := List.mem_map.mp asked
    rw [Function.update_self]
    exact advance.mayHold ticks ofJobs (.inr listed)
  · by_cases own : grant.sid = sid
    · subst own
      rw [Function.update_self]
      exact advance.mayHold ticks ofJobs (.inl (ordered.listed grant held ofJobs))
    · rw [Function.update_of_ne own]
      exact ordered.listed grant held ofJobs

/-- Where the retries and replays at work were so before, and the retried jobs are kept. -/
theorem Apart.relax {db later : Db} {before now : Sid → Session} (apart : Apart db before)
    (kept : ∀ sid jobId, before sid = .retrying jobId → ∀ record ∈ db.jobs,
      record.job.id = jobId → record ∈ later.jobs)
    (fewer : ∀ sid, now sid = before sid ∨
      (∀ jobId, now sid ≠ .retrying jobId) ∧ ∀ entryId owner, now sid ≠ .replaying entryId owner) :
    Apart later now := by
  intro sid jobId retrying
  rcases fewer sid with same | ⟨other, _⟩
  · rw [same] at retrying
    obtain ⟨record, member, named, free⟩ := apart sid jobId retrying
    refine ⟨record, kept sid jobId retrying record member named, named, ?_⟩
    intro entry opened rival owner replaying
    rcases fewer rival with same | ⟨_, other⟩
    · exact free entry opened rival owner (same ▸ replaying)
    · exact other entry.id owner replaying
  · exact absurd retrying (other jobId)

/-- A retry has locked its job. -/
theorem Apart.retry (apart : Apart state.db state.sessions) {jobId : Uuid} {record : JobRecord}
    (member : record ∈ state.db.jobs) (named : record.job.id = jobId)
    (free : ∀ entry ∈ record.openLetters, ∀ other owner,
      state.sessions other ≠ .replaying entry.id owner) :
    Apart state.db (Function.update state.sessions sid (.retrying jobId)) := by
  have others : ∀ {other entryId owner},
      Function.update state.sessions sid (.retrying jobId) other = .replaying entryId owner →
        state.sessions other = .replaying entryId owner := by
    intro other entryId owner replaying
    by_cases same : other = sid
    · subst same
      rw [Function.update_self] at replaying
      cases replaying
    · rwa [Function.update_of_ne same] at replaying
  intro other otherId retrying
  by_cases same : other = sid
  · subst same
    rw [Function.update_self] at retrying
    cases retrying
    exact ⟨record, member, named, fun entry opened rival owner replaying =>
      free entry opened rival owner (others replaying)⟩
  · rw [Function.update_of_ne same] at retrying
    obtain ⟨record, member, named, free⟩ := apart other otherId retrying
    exact ⟨record, member, named, fun entry opened rival owner replaying =>
      free entry opened rival owner (others replaying)⟩

/-- A replay has locked its entry. -/
theorem Apart.replay (apart : Apart state.db state.sessions) {entryId owner : Uuid}
    (free : ∀ other jobId, state.sessions other = .retrying jobId → ∀ record ∈ state.db.jobs,
      record.job.id = jobId → ∀ entry ∈ record.openLetters, entry.id ≠ entryId) :
    Apart state.db (Function.update state.sessions sid (.replaying entryId owner)) := by
  intro other jobId retrying
  by_cases same : other = sid
  · subst same
    rw [Function.update_self] at retrying
    cases retrying
  · rw [Function.update_of_ne same] at retrying
    obtain ⟨record, member, named, apart⟩ := apart other jobId retrying
    refine ⟨record, member, named, ?_⟩
    intro entry opened rival holder replaying
    by_cases own : rival = sid
    · subst own
      rw [Function.update_self] at replaying
      cases replaying
      exact free other jobId retrying record member named entry opened rfl
    · rw [Function.update_of_ne own] at replaying
      exact apart entry opened rival holder replaying

/-- No statement inside a transaction leads to a retry or a replay. -/
theorem Advance.goes_on (advance : Advance env state session next locks)
    (begun : session ≠ .idle) : (∀ jobId, next ≠ .retrying jobId) ∧
      ∀ entryId owner, next ≠ .replaying entryId owner := by
  cases advance with
  | lockRetry | lockLetter => exact absurd rfl begun
  | select =>
    unfold handingOver
    split <;> exact ⟨nofun, nofun⟩
  | _ => exact ⟨nofun, nofun⟩

theorem Apart.begin (apart : Apart state.db state.sessions) {request : Request}
    (inOrder : LocksInOrder state (.begin sid request))
    (made : request.effect env state sid = some (.hold next locks)) :
    Apart state.db (Function.update state.sessions sid next) := by
  obtain ⟨retried, replayed, _⟩ := Request.begins made
  by_cases retry : ∃ jobId, next = .retrying jobId
  · obtain ⟨jobId, rfl⟩ := retry
    cases retried jobId rfl
    obtain ⟨_, _, record, member, named, retryable⟩ := lockJob_hold made
    exact apart.retry member named (inOrder record member named retryable)
  · by_cases replay : ∃ entryId owner, next = .replaying entryId owner
    · obtain ⟨entryId, owner, rfl⟩ := replay
      cases replayed entryId owner rfl
      exact apart.replay inOrder
    · push Not at retry replay
      refine apart.relax (fun _ _ _ record member _ => member) fun other => ?_
      by_cases same : other = sid
      · subst same
        rw [Function.update_self]
        exact .inr ⟨retry, replay⟩
      · exact .inl (Function.update_of_ne same ..)

/-- The stages after a commit or a rollback are neither. -/
theorem Apart.ends (apart : Apart state.db state.sessions) {later : Db}
    (kept : ∀ other, other ≠ sid → ∀ jobId, state.sessions other = .retrying jobId →
      ∀ record ∈ state.db.jobs, record.job.id = jobId → record ∈ later.jobs)
    (same : ∀ record ∈ state.db.jobs, ∀ jobId, state.sessions sid = .retrying jobId →
      record ∈ later.jobs) (quiet : next.locks = []) :
    Apart later (Function.update state.sessions sid next) := by
  refine apart.relax ?_ fun other => ?_
  · intro other jobId retrying record member named
    by_cases own : other = sid
    · subst own
      exact same record member jobId retrying
    · exact kept other own jobId retrying record member named
  · by_cases own : other = sid
    · subst own
      rw [Function.update_self]
      refine .inr ⟨?_, ?_⟩
      · rintro jobId rfl
        cases quiet
      · rintro entryId owner rfl
        cases quiet
    · exact .inl (Function.update_of_ne own ..)

theorem Ordered.commit (ordered : Ordered state) (publishes : Publishes env state sid next patch)
    (kept : ∀ other, other ≠ sid → ∀ record ∈ state.db.jobs,
      record.job.id ∈ (state.sessions other).rows → record ∈ (state.db.apply patch).jobs)
    (other : ∀ jobId, state.sessions sid ≠ .retrying jobId) :
    Ordered (state.commit sid next patch) := by
  refine ⟨ordered.shape.commit publishes,
    ordered.listed_release fun _ different => Function.update_of_ne different .., ?_⟩
  refine ordered.apart.ends ?_ (fun _ _ jobId retrying => absurd retrying (other jobId))
    publishes.quiet
  intro rival different jobId retrying record member named
  refine kept rival different record member ?_
  rw [retrying, named]
  exact List.mem_singleton_self _

theorem Ordered.rollback (ordered : Ordered state) (sid : Sid) : Ordered (state.rollback sid) := by
  refine ⟨ordered.shape.rollback sid,
    ordered.listed_release fun _ different => Function.update_of_ne different .., ?_⟩
  exact ordered.apart.ends (fun _ _ _ _ _ member _ => member) (fun _ member _ _ => member) rfl

theorem Ordered.submit (ordered : Ordered state) {newSid : Sid} {workerId : Uuid} {task : Task}
    {rest : List Task} (handing : state.sessions sid = .handing workerId (task :: rest))
    (idle : state.sessions newSid = .idle) :
    Ordered (state.handed sid newSid workerId task rest) := by
  refine ⟨ordered.shape.submit .., ?_, ?_⟩
  · intro grant member ofJobs
    have held := ordered.listed grant member ofJobs
    have first : grant.sid ≠ sid := by
      intro same
      rw [same, handing] at held
      simp [Session.MayHold, Session.locks, Session.sweep?] at held
    have second : grant.sid ≠ newSid := by
      intro same
      rw [same, idle] at held
      simp [Session.MayHold, Session.locks, Session.sweep?] at held
    rwa [System.handed_sessions, Function.update_of_ne second, Function.update_of_ne first]
  · refine ordered.apart.relax (fun _ _ _ _ member _ => member) ?_
    refine System.handed_forall (fun other session => session = state.sessions other ∨
      (∀ jobId, session ≠ .retrying jobId) ∧ ∀ entryId owner, session ≠ .replaying entryId owner)
      (.inr (by simp)) (.inr ?_) fun _ _ => .inl rfl
    unfold handingOver
    split <;> simp

theorem Ordered.step (ordered : Ordered state) {action : Action}
    (inOrder : LocksInOrder state action)
    (taken : Pulse.step env state action = some after) : Ordered after := by
  have shape := ordered.shape
  cases step_inverted taken with
  | @begin sid request effect _ idle made performed =>
    cases effect with
    | hold next locks =>
      obtain ⟨free, rfl⟩ := System.perform_hold performed
      have advance := idle ▸ Request.effect_advance made
      refine ⟨shape.hold advance free, ordered.listed_hold advance ?_,
        ordered.apart.begin inOrder made⟩
      intro current running
      rw [idle] at running
      cases running
    | commit next locks patch =>
      obtain ⟨free, rfl⟩ := System.perform_commit performed
      refine ordered.commit (Request.effect_publishes idle made free) ?_ (by simp [idle])
      obtain ⟨now, call, _, _, answers⟩ := Request.effect_closes made
      intro other different record member locked
      obtain ⟨same, stays⟩ := answers.frame shape free different member locked
      exact mem_apply_jobs.mpr (.inl ⟨record, member, stays, same⟩)
    | rollback =>
      cases Option.some.inj performed
      exact ordered.rollback sid
  | @next sid input effect _ running made performed =>
    cases effect with
    | hold next locks =>
      obtain ⟨free, rfl⟩ := System.perform_hold performed
      have advance := Session.effect_advance shape.distinct made
      refine ⟨shape.hold advance free, ordered.listed_hold advance ?_, ?_⟩
      · intro current ticking
        rw [ticking] at made
        exact tickEffect_ticks made
      · have begun : state.sessions sid ≠ .idle := by
          intro idle
          rw [idle] at made
          cases made
        refine ordered.apart.relax (fun _ _ _ _ member _ => member) fun other => ?_
        by_cases same : other = sid
        · subst same
          rw [System.hold_sessions, Function.update_self]
          exact .inr (advance.goes_on begun)
        · exact .inl (Function.update_of_ne same ..)
    | commit next locks patch =>
      obtain ⟨_, rfl⟩ := System.perform_commit performed
      have closes := Session.effect_closes made
      refine ordered.commit (Session.effect_publishes made) ?_ ?_
      · intro other different record member locked
        exact closes.untouched shape different member locked
      · intro jobId retrying
        rw [retrying] at closes
        cases closes with
        | sweep running => rcases running with same | same <;> cases same
        | requeue running => rcases running with same | ⟨_, _, same⟩ <;> cases same
    | rollback =>
      cases Option.some.inj performed
      exact ordered.rollback sid
  | fail => exact ordered.rollback _
  | submit handing idle => exact ordered.submit handing idle
  | exit => exact ⟨shape.step taken, ordered.listed, ordered.apart⟩
  | reregister => exact ⟨shape.step taken, ordered.listed, ordered.apart⟩

theorem initial_ordered : Ordered {} where
  shape := initial_shape
  listed := fun _ member => nomatch member
  apart := fun _ _ retrying => nomatch retrying

/-- In a run in which a retry and a replay of one job never stand between each other's
locks, no transactions wait for each other in a cycle. -/
theorem deadlock_free (reachable : (pulse env).Reachable LocksInOrder state) :
    ¬ state.Deadlocked := by
  have ordered : Ordered state :=
    reachable.invariant (fun _ initial => initial ▸ initial_ordered)
      fun _ _ _ ordered inOrder taken => ordered.step inOrder taken
  exact ordered.not_deadlocked

/-- Two transactions between each other's locks are deadlocked. -/
theorem deadlocked_between (shape : Shape state) {first second : Sid} {jobId entryId : Uuid}
    (retrying : state.sessions first = .retrying jobId)
    (replaying : state.sessions second = .replaying entryId jobId) {record : JobRecord}
    (found : state.db.findJob jobId = some record)
    (opened : entryId ∈ record.openLetters.map DeadLetterEntry.id) : state.Deadlocked := by
  have different : second ≠ first := by
    rintro rfl
    rw [retrying] at replaying
    cases replaying
  have job := shape.granted first (.job jobId, .update) (by simp [retrying, Session.locks])
  have letter := shape.granted second (.deadLetter entryId, .update)
    (by simp [replaying, Session.locks])
  obtain ⟨entry, listed, rfl⟩ := List.mem_map.mp opened
  refine ⟨fun _ => none, first, .tail (b := second) (.single ⟨different, ?_⟩) ⟨different.symm, ?_⟩⟩
  · refine ⟨(.deadLetter entry.id, .noKeyUpdate), ?_, _, letter, rfl, rfl, rfl⟩
    simp only [System.wants, retrying, Session.wants, found, Option.toList_some,
      List.flatMap_cons, List.flatMap_nil, List.append_nil]
    exact List.mem_map.mpr ⟨entry, listed, rfl⟩
  · refine ⟨(.job jobId, .update), ?_, _, job, rfl, rfl, rfl⟩
    simp [System.wants, replaying, Session.wants]

end Steps

/-- A retry or a replay which has locked one of the two rows. -/
def Session.betweenLocks : Session → Bool
  | .retrying _ | .replaying _ _ => true
  | _ => false

/-- The steps of the listed sessions, one retry or replay at a time. -/
def InOrderAmong (sids : List Sid) (state : System) (action : Action) : Prop :=
  Within sids state action ∧ match action with
    | .begin _ (.retryJob _) | .begin _ (.replayDlqEntry _) =>
      ∀ other ∈ sids, (state.sessions other).betweenLocks = false
    | _ => True

instance (sids : List Sid) (state : System) (action : Action) :
    Decidable (InOrderAmong sids state action) :=
  decidable_of_iff (Within sids state action ∧ ((match action with
    | .begin _ (.retryJob _) | .begin _ (.replayDlqEntry _) => true
    | _ => false) = true → ∀ other ∈ sids, (state.sessions other).betweenLocks = false)) (by
    unfold InOrderAmong
    split <;> simp_all)

theorem in_order_of_among {env : Environment} {sids : List Sid} {state : System}
    (reachable : (pulse env).Reachable (InOrderAmong sids) state) :
    (pulse env).Reachable LocksInOrder state := by
  refine reachable_of_within (fun _ _ => And.left) ?_ reachable
  intro earlier action idle among
  have none : (∀ other ∈ sids, (earlier.sessions other).betweenLocks = false) →
      ∀ other, (earlier.sessions other).betweenLocks = false := by
    intro inside other
    by_cases listed : other ∈ sids
    · exact inside other listed
    · rw [idle other listed]
      rfl
  unfold LocksInOrder
  split
  · rename_i sid jobId
    intro _ _ _ _ entry _ other owner replaying
    have outside := none among.2 other
    rw [replaying] at outside
    cases outside
  · rename_i sid entryId
    intro other jobId retrying
    have outside := none among.2 other
    rw [retrying] at outside
    cases outside
  · trivial

/-- A dead job, with one open dead letter. -/
def died : List Action := diedTwice.take 14

/-- A retry has superseded the dead letter when its replay begins to wait for the entry. -/
theorem deadlock_free_waiting : ∃ state, (pulse (sample .reread)).Reachable LocksInOrder state ∧
    WaitsFor state.grants (state.wants fun _ => some (.replayDlqEntry 4360)) 6 5 ∧
    ¬ state.Deadlocked := by
  have ran : ((pulse (sample .reread)).run (InOrderAmong [0, 1, 5, 10]) {} (died ++ [
      .begin 5 (.retryJob 8),
      .next 5 {}])).any (fun state => state.sessions 6 = .idle &&
        ⟨.deadLetter 4360, .noKeyUpdate, 5⟩ ∈ state.grants) = true := by
    decide +kernel
  obtain ⟨state, among, passes⟩ := Machine.reachable_of_check rfl _ ran
  simp only [Bool.and_eq_true, decide_eq_true_eq] at passes
  obtain ⟨idle, held⟩ := passes
  have reachable := in_order_of_among among
  refine ⟨state, reachable, ⟨by decide, ?_⟩, deadlock_free reachable⟩
  refine ⟨(.deadLetter 4360, .update), ?_, _, held, rfl, rfl, rfl⟩
  simp [System.wants, idle, Request.wants]

/-- A retry locks the job, a replay locks the entry, and each wants what the other has. -/
theorem retry_replay_deadlock : ∃ state, (pulse (sample .reread)).Reachable anyStep state ∧
    state.Deadlocked := by
  have ran : ((pulse (sample .reread)).run anyStep {} (died ++ [
      .begin 5 (.retryJob 8),
      .begin 6 (.replayDlqEntry 4360)])).any (fun state =>
        state.sessions 5 = .retrying 8 && state.sessions 6 = .replaying 4360 8 &&
        (state.db.findJob 8).any fun record =>
          4360 ∈ record.openLetters.map DeadLetterEntry.id) = true := by
    decide +kernel
  obtain ⟨state, reachable, passes⟩ := Machine.reachable_of_check rfl _ ran
  simp only [Bool.and_eq_true, Option.any_eq_true, decide_eq_true_eq] at passes
  obtain ⟨⟨retrying, replaying⟩, record, found, opened⟩ := passes
  exact ⟨state, reachable,
    deadlocked_between (Shape.reachable reachable) retrying replaying found opened⟩

end Pulse
