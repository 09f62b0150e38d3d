import Pulse.System.Fenced

/-! Fencing: a worker passes `load_for_transition` only while the job carries the
token of its own claim, provided each re-read of `claim_jobs` still found that
token. -/
namespace Pulse
open Library.RowLock Library.Lts

/-- At the re-read of `claim_jobs`, every claimed row still carries the token which
that claim wrote. -/
def RereadsOwn (state : System) : Action → Prop
  | .next sid _ => match state.sessions sid with
    | .claimCommitted _ rows => ∀ row ∈ rows, ∀ record ∈ state.db.jobs,
      record.job.id = row.jobId → record.job.lockToken = some row.token
    | _ => True
  | _ => True

instance (state : System) : (action : Action) → Decidable (RereadsOwn state action)
  | .next sid _ => decidable_of_iff (∀ claim ∈ (state.sessions sid).rereading,
      ∀ row ∈ claim.2, ∀ record ∈ state.db.jobs,
        record.job.id = row.jobId → record.job.lockToken = some row.token) (by
    cases stage : state.sessions sid <;> simp [RereadsOwn, stage, Session.rereading])
  | .begin .. | .fail .. | .submit .. | .exit .. | .reregister .. => isTrue trivial

/-- The `_execute` run of a session. -/
def Session.task? : Session → Option Task
  | .execute task | .starting task | .handling task _ | .returned task _ _ _
  | .finishing task _ _ _ => some task
  | _ => none

/-- Whenever an `_execute` passes `load_for_transition`, its job carries the token
written by the claim which led to it and is claimed, or running the second time. -/
def GuardsOwnClaim (env : Environment) (state : System) : Prop :=
  ∀ sid input after task, step env state (.next sid input) = some after →
    (state.sessions sid = .execute task → after.sessions sid = .starting task →
      ∃ record ∈ state.db.jobs, record.job.id = task.jobId ∧
        record.job.lockToken = some task.written ∧ record.job.status = .claimed) ∧
    ∀ executionId durationMs outcome,
      state.sessions sid = .returned task executionId durationMs outcome →
      after.sessions sid = .finishing task executionId durationMs outcome →
      ∃ record ∈ state.db.jobs, record.job.id = task.jobId ∧
        record.job.lockToken = some task.written ∧ record.job.status = .running

/-- The claim which led to the task is over: no job carries its token. -/
def Reaped (state : System) (task : Task) : Prop :=
  ∀ record ∈ state.db.jobs, record.job.lockToken ≠ some task.written

/-- From the moment its claim is over, no step of a task's session changes a row of
`jobs`, `job_executions` or `dead_letter_queue`. -/
def ReapedChangesNothing (env : Environment) (state : System) : Prop :=
  ∀ sid task, (state.sessions sid).task? = some task → Reaped state task →
    ∀ later, (pulse env).Path RereadsOwn state later →
      ∀ runner own input after, (later.sessions runner).task? = some own →
        own.written = task.written → step env later (.next runner input) = some after →
        after.db.jobs = later.db.jobs

/-! Each guard is passed once under each claim. -/

/-- The claims which have not passed the first guard. -/
def Session.unpassed : Session → List Uuid
  | .claimWritten _ _ _ rows | .claimCommitted _ rows => rows.map ClaimedRow.token
  | .handing _ tasks => tasks.map Task.written
  | .execute task => [task.written]
  | _ => []

/-- The claims which have not passed the second guard. -/
def Session.unfinished : Session → List Uuid
  | .finishing _ _ _ _ => []
  | session => session.tokens

/-- Claims logged once each, and none of them among those still pending. -/
structure Logged (log : List Uuid) (pending : Session → List Uuid) (state : System) : Prop where
  once : log.Nodup
  older : ∀ token ∈ log, token < state.nextUuid
  apart : ∀ sid, ∀ token ∈ pending (state.sessions sid), token ∉ log

section Logs
variable {env : Environment} {state after : System} {sid : Sid}

theorem handingOver_unpassed (workerId : Uuid) (tasks : List Task) :
    (handingOver workerId tasks).unpassed = tasks.map Task.written := by
  unfold handingOver
  split
  · rename_i empty
    rw [empty]
    rfl
  · rfl

theorem handingOver_unfinished (workerId : Uuid) (tasks : List Task) :
    (handingOver workerId tasks).unfinished = tasks.map Task.written := by
  unfold handingOver
  split
  · rename_i empty
    rw [empty]
    rfl
  · rfl

theorem Session.unpassed_tokens (session : Session) : session.unpassed ⊆ session.tokens := by
  cases session with
  | claimWritten | claimCommitted | handing | execute => exact List.Subset.refl _
  | _ => exact List.nil_subset _

theorem Session.unfinished_tokens (session : Session) :
    session.unfinished ⊆ session.tokens := by
  cases session with
  | finishing => exact List.nil_subset _
  | _ => exact List.Subset.refl _

/-- One statement marks at most one claim, which was pending and is so no more. -/
structure Marks (state : System) (session next : Session) (pending : Session → List Uuid)
    (marks : List Uuid) : Prop where
  single : marks.length ≤ 1
  marked : ∀ token ∈ marks, token ∈ pending session ∧ token ∉ pending next
  origin : ∀ token ∈ pending next, token ∈ pending session ∨ state.nextUuid ≤ token

theorem Advance.unpassed {session next : Session} {locks : List Lock}
    (advance : Advance env state session next locks) :
    Marks state session next Session.unpassed next.passes := by
  cases advance with
  | claim _ drawn =>
    refine ⟨Nat.zero_le _, fun _ member => (nomatch member), ?_⟩
    intro token member
    obtain ⟨row, listed, rfl⟩ := List.mem_map.mp member
    rw [drawn row listed]
    exact .inr (Nat.le_add_right ..)
  | @select workerId rows =>
    have silent : (handingOver workerId
        (claimedTasks env.handover state.db workerId rows)).passes = [] := by
      unfold handingOver
      split <;> rfl
    rw [silent]
    refine ⟨Nat.zero_le _, fun _ member => (nomatch member), ?_⟩
    intro token member
    rw [handingOver_unpassed] at member
    exact .inl ((claimedTasks_written _ _ _ _).subset member)
  | passFirst =>
    exact ⟨Nat.le_refl _, fun token member => ⟨member, fun still => (nomatch still)⟩,
      fun _ member => nomatch member⟩
  | _ => exact ⟨Nat.zero_le _, fun _ member => (nomatch member), fun _ member => nomatch member⟩

theorem Advance.unfinished {session next : Session} {locks : List Lock}
    (advance : Advance env state session next locks) :
    Marks state session next Session.unfinished next.finishes := by
  cases advance with
  | claim _ drawn =>
    refine ⟨Nat.zero_le _, fun _ member => (nomatch member), ?_⟩
    intro token member
    obtain ⟨row, listed, rfl⟩ := List.mem_map.mp member
    rw [drawn row listed]
    exact .inr (Nat.le_add_right ..)
  | @select workerId rows =>
    have silent : (handingOver workerId
        (claimedTasks env.handover state.db workerId rows)).finishes = [] := by
      unfold handingOver
      split <;> rfl
    rw [silent]
    refine ⟨Nat.zero_le _, fun _ member => (nomatch member), ?_⟩
    intro token member
    rw [handingOver_unfinished] at member
    exact .inl ((claimedTasks_written _ _ _ _).subset member)
  | passFirst | handled =>
    exact ⟨Nat.zero_le _, fun _ member => (nomatch member), fun token member => .inl member⟩
  | passSecond =>
    exact ⟨Nat.le_refl _, fun token member => ⟨member, fun still => (nomatch still)⟩,
      fun _ member => nomatch member⟩
  | _ => exact ⟨Nat.zero_le _, fun _ member => (nomatch member), fun _ member => nomatch member⟩

theorem Leaves.unpassed {session next : Session} (leaves : Leaves state session next) :
    next.unpassed ⊆ session.unpassed := by
  cases leaves with
  | claimed => exact List.Subset.refl _
  | _ => exact List.nil_subset _

theorem Leaves.unfinished {session next : Session} (leaves : Leaves state session next) :
    next.unfinished ⊆ session.unfinished := by
  cases leaves with
  | done => exact List.nil_subset _
  | _ => exact List.Subset.refl _

variable {log : List Uuid} {pending : Session → List Uuid}

theorem Logged.hold (logged : Logged log pending state) (fenced : Fenced state)
    (within : ∀ session, pending session ⊆ session.tokens) {next : Session} {marks : List Uuid}
    (step : Marks state (state.sessions sid) next pending marks) {sessions : Sid → Session}
    (current : sessions sid = next)
    (others : ∀ other, other ≠ sid → sessions other = state.sessions other)
    (moved : after.sessions = sessions) (grows : state.nextUuid ≤ after.nextUuid) :
    Logged (marks ++ log) pending after := by
  refine ⟨?_, ?_, ?_⟩
  · refine List.nodup_append.mpr ⟨?_, logged.once, ?_⟩
    · cases marks with
      | nil => exact List.nodup_nil
      | cons mark rest =>
        have single := step.single
        simp only [List.length_cons] at single
        have empty : rest = [] := List.eq_nil_of_length_eq_zero (by omega)
        simp [empty]
    · rintro token marked _ present rfl
      exact logged.apart sid token (step.marked token marked).1 present
  · intro token member
    rcases List.mem_append.mp member with marked | present
    · have owned := within _ (step.marked token marked).1
      exact Nat.lt_of_lt_of_le (fenced.base.tokens sid token owned) grows
    · exact Nat.lt_of_lt_of_le (logged.older token present) grows
  · intro other token member listed
    rw [moved] at member
    by_cases same : other = sid
    · rw [same, current] at member
      rcases List.mem_append.mp listed with marked | present
      · exact (step.marked token marked).2 member
      · rcases step.origin token member with old | fresh
        · exact logged.apart sid token old present
        · exact absurd (logged.older token present) (Nat.not_lt.mpr fresh)
    · rw [others other same] at member
      rcases List.mem_append.mp listed with marked | present
      · have owned := within _ (step.marked token marked).1
        exact same (fenced.separate other sid token (within _ member) owned)
      · exact logged.apart other token member present

/-- Steps after which the same claims are pending, or fewer. -/
theorem Logged.relax (logged : Logged log pending state) (grows : state.nextUuid ≤ after.nextUuid)
    (fewer : ∀ sid, ∀ token ∈ pending (after.sessions sid),
      ∃ owner, token ∈ pending (state.sessions owner)) : Logged log pending after where
  once := logged.once
  older := fun token member => Nat.lt_of_lt_of_le (logged.older token member) grows
  apart := fun sid token member listed => by
    obtain ⟨owner, held⟩ := fewer sid token member
    exact logged.apart owner token held listed

end Logs

/-- Each guard has been passed at most once under each claim. -/
def GuardsOnce (state : System) : Prop :=
  Logged state.passed Session.unpassed state ∧ Logged state.finished Session.unfinished state

section Steps
variable {env : Environment} {state after : System} {sid : Sid}

theorem pending_update {pending : Session → List Uuid} {next : Session} {sid : Sid}
    (shrinks : pending next ⊆ pending (state.sessions sid)) :
    ∀ other, ∀ token ∈ pending (Function.update state.sessions sid next other),
      ∃ owner, token ∈ pending (state.sessions owner) := by
  refine System.update_sessions (fun _ session => ∀ token ∈ pending session,
    ∃ owner, token ∈ pending (state.sessions owner)) ?_ ?_
  · exact fun token member => ⟨sid, shrinks member⟩
  · exact fun other _ token member => ⟨other, member⟩

theorem GuardsOnce.performs (once : GuardsOnce state) (fenced : Fenced state)
    (performs : Performs env state sid after) : GuardsOnce after := by
  cases performs with
  | @hold next locks advance =>
    have grows : state.nextUuid ≤ 2 * state.nextUuid := by lia
    exact ⟨once.1.hold fenced Session.unpassed_tokens advance.unpassed
        (Function.update_self sid next state.sessions)
        (fun _ different => Function.update_of_ne different ..) rfl grows,
      once.2.hold fenced Session.unfinished_tokens advance.unfinished
        (Function.update_self sid next state.sessions)
        (fun _ different => Function.update_of_ne different ..) rfl grows⟩
  | @commit next patch commits =>
    have grows : state.nextUuid ≤ 2 * state.nextUuid + patch.newJobs.length := by lia
    exact ⟨once.1.relax grows (pending_update commits.leaves.unpassed),
      once.2.relax grows (pending_update commits.leaves.unfinished)⟩
  | rollback =>
    exact ⟨once.1.relax (Nat.le_refl _) (pending_update (List.nil_subset _)),
      once.2.relax (Nat.le_refl _) (pending_update (List.nil_subset _))⟩

theorem GuardsOnce.submit (once : GuardsOnce state) {newSid : Sid} {workerId : Uuid} {task : Task}
    {rest : List Task} (handing : state.sessions sid = .handing workerId (task :: rest)) :
    GuardsOnce (state.handed sid newSid workerId task rest) := by
  have moved : ∀ {pending : Session → List Uuid},
      pending (.execute task) = [task.written] →
      pending (handingOver workerId rest) = rest.map Task.written →
      pending (.handing workerId (task :: rest)) = (task :: rest).map Task.written →
      ∀ other, ∀ token ∈ pending ((state.handed sid newSid workerId task rest).sessions other),
        ∃ owner, token ∈ pending (state.sessions owner) := by
    intro pending new old before
    refine System.handed_forall (fun _ session => ∀ token ∈ pending session,
      ∃ owner, token ∈ pending (state.sessions owner)) ?_ ?_ ?_
    · intro token member
      rw [new] at member
      refine ⟨sid, ?_⟩
      rw [handing, before, List.mem_singleton.mp member]
      exact List.mem_cons_self
    · intro token member
      rw [old] at member
      refine ⟨sid, ?_⟩
      rw [handing, before]
      exact List.mem_cons_of_mem _ member
    · intro other _ token member
      exact ⟨other, member⟩
  exact ⟨once.1.relax (Nat.le_refl _) (moved rfl (handingOver_unpassed ..) rfl),
    once.2.relax (Nat.le_refl _) (moved rfl (handingOver_unfinished ..) rfl)⟩

theorem GuardsOnce.step (once : GuardsOnce state) (fenced : Fenced state) {action : Action}
    (taken : Pulse.step env state action = some after) : GuardsOnce after := by
  cases step_cases fenced.base (fenced.guards action) taken with
  | begin _ performs | next _ performs => exact once.performs fenced performs
  | fail => exact once.performs fenced (.rollback : Performs env state _ _)
  | submit handing => exact once.submit handing
  | exit =>
    exact ⟨once.1.relax (Nat.le_refl _) fun sid token member => ⟨sid, member⟩,
      once.2.relax (Nat.le_refl _) fun sid token member => ⟨sid, member⟩⟩
  | reregister =>
    have grows : state.nextUuid ≤ 2 * state.nextUuid := by lia
    exact ⟨once.1.relax grows fun sid token member => ⟨sid, member⟩,
      once.2.relax grows fun sid token member => ⟨sid, member⟩⟩

theorem GuardsOnce.reachable (reachable : (pulse env).Reachable (HandsOwn env) state) :
    GuardsOnce state := by
  have both : Fenced state ∧ GuardsOnce state := by
    refine @Machine.Reachable.invariant _ _ (pulse env) (HandsOwn env)
      (fun state => Fenced state ∧ GuardsOnce state) ?_ ?_ state reachable
    · rintro _ rfl
      have unlogged : ∀ pending, Logged [] pending ({} : System) := fun _ =>
        ⟨List.nodup_nil, fun _ listed => (nomatch listed), fun _ _ _ listed => nomatch listed⟩
      exact ⟨initial_fenced, unlogged _, unlogged _⟩
    · rintro earlier action next ⟨fenced, once⟩ hands taken
      exact ⟨fenced.step hands taken, once.step fenced taken⟩
  exact both.2

end Steps

/-! A token which no job carries any more stays gone. -/

/-- The tokens which a claim is about to publish. -/
def Session.publishes : Session → List Uuid
  | .claimWritten _ _ _ rows => rows.map ClaimedRow.token
  | _ => []

structure Gone (token : Uuid) (state : System) : Prop where
  drawn : token < state.nextUuid
  absent : ∀ record ∈ state.db.jobs, record.job.lockToken ≠ some token
  unpublished : ∀ sid, token ∉ (state.sessions sid).publishes

section Gone
variable {env : Environment} {state after : System} {sid : Sid} {token : Uuid}

/-- Only a claim writes a token; every other commit keeps it or clears it. -/
theorem Move.lockToken {session : Session} {record moved : JobRecord}
    (move : Move state session record moved) :
    moved.job.lockToken = none ∨ moved.job.lockToken = record.job.lockToken ∨
      ∃ token ∈ session.publishes, moved.job.lockToken = some token := by
  cases move with
  | claim member => exact .inr (.inr ⟨_, List.mem_map.mpr ⟨_, member, rfl⟩, rfl⟩)
  | @detach _ id =>
    right
    left
    unfold JobRecord.detach
    split <;> rfl
  | @write tick write => cases write.change <;> exact .inr (.inl rfl)
  | complete | backoff | bury | requeueClaimed | requeueLost | buryLost | retry | replay =>
    exact .inl rfl
  | _ => exact .inr (.inl rfl)

theorem Advance.publishes {session next : Session} {locks : List Lock}
    (advance : Advance env state session next locks) :
    ∀ token ∈ next.publishes, state.nextUuid ≤ token := by
  intro token member
  cases advance with
  | claim _ drawn =>
    obtain ⟨row, listed, rfl⟩ := List.mem_map.mp member
    rw [drawn row listed]
    exact Nat.le_add_right ..
  | @select workerId rows =>
    unfold handingOver at member
    split at member <;> cases member
  | _ => cases member

theorem Gone.update (gone : Gone token state) {next : Session} (silent : token ∉ next.publishes) :
    ∀ other, token ∉ (Function.update state.sessions sid next other).publishes :=
  System.update_sessions (fun _ session => token ∉ session.publishes) silent
    fun other _ => gone.unpublished other

theorem Gone.performs (gone : Gone token state) (performs : Performs env state sid after) :
    Gone token after := by
  have drawn := gone.drawn
  cases performs with
  | @hold next locks advance =>
    refine ⟨?_, gone.absent, gone.update ?_⟩
    · show token < 2 * state.nextUuid
      lia
    · intro member
      exact absurd drawn (Nat.not_lt.mpr (advance.publishes token member))
  | @commit next patch commits =>
    refine ⟨?_, ?_, gone.update ?_⟩
    · show token < 2 * state.nextUuid + _
      lia
    · intro record member carried
      rcases commits.origin member with ⟨old, present, _, _, move⟩ | ⟨job, inserted, rfl⟩
      · rcases move.lockToken with none | kept | ⟨own, published, written⟩
        · rw [none] at carried
          cases carried
        · exact gone.absent old present (kept ▸ carried)
        · cases Option.some.inj (written.symm.trans carried)
          exact gone.unpublished sid published
      · exact commits.inserted_free inserted token carried
    · have leaves := commits.leaves
      generalize state.sessions sid = session at leaves
      cases leaves <;> exact List.not_mem_nil
  | rollback => exact ⟨drawn, gone.absent, gone.update List.not_mem_nil⟩

theorem Gone.step (gone : Gone token state) (fenced : Fenced state) {action : Action}
    (taken : Pulse.step env state action = some after) : Gone token after := by
  have drawn := gone.drawn
  cases step_cases fenced.base (fenced.guards action) taken with
  | begin _ performs | next _ performs => exact gone.performs performs
  | fail => exact gone.performs (.rollback : Performs env state _ _)
  | @submit sid newSid workerId task rest =>
    have handed : token ∉ (handingOver workerId rest).publishes := by
      unfold handingOver
      split <;> exact List.not_mem_nil
    exact ⟨drawn, gone.absent,
      System.handed_forall (fun _ session => token ∉ session.publishes) List.not_mem_nil handed
        fun other _ => gone.unpublished other⟩
  | exit => exact ⟨drawn, gone.absent, gone.unpublished⟩
  | reregister =>
    refine ⟨?_, gone.absent, gone.unpublished⟩
    show token < 2 * state.nextUuid
    lia

theorem Session.task_tokens {session : Session} {task : Task} (runs : session.task? = some task) :
    session.tokens = [task.written] ∧ session.publishes = [] := by
  cases session with
  | execute | starting | handling | returned | finishing =>
    cases Option.some.inj runs
    exact ⟨rfl, rfl⟩
  | _ => cases runs

/-- Once no job carries the token of a task, none will. -/
theorem Fenced.gone (fenced : Fenced state) {task : Task}
    (runs : (state.sessions sid).task? = some task) (reaped : Reaped state task) :
    Gone task.written state := by
  obtain ⟨tokens, silent⟩ := Session.task_tokens runs
  have held : task.written ∈ (state.sessions sid).tokens := by simp [tokens]
  refine ⟨fenced.base.tokens sid _ held, reaped, ?_⟩
  intro other published
  have owned : task.written ∈ (state.sessions other).tokens := by
    generalize state.sessions other = session at published
    cases session with
    | claimWritten => exact published
    | _ => cases published
  cases fenced.separate other sid _ owned held
  simp [silent] at published

/-- A task whose token is gone passes no guard and has no write left to commit. -/
theorem Gone.silent {task : Task} (gone : Gone task.written state) (fenced : Fenced state)
    (runs : (state.sessions sid).task? = some task) {input : Input}
    (taken : Pulse.step env state (.next sid input) = some after) :
    after.db.jobs = state.db.jobs := by
  have locked : ∀ id ∈ (state.sessions sid).rows, False := by
    intro id member
    obtain ⟨record, present, _, expected⟩ := fenced.base.expects sid id member
    have carries := fenced.carries sid
    generalize state.sessions sid = session at runs member expected carries
    cases session with
    | starting own | finishing own =>
      cases Option.some.inj runs
      exact gone.absent record present (expected.trans carries)
    | execute | handling | returned => cases member
    | _ => cases runs
  obtain ⟨effect, made, performed⟩ := next_effect taken
  have unfinished : ∀ next locks patch, effect ≠ .commit next locks patch := by
    rintro next locks patch rfl
    generalize state.sessions sid = session at runs made locked
    cases session with
    | starting | finishing => exact (locked _ (List.mem_singleton.mpr rfl)).elim
    | execute | returned =>
      simp only [Session.effect, guarded, Option.some.injEq] at made
      split at made <;> cases made
    | handling => cases Option.some.inj made
    | _ => cases runs
  cases effect with
  | hold next locks =>
    obtain ⟨_, rfl⟩ := System.perform_hold performed
    rfl
  | commit next locks patch => exact absurd rfl (unfinished next locks patch)
  | rollback =>
    cases Option.some.inj performed
    rfl

end Gone

section Fencing
variable {env : Environment} {state : System}

/-- Where the re-read finds the tokens of the claim, it hands them over. -/
theorem rereads_hands (reread : env.handover = .reread) {action : Action}
    (rereads : RereadsOwn state action) : HandsOwn env state action := by
  unfold HandsOwn
  split
  · rename_i sid _
    split
    · rename_i workerId rows committed
      intro task listed
      simp only [RereadsOwn, committed] at rereads
      rw [reread] at listed
      obtain ⟨row, present, found⟩ := List.mem_filterMap.mp listed
      obtain ⟨record, lookup, rfl⟩ := Option.map_eq_some_iff.mp found
      obtain ⟨member, same⟩ := Db.findJob_some lookup
      exact rereads row present record member same
    · trivial
  · trivial

theorem hands_of_rereads (reread : env.handover = .reread)
    (reachable : (pulse env).Reachable RereadsOwn state) :
    (pulse env).Reachable (HandsOwn env) state := by
  have nothing : ∀ state, (pulse env).Reachable RereadsOwn state → True := fun _ _ => trivial
  exact reachable.weaken nothing fun _ _ _ rereads => rereads_hands reread rereads

/-- A stage which holds a lock is reached by a statement of its transaction. -/
theorem Performs.advanced {sid : Sid} {after : System} (performs : Performs env state sid after)
    (locked : (after.sessions sid).locks ≠ []) :
    ∃ locks, Advance env state (state.sessions sid) (after.sessions sid) locks := by
  cases performs with
  | @hold next locks advance =>
    refine ⟨locks, ?_⟩
    rwa [System.hold_sessions, Function.update_self]
  | commit commits =>
    simp only [System.commit_sessions, Function.update_self, commits.leaves.locks] at locked
    exact absurd rfl locked
  | rollback =>
    simp only [System.rollback_sessions, Function.update_self] at locked
    exact absurd rfl locked

theorem Fenced.guards_own_claim (fenced : Fenced state) : GuardsOwnClaim env state := by
  intro sid input after task taken
  have carries := fenced.carries sid
  have knows := fenced.knows sid
  have performed := next_performs fenced.base (fenced.guards _) taken
  constructor
  · intro running started
    obtain ⟨locks, advance⟩ := performed.advanced (by simp [started, Session.locks])
    rw [running, started] at advance
    rw [running] at carries knows
    cases advance with
    | passFirst member same token =>
      have own := token.trans carries
      exact ⟨_, member, same, own, (knows _ member _ (List.mem_singleton.mpr rfl) own).1⟩
  · intro executionId durationMs outcome running finished
    obtain ⟨locks, advance⟩ := performed.advanced (by simp [finished, Session.locks])
    rw [running, finished] at advance
    rw [running] at carries knows
    cases advance with
    | passSecond member same token =>
      have own := token.trans carries
      exact ⟨_, member, same, own, (knows _ member _ (List.mem_singleton.mpr rfl) own).1⟩

/-- In every run whose re-reads all find the tokens which their claims wrote: a guard
is passed only by the claim whose token the job carries, at most once by each claim,
and a task whose claim is over changes nothing. -/
theorem fencing (reread : env.handover = .reread)
    (reachable : (pulse env).Reachable RereadsOwn state) :
    GuardsOwnClaim env state ∧ state.passed.Nodup ∧ state.finished.Nodup ∧
      ReapedChangesNothing env state := by
  have handed := hands_of_rereads reread reachable
  have fenced := Fenced.reachable handed
  have once := GuardsOnce.reachable handed
  refine ⟨fenced.guards_own_claim, once.1.once, once.2.once, ?_⟩
  intro sid task runs reaped later path runner own input after running same taken
  have stays : Fenced later ∧ Gone task.written later := by
    refine @Machine.Path.preserves _ _ (pulse env) RereadsOwn
      (fun state => Fenced state ∧ Gone task.written state) ?_ _ _ path
      ⟨fenced, fenced.gone runs reaped⟩
    rintro earlier action next ⟨fenced, gone⟩ rereads taken
    exact ⟨fenced.step (rereads_hands reread rereads) taken, gone.step fenced taken⟩
  rw [← same] at stays
  exact stays.2.silent stays.1 running taken

end Fencing

/-- Between the first worker's claim and its re-read the reaper requeues the job and
the second worker claims it. -/
def reclaimedBeforeReread : List Action := claimedOnce ++ [
  .begin 2 .reaper,
  .next 2 { now := 100 },
  .next 2 {},
  .next 2 {},
  .next 2 {},
  .next 2 {},
  .begin 3 (.claimJobs 1 4 1 100),
  .next 3 { picked := [8] },
  .next 3 {},
  .next 1 {},
  .submit 1 10]

/-- The session's task would find its job by its token now. -/
def aboutToPass (sid : Sid) (state : System) : Bool :=
  (state.sessions sid).task?.any fun task =>
    (loadForTransition state.db task.jobId task.token).isSome

/-- Such a run up to a task which is about to pass its second guard. -/
theorem fencing_executed : ∃ state, (pulse (sample .reread)).Reachable RereadsOwn state ∧
    aboutToPass 10 state = true ∧ GuardsOwnClaim (sample .reread) state ∧ state.passed.Nodup ∧
      state.finished.Nodup ∧ ReapedChangesNothing (sample .reread) state := by
  have ran : ((pulse (sample .reread)).run RereadsOwn {} executedOnce).any (aboutToPass 10) = true := by
    decide +kernel
  obtain ⟨state, reachable, passes⟩ := Machine.reachable_of_check rfl executedOnce ran
  exact ⟨state, reachable, passes, fencing rfl reachable⟩

/-- The session's task passes its first guard on a job which carries the token of
another claim. -/
def passesForeign (env : Environment) (sid : Sid) (task : Task) (state : System) : Bool :=
  state.sessions sid = .execute task &&
    ((step env state (.next sid {})).any fun after => after.sessions sid = .starting task) &&
    state.db.jobs.all fun record => record.job.lockToken ≠ some task.written

/-- A worker which re-reads its claim after the job was reaped and claimed again gets
the token of the other claim, and passes the guard with it. -/
theorem reread_breaks_fencing : ∃ state, (pulse (sample .reread)).Reachable anyStep state ∧
    ¬ GuardsOwnClaim (sample .reread) state := by
  let stolen : Task := ⟨2, 8, some 17416, 1, 42⟩
  have ran : ((pulse (sample .reread)).run anyStep {} reclaimedBeforeReread).any
      (passesForeign (sample .reread) 10 stolen) = true := by
    decide +kernel
  obtain ⟨state, reachable, passes⟩ := Machine.reachable_of_check rfl reclaimedBeforeReread ran
  refine ⟨state, reachable, ?_⟩
  intro guards
  simp only [passesForeign, Bool.and_eq_true, decide_eq_true_eq, Option.any_eq_true,
    List.all_eq_true, ne_eq] at passes
  obtain ⟨⟨running, after, taken, started⟩, foreign⟩ := passes
  obtain ⟨record, member, _, own, _⟩ := (guards 10 {} after stolen taken).1 running started
  exact foreign record member own

end Pulse
