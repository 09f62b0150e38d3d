import Pulse.System.Runs

/-! Stranding: a job in flight under a live worker is being handed over or executed by
it, provided no exception ends a session whose claim is committed and not yet used. -/
namespace Pulse
open Library.RowLock Library.Lts

/-- The session is handing over the job, or executes it, under the claim whose token the
job carries. -/
def Session.Serves : Session → JobRecord → Prop
  | .claimCommitted workerId rows, record =>
    record.job.workerId = some workerId ∧
      ∃ row ∈ rows, row.jobId = record.job.id ∧ record.job.lockToken = some row.token
  | .handing workerId tasks, record =>
    record.job.workerId = some workerId ∧ ∃ task ∈ tasks, task.workerId = workerId ∧
      task.jobId = record.job.id ∧ record.job.lockToken = some task.written ∧
        task.token = some task.written
  | .execute task, record | .starting task, record | .handling task _, record
  | .returned task _ _ _, record | .finishing task _ _ _, record =>
    record.job.workerId = some task.workerId ∧ task.jobId = record.job.id ∧
      record.job.lockToken = some task.written ∧ task.token = some task.written
  | _, _ => False

/-- Every job in flight under a live worker's id is served by a session. -/
def NotStranded (state : System) : Prop :=
  ∀ record ∈ state.db.jobs, record.job.status.inFlight = true →
    ∀ workerId, record.job.workerId = some workerId → state.acting workerId →
      ∃ sid, (state.sessions sid).Serves record

/-- No exception ends a session of a live worker while a job carries a token which the
session's claim wrote, and no `_execute` passes its first guard with a null token. -/
def FailsClean (state : System) (action : Action) : Prop :=
  (match action with
    | .fail sid => ∀ workerId ∈ (state.sessions sid).worker, state.acting workerId →
        ∀ record ∈ state.db.jobs, ∀ token ∈ (state.sessions sid).tokens,
          record.job.lockToken ≠ some token
    | _ => True) ∧ GuardsToken state action

instance (state : System) : (action : Action) → Decidable (FailsClean state action)
  | .fail sid => inferInstanceAs (Decidable ((∀ workerId ∈ (state.sessions sid).worker,
      state.acting workerId → ∀ record ∈ state.db.jobs, ∀ token ∈ (state.sessions sid).tokens,
        record.job.lockToken ≠ some token) ∧ GuardsToken state (.fail sid)))
  | .next sid input => inferInstanceAs (Decidable (True ∧ GuardsToken state (.next sid input)))
  | .begin .. | .submit .. | .exit .. | .reregister .. => isTrue ⟨trivial, trivial⟩

section Sessions
variable {env : Environment} {state : System} {session next : Session} {locks : List Lock}
  {record moved : JobRecord}

theorem Session.serves_worker (serves : session.Serves record) {workerId : Uuid}
    (owner : record.job.workerId = some workerId) : session.worker = some workerId := by
  cases session with
  | claimCommitted | handing | execute | starting | handling | returned | finishing =>
    exact serves.1.symm.trans owner
  | _ => exact serves.elim

theorem Session.serves_token (serves : session.Serves record) :
    ∃ token ∈ session.tokens, record.job.lockToken = some token := by
  cases session with
  | claimCommitted =>
    obtain ⟨_, row, listed, _, token⟩ := serves
    exact ⟨row.token, List.mem_map_of_mem listed, token⟩
  | handing =>
    obtain ⟨_, task, listed, _, _, token, _⟩ := serves
    exact ⟨task.written, List.mem_map_of_mem listed, token⟩
  | execute | starting | handling | returned | finishing =>
    exact ⟨_, List.mem_singleton.mpr rfl, serves.2.2.1⟩
  | _ => exact serves.elim

/-- What a session needs to know of a job to serve it. -/
theorem Session.serves_congr (serves : session.Serves record)
    (id : moved.job.id = record.job.id) (token : moved.job.lockToken = record.job.lockToken)
    (owner : moved.job.workerId = record.job.workerId) : session.Serves moved := by
  cases session with
  | claimCommitted | handing | execute | starting | handling | returned | finishing =>
    simpa only [Session.Serves, id, token, owner] using serves
  | _ => exact serves.elim

theorem handingOver_serves {workerId : Uuid} {tasks : List Task}
    (serves : (Session.handing workerId tasks).Serves record) :
    (handingOver workerId tasks).Serves record := by
  unfold handingOver
  split
  · rename_i empty
    obtain ⟨_, task, listed, _⟩ := serves
    rw [empty] at listed
    cases listed
  · exact serves

/-- A statement inside a transaction goes on serving what its session serves. -/
theorem Advance.serves (advance : Advance env state session next locks)
    (distinct : (state.db.jobs.map fun record => record.job.id).Nodup)
    (member : record ∈ state.db.jobs) (serves : session.Serves record) : next.Serves record := by
  cases advance with
  | @select workerId rows =>
    obtain ⟨owner, row, listed, same, token⟩ := serves
    refine handingOver_serves ⟨owner, ?_⟩
    unfold claimedTasks
    split
    · have found : state.db.findJob row.jobId = some record := by
        cases lookup : state.db.findJob row.jobId with
        | none => exact absurd same.symm (Db.findJob_none lookup record member)
        | some other =>
          obtain ⟨there, named⟩ := Db.findJob_some lookup
          rw [unique_record distinct there member (named.trans same)]
      refine ⟨_, List.mem_filterMap.mpr ⟨row, listed, by rw [found]; rfl⟩, rfl, same, token, token⟩
    · exact ⟨_, List.mem_map_of_mem listed, rfl, same, token, rfl⟩
  | passFirst | handled | passSecond => exact serves
  | _ => exact serves.elim

/-- Another session's commit leaves a job with its claim, takes it out of flight, or
claims it. -/
theorem Move.claim_kept (move : Move state session record moved)
    (sound : record.Sound state.nextUuid) (flying : moved.job.status.inFlight = true)
    {workerId : Uuid} (owner : moved.job.workerId = some workerId) :
    record.job.status.inFlight = true ∧ moved.job.lockToken = record.job.lockToken ∧
        moved.job.workerId = record.job.workerId ∨
      ∃ queueId now rows, session = .claimWritten queueId workerId now rows ∧
        ∃ row ∈ rows, row.jobId = record.job.id ∧ moved.job.lockToken = some row.token := by
  cases move with
  | keep => exact .inl ⟨flying, rfl, rfl⟩
  | detach =>
    refine .inl ⟨by simpa using flying, ?_⟩
    unfold JobRecord.detach
    split <;> exact ⟨rfl, rfl⟩
  | claim member same =>
    cases Option.some.inj owner
    exact .inr ⟨_, _, _, rfl, _, member, same.symm, rfl⟩
  | start _ token held =>
    refine .inl ⟨?_, rfl, rfl⟩
    rw [← sound.token, token]
    exact held
  | unassign => cases owner
  | @write tick write =>
    rw [Change.write_status] at flying
    cases change : write.change <;> simp [change, Change.status, JobStatus.inFlight] at flying
  | complete | backoff | bury | requeueClaimed | requeueLost | buryLost | cancel | retry | replay =>
    cases flying

/-- Where a session goes which leaves its transaction: a start goes on to its handler, a
claim to its hand-over, and what serves a job else ends only with the job's attempt. -/
structure Continues (session next : Session) : Prop where
  serving : ∀ record, session.Serves record →
    (∃ task executionId, session = .starting task ∧ next = .handling task executionId) ∨
      ∃ task executionId durationMs outcome,
        session = .finishing task executionId durationMs outcome
  claimed : ∀ queueId workerId now rows, session = .claimWritten queueId workerId now rows →
    rows ≠ [] → next = .claimCommitted workerId rows

theorem Session.effect_continues {sid : Sid} {input : Input} {patch : Patch}
    (made : session.effect env state sid input = some (.commit next locks patch)) :
    Continues session next := by
  cases session with
  | claimWritten queueId workerId now rows =>
    refine ⟨fun _ serves => serves.elim, ?_⟩
    rintro _ _ _ _ same nonempty
    cases same
    cases Option.some.inj made
    exact if_neg nonempty
  | starting task =>
    simp only [Session.effect, startEffect] at made
    split at made
    · cases made
    · cases Option.some.inj made
      refine ⟨fun _ _ => .inl ⟨_, _, rfl, rfl⟩, ?_⟩
      intro _ _ _ _ same
      cases same
  | finishing =>
    refine ⟨fun _ _ => .inr ⟨_, _, _, _, rfl⟩, ?_⟩
    intro _ _ _ _ same
    cases same
  | execute | returned =>
    simp only [Session.effect, guarded, Option.some.injEq] at made
    split at made <;> cases made
  | claimCommitted | handling => cases Option.some.inj made
  | handing => cases made
  | _ =>
    refine ⟨fun _ serves => serves.elim, ?_⟩
    intro _ _ _ _ same
    cases same

/-- A session gives up only what it does not serve: its guard finds a job which it
serves. -/
theorem Session.effect_gives_up {sid : Sid} {input : Input}
    (made : session.effect env state sid input = some .rollback)
    (member : record ∈ state.db.jobs) : ¬ session.Serves record := by
  intro serves
  have found : ∀ task : Task, task.jobId = record.job.id →
      record.job.lockToken = some task.written → task.token = some task.written →
      loadForTransition state.db task.jobId task.token ≠ none := by
    intro task same token own none
    have missing := List.find?_eq_none.mp none record member
    simp [same, token, own] at missing
  cases session with
  | execute task | returned task =>
    simp only [Session.effect, guarded, Option.some.injEq] at made
    split at made
    · cases made
    · rename_i none
      exact found task serves.2.1 serves.2.2.1 serves.2.2.2 none
  | starting =>
    simp only [Session.effect, startEffect] at made
    split at made <;> cases made
  | claimCommitted | handling | finishing => cases Option.some.inj made
  | handing => cases made
  | _ => exact serves.elim

/-- The commit which ends an attempt takes its job out of flight. -/
theorem Move.finished {task : Task} {executionId : Uuid} {durationMs : Int} {outcome : Outcome}
    (move : Move state (.finishing task executionId durationMs outcome) record moved)
    (same : task.jobId = record.job.id) : moved.job.status.inFlight = false := by
  cases move with
  | keep other => exact absurd (List.mem_singleton.mpr same.symm) other
  | complete | backoff | bury => rfl
  | requeueClaimed swept | requeueLost swept | buryLost swept | unassign swept => cases swept

end Sessions

/-- No job is stranded, and ids not drawn yet are nobody's former id. -/
structure Attended (state : System) : Prop where
  served : NotStranded state
  fresh : ∀ workerId, state.nextUuid ≤ workerId → state.currentId workerId = workerId

section Runs
variable {env : Environment} {state after : System} {sid : Sid}

theorem Attended.hold (attended : Attended state) (base : Base state) {next : Session}
    {locks : List Lock} (advance : Advance env state (state.sessions sid) next locks) :
    Attended (state.hold sid next locks) := by
  refine ⟨?_, fun workerId above => attended.fresh workerId ?_⟩
  · intro record member flying workerId owner acting
    obtain ⟨server, serves⟩ := attended.served record member flying workerId owner acting
    refine ⟨server, ?_⟩
    rw [System.hold_sessions]
    by_cases same : server = sid
    · rw [same, Function.update_self]
      exact advance.serves base.distinct member (same ▸ serves)
    · rwa [Function.update_of_ne same]
  · rw [System.hold_nextUuid] at above
    lia

theorem Attended.commit (attended : Attended state) (base : Base state) {next : Session}
    {patch : Patch} (commits : Commits state sid next patch)
    (continues : Continues (state.sessions sid) next) : Attended (state.commit sid next patch) := by
  refine ⟨?_, fun workerId above => attended.fresh workerId ?_⟩
  · intro record member flying workerId owner acting
    rcases commits.origin member with ⟨old, present, _, _, move⟩ | ⟨job, inserted, rfl⟩
    · rcases move.claim_kept (base.sound old present) flying owner with
        ⟨before, token, same⟩ | ⟨queueId, now, rows, claims, row, listed, id, token⟩
      · rw [same] at owner
        obtain ⟨server, serves⟩ := attended.served old present before workerId owner acting
        have still := Session.serves_congr serves move.job_id token same
        refine ⟨server, ?_⟩
        rw [System.commit_sessions]
        by_cases own : server = sid
        · subst own
          rw [Function.update_self]
          rcases continues.serving old serves with
            ⟨task, executionId, starting, rfl⟩ | ⟨task, executionId, durationMs, outcome, finishing⟩
          · rw [starting] at still
            exact still
          · rw [finishing] at move serves
            rw [move.finished serves.2.1] at flying
            cases flying
        · rwa [Function.update_of_ne own]
      · refine ⟨sid, ?_⟩
        rw [System.commit_sessions, Function.update_self,
          continues.claimed _ _ _ _ claims (List.ne_nil_of_mem listed)]
        exact ⟨owner, row, listed, by rw [move.job_id, id], token⟩
    · rcases (commits.inserted job inserted).1.status with status | status <;>
        simp [status, JobStatus.inFlight] at flying
  · rw [System.commit_nextUuid] at above
    lia

/-- A session ends which serves no job of a live worker. -/
theorem Attended.rollback (attended : Attended state)
    (idle : ∀ record ∈ state.db.jobs, ∀ workerId, record.job.workerId = some workerId →
      state.acting workerId → ¬ (state.sessions sid).Serves record) :
    Attended (state.rollback sid) := by
  refine ⟨?_, attended.fresh⟩
  intro record member flying workerId owner acting
  obtain ⟨server, serves⟩ := attended.served record member flying workerId owner acting
  refine ⟨server, ?_⟩
  have other : server ≠ sid := by
    rintro rfl
    exact idle record member workerId owner acting serves
  rwa [System.rollback_sessions, Function.update_of_ne other]

theorem Attended.submit (attended : Attended state) {newSid : Sid} {workerId : Uuid} {task : Task}
    {rest : List Task} (handing : state.sessions sid = .handing workerId (task :: rest))
    (idle : state.sessions newSid = .idle) (different : sid ≠ newSid) :
    Attended (state.handed sid newSid workerId task rest) := by
  refine ⟨?_, attended.fresh⟩
  intro record member flying owner owned acting
  obtain ⟨server, serves⟩ := attended.served record member flying owner owned acting
  by_cases own : server = sid
  · subst own
    rw [handing] at serves
    obtain ⟨claimed, served, listed, ours, same, token, carried⟩ := serves
    rcases List.mem_cons.mp listed with rfl | later
    · refine ⟨newSid, ?_⟩
      rw [System.handed_sessions, Function.update_self]
      exact ⟨ours ▸ claimed, same, token, carried⟩
    · refine ⟨server, ?_⟩
      rw [System.handed_sessions, Function.update_of_ne different, Function.update_self]
      exact handingOver_serves ⟨claimed, served, later, ours, same, token, carried⟩
  · have apart : server ≠ newSid := by
      rintro rfl
      rw [idle] at serves
      exact serves
    refine ⟨server, ?_⟩
    rwa [System.handed_sessions, Function.update_of_ne apart, Function.update_of_ne own]

theorem Attended.step (attended : Attended state) (base : Base state) {action : Action}
    (clean : FailsClean state action)
    (taken : Pulse.step env state action = some after) : Attended after := by
  cases step_cases base clean.2 taken with
  | begin idle performs =>
    cases performs with
    | hold advance => exact attended.hold base advance
    | commit commits =>
      refine attended.commit base commits ?_
      rw [idle]
      exact ⟨fun _ serves => serves.elim, fun _ _ _ _ same => nomatch same⟩
    | rollback =>
      refine attended.rollback fun _ _ _ _ _ serves => ?_
      rw [idle] at serves
      exact serves
  | next =>
    obtain ⟨effect, made, performed⟩ := next_effect taken
    cases effect with
    | hold next locks =>
      obtain ⟨_, rfl⟩ := System.perform_hold performed
      exact attended.hold base (Session.effect_advance base.distinct made)
    | commit next locks patch =>
      obtain ⟨_, rfl⟩ := System.perform_commit performed
      exact attended.commit base (Session.effect_commits base made) (Session.effect_continues made)
    | rollback =>
      cases Option.some.inj performed
      exact attended.rollback fun record member _ _ _ => Session.effect_gives_up made member
  | fail =>
    refine attended.rollback fun record member workerId owner acting serves => ?_
    obtain ⟨token, held, carried⟩ := Session.serves_token serves
    exact clean.1 workerId (Session.serves_worker serves owner) acting record member token held carried
  | submit handing idle different => exact attended.submit handing idle different
  | exit =>
    refine ⟨?_, attended.fresh⟩
    intro record member flying workerId owner acting
    refine attended.served record member flying workerId owner ⟨?_, acting.2⟩
    exact fun ended => acting.1 (List.mem_cons_of_mem _ ended)
  | @reregister former now _ known =>
    refine ⟨?_, ?_⟩
    · intro record member flying workerId owner acting
      refine attended.served record member flying workerId owner ?_
      obtain ⟨live, current⟩ := acting
      by_cases moved : state.currentId workerId = former
      · have renamed : state.nextUuid = workerId := (if_pos moved).symm.trans current
        have own := attended.fresh workerId renamed.le
        lia
      · have kept : (state.reregister former now).currentId workerId = state.currentId workerId :=
          if_neg moved
        rw [System.live, kept] at live
        exact ⟨live, kept.symm.trans current⟩
    · intro workerId above
      have positive := base.positive
      have later : state.nextUuid ≤ workerId := by
        change 2 * state.nextUuid ≤ workerId at above
        lia
      have own := attended.fresh workerId later
      exact (if_neg (by rw [own]; lia)).trans own

/-- In every run in which no exception ends a live worker's claim in use and whose guards
see no null token, no job is stranded under a live worker. -/
theorem not_stranded (reachable : (pulse env).Reachable FailsClean state) :
    NotStranded state := by
  have both : Base state ∧ Attended state := by
    refine @Machine.Reachable.invariant _ _ (pulse env) FailsClean
      (fun state => Base state ∧ Attended state) ?_ ?_ state reachable
    · rintro _ rfl
      exact ⟨initial_base, fun _ member => (nomatch member), fun _ _ => rfl⟩
    · rintro earlier action next ⟨base, attended⟩ clean taken
      exact ⟨base.step clean.2 taken, attended.step base clean taken⟩
  exact both.2.served

end Runs

/-- The SELECT after the commit of the claim raises, and the worker lives on. -/
def failedReread : List Action := claimedOnce ++ [.fail 1]

theorem not_stranded_executed : ∃ state, (pulse (sample .reread)).Reachable FailsClean state ∧
    (state.db.jobs.any fun record => record.job.status = .running && record.job.workerId = some 2) =
      true ∧ state.acting 2 ∧ NotStranded state := by
  have ran : ((pulse (sample .reread)).run FailsClean {} executedOnce).any (fun state =>
      (state.db.jobs.any fun record =>
        record.job.status = .running && record.job.workerId = some 2) && state.acting 2) = true := by
    decide +kernel
  obtain ⟨state, reachable, passes⟩ := Machine.reachable_of_check rfl executedOnce ran
  simp only [Bool.and_eq_true, decide_eq_true_eq] at passes
  exact ⟨state, reachable, by simpa using passes.1, passes.2, not_stranded reachable⟩

/-- The job stays claimed by the live worker, and no session is left to serve it. -/
theorem failed_reread_strands : ∃ state, (pulse (sample .reread)).Reachable anyStep state ∧
    ¬ NotStranded state := by
  have ran : ((pulse (sample .reread)).run (Within [0, 1]) {} failedReread).any (fun state =>
      ([0, 1].all fun sid => state.sessions sid = .idle) && state.acting 2 &&
        state.db.jobs.any fun record =>
          record.job.status.inFlight && record.job.workerId = some 2) = true := by
    decide +kernel
  obtain ⟨state, reachable, passes⟩ := Machine.reachable_of_check rfl failedReread ran
  simp only [Bool.and_eq_true, decide_eq_true_eq, List.all_eq_true, List.any_eq_true] at passes
  obtain ⟨⟨named, live⟩, record, member, flying, owner⟩ := passes
  have idle : ∀ sid, state.sessions sid = .idle := by
    intro sid
    by_cases listed : sid ∈ [0, 1]
    · exact named sid listed
    · exact idle_of_within reachable sid listed
  have nothing : ∀ state, (pulse (sample .reread)).Reachable (Within [0, 1]) state → True :=
    fun _ _ => trivial
  refine ⟨state, reachable.weaken nothing fun _ _ _ _ => trivial, ?_⟩
  intro served
  obtain ⟨sid, serves⟩ := served record member flying 2 owner live
  rw [idle sid] at serves
  exact serves

end Pulse
