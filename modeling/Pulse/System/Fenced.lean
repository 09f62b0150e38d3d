import Pulse.System.Runs

/-! Claim tokens as fences. While every task carries the token which its own claim
wrote, no two sessions share a token, and a session knows the job which still
carries one of its tokens. -/
namespace Pulse
open Library.RowLock Library.Lts

/-- The executions of a job since it was last reset. -/
def JobRecord.runs (record : JobRecord) : List JobExecution :=
  record.executions.filter fun execution => execution.life = record.resets

/-- Every task carries the token written by its claim. -/
def Session.Carries : Session → Prop
  | .handing _ tasks => ∀ task ∈ tasks, task.token = some task.written
  | .execute task | .starting task | .handling task _ | .returned task _ _ _
  | .finishing task _ _ _ => task.token = some task.written
  | _ => True

/-- What a session knows about a job which carries one of its tokens. -/
def Session.Knows : Session → JobRecord → Prop
  | .claimWritten _ _ _ _, _ => False
  | .claimCommitted _ rows, record =>
    record.job.status = .claimed ∧ ∀ row ∈ rows, record.job.lockToken = some row.token →
      row.jobId = record.job.id ∧ row.attempts = record.job.attempts
  | .handing _ tasks, record =>
    record.job.status = .claimed ∧ ∀ task ∈ tasks, record.job.lockToken = some task.written →
      task.jobId = record.job.id ∧ task.attempt = record.job.attempts + 1
  | .execute task, record | .starting task, record =>
    record.job.status = .claimed ∧ task.jobId = record.job.id ∧
      task.attempt = record.job.attempts + 1
  | .handling task executionId, record | .returned task executionId _ _, record
  | .finishing task executionId _ _, record =>
    record.job.status = .running ∧ task.jobId = record.job.id ∧
      task.attempt = record.job.attempts + 1 ∧
      ∃ earlier last, record.runs = earlier ++ [last] ∧ last.id = executionId
  | _, _ => True

structure Fenced (state : System) : Prop where
  base : Base state
  carries : ∀ sid, (state.sessions sid).Carries
  separate : ∀ first second token, token ∈ (state.sessions first).tokens →
    token ∈ (state.sessions second).tokens → first = second
  unrepeated : ∀ sid, (state.sessions sid).tokens.Nodup
  knows : ∀ sid, ∀ record ∈ state.db.jobs, ∀ token ∈ (state.sessions sid).tokens,
    record.job.lockToken = some token → (state.sessions sid).Knows record

/-- `claim_jobs` hands every task the token which its own claim wrote. -/
def HandsOwn (env : Environment) (state : System) : Action → Prop
  | .next sid _ => match state.sessions sid with
    | .claimCommitted workerId rows =>
      ∀ task ∈ claimedTasks env.handover state.db workerId rows, task.token = some task.written
    | _ => True
  | _ => True

def Session.rereading : Session → Option (Uuid × List ClaimedRow)
  | .claimCommitted workerId rows => some (workerId, rows)
  | _ => none

instance (env : Environment) (state : System) :
    (action : Action) → Decidable (HandsOwn env state action)
  | .next sid _ => decidable_of_iff (∀ claim ∈ (state.sessions sid).rereading,
      ∀ task ∈ claimedTasks env.handover state.db claim.1 claim.2, task.token = some task.written) (by
    cases stage : state.sessions sid <;> simp [HandsOwn, stage, Session.rereading])
  | .begin .. | .fail .. | .submit .. | .exit .. | .reregister .. => isTrue trivial

section Sessions
variable {state : System} {session next : Session} {record after : JobRecord}

@[simp] theorem Session.knows_unassign :
    session.Knows record.unassign ↔ session.Knows record := by
  cases session <;> exact Iff.rfl

@[simp] theorem Session.knows_detach (id : Uuid) :
    session.Knows (record.detach id) ↔ session.Knows record := by
  unfold JobRecord.detach
  split
  · cases session <;> exact Iff.rfl
  · exact Iff.rfl

/-- A commit which leaves a job with a token that is none of its own has changed
nothing about the job's progress. -/
theorem Move.carried (move : Move state session record after)
    (sound : record.Sound state.nextUuid) (carries : session.Carries) {token : Uuid}
    (carried : after.job.lockToken = some token) (foreign : token ∉ session.tokens) :
    record.job.lockToken = some token ∧
      (after = record ∨ after = record.unassign ∨ ∃ id, after = record.detach id) := by
  cases move with
  | keep => exact ⟨carried, .inl rfl⟩
  | @detach _ id =>
    refine ⟨?_, .inr (.inr ⟨id, rfl⟩)⟩
    unfold JobRecord.detach at carried
    split at carried <;> exact carried
  | unassign => exact ⟨carried, .inr (.inl rfl)⟩
  | claim member =>
    cases Option.some.inj carried
    exact absurd (List.mem_map.mpr ⟨_, member, rfl⟩) foreign
  | start _ held =>
    have own : record.job.lockToken = some _ := held.trans carries
    have same := Option.some.inj (own.symm.trans carried)
    exact absurd (List.mem_singleton.mpr same.symm) foreign
  | @write _ write _ _ _ found parked =>
    have idle := sound.no_token (JobStatus.parked_waiting (found ▸ parked))
    cases change : write.change <;>
      simp [change, Change.write, JobRecord.promote, JobRecord.release, JobRecord.cancel, idle]
        at carried
  | cancel _ cancellable =>
    have idle := sound.no_token (JobStatus.cancellable_waiting cancellable)
    simp [JobRecord.cancel, idle] at carried
  | complete | backoff | bury | requeueClaimed | requeueLost | buryLost | retry | replay =>
    cases carried

/-- What a session knows survives the commits of the others. -/
theorem Move.knows (move : Move state session record after)
    (sound : record.Sound state.nextUuid) (carries : session.Carries) {token : Uuid}
    (carried : after.job.lockToken = some token) (foreign : token ∉ session.tokens)
    {other : Session} (knows : record.job.lockToken = some token → other.Knows record) :
    other.Knows after := by
  obtain ⟨held, rfl | rfl | ⟨id, rfl⟩⟩ := move.carried sound carries carried foreign
  · exact knows held
  · simpa using knows held
  · simpa using knows held

theorem JobRecord.runs_start (record : JobRecord) (now : Time) (executionId : Uuid) (attempt : Nat) :
    ∃ last, (record.start now executionId attempt).runs = record.runs ++ [last] ∧
      last.id = executionId ∧ last.attemptNumber = attempt ∧ last.status = .running := by
  refine ⟨⟨executionId, attempt, .running, now, none, none, none, none, record.resets⟩, ?_,
    rfl, rfl, rfl⟩
  simp only [JobRecord.runs, JobRecord.start, List.filter_append]
  congr 1
  simp

/-- What a session knows after its own commit. -/
theorem Leaves.knows (leaves : Leaves state session next)
    (move : Move state session record after) (armed : session.Armed)
    (unrepeated : session.tokens.Nodup) (carries : session.Carries)
    (knows : ∀ token ∈ session.tokens, record.job.lockToken = some token → session.Knows record)
    {token : Uuid} (member : token ∈ next.tokens) (carried : after.job.lockToken = some token) :
    next.Knows after := by
  cases leaves with
  | done => cases member
  | @claimed _ _ _ rows =>
    cases move with
    | keep => exact (knows token member carried).elim
    | @claim _ _ _ _ row _ listed same queued queue attempts =>
      refine ⟨rfl, ?_⟩
      intro other there twin
      have tokens : row.token = other.token := Option.some.inj twin
      have identical : other = row :=
        List.inj_on_of_nodup_map unrepeated there listed tokens.symm
      subst identical
      exact ⟨same.symm, attempts.symm⟩
    | requeueClaimed swept | requeueLost swept | buryLost swept | unassign swept => cases swept
  | @started task =>
    cases List.mem_singleton.mp member
    cases move with
    | keep other =>
      have fact := knows task.written (List.mem_singleton.mpr rfl) carried
      exact absurd (List.mem_singleton.mpr fact.2.1.symm) other
    | @start _ now _ same held =>
      obtain ⟨_, _, attempt⟩ := knows task.written (List.mem_singleton.mpr rfl) (held.trans carries)
      obtain ⟨last, runs, id, _, _⟩ :=
        record.runs_start now (state.draw task.jobId) task.attempt
      exact ⟨rfl, same.symm, attempt, _, last, runs, id⟩
    | requeueClaimed swept | requeueLost swept | buryLost swept | unassign swept => cases swept

end Sessions

section Steps
variable {env : Environment} {state after : System} {sid : Sid}

theorem claimedTasks_known {workerId : Uuid} {rows : List ClaimedRow} {record : JobRecord}
    (distinct : (state.db.jobs.map fun record => record.job.id).Nodup)
    (member : record ∈ state.db.jobs)
    (knows : (Session.claimCommitted workerId rows).Knows record) {task : Task}
    (listed : task ∈ claimedTasks env.handover state.db workerId rows)
    (carried : record.job.lockToken = some task.written) :
    task.jobId = record.job.id ∧ task.attempt = record.job.attempts + 1 := by
  unfold claimedTasks at listed
  split at listed
  · obtain ⟨row, there, found⟩ := List.mem_filterMap.mp listed
    obtain ⟨seen, lookup, rfl⟩ := Option.map_eq_some_iff.mp found
    obtain ⟨present, named⟩ := Db.findJob_some lookup
    obtain ⟨same, _⟩ := knows.2 row there carried
    have identical := unique_record distinct present member (named.trans same)
    exact ⟨same, by rw [identical]⟩
  · obtain ⟨row, there, rfl⟩ := List.mem_map.mp listed
    obtain ⟨same, attempts⟩ := knows.2 row there carried
    exact ⟨same, by rw [← attempts]⟩

theorem handingOver_knows {workerId : Uuid} {tasks : List Task} {record : JobRecord}
    (claimed : record.job.status = .claimed)
    (known : ∀ task ∈ tasks, record.job.lockToken = some task.written →
      task.jobId = record.job.id ∧ task.attempt = record.job.attempts + 1) :
    (handingOver workerId tasks).Knows record := by
  unfold handingOver
  split
  · trivial
  · exact ⟨claimed, known⟩

theorem handingOver_carries {workerId : Uuid} {tasks : List Task}
    (carries : ∀ task ∈ tasks, task.token = some task.written) :
    (handingOver workerId tasks).Carries := by
  unfold handingOver
  split
  · trivial
  · exact carries

/-- The tokens of a stage are those of the stage before, or are drawn now. -/
theorem Advance.tokens_origin {session next : Session} {locks : List Lock}
    (advance : Advance env state session next locks) (unrepeated : session.tokens.Nodup) :
    next.tokens.Nodup ∧
      ∀ token ∈ next.tokens, token ∈ session.tokens ∨ state.nextUuid ≤ token := by
  cases advance with
  | @claim queueId workerId limit now rows selected drawn distinct =>
    have tokens : rows.map ClaimedRow.token = (rows.map ClaimedRow.jobId).map state.draw := by
      rw [List.map_map]
      exact List.map_congr_left drawn
    constructor
    · simp only [Session.tokens, tokens]
      exact distinct.map fun _ _ same => Nat.add_left_cancel same
    · intro token member
      simp only [Session.tokens, tokens] at member
      obtain ⟨id, _, rfl⟩ := List.mem_map.mp member
      exact .inr (Nat.le_add_right ..)
  | @select workerId rows =>
    rw [handingOver_tokens]
    have sublist := claimedTasks_written env.handover state.db workerId rows
    exact ⟨unrepeated.sublist sublist, fun token member => .inl (sublist.subset member)⟩
  | passFirst | handled | passSecond => exact ⟨unrepeated, fun token member => .inl member⟩
  | _ => exact ⟨List.nodup_nil, fun _ member => nomatch member⟩

/-- Tokens stay with one session where another gets only tokens which nobody else has. -/
theorem Fenced.separate_update (fenced : Fenced state) {next : Session}
    (foreign : ∀ other, other ≠ sid → ∀ token ∈ (state.sessions other).tokens, token ∉ next.tokens) :
    ∀ first second token, token ∈ (Function.update state.sessions sid next first).tokens →
      token ∈ (Function.update state.sessions sid next second).tokens → first = second := by
  intro first second token
  by_cases one : first = sid <;> by_cases two : second = sid
  · exact fun _ _ => one.trans two.symm
  · rw [one, Function.update_self, Function.update_of_ne two]
    exact fun left right => absurd left (foreign second two token right)
  · rw [two, Function.update_self, Function.update_of_ne one]
    exact fun left right => absurd right (foreign first one token left)
  · rw [Function.update_of_ne one, Function.update_of_ne two]
    exact fenced.separate first second token

theorem Fenced.hold (fenced : Fenced state) {next : Session} {locks : List Lock}
    (advance : Advance env state (state.sessions sid) next locks)
    (hands : ∀ workerId rows, state.sessions sid = .claimCommitted workerId rows →
      ∀ task ∈ claimedTasks env.handover state.db workerId rows, task.token = some task.written)
    (base : Base (state.hold sid next locks)) : Fenced (state.hold sid next locks) := by
  obtain ⟨nodup, origin⟩ := advance.tokens_origin (fenced.unrepeated sid)
  refine ⟨base, ?_, fenced.separate_update ?_, ?_, ?_⟩
  · refine System.update_sessions (fun _ session => session.Carries) ?_ fun other _ =>
      fenced.carries other
    have before := fenced.carries sid
    generalize running : state.sessions sid = session at advance before
    cases advance with
    | select => exact handingOver_carries (hands _ _ running)
    | passFirst | handled | passSecond => exact before
    | _ => trivial
  · intro other different token held member
    rcases origin token member with own | fresh
    · exact different (fenced.separate other sid token held own)
    · have older := fenced.base.tokens other token held
      exact absurd older (Nat.not_lt.mpr fresh)
  · exact System.update_sessions (fun _ session => session.tokens.Nodup) nodup
      fun other _ => fenced.unrepeated other
  · refine System.update_sessions (fun _ session => ∀ record ∈ state.db.jobs,
      ∀ token ∈ session.tokens, record.job.lockToken = some token → session.Knows record) ?_
      fun other _ => fenced.knows other
    intro record member token held carried
    have before := fenced.knows sid record member
    have below := (fenced.base.sound record member).token_lt token carried
    generalize running : state.sessions sid = session at advance before
    cases advance with
    | claim selected drawn =>
      obtain ⟨row, listed, rfl⟩ := List.mem_map.mp held
      rw [drawn row listed] at below
      exact absurd below (Nat.not_lt.mpr (Nat.le_add_right ..))
    | select =>
      rw [handingOver_tokens] at held
      have fact := before token ((claimedTasks_written _ _ _ _).subset held) carried
      exact handingOver_knows fact.1 fun task listed twin =>
        claimedTasks_known fenced.base.distinct member fact listed twin
    | passFirst | handled | passSecond => exact before token held carried
    | _ => cases held

theorem Fenced.commit (fenced : Fenced state) {next : Session} {patch : Patch}
    (commits : Commits state sid next patch) (base : Base (state.commit sid next patch)) :
    Fenced (state.commit sid next patch) := by
  have leaves := commits.leaves
  have kept := leaves.tokens
  refine ⟨base, ?_, fenced.separate_update ?_, ?_, ?_⟩
  · refine System.update_sessions (fun _ session => session.Carries) ?_ fun other _ =>
      fenced.carries other
    have before := fenced.carries sid
    generalize state.sessions sid = session at leaves before
    cases leaves with
    | started => exact before
    | _ => trivial
  · intro other different token held member
    exact different (fenced.separate other sid token held (kept member))
  · refine System.update_sessions (fun _ session => session.tokens.Nodup) ?_ fun other _ =>
      fenced.unrepeated other
    have before := fenced.unrepeated sid
    generalize state.sessions sid = session at leaves before
    cases leaves with
    | done => exact List.nodup_nil
    | _ => exact before
  · refine System.update_sessions (fun _ session => ∀ record ∈ (state.db.apply patch).jobs,
      ∀ token ∈ session.tokens, record.job.lockToken = some token → session.Knows record) ?_ ?_
    · intro record member token held carried
      rcases commits.origin member with ⟨old, present, _, _, move⟩ | ⟨job, inserted, rfl⟩
      · exact leaves.knows move (fenced.base.armed sid) (fenced.unrepeated sid)
          (fenced.carries sid) (fenced.knows sid old present) held carried
      · exact absurd carried (commits.inserted_free inserted token)
    · intro other different record member token held carried
      rcases commits.origin member with ⟨old, present, _, _, move⟩ | ⟨job, inserted, rfl⟩
      · refine move.knows (fenced.base.sound old present) (fenced.carries sid) carried ?_
          (fenced.knows other old present token held)
        intro own
        exact different (fenced.separate other sid token held own)
      · exact absurd carried (commits.inserted_free inserted token)

/-- Steps which publish nothing about jobs. -/
theorem Fenced.relax (fenced : Fenced state) (base : Base after)
    (jobs : after.db.jobs = state.db.jobs)
    (sessions : ∀ sid, after.sessions sid = state.sessions sid ∨ after.sessions sid = .idle) :
    Fenced after := by
  have kept : ∀ {sid token}, token ∈ (after.sessions sid).tokens →
      after.sessions sid = state.sessions sid := by
    intro sid token member
    rcases sessions sid with same | idle
    · exact same
    · rw [idle] at member
      cases member
  refine ⟨base, ?_, ?_, ?_, ?_⟩
  · intro sid
    rcases sessions sid with same | idle
    · rw [same]
      exact fenced.carries sid
    · rw [idle]
      trivial
  · intro first second token left right
    have one := kept left
    have two := kept right
    rw [one] at left
    rw [two] at right
    exact fenced.separate first second token left right
  · intro sid
    rcases sessions sid with same | idle
    · rw [same]
      exact fenced.unrepeated sid
    · rw [idle]
      exact List.nodup_nil
  · intro sid record member token held carried
    rw [jobs] at member
    have same := kept held
    rw [same] at held ⊢
    exact fenced.knows sid record member token held carried

/-- After a submission each token is with the session which had it, or was among the
tokens of the worker's hand-over. -/
theorem handed_tokens {newSid : Sid} {workerId : Uuid} {task : Task} {rest : List Task}
    (handing : state.sessions sid = .handing workerId (task :: rest)) :
    ∀ other, ∀ token ∈ ((state.handed sid newSid workerId task rest).sessions other).tokens,
      ∃ owner, token ∈ (state.sessions owner).tokens ∧
        (owner = sid ∧ (other = newSid ∧ token = task.written ∨
          other = sid ∧ token ∈ rest.map Task.written) ∨ owner = other ∧ other ≠ sid) := by
  have handed : (state.sessions sid).tokens = task.written :: rest.map Task.written := by
    rw [handing]
    rfl
  refine System.handed_forall (fun other session => ∀ token ∈ session.tokens,
    ∃ owner, token ∈ (state.sessions owner).tokens ∧
      (owner = sid ∧ (other = newSid ∧ token = task.written ∨
        other = sid ∧ token ∈ rest.map Task.written) ∨ owner = other ∧ other ≠ sid)) ?_ ?_ ?_
  · intro token member
    cases List.mem_singleton.mp member
    exact ⟨sid, handed ▸ List.mem_cons_self, .inl ⟨rfl, .inl ⟨rfl, rfl⟩⟩⟩
  · intro token member
    rw [handingOver_tokens] at member
    exact ⟨sid, handed ▸ List.mem_cons_of_mem _ member, .inl ⟨rfl, .inr ⟨rfl, member⟩⟩⟩
  · intro other different token member
    exact ⟨other, member, .inr ⟨rfl, different⟩⟩

theorem Fenced.submit (fenced : Fenced state) {newSid : Sid} {workerId : Uuid} {task : Task}
    {rest : List Task} (handing : state.sessions sid = .handing workerId (task :: rest))
    (base : Base (state.handed sid newSid workerId task rest)) :
    Fenced (state.handed sid newSid workerId task rest) := by
  have carries := fenced.carries sid
  have unrepeated := fenced.unrepeated sid
  have knows := fenced.knows sid
  rw [handing] at carries unrepeated knows
  obtain ⟨first, remaining⟩ := List.nodup_cons.mp unrepeated
  refine ⟨base, ?_, ?_, ?_, ?_⟩
  · refine System.handed_forall (fun _ session => session.Carries) ?_ ?_ ?_
    · exact carries task List.mem_cons_self
    · exact handingOver_carries fun task listed => carries task (List.mem_cons_of_mem _ listed)
    · exact fun other _ => fenced.carries other
  · intro left right token one two
    obtain ⟨owner, held, from_left⟩ := handed_tokens handing left token one
    obtain ⟨rival, taken, from_right⟩ := handed_tokens handing right token two
    have same := fenced.separate owner rival token held taken
    subst same
    -- The hand-over holds the submitted token once, and no other session holds it.
    rcases from_left with ⟨rfl, ⟨rfl, rfl⟩ | ⟨rfl, listed⟩⟩ | ⟨rfl, apart⟩ <;>
      rcases from_right with ⟨twin, ⟨rfl, again⟩ | ⟨rfl, present⟩⟩ | ⟨twin, beside⟩
    · rfl
    · exact absurd present first
    · exact absurd twin.symm beside
    · exact absurd (again ▸ listed) first
    · rfl
    · exact absurd twin.symm beside
    · exact absurd twin apart
    · exact absurd twin apart
    · exact twin
  · refine System.handed_forall (fun _ session => session.tokens.Nodup) ?_ ?_ ?_
    · exact List.nodup_singleton _
    · rw [handingOver_tokens]
      exact remaining
    · exact fun other _ => fenced.unrepeated other
  · intro other record member token held carried
    refine System.handed_forall (fun _ session =>
      token ∈ session.tokens → session.Knows record) ?_ ?_ ?_ other held
    · intro own
      cases List.mem_singleton.mp own
      have fact := knows record member task.written List.mem_cons_self carried
      exact ⟨fact.1, fact.2 task List.mem_cons_self carried⟩
    · intro own
      rw [handingOver_tokens] at own
      have fact := knows record member token (List.mem_cons_of_mem _ own) carried
      exact handingOver_knows fact.1 fun task listed =>
        fact.2 task (List.mem_cons_of_mem _ listed)
    · exact fun other _ own => fenced.knows other record member token own carried

/-- A task with a token of its own never passes a guard by a null token. -/
theorem Fenced.guards (fenced : Fenced state) (action : Action) : GuardsToken state action := by
  unfold GuardsToken
  split
  · rename_i sid _
    split
    · rename_i task running
      have carries := fenced.carries sid
      rw [running] at carries
      intro none
      rw [show task.token = some task.written from carries] at none
      cases none
    · trivial
  · trivial

theorem Fenced.rollback (fenced : Fenced state) : Fenced (state.rollback sid) := by
  refine fenced.relax fenced.base.rollback rfl ?_
  intro other
  by_cases same : other = sid
  · subst same
    exact .inr (Function.update_self ..)
  · exact .inl (Function.update_of_ne same ..)

theorem Fenced.performs (fenced : Fenced state) (base : Base after)
    (hands : ∀ workerId rows, state.sessions sid = .claimCommitted workerId rows →
      ∀ task ∈ claimedTasks env.handover state.db workerId rows, task.token = some task.written)
    (performs : Performs env state sid after) : Fenced after := by
  cases performs with
  | hold advance => exact fenced.hold advance hands base
  | commit commits => exact fenced.commit commits base
  | rollback => exact fenced.rollback

theorem Fenced.step (fenced : Fenced state) {action : Action} (hands : HandsOwn env state action)
    (taken : Pulse.step env state action = some after) : Fenced after := by
  have base := fenced.base.step (fenced.guards action) taken
  cases step_cases fenced.base (fenced.guards action) taken with
  | begin idle performs =>
    refine fenced.performs base ?_ performs
    intro workerId rows running
    rw [idle] at running
    cases running
  | next _ performs =>
    refine fenced.performs base ?_ performs
    intro workerId rows running
    simpa [HandsOwn, running] using hands
  | fail => exact fenced.rollback
  | submit handing => exact fenced.submit handing base
  | exit => exact fenced.relax base rfl fun _ => .inl rfl
  | reregister => exact fenced.relax base rfl fun _ => .inl rfl

end Steps

theorem initial_fenced : Fenced {} where
  base := initial_base
  carries := fun _ => trivial
  separate := fun _ _ _ member => nomatch member
  unrepeated := fun _ => List.nodup_nil
  knows := fun _ _ member => nomatch member

theorem Fenced.reachable {env : Environment} {state : System}
    (reachable : (pulse env).Reachable (HandsOwn env) state) : Fenced state :=
  reachable.invariant (fun _ initial => initial ▸ initial_fenced)
    fun _ _ _ fenced hands taken => fenced.step hands taken

/-- A claim which returns what it wrote hands every task its own token. -/
theorem returning_hands {env : Environment} (returning : env.handover = .returning)
    (state : System) (action : Action) : HandsOwn env state action := by
  unfold HandsOwn
  split
  · split
    · rw [returning]
      intro task listed
      obtain ⟨row, _, rfl⟩ := List.mem_map.mp listed
      rfl
    · trivial
  · trivial

theorem Fenced.of_returning {env : Environment} (returning : env.handover = .returning)
    {allowed : System → Action → Prop} {state : System}
    (reachable : (pulse env).Reachable allowed state) : Fenced state := by
  have hands : (pulse env).Reachable (HandsOwn env) state :=
    reachable.weaken (fun _ _ => trivial) fun state action _ _ =>
      returning_hands returning state action
  exact Fenced.reachable hands

end Pulse
