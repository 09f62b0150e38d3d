import Pulse.History.Clock
import Pulse.Safety.Attempts

/-! Whether `list_executions` returns the history of a job oldest first. Its numbers start
again at 1 where `retry_job` or a replay resets the job. -/
namespace Pulse
open Library.Lts Library.Numbering

def JobExecution.stamp (execution : JobExecution) : Stamp Time :=
  ⟨execution.life, execution.attemptNumber, execution.startedAt⟩

namespace JobRecord

def stamps (record : JobRecord) : List (Stamp Time) :=
  record.executions.map JobExecution.stamp

/-- The history of a job: each of its lives which is over has made all attempts, the
current one has made some, and no attempt has started before an earlier one. -/
def Logged (record : JobRecord) : Prop :=
  Log record.job.maxAttempts record.resets record.stamps

/-- No execution has started after that time. -/
def StartedBy (record : JobRecord) (time : Time) : Prop :=
  ∀ stamp ∈ record.stamps, stamp.time ≤ time

variable {record : JobRecord}

theorem stamps_map {f : JobExecution → JobExecution} (keeps : ∀ row, (f row).stamp = row.stamp) :
    ({ record with executions := record.executions.map f } : JobRecord).stamps = record.stamps := by
  have same : JobExecution.stamp ∘ f = JobExecution.stamp := funext keeps
  rw [stamps, List.map_map, same]
  rfl

theorem stamps_onExecution {executionId : Uuid} {f : JobExecution → JobExecution}
    (keeps : ∀ row, (f row).stamp = row.stamp) :
    (record.onExecution executionId f).stamps = record.stamps := by
  refine stamps_map fun row => ?_
  unfold onId
  split
  · exact keeps row
  · rfl

theorem stamps_chargeAttempt (now : Time) (executionId : Uuid) (attempt : Nat) (durationMs : Int)
    (errorType errorMessage : String) :
    (record.chargeAttempt now executionId attempt durationMs errorType errorMessage).stamps =
      record.stamps :=
  stamps_onExecution (f := fun execution => { execution with
    status := .failed, errorType := some errorType, errorMessage := some errorMessage,
    finishedAt := some now, durationMs := some durationMs }) fun _ => rfl

theorem stamps_chargeLost (now : Time) : (record.chargeLost now).stamps = record.stamps :=
  stamps_map fun row => by split <;> rfl

theorem stamps_start (now : Time) (executionId : Uuid) (attempt : Nat) :
    (record.start now executionId attempt).stamps = record.stamps ++ [⟨record.resets, attempt, now⟩] := by
  simp [stamps, start, JobExecution.stamp]

/-- The numbers of the current life are those of its executions. -/
theorem numbers_current :
    numbers record.stamps record.resets = record.runs.map JobExecution.attemptNumber := by
  rw [numbers, stamps, List.filter_map, List.map_map]
  rfl

end JobRecord

/-- What a commit does to the history of a job. -/
inductive Writes (state : System) (session : Session) (record after : JobRecord) : Prop where
  | keep (stamps : after.stamps = record.stamps) (resets : after.resets = record.resets)
  | start {task now} (starting : session = .starting task) (same : record.job.id = task.jobId)
      (token : record.job.lockToken = task.token)
      (made : after = record.start now (state.draw task.jobId) task.attempt)
  | reset (dead : record.job.status = .dead) (stamps : after.stamps = record.stamps)
      (resets : after.resets = record.resets + 1)

section Moves
variable {state : System} {session : Session} {record after : JobRecord}

theorem Move.writes (move : Move state session record after)
    (sound : record.Sound state.nextUuid) : Writes state session record after := by
  cases move with
  | keep => exact .keep rfl rfl
  | @detach _ id =>
    unfold JobRecord.detach
    split <;> exact .keep rfl rfl
  | start same token => exact .start rfl same token rfl
  | complete => exact .keep (JobRecord.stamps_onExecution fun _ => rfl) rfl
  | @backoff task | @bury task =>
    exact .keep (JobRecord.stamps_chargeAttempt _ _ task.attempt ..) rfl
  | requeueLost | buryLost => exact .keep (JobRecord.stamps_chargeLost _) rfl
  | @write _ write => cases write.change <;> exact .keep rfl rfl
  | claim | requeueClaimed | unassign | cancel => exact .keep rfl rfl
  | retry _ retryable =>
    refine .reset ?_ rfl rfl
    have live := sound.notFailed
    cases status : record.job.status <;> simp_all [JobStatus.retryable]
  | replay _ dead => exact .reset dead rfl rfl

/-- Every commit goes on with the history, where a start is not read off the clock before
the starts so far. -/
theorem Writes.logged (writes : Writes state session record after) (carries : session.Carries)
    (knows : ∀ token ∈ session.tokens, record.job.lockToken = some token → session.Knows record)
    (account : record.Account) (limit : after.job.maxAttempts = record.job.maxAttempts)
    (logged : record.Logged)
    (timed : ∀ task now, session = .starting task → record.job.id = task.jobId →
      record.job.lockToken = task.token →
      after = record.start now (state.draw task.jobId) task.attempt → record.StartedBy now) :
    after.Logged := by
  have length : (numbers record.stamps record.resets).length =
      record.job.attempts + record.uncharged.length := by
    rw [JobRecord.numbers_current, List.length_map, account.runs_length]
  unfold JobRecord.Logged
  rw [limit]
  cases writes with
  | keep stamps resets =>
    rw [stamps, resets]
    exact logged
  | @start task now starting same token made =>
    have earlier := timed task now starting same token made
    subst starting made
    obtain ⟨claimed, _, attempt⟩ := Session.knows_own rfl token carries knows
    have bounded := account.bounded (by simp [claimed])
    have waiting : record.uncharged = [] := by simp [JobRecord.uncharged, claimed]
    rw [waiting, List.length_nil, Nat.add_zero] at length
    rw [JobRecord.stamps_start]
    refine logged.append rfl ?_ ?_ earlier
    · rw [length, attempt]
    · rw [attempt]
      exact bounded
  | reset dead stamps resets =>
    have waiting : record.uncharged = [] := by simp [JobRecord.uncharged, dead]
    rw [stamps, resets]
    refine logged.turn ?_
    rw [length, waiting, account.spent dead]
    rfl

/-- A commit which leaves a job with a token that is none of its own leaves its history. -/
theorem Move.carried_stamps (move : Move state session record after)
    (sound : record.Sound state.nextUuid) (carries : session.Carries) {token : Uuid}
    (carried : after.job.lockToken = some token) (foreign : token ∉ session.tokens) :
    record.job.lockToken = some token ∧ after.stamps = record.stamps := by
  obtain ⟨held, rfl | rfl | ⟨id, rfl⟩⟩ := move.carried sound carries carried foreign
  · exact ⟨held, rfl⟩
  · exact ⟨held, rfl⟩
  · refine ⟨held, ?_⟩
    unfold JobRecord.detach
    split <;> rfl

end Moves

/-! Along a run. -/

/-- The `_execute` of a session which has not committed its first transaction. -/
def Session.unstarted : Session → Option Task
  | .execute task | .starting task => some task
  | _ => none

namespace History

/-- Every history is in order, and whoever may still start a job has read the clock after
all of its starts so far. -/
structure Chronicled (state : System) (clock : Clock) : Prop where
  fenced : Fenced state
  accounted : Accounted state
  logged : ∀ record ∈ state.db.jobs, record.Logged
  elapsed : ∀ record ∈ state.db.jobs, record.StartedBy clock.now
  read : ∀ sid time, clock.startedAt sid = some time → time ≤ clock.now
  ahead : ∀ sid task time, (state.sessions sid).unstarted = some task →
    clock.startedAt sid = some time → ∀ record ∈ state.db.jobs,
      record.job.lockToken = some task.written → record.StartedBy time

section Sessions
variable {env : Environment} {state : System} {session next : Session} {locks : List Lock}
  {task : Task}

theorem unstarted_tokens (unstarted : session.unstarted = some task) :
    session.tokens = [task.written] := by
  cases session with
  | execute | starting =>
    cases Option.some.inj unstarted
    rfl
  | _ => cases unstarted

theorem unstarted_handingOver (workerId : Uuid) (tasks : List Task) :
    (handingOver workerId tasks).unstarted = none := by
  unfold handingOver
  split <;> rfl

/-- Only `_execute` comes to its first transaction. -/
theorem advance_unstarted (advance : Advance env state session next locks)
    (unstarted : next.unstarted = some task) : session.unstarted = some task := by
  cases advance with
  | select =>
    rw [unstarted_handingOver] at unstarted
    cases unstarted
  | passFirst => exact unstarted
  | _ => cases unstarted

theorem idle_unstarted (task : Task) (unstarted : Session.idle.unstarted = some task) :
    session.unstarted = some task := by
  cases unstarted

theorem leaves_unstarted (leaves : Leaves state session next) : next.unstarted = none := by
  cases leaves <;> rfl

end Sessions

section Steps
variable {env : Environment} {state after : System} {clock : Clock} {sid : Sid}

/-- The first transaction of `_execute` writes a time of which that holds. -/
def Stamps (state : System) (sid : Sid) (holds : Task → Time → Prop) (after : System) : Prop :=
  ∀ task, state.sessions sid = .starting task → ∀ record ∈ after.db.jobs,
    record.job.id = task.jobId → ∃ time, record.job.startedAt = some time ∧ holds task time

theorem Stamps.started {holds : Task → Time → Prop} (stamps : Stamps state sid holds after)
    {task : Task} (starting : state.sessions sid = .starting task) {old record : JobRecord}
    (member : record ∈ after.db.jobs) (same : old.job.id = task.jobId) {now : Time}
    (made : record = old.start now (state.draw task.jobId) task.attempt) : holds task now := by
  subst made
  obtain ⟨time, written, holds⟩ := stamps task starting _ member same
  cases Option.some.inj (show some now = some time from written)
  exact holds

section Commit
variable {next : Session} {patch : Patch} (chronicled : Chronicled state clock)
  (commits : Commits state sid next patch)
  (stamps : Stamps state sid (fun _ time => clock.startedAt sid = some time)
    (state.commit sid next patch)) {record : JobRecord}
  (member : record ∈ (state.db.apply patch).jobs)
include chronicled commits

include stamps member in
/-- A start is stamped with what its session has read since it got the job. -/
theorem Chronicled.commit_logged : record.Logged := by
  rcases commits.origin member with ⟨old, present, _, _, move⟩ | ⟨job, inserted, rfl⟩
  · have carries := chronicled.fenced.carries sid
    refine (move.writes (chronicled.fenced.base.sound old present)).logged carries
      (chronicled.fenced.knows sid old present) (chronicled.accounted old present).1
      move.maxAttempts (chronicled.logged old present) ?_
    intro task now starting same token made
    have read := stamps.started starting member same made
    rw [starting] at carries
    exact chronicled.ahead sid task now (by rw [starting]; rfl) read old present
      (token.trans carries)
  · exact log_nil

include stamps member in
theorem Chronicled.commit_elapsed : record.StartedBy clock.now := by
  rcases commits.origin member with ⟨old, present, _, _, move⟩ | ⟨job, inserted, rfl⟩
  · have before := chronicled.elapsed old present
    unfold JobRecord.StartedBy at before ⊢
    cases move.writes (chronicled.fenced.base.sound old present) with
    | keep same | reset _ same =>
      rw [same]
      exact before
    | @start task now starting same token made =>
      rw [made, JobRecord.stamps_start]
      intro stamp listed
      rcases List.mem_append.mp listed with earlier | new
      · exact before stamp earlier
      · rw [List.mem_singleton.mp new]
        exact chronicled.read sid now (stamps.started starting member same made)
  · intro stamp listed
    cases listed

include member in
/-- No other session may start the job which a session still owns. -/
theorem Chronicled.commit_ahead {other : Sid} (different : other ≠ sid) {task : Task} {time : Time}
    (unstarted : (state.sessions other).unstarted = some task)
    (read : clock.startedAt other = some time) (carried : record.job.lockToken = some task.written) :
    record.StartedBy time := by
  rcases commits.origin member with ⟨old, present, _, _, move⟩ | ⟨job, inserted, rfl⟩
  · have held : task.written ∈ (state.sessions other).tokens := by
      simp [unstarted_tokens unstarted]
    have foreign : task.written ∉ (state.sessions sid).tokens := fun mine =>
      different (chronicled.fenced.separate other sid task.written held mine)
    obtain ⟨token, same⟩ := move.carried_stamps (chronicled.fenced.base.sound old present)
      (chronicled.fenced.carries sid) carried foreign
    have before := chronicled.ahead other task time unstarted read old present token
    unfold JobRecord.StartedBy at before ⊢
    rw [same]
    exact before
  · exact absurd carried (commits.inserted_free inserted task.written)

include stamps in
theorem Chronicled.commit (fenced : Fenced (state.commit sid next patch))
    (accounted : Accounted (state.commit sid next patch)) :
    Chronicled (state.commit sid next patch) clock where
  fenced := fenced
  accounted := accounted
  logged := fun _ member => chronicled.commit_logged commits stamps member
  elapsed := fun _ member => chronicled.commit_elapsed commits stamps member
  read := chronicled.read
  ahead := by
    intro other task time unstarted read record member carried
    rw [System.commit_sessions] at unstarted
    by_cases own : other = sid
    · rw [own, Function.update_self, leaves_unstarted commits.leaves] at unstarted
      cases unstarted
    · rw [Function.update_of_ne own] at unstarted
      exact chronicled.commit_ahead commits member own unstarted read carried

end Commit

/-- A step which publishes nothing about jobs and brings no `_execute` to its first
transaction. -/
theorem Chronicled.relax (chronicled : Chronicled state clock) (fenced : Fenced after)
    (accounted : Accounted after) (jobs : after.db.jobs = state.db.jobs)
    (unstarted : ∀ other task, (after.sessions other).unstarted = some task →
      (state.sessions other).unstarted = some task) : Chronicled after clock where
  fenced := fenced
  accounted := accounted
  logged := by rw [jobs]; exact chronicled.logged
  elapsed := by rw [jobs]; exact chronicled.elapsed
  read := chronicled.read
  ahead := by
    intro other task time running
    rw [jobs]
    exact chronicled.ahead other task time (unstarted other task running)

theorem update_unstarted {next : Session}
    (own : ∀ task, next.unstarted = some task → (state.sessions sid).unstarted = some task) :
    ∀ other task, (Function.update state.sessions sid next other).unstarted = some task →
      (state.sessions other).unstarted = some task := by
  intro other task
  by_cases same : other = sid
  · rw [same, Function.update_self]
    exact own task
  · rw [Function.update_of_ne same]
    exact id

theorem Chronicled.performs (chronicled : Chronicled state clock) (fenced : Fenced after)
    (accounted : Accounted after)
    (stamps : Stamps state sid (fun _ time => clock.startedAt sid = some time) after)
    (performs : Performs env state sid after) : Chronicled after clock := by
  cases performs with
  | hold advance =>
    exact chronicled.relax fenced accounted rfl
      (update_unstarted fun task => advance_unstarted advance)
  | commit commits => exact chronicled.commit commits stamps fenced accounted
  | rollback => exact chronicled.relax fenced accounted rfl (update_unstarted idle_unstarted)

/-- What the first transaction writes is the time which it is given. -/
theorem next_stamps {holds : Task → Time → Prop} {input : Input}
    (taken : Pulse.step env state (.next sid input) = some after)
    (meets : ∀ task, state.sessions sid = .starting task → holds task input.now) :
    Stamps state sid holds after := by
  intro task starting record member same
  refine ⟨input.now, ?_, meets task starting⟩
  cases step_inverted taken with
  | next _ made performed =>
    rw [starting] at made
    simp only [Session.effect, startEffect] at made
    split at made
    · cases made
    · cases Option.some.inj made
      obtain ⟨_, rfl⟩ := System.perform_commit performed
      rcases mem_apply_jobs.mp member with ⟨old, _, _, rfl⟩ | ⟨job, inserted, _⟩
      · dsimp only at same ⊢
        by_cases own : old.job.id = task.jobId
        · rw [onJob_same own]
          rfl
        · rw [onJob_other own] at same
          exact absurd same own
      · cases inserted

theorem idle_stamps {holds : Task → Time → Prop} (idle : state.sessions sid = .idle) :
    Stamps state sid holds after := by
  intro task starting
  rw [idle] at starting
  cases starting

/-- What a session has read, once that of one session is replaced. -/
theorem update_startedAt {newSid other : Sid} {value : Option Time} {time : Time}
    (read : Function.update clock.startedAt newSid value other = some time) :
    value = some time ∨ clock.startedAt other = some time := by
  by_cases new : other = newSid
  · rw [new, Function.update_self] at read
    exact .inl read
  · rw [Function.update_of_ne new] at read
    exact .inr read

theorem Chronicled.submit (chronicled : Chronicled state clock) {newSid : Sid} {workerId : Uuid}
    {task : Task} {rest : List Task} (fenced : Fenced (state.handed sid newSid workerId task rest)) :
    Chronicled (state.handed sid newSid workerId task rest)
      { clock with startedAt := Function.update clock.startedAt newSid none } where
  fenced := fenced
  accounted := chronicled.accounted
  logged := chronicled.logged
  elapsed := chronicled.elapsed
  read := by
    intro other time read
    rcases update_startedAt read with new | old
    · cases new
    · exact chronicled.read other time old
  ahead := by
    intro other
    refine System.handed_forall (fun other session => ∀ task time, session.unstarted = some task →
      Function.update clock.startedAt newSid none other = some time → ∀ record ∈ state.db.jobs,
        record.job.lockToken = some task.written → record.StartedBy time) ?_ ?_ ?_ other
    · intro started time _ read
      rw [Function.update_self] at read
      cases read
    · intro started time unstarted
      rw [unstarted_handingOver] at unstarted
      cases unstarted
    · intro other _ started time unstarted read
      rcases update_startedAt read with new | old
      · cases new
      · exact chronicled.ahead other started time unstarted old

theorem Chronicled.act (chronicled : Chronicled state clock) {action : Action}
    (hands : HandsOwn env state action) (permitted : clock.permits state action = true)
    (taken : Pulse.step env state action = some after) :
    Chronicled after (clock.note action) := by
  have fenced := chronicled.fenced.step hands taken
  have accounted := chronicled.accounted.step chronicled.fenced taken
  cases step_cases chronicled.fenced.base (chronicled.fenced.guards action) taken with
  | begin idle performs => exact chronicled.performs fenced accounted (idle_stamps idle) performs
  | next _ performs =>
    refine chronicled.performs fenced accounted (next_stamps taken ?_) performs
    intro task starting
    simpa [Clock.permits, starting] using permitted
  | fail => exact chronicled.relax fenced accounted rfl (update_unstarted idle_unstarted)
  | submit => exact chronicled.submit fenced
  | exit | reregister => exact chronicled.relax fenced accounted rfl fun _ _ => id

/-- A step of the clock, or a reading of it. -/
theorem Chronicled.tick (chronicled : Chronicled state clock) {later : Clock}
    (forward : clock.now ≤ later.now)
    (reads : ∀ sid time, later.startedAt sid = some time →
      clock.startedAt sid = some time ∨ time = clock.now) : Chronicled state later where
  fenced := chronicled.fenced
  accounted := chronicled.accounted
  logged := chronicled.logged
  elapsed := fun record member stamp listed =>
    (chronicled.elapsed record member stamp listed).trans forward
  read := by
    intro sid time read
    rcases reads sid time read with old | rfl
    · exact (chronicled.read sid time old).trans forward
    · exact forward
  ahead := by
    intro sid task time unstarted read record member carried
    rcases reads sid time read with old | rfl
    · exact chronicled.ahead sid task time unstarted old record member carried
    · exact chronicled.elapsed record member

/-- Every re-read of claimed rows hands out the tokens which their claims wrote. -/
def Fences (env : Environment) (pair : System × Clock) : Move → Prop
  | .act action => HandsOwn env pair.1 action
  | _ => True

theorem Chronicled.step (chronicled : Chronicled state clock) {move : Move} {later : Clock}
    (fences : Fences env (state, clock) move)
    (taken : History.step env (state, clock) move = some (after, later)) :
    Chronicled after later := by
  cases step_moved taken with
  | pass forward => exact chronicled.tick (le_add_of_nonneg_right forward) fun _ _ => .inl
  | @read sid =>
    refine chronicled.tick le_rfl fun other time read => ?_
    rcases update_startedAt read with new | old
    · exact .inr (Option.some.inj new).symm
    · exact .inl old
  | act permitted stepped => exact chronicled.act fences permitted stepped

theorem initial_chronicled (now : Time) : Chronicled {} { now } where
  fenced := initial_fenced
  accounted := by
    intro record member
    cases member
  logged := by
    intro record member
    cases member
  elapsed := by
    intro record member
    cases member
  read := by
    intro sid time read
    cases read
  ahead := by
    intro sid task time unstarted
    cases unstarted

theorem Chronicled.reachable {pair : System × Clock}
    (reachable : (clocked env).Reachable (Fences env) pair) : Chronicled pair.1 pair.2 := by
  refine @Machine.Reachable.invariant _ _ (clocked env) (Fences env)
    (fun pair => Chronicled pair.1 pair.2) ?_ ?_ pair reachable
  · rintro ⟨_, _⟩ ⟨rfl, now, rfl⟩
    exact initial_chronicled now
  · rintro ⟨state, clock⟩ move ⟨after, later⟩ chronicled fences taken
    exact chronicled.step fences taken

/-! The condition. -/

instance (env : Environment) (pair : System × Clock) :
    (move : Move) → Decidable (Fences env pair move)
  | .act _ => inferInstanceAs (Decidable (HandsOwn ..))
  | .pass _ | .read _ => isTrue trivial

/-- The task whose first transaction is about to commit. -/
def opens : Session → Option Task
  | .starting task => some task
  | _ => none

/-- No job is started again after it was reset, but at the time of all starts before. -/
def OneLife (state : System) : Action → Prop
  | .next sid input => ∀ task ∈ opens (state.sessions sid), ∀ record ∈ state.db.jobs,
    record.job.id = task.jobId → ∀ execution ∈ record.past, execution.startedAt = input.now
  | _ => True

instance (state : System) : (action : Action) → Decidable (OneLife state action)
  | .next _ _ => inferInstanceAs (Decidable (∀ task ∈ opens _, _))
  | .begin .. | .fail .. | .submit .. | .exit .. | .reregister .. => isTrue trivial

/-- Every step of a run fences and starts no job again after it was reset. -/
def StartsOnce (env : Environment) (pair : System × Clock) : Move → Prop
  | .act action => HandsOwn env pair.1 action ∧ OneLife pair.1 action
  | _ => True

instance (env : Environment) (pair : System × Clock) :
    (move : Move) → Decidable (StartsOnce env pair move)
  | .act _ => inferInstanceAs (Decidable (_ ∧ _))
  | .pass _ | .read _ => isTrue trivial

/-- The lives of each job have all been started at one time. -/
def StartedTogether (state : System) : Prop :=
  ∀ record ∈ state.db.jobs, Alike record.stamps

theorem startedTogether_performs (chronicled : Chronicled state clock) (alike : StartedTogether state)
    (stamps : Stamps state sid (fun task time => ∀ record ∈ state.db.jobs,
      record.job.id = task.jobId → ∀ execution ∈ record.past, execution.startedAt = time) after)
    (performs : Performs env state sid after) : StartedTogether after := by
  cases performs with
  | hold | rollback => exact alike
  | commit commits =>
    intro record member
    rcases commits.origin member with ⟨old, present, _, _, move⟩ | ⟨job, inserted, rfl⟩
    · have before := alike old present
      cases move.writes (chronicled.fenced.base.sound old present) with
      | keep same | reset _ same =>
        rw [same]
        exact before
      | @start task now starting same token made =>
        have once := stamps.started starting member same made old present same
        rw [made, JobRecord.stamps_start]
        refine before.append (chronicled.logged old present).upTo ?_
        intro stamp listed earlier
        obtain ⟨execution, there, rfl⟩ := List.mem_map.mp listed
        have older : execution.life ≠ old.resets := Nat.ne_of_lt earlier
        exact once execution (List.mem_filter.mpr ⟨there, by simpa using older⟩)
    · intro first listed
      cases listed

theorem startedTogether_step (chronicled : Chronicled state clock) (alike : StartedTogether state)
    {action : Action} (once : OneLife state action)
    (taken : Pulse.step env state action = some after) : StartedTogether after := by
  cases step_cases chronicled.fenced.base (chronicled.fenced.guards action) taken with
  | begin idle performs => exact startedTogether_performs chronicled alike (idle_stamps idle) performs
  | next _ performs =>
    refine startedTogether_performs chronicled alike (next_stamps taken ?_) performs
    intro task starting
    exact once task (by rw [starting]; rfl)
  | _ => exact alike

theorem startedTogether_reachable {pair : System × Clock}
    (reachable : (clocked env).Reachable (StartsOnce env) pair) :
    Chronicled pair.1 pair.2 ∧ StartedTogether pair.1 := by
  refine @Machine.Reachable.invariant _ _ (clocked env) (StartsOnce env)
    (fun pair => Chronicled pair.1 pair.2 ∧ StartedTogether pair.1) ?_ ?_ pair reachable
  · rintro ⟨_, _⟩ ⟨rfl, now, rfl⟩
    refine ⟨initial_chronicled now, ?_⟩
    intro record member
    cases member
  · rintro ⟨state, clock⟩ move ⟨after, later⟩ ⟨chronicled, alike⟩ once taken
    have fences : Fences env (state, clock) move := by
      cases move with
      | act => exact once.1
      | _ => trivial
    refine ⟨chronicled.step fences taken, ?_⟩
    cases step_moved taken with
    | pass | read => exact alike
    | act _ stepped => exact startedTogether_step chronicled alike once.2 stepped

/-- The listings of a job are in the order of time if and only if its lives were all
started at one time. -/
theorem chronological_iff {db : Db} {jobId : Uuid} {record : JobRecord}
    (found : db.findJob jobId = some record) (logged : record.Logged) :
    (∀ rows, ListsExecutions db jobId rows → Chronological rows) ↔ Alike record.stamps := by
  have listed : ∀ rows, ListsExecutions db jobId rows ↔
      Arranged JobExecution.attemptNumber record.executions rows := by
    intro rows
    simp [ListsExecutions, found]
  have arranged : (∀ rows, Arranged JobExecution.attemptNumber record.executions rows →
      Chronological rows) ↔ ∀ first ∈ record.executions, ∀ second ∈ record.executions,
        first.attemptNumber ≤ second.attemptNumber → first.startedAt ≤ second.startedAt :=
    arranged_iff
  simp only [listed]
  rw [arranged, ← Log.exact logged]
  simp [JobRecord.stamps, JobExecution.stamp]

end Steps

/-- In a run whose re-reads hand out the tokens which their claims wrote, the rows of a job
come back oldest first, however the database arranges those with one number, if and only
if no life of the job was started at another time than an earlier one; so they do in
every run which starts no job again after it was reset. -/
theorem history_exact {env : Environment} :
    (∀ pair, (clocked env).Reachable (StartsOnce env) pair → ∀ jobId rows,
      ListsExecutions pair.1.db jobId rows → Chronological rows) ∧
    ∀ pair, (clocked env).Reachable (Fences env) pair → ∀ jobId record,
      pair.1.db.findJob jobId = some record →
        ((∀ rows, ListsExecutions pair.1.db jobId rows → Chronological rows) ↔
          ∀ first ∈ record.executions, ∀ second ∈ record.executions, first.life < second.life →
            first.startedAt = second.startedAt) := by
  constructor
  · intro pair reachable jobId rows lists
    obtain ⟨chronicled, alike⟩ := startedTogether_reachable reachable
    have ⟨record, found, _⟩ := lists
    obtain ⟨present, _⟩ := Db.findJob_some found
    exact (chronological_iff found (chronicled.logged record present)).mpr (alike record present)
      rows lists
  · intro pair reachable jobId record found
    obtain ⟨present, _⟩ := Db.findJob_some found
    have logged := (Chronicled.reachable reachable).logged record present
    rw [chronological_iff found logged]
    simp [Alike, JobRecord.stamps, JobExecution.stamp]

/-! A job with two attempts, which fail, and which is then retried. -/

def twoAttempts : List Move := [
  .act (.begin 0 (.api 0 (.createQueue { projectId := 0, name := "default" }))),
  .act (.begin 0 (.api 0 .registerWorker)),
  .act (.begin 0 (.api 0 (.createJob {
    queueId := 1, type := .immediate, handler := "noop", maxAttempts := some 2 })))]

/-- The job is claimed and an attempt of it starts. -/
def attempt (sid : Sid) (now : Time) : List Move := [
  .act (.begin 1 (.claimJobs 1 2 1 now)),
  .act (.next 1 { picked := [4] }),
  .act (.next 1 {}),
  .act (.next 1 {}),
  .act (.submit 1 sid),
  .read sid,
  .act (.next sid {}),
  .act (.next sid { now })]

/-- The handler of the attempt raises. -/
def raise (sid : Sid) (now : Time) : List Move := [
  .act (.next sid { outcome := .failure "RuntimeError" "boom" }),
  .act (.next sid {}),
  .act (.next sid { now })]

/-- A scheduler tick requeues the job after its backoff. -/
def requeue (now : Time) : List Move := [
  .act (.begin 3 (.tick now)),
  .act (.next 3 {}),
  .act (.next 3 {}),
  .act (.next 3 { jobId := 4 }),
  .act (.next 3 {}),
  .act (.next 3 {}),
  .act (.next 3 {})]

def failedTwice : List Move :=
  twoAttempts ++ attempt 10 0 ++ raise 10 0 ++ [.pass 50] ++ requeue 50 ++ attempt 11 50 ++ raise 11 50

/-- `retry_job` resets the dead job, which starts again. -/
def retried : List Move := failedTwice ++ [
  .pass 50,
  .act (.begin 2 (.retryJob 4)),
  .act (.next 2 {}),
  .act (.next 2 { now := 100 })] ++ attempt 12 100

/-- The engine with the re-reads of the source. -/
abbrev rereads : Environment := sample .reread

theorem history_exact_retried :
    (∃ pair, (clocked rereads).Reachable (StartsOnce rereads) pair ∧
      (pair.1.db.findJob 4).any (fun record => record.executions.length = 2) = true ∧
      ∀ rows, ListsExecutions pair.1.db 4 rows → Chronological rows) ∧
    ∃ pair record, (clocked rereads).Reachable (Fences rereads) pair ∧
      pair.1.db.findJob 4 = some record ∧ record.executions.length = 3 ∧
      ((∀ rows, ListsExecutions pair.1.db 4 rows → Chronological rows) ↔
        ∀ first ∈ record.executions, ∀ second ∈ record.executions, first.life < second.life →
          first.startedAt = second.startedAt) := by
  constructor
  · have ran : ((clocked rereads).run (StartsOnce rereads) ({}, { now := 0 }) failedTwice).any
        (fun pair => (pair.1.db.findJob 4).any fun record => record.executions.length = 2) = true := by
      decide +kernel
    obtain ⟨pair, reachable, twice⟩ :=
      Machine.reachable_of_check (by exact ⟨rfl, 0, rfl⟩) failedTwice ran
    exact ⟨pair, reachable, twice, history_exact.1 pair reachable 4⟩
  · have ran : ((clocked rereads).run (Fences rereads) ({}, { now := 0 }) retried).any
        (fun pair => (pair.1.db.findJob 4).any fun record => record.executions.length = 3) = true := by
      decide +kernel
    obtain ⟨pair, reachable, thrice⟩ :=
      Machine.reachable_of_check (by exact ⟨rfl, 0, rfl⟩) retried ran
    obtain ⟨record, found, length⟩ := (Option.any_eq_true ..).mp thrice
    exact ⟨pair, record, reachable, found, by simpa using length,
      history_exact.2 pair reachable 4 record found⟩

/-- The first attempt after the retry comes back before the second one of the first life,
which started earlier, however the rows with one number are arranged. -/
theorem history_reordered : ∃ pair, (clocked rereads).Reachable (Fences rereads) pair ∧
    ∃ jobId, (∃ rows, ListsExecutions pair.1.db jobId rows) ∧
      ∀ rows, ListsExecutions pair.1.db jobId rows → ¬ Chronological rows := by
  have ran : ((clocked rereads).run (Fences rereads) ({}, { now := 0 }) retried).any (fun pair =>
      (pair.1.db.findJob 4).any fun record => record.executions.any fun first =>
        record.executions.any fun second => first.attemptNumber < second.attemptNumber &&
          second.startedAt < first.startedAt) = true := by
    decide +kernel
  obtain ⟨pair, reachable, passes⟩ := Machine.reachable_of_check (by exact ⟨rfl, 0, rfl⟩) retried ran
  obtain ⟨record, found, some_first⟩ := (Option.any_eq_true ..).mp passes
  obtain ⟨first, left, some_second⟩ := List.any_eq_true.mp some_first
  obtain ⟨second, right, both⟩ := List.any_eq_true.mp some_second
  simp only [Bool.and_eq_true, decide_eq_true_eq] at both
  have apart : first ≠ second := fun same => Nat.lt_irrefl _ (same ▸ both.1)
  refine ⟨pair, reachable, 4, ?_, ?_⟩
  · obtain ⟨rows, arranged, _⟩ := exists_arranged left right apart both.1.le
    exact ⟨rows, record, found, arranged⟩
  · rintro rows ⟨other, same, arranged⟩ chronological
    cases Option.some.inj (found.symm.trans same)
    exact absurd both.2 (not_lt_of_ge (arranged.le_of_lt chronological left right both.1))

end History
end Pulse
