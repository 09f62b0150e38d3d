import Pulse.System.Moves

/-! The invariants of one job with its executions and dead letters. -/
namespace Pulse

/-- The invariants of one job, all of whose ids are below the bound. -/
structure JobRecord.Sound (bound : Uuid) (record : JobRecord) : Prop where
  id_lt : record.job.id < bound
  token_lt : ∀ token, record.job.lockToken = some token → token < bound
  token : record.job.lockToken.isSome = record.job.status.inFlight
  notFailed : record.job.status ≠ .failed
  maxAttempts : 0 < record.job.maxAttempts
  executions : (record.executions.map JobExecution.id).Nodup
  execution_lt : ∀ execution ∈ record.executions, execution.id < bound
  letters : (record.deadLetters.map DeadLetterEntry.id).Nodup
  letter_lt : ∀ entry ∈ record.deadLetters, entry.id < bound

theorem Job.Fresh.sound {job : Job} {bound : Uuid} (fresh : job.Fresh) (id_lt : job.id < bound) :
    JobRecord.Sound bound { job } where
  id_lt := id_lt
  token_lt := by simp [fresh.lockToken]
  token := by rcases fresh.status with status | status <;> simp [fresh.lockToken, status,
    JobStatus.inFlight]
  notFailed := by rcases fresh.status with status | status <;> simp [status]
  maxAttempts := fresh.maxAttempts
  executions := by simp
  execution_lt := by simp
  letters := by simp
  letter_lt := by simp

theorem JobRecord.Sound.mono {record : JobRecord} {bound wider : Uuid}
    (sound : record.Sound bound) (within : bound ≤ wider) : record.Sound wider where
  id_lt := Nat.lt_of_lt_of_le sound.id_lt within
  token_lt := fun token held => Nat.lt_of_lt_of_le (sound.token_lt token held) within
  token := sound.token
  notFailed := sound.notFailed
  maxAttempts := sound.maxAttempts
  executions := sound.executions
  execution_lt := fun row member => Nat.lt_of_lt_of_le (sound.execution_lt row member) within
  letters := sound.letters
  letter_lt := fun row member => Nat.lt_of_lt_of_le (sound.letter_lt row member) within

/-- A job which is in no worker's hands carries no token. -/
theorem JobRecord.Sound.no_token {record : JobRecord} {bound : Uuid} (sound : record.Sound bound)
    (waiting : record.job.status.inFlight = false) : record.job.lockToken = none := by
  have token := sound.token
  rw [waiting] at token
  simpa using token

theorem JobStatus.parked_waiting {status : JobStatus} (parked : status.parked = true) :
    status.inFlight = false := by
  cases status <;> simp_all [JobStatus.parked, JobStatus.inFlight]

theorem JobStatus.cancellable_waiting {status : JobStatus} (cancellable : status.cancellable = true) :
    status.inFlight = false := by
  cases status <;> simp_all [JobStatus.cancellable, JobStatus.inFlight]

namespace JobRecord.Sound
variable {record : JobRecord} {bound : Uuid}

/-- A write of the job's columns which keeps its id and bound of attempts. -/
theorem withJob (sound : record.Sound bound) {job : Job} (same : job.id = record.job.id)
    (limit : job.maxAttempts = record.job.maxAttempts)
    (token_lt : ∀ token, job.lockToken = some token → token < bound)
    (token : job.lockToken.isSome = job.status.inFlight) (notFailed : job.status ≠ .failed) :
    JobRecord.Sound bound { record with job := job } where
  id_lt := by simpa [same] using sound.id_lt
  token_lt := token_lt
  token := token
  notFailed := notFailed
  maxAttempts := by simpa [limit] using sound.maxAttempts
  executions := sound.executions
  execution_lt := sound.execution_lt
  letters := sound.letters
  letter_lt := sound.letter_lt

/-- A write which leaves the job with no token. -/
theorem withIdle (sound : record.Sound bound) {job : Job} (same : job.id = record.job.id)
    (limit : job.maxAttempts = record.job.maxAttempts) (token : job.lockToken = none)
    (waiting : job.status.inFlight = false) (notFailed : job.status ≠ .failed) :
    JobRecord.Sound bound { record with job := job } :=
  sound.withJob same limit (by simp [token]) (by simp [token, waiting]) notFailed

/-- Executions may be changed where their ids stay. -/
theorem mapExecutions (sound : record.Sound bound) (f : JobExecution → JobExecution)
    (keeps : ∀ execution, (f execution).id = execution.id) :
    JobRecord.Sound bound { record with executions := record.executions.map f } where
  id_lt := sound.id_lt
  token_lt := sound.token_lt
  token := sound.token
  notFailed := sound.notFailed
  maxAttempts := sound.maxAttempts
  executions := by
    have unchanged : (JobExecution.id ∘ f) = JobExecution.id := funext keeps
    simpa [unchanged] using sound.executions
  execution_lt := by
    intro execution member
    obtain ⟨old, present, rfl⟩ := List.mem_map.mp member
    simpa [keeps] using sound.execution_lt old present
  letters := sound.letters
  letter_lt := sound.letter_lt

theorem mapLetters (sound : record.Sound bound) (f : DeadLetterEntry → DeadLetterEntry)
    (keeps : ∀ entry, (f entry).id = entry.id) :
    JobRecord.Sound bound { record with deadLetters := record.deadLetters.map f } where
  id_lt := sound.id_lt
  token_lt := sound.token_lt
  token := sound.token
  notFailed := sound.notFailed
  maxAttempts := sound.maxAttempts
  executions := sound.executions
  execution_lt := sound.execution_lt
  letters := by
    have unchanged : (DeadLetterEntry.id ∘ f) = DeadLetterEntry.id := funext keeps
    simpa [unchanged] using sound.letters
  letter_lt := by
    intro entry member
    obtain ⟨old, present, rfl⟩ := List.mem_map.mp member
    simpa [keeps] using sound.letter_lt old present

theorem onExecution (sound : record.Sound bound) (executionId : Uuid)
    {f : JobExecution → JobExecution} (keeps : ∀ execution, (f execution).id = execution.id) :
    (record.onExecution executionId f).Sound bound :=
  sound.mapExecutions _ fun execution => by
    unfold onId
    split
    · exact keeps execution
    · rfl

theorem consume (sound : record.Sound bound) (now : Time) (chosen : List Uuid) :
    (record.consume now chosen).Sound bound :=
  sound.mapLetters _ fun entry => by split <;> rfl

theorem chargeLost (sound : record.Sound bound) (now : Time) :
    (record.chargeLost now).Sound bound :=
  (sound.mapExecutions _ fun execution => by split <;> rfl).withJob rfl rfl sound.token_lt
    sound.token sound.notFailed

theorem chargeAttempt (sound : record.Sound bound) (now : Time) (executionId : Uuid)
    (attempt : Nat) (durationMs : Int) (errorType errorMessage : String) :
    (record.chargeAttempt now executionId attempt durationMs errorType errorMessage).Sound
      bound := by
  have closed : (record.onExecution executionId fun execution =>
      { execution with
        status := .failed, errorType := some errorType, errorMessage := some errorMessage,
        finishedAt := some now, durationMs := some durationMs }).Sound bound :=
    sound.onExecution executionId fun _ => rfl
  exact closed.withJob rfl rfl sound.token_lt sound.token sound.notFailed

theorem reset (sound : record.Sound bound) (now : Time) : (record.reset now).Sound bound where
  id_lt := sound.id_lt
  token_lt := by simp [JobRecord.reset]
  token := rfl
  notFailed := by simp [JobRecord.reset]
  maxAttempts := sound.maxAttempts
  executions := sound.executions
  execution_lt := sound.execution_lt
  letters := sound.letters
  letter_lt := sound.letter_lt

theorem start (sound : record.Sound bound) (now : Time) {executionId : Uuid} (attempt : Nat)
    (fresh : bound ≤ executionId) (within : executionId < 2 * bound)
    (inFlight : record.job.status.inFlight = true) :
    (record.start now executionId attempt).Sound (2 * bound) where
  id_lt := (sound.mono (by lia)).id_lt
  token_lt := (sound.mono (by lia)).token_lt
  token := by
    have token := sound.token
    rw [inFlight] at token
    simpa [JobRecord.start, JobStatus.inFlight] using token
  notFailed := by simp [JobRecord.start]
  maxAttempts := sound.maxAttempts
  executions := by
    simp only [JobRecord.start, List.map_append, List.map_cons, List.map_nil]
    apply List.nodup_append.mpr
    refine ⟨sound.executions, by simp, ?_⟩
    intro id member other new
    obtain ⟨execution, present, rfl⟩ := List.mem_map.mp member
    have older := sound.execution_lt execution present
    rw [List.mem_singleton.mp new]
    lia
  execution_lt := by
    intro execution member
    rcases List.mem_append.mp member with old | new
    · exact (sound.mono (by lia : bound ≤ 2 * bound)).execution_lt execution old
    · rw [List.mem_singleton.mp new]
      exact within
  letters := sound.letters
  letter_lt := (sound.mono (by lia)).letter_lt

theorem moveToDlq (sound : record.Sound bound) (now : Time) {entryId : Uuid}
    (finalError : String) (fresh : bound ≤ entryId) (within : entryId < 2 * bound) :
    (record.moveToDlq now entryId finalError).Sound (2 * bound) where
  id_lt := (sound.mono (by lia)).id_lt
  token_lt := by simp [JobRecord.moveToDlq]
  token := by simp [JobRecord.moveToDlq, JobStatus.inFlight]
  notFailed := by simp [JobRecord.moveToDlq]
  maxAttempts := sound.maxAttempts
  executions := sound.executions
  execution_lt := (sound.mono (by lia)).execution_lt
  letters := by
    simp only [JobRecord.moveToDlq, List.map_append, List.map_cons, List.map_nil]
    apply List.nodup_append.mpr
    refine ⟨sound.letters, by simp, ?_⟩
    intro id member other new
    obtain ⟨entry, present, rfl⟩ := List.mem_map.mp member
    have older := sound.letter_lt entry present
    rw [List.mem_singleton.mp new]
    lia
  letter_lt := by
    intro entry member
    rcases List.mem_append.mp member with old | new
    · exact (sound.mono (by lia : bound ≤ 2 * bound)).letter_lt entry old
    · rw [List.mem_singleton.mp new]
      exact within

end JobRecord.Sound

/-- Every move keeps the invariants of its job. -/
theorem Move.sound {state : System} {session : Session} {record after : JobRecord}
    (move : Move state session record after) (sound : record.Sound state.nextUuid)
    (bounded : ∀ token ∈ session.tokens, token < state.nextUuid) :
    after.Sound (2 * state.nextUuid) := by
  have widen : ∀ {other : JobRecord}, other.Sound state.nextUuid →
      other.Sound (2 * state.nextUuid) := fun narrow => narrow.mono (by lia)
  have drawn : state.nextUuid ≤ state.draw record.job.id ∧
      state.draw record.job.id < 2 * state.nextUuid := by
    have id_lt := sound.id_lt
    simp only [System.draw]
    lia
  have held : ∀ {task : Task}, record.job.lockToken = task.token → task.token.isSome = true →
      record.job.status.inFlight = true := fun token some => by rw [← sound.token, token, some]
  cases move with
  | keep => exact widen sound
  | detach =>
    unfold JobRecord.detach
    split
    · exact widen (sound.withJob rfl rfl sound.token_lt sound.token sound.notFailed)
    · exact widen sound
  | claim member =>
    refine widen (sound.withJob rfl rfl ?_ rfl (by simp))
    intro token same
    cases Option.some.inj same
    exact bounded _ (List.mem_map.mpr ⟨_, member, rfl⟩)
  | start same token some =>
    rw [← same]
    exact sound.start _ _ drawn.1 drawn.2 (held token some)
  | complete =>
    exact widen (JobRecord.Sound.withIdle (sound.onExecution _ fun execution => by rfl)
      rfl rfl rfl rfl (by simp))
  | backoff =>
    exact widen ((sound.chargeAttempt ..).withIdle rfl rfl rfl rfl (by simp))
  | bury same =>
    rw [← same]
    exact (sound.chargeAttempt ..).moveToDlq _ _ drawn.1 drawn.2
  | requeueClaimed => exact widen (sound.withIdle rfl rfl rfl rfl (by simp))
  | requeueLost => exact widen ((sound.chargeLost _).withIdle rfl rfl rfl rfl (by simp))
  | buryLost => exact (sound.chargeLost _).moveToDlq _ _ drawn.1 drawn.2
  | unassign => exact widen (sound.withJob rfl rfl sound.token_lt sound.token sound.notFailed)
  | @write tick write record member same found parked =>
    have idle := sound.no_token (JobStatus.parked_waiting (found ▸ parked))
    cases write.change with
    | promote | release | cancel => exact widen (sound.withIdle rfl rfl idle rfl (by simp))
  | cancel same cancellable =>
    have idle := sound.no_token (JobStatus.cancellable_waiting cancellable)
    exact widen (sound.withIdle rfl rfl idle rfl (by simp))
  | retry | replay => exact widen ((sound.consume ..).reset _)
end Pulse
