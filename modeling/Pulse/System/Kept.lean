import Pulse.System.Moves

/-! What every write to a job leaves as it was. -/
namespace Pulse

/-- What no UPDATE of the source does to a job: change what it was created with, name
another template, or leave it failed. -/
structure JobRecord.Kept (before after : JobRecord) : Prop where
  identity : after.identity = before.identity
  key : after.job.idempotencyKey = before.job.idempotencyKey
  template : after.job.scheduledJobId = before.job.scheduledJobId ∨ after.job.scheduledJobId = none
  status : after.job.status = before.job.status ∨ after.job.status ≠ .failed
  letters : ∀ entry ∈ after.deadLetters, entry.queueId = before.job.queueId ∨
    ∃ old ∈ before.deadLetters, old.queueId = entry.queueId

namespace JobRecord
variable (now : Time) (record : JobRecord)

theorem Kept.refl : record.Kept record :=
  ⟨rfl, rfl, .inl rfl, .inl rfl, fun entry listed => .inr ⟨entry, listed, rfl⟩⟩

variable {record}

theorem Kept.queueId {after : JobRecord} (kept : record.Kept after) :
    after.job.queueId = record.job.queueId :=
  congrArg (fun identity => identity.2.1) kept.identity

theorem Kept.job_id {after : JobRecord} (kept : record.Kept after) :
    after.job.id = record.job.id :=
  congrArg Prod.fst kept.identity

theorem Kept.dependsOn {after : JobRecord} (kept : record.Kept after) :
    after.job.dependsOn = record.job.dependsOn :=
  congrArg (fun identity => identity.2.2.2) kept.identity

theorem Kept.trans {middle after : JobRecord} (first : record.Kept middle)
    (second : middle.Kept after) : record.Kept after where
  identity := second.identity.trans first.identity
  key := second.key.trans first.key
  template := by
    rcases second.template with same | cleared
    · rw [same]
      exact first.template
    · exact .inr cleared
  status := by
    rcases second.status with same | other
    · rw [same]
      exact first.status
    · exact .inr other
  letters := by
    intro entry listed
    rcases second.letters entry listed with queue | ⟨old, present, same⟩
    · exact .inl (queue.trans first.queueId)
    · rw [← same]
      exact first.letters old present

/-- A write of the job's other columns. -/
theorem Kept.ofJob {job : Job} (identity : ({ record with job } : JobRecord).identity = record.identity)
    (key : job.idempotencyKey = record.job.idempotencyKey)
    (template : job.scheduledJobId = record.job.scheduledJobId ∨ job.scheduledJobId = none)
    (status : job.status = record.job.status ∨ job.status ≠ .failed) :
    record.Kept { record with job } :=
  ⟨identity, key, template, status, fun entry listed => .inr ⟨entry, listed, rfl⟩⟩

theorem Kept.executions (executions : List JobExecution) :
    record.Kept { record with executions } :=
  ⟨rfl, rfl, .inl rfl, .inl rfl, fun entry listed => .inr ⟨entry, listed, rfl⟩⟩

variable (record)

theorem claim_kept (workerId token : Uuid) : record.Kept (record.claim now workerId token) :=
  .ofJob rfl rfl (.inl rfl) (.inr nofun)

theorem start_kept (executionId : Uuid) (attempt : Nat) :
    record.Kept (record.start now executionId attempt) :=
  ⟨rfl, rfl, .inl rfl, .inr nofun, fun entry listed => .inr ⟨entry, listed, rfl⟩⟩

theorem complete_kept (executionId : Uuid) (durationMs : Int) :
    record.Kept (record.complete now executionId durationMs) :=
  ⟨rfl, rfl, .inl rfl, .inr nofun, fun entry listed => .inr ⟨entry, listed, rfl⟩⟩

theorem moveToDlq_kept (entryId : Uuid) (finalError : String) :
    record.Kept (record.moveToDlq now entryId finalError) where
  identity := rfl
  key := rfl
  template := .inl rfl
  status := .inr nofun
  letters := by
    intro entry listed
    rcases List.mem_append.mp listed with old | new
    · exact .inr ⟨entry, old, rfl⟩
    · rw [List.mem_singleton.mp new]
      exact .inl rfl

theorem applyFailure_kept (retryPolicy : Option RetryPolicy) (uniform : ℚ) (entryId : Uuid)
    (errorMessage : String) :
    record.Kept (record.applyFailure now retryPolicy uniform entryId errorMessage) := by
  unfold applyFailure
  split
  · exact moveToDlq_kept ..
  · exact .ofJob rfl rfl (.inl rfl) (.inr nofun)

theorem chargeAttempt_kept (executionId : Uuid) (attempt : Nat) (durationMs : Int)
    (errorType errorMessage : String) :
    record.Kept (record.chargeAttempt now executionId attempt durationMs errorType errorMessage) :=
  ⟨rfl, rfl, .inl rfl, .inl rfl, fun entry listed => .inr ⟨entry, listed, rfl⟩⟩

theorem reap_kept (entryId : Uuid) : record.Kept (record.reap now entryId) := by
  have charged : record.Kept (record.chargeLost now) :=
    ⟨rfl, rfl, .inl rfl, .inl rfl, fun entry listed => .inr ⟨entry, listed, rfl⟩⟩
  have requeued : ∀ record : JobRecord, record.Kept record.requeue :=
    fun record => .ofJob rfl rfl (.inl rfl) (.inr nofun)
  unfold reap
  split
  · dsimp only
    split
    · exact charged.trans (moveToDlq_kept ..)
    · exact charged.trans (requeued _)
  · exact requeued record

theorem unassign_kept : record.Kept record.unassign :=
  .ofJob rfl rfl (.inl rfl) (.inl rfl)

theorem detach_kept (scheduledJobId : Uuid) : record.Kept (record.detach scheduledJobId) := by
  unfold detach
  split
  · exact .ofJob rfl rfl (.inr rfl) (.inl rfl)
  · exact .refl record

theorem cancel_kept : record.Kept (record.cancel now) :=
  .ofJob rfl rfl (.inl rfl) (.inr nofun)

theorem requeueLetters_kept (chosen : List Uuid) :
    record.Kept ((record.consume now chosen).reset now) where
  identity := rfl
  key := rfl
  template := .inl rfl
  status := .inr nofun
  letters := by
    intro entry listed
    obtain ⟨old, present, rfl⟩ := List.mem_map.mp listed
    refine .inr ⟨old, present, ?_⟩
    split <;> rfl

theorem write_kept (change : Change) : record.Kept (change.write record) := by
  cases change <;> exact .ofJob rfl rfl (.inl rfl) (.inr nofun)

end JobRecord

end Pulse
