import Pulse.Engine.Transitions
import Pulse.Api.Queues
import Mathlib.Tactic.Linarith

/-! The delays of retries: the growth of the strategy is capped, and jitter is added to
what the cap leaves. -/
namespace Pulse

/-- The growth of a strategy: `base`, `base * attempt` or `base * 2 ^ (attempt - 1)`. -/
def RetryPolicy.growth (policy : RetryPolicy) (attempt : Nat) : ℚ :=
  match policy.strategy with
  | .fixed => policy.baseDelaySec
  | .linear => policy.baseDelaySec * attempt
  | .exponential => policy.baseDelaySec * 2 ^ (attempt - 1)

/-- The delay before jitter. -/
def RetryPolicy.unjittered (policy : RetryPolicy) (attempt : Nat) : ℚ :=
  min (policy.growth attempt) policy.maxDelaySec

/-- What `random.uniform(-jitter_range, jitter_range)` may return. -/
def Draws (jitterRange uniform : ℚ) : Prop :=
  -jitterRange ≤ uniform ∧ uniform ≤ jitterRange

/-- What `apply_failure` adds to the present. -/
def JobRecord.delay (record : JobRecord) (now : Time) (policy : RetryPolicy) (uniform : ℚ)
    (entryId : Uuid) (errorMessage : String) : ℚ :=
  (record.applyFailure now (some policy) uniform entryId errorMessage).job.runAt - now

/-- Every delay is within the policy's maximum, and within its jitter of the unjittered one. -/
def WithinPolicy (policy : RetryPolicy) (record : JobRecord) : Prop :=
  ∀ now uniform entryId errorMessage,
    Draws (policy.unjittered record.job.attempts * policy.jitterPct) uniform →
      let delay := record.delay now policy uniform entryId errorMessage
      0 ≤ delay ∧ delay ≤ policy.maxDelaySec ∧
        |delay - policy.unjittered record.job.attempts| ≤
          policy.jitterPct * policy.unjittered record.job.attempts

section Delay
variable {policy : RetryPolicy} {record : JobRecord} {attempt : Nat} {uniform : ℚ}

theorem growth_nonneg (policy : RetryPolicy) (attempt : Nat) : 0 ≤ policy.growth attempt := by
  unfold RetryPolicy.growth
  split <;> positivity

theorem unjittered_nonneg (policy : RetryPolicy) (attempt : Nat) : 0 ≤ policy.unjittered attempt :=
  le_min (growth_nonneg policy attempt) (Nat.cast_nonneg _)

/-- The exponential strategy is capped twice, to the same effect. -/
theorem computeDelaySec_eq (policy : RetryPolicy) (attempt : Nat) (uniform : ℚ) :
    computeDelaySec policy.strategy attempt policy.baseDelaySec policy.maxDelaySec
      policy.jitterPct uniform =
        max (if policy.jitterPct = 0 then policy.unjittered attempt
          else policy.unjittered attempt + uniform) 0 := by
  unfold computeDelaySec RetryPolicy.unjittered RetryPolicy.growth
  cases policy.strategy with
  | fixed => rfl
  | linear =>
    dsimp only
    rw [Nat.cast_mul]
  | exponential =>
    dsimp only
    rw [Nat.cast_min, min_assoc, min_self, Nat.cast_mul, Nat.cast_pow, Nat.cast_ofNat]

/-- A job which has attempts left is delayed. -/
theorem delay_eq (retries : record.job.attempts < record.job.maxAttempts) (now : Time)
    (uniform : ℚ) (entryId : Uuid) (errorMessage : String) :
    record.delay now policy uniform entryId errorMessage =
      max (if policy.jitterPct = 0 then policy.unjittered record.job.attempts
        else policy.unjittered record.job.attempts + uniform) 0 := by
  rw [JobRecord.delay, JobRecord.applyFailure, if_neg (Nat.not_le.mpr retries), JobRecord.backoff]
  dsimp only
  rw [add_sub_cancel_left, computeDelaySec_eq]

/-- Jitter of at most the whole delay never makes it negative. -/
theorem jittered_nonneg (admitted : policy.Admitted)
    (drawn : Draws (policy.unjittered attempt * policy.jitterPct) uniform) :
    0 ≤ policy.unjittered attempt + uniform := by
  have whole : policy.unjittered attempt * policy.jitterPct ≤ policy.unjittered attempt :=
    mul_le_of_le_one_right (unjittered_nonneg policy attempt) admitted.jitter.2
  linarith [drawn.1]

/-- A jittered delay is not less than nothing, and is what was drawn away from the unjittered. -/
theorem jittered_delay (admitted : policy.Admitted)
    (retries : record.job.attempts < record.job.maxAttempts) (now : Time) (entryId : Uuid)
    (errorMessage : String)
    (drawn : Draws (policy.unjittered record.job.attempts * policy.jitterPct) uniform) :
    record.delay now policy uniform entryId errorMessage =
      policy.unjittered record.job.attempts + uniform := by
  rw [delay_eq retries]
  by_cases none : policy.jitterPct = 0
  · have still : uniform = 0 := by
      obtain ⟨least, most⟩ := drawn
      rw [none, mul_zero] at least most
      linarith
    rw [if_pos none, still, add_zero]
    exact max_eq_left (unjittered_nonneg policy _)
  · rw [if_neg none]
    exact max_eq_left (jittered_nonneg admitted drawn)

end Delay

/-- A job is delayed within its policy, whatever is drawn, if and only if the unjittered delay
leaves room for its jitter. -/
theorem backoff_within {id : Uuid} {body : RetryPolicyCreate} {policy : RetryPolicy}
    {record : JobRecord} (created : createRetryPolicy id body = .ok policy)
    (_ : 1 ≤ record.job.attempts) (retries : record.job.attempts < record.job.maxAttempts) :
    WithinPolicy policy record ↔
      policy.unjittered record.job.attempts * (1 + policy.jitterPct) ≤ policy.maxDelaySec := by
  have admitted := createRetryPolicy_admitted created
  have positive := unjittered_nonneg policy record.job.attempts
  have range : 0 ≤ policy.unjittered record.job.attempts * policy.jitterPct :=
    mul_nonneg positive admitted.jitter.1
  constructor
  · intro within
    -- the largest number which may be drawn
    have most : Draws (policy.unjittered record.job.attempts * policy.jitterPct)
        (policy.unjittered record.job.attempts * policy.jitterPct) :=
      ⟨by linarith, le_refl _⟩
    obtain ⟨_, capped, _⟩ := within 0 _ 0 "" most
    rw [jittered_delay admitted retries 0 0 "" most] at capped
    linarith
  · intro room now uniform entryId errorMessage drawn
    dsimp only
    rw [jittered_delay admitted retries now entryId errorMessage drawn]
    refine ⟨jittered_nonneg admitted drawn, ?_, ?_⟩
    · linarith [drawn.2]
    · rw [add_sub_cancel_left, mul_comm policy.jitterPct]
      exact abs_le.mpr drawn

/-- A policy with jitter, whose delays grow from one second to the given maximum. -/
def jitteredBody (maxDelaySec : Nat) : RetryPolicyCreate where
  projectId := 1
  name := "jittered"
  strategy := .exponential
  baseDelaySec := 1
  maxDelaySec := maxDelaySec
  maxAttempts := 5
  jitterPct := 1 / 5

def jittered (maxDelaySec : Nat) : RetryPolicy where
  id := 2
  projectId := 1
  name := "jittered"
  strategy := .exponential
  baseDelaySec := 1
  maxDelaySec := maxDelaySec
  maxAttempts := 5
  jitterPct := 1 / 5

/-- A job whose third attempt has failed. -/
def failedThrice : JobRecord where
  job := {
    id := 3, queueId := 4, type := .immediate, status := .running, priority := 0, payload := "{}",
    handler := "echo", runAt := 0, attempts := 3, maxAttempts := 5 }

theorem backoff_within_jittered : WithinPolicy (jittered 60) failedThrice := by
  have created : createRetryPolicy 2 (jitteredBody 60) = .ok (jittered 60) := by decide +kernel
  refine (backoff_within created (by decide) (by decide)).mpr ?_
  decide +kernel

/-- A delay of four seconds at its cap, and a fifth more. -/
theorem backoff_beyond : createRetryPolicy 2 (jitteredBody 4) = .ok (jittered 4) ∧
    Draws ((jittered 4).unjittered 3 * (jittered 4).jitterPct) (4 / 5) ∧
    failedThrice.delay 0 (jittered 4) (4 / 5) 5 "boom" = 24 / 5 ∧
    ¬ WithinPolicy (jittered 4) failedThrice := by
  have drawn : Draws ((jittered 4).unjittered 3 * (jittered 4).jitterPct) (4 / 5) :=
    ⟨by decide +kernel, by decide +kernel⟩
  have delayed : failedThrice.delay 0 (jittered 4) (4 / 5) 5 "boom" = 24 / 5 := by decide +kernel
  refine ⟨by decide +kernel, drawn, delayed, fun within => ?_⟩
  obtain ⟨_, capped, _⟩ := within 0 (4 / 5) 5 "boom" drawn
  rw [delayed] at capped
  exact absurd capped (by decide +kernel)

end Pulse
