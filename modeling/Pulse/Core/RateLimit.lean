import Pulse.Library.Rounding
import Pulse.Schema

/-! `TokenBucket` and `RateLimiterRegistry` of `core/ratelimit.py`. Every operation on
floats rounds its result. A reading of `time.monotonic()` is an argument. -/
namespace Pulse
open Library.Rounding Arithmetic

structure TokenBucket where
  ratePerSec : ℚ
  capacity : ℚ
  tokens : ℚ
  lastRefill : Time
deriving DecidableEq, Repr

/-- `TokenBucket(rate_per_sec, capacity)`. -/
def TokenBucket.new (ratePerSec : ℚ) (capacity : Option ℚ) (now : Time) : TokenBucket :=
  let capacity := capacity.getD (max ratePerSec 1)
  { ratePerSec, capacity, tokens := capacity, lastRefill := now }

/-- `_refill`. -/
def TokenBucket.refill [Arithmetic] (bucket : TokenBucket) (now : Time) : TokenBucket :=
  let elapsed := fl (now - bucket.lastRefill)
  { bucket with
    tokens := min bucket.capacity (fl (bucket.tokens + fl (elapsed * bucket.ratePerSec)))
    lastRefill := now }

/-- `int(x)` drops the fraction. -/
def truncate (x : ℚ) : Int :=
  if 0 ≤ x then ⌊x⌋ else ⌈x⌉

def TokenBucket.takeAvailable [Arithmetic] (bucket : TokenBucket) (now : Time) :
    Int × TokenBucket :=
  let refilled := bucket.refill now
  let n := truncate refilled.tokens
  (n, { refilled with tokens := fl (refilled.tokens - n) })

/-- The buckets of one scheduler process. -/
structure RateLimiterRegistry where
  buckets : Uuid → Option TokenBucket := fun _ => none

/-- A bucket is made at the first use, and anew when the rate has changed. -/
def RateLimiterRegistry.bucketFor (registry : RateLimiterRegistry) (queueId : Uuid)
    (ratePerSec : ℚ) (now : Time) : TokenBucket :=
  match registry.buckets queueId with
  | none => .new ratePerSec none now
  | some bucket => if bucket.ratePerSec ≠ ratePerSec then .new ratePerSec none now else bucket

def RateLimiterRegistry.takeAvailable [Arithmetic] (registry : RateLimiterRegistry)
    (queueId : Uuid) (ratePerSec : ℚ) (now : Time) : Int × RateLimiterRegistry :=
  let taken := (registry.bucketFor queueId ratePerSec now).takeAvailable now
  (taken.1, { buckets := Function.update registry.buckets queueId (some taken.2) })

/-- `truncate` never returns more than there is, where there is anything. -/
theorem truncate_le {x : ℚ} (positive : 0 ≤ x) : (truncate x : ℚ) ≤ x := by
  rw [truncate, if_pos positive]
  exact Int.floor_le x

theorem truncate_nonneg {x : ℚ} (positive : 0 ≤ x) : 0 ≤ truncate x := by
  rw [truncate, if_pos positive]
  exact Int.floor_nonneg.mpr positive

section Take
variable [Arithmetic] (registry : RateLimiterRegistry) {queueId other : Uuid} (ratePerSec : ℚ)
  (now : Time)

@[simp] theorem takeAvailable_bucket :
    (registry.takeAvailable queueId ratePerSec now).2.buckets queueId =
      some ((registry.bucketFor queueId ratePerSec now).takeAvailable now).2 :=
  Function.update_self ..

theorem takeAvailable_other (different : other ≠ queueId) :
    (registry.takeAvailable queueId ratePerSec now).2.buckets other = registry.buckets other :=
  Function.update_of_ne different ..

end Take

end Pulse
