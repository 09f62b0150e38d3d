import Pulse.Core.RateLimit
import Mathlib.Tactic.Linarith

/-! What a token bucket gives away over many calls: whole tokens only, with the fraction carried
over, and never more than a full bucket and its refill. All of it in exact arithmetic. -/
namespace Pulse
open Library.Rounding

attribute [local instance] exact

/-- `take_available` at each of the times: what the calls return, and the bucket after them. -/
def TokenBucket.calls (bucket : TokenBucket) : List Time → List Int × TokenBucket
  | [] => ([], bucket)
  | now :: later =>
    let taken := bucket.takeAvailable now
    let rest := taken.2.calls later
    (taken.1 :: rest.1, rest.2)

/-- What the calls return together. -/
def TokenBucket.total (bucket : TokenBucket) (times : List Time) : Int := (bucket.calls times).1.sum

/-- No refill of the calls loses anything to the cap. -/
def TokenBucket.Uncapped (bucket : TokenBucket) : List Time → Prop
  | [] => True
  | now :: later =>
    bucket.tokens + (now - bucket.lastRefill) * bucket.ratePerSec ≤ bucket.capacity ∧
      (bucket.takeAvailable now).2.Uncapped later

/-- A call of the registry. -/
structure Take where
  queueId : Uuid
  ratePerSec : ℚ
  now : Time
deriving DecidableEq, Repr

/-- What the calls for one queue return, among those for all queues. -/
def RateLimiterRegistry.returned (registry : RateLimiterRegistry) (queueId : Uuid) :
    List Take → List Int
  | [] => []
  | take :: later =>
    let taken := registry.takeAvailable take.queueId take.ratePerSec take.now
    if take.queueId = queueId then taken.1 :: taken.2.returned queueId later
    else taken.2.returned queueId later

/-- The times of the calls for one queue. -/
def timesOf (queueId : Uuid) (takes : List Take) : List Time :=
  (takes.filter fun take => take.queueId = queueId).map Take.now

/-- A bucket of the rate, with its default capacity. -/
structure TokenBucket.Sound (rate : ℚ) (bucket : TokenBucket) : Prop where
  rated : bucket.ratePerSec = rate
  sized : bucket.capacity = max rate 1
  nonneg : 0 ≤ bucket.tokens
  within : bucket.tokens ≤ max rate 1

namespace TokenBucket.Sound
variable {rate : ℚ} {bucket : TokenBucket} {now : Time} {times : List Time}

theorem new (positive : 0 < rate) (made : Time) : Sound rate (.new rate none made) :=
  ⟨rfl, rfl, positive.le.trans (le_max_left rate 1), le_refl _⟩

/-- A refill neither empties the bucket nor fills it beyond its capacity. -/
theorem refill (sound : Sound rate bucket) (positive : 0 < rate) (later : bucket.lastRefill ≤ now) :
    Sound rate (bucket.refill now) := by
  have gained : 0 ≤ (now - bucket.lastRefill) * rate := mul_nonneg (sub_nonneg.mpr later) positive.le
  refine ⟨sound.rated, sound.sized, ?_, ?_⟩
  · rw [TokenBucket.refill, sound.sized, sound.rated]
    refine le_min (positive.le.trans (le_max_left rate 1)) ?_
    simp only [exact_fl]
    linarith [sound.nonneg]
  · rw [TokenBucket.refill, sound.sized]
    exact min_le_left _ _

/-- A call takes the whole tokens and leaves the fraction. -/
theorem take (sound : Sound rate bucket) (positive : 0 < rate) (later : bucket.lastRefill ≤ now) :
    (bucket.takeAvailable now).1 = ⌊(bucket.refill now).tokens⌋ ∧
      (bucket.takeAvailable now).2.tokens = Int.fract (bucket.refill now).tokens := by
  have filled := (sound.refill positive later).nonneg
  have whole : truncate (bucket.refill now).tokens = ⌊(bucket.refill now).tokens⌋ := if_pos filled
  refine ⟨whole, ?_⟩
  change (bucket.refill now).tokens - truncate (bucket.refill now).tokens = _
  rw [whole]
  rfl

theorem after (sound : Sound rate bucket) (positive : 0 < rate) (later : bucket.lastRefill ≤ now) :
    Sound rate (bucket.takeAvailable now).2 ∧ (bucket.takeAvailable now).2.tokens < 1 := by
  obtain ⟨_, left⟩ := sound.take positive later
  refine ⟨⟨sound.rated, sound.sized, ?_, ?_⟩, ?_⟩ <;> rw [left]
  · exact Int.fract_nonneg _
  · exact (Int.fract_lt_one _).le.trans (le_max_right rate 1)
  · exact Int.fract_lt_one _

/-- The bucket after any number of calls. -/
theorem calls (sound : Sound rate bucket) (positive : 0 < rate)
    (ordered : (bucket.lastRefill :: times).Pairwise (· ≤ ·)) :
    Sound rate (bucket.calls times).2 ∧ (times ≠ [] → (bucket.calls times).2.tokens < 1) ∧
      (bucket.calls times).2.lastRefill = times.getLastD bucket.lastRefill := by
  induction times generalizing bucket with
  | nil => exact ⟨sound, fun some => absurd rfl some, rfl⟩
  | cons now rest ih =>
    obtain ⟨earlier, ordered⟩ := List.pairwise_cons.mp ordered
    obtain ⟨after, fraction⟩ := sound.after positive (earlier now List.mem_cons_self)
    obtain ⟨sound, whole, last⟩ := ih after ordered
    refine ⟨sound, fun _ => ?_, ?_⟩
    · cases rest with
      | nil => exact fraction
      | cons next rest => exact whole (List.cons_ne_nil _ _)
    · rw [List.getLastD_cons]
      exact last

/-- A call splits what the refill leaves. -/
theorem split (sound : Sound rate bucket) (positive : 0 < rate) (later : bucket.lastRefill ≤ now) :
    ((bucket.takeAvailable now).1 : ℚ) + (bucket.takeAvailable now).2.tokens =
      (bucket.refill now).tokens := by
  obtain ⟨taken, left⟩ := sound.take positive later
  rw [taken, left, Int.floor_add_fract]

theorem lastRefill_take : (bucket.takeAvailable now).2.lastRefill = now := rfl

theorem calls_cons : (bucket.calls (now :: times)).2 = ((bucket.takeAvailable now).2.calls times).2 :=
  rfl

theorem total_cons : (bucket.total (now :: times) : ℚ) =
    (bucket.takeAvailable now).1 + (bucket.takeAvailable now).2.total times := by
  rw [TokenBucket.total, TokenBucket.calls, List.sum_cons, Int.cast_add]
  rfl

/-- What is taken and what is left is no more than what there was and what was refilled. -/
theorem total_le (sound : Sound rate bucket) (positive : 0 < rate)
    (ordered : (bucket.lastRefill :: times).Pairwise (· ≤ ·)) :
    (bucket.total times : ℚ) + (bucket.calls times).2.tokens ≤
      bucket.tokens + rate * (times.getLastD bucket.lastRefill - bucket.lastRefill) := by
  induction times generalizing bucket with
  | nil => simp [TokenBucket.total, TokenBucket.calls]
  | cons now rest ih =>
    obtain ⟨earlier, ordered⟩ := List.pairwise_cons.mp ordered
    have later := earlier now List.mem_cons_self
    have after := (sound.after positive later).1
    have refilled : (bucket.refill now).tokens ≤
        bucket.tokens + (now - bucket.lastRefill) * rate := by
      rw [TokenBucket.refill, sound.rated]
      exact min_le_right _ _
    have split := sound.split positive later
    have rest := ih after ordered
    rw [lastRefill_take] at rest
    rw [total_cons, calls_cons, List.getLastD_cons]
    linarith

/-- Where nothing is lost to the cap, it is exactly that. -/
theorem total_eq (sound : Sound rate bucket) (positive : 0 < rate)
    (ordered : (bucket.lastRefill :: times).Pairwise (· ≤ ·)) (uncapped : bucket.Uncapped times) :
    (bucket.total times : ℚ) + (bucket.calls times).2.tokens =
      bucket.tokens + rate * (times.getLastD bucket.lastRefill - bucket.lastRefill) := by
  induction times generalizing bucket with
  | nil => simp [TokenBucket.total, TokenBucket.calls]
  | cons now rest ih =>
    obtain ⟨earlier, ordered⟩ := List.pairwise_cons.mp ordered
    have later := earlier now List.mem_cons_self
    have after := (sound.after positive later).1
    have refilled : (bucket.refill now).tokens =
        bucket.tokens + (now - bucket.lastRefill) * rate := by
      rw [TokenBucket.refill, ← sound.rated]
      exact min_eq_right uncapped.1
    have split := sound.split positive later
    have rest := ih after ordered uncapped.2
    rw [lastRefill_take] at rest
    rw [total_cons, calls_cons, List.getLastD_cons]
    linarith

/-- A window of calls takes no more than a full bucket and its refill. -/
theorem window_le (sound : Sound rate bucket) (positive : 0 < rate)
    (ordered : (bucket.lastRefill :: now :: times).Pairwise (· ≤ ·)) :
    (bucket.total (now :: times) : ℚ) ≤ max rate 1 + rate * (times.getLastD now - now) := by
  obtain ⟨earlier, ordered⟩ := List.pairwise_cons.mp ordered
  have later := earlier now List.mem_cons_self
  have after := (sound.after positive later).1
  have filled := (sound.refill positive later).within
  have split := sound.split positive later
  have rest := after.total_le positive ordered
  have left := (after.calls positive ordered).1.nonneg
  rw [lastRefill_take] at rest
  rw [total_cons]
  linarith

/-- Over a stretch in which nothing is lost to the cap, all whole tokens are taken. -/
theorem stretch_eq (sound : Sound rate bucket) (positive : 0 < rate) (some_call : times ≠ [])
    (ordered : (bucket.lastRefill :: times).Pairwise (· ≤ ·)) (uncapped : bucket.Uncapped times) :
    bucket.total times =
      ⌊bucket.tokens + rate * (times.getLastD bucket.lastRefill - bucket.lastRefill)⌋ := by
  obtain ⟨after, fraction, _⟩ := sound.calls positive ordered
  have exactly := sound.total_eq positive ordered uncapped
  symm
  rw [Int.floor_eq_iff]
  exact ⟨by linarith [after.nonneg], by linarith [fraction some_call]⟩

end TokenBucket.Sound

section Registry
variable {rate : ℚ} {queueId : Uuid} {registry : RateLimiterRegistry} {takes : List Take}

/-- A queue with one rate keeps its bucket, whatever the calls for other queues are. -/
theorem returned_bucket {bucket : TokenBucket} (held : registry.buckets queueId = some bucket)
    (rated : bucket.ratePerSec = rate)
    (constant : ∀ take ∈ takes, take.queueId = queueId → take.ratePerSec = rate) :
    registry.returned queueId takes = (bucket.calls (timesOf queueId takes)).1 := by
  induction takes generalizing registry bucket with
  | nil => rfl
  | cons take later ih =>
    have constant' := fun other member => constant other (List.mem_cons_of_mem _ member)
    by_cases own : take.queueId = queueId
    · have same := constant take List.mem_cons_self own
      have kept : registry.bucketFor queueId rate take.now = bucket := by
        simp [RateLimiterRegistry.bucketFor, held, rated]
      have times : timesOf queueId (take :: later) = take.now :: timesOf queueId later := by
        simp [timesOf, own]
      have next : (registry.takeAvailable queueId rate take.now).2.buckets queueId =
          some (bucket.takeAvailable take.now).2 := by
        rw [takeAvailable_bucket, kept]
      have taken : (registry.takeAvailable queueId rate take.now).1 =
          (bucket.takeAvailable take.now).1 := by
        rw [RateLimiterRegistry.takeAvailable, kept]
      rw [times, RateLimiterRegistry.returned, if_pos own, own, same, taken, ih next rated constant']
      rfl
    · have times : timesOf queueId (take :: later) = timesOf queueId later := by
        simp [timesOf, own]
      have next : (registry.takeAvailable take.queueId take.ratePerSec take.now).2.buckets queueId =
          some bucket := by
        rw [takeAvailable_other registry take.ratePerSec take.now (Ne.symm own), held]
      rw [times, RateLimiterRegistry.returned, if_neg own, ih next rated constant']

/-- The bucket of a queue is made at the first call for it. -/
theorem returned_new (fresh : registry.buckets queueId = none)
    (constant : ∀ take ∈ takes, take.queueId = queueId → take.ratePerSec = rate)
    {first : Time} {times : List Time} (timed : timesOf queueId takes = first :: times) :
    registry.returned queueId takes = ((TokenBucket.new rate none first).calls (first :: times)).1 := by
  induction takes generalizing registry with
  | nil => cases timed
  | cons take later ih =>
    have constant' := fun other member => constant other (List.mem_cons_of_mem _ member)
    by_cases own : take.queueId = queueId
    · have same := constant take List.mem_cons_self own
      have made : registry.bucketFor queueId rate take.now = .new rate none take.now := by
        rw [RateLimiterRegistry.bucketFor, fresh]
      have split : take.now = first ∧ timesOf queueId later = times := by
        simpa [timesOf, own] using timed
      have next : (registry.takeAvailable queueId rate take.now).2.buckets queueId =
          some ((TokenBucket.new rate none take.now).takeAvailable take.now).2 := by
        rw [takeAvailable_bucket, made]
      have taken : (registry.takeAvailable queueId rate take.now).1 =
          ((TokenBucket.new rate none take.now).takeAvailable take.now).1 := by
        rw [RateLimiterRegistry.takeAvailable, made]
      rw [RateLimiterRegistry.returned, if_pos own, own, same, taken,
        returned_bucket next rfl constant', ← split.1, split.2]
      rfl
    · have times : timesOf queueId later = first :: times := by
        simpa [timesOf, own] using timed
      have next : (registry.takeAvailable take.queueId take.ratePerSec take.now).2.buckets queueId =
          none := by
        rw [takeAvailable_other registry take.ratePerSec take.now (Ne.symm own), fresh]
      rw [RateLimiterRegistry.returned, if_neg own]
      exact ih next constant' times

end Registry

/-- For every rate and all calls at times in order: the level is within the capacity and below one
after each call, a window of calls returns no more than a full bucket and its refill, and calls
which lose nothing to the cap return all whole tokens. The calls of the registry for a queue of
constant rate are calls of such a bucket. -/
theorem bucket_conserves {rate : ℚ} (positive : 0 < rate) :
    (∀ made before window, (made :: (before ++ window)).Pairwise (· ≤ ·) →
      let bucket := ((TokenBucket.new rate none made).calls before).2
      (0 ≤ bucket.tokens ∧ bucket.tokens ≤ max rate 1) ∧
      (∀ now, bucket.lastRefill ≤ now →
        0 ≤ (bucket.refill now).tokens ∧ (bucket.refill now).tokens ≤ max rate 1) ∧
      (before ≠ [] → bucket.tokens < 1) ∧
      (∀ first rest, window = first :: rest →
        (bucket.total window : ℚ) ≤ max rate 1 + rate * (rest.getLastD first - first)) ∧
      (window ≠ [] → bucket.Uncapped window → bucket.total window =
        ⌊bucket.tokens + rate * (window.getLastD bucket.lastRefill - bucket.lastRefill)⌋)) ∧
    ∀ queueId takes, (∀ take ∈ takes, take.queueId = queueId → take.ratePerSec = rate) →
      ∀ first times, timesOf queueId takes = first :: times →
        ({} : RateLimiterRegistry).returned queueId takes =
          ((TokenBucket.new rate none first).calls (first :: times)).1 := by
  refine ⟨?_, fun queueId takes constant first times timed => returned_new rfl constant timed⟩
  intro made before window ordered
  have start := TokenBucket.Sound.new positive made
  have ordered' : (made :: before ++ window).Pairwise (· ≤ ·) := ordered
  obtain ⟨earlier, rest, across⟩ := List.pairwise_append.mp ordered'
  obtain ⟨sound, fraction, last⟩ := start.calls positive earlier
  have follows : (((TokenBucket.new rate none made).calls before).2.lastRefill :: window).Pairwise
      (· ≤ ·) := by
    refine List.pairwise_cons.mpr ⟨fun time member => ?_, rest⟩
    rw [last]
    refine across _ ?_ time member
    rw [List.getLastD_eq_getLast?]
    cases found : before.getLast? with
    | none => exact List.mem_cons_self
    | some time => exact List.mem_cons_of_mem _ (List.mem_of_getLast? found)
  refine ⟨⟨sound.nonneg, sound.within⟩, fun now later => ?_, fraction, ?_, ?_⟩
  · have filled := sound.refill positive later
    exact ⟨filled.nonneg, filled.within⟩
  · rintro first rest rfl
    exact sound.window_le positive follows
  · intro some_call uncapped
    exact sound.stretch_eq positive some_call follows uncapped

/-- A bucket for five in two seconds, after two calls. -/
def calledTwice : TokenBucket := ((TokenBucket.new (5 / 2) none 0).calls [0, 3 / 10]).2

theorem calledTwice_uncapped : calledTwice.Uncapped [6 / 10, 9 / 10] := by
  simp only [TokenBucket.Uncapped]
  refine ⟨?_, ?_, trivial⟩ <;> decide +kernel

theorem bucket_conserves_calledTwice : calledTwice.tokens < 1 ∧
    (calledTwice.total [6 / 10, 9 / 10] : ℚ) ≤
      max (5 / 2) 1 + 5 / 2 * ([9 / 10].getLastD (6 / 10) - 6 / 10) ∧
    calledTwice.total [6 / 10, 9 / 10] = ⌊calledTwice.tokens +
      5 / 2 * ([6 / 10, 9 / 10].getLastD calledTwice.lastRefill - calledTwice.lastRefill)⌋ := by
  have positive : (0 : ℚ) < 5 / 2 := by norm_num
  have ordered : ((0 : Time) :: ([0, 3 / 10] ++ [6 / 10, 9 / 10])).Pairwise (· ≤ ·) := by
    decide +kernel
  have conserves := (bucket_conserves positive).1 0 [0, 3 / 10] [6 / 10, 9 / 10] ordered
  rw [← calledTwice] at conserves
  obtain ⟨_, _, fraction, window, stretch⟩ := conserves
  exact ⟨fraction (List.cons_ne_nil _ _), window _ _ rfl,
    stretch (List.cons_ne_nil _ _) calledTwice_uncapped⟩

end Pulse
