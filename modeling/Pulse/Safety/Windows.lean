import Pulse.Core.FailureLimiter
import Pulse.Library.Lts

/-! The answers of a `FailureLimiter` against the failures which were recorded, over all
sequences of its calls. -/
namespace Pulse
open Library Library.Lts Library.Window

inductive LimiterCall where
  | recordFailure (key : String) (now : Time)
  | isBlocked (key : String) (now : Time)
  | reset (key : String) (now : Time)
deriving DecidableEq, Repr

def LimiterCall.now : LimiterCall → Time
  | .recordFailure _ now | .isBlocked _ now | .reset _ now => now

/-- `_failures`, the time of the last call and, as an auxiliary, the calls, newest first. -/
structure Usage where
  failures : Failures := {}
  clock : Time := 0
  calls : List LimiterCall := []

def FailureLimiter.call (limiter : FailureLimiter) (failures : Failures) :
    LimiterCall → Option Failures
  | .recordFailure key now => limiter.recordFailure failures key now
  | .isBlocked key now => some (limiter.isBlocked failures key now).2
  | .reset key _ => some (FailureLimiter.reset failures key)

/-- Calls come at times which do not decrease. -/
def usageOf (limiter : FailureLimiter) : Machine Usage LimiterCall where
  init := fun usage => usage.failures.size = 0 ∧ usage.calls = []
  step := fun usage call =>
    if usage.clock ≤ call.now then
      (limiter.call usage.failures call).map fun failures =>
        { failures, clock := call.now, calls := call :: usage.calls }
    else none

/-- When failures of the key were recorded since its last reset, newest first. -/
def failuresOf (key : String) : List LimiterCall → List Time
  | [] => []
  | .recordFailure other now :: rest =>
    if other = key then now :: failuresOf key rest else failuresOf key rest
  | .reset other _ :: rest => if other = key then [] else failuresOf key rest
  | .isBlocked .. :: rest => failuresOf key rest

/-- How many of them are in the window which ends at `now`. -/
def Usage.inWindow (limiter : FailureLimiter) (usage : Usage) (key : String) (now : Time) : Nat :=
  (failuresOf key usage.calls).countP fun time => now - limiter.windowSec ≤ time && time ≤ now

/-- A key is blocked if and only if that many failures are in the window. -/
def Usage.Exact (limiter : FailureLimiter) (usage : Usage) : Prop :=
  ∀ key now, usage.clock ≤ now → ((limiter.isBlocked usage.failures key now).1 = true ↔
    limiter.maxFailures ≤ usage.inWindow limiter key now)

/-- No more than `max_keys` keys are stored. -/
def Usage.Fits (limiter : FailureLimiter) (usage : Usage) : Prop :=
  usage.failures.size ≤ limiter.maxKeys

/-- The key which `record_failure` evicts has no failure left in the window, unless it is the
key itself and a single failure blocks it. -/
def KeepsWindow (limiter : FailureLimiter) (usage : Usage) : LimiterCall → Prop
  | .recordFailure key now => usage.failures.size < limiter.maxKeys ∨
      ∀ oldest ∈ usage.failures.first, (limiter.prune usage.failures oldest now).1 = [] ∨
        (oldest = key ∧ limiter.maxFailures ≤ 1)
  | .isBlocked .. | .reset .. => True

instance (limiter : FailureLimiter) (usage : Usage) :
    (call : LimiterCall) → Decidable (KeepsWindow limiter usage call)
  | .recordFailure .. => inferInstanceAs (Decidable (_ ∨ ∀ _ ∈ Dict.first _, _ ∨ _ ∧ _))
  | .isBlocked .. | .reset .. => isTrue trivial

/-- What is stored agrees with what was recorded, as far as the limit. -/
structure Tracks (limiter : FailureLimiter) (usage : Usage) : Prop where
  sorted : ∀ key, (storedOf usage.failures key).Pairwise (· ≤ ·)
  stored : ∀ key, ∀ time ∈ storedOf usage.failures key, time ≤ usage.clock
  recorded : ∀ key, ∀ time ∈ failuresOf key usage.calls, time ≤ usage.clock
  agree : ∀ key, Agree limiter.maxFailures limiter.windowSec usage.clock
    (storedOf usage.failures key) (failuresOf key usage.calls)

section Calls
variable {limiter : FailureLimiter} {usage next : Usage} {call : LimiterCall} {key other : String}
  {now : Time}

theorem usage_step (taken : (usageOf limiter).step usage call = some next) :
    usage.clock ≤ call.now ∧ ∃ failures, limiter.call usage.failures call = some failures ∧
      next = { failures, clock := call.now, calls := call :: usage.calls } := by
  simp only [usageOf] at taken
  split at taken
  · rename_i later
    obtain ⟨failures, made, rfl⟩ := Option.map_eq_some_iff.mp taken
    exact ⟨later, failures, made, rfl⟩
  · cases taken

/-- Where nothing was recorded in the future, the window needs no end. -/
theorem inWindow_eq (past : ∀ time ∈ failuresOf key usage.calls, time ≤ now) :
    usage.inWindow limiter key now = recent limiter.windowSec (failuresOf key usage.calls) now := by
  apply List.countP_congr
  intro time member
  simp only [past time member, decide_true, Bool.and_true, decide_eq_true_eq, sub_le_comm]

theorem Tracks.exact (tracks : Tracks limiter usage) : usage.Exact limiter := by
  intro key now later
  have agree := tracks.agree key now later
  have past : ∀ time ∈ failuresOf key usage.calls, time ≤ now := fun time member =>
    (tracks.recorded key time member).trans later
  rw [inWindow_eq past, FailureLimiter.isBlocked, prune_fst, prune_length (tracks.sorted key)]
  simp only [decide_eq_true_eq]
  omega

/-- A key which is pruned. -/
theorem Tracks.prune (tracks : Tracks limiter usage) (later : usage.clock ≤ now) (key : String) :
    let failures := (limiter.prune usage.failures key now).2
    (∀ other, (storedOf failures other).Pairwise (· ≤ ·)) ∧
      (∀ other, ∀ time ∈ storedOf failures other, time ≤ now) ∧
      ∀ other, Agree limiter.maxFailures limiter.windowSec now (storedOf failures other)
        (failuresOf other usage.calls) := by
  refine ⟨?_, ?_, ?_⟩
  · intro other
    rw [storedOf_prune]
    split
    · exact prune_sorted (tracks.sorted key)
    · exact tracks.sorted other
  · intro other time member
    rw [storedOf_prune] at member
    split at member
    · exact (tracks.stored key time (prune_subset member)).trans later
    · exact (tracks.stored other time member).trans later
  · intro other
    rw [storedOf_prune]
    split
    · rename_i same
      rw [same]
      exact (agree_prune (tracks.sorted key)).trans ((tracks.agree key).later later)
    · exact (tracks.agree other).later later

theorem failuresOf_record : failuresOf other (.recordFailure key now :: usage.calls) =
    if other = key then now :: failuresOf key usage.calls else failuresOf other usage.calls := by
  by_cases same : other = key
  · rw [failuresOf, if_pos same.symm, if_pos same, same]
  · rw [failuresOf, if_neg (Ne.symm same), if_neg same]

/-- What the eviction leaves is in order and past. -/
theorem Tracks.evict_sorted (tracks : Tracks limiter usage) {kept : Failures}
    (evicted : limiter.evict usage.failures = some kept) (other : String) :
    (storedOf kept other).Pairwise (· ≤ ·) ∧ ∀ time ∈ storedOf kept other, time ≤ usage.clock := by
  rcases evict_cases evicted with ⟨_, rfl⟩ | ⟨oldest, _, _, rfl⟩
  · exact ⟨tracks.sorted other, tracks.stored other⟩
  · rw [storedOf_erase]
    split
    · exact ⟨List.Pairwise.nil, by simp⟩
    · exact ⟨tracks.sorted other, tracks.stored other⟩

/-- Once the failure is recorded, what the eviction has left is as good as what there was. -/
theorem Tracks.evict_agree (tracks : Tracks limiter usage) (later : usage.clock ≤ now)
    {kept : Failures} (spares : KeepsWindow limiter usage (.recordFailure key now))
    (evicted : limiter.evict usage.failures = some kept) (other : String) :
    Agree limiter.maxFailures limiter.windowSec now
      (if other = key then Window.prune limiter.windowSec (storedOf kept key) now ++ [now]
        else storedOf kept other)
      (if other = key then now :: failuresOf key usage.calls else failuresOf other usage.calls) := by
  have agreed : ∀ other, Agree limiter.maxFailures limiter.windowSec now
      (storedOf usage.failures other) (failuresOf other usage.calls) := fun other =>
    (tracks.agree other).later later
  have push : (∀ other, Agree limiter.maxFailures limiter.windowSec now (storedOf kept other)
      (failuresOf other usage.calls)) → _ := fun (kept_agree : ∀ other, _) =>
    show Agree limiter.maxFailures limiter.windowSec now
      (if other = key then Window.prune limiter.windowSec (storedOf kept key) now ++ [now]
        else storedOf kept other)
      (if other = key then now :: failuresOf key usage.calls else failuresOf other usage.calls) by
    split
    · exact ((agree_prune (tracks.evict_sorted evicted key).1).trans (kept_agree key)).push now
    · exact kept_agree other
  rcases evict_cases evicted with ⟨_, rfl⟩ | ⟨oldest, full, first, rfl⟩
  · exact push agreed
  · rcases spares with room | harmless
    · exact absurd room (not_lt.mpr full)
    rcases harmless oldest first with left | ⟨rfl, one⟩
    · apply push
      intro other
      rw [storedOf_erase]
      split
      · rename_i same
        have none : recent limiter.windowSec (storedOf usage.failures oldest) now = 0 := by
          rw [← prune_length (tracks.sorted oldest), ← prune_fst, left]
          rfl
        rw [same]
        exact (agree_nil none).trans (agreed oldest)
      · exact agreed other
    · rw [storedOf_erase, if_pos rfl]
      split
      · exact agree_newest one fun time member => (tracks.recorded oldest time member).trans later
      · rename_i different
        rw [storedOf_erase, if_neg different]
        exact agreed other

theorem Tracks.step (tracks : Tracks limiter usage) (spares : KeepsWindow limiter usage call)
    (taken : (usageOf limiter).step usage call = some next) : Tracks limiter next := by
  obtain ⟨later, failures, made, rfl⟩ := usage_step taken
  cases call with
  | recordFailure key now =>
    obtain ⟨kept, evicted, stored⟩ := recordFailure_eq made
    have ordered := tracks.evict_sorted evicted
    refine ⟨?_, ?_, ?_, ?_⟩
    · intro other
      rw [stored]
      split
      · refine List.pairwise_append.mpr ⟨prune_sorted (ordered key).1, List.pairwise_singleton .., ?_⟩
        intro time member last listed
        rw [List.mem_singleton.mp listed]
        exact ((ordered key).2 time (prune_subset member)).trans later
      · exact (ordered other).1
    · intro other time member
      rw [stored] at member
      split at member
      · rcases List.mem_append.mp member with old | new
        · exact ((ordered key).2 time (prune_subset old)).trans later
        · exact le_of_eq (List.mem_singleton.mp new)
      · exact ((ordered other).2 time member).trans later
    · intro other time member
      rw [failuresOf_record] at member
      split at member
      · rcases List.mem_cons.mp member with rfl | old
        · exact le_refl _
        · exact (tracks.recorded key time old).trans later
      · exact (tracks.recorded other time member).trans later
    · intro other
      rw [stored, failuresOf_record]
      exact tracks.evict_agree later spares evicted other
  | isBlocked key now =>
    cases Option.some.inj made
    obtain ⟨sorted, stored, agree⟩ := tracks.prune later key
    exact ⟨sorted, stored, fun other time member => (tracks.recorded other time member).trans later,
      agree⟩
  | reset key now =>
    cases Option.some.inj made
    have left : ∀ other, failuresOf other (.reset key now :: usage.calls) =
        if other = key then [] else failuresOf other usage.calls := by
      intro other
      by_cases same : other = key
      · rw [failuresOf, if_pos same.symm, if_pos same]
      · rw [failuresOf, if_neg (Ne.symm same), if_neg same]
    refine ⟨?_, ?_, ?_, ?_⟩
    · intro other
      rw [FailureLimiter.reset, storedOf_erase]
      split
      · exact List.Pairwise.nil
      · exact tracks.sorted other
    · intro other time member
      rw [FailureLimiter.reset, storedOf_erase] at member
      split at member
      · cases member
      · exact (tracks.stored other time member).trans later
    · intro other time member
      rw [left] at member
      split at member
      · cases member
      · exact (tracks.recorded other time member).trans later
    · intro other
      rw [FailureLimiter.reset, storedOf_erase, left]
      split
      · exact fun _ _ => rfl
      · exact (tracks.agree other).later later

theorem initial_tracks (initial : (usageOf limiter).init usage) : Tracks limiter usage := by
  obtain ⟨empty, unused⟩ := initial
  have nothing : ∀ key, storedOf usage.failures key = [] := by
    intro key
    rw [storedOf, Dict.get?_eq_none.mpr]
    · rfl
    · rw [Dict.size_eq_keys, List.length_eq_zero_iff] at empty
      simp [empty]
  have never : ∀ key, failuresOf key usage.calls = [] := by
    intro key
    rw [unused]
    rfl
  refine ⟨?_, ?_, ?_, ?_⟩ <;> intro key
  · rw [nothing]
    exact List.Pairwise.nil
  · simp [nothing]
  · simp [never]
  · rw [nothing, never]
    exact fun _ _ => rfl

theorem reachable_tracks (reachable : (usageOf limiter).Reachable (KeepsWindow limiter) usage) :
    Tracks limiter usage :=
  reachable.invariant (fun _ initial => initial_tracks initial)
    fun _ _ _ tracks spares taken => tracks.step spares taken

theorem Usage.Fits.step (fits : usage.Fits limiter)
    (taken : (usageOf limiter).step usage call = some next) : next.Fits limiter := by
  obtain ⟨_, failures, made, rfl⟩ := usage_step taken
  cases call with
  | recordFailure key now => exact recordFailure_size fits made
  | isBlocked key now =>
    cases Option.some.inj made
    exact prune_size.trans fits
  | reset key now =>
    cases Option.some.inj made
    exact Dict.size_erase_le.trans fits

theorem reachable_fits (reachable : (usageOf limiter).Reachable anyStep usage) :
    usage.Fits limiter := by
  have initially : ∀ usage, (usageOf limiter).init usage → usage.Fits limiter := by
    intro usage initial
    exact initial.1.trans_le (Nat.zero_le limiter.maxKeys)
  exact reachable.invariant initially fun _ _ _ fits _ taken => fits.step taken

/-- With room for one key every call returns. -/
theorem call_returns (room : 1 ≤ limiter.maxKeys) (failures : Failures) (call : LimiterCall) :
    ∃ after, limiter.call failures call = some after := by
  cases call with
  | recordFailure key now => exact recordFailure_returns room failures key now
  | isBlocked | reset => exact ⟨_, rfl⟩

end Calls

/-! An eviction which is not harmless shows in the answers. -/

section Exposure
variable {limiter : FailureLimiter} {usage next : Usage} {key oldest : String} {now : Time}

/-- A further failure can always be recorded. -/
theorem record_taken (room : 1 ≤ limiter.maxKeys) (key : String) (later : usage.clock ≤ now) :
    ∃ next, (usageOf limiter).step usage (.recordFailure key now) = some next ∧ next.clock = now ∧
      next.calls = .recordFailure key now :: usage.calls := by
  obtain ⟨failures, made⟩ := call_returns room usage.failures (.recordFailure key now)
  refine ⟨{ failures, clock := now, calls := .recordFailure key now :: usage.calls }, ?_, rfl, rfl⟩
  simp only [usageOf, LimiterCall.now, later, if_true, made, Option.map_some]

/-- A failure which evicts a key leaves none of its times, but for its own. -/
theorem record_evicts (full : limiter.maxKeys ≤ usage.failures.size)
    (first : usage.failures.first = some oldest)
    (taken : (usageOf limiter).step usage (.recordFailure key now) = some next) :
    storedOf next.failures oldest = if oldest = key then [now] else [] := by
  obtain ⟨_, failures, made, rfl⟩ := usage_step taken
  obtain ⟨kept, evicted, stored⟩ := recordFailure_eq made
  have missing : storedOf kept oldest = [] := by
    rcases evict_cases evicted with ⟨fits, _⟩ | ⟨other, _, same, rfl⟩
    · exact absurd fits (Nat.not_lt.mpr full)
    · cases Option.some.inj (same.symm.trans first)
      rw [storedOf_erase, if_pos rfl]
  rw [stored]
  split
  · rename_i own
    rw [← own, missing]
    rfl
  · exact missing

/-- Each further failure adds one time to what is stored, at most. -/
theorem record_stored (taken : (usageOf limiter).step usage (.recordFailure key now) = some next) :
    (storedOf next.failures key).length ≤ (storedOf usage.failures key).length + 1 := by
  obtain ⟨_, failures, made, rfl⟩ := usage_step taken
  obtain ⟨kept, evicted, stored⟩ := recordFailure_eq made
  have fewer : (storedOf kept key).length ≤ (storedOf usage.failures key).length := by
    rcases evict_cases evicted with ⟨_, rfl⟩ | ⟨oldest, _, _, rfl⟩
    · exact le_refl _
    · rw [storedOf_erase]
      split
      · exact Nat.zero_le _
      · exact le_refl _
  have pruned : (Window.prune limiter.windowSec (storedOf kept key) now).length ≤
      (storedOf kept key).length := (List.dropWhile_sublist _).length_le
  rw [stored, if_pos rfl, List.length_append, List.length_singleton]
  omega

/-- Failures of one key at one time. -/
theorem record_repeated (room : 1 ≤ limiter.maxKeys) (key : String) (count : Nat)
    (present : usage.clock = now) : ∃ later, (usageOf limiter).run anyStep usage
      (List.replicate count (.recordFailure key now)) = some later ∧ later.clock = now ∧
      (storedOf later.failures key).length ≤ (storedOf usage.failures key).length + count ∧
      failuresOf key later.calls = List.replicate count now ++ failuresOf key usage.calls := by
  induction count generalizing usage with
  | zero => exact ⟨usage, rfl, present, le_refl _, rfl⟩
  | succ count ih =>
    obtain ⟨next, taken, arrived, calls⟩ := record_taken room key present.le
    obtain ⟨later, ran, clock, stored, recorded⟩ := ih arrived
    have one := record_stored taken
    refine ⟨later, Machine.run_cons.mpr ⟨trivial, next, taken, ran⟩, clock, by omega, ?_⟩
    rw [recorded, calls, failuresOf_record, if_pos rfl, List.replicate_succ', List.append_assoc]
    rfl

/-- Where fewer failures are stored than recorded, further ones go uncounted. -/
theorem record_exposes (room : 1 ≤ limiter.maxKeys) (width : 0 ≤ limiter.windowSec)
    (present : usage.clock = now) (past : ∀ time ∈ failuresOf key usage.calls, time ≤ now)
    (fewer : (storedOf usage.failures key).length + (limiter.maxFailures -
      recent limiter.windowSec (failuresOf key usage.calls) now) < limiter.maxFailures) :
    ∃ count after, (usageOf limiter).run anyStep usage
      (List.replicate count (.recordFailure key now)) = some after ∧ ¬ after.Exact limiter := by
  obtain ⟨after, ran, clock, stored, recorded⟩ := record_repeated room key
    (limiter.maxFailures - recent limiter.windowSec (failuresOf key usage.calls) now) present
  refine ⟨_, after, ran, fun agrees => ?_⟩
  have none_later : ∀ time ∈ failuresOf key after.calls, time ≤ now := by
    intro time member
    rw [recorded] at member
    rcases List.mem_append.mp member with new | old
    · exact (List.eq_of_mem_replicate new).le
    · exact past time old
  have enough : limiter.maxFailures ≤ after.inWindow limiter key now := by
    have own : recent limiter.windowSec (List.replicate (limiter.maxFailures -
        recent limiter.windowSec (failuresOf key usage.calls) now) now) now = limiter.maxFailures -
          recent limiter.windowSec (failuresOf key usage.calls) now := by
      rw [recent, List.countP_replicate, sub_self, if_pos (decide_eq_true width)]
    rw [inWindow_eq none_later, recorded, recent_append, own]
    omega
  have blocked := (agrees key now clock.le).mpr enough
  rw [FailureLimiter.isBlocked, prune_fst] at blocked
  have counted : limiter.maxFailures ≤
      (Window.prune limiter.windowSec (storedOf after.failures key) now).length :=
    of_decide_eq_true blocked
  have pruned : (Window.prune limiter.windowSec (storedOf after.failures key) now).length ≤
      (storedOf after.failures key).length := (List.dropWhile_sublist _).length_le
  omega

/-- Where a failure in the window is evicted, failures of the same key soon go uncounted. -/
theorem Tracks.exposed (tracks : Tracks limiter usage) (room : 1 ≤ limiter.maxKeys)
    (limit : 1 ≤ limiter.maxFailures) (later : usage.clock ≤ now)
    (harmful : ¬ KeepsWindow limiter usage (.recordFailure key now)) :
    ∃ oldest ∈ usage.failures.keys, ∃ count after, (usageOf limiter).run anyStep usage
      (.recordFailure key now :: List.replicate count (.recordFailure oldest now)) = some after ∧
      ¬ after.Exact limiter := by
  obtain ⟨full, harm⟩ := not_or.mp harmful
  have exists_oldest : ∃ oldest, usage.failures.first = some oldest ∧
      (limiter.prune usage.failures oldest now).1 ≠ [] ∧
        ¬ (oldest = key ∧ limiter.maxFailures ≤ 1) := by
    simpa [not_or] using harm
  obtain ⟨oldest, first, lost, several⟩ := exists_oldest
  refine ⟨oldest, Dict.first_mem first, ?_⟩
  -- at least one failure of the evicted key is in the window
  rw [prune_fst, prune_eq_filter (tracks.sorted oldest)] at lost
  obtain ⟨time, inside⟩ := List.exists_mem_of_ne_nil _ lost
  obtain ⟨member, fresh⟩ := List.mem_filter.mp inside
  have width : 0 ≤ limiter.windowSec :=
    (sub_nonneg.mpr ((tracks.stored oldest time member).trans later)).trans (of_decide_eq_true fresh)
  have one_stored : 0 < recent limiter.windowSec (storedOf usage.failures oldest) now :=
    List.countP_pos_iff.mpr ⟨time, member, fresh⟩
  have agree := tracks.agree oldest now later
  have past : ∀ time ∈ failuresOf oldest usage.calls, time ≤ now := fun time listed =>
    (tracks.recorded oldest time listed).trans later
  -- the step drops it
  obtain ⟨next, taken, clock, calls⟩ := record_taken room key later
  have stored := record_evicts (Nat.not_lt.mp full) first taken
  have recorded : failuresOf oldest next.calls = if oldest = key then
      now :: failuresOf key usage.calls else failuresOf oldest usage.calls := by
    rw [calls, failuresOf_record]
  have exposes : ∃ count after, (usageOf limiter).run anyStep next
      (List.replicate count (.recordFailure oldest now)) = some after ∧ ¬ after.Exact limiter := by
    by_cases own : oldest = key
    · subst own
      rw [if_pos rfl] at stored recorded
      refine record_exposes room width clock ?_ ?_
      · rw [recorded]
        exact List.forall_mem_cons.mpr ⟨le_refl now, past⟩
      · have counted : recent limiter.windowSec [now] now = 1 := by
          rw [recent, List.countP_singleton, sub_self, if_pos (decide_eq_true width)]
        rw [stored, recorded, recent_cons now (failuresOf oldest usage.calls), counted,
          List.length_singleton]
        have two : ¬ limiter.maxFailures ≤ 1 := fun one => several ⟨rfl, one⟩
        omega
    · rw [if_neg own] at stored recorded
      refine record_exposes room width clock ?_ ?_
      · rw [recorded]
        exact past
      · rw [stored, recorded, List.length_nil]
        omega
  obtain ⟨count, after, ran, wrong⟩ := exposes
  exact ⟨count, after, Machine.run_cons.mpr ⟨trivial, next, taken, ran⟩, wrong⟩

end Exposure

/-- For every sequence of calls: every call returns and no more than `max_keys` keys are stored;
as long as no eviction loses a failure in the window, `is_blocked` is exact; and where one does,
failures of the evicted key can follow which make it wrong. -/
theorem limiter_exact {limiter : FailureLimiter} (limit : 1 ≤ limiter.maxFailures)
    (room : 1 ≤ limiter.maxKeys) :
    (∀ usage, (usageOf limiter).Reachable anyStep usage → usage.Fits limiter ∧
      ∀ call, ∃ after, limiter.call usage.failures call = some after) ∧
    (∀ usage, (usageOf limiter).Reachable (KeepsWindow limiter) usage → usage.Exact limiter) ∧
    ∀ usage, (usageOf limiter).Reachable (KeepsWindow limiter) usage → ∀ key now, usage.clock ≤ now →
      ¬ KeepsWindow limiter usage (.recordFailure key now) → ∃ oldest ∈ usage.failures.keys,
        ∃ count after, (usageOf limiter).run anyStep usage (.recordFailure key now ::
          List.replicate count (.recordFailure oldest now)) = some after ∧ ¬ after.Exact limiter := by
  refine ⟨?_, ?_, ?_⟩
  · exact fun usage reachable => ⟨reachable_fits reachable, call_returns room usage.failures⟩
  · exact fun usage reachable => (reachable_tracks reachable).exact
  · exact fun usage reachable key now later harmful =>
      (reachable_tracks reachable).exposed room limit later harmful

/-- One key, and two failures block it. -/
def singleKey : FailureLimiter := { maxFailures := 2, windowSec := 300, maxKeys := 1 }

theorem limiter_exact_singleKey : ∃ usage,
    (usageOf singleKey).Reachable (KeepsWindow singleKey) usage ∧ usage.calls.length = 2 ∧ usage.Exact singleKey := by
  have ran : ((usageOf singleKey).run (KeepsWindow singleKey) {}
      [.recordFailure "a" 0, .recordFailure "b" 400]).any (fun usage => usage.calls.length = 2) =
        true := by
    decide +kernel
  obtain ⟨usage, reachable, called⟩ := Machine.reachable_of_check (by exact ⟨rfl, rfl⟩) _ ran
  exact ⟨usage, reachable, by simpa using called,
    (limiter_exact (by decide) (by decide)).2.1 usage reachable⟩

/-- The second failure of the only key evicts the first one. -/
theorem limiter_forgets : ∃ usage, (usageOf singleKey).run anyStep {}
    [.recordFailure "a" 0, .recordFailure "a" 1] = some usage ∧
    usage.inWindow singleKey "a" 1 = 2 ∧ (singleKey.isBlocked usage.failures "a" 1).1 = false ∧
    ¬ usage.Exact singleKey := by
  have ran : ((usageOf singleKey).run anyStep {} [.recordFailure "a" 0, .recordFailure "a" 1]).any
      (fun usage => usage.clock = 1 ∧ usage.inWindow singleKey "a" 1 = 2 ∧
        (singleKey.isBlocked usage.failures "a" 1).1 = false) = true := by
    decide +kernel
  obtain ⟨usage, result, shown⟩ := (Option.any_eq_true ..).mp ran
  obtain ⟨clock, counted, free⟩ := of_decide_eq_true shown
  refine ⟨usage, result, counted, free, fun agrees => ?_⟩
  have blocked := (agrees "a" 1 clock.le).mpr counted.ge
  rw [free] at blocked
  cases blocked

end Pulse
