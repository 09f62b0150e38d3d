import Pulse.Schema
import Pulse.Library.Dict
import Pulse.Library.Window

/-! `FailureLimiter` of `core/ratelimit.py`: failed attempts of each key in a sliding
window. -/
namespace Pulse
open Library Library.Window

structure FailureLimiter where
  maxFailures : Nat
  windowSec : ℚ
  maxKeys : Nat := 50000
deriving DecidableEq, Repr

/-- `_failures`: the deque of each key, its oldest time first. -/
abbrev Failures := Dict String (List Time)

/-- `login_limiter`. -/
def loginLimiter : FailureLimiter := { maxFailures := 10, windowSec := 300 }

namespace FailureLimiter
variable (limiter : FailureLimiter) (failures : Failures) (key : String) (now : Time)

/-- `_prune`: the deque of the key, and what is left in `_failures`. -/
def prune : List Time × Failures :=
  match failures.get? key with
  | none => ([], failures)
  | some q =>
    let q := Window.prune limiter.windowSec q now
    if q.isEmpty then (q, failures.erase key) else (q, failures.set key q)

def isBlocked : Bool × Failures :=
  let pruned := limiter.prune failures key now
  (limiter.maxFailures ≤ pruned.1.length, pruned.2)

/-- Drop the key inserted first, where there is no room; `none` where `next` raises. -/
def evict : Option Failures :=
  if limiter.maxKeys ≤ failures.size then failures.first.map failures.erase else some failures

def recordFailure : Option Failures :=
  (limiter.evict failures).map fun kept =>
    let pruned := limiter.prune kept key now
    pruned.2.set key (pruned.1 ++ [now])

def reset : Failures := failures.erase key

end FailureLimiter

/-- The times which are stored for a key. -/
def storedOf (failures : Failures) (key : String) : List Time := (failures.get? key).getD []

section Stored
variable {limiter : FailureLimiter} {failures after : Failures} {key other : String} {now : Time}

theorem storedOf_erase : storedOf (failures.erase key) other =
    if other = key then [] else storedOf failures other := by
  unfold storedOf
  split
  · rename_i same
    rw [same, Dict.get?_erase_self]
    rfl
  · rename_i different
    rw [Dict.get?_erase_ne different]

theorem storedOf_set {times : List Time} : storedOf (failures.set key times) other =
    if other = key then times else storedOf failures other := by
  unfold storedOf
  split
  · rename_i same
    rw [same, Dict.get?_set_self]
    rfl
  · rename_i different
    rw [Dict.get?_set_ne different]

theorem prune_fst :
    (limiter.prune failures key now).1 = Window.prune limiter.windowSec (storedOf failures key) now := by
  unfold FailureLimiter.prune storedOf
  cases failures.get? key with
  | none => rfl
  | some q =>
    dsimp only
    split <;> rfl

/-- Pruning a key leaves the others. -/
theorem storedOf_prune : storedOf (limiter.prune failures key now).2 other =
    if other = key then Window.prune limiter.windowSec (storedOf failures key) now
    else storedOf failures other := by
  rw [← prune_fst]
  unfold FailureLimiter.prune
  cases found : failures.get? key with
  | none =>
    change storedOf failures other = if other = key then [] else storedOf failures other
    split
    · rename_i same
      rw [same, storedOf, found]
      rfl
    · rfl
  | some q =>
    dsimp only
    split
    · rename_i empty
      rw [storedOf_erase, List.isEmpty_iff.mp empty]
    · exact storedOf_set

theorem prune_size : (limiter.prune failures key now).2.size ≤ failures.size := by
  unfold FailureLimiter.prune
  cases found : failures.get? key with
  | none => exact le_refl _
  | some q =>
    dsimp only
    split
    · exact Dict.size_erase_le
    · rw [Dict.size_set_of_mem (Dict.mem_keys.mpr ⟨q, found⟩)]

/-- A key which is stored needs no further room. -/
theorem prune_set_size (present : key ∈ failures.keys) (times : List Time) :
    ((limiter.prune failures key now).2.set key times).size ≤ failures.size := by
  obtain ⟨q, found⟩ := Dict.mem_keys.mp present
  unfold FailureLimiter.prune
  rw [found]
  dsimp only
  split
  · exact Dict.size_set_le.trans (Dict.size_erase_of_mem present)
  · have stays : key ∈ (failures.set key (Window.prune limiter.windowSec q now)).keys :=
      Dict.mem_keys.mpr ⟨_, Dict.get?_set_self⟩
    rw [Dict.size_set_of_mem stays, Dict.size_set_of_mem present]

/-- Eviction drops one key, or none where there is room. -/
theorem evict_cases (evicted : limiter.evict failures = some after) :
    (failures.size < limiter.maxKeys ∧ after = failures) ∨
      ∃ oldest, limiter.maxKeys ≤ failures.size ∧ failures.first = some oldest ∧
        after = failures.erase oldest := by
  unfold FailureLimiter.evict at evicted
  split at evicted
  · rename_i full
    obtain ⟨oldest, first, rfl⟩ := Option.map_eq_some_iff.mp evicted
    exact .inr ⟨oldest, full, first, rfl⟩
  · rename_i room
    exact .inl ⟨not_le.mp room, (Option.some.inj evicted).symm⟩

/-- With room for one key nothing raises. -/
theorem evict_returns (room : 1 ≤ limiter.maxKeys) (failures : Failures) :
    ∃ after, limiter.evict failures = some after := by
  unfold FailureLimiter.evict
  split
  · rename_i full
    cases first : failures.first with
    | none =>
      have empty := Dict.first_eq_none.mp first
      omega
    | some oldest => exact ⟨_, rfl⟩
  · exact ⟨_, rfl⟩

theorem recordFailure_eq (written : limiter.recordFailure failures key now = some after) :
    ∃ kept, limiter.evict failures = some kept ∧ ∀ other, storedOf after other =
      if other = key then Window.prune limiter.windowSec (storedOf kept key) now ++ [now]
      else storedOf kept other := by
  obtain ⟨kept, evicted, rfl⟩ := Option.map_eq_some_iff.mp written
  refine ⟨kept, evicted, fun other => ?_⟩
  rw [storedOf_set, prune_fst]
  split
  · rfl
  · rename_i different
    rw [storedOf_prune, if_neg different]

theorem recordFailure_returns (room : 1 ≤ limiter.maxKeys) (failures : Failures) (key : String)
    (now : Time) : ∃ after, limiter.recordFailure failures key now = some after := by
  obtain ⟨kept, evicted⟩ := evict_returns room failures
  exact ⟨_, by rw [FailureLimiter.recordFailure, evicted, Option.map_some]⟩

/-- The number of keys stays bounded. -/
theorem recordFailure_size (bounded : failures.size ≤ limiter.maxKeys)
    (written : limiter.recordFailure failures key now = some after) :
    after.size ≤ limiter.maxKeys := by
  obtain ⟨kept, evicted, rfl⟩ := Option.map_eq_some_iff.mp written
  have spared : kept.size + 1 ≤ limiter.maxKeys := by
    rcases evict_cases evicted with ⟨fits, rfl⟩ | ⟨oldest, _, first, rfl⟩
    · exact fits
    · exact (Dict.size_erase_of_mem (Dict.first_mem first)).trans_le bounded
  calc ((limiter.prune kept key now).2.set key _).size
      ≤ (limiter.prune kept key now).2.size + 1 := Dict.size_set_le
    _ ≤ kept.size + 1 := Nat.add_le_add_right prune_size 1
    _ ≤ limiter.maxKeys := spared

end Stored
end Pulse
