import Mathlib.Algebra.Order.Group.Basic
import Mathlib.Algebra.Order.Group.Unbundled.Basic
import Mathlib.Algebra.Order.Ring.Nat

/-! Sliding windows: how many of the times on a list are not older than the width of the
window. Two lists agree where they have equally many, up to a limit, from now on. -/
namespace Library.Window
universe u
variable {K : Type u} [AddCommGroup K] [LinearOrder K]

/-- How many of the times are in the window which ends at `now`. -/
def recent (width : K) (times : List K) (now : K) : Nat :=
  times.countP fun time => now - time ≤ width

/-- Drop what has left the window, from the oldest on. -/
def prune (width : K) (times : List K) (now : K) : List K :=
  times.dropWhile fun time => width < now - time

/-- From `clock` on neither list has more in the window than the other, as far as `limit`. -/
def Agree (limit : Nat) (width : K) (clock : K) (first second : List K) : Prop :=
  ∀ now, clock ≤ now → min limit (recent width first now) = min limit (recent width second now)

section Recent
variable {width now after clock : K} {times first second third : List K} {limit : Nat}

theorem recent_append :
    recent width (first ++ second) now = recent width first now + recent width second now :=
  List.countP_append

theorem recent_cons (time : K) (times : List K) :
    recent width (time :: times) now = recent width times now + recent width [time] now := by
  simp only [recent, List.countP_cons, List.countP_nil, Nat.zero_add]

theorem prune_subset : prune width times now ⊆ times :=
  (List.dropWhile_sublist _).subset

theorem prune_sorted (sorted : times.Pairwise (· ≤ ·)) :
    (prune width times now).Pairwise (· ≤ ·) :=
  sorted.sublist (List.dropWhile_sublist _)

theorem Agree.trans (left : Agree limit width clock first second)
    (right : Agree limit width clock second third) : Agree limit width clock first third :=
  fun now passed => (left now passed).trans (right now passed)

theorem Agree.later (agree : Agree limit width clock first second) (passed : clock ≤ after) :
    Agree limit width after first second :=
  fun now late => agree now (passed.trans late)

/-- Both lists get the same time. -/
theorem Agree.push (agree : Agree limit width clock first second) (time : K) :
    Agree limit width clock (first ++ [time]) (time :: second) := by
  intro now passed
  have same := agree now passed
  rw [recent_append, recent_cons time second]
  omega

variable [IsOrderedAddMonoid K]

/-- A window which is moved on loses times. -/
theorem recent_antitone (times : List K) (passed : now ≤ after) :
    recent width times after ≤ recent width times now := by
  apply List.countP_mono_left
  intro time _ inside
  have kept : after - time ≤ width := of_decide_eq_true inside
  exact decide_eq_true ((sub_le_sub_right passed time).trans kept)

/-- Where the times are in order, what is dropped are those which have left the window. -/
theorem prune_eq_filter (sorted : times.Pairwise (· ≤ ·)) :
    prune width times now = times.filter fun time => now - time ≤ width := by
  unfold prune
  induction times with
  | nil => rfl
  | cons time rest ih =>
    obtain ⟨earliest, ordered⟩ := List.pairwise_cons.mp sorted
    by_cases left : width < now - time
    · rw [List.dropWhile_cons_of_pos (by rwa [decide_eq_true_eq]), ih ordered,
        List.filter_cons_of_neg (by rwa [decide_eq_true_eq, not_le])]
    · rw [List.dropWhile_cons_of_neg (by rwa [decide_eq_true_eq]), List.filter_eq_self.mpr]
      intro other member
      have stays : now - time ≤ width := not_lt.mp left
      rcases List.mem_cons.mp member with rfl | behind
      · exact decide_eq_true stays
      · exact decide_eq_true ((sub_le_sub_left (earliest other behind) now).trans stays)

theorem prune_length (sorted : times.Pairwise (· ≤ ·)) :
    (prune width times now).length = recent width times now := by
  rw [prune_eq_filter sorted, ← List.countP_eq_length_filter]
  rfl

/-- What is dropped now is in no later window either. -/
theorem agree_prune (sorted : times.Pairwise (· ≤ ·)) :
    Agree limit width now (prune width times now) times := by
  intro after passed
  have same : recent width (prune width times now) after = recent width times after := by
    rw [prune_eq_filter sorted, recent, recent, List.countP_filter]
    apply List.countP_congr
    intro time _
    simp only [Bool.and_eq_true, decide_eq_true_eq]
    exact ⟨And.left, fun inside => ⟨inside, (sub_le_sub_right passed time).trans inside⟩⟩
  rw [same]

/-- Nothing in the window now, nothing ever. -/
theorem agree_nil (none : recent width times now = 0) : Agree limit width now [] times := by
  intro after passed
  have fewer : recent width times after ≤ recent width times now := recent_antitone times passed
  have nothing : recent width times after = 0 := by omega
  rw [nothing]
  rfl

/-- Where one time is as good as many, the newest of them will do. -/
theorem agree_newest (one : limit ≤ 1) (past : ∀ time ∈ times, time ≤ now) :
    Agree limit width now [now] (now :: times) := by
  intro after passed
  rw [recent_cons now times]
  by_cases inside : after - now ≤ width
  · have counted : recent width [now] after = 1 := by
      rw [recent, List.countP_singleton, if_pos (decide_eq_true inside)]
    omega
  · have nothing : recent width times after = 0 := by
      apply List.countP_eq_zero.mpr
      intro time member kept
      have old : after - time ≤ width := of_decide_eq_true kept
      exact inside ((sub_le_sub_left (past time member) after).trans old)
    rw [nothing, Nat.zero_add]

end Recent
end Library.Window
