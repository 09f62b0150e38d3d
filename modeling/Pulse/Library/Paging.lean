import Mathlib.Data.List.Sort
import Mathlib.Order.Basic

/-! A reader which pages through rows in the order of a key and remembers nothing but
the key of the last row of a full page: it misses no row if and only if no page ends
among rows with one key. -/
namespace Library.Paging
universe u v
variable {Row : Type u} {Key : Type v} [LinearOrder Key] (key : Row → Key)

/-- `WHERE key > since`. -/
def later (rows : List Row) (since : Key) : List Row := rows.filter fun row => since < key row

/-- `ORDER BY key` may return the later rows so: rows with one key come in any order. -/
def Ordered (rows : List Row) (since : Key) (ordered : List Row) : Prop :=
  ordered.Perm (later key rows since) ∧ ordered.Pairwise fun first second => key first ≤ key second

instance [DecidableEq Row] (rows : List Row) (since : Key) (ordered : List Row) :
    Decidable (Ordered key rows since ordered) :=
  inferInstanceAs (Decidable (_ ∧ _))

/-- How many of the later rows come before the key, and how many do not come after it. -/
def before (rows : List Row) (since value : Key) : Nat :=
  (later key rows since).countP fun row => key row < value

def upTo (rows : List Row) (since value : Key) : Nat :=
  (later key rows since).countP fun row => key row ≤ value

/-- Where pages of `limit` later rows are cut, no two rows with one key are parted. -/
def Whole (rows : List Row) (limit : Nat) (since : Key) : Prop :=
  ∀ row ∈ later key rows since,
    upTo key rows since (key row) ≤ limit * (before key rows since (key row) / limit + 1)

instance (rows : List Row) (limit : Nat) (since : Key) : Decidable (Whole key rows limit since) :=
  inferInstanceAs (Decidable (∀ row ∈ later key rows since, _))

section Rows
variable {key} {rows ordered : List Row} {limit : Nat} {since middle value : Key} {row : Row}

theorem mem_later : row ∈ later key rows since ↔ row ∈ rows ∧ since < key row := by
  simp [later]

theorem Ordered.mem_iff (arranged : Ordered key rows since ordered) :
    row ∈ ordered ↔ row ∈ rows ∧ since < key row :=
  arranged.1.mem_iff.trans mem_later

variable (key) in
/-- There always is such an order. -/
theorem exists_ordered (rows : List Row) (since : Key) : ∃ ordered, Ordered key rows since ordered := by
  refine ⟨(later key rows since).mergeSort fun first second => key first ≤ key second,
    List.mergeSort_perm _ _, ?_⟩
  have sorted : List.Pairwise (fun first second => decide (key first ≤ key second) = true)
      ((later key rows since).mergeSort fun first second => key first ≤ key second) :=
    List.pairwise_mergeSort (fun first second third left right => by
      simp only [decide_eq_true_eq] at *
      exact left.trans right) (fun first second => by simpa using le_total (key first) (key second))
      (later key rows since)
  exact sorted.imp fun related => by simpa using related

theorem upTo_split (left : since ≤ middle) (right : middle ≤ value) :
    upTo key rows since value = upTo key rows since middle + upTo key rows middle value := by
  unfold upTo later
  simp only [List.countP_filter]
  induction rows with
  | nil => rfl
  | cons row rest ih =>
    simp only [List.countP_cons, ih]
    grind

theorem before_split (left : since ≤ middle) (right : middle < value) :
    before key rows since value = upTo key rows since middle + before key rows middle value := by
  unfold upTo before later
  simp only [List.countP_filter]
  induction rows with
  | nil => rfl
  | cons row rest ih =>
    simp only [List.countP_cons, ih]
    grind

theorem upTo_mono (below : middle ≤ value) :
    upTo key rows since middle ≤ upTo key rows since value := by
  apply List.countP_mono_left
  intro row _ early
  simp only [decide_eq_true_eq] at *
  exact early.trans below

end Rows

/-! A full page: `front` and then `last`, with `rest` behind the cut. -/

section Full
variable {key} {rows front rest : List Row} {last : Row} {limit : Nat} {since : Key}
  (arranged : Ordered key rows since (front ++ last :: rest))
include arranged

theorem Ordered.front_le : ∀ row ∈ front, key row ≤ key last := by
  intro row member
  exact (List.pairwise_append.mp arranged.2).2.2 row member last List.mem_cons_self

theorem Ordered.le_rest : ∀ row ∈ rest, key last ≤ key row :=
  (List.pairwise_cons.mp (List.pairwise_append.mp arranged.2).2.1).1

theorem Ordered.since_lt_last : since < key last :=
  (arranged.mem_iff.mp (List.mem_append_right _ List.mem_cons_self)).2

theorem Ordered.before_last : before key rows since (key last) ≤ front.length := by
  unfold before
  rw [← arranged.1.countP_eq, List.countP_append, List.countP_cons_of_neg (by simp)]
  have none : rest.countP (fun row => key row < key last) = 0 := by
    apply List.countP_eq_zero.mpr
    intro row member
    simpa using arranged.le_rest row member
  rw [none, Nat.add_zero]
  exact List.countP_le_length

theorem Ordered.upTo_last : upTo key rows since (key last) =
    front.length + 1 + rest.countP fun row => key row ≤ key last := by
  unfold upTo
  rw [← arranged.1.countP_eq, List.countP_append, List.countP_cons_of_pos (by simp)]
  have all : front.countP (fun row => key row ≤ key last) = front.length := by
    apply List.countP_eq_length.mpr
    intro row member
    simpa using arranged.front_le row member
  omega

/-- Where no row of the same key is left behind the cut, a page was taken off. -/
theorem Ordered.upTo_clean (clean : ∀ row ∈ rest, key last < key row) :
    upTo key rows since (key last) = front.length + 1 := by
  rw [arranged.upTo_last]
  have none : rest.countP (fun row => key row ≤ key last) = 0 := by
    apply List.countP_eq_zero.mpr
    intro row member
    simpa using clean row member
  omega

/-- A cut which parts no rows of one key leaves the later ones for the next page. -/
theorem Whole.clean (whole : Whole key rows limit since) (full : front.length + 1 = limit) :
    ∀ row ∈ rest, key last < key row := by
  have cut := whole last (arranged.1.mem_iff.mp (List.mem_append_right _ List.mem_cons_self))
  rw [Nat.div_eq_of_lt (by have := arranged.before_last; omega), arranged.upTo_last] at cut
  have none : rest.countP (fun row => key row ≤ key last) = 0 := by omega
  intro row member
  simpa using List.countP_eq_zero.mp none row member

/-- The pages after a clean cut are cut as before. -/
theorem Ordered.whole_iff (full : front.length + 1 = limit) (clean : ∀ row ∈ rest, key last < key row) :
    Whole key rows limit since ↔ Whole key rows limit (key last) := by
  have taken := arranged.upTo_clean clean
  have below := le_of_lt arranged.since_lt_last
  have shifted : ∀ row, key last < key row →
      (upTo key rows since (key row) ≤ limit * (before key rows since (key row) / limit + 1) ↔
        upTo key rows (key last) (key row) ≤
          limit * (before key rows (key last) (key row) / limit + 1)) := by
    intro row after
    rw [upTo_split below (le_of_lt after), before_split below after, taken, full,
      Nat.add_div_left _ (by omega), Nat.mul_succ limit (_ + 1)]
    omega
  constructor
  · intro whole row member
    obtain ⟨present, after⟩ := mem_later.mp member
    exact (shifted row after).mp (whole row (mem_later.mpr ⟨present, arranged.since_lt_last.trans after⟩))
  · intro whole row member
    obtain ⟨present, after⟩ := mem_later.mp member
    rcases lt_or_ge (key last) (key row) with behind | within
    · exact (shifted row behind).mpr (whole row (mem_later.mpr ⟨present, behind⟩))
    · calc upTo key rows since (key row)
          ≤ upTo key rows since (key last) := upTo_mono within
        _ = limit * 1 := by omega
        _ ≤ limit * (before key rows since (key row) / limit + 1) :=
            Nat.mul_le_mul_left limit (Nat.le_add_left ..)

/-- A cut somewhere parts rows with one key: this one, or one after it. -/
theorem Ordered.torn (full : front.length + 1 = limit) (torn : ¬ Whole key rows limit since) :
    (∃ row ∈ rest, key row = key last) ∨ ¬ Whole key rows limit (key last) := by
  by_cases clean : ∀ row ∈ rest, key last < key row
  · exact .inr fun whole => torn ((arranged.whole_iff full clean).mpr whole)
  · push Not at clean
    obtain ⟨row, member, early⟩ := clean
    exact .inl ⟨row, member, le_antisymm early (arranged.le_rest row member)⟩

/-- Each page leaves fewer rows. -/
theorem Ordered.later_lt : (later key rows (key last)).length < (later key rows since).length := by
  have again : later key rows (key last) =
      (later key rows since).filter fun row => key last < key row := by
    unfold later
    rw [List.filter_filter]
    apply List.filter_congr
    intro row _
    have below := arranged.since_lt_last
    grind
  rw [again]
  apply List.length_filter_lt_length_iff_exists.mpr
  exact ⟨last, arranged.1.mem_iff.mp (List.mem_append_right _ List.mem_cons_self), by simp⟩

end Full

/-- A page which is not full parts nothing. -/
theorem whole_of_short {rows ordered : List Row} {limit : Nat} {since : Key}
    (arranged : Ordered key rows since ordered) (short : ordered.length ≤ limit) :
    Whole key rows limit since := by
  intro row member
  have bounded : upTo key rows since (key row) ≤ (later key rows since).length := List.countP_le_length
  rw [← arranged.1.length_eq] at bounded
  calc upTo key rows since (key row) ≤ limit * 1 := by omega
    _ ≤ limit * (before key rows since (key row) / limit + 1) :=
        Nat.mul_le_mul_left limit (Nat.le_add_left ..)

end Library.Paging
