import Mathlib.Algebra.BigOperators.Group.List.Basic
import Mathlib.Data.Int.Interval
import Mathlib.Data.List.Dedup
import Mathlib.Data.List.Sort

/-! Rows grouped by a key, in the order of the key: no row is lost, and none counts twice. -/
namespace Library.Grouping
universe u v
variable {Row : Type u} {Key : Type v}

/-- The rows of one group. -/
def group [DecidableEq Key] (key : Row → Key) (rows : List Row) (value : Key) : List Row :=
  rows.filter fun row => key row = value

/-- The keys which occur, in order. -/
def keys [LinearOrder Key] (key : Row → Key) (rows : List Row) : List Key :=
  (rows.map key).dedup.insertionSort fun first second => first ≤ second

section Counts
variable [DecidableEq Key] {key : Row → Key} {rows : List Row} {values : List Key}

theorem group_cons (row : Row) (rows : List Row) (value : Key) (counted : Row → Bool) :
    (group key (row :: rows) value).countP counted =
      (group key rows value).countP counted + if key row = value ∧ counted row then 1 else 0 := by
  unfold group
  by_cases same : key row = value
  · rw [List.filter_cons_of_pos (by simpa using same), List.countP_cons]
    simp [same]
  · rw [List.filter_cons_of_neg (by simpa using same)]
    simp [same]

/-- A row counts in the group of its key, once. -/
theorem sum_indicator (distinct : values.Nodup) (row : Row) (counted : Row → Bool) :
    (values.map fun value => if key row = value ∧ counted row then 1 else 0).sum =
      if key row ∈ values ∧ counted row then 1 else 0 := by
  induction values with
  | nil => simp
  | cons head rest ih =>
    obtain ⟨absent, tail⟩ := List.nodup_cons.mp distinct
    rw [List.map_cons, List.sum_cons, ih tail]
    by_cases same : key row = head
    · subst same
      simp [absent]
    · simp [same]

/-- The groups of some keys count the rows with one of these keys. -/
theorem sum_groups (distinct : values.Nodup) (rows : List Row) (counted : Row → Bool) :
    (values.map fun value => (group key rows value).countP counted).sum =
      rows.countP fun row => key row ∈ values && counted row := by
  induction rows with
  | nil => simp [group]
  | cons row rest ih =>
    simp only [group_cons, List.sum_map_add, ih, sum_indicator distinct row counted,
      List.countP_cons]
    congr 1
    simp

end Counts

section Keys
variable [LinearOrder Key] {key : Row → Key} {rows : List Row}

theorem mem_keys {value : Key} : value ∈ keys key rows ↔ ∃ row ∈ rows, key row = value := by
  rw [keys, List.mem_insertionSort, List.mem_dedup, List.mem_map]

theorem keys_nodup : (keys key rows).Nodup :=
  (List.perm_insertionSort _ _).nodup_iff.mpr (List.nodup_dedup _)

/-- The keys are in order, and none occurs twice. -/
theorem keys_ordered : (keys key rows).Pairwise fun first second => first < second := by
  have sorted : (keys key rows).Pairwise fun first second => first ≤ second :=
    List.pairwise_insertionSort _ _
  exact (sorted.and keys_nodup).imp fun both => lt_of_le_of_ne both.1 both.2

/-- Every row counts in one group. -/
theorem sum_keys (counted : Row → Bool) :
    ((keys key rows).map fun value => (group key rows value).countP counted).sum =
      rows.countP counted := by
  rw [sum_groups keys_nodup]
  refine List.countP_congr fun row member => ?_
  simp [show key row ∈ keys key rows from mem_keys.mpr ⟨row, member, rfl⟩]

theorem group_nonempty {value : Key} (occurs : value ∈ keys key rows) :
    ∃ row, row ∈ group key rows value := by
  obtain ⟨row, member, same⟩ := mem_keys.mp occurs
  exact ⟨row, List.mem_filter.mpr ⟨member, decide_eq_true same⟩⟩

end Keys

/-- There are no more integer keys than integers between the bounds. -/
theorem length_le_of_bounded {values : List Int} (distinct : values.Nodup) {low high : Int}
    (bounded : ∀ value ∈ values, low ≤ value ∧ value ≤ high) :
    values.length ≤ (high + 1 - low).toNat := by
  rw [← List.toFinset_card_of_nodup distinct, ← Int.card_Icc]
  refine Finset.card_le_card fun value member => ?_
  exact Finset.mem_Icc.mpr (bounded value (List.mem_toFinset.mp member))

end Library.Grouping
