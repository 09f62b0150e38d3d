import Mathlib.Algebra.Order.Floor.Div
import Mathlib.Data.List.Basic

/-! Arranging rows by orders which may leave some of them undistinguished, and cutting an
arrangement into pages. -/
namespace Library.Pages
universe u v
variable {Row : Type u} {Other : Type v}

/-- A total preorder. -/
structure Comparison (Row : Type u) where
  le : Row → Row → Bool
  total : ∀ first second, (le first second || le second first) = true
  trans : ∀ first second third, le first second = true → le second third = true →
    le first third = true

/-- Nothing is distinguished. -/
def Comparison.nothing : Comparison Row where
  le := fun _ _ => true
  total := fun _ _ => rfl
  trans := fun _ _ _ _ _ => rfl

/-- Rows with a linear order. -/
def Comparison.ofLinear [LinearOrder Row] : Comparison Row where
  le := fun first second => decide (first ≤ second)
  total := fun first second => by simpa using le_total first second
  trans := fun first second third left right =>
    decide_eq_true ((of_decide_eq_true left).trans (of_decide_eq_true right))

section Operations
variable (comparison : Comparison Row)

def Comparison.reverse : Comparison Row where
  le := fun first second => comparison.le second first
  total := fun first second => comparison.total second first
  trans := fun first second third left right => comparison.trans third second first right left

/-- Rows are compared by what a function makes of them. -/
def Comparison.on (read : Other → Row) : Comparison Other where
  le := fun first second => comparison.le (read first) (read second)
  total := fun first second => comparison.total (read first) (read second)
  trans := fun first second third => comparison.trans (read first) (read second) (read third)

/-- What is missing comes last. -/
def Comparison.missingLast : Comparison (Option Row) where
  le := fun first second => match first, second with
    | _, none => true
    | none, some _ => false
    | some first, some second => comparison.le first second
  total := fun first second => by
    cases first with
    | none => cases second <;> rfl
    | some first =>
      cases second with
      | none => rfl
      | some second => exact comparison.total first second
  trans := fun first second third left right => by
    cases third with
    | none => cases first <;> rfl
    | some third =>
      cases second with
      | none => cases right
      | some second =>
        cases first with
        | none => cases left
        | some first => exact comparison.trans first second third left right

/-- The second comparison decides where the first does not. -/
def Comparison.thenBy (second : Comparison Row) : Comparison Row where
  le := fun left right =>
    comparison.le left right && (!comparison.le right left || second.le left right)
  total := fun left right => by
    have first := comparison.total left right
    have next := second.total left right
    cases forth : comparison.le left right <;> cases back : comparison.le right left <;> simp_all
  trans := fun left middle right before after => by
    simp only [Bool.and_eq_true, Bool.or_eq_true, Bool.not_eq_true'] at *
    refine ⟨comparison.trans _ _ _ before.1 after.1, ?_⟩
    cases back : comparison.le right left with
    | false => exact .inl rfl
    | true =>
      have first : comparison.le middle left = true := comparison.trans _ _ _ after.1 back
      have last : comparison.le right middle = true := comparison.trans _ _ _ back before.1
      right
      refine second.trans _ _ _ (before.2.resolve_left ?_) (after.2.resolve_left ?_)
      · simp [first]
      · simp [last]

theorem Comparison.thenBy_le (second : Comparison Row) {left right : Row} :
    (comparison.thenBy second).le left right = true ↔ comparison.le left right = true ∧
      (comparison.le right left = true → second.le left right = true) := by
  simp only [Comparison.thenBy, Bool.and_eq_true, Bool.or_eq_true, Bool.not_eq_true']
  cases comparison.le right left <;> simp

end Operations

/-- One comparison after the other. -/
def lexicographic (comparisons : List (Comparison Row)) : Comparison Row :=
  comparisons.foldr Comparison.thenBy .nothing

theorem lexicographic_undistinguished {comparisons : List (Comparison Row)}
    {comparison : Comparison Row} {left right : Row} (member : comparison ∈ comparisons)
    (forth : (lexicographic comparisons).le left right = true)
    (back : (lexicographic comparisons).le right left = true) :
    comparison.le left right = true := by
  induction comparisons with
  | nil => cases member
  | cons first rest ih =>
    obtain ⟨leftFirst, leftRest⟩ := (first.thenBy_le (lexicographic rest)).mp forth
    obtain ⟨rightFirst, rightRest⟩ := (first.thenBy_le (lexicographic rest)).mp back
    rcases List.mem_cons.mp member with rfl | later
    · exact leftFirst
    · exact ih later (leftRest rightFirst) (rightRest leftFirst)

/-! Arrangements. -/

/-- The rows in an order which the comparison allows. -/
def Arranged (comparison : Comparison Row) (rows ordered : List Row) : Prop :=
  ordered.Perm rows ∧ ordered.Pairwise fun left right => comparison.le left right = true

section Arrangements
variable {comparison : Comparison Row} {rows ordered other : List Row}

variable (comparison rows) in
theorem exists_arranged : ∃ ordered, Arranged comparison rows ordered := by
  refine ⟨rows.mergeSort comparison.le, List.mergeSort_perm _ _, ?_⟩
  exact List.pairwise_mergeSort comparison.trans comparison.total rows

/-- There is only one where the comparison distinguishes the rows. -/
theorem Arranged.unique (first : Arranged comparison rows ordered)
    (second : Arranged comparison rows other)
    (distinguished : ∀ left ∈ rows, ∀ right ∈ rows, comparison.le left right = true →
      comparison.le right left = true → left = right) : ordered = other := by
  refine List.Perm.eq_of_pairwise ?_ first.2 second.2 (first.1.trans second.1.symm)
  intro left right leftMember rightMember
  exact distinguished left (first.1.mem_iff.mp leftMember) right (second.1.mem_iff.mp rightMember)

end Arrangements

/-! Pages. -/

/-- The page of so many rows which has so many pages before it. -/
def page (rows : List Row) (size earlier : Nat) : List Row := (rows.drop (earlier * size)).take size

section Cut
variable {rows : List Row} {size earlier : Nat}

theorem length_page : (page rows size earlier).length = min size (rows.length - earlier * size) := by
  rw [page, List.length_take, List.length_drop]

theorem flatMap_page (rows : List Row) (size many : Nat) :
    (List.range many).flatMap (page rows size) = rows.take (many * size) := by
  induction many with
  | zero => simp
  | succ many ih =>
    rw [List.range_succ, List.flatMap_append, ih, List.flatMap_singleton, page, Nat.succ_mul,
      List.take_add]

theorem lt_ceilDiv (positive : 0 < size) {total : Nat} :
    earlier < total ⌈/⌉ size ↔ earlier * size < total := by
  rw [← not_le, ceilDiv_le_iff_le_mul positive, not_le, Nat.mul_comm]

/-- As many pages as it takes hold all rows, each once and in their order. -/
theorem flatMap_pages (positive : 0 < size) :
    (List.range (rows.length ⌈/⌉ size)).flatMap (page rows size) = rows := by
  rw [flatMap_page]
  apply List.take_of_length_le
  by_contra short
  exact Nat.lt_irrefl _ ((lt_ceilDiv positive).mpr (not_le.mp short))

theorem length_page_full (positive : 0 < size) (earlier : Nat)
    (before : earlier + 1 < rows.length ⌈/⌉ size) : (page rows size earlier).length = size := by
  have reached := (lt_ceilDiv positive).mp before
  rw [Nat.succ_mul] at reached
  rw [length_page]
  omega

theorem length_page_last (positive : 0 < size) (last : earlier + 1 = rows.length ⌈/⌉ size) :
    1 ≤ (page rows size earlier).length ∧ (page rows size earlier).length ≤ size := by
  have within : earlier < rows.length ⌈/⌉ size := by
    rw [← last]
    exact Nat.lt_succ_self earlier
  have reached := (lt_ceilDiv positive).mp within
  rw [length_page]
  omega

theorem page_beyond (positive : 0 < size) (beyond : rows.length ⌈/⌉ size ≤ earlier) :
    page rows size earlier = [] := by
  have reached : rows.length ≤ earlier * size := by
    by_contra within
    exact absurd ((lt_ceilDiv positive).mpr (not_le.mp within)) (not_lt.mpr beyond)
  rw [page, List.drop_eq_nil_of_le reached, List.take_nil]

end Cut
end Library.Pages
