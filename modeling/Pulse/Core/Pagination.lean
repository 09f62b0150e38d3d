import Pulse.Library.Pages
import Pulse.Schema

/-! Sorting and paging of a statement. A row is read by the names of its columns. -/
namespace Pulse.Pagination
open Library.Pages

/-- What a column holds; enums, texts, arrays and JSON in their text form. -/
inductive Value where
  | uuid (id : Uuid)
  | number (value : ℚ)
  | text (value : String)
deriving DecidableEq, Repr

/-- `id` is the primary key; NULL is `none`. -/
structure Row where
  id : Uuid
  cells : String → Option Value

def Row.get (row : Row) (field : String) : Option Value :=
  if field = "id" then some (.uuid row.id) else row.cells field

/-- How the database compares the values of each column. It tells primary keys apart. -/
structure Collation where
  column : String → Comparison Value
  ids : ∀ first second, (column "id").le (.uuid first) (.uuid second) = decide (first ≤ second)

/-- One which looks at nothing but the keys. -/
instance : Inhabited Collation where
  default := {
    column := fun _ => Comparison.ofLinear.on fun value => match value with
      | .uuid id => id
      | _ => 0
    ids := fun _ _ => rfl }

structure SortKey where
  field : String
  desc : Bool
deriving DecidableEq, Repr

/-- NULL is larger than every value. -/
def SortKey.comparison (collation : Collation) (key : SortKey) : Comparison Row :=
  let ascending := (collation.column key.field).missingLast.on fun row => row.get key.field
  if key.desc then ascending.reverse else ascending

/-- `rows` are what FROM and WHERE give, each as often as they give it. -/
structure Select where
  rows : List Row
  orderBy : List SortKey := []

/-- The database may return the rows in this order. -/
def Select.Returns (collation : Collation) (stmt : Select) (ordered : List Row) : Prop :=
  Arranged (lexicographic (stmt.orderBy.map (SortKey.comparison collation))) stmt.rows ordered

structure PaginationParams where
  page : Nat := 1
  size : Nat := 20
  page_ge : 1 ≤ page
  size_ge : 1 ≤ size
  size_le : size ≤ 100

def PaginationParams.offset (params : PaginationParams) : Nat := (params.page - 1) * params.size

/-- The same request for the page with so many before it. -/
def PaginationParams.turnTo (params : PaginationParams) (earlier : Nat) : PaginationParams :=
  { params with page := earlier + 1, page_ge := Nat.le_add_left 1 earlier }

/-- The schema reads each item off its row. -/
structure Page where
  items : List Row
  page : Nat
  size : Nat
  total : Nat
  pages : Nat

def sortField (columns : List String) (sort : Option String) (defaultField : String) : String :=
  match sort with
  | some sort => if sort ≠ "" ∧ sort ∈ columns then sort else defaultField
  | none => defaultField

def applySort (stmt : Select) (columns : List String) (sort : Option String) (order : String)
    (defaultField : String := "created_at") : Select :=
  let fieldName := sortField columns sort defaultField
  if fieldName ∉ columns then stmt
  else { stmt with
    orderBy := stmt.orderBy ++ [{ field := fieldName, desc := order = "desc" },
      { field := "id", desc := false }] }

/-- OFFSET is a bigint: the database refuses a larger one. -/
def paginate (stmt : Select) (ordered : List Row) (params : PaginationParams) : Option Page :=
  if params.offset < 2 ^ 63 then
    let total := stmt.rows.length
    some {
      items := (ordered.drop params.offset).take params.size
      page := params.page
      size := params.size
      total
      pages := if total ≠ 0 then (total + params.size - 1) / params.size else 0 }
  else none

/-- A request may be answered with this page, whatever order the database picks. -/
def Answers (collation : Collation) (stmt : Select) (params : PaginationParams) (answer : Page) :
    Prop :=
  ∃ ordered, stmt.Returns collation ordered ∧ paginate stmt ordered params = some answer

section Answers
variable {collation : Collation} {stmt : Select} {params : PaginationParams} {answer : Page}

theorem pages_eq (total : Nat) :
    (if total ≠ 0 then (total + params.size - 1) / params.size else 0) = total ⌈/⌉ params.size := by
  split
  · exact (Nat.ceilDiv_eq_add_pred_div _ _).symm
  · rename_i none
    rw [not_not.mp none]
    exact (zero_ceilDiv params.size).symm

/-- What an answer holds. -/
theorem Answers.page {earlier : Nat} (answers : Answers collation stmt (params.turnTo earlier) answer) :
    ∃ ordered, stmt.Returns collation ordered ∧ answer.items = page ordered params.size earlier ∧
      answer.total = stmt.rows.length ∧ answer.pages = stmt.rows.length ⌈/⌉ params.size := by
  obtain ⟨ordered, returned, made⟩ := answers
  refine ⟨ordered, returned, ?_⟩
  unfold paginate at made
  split at made
  · cases Option.some.inj made
    exact ⟨rfl, rfl, pages_eq _⟩
  · cases made

theorem exists_returned (collation : Collation) (stmt : Select) :
    ∃ ordered, stmt.Returns collation ordered :=
  exists_arranged _ _

theorem exists_answer {earlier : Nat} (fits : earlier * params.size < 2 ^ 63) :
    ∃ answer, Answers collation stmt (params.turnTo earlier) answer := by
  obtain ⟨ordered, returned⟩ := exists_returned collation stmt
  exact ⟨_, ordered, returned, if_pos fits⟩

end Answers

/-! The order. -/

section Sorted
variable {collation : Collation} {columns : List String} {sort : Option String}
  {order defaultField : String} {rows ordered : List Row}

theorem sortField_mem (known : defaultField ∈ columns) :
    sortField columns sort defaultField ∈ columns := by
  unfold sortField
  split
  · split
    · rename_i named
      exact named.2
    · exact known
  · exact known

theorem applySort_rows (stmt : Select) :
    (applySort stmt columns sort order defaultField).rows = stmt.rows := by
  unfold applySort
  dsimp only
  split <;> rfl

theorem applySort_orderBy (known : defaultField ∈ columns) :
    (applySort { rows } columns sort order defaultField).orderBy =
      [{ field := sortField columns sort defaultField, desc := order = "desc" },
        { field := "id", desc := false }] := by
  rw [applySort, if_neg (not_not.mpr (sortField_mem known))]
  rfl

/-- No two rows are compared equal by their primary keys. -/
theorem comparison_id {first second : Row}
    (forth : (SortKey.comparison collation { field := "id", desc := false }).le first second = true)
    (back : (SortKey.comparison collation { field := "id", desc := false }).le second first = true) :
    first.id = second.id := by
  have compared : ∀ first second : Row,
      (SortKey.comparison collation { field := "id", desc := false }).le first second =
        decide (first.id ≤ second.id) := fun first second => collation.ids first.id second.id
  rw [compared, decide_eq_true_eq] at forth back
  exact le_antisymm forth back

/-- With the primary key behind the sort column there is one order only. -/
theorem returns_unique {other : List Row} (known : defaultField ∈ columns)
    (distinct : ∀ first ∈ rows, ∀ second ∈ rows, first.id = second.id → first = second)
    (first : (applySort { rows } columns sort order defaultField).Returns collation ordered)
    (second : (applySort { rows } columns sort order defaultField).Returns collation other) :
    ordered = other := by
  refine Arranged.unique first second ?_
  rw [applySort_rows, applySort_orderBy known]
  intro left leftMember right rightMember forth back
  apply distinct left leftMember right rightMember
  have last : SortKey.comparison collation { field := "id", desc := false } ∈
      [{ field := sortField columns sort defaultField, desc := order = "desc" },
        ({ field := "id", desc := false } : SortKey)].map (SortKey.comparison collation) := by
    simp
  exact comparison_id (lexicographic_undistinguished last forth back)
    (lexicographic_undistinguished last back forth)

/-- The rows come in the order of the sort column. -/
theorem returns_sorted (known : defaultField ∈ columns)
    (returned : (applySort { rows } columns sort order defaultField).Returns collation ordered) :
    ordered.Pairwise fun first second => (SortKey.comparison collation
      { field := sortField columns sort defaultField, desc := order = "desc" }).le first second := by
  have sorted := returned.2
  rw [applySort_orderBy known] at sorted
  refine sorted.imp ?_
  intro first second compared
  exact ((Comparison.thenBy_le _ _).mp compared).1

end Sorted
end Pulse.Pagination
