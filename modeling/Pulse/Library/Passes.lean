import Mathlib.Data.List.Basic
import Mathlib.Logic.Relation

/-! Passes over a state until no item is pending any more, and nodes which wait for
nodes of smaller rank. -/
namespace Library.Passes
universe u v

section Settling
variable {State : Type u} {Input : Type v} {pass : State → Input → State} {pending : State → Nat}

theorem foldl_settled {settled : State → Prop}
    (stays : ∀ state input, settled state → settled (pass state input))
    (inputs : List Input) {state : State} (done : settled state) :
    settled (inputs.foldl pass state) := by
  induction inputs generalizing state with
  | nil => exact done
  | cons input rest ih => exact ih (stays state input done)

/-- Where every pass over an unsettled state leaves fewer items pending, no more passes
are needed than there are items. -/
theorem settles {settled : State → Prop} (empty : ∀ state, pending state = 0 → settled state)
    (progress : ∀ state input, ¬ settled state → pending (pass state input) < pending state)
    (stays : ∀ state input, settled state → settled (pass state input)) {state : State}
    {inputs : List Input} (enough : pending state ≤ inputs.length) :
    settled (inputs.foldl pass state) := by
  induction inputs generalizing state with
  | nil => exact empty state (Nat.le_zero.mp enough)
  | cons input rest ih =>
    by_cases done : settled state
    · exact foldl_settled stays rest (stays state input done)
    · have fewer := progress state input done
      rw [List.length_cons] at enough
      exact ih (by omega)

/-- Every pass changes the items of a list in place, and only takes items out of those
which are pending. -/
theorem countP_map_lt {Item : Type u} {waiting : Item → Bool} {f : Item → Item} {items : List Item}
    (takes : ∀ item ∈ items, waiting (f item) = true → waiting item = true)
    (done : ∃ item ∈ items, waiting item = true ∧ waiting (f item) = false) :
    (items.map f).countP waiting < items.countP waiting := by
  rw [List.countP_map]
  induction items with
  | nil =>
    obtain ⟨_, member, _⟩ := done
    cases member
  | cons first rest ih =>
    have fewer : rest.countP (waiting ∘ f) ≤ rest.countP waiting :=
      List.countP_mono_left fun item member => takes item (List.mem_cons_of_mem _ member)
    obtain ⟨item, member, before, after⟩ := done
    rw [List.countP_cons, List.countP_cons]
    rcases List.mem_cons.mp member with rfl | later
    · simp only [Function.comp, before, after, if_true, Bool.false_eq_true, if_false]
      omega
    · have less := ih (fun item member => takes item (List.mem_cons_of_mem _ member))
        ⟨item, later, before, after⟩
      by_cases still : waiting (f first) = true
      · have was := takes first List.mem_cons_self still
        simp only [Function.comp, still, was, if_true]
        omega
      · simp only [Function.comp, still, Bool.false_eq_true, if_false]
        omega

end Settling

section Waiting
variable {Node : Type u} {waits : Node → Node → Prop} (rank : Node → Nat)

theorem rank_lt (lower : ∀ node other, waits node other → rank other < rank node)
    {node other : Node} (path : Relation.TransGen waits node other) :
    rank other < rank node := by
  induction path with
  | single edge => exact lower _ _ edge
  | tail _ edge ih => exact Nat.lt_trans (lower _ _ edge) ih

/-- Nodes which wait only for nodes of smaller rank do not wait for each other. -/
theorem acyclic (lower : ∀ node other, waits node other → rank other < rank node) (node : Node) :
    ¬ Relation.TransGen waits node node :=
  fun path => Nat.lt_irrefl _ (rank_lt rank lower path)

/-- Where every stuck node waits for a free or a stuck one, it leads to a free one. -/
theorem leads {stuck free : Node → Prop}
    (lower : ∀ node other, waits node other → rank other < rank node)
    (onward : ∀ node, stuck node → ∃ other, waits node other ∧ (free other ∨ stuck other))
    {node : Node} (blocked : stuck node) : ∃ other, Relation.TransGen waits node other ∧ free other := by
  induction bound : rank node using Nat.strongRecOn generalizing node with
  | ind value ih =>
    obtain ⟨other, edge, released | still⟩ := onward node blocked
    · exact ⟨other, .single edge, released⟩
    · obtain ⟨last, path, released⟩ := ih (rank other) (bound ▸ lower node other edge) still rfl
      exact ⟨last, .head edge path, released⟩

end Waiting

end Library.Passes
