import Mathlib.Data.List.Basic
import Mathlib.Data.List.Infix

/-! Replacing the matches of a pattern in a text, and texts which are cut at separators. -/
namespace Library.Rewriting
universe u
variable {Letter : Type u}

/-- How many letters a match at the head of a text takes. -/
abbrev Pattern (Letter : Type u) := List Letter → Option Nat

section Patterns
variable [DecidableEq Letter]

def word (word : List Letter) : Pattern Letter := fun text =>
  if word <+: text then some word.length else none

/-- The first of the words which is there. -/
def anyOf : List (List Letter) → Pattern Letter
  | [], _ => none
  | first :: rest, text => (word first text).or (anyOf rest text)

/-- One letter of these. -/
def oneOf (letters : List Letter) : Pattern Letter
  | [] => none
  | letter :: _ => if letter ∈ letters then some 1 else none

/-- At least one letter, and all up to the next stop. -/
def manyBut (stop : Letter) : Pattern Letter := fun text =>
  if text.takeWhile (· ≠ stop) = [] then none else some (text.takeWhile (· ≠ stop)).length

end Patterns

/-- One pattern behind the other. -/
def Pattern.then (first second : Pattern Letter) : Pattern Letter := fun text =>
  (first text).bind fun taken => (second (text.drop taken)).map (taken + ·)

/-- `sub` with so many letters of the last match left to skip. -/
def subFrom (pattern : Pattern Letter) (replacement : List Letter) :
    Nat → List Letter → List Letter
  | _, [] => []
  | skip + 1, _ :: rest => subFrom pattern replacement skip rest
  | 0, letter :: rest => match pattern (letter :: rest) with
    | some (more + 1) => replacement ++ subFrom pattern replacement more rest
    | _ => letter :: subFrom pattern replacement 0 rest

/-- Replace the matches from left to right. No two of them overlap. -/
def sub (pattern : Pattern Letter) (replacement text : List Letter) : List Letter :=
  subFrom pattern replacement 0 text

/-- Replace the first place where the word is. -/
def replaceFirst [DecidableEq Letter] (old new : List Letter) : List Letter → List Letter
  | [] => []
  | letter :: rest =>
    if old <+: letter :: rest then new ++ (letter :: rest).drop old.length
    else letter :: replaceFirst old new rest

/-- The pattern matches somewhere in the text. -/
def Occurs (pattern : Pattern Letter) (text : List Letter) : Prop :=
  ∃ tail ∈ text.tails, (pattern tail).isSome = true

instance (pattern : Pattern Letter) (text : List Letter) : Decidable (Occurs pattern text) :=
  inferInstanceAs (Decidable (∃ tail ∈ text.tails, _))

/-- A match takes a letter at least, and no more than there are. -/
structure Pattern.Proper (pattern : Pattern Letter) : Prop where
  positive : ∀ text taken, pattern text = some taken → 0 < taken
  bounded : ∀ text taken, pattern text = some taken → taken ≤ text.length

/-- No match reaches the letter. -/
def Pattern.Stops (pattern : Pattern Letter) (letter : Letter) : Prop :=
  ∀ text rest, pattern (text ++ letter :: rest) = pattern text

theorem replaceFirst_append [DecidableEq Letter] {old new front after : List Letter}
    (absent : ∀ tail, tail <:+ front → tail ≠ [] → ¬ old <+: tail ++ after) :
    replaceFirst old new (front ++ after) = front ++ replaceFirst old new after := by
  induction front with
  | nil => rfl
  | cons letter front ih =>
    have here := absent (letter :: front) List.suffix_rfl (List.cons_ne_nil _ _)
    rw [List.cons_append] at here ⊢
    rw [replaceFirst, if_neg here, ih, List.cons_append]
    exact fun tail suffix => absent tail (suffix.trans (List.suffix_cons _ _))

theorem replaceFirst_here [DecidableEq Letter] {old new after : List Letter} (nonempty : old ≠ []) :
    replaceFirst old new (old ++ after) = new ++ after := by
  cases old with
  | nil => exact absurd rfl nonempty
  | cons letter old =>
    have here : letter :: old <+: letter :: (old ++ after) := List.prefix_append _ _
    rw [List.cons_append, replaceFirst, if_pos here, List.length_cons, List.drop_succ_cons,
      List.drop_left]

section Sub
variable {pattern : Pattern Letter} {replacement text before after rest : List Letter}
  {letter : Letter} {taken : Nat}

theorem subFrom_drop (skip : Nat) (text : List Letter) :
    subFrom pattern replacement skip text = sub pattern replacement (text.drop skip) := by
  induction text generalizing skip with
  | nil => cases skip <;> rfl
  | cons letter rest ih =>
    cases skip with
    | zero => rfl
    | succ skip => exact ih skip

@[simp] theorem sub_nil : sub pattern replacement [] = [] := rfl

theorem sub_of_none (none : pattern (letter :: rest) = none) :
    sub pattern replacement (letter :: rest) = letter :: sub pattern replacement rest := by
  simp only [sub, subFrom, none]

theorem sub_of_some (proper : pattern.Proper) (some : pattern (letter :: rest) = some taken) :
    sub pattern replacement (letter :: rest) =
      replacement ++ sub pattern replacement (rest.drop (taken - 1)) := by
  obtain ⟨more, rfl⟩ := Nat.exists_eq_succ_of_ne_zero (proper.positive _ _ some).ne'
  simp only [sub, subFrom, some]
  rw [subFrom_drop]
  rfl

/-- The induction of `sub`: a match is passed over, any other letter alone. -/
theorem sub_induction (pattern : Pattern Letter) {motive : List Letter → Prop} (nil : motive [])
    (found : ∀ letter rest taken, pattern (letter :: rest) = some taken →
      motive (rest.drop (taken - 1)) → motive (letter :: rest))
    (skipped : ∀ letter rest, pattern (letter :: rest) = none → motive rest →
      motive (letter :: rest)) (text : List Letter) : motive text := by
  induction many : text.length using Nat.strongRecOn generalizing text with
  | ind length ih =>
    cases text with
    | nil => exact nil
    | cons letter rest =>
      rw [List.length_cons] at many
      cases here : pattern (letter :: rest) with
      | none => exact skipped letter rest here (ih rest.length (by omega) rest rfl)
      | some taken =>
        refine found letter rest taken here (ih _ ?_ _ rfl)
        rw [List.length_drop]
        omega

theorem occurs_cons : Occurs pattern (letter :: rest) ↔
    (pattern (letter :: rest)).isSome = true ∨ Occurs pattern rest := by
  simp [Occurs, List.tails]

/-- Where nothing matches, nothing changes. -/
theorem sub_of_not_occurs (absent : ¬ Occurs pattern text) : sub pattern replacement text = text := by
  induction text with
  | nil => rfl
  | cons letter rest ih =>
    rw [occurs_cons, not_or] at absent
    rw [sub_of_none (by simpa using absent.1), ih absent.2]

theorem length_sub_le (proper : pattern.Proper)
    (shrinks : ∀ text taken, pattern text = some taken → replacement.length < taken)
    (text : List Letter) : (sub pattern replacement text).length ≤ text.length := by
  induction text using sub_induction pattern with
  | nil => exact le_refl _
  | found letter rest taken here ih =>
    have fewer := shrinks _ _ here
    have within := proper.bounded _ _ here
    rw [List.length_cons] at within
    rw [List.length_drop] at ih
    rw [sub_of_some proper here, List.length_append, List.length_cons]
    omega
  | skipped letter rest here ih =>
    rw [sub_of_none here, List.length_cons, List.length_cons]
    exact Nat.succ_le_succ ih

theorem length_sub_lt (proper : pattern.Proper)
    (shrinks : ∀ text taken, pattern text = some taken → replacement.length < taken)
    (occurs : Occurs pattern text) : (sub pattern replacement text).length < text.length := by
  induction text with
  | nil =>
    obtain ⟨tail, member, some⟩ := occurs
    obtain ⟨taken, here⟩ := Option.isSome_iff_exists.mp some
    rw [List.tails, List.mem_singleton] at member
    subst member
    have positive := proper.positive _ _ here
    have none := proper.bounded _ _ here
    rw [List.length_nil] at none
    omega
  | cons letter rest ih =>
    cases here : pattern (letter :: rest) with
    | none =>
      rw [sub_of_none here, List.length_cons, List.length_cons]
      exact Nat.succ_lt_succ (ih ((occurs_cons.mp occurs).resolve_left (by simp [here])))
    | some taken =>
      have fewer := shrinks _ _ here
      have within := proper.bounded _ _ here
      have tail := length_sub_le proper shrinks (rest.drop (taken - 1))
      rw [List.length_cons] at within
      rw [List.length_drop] at tail
      rw [sub_of_some proper here, List.length_append, List.length_cons]
      omega

/-- A replacement which is shorter leaves only the texts alone which have no match. -/
theorem sub_eq_self_iff (proper : pattern.Proper)
    (shrinks : ∀ text taken, pattern text = some taken → replacement.length < taken) :
    sub pattern replacement text = text ↔ ¬ Occurs pattern text := by
  constructor
  · intro same occurs
    have shorter := length_sub_lt proper shrinks occurs
    rw [same] at shorter
    exact Nat.lt_irrefl _ shorter
  · exact sub_of_not_occurs

/-- No match begins in front. -/
theorem sub_append_of_none
    (never : ∀ tail, tail <:+ before → tail ≠ [] → pattern (tail ++ after) = none) :
    sub pattern replacement (before ++ after) = before ++ sub pattern replacement after := by
  induction before with
  | nil => rfl
  | cons letter rest ih =>
    have here := never (letter :: rest) List.suffix_rfl (List.cons_ne_nil _ _)
    rw [List.cons_append] at here ⊢
    rw [sub_of_none here, ih, List.cons_append]
    exact fun tail suffix => never tail (suffix.trans (List.suffix_cons _ _))

/-- No match reaches from the front over into the rest. -/
theorem sub_append (proper : pattern.Proper)
    (apart : ∀ letter text, pattern (letter :: (text ++ after)) = pattern (letter :: text))
    (before : List Letter) :
    sub pattern replacement (before ++ after) =
      sub pattern replacement before ++ sub pattern replacement after := by
  induction before using sub_induction pattern with
  | nil => rfl
  | found letter rest taken here ih =>
    have within := proper.bounded _ _ here
    rw [List.length_cons] at within
    have there : pattern (letter :: (rest ++ after)) = some taken := (apart letter rest).trans here
    rw [List.cons_append, sub_of_some proper there, sub_of_some proper here,
      List.drop_append_of_le_length (by omega), ih, List.append_assoc]
  | skipped letter rest here ih =>
    have there : pattern (letter :: (rest ++ after)) = none := (apart letter rest).trans here
    rw [List.cons_append, sub_of_none there, sub_of_none here, ih, List.cons_append]

theorem sub_eq_nil (nonempty : replacement ≠ []) (proper : pattern.Proper) :
    sub pattern replacement text = [] ↔ text = [] := by
  cases text with
  | nil => simp
  | cons letter rest =>
    cases here : pattern (letter :: rest) with
    | none => simp [sub_of_none here]
    | some taken => simp [sub_of_some proper here, nonempty]

theorem mem_sub (proper : pattern.Proper) (member : letter ∈ sub pattern replacement text) :
    letter ∈ text ∨ letter ∈ replacement := by
  induction text using sub_induction pattern with
  | nil => exact .inl member
  | found head rest taken here ih =>
    rw [sub_of_some proper here] at member
    rcases List.mem_append.mp member with new | later
    · exact .inr new
    · exact (ih later).imp_left fun old => List.mem_cons_of_mem _ (List.mem_of_mem_drop old)
  | skipped head rest here ih =>
    rw [sub_of_none here] at member
    rcases List.mem_cons.mp member with rfl | later
    · exact .inl List.mem_cons_self
    · exact (ih later).imp_left (List.mem_cons_of_mem _)

/-- Without a replacement nothing new comes in. -/
theorem sub_sublist (proper : pattern.Proper) (text : List Letter) :
    (sub pattern [] text).Sublist text := by
  induction text using sub_induction pattern with
  | nil => exact List.Sublist.refl _
  | found letter rest taken here ih =>
    rw [sub_of_some proper here, List.nil_append]
    exact (ih.trans (List.drop_sublist _ _)).cons letter
  | skipped letter rest here ih =>
    rw [sub_of_none here]
    exact ih.cons_cons letter

/-- A match which passes a letter takes it away. -/
theorem not_mem_sub_drop (proper : pattern.Proper) (absent : letter ∉ after) {skip : Nat}
    (passed : before.length < skip) :
    letter ∉ sub pattern [] ((before ++ letter :: after).drop skip) := by
  obtain ⟨more, rfl⟩ := Nat.exists_eq_add_of_lt passed
  intro found
  have member := (sub_sublist proper _).subset found
  rw [List.drop_append, List.drop_eq_nil_of_le (by omega), List.nil_append,
    show before.length + more + 1 - before.length = more + 1 by omega, List.drop_succ_cons] at member
  exact absent (List.mem_of_mem_drop member)

/-- A letter which is there once only moves to the front. -/
theorem sub_moves (proper : pattern.Proper) (absent : letter ∉ after) {front back : List Letter}
    (unique : letter ∉ before) (kept : letter ∉ front)
    (moved : sub pattern [] (before ++ letter :: after) = front ++ letter :: back) :
    front.length ≤ before.length := by
  have there : letter ∈ front ++ letter :: back := by simp
  induction same : before ++ letter :: after using sub_induction pattern generalizing before front with
  | nil => simp at same
  | found head rest taken here ih =>
    rw [same, sub_of_some proper here, List.nil_append] at moved
    cases before with
    | nil =>
      obtain ⟨rfl, rfl⟩ := List.cons.inj same
      rw [← moved] at there
      exact absurd (List.mem_of_mem_drop ((sub_sublist proper _).subset there)) absent
    | cons first before =>
      rw [List.cons_append] at same
      obtain ⟨rfl, rfl⟩ := List.cons.inj same
      by_cases within : taken - 1 ≤ before.length
      · rw [List.drop_append_of_le_length within] at moved ih
        have fewer := ih (fun member => unique (List.mem_cons_of_mem _ (List.mem_of_mem_drop member)))
          kept moved there rfl
        rw [List.length_drop] at fewer
        rw [List.length_cons]
        omega
      · rw [← moved] at there
        exact absurd there (not_mem_sub_drop proper absent (not_le.mp within))
  | skipped head rest here ih =>
    rw [same, sub_of_none here] at moved
    cases before with
    | nil =>
      obtain ⟨rfl, rfl⟩ := List.cons.inj same
      cases front with
      | nil => exact le_refl _
      | cons first front =>
        exact absurd (List.cons.inj moved).1.symm fun equal => kept (equal ▸ List.mem_cons_self)
    | cons first before =>
      obtain ⟨rfl, rfl⟩ := List.cons.inj same
      cases front with
      | nil => exact Nat.zero_le _
      | cons other front =>
        have fewer := ih (fun member => unique (List.mem_cons_of_mem _ member))
          (fun member => kept (List.mem_cons_of_mem _ member)) (List.cons.inj moved).2 (by simp) rfl
        exact Nat.succ_le_succ fewer

/-- And where it has not moved, no match begins in front of it. -/
theorem none_of_sub_eq (proper : pattern.Proper) (absent : letter ∉ after) {back : List Letter}
    (unique : letter ∉ before)
    (kept : sub pattern [] (before ++ letter :: after) = before ++ letter :: back)
    {tail : List Letter} (suffix : tail <:+ before) (nonempty : tail ≠ []) :
    pattern (tail ++ letter :: after) = none := by
  induction before with
  | nil => exact absurd (List.suffix_nil.mp suffix) nonempty
  | cons head before ih =>
    have rest : letter ∉ before := fun member => unique (List.mem_cons_of_mem _ member)
    cases here : pattern (head :: (before ++ letter :: after)) with
    | none =>
      rw [List.cons_append, sub_of_none here, List.cons_append] at kept
      rcases List.suffix_cons_iff.mp suffix with rfl | later
      · exact here
      · exact ih rest (List.cons.inj kept).2 later
    | some taken =>
      rw [List.cons_append, sub_of_some proper here, List.nil_append] at kept
      by_cases within : taken - 1 ≤ before.length
      · rw [List.drop_append_of_le_length within] at kept
        have fewer := sub_moves proper absent (fun member => rest (List.mem_of_mem_drop member))
          unique kept
        rw [List.length_drop, List.length_cons] at fewer
        omega
      · have there : letter ∈ head :: before ++ letter :: back := by simp
        rw [← kept] at there
        exact absurd there (not_mem_sub_drop proper absent (not_le.mp within))

/-- A word with nothing of the replacement in it which begins the result began the text. -/
theorem prefix_of_prefix_sub (proper : pattern.Proper) {word : List Letter}
    (foreign : ∀ tail, tail <:+ word → tail ≠ [] → ¬ tail <+: replacement ∧ ¬ replacement <+: tail)
    (begins : word <+: sub pattern replacement text) : word <+: text := by
  induction word generalizing text with
  | nil => exact List.nil_prefix
  | cons letter rest ih =>
    have apart := foreign (letter :: rest) List.suffix_rfl (List.cons_ne_nil _ _)
    cases text with
    | nil => exact begins
    | cons head text =>
      cases here : pattern (head :: text) with
      | none =>
        rw [sub_of_none here, List.cons_prefix_cons] at begins
        rw [List.cons_prefix_cons]
        refine ⟨begins.1, ih ?_ begins.2⟩
        exact fun tail suffix => foreign tail (suffix.trans (List.suffix_cons _ _))
      | some taken =>
        rw [sub_of_some proper here] at begins
        rcases List.prefix_or_prefix_of_prefix begins (List.prefix_append _ _) with short | long
        · exact absurd short apart.1
        · exact absurd long apart.2

end Sub

/-! What the patterns match. -/

section Composition
variable {text tail after : List Letter} {first second : Pattern Letter}
  {letter : Letter} {taken : Nat}

theorem then_some : (first.then second) text = some taken ↔ ∃ front back,
    first text = some front ∧ second (text.drop front) = some back ∧ taken = front + back := by
  simp only [Pattern.then, Option.bind_eq_some_iff, Option.map_eq_some_iff]
  constructor
  · rintro ⟨front, here, back, there, rfl⟩
    exact ⟨front, back, here, there, rfl⟩
  · rintro ⟨front, back, here, there, rfl⟩
    exact ⟨front, here, back, there, rfl⟩

theorem Pattern.Proper.then (left : first.Proper) (right : second.Proper) :
    (first.then second).Proper where
  positive := fun text taken here => by
    obtain ⟨front, back, found, _, rfl⟩ := then_some.mp here
    exact Nat.add_pos_left (left.positive _ _ found) _
  bounded := fun text taken here => by
    obtain ⟨front, back, found, behind, rfl⟩ := then_some.mp here
    have within := left.bounded _ _ found
    have rest := right.bounded _ _ behind
    rw [List.length_drop] at rest
    omega

theorem Pattern.Stops.then (proper : first.Proper) (left : first.Stops letter)
    (right : second.Stops letter) : (first.then second).Stops letter := by
  intro text rest
  unfold Pattern.then
  rw [left]
  cases here : first text with
  | none => rfl
  | some taken =>
    rw [Option.bind_some, Option.bind_some,
      List.drop_append_of_le_length (proper.bounded _ _ here), right]

/-- A word without the letter does not reach it. -/
theorem prefix_append_cons {term rest : List Letter} (absent : letter ∉ term) :
    term <+: text ++ letter :: rest ↔ term <+: text := by
  constructor
  · intro begins
    rcases List.prefix_or_prefix_of_prefix begins (List.prefix_append text _) with short | long
    · exact short
    · obtain ⟨more, rfl⟩ := long
      rw [List.prefix_append_right_inj] at begins
      cases more with
      | nil => simp
      | cons head more =>
        obtain ⟨rfl, _⟩ := List.cons_prefix_cons.mp begins
        simp at absent
  · exact fun begins => begins.trans (List.prefix_append _ _)

/-- A text which is at odds with the words a match needs begins none. -/
theorem none_of_foreign (words : List (List Letter))
    (needs : ∀ text taken, first text = some taken → ∃ term ∈ words, term <+: text)
    (foreign : ∀ term ∈ words, ¬ tail <+: term ∧ ¬ term <+: tail) : first (tail ++ after) = none := by
  cases here : first (tail ++ after) with
  | none => rfl
  | some taken =>
    obtain ⟨term, member, begins⟩ := needs _ _ here
    rcases List.prefix_or_prefix_of_prefix begins (List.prefix_append tail after) with short | long
    · exact absurd short (foreign term member).2
    · exact absurd long (foreign term member).1

end Composition

section Matches
variable [DecidableEq Letter] {text : List Letter} {second : Pattern Letter}
  {words : List (List Letter)} {letters : List Letter} {letter : Letter} {taken : Nat}

theorem word_some {term : List Letter} :
    word term text = some taken ↔ term <+: text ∧ taken = term.length := by
  unfold word
  split
  · rename_i begins
    simp [begins, eq_comm]
  · rename_i differs
    simp [differs]

theorem anyOf_some (found : anyOf words text = some taken) :
    ∃ term ∈ words, term <+: text ∧ taken = term.length := by
  induction words with
  | nil => cases found
  | cons term words ih =>
    rcases Option.or_eq_some_iff.mp found with here | ⟨_, later⟩
    · exact ⟨term, List.mem_cons_self, word_some.mp here⟩
    · obtain ⟨other, member, begins⟩ := ih later
      exact ⟨other, List.mem_cons_of_mem _ member, begins⟩

theorem anyOf_isSome : (anyOf words text).isSome = true ↔ ∃ term ∈ words, term <+: text := by
  constructor
  · intro some
    obtain ⟨taken, found⟩ := Option.isSome_iff_exists.mp some
    obtain ⟨term, member, begins, _⟩ := anyOf_some found
    exact ⟨term, member, begins⟩
  · rintro ⟨term, member, begins⟩
    induction words with
    | nil => cases member
    | cons other words ih =>
      rw [anyOf, Option.isSome_or, Bool.or_eq_true]
      rcases List.mem_cons.mp member with rfl | later
      · exact .inl (Option.isSome_iff_exists.mpr ⟨_, word_some.mpr ⟨begins, rfl⟩⟩)
      · exact .inr (ih later)

theorem manyBut_some {stop : Letter} : manyBut stop text = some taken ↔
    text.takeWhile (· ≠ stop) ≠ [] ∧ taken = (text.takeWhile (· ≠ stop)).length := by
  unfold manyBut
  split
  · rename_i empty
    constructor
    · intro here
      cases here
    · exact fun found => absurd empty found.1
  · rename_i run
    exact ⟨fun here => ⟨run, (Option.some.inj here).symm⟩, fun found => congrArg some found.2.symm⟩

theorem manyBut_isSome {stop : Letter} :
    (manyBut stop text).isSome = true ↔ ∃ first ∈ text.head?, first ≠ stop := by
  cases text with
  | nil => simp [manyBut]
  | cons first rest =>
    by_cases same : first = stop
    · simp [manyBut, same]
    · simp [manyBut, same]

/-- A common beginning may be written once. -/
theorem word_then_anyOf (term : List Letter) (words : List (List Letter)) :
    (word term).then (anyOf words) = anyOf (words.map (term ++ ·)) := by
  funext text
  by_cases begins : term <+: text
  · obtain ⟨rest, rfl⟩ := begins
    have here : word term (term ++ rest) = some term.length := if_pos (List.prefix_append _ _)
    rw [Pattern.then, here, Option.bind_some, List.drop_left]
    induction words with
    | nil => rfl
    | cons first words ih =>
      rw [List.map_cons, anyOf, anyOf, Option.map_or, ih]
      congr 1
      simp only [word, List.prefix_append_right_inj, List.length_append]
      split <;> rfl
  · have here : word term text = none := if_neg begins
    rw [Pattern.then, here, Option.bind_none]
    symm
    rw [← Option.not_isSome_iff_eq_none, anyOf_isSome]
    rintro ⟨other, member, found⟩
    obtain ⟨value, _, rfl⟩ := List.mem_map.mp member
    exact begins ((List.prefix_append _ _).trans found)

theorem oneOf_then (letters : List Letter) (second : Pattern Letter) (letter : Letter)
    (rest : List Letter) :
    ((oneOf letters).then second) (letter :: rest) =
      if letter ∈ letters then (second rest).map (1 + ·) else none := by
  unfold Pattern.then
  rw [oneOf]
  split <;> rfl

theorem word_proper {term : List Letter} (nonempty : term ≠ []) : (word term).Proper where
  positive := fun text taken here => by
    rw [(word_some.mp here).2]
    exact List.length_pos_of_ne_nil nonempty
  bounded := fun text taken here => by
    rw [(word_some.mp here).2]
    exact (word_some.mp here).1.length_le

theorem anyOf_proper (nonempty : ∀ term ∈ words, term ≠ []) : (anyOf words).Proper where
  positive := fun text taken here => by
    obtain ⟨term, member, _, rfl⟩ := anyOf_some here
    exact List.length_pos_of_ne_nil (nonempty term member)
  bounded := fun text taken here => by
    obtain ⟨term, _, begins, rfl⟩ := anyOf_some here
    exact begins.length_le

theorem oneOf_proper (letters : List Letter) : (oneOf letters).Proper := by
  constructor <;> intro text taken here <;> cases text with
  | nil => cases here
  | cons letter rest =>
    rw [oneOf] at here
    split at here
    · cases Option.some.inj here
      simp
    · cases here

theorem manyBut_proper (stop : Letter) : (manyBut stop).Proper where
  positive := fun text taken here => by
    rw [(manyBut_some.mp here).2]
    exact List.length_pos_of_ne_nil (manyBut_some.mp here).1
  bounded := fun text taken here => by
    rw [(manyBut_some.mp here).2]
    exact (List.takeWhile_prefix _).length_le

theorem word_stops {term : List Letter} (absent : letter ∉ term) : (word term).Stops letter := by
  intro text rest
  simp only [word, prefix_append_cons absent]

theorem anyOf_stops (absent : ∀ term ∈ words, letter ∉ term) : (anyOf words).Stops letter := by
  induction words with
  | nil => exact fun _ _ => rfl
  | cons term words ih =>
    intro text rest
    rw [anyOf, anyOf, word_stops (absent term List.mem_cons_self),
      ih fun other member => absent other (List.mem_cons_of_mem _ member)]

theorem manyBut_stops (stop : Letter) : (manyBut stop).Stops stop := by
  intro text rest
  have same : (text ++ stop :: rest).takeWhile (· ≠ stop) = text.takeWhile (· ≠ stop) := by
    induction text with
    | nil => simp
    | cons letter text ih =>
      rw [List.cons_append, List.takeWhile_cons, List.takeWhile_cons, ih]
  unfold manyBut
  rw [same]

end Matches

/-! Texts which are cut at separators. -/

/-- Each segment behind its separator. -/
def render : List (Letter × List Letter) → List Letter
  | [] => []
  | (separator, segment) :: rest => separator :: (segment ++ render rest)

/-- No letter of the segment is a separator. -/
def Clean (separators segment : List Letter) : Prop := ∀ letter ∈ segment, letter ∉ separators

instance [DecidableEq Letter] (separators segment : List Letter) :
    Decidable (Clean separators segment) :=
  inferInstanceAs (Decidable (∀ letter ∈ segment, letter ∉ separators))

def Parted (separators : List Letter) (parts : List (Letter × List Letter)) : Prop :=
  ∀ part ∈ parts, part.1 ∈ separators ∧ Clean separators part.2

/-- Take the separator and the match away where the segment begins with one; what is left of the
segment joins the one before. -/
def cut (body : Pattern Letter) : List (Letter × List Letter) →
    List Letter × List (Letter × List Letter)
  | [] => ([], [])
  | (separator, segment) :: rest => match body segment with
    | some taken => (segment.drop taken ++ (cut body rest).1, (cut body rest).2)
    | none => ([], (separator, segment ++ (cut body rest).1) :: (cut body rest).2)

section Segments
variable {separators front other : List Letter} {parts others : List (Letter × List Letter)}
  {body : Pattern Letter}

theorem Clean.append (left : Clean separators front) (right : Clean separators other) :
    Clean separators (front ++ other) := fun letter member =>
  (List.mem_append.mp member).elim (left letter) (right letter)

theorem Clean.drop (clean : Clean separators front) (many : Nat) :
    Clean separators (front.drop many) := fun letter member =>
  clean letter (List.mem_of_mem_drop member)

theorem Parted.tail {part : Letter × List Letter} (parted : Parted separators (part :: parts)) :
    Parted separators parts := fun other member => parted other (List.mem_cons_of_mem _ member)

/-- A pattern which stops at the separators replaces in each segment alone. -/
theorem sub_append_render {pattern : Pattern Letter} {replacement : List Letter}
    (proper : pattern.Proper) (stops : ∀ letter ∈ separators, pattern.Stops letter)
    (parted : Parted separators parts) :
    sub pattern replacement (front ++ render parts) = sub pattern replacement front ++
      render (parts.map fun part => (part.1, sub pattern replacement part.2)) := by
  induction parts generalizing front with
  | nil => simp [render]
  | cons part rest ih =>
    have stop := stops part.1 (parted part List.mem_cons_self).1
    have here : pattern (part.1 :: (part.2 ++ render rest)) = none := by
      have empty := stop [] (part.2 ++ render rest)
      rw [List.nil_append] at empty
      rw [empty]
      cases found : pattern [] with
      | none => rfl
      | some taken =>
        have positive := proper.positive _ _ found
        have bounded := proper.bounded _ _ found
        rw [List.length_nil] at bounded
        omega
    rw [render, sub_append proper fun letter text => stop (letter :: text) _, sub_of_none here,
      ih parted.tail]
    rfl

/-- No match begins in a segment. -/
theorem sub_append_clean [DecidableEq Letter] {after replacement : List Letter}
    (clean : Clean separators front) :
    sub ((oneOf separators).then body) replacement (front ++ after) =
      front ++ sub ((oneOf separators).then body) replacement after := by
  refine sub_append_of_none ?_
  intro tail suffix nonempty
  cases tail with
  | nil => exact absurd rfl nonempty
  | cons letter tail =>
    rw [List.cons_append, oneOf_then, if_neg]
    exact clean letter (suffix.subset List.mem_cons_self)

theorem sub_clean [DecidableEq Letter] {replacement : List Letter} (clean : Clean separators front) :
    sub ((oneOf separators).then body) replacement front = front := by
  have alone : sub ((oneOf separators).then body) replacement (front ++ []) = front ++ [] :=
    sub_append_clean clean
  rwa [List.append_nil] at alone

theorem occurs_append_clean [DecidableEq Letter] {after : List Letter}
    (clean : Clean separators front) :
    Occurs ((oneOf separators).then body) (front ++ after) ↔
      Occurs ((oneOf separators).then body) after := by
  induction front with
  | nil => rfl
  | cons letter front ih =>
    have here : ((oneOf separators).then body) (letter :: (front ++ after)) = none := by
      rw [oneOf_then, if_neg (clean letter List.mem_cons_self)]
    rw [List.cons_append, occurs_cons, here,
      ih fun other member => clean other (List.mem_cons_of_mem _ member)]
    simp

/-- No match reaches a separator from the front. -/
theorem sub_append_parts [DecidableEq Letter] {replacement : List Letter} (proper : body.Proper)
    (stops : ∀ letter ∈ separators, body.Stops letter) (parted : Parted separators parts) :
    sub ((oneOf separators).then body) replacement (front ++ render parts) =
      sub ((oneOf separators).then body) replacement front ++
        sub ((oneOf separators).then body) replacement (render parts) := by
  cases parts with
  | nil => simp [render]
  | cons part rest =>
    refine sub_append ((oneOf_proper separators).then proper) ?_ front
    intro letter text
    rw [oneOf_then, oneOf_then, render, stops part.1 (parted part List.mem_cons_self).1]

section Unique
variable [DecidableEq Letter]

theorem takeWhile_append_render (clean : Clean separators front) (parted : Parted separators parts) :
    (front ++ render parts).takeWhile (· ∉ separators) = front := by
  rw [List.takeWhile_append_of_pos fun letter member => decide_eq_true (clean letter member)]
  cases parts with
  | nil => simp [render]
  | cons part rest =>
    have head : ¬ part.1 ∉ separators := not_not.mpr (parted part List.mem_cons_self).1
    rw [render, List.takeWhile_cons_of_neg (by simpa using head), List.append_nil]

/-- A text is cut in one way. -/
theorem append_render_inj (left : Clean separators front) (right : Clean separators other)
    (leftParted : Parted separators parts) (rightParted : Parted separators others)
    (same : front ++ render parts = other ++ render others) : front = other ∧ parts = others := by
  induction parts generalizing front other others with
  | nil =>
    have heads := takeWhile_append_render left leftParted
    rw [same, takeWhile_append_render right rightParted] at heads
    subst heads
    cases others with
    | nil => exact ⟨rfl, rfl⟩
    | cons part rest => cases List.append_cancel_left same
  | cons part rest ih =>
    have heads := takeWhile_append_render left leftParted
    rw [same, takeWhile_append_render right rightParted] at heads
    subst heads
    have tails := List.append_cancel_left same
    cases others with
    | nil => cases tails
    | cons second others =>
      rw [render, render, List.cons.injEq] at tails
      obtain ⟨segments, equal⟩ := ih (leftParted part List.mem_cons_self).2
        (rightParted second List.mem_cons_self).2 leftParted.tail rightParted.tail tails.2
      exact ⟨rfl, congrArg₂ List.cons (Prod.ext tails.1 segments) equal⟩

end Unique

/-- The separators of a text are those of its parts. -/
theorem mem_render {letter : Letter} (parted : Parted separators parts)
    (separator : letter ∈ separators) : letter ∈ render parts ↔ letter ∈ parts.map Prod.fst := by
  induction parts with
  | nil => rfl
  | cons part rest ih =>
    have inside : letter ∉ part.2 := fun member =>
      (parted part List.mem_cons_self).2 letter member separator
    rw [render, List.mem_cons, List.mem_append, ih parted.tail, List.map_cons, List.mem_cons]
    simp [inside]

theorem cut_some (part : Letter × List Letter) {taken : Nat} (here : body part.2 = some taken) :
    cut body (part :: parts) = (part.2.drop taken ++ (cut body parts).1, (cut body parts).2) := by
  rw [cut, here]

theorem cut_none (part : Letter × List Letter) (here : body part.2 = none) :
    cut body (part :: parts) =
      ([], (part.1, part.2 ++ (cut body parts).1) :: (cut body parts).2) := by
  rw [cut, here]

theorem cut_separators : ((cut body parts).2.map Prod.fst).Sublist (parts.map Prod.fst) := by
  induction parts with
  | nil => exact List.Sublist.refl _
  | cons part rest ih =>
    cases here : body part.2 with
    | some taken =>
      rw [cut_some part here]
      exact ih.cons part.1
    | none =>
      rw [cut_none part here]
      exact ih.cons_cons part.1

theorem Clean.nil : Clean separators [] := by
  intro letter member
  cases member

theorem Parted.nil : Parted separators [] := by
  intro part member
  cases member

theorem cut_clean (parted : Parted separators parts) :
    Clean separators (cut body parts).1 ∧ Parted separators (cut body parts).2 := by
  induction parts with
  | nil => exact ⟨.nil, .nil⟩
  | cons part rest ih =>
    obtain ⟨glued, parts⟩ := ih parted.tail
    have head := parted part List.mem_cons_self
    cases here : body part.2 with
    | some taken =>
      rw [cut_some part here]
      exact ⟨(head.2.drop _).append glued, parts⟩
    | none =>
      rw [cut_none part here]
      refine ⟨.nil, ?_⟩
      intro other member
      rcases List.mem_cons.mp member with rfl | later
      · exact ⟨head.1, head.2.append glued⟩
      · exact parts other later

/-- As many parts as do not match are left. -/
theorem length_cut : (cut body parts).2.length = parts.countP fun part => (body part.2).isNone := by
  induction parts with
  | nil => rfl
  | cons part rest ih =>
    rw [List.countP_cons, ← ih]
    cases here : body part.2 with
    | some taken => simp [cut_some part here]
    | none => simp [cut_none part here]

/-- What begins a segment which is left still begins it. -/
theorem countP_cut_le [DecidableEq Letter] (term : List Letter) :
    parts.countP (fun part => (body part.2).isNone && decide (term <+: part.2)) ≤
      (cut body parts).2.countP fun part => decide (term <+: part.2) := by
  induction parts with
  | nil => exact le_refl _
  | cons part rest ih =>
    rw [List.countP_cons]
    cases here : body part.2 with
    | some taken =>
      rw [cut_some part here]
      simpa using ih
    | none =>
      rw [cut_none part here, List.countP_cons]
      refine Nat.add_le_add ih ?_
      by_cases begins : term <+: part.2
      · simp [begins, begins.trans (List.prefix_append _ _)]
      · simp [begins]

/-- Where every match is a whole segment nothing is joined. -/
theorem cut_of_whole (whole : ∀ part ∈ parts, ∀ taken, body part.2 = some taken →
    taken = part.2.length) :
    cut body parts = ([], parts.filter fun part => (body part.2).isNone) := by
  induction parts with
  | nil => rfl
  | cons part rest ih =>
    have later := ih fun other member => whole other (List.mem_cons_of_mem _ member)
    rw [List.filter_cons]
    cases here : body part.2 with
    | some taken =>
      rw [cut_some part here, later, whole part List.mem_cons_self _ here, List.drop_length]
      rfl
    | none =>
      rw [cut_none part here, later, List.append_nil]
      rfl

/-- Deleting the matches which begin with a separator. -/
theorem sub_render [DecidableEq Letter] (proper : body.Proper) (parted : Parted separators parts)
    (apart : ∀ part rest, part :: rest <:+ parts → body (part.2 ++ render rest) = body part.2) :
    sub ((oneOf separators).then body) [] (render parts) =
      (cut body parts).1 ++ render (cut body parts).2 := by
  induction parts with
  | nil => rfl
  | cons part rest ih =>
    have later := ih parted.tail fun other others suffix =>
      apart other others (suffix.trans (List.suffix_cons _ _))
    obtain ⟨separator, clean⟩ := parted part List.mem_cons_self
    have head := oneOf_then separators body part.1 (part.2 ++ render rest)
    rw [if_pos separator, apart part rest List.suffix_rfl] at head
    rw [render]
    cases here : body part.2 with
    | some taken =>
      rw [here] at head
      rw [cut_some part here, sub_of_some ((oneOf_proper separators).then proper) head, List.nil_append,
        Nat.add_sub_cancel_left, List.drop_append_of_le_length (proper.bounded _ _ here),
        sub_append_clean (clean.drop taken), later, List.append_assoc]
    | none =>
      rw [here] at head
      rw [cut_none part here, sub_of_none head, sub_append_clean clean, later, render, List.append_assoc,
        List.nil_append]

end Segments

end Library.Rewriting
