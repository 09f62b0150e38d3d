import Mathlib.Data.Nat.Digits.Lemmas
import Pulse.Library.Rewriting
import Pulse.Schema

/-! `str(user_id)` and `uuid.UUID(text)`, which carry a user's id through the `sub` of a token.
Texts are lists of ASCII characters. -/
namespace Pulse
open Library.Rewriting

/-- `'%032x'`. -/
def hex32 (id : Uuid) : List Char := ((Nat.digitsAppend 16 32 id).reverse).map Nat.digitChar

/-- `str(id)`. -/
def strUuid (id : Uuid) : List Char :=
  let hex := hex32 id
  hex.take 8 ++ '-' :: ((hex.drop 8).take 4 ++ '-' :: ((hex.drop 12).take 4 ++
    '-' :: ((hex.drop 16).take 4 ++ '-' :: hex.drop 20)))

def hexValue (letter : Char) : Option Nat :=
  if '0' ≤ letter ∧ letter ≤ '9' then some (letter.toNat - '0'.toNat)
  else if 'a' ≤ letter ∧ letter ≤ 'f' then some (letter.toNat - 'a'.toNat + 10)
  else if 'A' ≤ letter ∧ letter ≤ 'F' then some (letter.toNat - 'A'.toNat + 10)
  else none

/-- The digits of `int(text, 16)` behind the first; an underscore may stand between two. -/
def moreDigits (value : Nat) : List Char → Option Nat
  | [] => some value
  | '_' :: letter :: rest => (hexValue letter).bind fun digit => moreDigits (16 * value + digit) rest
  | letter :: rest => (hexValue letter).bind fun digit => moreDigits (16 * value + digit) rest

def digits : List Char → Option Nat
  | [] => none
  | letter :: rest => (hexValue letter).bind fun digit => moreDigits digit rest

/-- `0x` is passed over, with an underscore behind it. -/
def unprefixed : List Char → List Char
  | '0' :: 'x' :: '_' :: rest | '0' :: 'X' :: '_' :: rest | '0' :: 'x' :: rest
  | '0' :: 'X' :: rest => rest
  | text => text

/-- Drop the letters at both ends. -/
def stripped (letters : Char → Bool) (text : List Char) : List Char :=
  ((text.dropWhile letters).reverse.dropWhile letters).reverse

def isSpace (letter : Char) : Bool :=
  letter = ' ' || ('\t' ≤ letter && letter ≤ '\r')

/-- `int(text, 16)`. -/
def int16 (text : List Char) : Option Int :=
  match stripped isSpace text with
  | '-' :: rest => (digits (unprefixed rest)).map fun value => -(value : Int)
  | '+' :: rest => (digits (unprefixed rest)).map Int.ofNat
  | rest => (digits (unprefixed rest)).map Int.ofNat

/-- `uuid.UUID(text)`, `none` where it raises `ValueError`. -/
def parseUuid (text : List Char) : Option Uuid :=
  let hex := sub (word "uuid:".toList) [] (sub (word "urn:".toList) [] text)
  let hex := sub (word ['-']) [] (stripped (fun letter => letter = '\x7b' || letter = '\x7d') hex)
  if hex.length ≠ 32 then none
  else (int16 hex).bind fun value =>
    if 0 ≤ value ∧ value < 2 ^ 128 then some value.toNat else none

/-! Digits. -/

theorem hexValue_digitChar {digit : Nat} (below : digit < 16) :
    hexValue (Nat.digitChar digit) = some digit := by
  interval_cases digit <;> decide

/-- The letters with which a number is written. -/
def HexText (text : List Char) : Prop := ∀ letter ∈ text, ∃ digit < 16, letter = Nat.digitChar digit

theorem HexText.other {text : List Char} (written : HexText text) {letter : Char}
    (foreign : hexValue letter = none) : letter ∉ text := by
  intro member
  obtain ⟨digit, below, rfl⟩ := written letter member
  rw [hexValue_digitChar below] at foreign
  cases foreign

theorem hexText_map {values : List Nat} (small : ∀ digit ∈ values, digit < 16) :
    HexText (values.map Nat.digitChar) := by
  intro letter member
  obtain ⟨digit, listed, rfl⟩ := List.mem_map.mp member
  exact ⟨digit, small digit listed, rfl⟩

theorem moreDigits_map {values : List Nat} (small : ∀ digit ∈ values, digit < 16) (value : Nat) :
    moreDigits value (values.map Nat.digitChar) =
      some (16 ^ values.length * value + Nat.ofDigits 16 values.reverse) := by
  induction values generalizing value with
  | nil => simp [moreDigits]
  | cons digit rest ih =>
    have below := small digit List.mem_cons_self
    have plain : Nat.digitChar digit ≠ '_' := by
      intro same
      have written := hexValue_digitChar below
      rw [same] at written
      cases written
    rw [List.map_cons, moreDigits.eq_def]
    split
    · rename_i nothing
      cases nothing
    · rename_i same
      exact absurd (List.cons.inj same).1 plain
    · rename_i letter tail _ same
      obtain ⟨rfl, rfl⟩ := List.cons.inj same
      rw [hexValue_digitChar below, Option.bind_some,
        ih (fun other listed => small other (List.mem_cons_of_mem _ listed)), List.reverse_cons,
        Nat.ofDigits_append, List.length_cons, List.length_reverse, Nat.ofDigits_singleton]
      congr 1
      ring

theorem digits_map {values : List Nat} (small : ∀ digit ∈ values, digit < 16)
    (nonempty : values ≠ []) :
    digits (values.map Nat.digitChar) = some (Nat.ofDigits 16 values.reverse) := by
  obtain ⟨digit, rest, rfl⟩ := List.exists_cons_of_ne_nil nonempty
  rw [List.map_cons, digits, hexValue_digitChar (small digit List.mem_cons_self), Option.bind_some,
    moreDigits_map fun other listed => small other (List.mem_cons_of_mem _ listed),
    List.reverse_cons, Nat.ofDigits_append, List.length_reverse, Nat.ofDigits_singleton]
  congr 1
  ring

/-! What stands around the digits. -/

theorem stripped_of_absent {letters : Char → Bool} {text : List Char}
    (absent : ∀ letter ∈ text, letters letter = false) : stripped letters text = text := by
  have keeps : ∀ text : List Char, (∀ letter ∈ text, letters letter = false) →
      text.dropWhile letters = text := by
    intro text absent
    cases text with
    | nil => rfl
    | cons letter rest => rw [List.dropWhile_cons, absent letter List.mem_cons_self]; rfl
  rw [stripped, keeps text absent, keeps text.reverse fun letter member =>
    absent letter (List.mem_reverse.mp member), List.reverse_reverse]

theorem sub_word_of_absent {letter : Char} {rest text : List Char} (absent : letter ∉ text) :
    sub (word (letter :: rest)) [] text = text := by
  refine sub_of_not_occurs ?_
  rintro ⟨tail, listed, found⟩
  obtain ⟨taken, some⟩ := Option.isSome_iff_exists.mp found
  obtain ⟨front, rfl⟩ := (word_some.mp some).1
  exact absent ((List.mem_tails _ _ |>.mp listed).subset (List.mem_cons_self ..))

/-- Removing one letter everywhere. -/
theorem sub_letter (letter : Char) (text : List Char) :
    sub (word [letter]) [] text = text.filter (· ≠ letter) := by
  induction text with
  | nil => rfl
  | cons first rest ih =>
    by_cases same : first = letter
    · subst same
      have here : word [first] (first :: rest) = some 1 :=
        word_some.mpr ⟨List.cons_prefix_cons.mpr ⟨rfl, List.nil_prefix⟩, rfl⟩
      rw [sub_of_some (word_proper (List.cons_ne_nil _ _)) here]
      simpa using ih
    · have elsewhere : word [letter] (first :: rest) = none := by
        rw [word, if_neg]
        exact fun begins => same (List.cons_prefix_cons.mp begins).1.symm
      rw [sub_of_none elsewhere, ih]
      simp [same]

theorem int16_hex {values : List Nat} (small : ∀ digit ∈ values, digit < 16)
    (nonempty : values ≠ []) :
    int16 (values.map Nat.digitChar) = some ((Nat.ofDigits 16 values.reverse : Nat) : Int) := by
  have written := hexText_map small
  have unspaced : stripped isSpace (values.map Nat.digitChar) = values.map Nat.digitChar := by
    refine stripped_of_absent fun letter member => ?_
    obtain ⟨digit, below, rfl⟩ := written letter member
    interval_cases digit <;> decide
  have unsigned : ∀ letter rest, hexValue letter = none →
      values.map Nat.digitChar ≠ letter :: rest :=
    fun letter rest foreign same => written.other foreign (same ▸ List.mem_cons_self)
  have bare : unprefixed (values.map Nat.digitChar) = values.map Nat.digitChar := by
    have second : ∀ first letter rest, hexValue letter = none →
        values.map Nat.digitChar ≠ first :: letter :: rest := fun first letter rest foreign same =>
      written.other foreign (same ▸ List.mem_cons_of_mem _ List.mem_cons_self)
    unfold unprefixed
    split
    · rename_i same
      exact absurd same (second _ _ _ (by decide))
    · rename_i same
      exact absurd same (second _ _ _ (by decide))
    · rename_i same
      exact absurd same (second _ _ _ (by decide))
    · rename_i same
      exact absurd same (second _ _ _ (by decide))
    · rfl
  unfold int16
  rw [unspaced]
  split
  · rename_i same
    exact absurd same (unsigned _ _ (by decide))
  · rename_i same
    exact absurd same (unsigned _ _ (by decide))
  · rw [bare, digits_map small nonempty]
    rfl

section Str
variable {id : Uuid}

theorem hex32_digits (id : Uuid) : ∀ digit ∈ (Nat.digitsAppend 16 32 id).reverse,
    digit < 16 :=
  fun digit member => Nat.lt_of_mem_digitsAppend (by decide) 32 digit (List.mem_reverse.mp member)

theorem hex32_length (below : id < 2 ^ 128) : (hex32 id).length = 32 := by
  rw [hex32, List.length_map, List.length_reverse, Nat.length_digitsAppend (by decide) 32 (by omega)]

/-- `str(id)` without its hyphens. -/
theorem strUuid_filter (id : Uuid) : (strUuid id).filter (· ≠ '-') = hex32 id := by
  have plain : ∀ part : List Char, part.Sublist (hex32 id) → part.filter (· ≠ '-') = part := by
    intro part sublist
    refine List.filter_eq_self.mpr fun letter member => ?_
    have absent : '-' ∉ hex32 id := (hexText_map (hex32_digits id)).other (by decide)
    have other : letter ≠ '-' := fun same => absent (same ▸ sublist.subset member)
    simpa using other
  have taken : ∀ many from_, (((hex32 id).drop from_).take many).Sublist (hex32 id) :=
    fun many from_ => (List.take_sublist _ _).trans (List.drop_sublist _ _)
  rw [strUuid]
  simp only [List.filter_append, List.filter_cons, ne_eq, not_true_eq_false, decide_false,
    Bool.false_eq_true, if_false]
  simp only [← ne_eq]
  rw [plain _ (List.take_sublist _ _), plain _ (taken _ _), plain _ (taken _ _), plain _ (taken _ _),
    plain _ (List.drop_sublist _ _)]
  have cut : ∀ many start, ((hex32 id).drop start).take many ++ (hex32 id).drop (start + many) =
      (hex32 id).drop start := by
    intro many start
    rw [← List.drop_drop, List.take_append_drop]
  rw [cut 4 16, cut 4 12, cut 4 8, List.take_append_drop]

/-- `uuid.UUID(str(id)) == id`. -/
theorem parseUuid_strUuid (below : id < 2 ^ 128) : parseUuid (strUuid id) = some id := by
  have small := hex32_digits id
  have letters : ∀ letter ∈ strUuid id, letter = '-' ∨ letter ∈ hex32 id := by
    intro letter member
    by_cases hyphen : letter = '-'
    · exact .inl hyphen
    · right
      rw [← strUuid_filter id]
      exact List.mem_filter.mpr ⟨member, by simpa using hyphen⟩
  have absent : ∀ letter, hexValue letter = none → letter ≠ '-' → letter ∉ strUuid id := by
    intro letter foreign other member
    rcases letters letter member with hyphen | listed
    · exact other hyphen
    · exact (hexText_map small).other foreign listed
  have bare : stripped (fun letter => letter = '\x7b' || letter = '\x7d') (strUuid id) =
      strUuid id := by
    refine stripped_of_absent fun letter member => ?_
    rw [Bool.or_eq_false_iff, decide_eq_false_iff_not, decide_eq_false_iff_not]
    exact ⟨fun same => absent '\x7b' (by decide) (by decide) (same ▸ member),
      fun same => absent '\x7d' (by decide) (by decide) (same ▸ member)⟩
  have nonempty : (Nat.digitsAppend 16 32 id).reverse ≠ [] := by
    intro none
    have length := hex32_length below
    rw [hex32, none] at length
    cases length
  have value : Nat.ofDigits 16 (Nat.digitsAppend 16 32 id) = id := by
    rw [Nat.digitsAppend, Nat.ofDigits_append_replicate_zero, Nat.ofDigits_digits]
  have urn : sub (word "urn:".toList) [] (strUuid id) = strUuid id :=
    sub_word_of_absent (absent 'u' (by decide) (by decide))
  have uuid : sub (word "uuid:".toList) [] (strUuid id) = strUuid id :=
    sub_word_of_absent (absent 'u' (by decide) (by decide))
  unfold parseUuid
  dsimp only
  rw [urn, uuid, bare, sub_letter, strUuid_filter id, if_neg (by simp [hex32_length below]), hex32,
    int16_hex small nonempty, List.reverse_reverse, value, Option.bind_some, if_pos]
  · rfl
  · exact ⟨Int.natCast_nonneg id, by exact_mod_cast below⟩

end Str

end Pulse
