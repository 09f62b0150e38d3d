import Mathlib.Data.List.TakeWhile
import Pulse.Library.Rewriting

/-! `Settings.async_database_url`. Texts are lists of characters. -/
namespace Pulse.DatabaseUrl
open Library.Rewriting

abbrev Text := List Char

/-- `sslmode=(require|verify-ca|verify-full|prefer)`. -/
def sslmodeRequired : Pattern Char :=
  (word "sslmode=".toList).then
    (anyOf ["require".toList, "verify-ca".toList, "verify-full".toList, "prefer".toList])

def disabledBody : Pattern Char :=
  (word "sslmode=".toList).then (anyOf ["disable".toList, "allow".toList])

/-- `[?&]sslmode=(disable|allow)`. -/
def sslmodeDisabled : Pattern Char := (oneOf ['?', '&']).then disabledBody

def bindingBody : Pattern Char := (word "channel_binding=".toList).then (manyBut '&')

/-- `[?&]channel_binding=[^&]+`. -/
def channelBinding : Pattern Char := (oneOf ['?', '&']).then bindingBody

def asyncScheme (url : Text) : Text :=
  if "postgres://".toList <+: url then
    replaceFirst "postgres://".toList "postgresql+asyncpg://".toList url
  else if "postgresql://".toList <+: url ∧ ¬ "postgresql+asyncpg://".toList <+: url then
    replaceFirst "postgresql://".toList "postgresql+asyncpg://".toList url
  else url

def beginQuery (url : Text) : Text :=
  if '?' ∉ url ∧ '&' ∈ url then replaceFirst ['&'] ['?'] url else url

def asyncDatabaseUrl (databaseUrl : Text) : Text :=
  let url := asyncScheme databaseUrl
  let url := sub sslmodeRequired "ssl=require".toList url
  let url := sub sslmodeDisabled [] url
  let url := sub channelBinding [] url
  beginQuery url

/-! The URLs it is meant for. -/

inductive Scheme where
  | postgres
  | postgresql
  | asyncpg
deriving DecidableEq, Repr

def Scheme.text : Scheme → Text
  | .postgres => "postgres://".toList
  | .postgresql => "postgresql://".toList
  | .asyncpg => "postgresql+asyncpg://".toList

/-- The parameters of a query behind their separators. -/
def query : List Text → List (Char × Text)
  | [] => []
  | first :: rest => ('?', first) :: rest.map fun parameter => ('&', parameter)

/-- `target` is all between the scheme and the query: user, password, host and database. -/
structure Url where
  scheme : Scheme
  target : Text
  parameters : List Text
  target_ok : '?' ∉ target
  parameters_ok : ∀ parameter ∈ parameters, Clean ['?', '&'] parameter

def Url.text (url : Url) : Text := url.scheme.text ++ (url.target ++ render (query url.parameters))

/-! The patterns. -/

section Patterns
variable {text : Text} {taken : Nat}

/-- The parameters which are replaced. -/
def requiredModes : List Text := [
  "sslmode=require".toList, "sslmode=verify-ca".toList, "sslmode=verify-full".toList,
  "sslmode=prefer".toList]

/-- The parameters which go. -/
def disabledModes : List Text := ["sslmode=disable".toList, "sslmode=allow".toList]

/-- And those which begin so. -/
def bindingName : Text := "channel_binding=".toList

theorem sslmodeRequired_eq : sslmodeRequired = anyOf requiredModes := word_then_anyOf _ _

theorem disabledBody_eq : disabledBody = anyOf disabledModes := word_then_anyOf _ _

theorem sslmodeRequired_proper : sslmodeRequired.Proper :=
  sslmodeRequired_eq ▸ anyOf_proper (by decide)

theorem disabledBody_proper : disabledBody.Proper := disabledBody_eq ▸ anyOf_proper (by decide)

theorem bindingBody_proper : bindingBody.Proper :=
  (word_proper (by decide)).then (manyBut_proper '&')

theorem sslmodeDisabled_proper : sslmodeDisabled.Proper := (oneOf_proper _).then disabledBody_proper

theorem channelBinding_proper : channelBinding.Proper := (oneOf_proper _).then bindingBody_proper

theorem sslmodeRequired_stops {letter : Char} (separator : letter ∈ ['?', '&']) :
    sslmodeRequired.Stops letter := by
  have clean : ∀ mode ∈ requiredModes, Clean ['?', '&'] mode := by decide
  exact sslmodeRequired_eq ▸ anyOf_stops fun mode member found =>
    clean mode member letter found separator

theorem disabledBody_stops {letter : Char} (separator : letter ∈ ['?', '&']) :
    disabledBody.Stops letter := by
  have clean : ∀ mode ∈ disabledModes, Clean ['?', '&'] mode := by decide
  exact disabledBody_eq ▸ anyOf_stops fun mode member found =>
    clean mode member letter found separator

/-- A question mark does not end the value. -/
theorem bindingBody_stops : bindingBody.Stops '&' :=
  (word_stops (by decide)).then (word_proper (by decide)) (manyBut_stops '&')

theorem sslmodeRequired_shrinks (text : Text) (taken : Nat)
    (found : sslmodeRequired text = some taken) : "ssl=require".toList.length < taken := by
  rw [sslmodeRequired_eq] at found
  obtain ⟨term, member, _, rfl⟩ := anyOf_some found
  have longer : ∀ term ∈ requiredModes, "ssl=require".toList.length < term.length := by decide
  exact longer term member

/-- A parameter is a binding with a value, or the pattern does not match it. -/
theorem bindingBody_some (whole : '&' ∉ text) : bindingBody text = some taken ↔
    bindingName <+: text ∧ text ≠ bindingName ∧ taken = text.length := by
  have run : ∀ rest : Text, rest <:+ text → rest.takeWhile (· ≠ '&') = rest := by
    intro rest suffix
    refine List.takeWhile_eq_self_iff.mpr ?_
    intro letter member
    exact decide_eq_true fun same => whole (same ▸ suffix.subset member)
  rw [bindingBody, then_some]
  constructor
  · rintro ⟨front, back, named, valued, rfl⟩
    obtain ⟨begins, rfl⟩ := word_some.mp named
    obtain ⟨nonempty, rfl⟩ := manyBut_some.mp valued
    rw [run _ (List.drop_suffix _ _)] at nonempty ⊢
    obtain ⟨value, rfl⟩ := begins
    rw [List.drop_left] at nonempty ⊢
    refine ⟨List.prefix_append _ _, ?_, List.length_append.symm⟩
    intro same
    exact nonempty (List.append_right_eq_self.mp same)
  · rintro ⟨⟨value, rfl⟩, differs, rfl⟩
    refine ⟨bindingName.length, value.length, word_some.mpr ⟨List.prefix_append _ _, rfl⟩, ?_,
      List.length_append⟩
    rw [List.drop_left, manyBut_some, run value (List.suffix_append _ _)]
    refine ⟨?_, rfl⟩
    rintro rfl
    exact differs (List.append_nil _)

theorem bindingBody_isNone (whole : '&' ∉ text) : (bindingBody text).isNone = true ↔
    (bindingName <+: text → text = bindingName) := by
  rw [Option.isNone_iff_eq_none, Option.eq_none_iff_forall_not_mem]
  constructor
  · intro none begins
    by_contra differs
    exact none _ ((bindingBody_some whole).mpr ⟨begins, differs, rfl⟩)
  · intro bare taken found
    obtain ⟨begins, differs, _⟩ := (bindingBody_some whole).mp found
    exact differs (bare begins)

theorem disabledBody_isSome : (disabledBody text).isSome = true ↔
    ∃ mode ∈ disabledModes, mode <+: text := by
  rw [disabledBody_eq]
  exact anyOf_isSome

theorem enabled_not_mem (enabled : disabledBody text = none) : text ∉ disabledModes := by
  intro member
  have found := disabledBody_isSome.mpr ⟨text, member, List.prefix_rfl⟩
  rw [enabled] at found
  cases found

/-- Up to an ampersand the repair of the query changes nothing. -/
theorem replaceFirst_ampersand {front : Text} (absent : '&' ∉ front) (rest : Text) :
    replaceFirst ['&'] ['?'] (front ++ rest) = front ++ replaceFirst ['&'] ['?'] rest := by
  refine replaceFirst_append ?_
  intro tail suffix nonempty found
  cases tail with
  | nil => exact nonempty rfl
  | cons letter tail =>
    obtain ⟨rfl, _⟩ := List.cons_prefix_cons.mp found
    exact absent (suffix.subset List.mem_cons_self)

end Patterns

/-! The first replacement. -/

def replaced (text : Text) : Text := sub sslmodeRequired "ssl=require".toList text

section Replaced
variable {text : Text}

theorem replaced_eq_self_iff : replaced text = text ↔ ¬ Occurs sslmodeRequired text :=
  sub_eq_self_iff sslmodeRequired_proper sslmodeRequired_shrinks

/-- No match begins in one of these words, and none of them comes out of the replacement. -/
theorem replaced_append {front : Text}
    (member : front ∈ "postgresql+asyncpg://".toList :: bindingName :: disabledModes)
    (rest : Text) : replaced (front ++ rest) = front ++ replaced rest := by
  have foreign : ∀ front ∈ "postgresql+asyncpg://".toList :: bindingName :: disabledModes,
      ∀ tail ∈ front.tails, tail ≠ [] →
        ∀ term ∈ requiredModes, ¬ tail <+: term ∧ ¬ term <+: tail := by
    decide
  refine sub_append_of_none ?_
  intro tail suffix nonempty
  refine none_of_foreign requiredModes ?_
    (foreign front member tail ((List.mem_tails _ _).mpr suffix) nonempty)
  intro text taken found
  rw [sslmodeRequired_eq] at found
  obtain ⟨term, listed, begins, _⟩ := anyOf_some found
  exact ⟨term, listed, begins⟩

theorem prefix_replaced {front : Text}
    (member : front ∈ bindingName :: disabledModes) :
    front <+: replaced text ↔ front <+: text := by
  have foreign : ∀ front ∈ bindingName :: disabledModes,
      ∀ tail ∈ front.tails, tail ≠ [] →
        ¬ tail <+: "ssl=require".toList ∧ ¬ "ssl=require".toList <+: tail := by
    decide
  constructor
  · exact prefix_of_prefix_sub sslmodeRequired_proper fun tail suffix =>
      foreign front member tail ((List.mem_tails _ _).mpr suffix)
  · rintro ⟨rest, rfl⟩
    rw [replaced_append (List.mem_cons_of_mem _ member)]
    exact List.prefix_append _ _

theorem replaced_eq_binding :
    replaced text = bindingName ↔ text = bindingName := by
  constructor
  · intro same
    have begins : bindingName <+: text :=
      (prefix_replaced List.mem_cons_self).mp (same ▸ List.prefix_rfl)
    obtain ⟨rest, rfl⟩ := begins
    rw [replaced_append (by decide)] at same
    have empty := List.append_right_eq_self.mp same
    rw [(sub_eq_nil (by decide) sslmodeRequired_proper).mp empty, List.append_nil]
  · rintro rfl
    decide

theorem replaced_clean {separators : Text} (new : Clean separators "ssl=require".toList)
    (clean : Clean separators text) : Clean separators (replaced text) := fun letter member =>
  (mem_sub sslmodeRequired_proper member).elim (clean letter) (new letter)

end Replaced
end Pulse.DatabaseUrl
