import Pulse.Core.DatabaseUrl

/-! `async_database_url` works on the text of the URL: exactly when that is the same as working on
its parameters. -/
namespace Pulse.DatabaseUrl
open Library.Rewriting

/-- What is to become of a parameter. -/
def translate (parameter : Text) : Option Text :=
  if parameter ∈ requiredModes then some "ssl=require".toList
  else if parameter ∈ disabledModes ∨ bindingName <+: parameter then none
  else some parameter

/-- The URL with its target as it is, and its parameters translated one by one. -/
def Url.translated (url : Url) : Text :=
  Scheme.asyncpg.text ++ (url.target ++ render (query (url.parameters.filterMap translate)))

/-- A binding has a value, and another parameter holds nothing of an `sslmode` unless it is one. -/
structure Plain (parameter : Text) : Prop where
  valued : parameter ≠ bindingName
  whole : ¬ bindingName <+: parameter → parameter ∉ requiredModes →
    parameter ∉ disabledModes →
      ¬ Occurs sslmodeRequired parameter ∧ ∀ mode ∈ disabledModes, ¬ mode <+: parameter

/-- The patterns find nothing in the target, also where the query begins behind it; an ampersand
in it is followed by the question mark of a first parameter which stays; and the parameters are
plain. -/
structure Url.Plain (url : Url) : Prop where
  required : ¬ Occurs sslmodeRequired url.target
  disabled : ¬ Occurs sslmodeDisabled url.target
  binding : ¬ Occurs channelBinding (url.target ++ ['?'])
  begun : '&' ∈ url.target → ∃ first rest, url.parameters = first :: rest ∧
    (translate first).isSome = true
  parameters : ∀ parameter ∈ url.parameters, DatabaseUrl.Plain parameter

section Parameters
variable {parameter : Text} {parameters : List Text}

/-- A parameter which the deletions leave alone, whatever stands beside it. -/
def Stays (parameter : Text) : Bool :=
  (disabledBody parameter).isNone && decide (¬ bindingName <+: parameter)

theorem stays_iff : Stays parameter = true ↔
    (∀ mode ∈ disabledModes, ¬ mode <+: parameter) ∧ ¬ bindingName <+: parameter := by
  rw [Stays, Bool.and_eq_true, decide_eq_true_eq, Option.isNone_iff_eq_none,
    ← Option.not_isSome_iff_eq_none, disabledBody_isSome]
  simp

theorem translate_isSome : (translate parameter).isSome = true ↔
    parameter ∉ disabledModes ∧ ¬ bindingName <+: parameter := by
  have apart : ∀ mode ∈ requiredModes, mode ∉ disabledModes ∧
      ¬ bindingName <+: mode := by decide
  unfold translate
  split
  · rename_i required
    simpa using apart parameter required
  · split <;> rename_i gone
    · simpa [imp_iff_not_or] using gone
    · simpa using gone

/-- Nothing that is left is a binding. -/
theorem not_binding_of_translated (member : parameter ∈ parameters.filterMap translate) :
    ¬ bindingName <+: parameter := by
  obtain ⟨source, _, made⟩ := List.mem_filterMap.mp member
  unfold translate at made
  split at made
  · cases Option.some.inj made
    decide
  · split at made
    · cases made
    · rename_i kept
      cases Option.some.inj made
      exact fun begins => kept (.inr begins)

/-- The parameters after the first replacement. -/
def parts (parameters : List Text) : List (Char × Text) := query (parameters.map replaced)

/-- Those whose `sslmode` is not deleted, with what is left of the ones behind. -/
def glued (parameters : List Text) : List (Char × Text) := (cut disabledBody (parts parameters)).2

/-- And of these the ones which are not bindings. -/
def kept (parameters : List Text) : List (Char × Text) :=
  (glued parameters).filter fun part => (bindingBody part.2).isNone

theorem query_segments (parameters : List Text) : (query parameters).map Prod.snd = parameters := by
  cases parameters with
  | nil => rfl
  | cons first rest =>
    rw [query, List.map_cons, List.map_map]
    exact congrArg _ (List.map_id rest)

theorem query_parted (clean : ∀ parameter ∈ parameters, Clean ['?', '&'] parameter) :
    Parted ['?', '&'] (query parameters) := by
  intro part member
  refine ⟨?_, clean part.2 ?_⟩
  · cases parameters with
    | nil => cases member
    | cons first rest =>
      rcases List.mem_cons.mp member with rfl | later
      · exact List.mem_cons_self
      · obtain ⟨other, _, rfl⟩ := List.mem_map.mp later
        exact List.mem_cons_of_mem _ List.mem_cons_self
  · rw [← query_segments parameters]
    exact List.mem_map_of_mem member

theorem replaced_parameters (clean : ∀ parameter ∈ parameters, Clean ['?', '&'] parameter) :
    ∀ parameter ∈ parameters.map replaced, Clean ['?', '&'] parameter := by
  intro parameter member
  obtain ⟨source, listed, rfl⟩ := List.mem_map.mp member
  exact replaced_clean (by decide) (clean source listed)

theorem glued_parted (clean : ∀ parameter ∈ parameters, Clean ['?', '&'] parameter) :
    Parted ['?', '&'] (glued parameters) :=
  (cut_clean (query_parted (replaced_parameters clean))).2

theorem kept_parted (clean : ∀ parameter ∈ parameters, Clean ['?', '&'] parameter) :
    Parted ['?', '&'] (kept parameters) := fun part member =>
  glued_parted clean part (List.mem_of_mem_filter member)

theorem disabledBody_replaced :
    (disabledBody (replaced parameter)).isSome = (disabledBody parameter).isSome := by
  rw [Bool.eq_iff_iff, disabledBody_isSome, disabledBody_isSome]
  constructor
  · rintro ⟨mode, member, begins⟩
    exact ⟨mode, member, (prefix_replaced (List.mem_cons_of_mem _ member)).mp begins⟩
  · rintro ⟨mode, member, begins⟩
    exact ⟨mode, member, (prefix_replaced (List.mem_cons_of_mem _ member)).mpr begins⟩

theorem disabledBody_replaced_isNone :
    (disabledBody (replaced parameter)).isNone = (disabledBody parameter).isNone := by
  rw [← Option.not_isSome, ← Option.not_isSome, disabledBody_replaced]

theorem countP_parts (counts : Text → Bool) :
    (parts parameters).countP (fun part => counts part.2) =
      parameters.countP fun parameter => counts (replaced parameter) := by
  have segments := query_segments (parameters.map replaced)
  have counted := congrArg (List.countP counts) segments
  rwa [List.countP_map, List.countP_map] at counted

theorem binding_replaced : bindingName <+: replaced parameter ↔ bindingName <+: parameter :=
  prefix_replaced List.mem_cons_self

/-- An `sslmode` which is deleted is a parameter, and every binding has a value. -/
structure Sound (parameters : List Text) : Prop where
  disabled : ∀ parameter ∈ parameters, (disabledBody parameter).isSome = true →
    parameter ∈ disabledModes
  valued : ∀ parameter ∈ parameters, parameter ≠ bindingName

theorem not_binding_of_disabled (disabled : (disabledBody parameter).isSome = true) :
    ¬ bindingName <+: parameter := by
  have apart : ∀ mode ∈ disabledModes, ¬ mode <+: bindingName ∧ ¬ bindingName <+: mode := by decide
  obtain ⟨mode, member, begins⟩ := disabledBody_isSome.mp disabled
  intro named
  rcases List.prefix_or_prefix_of_prefix begins named with short | long
  · exact (apart mode member).1 short
  · exact (apart mode member).2 long

/-- Then the deletions take whole parameters. -/
theorem cut_of_disabled (disabled : ∀ parameter ∈ parameters,
    (disabledBody parameter).isSome = true → parameter ∈ disabledModes) :
    cut disabledBody (parts parameters) =
      ([], (parts parameters).filter fun part => (disabledBody part.2).isNone) := by
  apply cut_of_whole
  intro part member taken found
  have whole : ∀ mode ∈ disabledModes, replaced mode = mode ∧
      disabledBody mode = some mode.length := by decide
  have listed := List.mem_map_of_mem (f := Prod.snd) member
  rw [parts, query_segments] at listed
  obtain ⟨parameter, source, same⟩ := List.mem_map.mp listed
  rw [← same] at found ⊢
  have some : (disabledBody (replaced parameter)).isSome = true :=
    Option.isSome_iff_exists.mpr ⟨_, found⟩
  rw [disabledBody_replaced] at some
  obtain ⟨unchanged, all⟩ := whole parameter (disabled parameter source some)
  rw [unchanged] at found ⊢
  exact Option.some.inj (found.symm.trans all)

theorem kept_of_sound (clean : ∀ parameter ∈ parameters, Clean ['?', '&'] parameter)
    (sound : Sound parameters) :
    (kept parameters).map Prod.snd = (parameters.filter Stays).map replaced := by
  have outer : ((kept parameters).map Prod.snd) = ((parameters.map replaced).filter fun parameter =>
      (disabledBody parameter).isNone).filter fun parameter => (bindingBody parameter).isNone := by
    rw [kept, glued, cut_of_disabled sound.disabled, ← query_segments (parameters.map replaced),
      List.filter_map, List.filter_map]
    rfl
  rw [outer, List.filter_map, List.filter_map, List.filter_filter]
  congr 1
  apply List.filter_congr
  intro parameter member
  have whole : '&' ∉ replaced parameter := fun found =>
    replaced_clean (by decide) (clean parameter member) '&' found (by decide)
  rw [Bool.eq_iff_iff, Bool.and_eq_true, Stays, Bool.and_eq_true, decide_eq_true_eq]
  simp only [Function.comp]
  rw [bindingBody_isNone whole, binding_replaced, replaced_eq_binding, Option.isNone_iff_eq_none,
    Option.isNone_iff_eq_none, ← Option.not_isSome_iff_eq_none, ← Option.not_isSome_iff_eq_none,
    disabledBody_replaced]
  constructor
  · exact fun both => ⟨both.2, fun begins => sound.valued parameter member (both.1 begins)⟩
  · exact fun both => ⟨fun begins => absurd begins both.2, both.1⟩

/-- What a parameter which stays becomes. -/
def becomes (parameter : Text) : Text :=
  if parameter ∈ requiredModes then "ssl=require".toList else parameter

theorem translated_of_sound (sound : Sound parameters) :
    parameters.filterMap translate = (parameters.filter Stays).map becomes := by
  have each : ∀ parameter ∈ parameters,
      translate parameter = if Stays parameter then some (becomes parameter) else none := by
    intro parameter member
    by_cases stays : Stays parameter
    · obtain ⟨enabled, unbound⟩ := stays_iff.mp stays
      rw [if_pos stays]
      unfold translate becomes
      split
      · rfl
      · rw [if_neg]
        rintro (disabled | binding)
        · exact enabled parameter disabled List.prefix_rfl
        · exact unbound binding
    · rw [if_neg stays, ← Option.not_isSome_iff_eq_none, translate_isSome]
      rintro ⟨enabled, unbound⟩
      refine stays (stays_iff.mpr ⟨?_, unbound⟩)
      intro mode listed begins
      exact enabled (sound.disabled parameter member (disabledBody_isSome.mpr ⟨mode, listed, begins⟩))
  rw [List.filterMap_congr each]
  induction parameters with
  | nil => rfl
  | cons first rest ih =>
    have later : Sound rest := ⟨
      fun other member => sound.disabled other (List.mem_cons_of_mem _ member),
      fun other member => sound.valued other (List.mem_cons_of_mem _ member)⟩
    have tail := ih later fun other member => each other (List.mem_cons_of_mem _ member)
    by_cases stays : Stays first <;> simp [stays, tail]

/-- The two agree on sound parameters where the first replacement finds nothing but whole ones. -/
theorem agree_of_sound (clean : ∀ parameter ∈ parameters, Clean ['?', '&'] parameter)
    (sound : Sound parameters) :
    (kept parameters).map Prod.snd = parameters.filterMap translate ↔
      ∀ parameter ∈ parameters, Stays parameter = true → parameter ∉ requiredModes →
        ¬ Occurs sslmodeRequired parameter := by
  have whole : ∀ mode ∈ requiredModes, replaced mode = "ssl=require".toList := by decide
  rw [kept_of_sound clean sound, translated_of_sound sound, List.map_inj_left]
  constructor
  · intro same parameter member stays other
    have unchanged := same parameter (List.mem_filter.mpr ⟨member, stays⟩)
    rw [becomes, if_neg other] at unchanged
    exact replaced_eq_self_iff.mp unchanged
  · intro absent parameter member
    obtain ⟨listed, stays⟩ := List.mem_filter.mp member
    unfold becomes
    split
    · rename_i required
      exact whole parameter required
    · rename_i other
      exact replaced_eq_self_iff.mpr (absent parameter listed stays other)

/-- A parameter is a binding or is translated, unless an `sslmode` is deleted from it; a deleted
part of a parameter counts too much. -/
theorem count_parameters (parameters : List Text) :
    parameters.countP (fun parameter => (translate parameter).isSome) +
        parameters.countP (fun parameter => decide (bindingName <+: parameter)) =
      parameters.countP (fun parameter => (disabledBody parameter).isNone) +
        parameters.countP (fun parameter =>
          (disabledBody parameter).isSome && decide (parameter ∉ disabledModes)) := by
  induction parameters with
  | nil => rfl
  | cons first rest ih =>
    have head : (if (translate first).isSome then 1 else 0) +
        (if decide (bindingName <+: first) then 1 else 0) =
          (if (disabledBody first).isNone then 1 else 0) +
            (if (disabledBody first).isSome && decide (first ∉ disabledModes) then 1 else 0) := by
      have translated : (translate first).isSome = true ↔
          first ∉ disabledModes ∧ ¬ bindingName <+: first := translate_isSome
      cases disabled : disabledBody first with
      | some taken =>
        have unbound := not_binding_of_disabled (Option.isSome_iff_exists.mpr ⟨taken, disabled⟩)
        by_cases listed : first ∈ disabledModes <;> simp [translated, unbound, listed]
      | none =>
        have unlisted := enabled_not_mem disabled
        by_cases bound : bindingName <+: first <;> simp [translated, bound, unlisted]
    simp only [List.countP_cons]
    omega

/-- Whatever agrees is sound: a binding without a value would be left, and a parameter of which a
part is deleted would be missing. -/
theorem sound_of_agree (clean : ∀ parameter ∈ parameters, Clean ['?', '&'] parameter)
    (agree : (kept parameters).map Prod.snd = parameters.filterMap translate) : Sound parameters := by
  have unbound : ∀ part ∈ glued parameters,
      (bindingBody part.2).isNone = !decide (bindingName <+: part.2) := by
    intro part member
    have whole : '&' ∉ part.2 := fun found =>
      (glued_parted clean part member).2 '&' found (by decide)
    rw [Bool.eq_iff_iff, Bool.not_eq_true', decide_eq_false_iff_not]
    constructor
    · intro none
      have listed : part.2 ∈ (kept parameters).map Prod.snd :=
        List.mem_map_of_mem (List.mem_filter.mpr ⟨member, none⟩)
      rw [agree] at listed
      exact not_binding_of_translated listed
    · exact fun differs => (bindingBody_isNone whole).mpr fun begins => absurd begins differs
  have remaining : (glued parameters).countP (fun part => !decide (bindingName <+: part.2)) =
      parameters.countP fun parameter => (translate parameter).isSome := by
    rw [← List.length_filterMap_eq_countP, ← agree, List.length_map, kept,
      ← List.countP_eq_length_filter]
    exact List.countP_congr fun part member => by rw [unbound part member]
  have all : (glued parameters).length =
      parameters.countP fun parameter => (disabledBody parameter).isNone := by
    rw [glued, length_cut, countP_parts fun parameter => (disabledBody parameter).isNone]
    exact List.countP_congr fun parameter _ => by rw [disabledBody_replaced_isNone]
  have bound : parameters.countP (fun parameter => decide (bindingName <+: parameter)) ≤
      (glued parameters).countP fun part => decide (bindingName <+: part.2) := by
    refine le_trans (le_of_eq ?_) (countP_cut_le bindingName)
    rw [countP_parts fun parameter => (disabledBody parameter).isNone &&
      decide (bindingName <+: parameter)]
    refine List.countP_congr fun parameter _ => ?_
    rw [disabledBody_replaced_isNone, Bool.and_eq_true, decide_eq_true_eq, decide_eq_true_eq,
      binding_replaced]
    refine ⟨fun begins => ⟨?_, begins⟩, And.right⟩
    rw [Option.isNone_iff_eq_none, ← Option.not_isSome_iff_eq_none]
    exact fun disabled => not_binding_of_disabled disabled begins
  have split := List.length_eq_countP_add_countP
    (fun part : Char × Text => decide (bindingName <+: part.2)) (l := glued parameters)
  have classes := count_parameters parameters
  have none : parameters.countP (fun parameter =>
      (disabledBody parameter).isSome && decide (parameter ∉ disabledModes)) = 0 := by
    have others : (glued parameters).countP (fun part => !decide (bindingName <+: part.2)) =
        (glued parameters).countP fun part => decide ¬ decide (bindingName <+: part.2) = true :=
      List.countP_congr fun part _ => by simp
    omega
  have disabled : ∀ parameter ∈ parameters, (disabledBody parameter).isSome = true →
      parameter ∈ disabledModes := by
    intro parameter member some
    have absent := List.countP_eq_zero.mp none parameter member
    by_contra other
    exact absent (by simp [some, other])
  refine ⟨disabled, ?_⟩
  rintro parameter member rfl
  have same : replaced bindingName = bindingName := by decide
  have listed : bindingName ∈ (parts parameters).map Prod.snd := by
    rw [parts, query_segments]
    exact List.mem_map.mpr ⟨bindingName, member, same⟩
  obtain ⟨part, present, bare⟩ := List.mem_map.mp listed
  have left : part ∈ kept parameters := by
    rw [kept, glued, cut_of_disabled disabled, List.mem_filter, List.mem_filter, bare]
    exact ⟨⟨present, by decide⟩, by decide⟩
  have translated := List.mem_map_of_mem (f := Prod.snd) left
  rw [agree, bare] at translated
  exact not_binding_of_translated translated List.prefix_rfl

/-- The parameters come out as they should if and only if they are plain. -/
theorem agree_iff (clean : ∀ parameter ∈ parameters, Clean ['?', '&'] parameter) :
    (kept parameters).map Prod.snd = parameters.filterMap translate ↔
      ∀ parameter ∈ parameters, Plain parameter := by
  have required : ∀ mode ∈ requiredModes, (disabledBody mode).isSome = false := by decide
  constructor
  · intro agree parameter member
    have sound := sound_of_agree clean agree
    refine ⟨sound.valued parameter member, ?_⟩
    intro unbound other unlisted
    have enabled : ∀ mode ∈ disabledModes, ¬ mode <+: parameter := fun mode listed begins =>
      unlisted (sound.disabled parameter member (disabledBody_isSome.mpr ⟨mode, listed, begins⟩))
    exact ⟨(agree_of_sound clean sound).mp agree parameter member
      (stays_iff.mpr ⟨enabled, unbound⟩) other, enabled⟩
  · intro plain
    refine (agree_of_sound clean ⟨?_, fun parameter member => (plain parameter member).valued⟩).mpr ?_
    · intro parameter member disabled
      by_contra unlisted
      have other : parameter ∉ requiredModes := fun listed => by
        rw [required parameter listed] at disabled
        cases disabled
      obtain ⟨mode, listed, begins⟩ := disabledBody_isSome.mp disabled
      exact ((plain parameter member).whole (not_binding_of_disabled disabled) other unlisted).2
        mode listed begins
    · intro parameter member stays other
      obtain ⟨enabled, unbound⟩ := stays_iff.mp stays
      have unlisted : parameter ∉ disabledModes := fun listed =>
        enabled parameter listed List.prefix_rfl
      exact ((plain parameter member).whole unbound other unlisted).1

end Parameters
section Steps
variable {target rest : Text} {parameters : List Text} {pieces others : List (Char × Text)}

/-- A URL has one scheme. -/
theorem begins_scheme (other scheme : Scheme) :
    other.text <+: scheme.text ++ rest ↔ other = scheme := by
  have apart : ∀ other scheme : Scheme, other ≠ scheme → ¬ other.text <+: scheme.text := by
    intro other scheme
    cases other <;> cases scheme <;> decide
  constructor
  · intro begins
    by_contra differs
    rcases List.prefix_or_prefix_of_prefix begins (List.prefix_append scheme.text rest) with
      short | long
    · exact apart other scheme differs short
    · exact apart scheme other (Ne.symm differs) long
  · rintro rfl
    exact List.prefix_append _ _

theorem asyncScheme_text (scheme : Scheme) (rest : Text) :
    asyncScheme (scheme.text ++ rest) = Scheme.asyncpg.text ++ rest := by
  change (if Scheme.postgres.text <+: scheme.text ++ rest then
      replaceFirst Scheme.postgres.text Scheme.asyncpg.text (scheme.text ++ rest)
    else if Scheme.postgresql.text <+: scheme.text ++ rest ∧
        ¬ Scheme.asyncpg.text <+: scheme.text ++ rest then
      replaceFirst Scheme.postgresql.text Scheme.asyncpg.text (scheme.text ++ rest)
    else scheme.text ++ rest) = _
  simp only [begins_scheme]
  cases scheme with
  | postgres => exact replaceFirst_here (by decide)
  | postgresql => exact replaceFirst_here (by decide)
  | asyncpg => rfl

/-- An ampersand is put in place of nothing in front of it. -/
theorem beginQuery_append {front : Text} (clean : Clean ['?', '&'] front) :
    beginQuery (front ++ rest) = front ++ beginQuery rest := by
  have absent : '?' ∉ front ∧ '&' ∉ front :=
    ⟨fun member => clean _ member (by decide), fun member => clean _ member (by decide)⟩
  have same : ('?' ∉ front ++ rest ∧ '&' ∈ front ++ rest) ↔ ('?' ∉ rest ∧ '&' ∈ rest) := by
    simp [absent]
  unfold beginQuery
  by_cases begins : '?' ∉ rest ∧ '&' ∈ rest
  · rw [if_pos (same.mpr begins), if_pos begins]
    exact replaceFirst_ampersand absent.2 rest
  · rw [if_neg (begins ∘ same.mp), if_neg begins]

/-- The three substitutions and the repair of the query. -/
def rewritten (text : Text) : Text :=
  beginQuery (sub channelBinding [] (sub sslmodeDisabled [] (replaced text)))

/-- None of the steps touches the scheme. -/
theorem asyncDatabaseUrl_text (scheme : Scheme) (rest : Text) :
    asyncDatabaseUrl (scheme.text ++ rest) = Scheme.asyncpg.text ++ rewritten rest := by
  have clean : Clean ['?', '&'] Scheme.asyncpg.text := by decide
  have first : replaced (Scheme.asyncpg.text ++ rest) = Scheme.asyncpg.text ++ replaced rest :=
    replaced_append (by decide) rest
  unfold asyncDatabaseUrl rewritten
  rw [asyncScheme_text]
  dsimp only
  rw [show sub sslmodeRequired "ssl=require".toList (Scheme.asyncpg.text ++ rest) =
      Scheme.asyncpg.text ++ replaced rest from first, sslmodeDisabled, sub_append_clean clean,
    channelBinding, sub_append_clean clean, beginQuery_append clean]

/-- All separators but the first are ampersands. -/
def Following (pieces : List (Char × Text)) : Prop := ∀ piece ∈ pieces.tail, piece.1 = '&'

theorem following_query (parameters : List Text) : Following (query parameters) := by
  intro piece member
  cases parameters with
  | nil => cases member
  | cons first rest =>
    obtain ⟨parameter, _, rfl⟩ := List.mem_map.mp member
    rfl

theorem following_of_sublist (fewer : (pieces.map Prod.fst).Sublist (others.map Prod.fst))
    (following : Following others) : Following pieces := by
  intro piece member
  have tails := fewer.tail
  rw [← List.map_tail, ← List.map_tail] at tails
  obtain ⟨other, listed, same⟩ := List.mem_map.mp (tails.subset (List.mem_map_of_mem member))
  rw [← same]
  exact following other listed

theorem following_glued (parameters : List Text) : Following (glued parameters) :=
  following_of_sublist cut_separators (following_query _)

theorem following_kept (parameters : List Text) : Following (kept parameters) :=
  following_of_sublist (List.filter_sublist.map Prod.fst) (following_glued parameters)

/-- A query is what its parameters make where a question mark begins it. -/
theorem query_of_following (following : Following pieces)
    (begun : ∀ piece ∈ pieces.head?, piece.1 = '?') : query (pieces.map Prod.snd) = pieces := by
  cases pieces with
  | nil => rfl
  | cons first rest =>
    have separators : ∀ piece ∈ rest, ('&', piece.2) = piece := fun piece member =>
      Prod.ext (following piece member).symm rfl
    have head : ('?', first.2) = first := Prod.ext (begun first rfl).symm rfl
    rw [List.map_cons, query, List.map_map, head]
    exact congrArg _ ((List.map_congr_left separators).trans (List.map_id _))

/-- The repair puts the question mark at the beginning of the query. -/
theorem beginQuery_render (parted : Parted ['?', '&'] pieces) (following : Following pieces) :
    beginQuery (render pieces) = render (query (pieces.map Prod.snd)) := by
  cases pieces with
  | nil => rfl
  | cons first rest =>
    have separator := (parted first List.mem_cons_self).1
    rw [List.mem_cons, List.mem_singleton] at separator
    rcases separator with mark | ampersand
    · have same : query ((first :: rest).map Prod.snd) = first :: rest :=
        query_of_following following fun piece head => by
          cases Option.some.inj head
          exact mark
      rw [same, beginQuery, if_neg]
      rintro ⟨absent, _⟩
      rw [render, mark] at absent
      exact absent List.mem_cons_self
    · have same : query ((('?', first.2) :: rest).map Prod.snd) = ('?', first.2) :: rest :=
        query_of_following following fun piece head => by
          cases Option.some.inj head
          rfl
      have absent : '?' ∉ render (first :: rest) := by
        rw [mem_render parted (by decide), List.map_cons, ampersand, List.mem_cons]
        rintro (mark | member)
        · cases mark
        · obtain ⟨piece, listed, mark⟩ := List.mem_map.mp member
          cases mark.symm.trans (following piece listed)
      rw [List.map_cons] at same ⊢
      rw [same, beginQuery, if_pos ⟨absent, by rw [render, ampersand]; exact List.mem_cons_self⟩,
        render, ampersand]
      exact replaceFirst_here (by decide)

theorem map_query (change : Text → Text) (parameters : List Text) :
    ((query parameters).map fun part => (part.1, change part.2)) = query (parameters.map change) := by
  cases parameters with
  | nil => rfl
  | cons first rest =>
    rw [List.map_cons, query, query, List.map_cons, List.map_map, List.map_map]
    rfl

/-- The first two substitutions. -/
theorem deleted_eq (clean : ∀ parameter ∈ parameters, Clean ['?', '&'] parameter) :
    sub sslmodeDisabled [] (replaced (target ++ render (query parameters))) =
      sub sslmodeDisabled [] (replaced target) ++
        ((cut disabledBody (parts parameters)).1 ++ render (glued parameters)) := by
  have parted : Parted ['?', '&'] (parts parameters) := query_parted (replaced_parameters clean)
  have first : replaced (target ++ render (query parameters)) =
      replaced target ++ render (parts parameters) := by
    rw [parts, ← map_query]
    exact sub_append_render sslmodeRequired_proper (fun _ => sslmodeRequired_stops)
      (query_parted clean)
  rw [first, sslmodeDisabled,
    sub_append_parts disabledBody_proper (fun _ => disabledBody_stops) parted,
    sub_render disabledBody_proper parted]
  · rfl
  · intro part rest suffix
    cases rest with
    | nil => rw [render, List.append_nil]
    | cons next rest =>
      have member := suffix.subset (List.mem_cons_of_mem _ List.mem_cons_self)
      rw [render, disabledBody_stops (parted next member).1]

/-- The third one, behind the target. -/
theorem unbound_eq (clean : ∀ parameter ∈ parameters, Clean ['?', '&'] parameter) :
    sub channelBinding [] (render (glued parameters)) = render (kept parameters) := by
  have parted := glued_parted clean
  have following := following_glued parameters
  have whole : ∀ part ∈ glued parameters, ∀ taken, bindingBody part.2 = some taken →
      taken = part.2.length := by
    intro part member taken found
    have absent : '&' ∉ part.2 := fun listed => (parted part member).2 '&' listed (by decide)
    exact ((bindingBody_some absent).mp found).2.2
  rw [channelBinding, sub_render bindingBody_proper parted, cut_of_whole whole]
  · rfl
  · intro part rest suffix
    cases rest with
    | nil => rw [render, List.append_nil]
    | cons next rest =>
      have later : next ∈ (glued parameters).tail := by
        obtain ⟨before, same⟩ := suffix
        rw [← same]
        cases before <;> simp
      rw [render, following next later, bindingBody_stops]

theorem translated_parted (clean : ∀ parameter ∈ parameters, Clean ['?', '&'] parameter) :
    Parted ['?', '&'] (query (parameters.filterMap translate)) := by
  have new : Clean ['?', '&'] "ssl=require".toList := by decide
  refine query_parted ?_
  intro parameter member
  obtain ⟨source, listed, made⟩ := List.mem_filterMap.mp member
  unfold translate at made
  split at made
  · cases Option.some.inj made
    exact new
  · split at made
    · cases made
    · cases Option.some.inj made
      exact clean _ listed

theorem query_inj {first second : List Text} : query first = query second ↔ first = second := by
  constructor
  · intro same
    rw [← query_segments first, same, query_segments]
  · rintro rfl
    rfl

/-- Nothing is left of the parameters which are deleted where the parameters are plain. -/
theorem cut_of_plain (clean : ∀ parameter ∈ parameters, Clean ['?', '&'] parameter)
    (plain : ∀ parameter ∈ parameters, Plain parameter) :
    (cut disabledBody (parts parameters)).1 = [] := by
  rw [cut_of_disabled (sound_of_agree clean ((agree_iff clean).mpr plain)).disabled]

/-- Without an ampersand in the target. -/
theorem rewritten_of_clean (clean : ∀ parameter ∈ parameters, Clean ['?', '&'] parameter)
    (whole : Clean ['?', '&'] target) :
    rewritten (target ++ render (query parameters)) =
        target ++ render (query (parameters.filterMap translate)) ↔
      ¬ Occurs sslmodeRequired target ∧ ∀ parameter ∈ parameters, Plain parameter := by
  have replacedClean : Clean ['?', '&'] (replaced target) := replaced_clean (by decide) whole
  have front : Clean ['?', '&'] (replaced target ++ (cut disabledBody (parts parameters)).1) :=
    replacedClean.append (cut_clean (query_parted (replaced_parameters clean))).1
  have keptParted := kept_parted clean
  have made : rewritten (target ++ render (query parameters)) =
      (replaced target ++ (cut disabledBody (parts parameters)).1) ++
        render (query ((kept parameters).map Prod.snd)) := by
    have plain : sub sslmodeDisabled [] (replaced target) = replaced target := sub_clean replacedClean
    rw [rewritten, deleted_eq clean, plain, ← List.append_assoc, channelBinding,
      sub_append_clean front]
    change beginQuery (_ ++ sub channelBinding [] (render (glued parameters))) = _
    rw [unbound_eq clean, beginQuery_append front,
      beginQuery_render keptParted (following_kept parameters)]
  have queryParted : Parted ['?', '&'] (query ((kept parameters).map Prod.snd)) := by
    refine query_parted ?_
    intro parameter member
    obtain ⟨part, listed, rfl⟩ := List.mem_map.mp member
    exact (keptParted part listed).2
  rw [made]
  constructor
  · intro same
    obtain ⟨fronts, queries⟩ :=
      append_render_inj front whole queryParted (translated_parted clean) same
    have plain := (agree_iff clean).mp (query_inj.mp queries)
    rw [cut_of_plain clean plain, List.append_nil] at fronts
    exact ⟨replaced_eq_self_iff.mp fronts, plain⟩
  · rintro ⟨absent, plain⟩
    rw [cut_of_plain clean plain, List.append_nil, replaced_eq_self_iff.mpr absent,
      (agree_iff clean).mpr plain]

/-- Whether a binding begins in front of the question mark does not depend on what follows. -/
theorem channelBinding_mark (letter : Char) (tail rest : Text) :
    (channelBinding (letter :: (tail ++ '?' :: rest))).isSome =
      (channelBinding (letter :: (tail ++ ['?']))).isSome := by
  have body : (bindingBody (tail ++ '?' :: rest)).isSome = (bindingBody (tail ++ ['?'])).isSome := by
    have stops : (word bindingName).Stops '?' := word_stops (by decide)
    change ((word bindingName).then (manyBut '&') (tail ++ '?' :: rest)).isSome =
      ((word bindingName).then (manyBut '&') (tail ++ ['?'])).isSome
    rw [Pattern.then, Pattern.then, stops tail rest, stops tail []]
    cases here : word bindingName tail with
    | none => rfl
    | some taken =>
      have within := (word_proper (by decide)).bounded tail taken here
      rw [Option.bind_some, Option.bind_some, Option.isSome_map, Option.isSome_map,
        List.drop_append_of_le_length within, List.drop_append_of_le_length within, Bool.eq_iff_iff,
        manyBut_isSome, manyBut_isSome]
      cases tail.drop taken <;> simp
  rw [channelBinding, oneOf_then, oneOf_then]
  split
  · rw [Option.isSome_map, Option.isSome_map, body]
  · rfl

/-- No binding begins in the target, also none which would take the question mark. -/
theorem not_occurs_binding_iff (rest : Text) : ¬ Occurs channelBinding (target ++ ['?']) ↔
    ∀ tail, tail <:+ target → tail ≠ [] → channelBinding (tail ++ '?' :: rest) = none := by
  have alone : ¬ Occurs channelBinding ['?'] := by decide
  induction target with
  | nil =>
    refine ⟨fun _ tail suffix nonempty => absurd (List.suffix_nil.mp suffix) nonempty, fun _ => alone⟩
  | cons letter target ih =>
    have here := channelBinding_mark letter target rest
    rw [List.cons_append, occurs_cons, not_or, ← here, Option.not_isSome_iff_eq_none]
    constructor
    · rintro ⟨head, later⟩ tail suffix nonempty
      rcases List.suffix_cons_iff.mp suffix with rfl | inner
      · exact head
      · exact ih.mp later tail inner nonempty
    · intro never
      exact ⟨never _ List.suffix_rfl (List.cons_ne_nil _ _), ih.mpr fun tail suffix =>
        never tail (suffix.trans (List.suffix_cons _ _))⟩

/-- A repair which changes the text changes its first separator. -/
theorem beginQuery_fixed {text back : Text} (absent : '?' ∉ target) (ampersand : '&' ∈ target)
    (same : beginQuery text = target ++ back) : text = target ++ back ∧ '?' ∈ text := by
  unfold beginQuery at same
  split at same
  · rename_i fires
    exfalso
    obtain ⟨front, later, rfl, first⟩ := List.eq_append_cons_of_mem fires.2
    obtain ⟨other, rest, rfl, second⟩ := List.eq_append_cons_of_mem ampersand
    have changed : replaceFirst ['&'] ['?'] (front ++ '&' :: later) = front ++ '?' :: later := by
      rw [replaceFirst_ampersand first]
      exact congrArg _ (replaceFirst_here (by decide))
    rw [changed, List.append_assoc, List.cons_append] at same
    have found := congrArg (List.find? fun letter => letter = '?' ∨ letter = '&') same
    have none : ∀ {text : Text}, '?' ∉ text → '&' ∉ text →
        text.find? (fun letter => letter = '?' ∨ letter = '&') = none := by
      intro text mark ampersand
      rw [List.find?_eq_none]
      intro letter member
      simp only [decide_eq_true_eq]
      rintro (rfl | rfl)
      · exact mark member
      · exact ampersand member
    rw [List.find?_append, List.find?_append,
      none (fun member => fires.1 (List.mem_append_left _ member)) first,
      none (fun member => absent (List.mem_append_left _ member)) second] at found
    simp at found
  · rename_i keeps
    refine ⟨same, ?_⟩
    by_contra mark
    exact keeps ⟨mark, by rw [same]; exact List.mem_append_left _ ampersand⟩

/-- The question mark stays through the first two substitutions where the first parameter does. -/
theorem glued_marked (marked : '?' ∈ (glued parameters).map Prod.fst) :
    ∃ first others, parameters = first :: others ∧ disabledBody first = none ∧
      (cut disabledBody (parts parameters)).1 = [] ∧
      ∃ behind later, glued parameters = ('?', replaced first ++ behind) :: later := by
  cases parameters with
  | nil => cases marked
  | cons first others =>
    have enabled : (disabledBody (replaced first)).isNone = (disabledBody first).isNone :=
      disabledBody_replaced_isNone
    unfold glued parts at marked ⊢
    rw [List.map_cons, query] at marked ⊢
    cases here : disabledBody (replaced first) with
    | some taken =>
      rw [cut_some ('?', replaced first) here] at marked
      have listed := cut_separators.subset marked
      rw [List.map_map] at listed
      obtain ⟨other, _, same⟩ := List.mem_map.mp listed
      cases same
    | none =>
      rw [here] at enabled
      rw [cut_none ('?', replaced first) here]
      exact ⟨first, others, rfl, Option.isNone_iff_eq_none.mp enabled.symm, rfl, _, _, rfl⟩

/-- Behind the question mark there is none. -/
theorem mark_once {first : Char × Text} {later : List (Char × Text)}
    (parted : Parted ['?', '&'] (first :: later)) (following : Following (first :: later)) :
    '?' ∉ first.2 ++ render later := by
  intro member
  rcases List.mem_append.mp member with inside | behind
  · exact (parted first List.mem_cons_self).2 '?' inside (by decide)
  · rw [mem_render parted.tail (by decide)] at behind
    obtain ⟨piece, listed, same⟩ := List.mem_map.mp behind
    cases same.symm.trans (following piece listed)

/-- And where it is still there it stands in front of the first parameter. -/
theorem mark_kept {behind : Text} {later : List (Char × Text)}
    (begins : glued parameters = ('?', behind) :: later)
    (marked : '?' ∈ (kept parameters).map Prod.fst) : behind ∈ (kept parameters).map Prod.snd := by
  have following := following_glued parameters
  rw [begins] at following
  unfold kept at marked ⊢
  rw [begins, List.filter_cons] at marked ⊢
  by_cases bare : (bindingBody behind).isNone = true
  · rw [if_pos bare]
    exact List.mem_cons_self
  · rw [if_neg bare] at marked
    obtain ⟨piece, listed, same⟩ := List.mem_map.mp marked
    cases same.symm.trans (following piece (List.mem_of_mem_filter listed))

/-- The first two substitutions put no question mark in the target. -/
theorem not_mem_deleted (absent : '?' ∉ target) : '?' ∉ sub sslmodeDisabled [] (replaced target) :=
  fun member => (mem_sub sslmodeRequired_proper
    ((sub_sublist sslmodeDisabled_proper _).subset member)).elim absent (by decide)

/-- A target which comes through in front of the question mark was left alone by each step. -/
theorem target_kept {rest back : Text} (absent : '?' ∉ target) (once : '?' ∉ rest)
    (same : sub channelBinding [] (sub sslmodeDisabled [] (replaced target) ++ '?' :: rest) =
      target ++ '?' :: back) :
    (¬ Occurs sslmodeRequired target ∧ ¬ Occurs sslmodeDisabled target ∧
      ¬ Occurs channelBinding (target ++ ['?'])) ∧
      sub channelBinding [] ('?' :: rest) = '?' :: back := by
  have unmarked := not_mem_deleted absent
  have long := sub_moves channelBinding_proper once unmarked absent same
  have second := (sub_sublist sslmodeDisabled_proper (replaced target)).length_le
  have required : ¬ Occurs sslmodeRequired target := fun occurs => by
    have shorter : (replaced target).length < target.length :=
      length_sub_lt sslmodeRequired_proper sslmodeRequired_shrinks occurs
    omega
  rw [replaced_eq_self_iff.mpr required] at long second same
  have disabled : ¬ Occurs sslmodeDisabled target := fun occurs => by
    have shorter : (sub sslmodeDisabled [] target).length < target.length :=
      length_sub_lt sslmodeDisabled_proper
        (fun text taken found => sslmodeDisabled_proper.positive text taken found) occurs
    omega
  rw [sub_of_not_occurs disabled] at same
  have never : ∀ tail, tail <:+ target → tail ≠ [] → channelBinding (tail ++ '?' :: rest) = none :=
    fun tail suffix nonempty => none_of_sub_eq channelBinding_proper once absent same suffix nonempty
  refine ⟨⟨required, disabled, (not_occurs_binding_iff rest).mpr never⟩, ?_⟩
  rw [sub_append_of_none never] at same
  exact List.append_cancel_left same

/-- With an ampersand in the target the question mark has to stay. -/
theorem conditions_of_ampersand (clean : ∀ parameter ∈ parameters, Clean ['?', '&'] parameter)
    (absent : '?' ∉ target) (ampersand : '&' ∈ target)
    (same : rewritten (target ++ render (query parameters)) =
      target ++ render (query (parameters.filterMap translate))) :
    ¬ Occurs sslmodeRequired target ∧ ¬ Occurs sslmodeDisabled target ∧
      ¬ Occurs channelBinding (target ++ ['?']) ∧
      (∃ first rest, parameters = first :: rest ∧ (translate first).isSome = true) ∧
      ∀ parameter ∈ parameters, Plain parameter := by
  obtain ⟨equal, marked⟩ := beginQuery_fixed absent ampersand same
  have source := (sub_sublist channelBinding_proper _).subset marked
  rw [equal] at marked
  rw [deleted_eq clean] at source equal
  have parted := glued_parted clean
  have present : '?' ∈ (glued parameters).map Prod.fst := by
    rcases List.mem_append.mp source with front | source
    · exact absurd front (not_mem_deleted absent)
    · rcases List.mem_append.mp source with joined | behind
      · exact absurd (by decide) ((cut_clean (query_parted (replaced_parameters clean))).1 '?' joined)
      · exact (mem_render parted (by decide)).mp behind
  obtain ⟨first, others, rfl, enabled, nothing, behind, later, begins⟩ := glued_marked present
  obtain ⟨back, query⟩ : ∃ back,
      render (query ((first :: others).filterMap translate)) = '?' :: back := by
    cases listed : (first :: others).filterMap translate with
    | nil =>
      rw [listed] at marked
      exact absurd ((List.mem_append.mp marked).resolve_left absent) List.not_mem_nil
    | cons head tail => exact ⟨_, rfl⟩
  have remaining : render (glued (first :: others)) =
      '?' :: ((replaced first ++ behind) ++ render later) := by
    rw [begins, render]
  have once : '?' ∉ (replaced first ++ behind) ++ render later :=
    mark_once (begins ▸ parted) (begins ▸ following_glued (first :: others))
  rw [nothing, List.nil_append, remaining, query] at equal
  obtain ⟨untouched, rest⟩ := target_kept absent once equal
  rw [← remaining, unbound_eq clean, ← query] at rest
  have keptParted := kept_parted clean
  have pieces : kept (first :: others) = DatabaseUrl.query ((first :: others).filterMap translate) :=
    (append_render_inj .nil .nil keptParted (translated_parted clean) rest).2
  have agree : (kept (first :: others)).map Prod.snd = (first :: others).filterMap translate := by
    rw [pieces, query_segments]
  have headMarked : '?' ∈ (kept (first :: others)).map Prod.fst := by
    rw [← mem_render keptParted (by decide), rest, query]
    exact List.mem_cons_self
  have listed := mark_kept begins headMarked
  rw [agree] at listed
  have unbound : ¬ bindingName <+: first := fun named =>
    not_binding_of_translated listed ((binding_replaced.mpr named).trans (List.prefix_append _ _))
  have unlisted := enabled_not_mem enabled
  exact ⟨untouched.1, untouched.2.1, untouched.2.2,
    ⟨first, others, rfl, translate_isSome.mpr ⟨unlisted, unbound⟩⟩, (agree_iff clean).mp agree⟩

/-- And if it does, and nothing else matches, all comes through. -/
theorem rewritten_of_ampersand {first : Text} {others : List Text}
    (clean : ∀ parameter ∈ first :: others, Clean ['?', '&'] parameter)
    (required : ¬ Occurs sslmodeRequired target) (disabled : ¬ Occurs sslmodeDisabled target)
    (binding : ¬ Occurs channelBinding (target ++ ['?']))
    (stays : (translate first).isSome = true)
    (plain : ∀ parameter ∈ first :: others, Plain parameter) :
    rewritten (target ++ render (query (first :: others))) =
      target ++ render (query ((first :: others).filterMap translate)) := by
  have agree := (agree_iff clean).mpr plain
  have sound := sound_of_agree clean agree
  obtain ⟨unlisted, unbound⟩ := translate_isSome.mp stays
  have enabled : (disabledBody (replaced first)).isNone = true := by
    rw [disabledBody_replaced_isNone, Option.isNone_iff_eq_none, ← Option.not_isSome_iff_eq_none]
    exact fun some => unlisted (sound.disabled first List.mem_cons_self some)
  have whole : '&' ∉ replaced first := fun member =>
    replaced_clean (by decide) (clean first List.mem_cons_self) '&' member (by decide)
  have bare : (bindingBody (replaced first)).isNone = true :=
    (bindingBody_isNone whole).mpr fun begins => absurd (binding_replaced.mp begins) unbound
  obtain ⟨later, begins⟩ : ∃ later, glued (first :: others) = ('?', replaced first) :: later := by
    rw [glued, cut_of_disabled sound.disabled, parts, List.map_cons, query, List.filter_cons,
      if_pos enabled]
    exact ⟨_, rfl⟩
  obtain ⟨last, keeps⟩ : ∃ last, kept (first :: others) = ('?', replaced first) :: last := by
    rw [kept, begins, List.filter_cons, if_pos bare]
    exact ⟨_, rfl⟩
  have never := (not_occurs_binding_iff (replaced first ++ render later)).mp binding
  have pieces : query ((kept (first :: others)).map Prod.snd) = kept (first :: others) := by
    refine query_of_following (following_kept _) ?_
    intro piece head
    rw [keeps] at head
    cases Option.some.inj head
    rfl
  rw [rewritten, deleted_eq clean, replaced_eq_self_iff.mpr required, sub_of_not_occurs disabled,
    cut_of_plain clean plain, List.nil_append, begins, render, sub_append_of_none never]
  rw [show '?' :: (replaced first ++ render later) = render (glued (first :: others)) by
    rw [begins, render], unbound_eq clean, ← agree, pieces, beginQuery, if_neg]
  rintro ⟨absent, _⟩
  refine absent (List.mem_append_right _ ?_)
  rw [keeps, render]
  exact List.mem_cons_self

end Steps

theorem Url.clean_target (url : Url) (absent : '&' ∉ url.target) : Clean ['?', '&'] url.target := by
  intro letter member separator
  rw [List.mem_cons, List.mem_singleton] at separator
  rcases separator with rfl | rfl
  · exact url.target_ok member
  · exact absent member

/-- The function does what it is meant to do exactly for these URLs. -/
theorem asyncDatabaseUrl_iff (url : Url) :
    asyncDatabaseUrl url.text = url.translated ↔ url.Plain := by
  have steps : asyncDatabaseUrl url.text = url.translated ↔
      rewritten (url.target ++ render (query url.parameters)) =
        url.target ++ render (query (url.parameters.filterMap translate)) := by
    rw [Url.text, Url.translated, asyncDatabaseUrl_text, List.append_right_inj]
  rw [steps]
  by_cases ampersand : '&' ∈ url.target
  · constructor
    · intro same
      obtain ⟨required, disabled, binding, begun, plain⟩ :=
        conditions_of_ampersand url.parameters_ok url.target_ok ampersand same
      exact ⟨required, disabled, binding, fun _ => begun, plain⟩
    · rintro ⟨required, disabled, binding, begun, plain⟩
      obtain ⟨first, others, same, stays⟩ := begun ampersand
      have clean := url.parameters_ok
      rw [same] at clean plain ⊢
      exact rewritten_of_ampersand clean required disabled binding stays plain
  · have whole := url.clean_target ampersand
    rw [rewritten_of_clean url.parameters_ok whole]
    constructor
    · rintro ⟨required, plain⟩
      refine ⟨required, ?_, ?_, fun member => absurd member ampersand, plain⟩
      · have nothing : ¬ Occurs sslmodeDisabled [] := by decide
        rw [sslmodeDisabled, ← List.append_nil url.target, occurs_append_clean whole]
        exact nothing
      · have nothing : ¬ Occurs channelBinding ['?'] := by decide
        rw [channelBinding, occurs_append_clean whole]
        exact nothing
    · exact fun plain => ⟨plain.required, plain.parameters⟩

/-- An ampersand in the password, and no parameters: it becomes the question mark of a query. -/
def ampersandPassword : Url where
  scheme := .postgres
  target := "u:p&w@h/db".toList
  parameters := []
  target_ok := by decide
  parameters_ok := by
    intro parameter member
    cases member

theorem asyncDatabaseUrl_ampersandPassword :
    asyncDatabaseUrl ampersandPassword.text = "postgresql+asyncpg://u:p?w@h/db".toList ∧
      asyncDatabaseUrl ampersandPassword.text ≠ ampersandPassword.translated := by
  decide

end Pulse.DatabaseUrl
