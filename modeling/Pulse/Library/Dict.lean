import Mathlib.Data.List.Nodup

/-! Dictionaries which keep their keys in the order of insertion, as Python's do: an
assignment to a key which is there keeps its place. -/
namespace Library
universe u v

structure Dict (Key : Type u) (Value : Type v) where
  entries : List (Key × Value) := []
  distinct : (entries.map Prod.fst).Nodup := by simp

variable {Key : Type u} {Value : Type v}

def Dict.keys (dict : Dict Key Value) : List Key := dict.entries.map Prod.fst

def Dict.size (dict : Dict Key Value) : Nat := dict.entries.length

/-- `next(iter(dict))`. -/
def Dict.first (dict : Dict Key Value) : Option Key := dict.keys.head?

theorem Dict.size_eq_keys {dict : Dict Key Value} : dict.size = dict.keys.length :=
  (List.length_map Prod.fst).symm

theorem Dict.first_mem {dict : Dict Key Value} {key : Key} (oldest : dict.first = some key) :
    key ∈ dict.keys :=
  List.mem_of_head? oldest

theorem Dict.first_eq_none {dict : Dict Key Value} : dict.first = none ↔ dict.size = 0 := by
  simp [Dict.first, Dict.keys, Dict.size]

variable [DecidableEq Key]

/-- `dict.get(key)`. -/
def Dict.get? (dict : Dict Key Value) (key : Key) : Option Value :=
  (dict.entries.find? fun entry => entry.1 = key).map Prod.snd

/-- `dict.pop(key, None)`. -/
def Dict.erase (dict : Dict Key Value) (key : Key) : Dict Key Value where
  entries := dict.entries.filter fun entry => entry.1 ≠ key
  distinct := dict.distinct.sublist (List.filter_sublist.map Prod.fst)

private def assign (key : Key) (value : Value) (entry : Key × Value) : Key × Value :=
  if entry.1 = key then (key, value) else entry

private theorem assign_key (key : Key) (value : Value) (entry : Key × Value) :
    (assign key value entry).1 = entry.1 := by
  unfold assign
  split
  · rename_i same
    exact same.symm
  · rfl

/-- `dict[key] = value`. -/
def Dict.set (dict : Dict Key Value) (key : Key) (value : Value) : Dict Key Value :=
  if present : key ∈ dict.keys then
    { entries := dict.entries.map (assign key value)
      distinct := by
        rw [List.map_map]
        exact (List.map_congr_left fun entry _ => assign_key key value entry) ▸ dict.distinct }
  else
    { entries := dict.entries ++ [(key, value)]
      distinct := by
        rw [List.map_append]
        exact List.Nodup.append dict.distinct (List.nodup_singleton key)
          (List.disjoint_singleton.mpr present) }

section Lookup
variable {dict : Dict Key Value} {key other : Key} {value : Value}

@[simp] theorem Dict.get?_empty : (({} : Dict Key Value).get? key) = none := rfl

theorem Dict.get?_eq_some : dict.get? key = some value ↔ (key, value) ∈ dict.entries := by
  unfold Dict.get?
  rw [Option.map_eq_some_iff]
  constructor
  · rintro ⟨entry, found, rfl⟩
    have same : entry.1 = key := by simpa using List.find?_some found
    exact same ▸ List.mem_of_find?_eq_some found
  · intro member
    cases found : dict.entries.find? fun entry => entry.1 = key with
    | none => simp [List.find?_eq_none] at found; exact absurd rfl (found key value member)
    | some entry =>
      have same : entry.1 = key := by simpa using List.find?_some found
      have equal := List.inj_on_of_nodup_map dict.distinct (List.mem_of_find?_eq_some found) member same
      exact ⟨entry, rfl, by rw [equal]⟩

theorem Dict.get?_eq_none : dict.get? key = none ↔ key ∉ dict.keys := by
  unfold Dict.get? Dict.keys
  rw [Option.map_eq_none_iff, List.find?_eq_none, List.mem_map]
  simp only [decide_eq_true_eq, not_exists, not_and]

theorem Dict.mem_keys : key ∈ dict.keys ↔ ∃ value, dict.get? key = some value := by
  rw [← Option.ne_none_iff_exists', ne_eq, Dict.get?_eq_none, not_not]

@[simp] theorem Dict.get?_erase_self : (dict.erase key).get? key = none := by
  simp [Dict.get?_eq_none, Dict.keys, Dict.erase]

theorem Dict.get?_erase_ne (different : other ≠ key) : (dict.erase key).get? other = dict.get? other := by
  ext value
  simp [Dict.get?_eq_some, Dict.erase, different]

@[simp] theorem Dict.get?_set_self : (dict.set key value).get? key = some value := by
  rw [Dict.get?_eq_some]
  unfold Dict.set
  split
  · rename_i present
    obtain ⟨entry, member, same⟩ := List.mem_map.mp present
    exact List.mem_map.mpr ⟨entry, member, if_pos same⟩
  · exact List.mem_append_right _ List.mem_cons_self

theorem Dict.get?_set_ne (different : other ≠ key) :
    (dict.set key value).get? other = dict.get? other := by
  ext found
  rw [Dict.get?_eq_some, Dict.get?_eq_some]
  unfold Dict.set
  split
  · constructor
    · intro member
      obtain ⟨entry, old, same⟩ := List.mem_map.mp member
      unfold assign at same
      split at same
      · exact absurd (Prod.mk.inj same).1.symm different
      · exact same ▸ old
    · intro old
      exact List.mem_map.mpr ⟨_, old, if_neg different⟩
  · simp [different]

theorem Dict.size_set_of_mem (present : key ∈ dict.keys) : (dict.set key value).size = dict.size := by
  simp [Dict.set, Dict.size, present]

theorem Dict.size_set_le : (dict.set key value).size ≤ dict.size + 1 := by
  unfold Dict.set Dict.size
  split <;> simp

theorem Dict.size_erase_le : (dict.erase key).size ≤ dict.size :=
  List.length_filter_le _ _

theorem Dict.size_erase_of_mem (present : key ∈ dict.keys) : (dict.erase key).size < dict.size := by
  obtain ⟨entry, member, same⟩ := List.mem_map.mp present
  exact List.length_filter_lt_length_iff_exists.mpr ⟨entry, member, by simpa using same⟩

end Lookup
end Library
