import Mathlib.Data.List.Nodup
import Mathlib.Data.List.Perm.Basic

/-! A unique index over the entries of committed rows and of open transactions. An insert fails
where a committed row or an earlier one of its own transaction has the key, and waits for a
transaction which has entered it and not ended yet. -/
namespace Library.UniqueIndex
universe u v
variable {Sid : Type u} {Key : Type v} [DecidableEq Sid] [DecidableEq Key]

inductive Insertion where
  | violates
  | waits
  | enters
deriving DecidableEq, Repr

def insertion (committed : List Key) (entries : List (Sid × Key)) (sid : Sid) (key : Key) :
    Insertion :=
  if key ∈ committed || (sid, key) ∈ entries then .violates
  else if entries.any fun entry => entry.2 = key then .waits
  else .enters

/-- The keys which a transaction has entered. -/
def own (entries : List (Sid × Key)) (sid : Sid) : List Key :=
  (entries.filter fun entry => entry.1 = sid).map Prod.snd

/-- The entries of the other transactions. -/
def release (entries : List (Sid × Key)) (sid : Sid) : List (Sid × Key) :=
  entries.filter fun entry => entry.1 ≠ sid

/-- No key is entered twice. -/
def Unique (committed : List Key) (entries : List (Sid × Key)) : Prop :=
  (committed ++ entries.map Prod.snd).Nodup

/-! What transactions have entered, or otherwise written. -/

section Own
omit [DecidableEq Key]
variable {Entry : Type v} (entries more : List (Sid × Key)) (f : Key → Entry) {sid other : Sid}
  {key : Key}

@[simp] theorem own_nil : own ([] : List (Sid × Key)) sid = [] := rfl

@[simp] theorem own_append : own (entries ++ more) sid = own entries sid ++ own more sid := by
  simp [own]

@[simp] theorem own_cons_self : own ((sid, key) :: entries) sid = key :: own entries sid := by
  simp [own]

theorem own_cons_of_ne (different : other ≠ sid) :
    own ((sid, key) :: entries) other = own entries other := by
  simp [own, different.symm]

@[simp] theorem own_release_self : own (release entries sid) sid = [] := by
  simp [own, release]

theorem own_release_of_ne (different : other ≠ sid) :
    own (release entries sid) other = own entries other := by
  unfold own release
  rw [List.filter_filter]
  refine congrArg _ (List.filter_congr fun entry _ => ?_)
  by_cases same : entry.1 = other <;> simp [same, different]

theorem own_map : own (entries.map (Prod.map id f)) sid = (own entries sid).map f := by
  simp [own, List.filter_map, Function.comp_def]

theorem release_map :
    release (entries.map (Prod.map id f)) sid = (release entries sid).map (Prod.map id f) := by
  simp [release, List.filter_map, Function.comp_def]

variable {entries}

theorem mem_own : key ∈ own entries sid ↔ (sid, key) ∈ entries := by
  simp [own]

theorem mem_release {entry : Sid × Key} : entry ∈ release entries sid ↔
    entry ∈ entries ∧ entry.1 ≠ sid := by
  simp [release]

end Own

variable {committed fewer : List Key} {entries : List (Sid × Key)} {sid : Sid} {key : Key}

omit [DecidableEq Sid] [DecidableEq Key] in
/-- Rows may be deleted. -/
theorem Unique.sublist (unique : Unique committed entries) (sublist : fewer.Sublist committed) :
    Unique fewer entries :=
  List.Nodup.sublist (sublist.append_right _) unique

omit [DecidableEq Sid] [DecidableEq Key] in
/-- The order of rows and of entries does not matter. -/
theorem Unique.perm (unique : Unique committed entries) {rows : List Key} {others : List (Sid × Key)}
    (rearranged : rows.Perm committed) (same : others.Perm entries) : Unique rows others :=
  (List.Perm.nodup_iff (rearranged.append (same.map _))).mpr unique

omit [DecidableEq Sid] [DecidableEq Key] in
theorem Unique.rows (unique : Unique committed entries) : committed.Nodup :=
  (List.nodup_append.mp unique).1

omit [DecidableEq Sid] [DecidableEq Key] in
/-- What an open transaction has entered no committed row has. -/
theorem Unique.fresh (unique : Unique committed entries) (entered : (sid, key) ∈ entries) :
    key ∉ committed := by
  intro listed
  exact (List.nodup_append.mp unique).2.2 key listed key (List.mem_map_of_mem entered) rfl

theorem enters_iff : insertion committed entries sid key = .enters ↔
    key ∉ committed ∧ key ∉ entries.map Prod.snd := by
  unfold insertion
  constructor
  · intro enters
    split at enters
    · cases enters
    · rename_i free
      split at enters
      · cases enters
      · rename_i open_
        simp only [Bool.or_eq_true, decide_eq_true_eq, not_or] at free
        refine ⟨free.1, ?_⟩
        intro listed
        obtain ⟨entry, member, rfl⟩ := List.mem_map.mp listed
        exact open_ (List.any_eq_true.mpr ⟨entry, member, by simp⟩)
  · rintro ⟨absent, free⟩
    have others : ∀ entry ∈ entries, entry.2 ≠ key := fun entry member same =>
      free (same ▸ List.mem_map_of_mem member)
    rw [if_neg, if_neg]
    · simpa using fun other member => others (other, key) member rfl
    · simpa [absent] using fun member => others (sid, key) member rfl

/-- A violation is of a committed row or of one of the transaction's own. -/
theorem violates_iff : insertion committed entries sid key = .violates ↔
    key ∈ committed ∨ (sid, key) ∈ entries := by
  unfold insertion
  constructor
  · intro violates
    split at violates
    · rename_i taken
      simpa using taken
    · split at violates <;> cases violates
  · intro taken
    rw [if_pos (by simpa using taken)]

/-- Whoever waits waits for another transaction. -/
theorem waits_other (waits : insertion committed entries sid key = .waits) :
    ∃ other, other ≠ sid ∧ (other, key) ∈ entries := by
  unfold insertion at waits
  split at waits
  · cases waits
  · rename_i free
    split at waits
    · rename_i taken
      obtain ⟨entry, member, same⟩ := List.any_eq_true.mp taken
      cases (by simpa using same : entry.2 = key)
      refine ⟨entry.1, ?_, member⟩
      rintro rfl
      simp [member] at free
    · cases waits

/-- An insert which enters its key keeps the index. -/
theorem Unique.insert (unique : Unique committed entries)
    (enters : insertion committed entries sid key = .enters) :
    Unique committed (entries ++ [(sid, key)]) := by
  obtain ⟨absent, free⟩ := enters_iff.mp enters
  unfold Unique
  rw [List.map_append, ← List.append_assoc]
  refine List.nodup_append.mpr ⟨unique, List.nodup_singleton _, ?_⟩
  intro first listed second new same
  cases List.mem_singleton.mp new
  cases same
  rcases List.mem_append.mp listed with old | entered
  · exact absent old
  · exact free entered

omit [DecidableEq Key] in
/-- A transaction which rolls back takes its entries with it. -/
theorem Unique.rollback (unique : Unique committed entries) (sid : Sid) :
    Unique committed (release entries sid) :=
  List.Nodup.sublist ((List.filter_sublist.map _).append_left _) unique

omit [DecidableEq Key] in
/-- A transaction which commits turns its entries into rows. -/
theorem Unique.commit (unique : Unique committed entries) (sid : Sid) :
    Unique (committed ++ own entries sid) (release entries sid) := by
  unfold Unique own release at *
  rw [List.append_assoc]
  refine (List.Perm.nodup_iff (List.Perm.append_left _ ?_)).mpr unique
  rw [← List.map_append]
  refine List.Perm.map _ ?_
  simpa using List.filter_append_perm (fun entry : Sid × Key => decide (entry.1 = sid)) entries

end Library.UniqueIndex
