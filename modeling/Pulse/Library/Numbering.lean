import Mathlib.Data.List.Pairwise
import Mathlib.Data.List.Perm.Subperm
import Mathlib.Data.List.Range
import Mathlib.Data.List.Sort
import Mathlib.Order.Basic

/-! Rows which are read back in the order of a number. A log whose numbers start again
at 1 in every group is read back in the order of its times if and only if rows of
different groups have one time. -/
namespace Library.Numbering
universe u v w

/-! `ORDER BY` one key, against the order of another. -/

section Arranged
variable {Row : Type u} {Key : Type v} {Time : Type w} [LinearOrder Key]

/-- `ORDER BY key` may return the rows so: rows with one key come in any order. -/
def Arranged (key : Row → Key) (rows arranged : List Row) : Prop :=
  arranged.Perm rows ∧ arranged.Pairwise fun first second => key first ≤ key second

instance [DecidableEq Row] (key : Row → Key) (rows arranged : List Row) :
    Decidable (Arranged key rows arranged) :=
  inferInstanceAs (Decidable (_ ∧ _))

variable {key : Row → Key} {rows arranged : List Row} {first second : Row}

theorem Arranged.mem_iff (arrangement : Arranged key rows arranged) :
    first ∈ arranged ↔ first ∈ rows :=
  arrangement.1.mem_iff

/-- Two rows whose keys allow it are in that order in some arrangement. -/
theorem exists_arranged (left : first ∈ rows) (right : second ∈ rows) (apart : first ≠ second)
    (ordered : key first ≤ key second) :
    ∃ arranged, Arranged key rows arranged ∧ [first, second].Sublist arranged := by
  have both : [first, second].Subperm rows := by
    refine List.subperm_of_subset (by simpa using apart) ?_
    simpa using ⟨left, right⟩
  obtain ⟨listed, shuffled, sublist⟩ := List.subperm_iff.mp both
  have trans : ∀ a b c : Row, decide (key a ≤ key b) = true → decide (key b ≤ key c) = true →
      decide (key a ≤ key c) = true := by
    intro a b c one two
    simp only [decide_eq_true_eq] at *
    exact one.trans two
  have total : ∀ a b : Row, (decide (key a ≤ key b) || decide (key b ≤ key a)) = true := by
    intro a b
    simpa using le_total (key a) (key b)
  refine ⟨listed.mergeSort fun a b => key a ≤ key b, ⟨?_, ?_⟩, ?_⟩
  · exact (List.mergeSort_perm _ _).trans shuffled
  · exact (List.pairwise_mergeSort trans total _).imp fun related => by simpa using related
  · exact List.pair_sublist_mergeSort trans total (by simpa using ordered) sublist

variable [LinearOrder Time] {time : Row → Time}

/-- The rows come in the order of their times, however rows with one key are arranged,
if and only if no row has a smaller key, or the same, and a later time than another. -/
theorem arranged_iff : (∀ arranged, Arranged key rows arranged →
      arranged.Pairwise fun first second => time first ≤ time second) ↔
    ∀ first ∈ rows, ∀ second ∈ rows, key first ≤ key second → time first ≤ time second := by
  constructor
  · intro sorted first left second right ordered
    by_cases same : first = second
    · rw [same]
    · obtain ⟨arranged, arrangement, sublist⟩ := exists_arranged left right same ordered
      have between := (sorted arranged arrangement).sublist sublist
      simpa using between
  · intro agrees arranged arrangement
    refine List.Pairwise.imp_of_mem ?_ arrangement.2
    intro first second left right ordered
    exact agrees first (arrangement.mem_iff.mp left) second (arrangement.mem_iff.mp right) ordered

/-- Where both the keys and the times of the rows go forward, a smaller key has no later
time. -/
theorem le_of_lt_key (keyed : rows.Pairwise fun first second => key first ≤ key second)
    (timed : rows.Pairwise fun first second => time first ≤ time second)
    (left : first ∈ rows) (right : second ∈ rows) (before : key first < key second) :
    time first ≤ time second := by
  have symmetric : Std.Symm fun first second : Row =>
      (key first ≤ key second ∧ time first ≤ time second) ∨
        key second ≤ key first ∧ time second ≤ time first := ⟨fun _ _ => Or.symm⟩
  have either : rows.Pairwise fun first second =>
      (key first ≤ key second ∧ time first ≤ time second) ∨
        key second ≤ key first ∧ time second ≤ time first := (keyed.and timed).imp .inl
  have apart : first ≠ second := fun same => lt_irrefl _ (same ▸ before)
  rcases either.forall left right apart with forward | backward
  · exact forward.2
  · exact absurd before (not_lt_of_ge backward.1)

/-- An arrangement which is in the order of the times has no row with a smaller key and a
later time than another. -/
theorem Arranged.le_of_lt (arrangement : Arranged key rows arranged)
    (sorted : arranged.Pairwise fun first second => time first ≤ time second)
    (left : first ∈ rows) (right : second ∈ rows) (before : key first < key second) :
    time first ≤ time second :=
  le_of_lt_key arrangement.2 sorted (arrangement.mem_iff.mpr left) (arrangement.mem_iff.mpr right)
    before

end Arranged

/-! Logs whose numbers start again. -/

/-- What a row says about itself: the group which it was written in, its number and the
time. -/
structure Stamp (Time : Type u) where
  group : Nat
  number : Nat
  time : Time
deriving DecidableEq, Repr

/-- The numbers of one group, in the order in which they were written. -/
def numbers {Time : Type u} (stamps : List (Stamp Time)) (group : Nat) : List Nat :=
  (stamps.filter fun stamp => stamp.group = group).map Stamp.number

theorem numbers_append {Time : Type u} (stamps : List (Stamp Time)) (stamp : Stamp Time)
    (group : Nat) : numbers (stamps ++ [stamp]) group =
      numbers stamps group ++ if stamp.group = group then [stamp.number] else [] := by
  unfold numbers
  rw [List.filter_append, List.map_append]
  congr 1
  by_cases same : stamp.group = group <;> simp [same]

theorem mem_numbers {Time : Type u} {stamps : List (Stamp Time)} {group number : Nat} :
    number ∈ numbers stamps group ↔
      ∃ stamp ∈ stamps, stamp.group = group ∧ stamp.number = number := by
  simp [numbers, and_assoc]

/-- Stamps of different groups have one time. -/
def Alike {Time : Type u} (stamps : List (Stamp Time)) : Prop :=
  ∀ first ∈ stamps, ∀ second ∈ stamps, first.group < second.group → first.time = second.time

instance {Time : Type u} [DecidableEq Time] (stamps : List (Stamp Time)) : Decidable (Alike stamps) :=
  inferInstanceAs (Decidable (∀ first ∈ stamps, ∀ second ∈ stamps, _ → _))

/-- The next row of the current group is written at the time of all rows of earlier groups. -/
theorem Alike.append {Time : Type u} {stamps : List (Stamp Time)} {stamp : Stamp Time}
    (alike : Alike stamps) (upTo : ∀ other ∈ stamps, other.group ≤ stamp.group)
    (same : ∀ other ∈ stamps, other.group < stamp.group → other.time = stamp.time) :
    Alike (stamps ++ [stamp]) := by
  intro first left second right before
  rcases List.mem_append.mp left with old | new <;> rcases List.mem_append.mp right with other | last
  · exact alike first old second other before
  · rw [List.mem_singleton.mp last] at before ⊢
    exact same first old before
  · rw [List.mem_singleton.mp new] at before
    exact absurd before (Nat.not_lt.mpr (upTo second other))
  · rw [List.mem_singleton.mp new, List.mem_singleton.mp last] at before
    exact absurd before (Nat.lt_irrefl _)

section Log
variable {Time : Type u} [LinearOrder Time]

/-- What has been written up to the current group: neither groups nor times go back, the
groups before the current one have all numbers up to the limit, and the current one has
some of them. -/
structure Log (limit current : Nat) (stamps : List (Stamp Time)) : Prop where
  grouped : stamps.Pairwise fun first second => first.group ≤ second.group
  timed : stamps.Pairwise fun first second => first.time ≤ second.time
  upTo : ∀ stamp ∈ stamps, stamp.group ≤ current
  closed : ∀ group < current, numbers stamps group = List.range' 1 limit
  opened : ∃ count ≤ limit, numbers stamps current = List.range' 1 count

variable {limit current : Nat} {stamps : List (Stamp Time)} {first second stamp : Stamp Time}

theorem log_nil : Log limit 0 ([] : List (Stamp Time)) where
  grouped := .nil
  timed := .nil
  upTo := by simp
  closed := by simp
  opened := ⟨0, Nat.zero_le _, rfl⟩

/-- The next number is written in the current group, not before any earlier one. -/
theorem Log.append (log : Log limit current stamps) (group : stamp.group = current)
    (number : stamp.number = (numbers stamps current).length + 1) (within : stamp.number ≤ limit)
    (later : ∀ earlier ∈ stamps, earlier.time ≤ stamp.time) :
    Log limit current (stamps ++ [stamp]) where
  grouped := by
    refine List.pairwise_append.mpr ⟨log.grouped, List.pairwise_singleton .., ?_⟩
    intro earlier member last same
    rw [List.mem_singleton.mp same, group]
    exact log.upTo earlier member
  timed := by
    refine List.pairwise_append.mpr ⟨log.timed, List.pairwise_singleton .., ?_⟩
    intro earlier member last same
    rw [List.mem_singleton.mp same]
    exact later earlier member
  upTo := by
    intro other member
    rcases List.mem_append.mp member with old | new
    · exact log.upTo other old
    · rw [List.mem_singleton.mp new, group]
  closed := by
    intro earlier before
    rw [numbers_append, if_neg (by omega), List.append_nil]
    exact log.closed earlier before
  opened := by
    obtain ⟨count, _, written⟩ := log.opened
    rw [written, List.length_range'] at number
    refine ⟨count + 1, by omega, ?_⟩
    rw [numbers_append, if_pos group, written, number, List.range'_1_concat, Nat.add_comm 1 count]

/-- A group which has all numbers is followed by an empty one. -/
theorem Log.turn (log : Log limit current stamps)
    (full : (numbers stamps current).length = limit) : Log limit (current + 1) stamps where
  grouped := log.grouped
  timed := log.timed
  upTo := fun stamp member => (log.upTo stamp member).trans (Nat.le_succ current)
  closed := by
    intro group before
    rcases Nat.lt_succ_iff_lt_or_eq.mp before with earlier | rfl
    · exact log.closed group earlier
    · obtain ⟨count, _, written⟩ := log.opened
      rw [written, List.length_range'] at full
      rw [written, full]
  opened := by
    refine ⟨0, Nat.zero_le _, List.eq_nil_iff_forall_not_mem.mpr ?_⟩
    intro number member
    obtain ⟨stamp, listed, group, _⟩ := mem_numbers.mp member
    have older := log.upTo stamp listed
    omega

/-- Every group is numbered from 1, up to the limit at most. -/
theorem Log.counted (log : Log limit current stamps) (member : stamp ∈ stamps) :
    ∃ count ≤ limit, numbers stamps stamp.group = List.range' 1 count := by
  rcases Nat.lt_or_eq_of_le (log.upTo stamp member) with earlier | same
  · exact ⟨limit, le_rfl, log.closed stamp.group earlier⟩
  · rw [same]
    exact log.opened

theorem Log.bounded (log : Log limit current stamps) (member : stamp ∈ stamps) :
    1 ≤ stamp.number ∧ stamp.number ≤ limit := by
  obtain ⟨count, within, written⟩ := log.counted member
  have listed : stamp.number ∈ numbers stamps stamp.group := mem_numbers.mpr ⟨stamp, member, rfl, rfl⟩
  rw [written, List.mem_range'_1] at listed
  omega

/-- A group which has a row has a first one. -/
theorem Log.opening (log : Log limit current stamps) (member : stamp ∈ stamps) :
    ∃ one ∈ stamps, one.group = stamp.group ∧ one.number = 1 := by
  obtain ⟨count, _, written⟩ := log.counted member
  have listed : stamp.number ∈ numbers stamps stamp.group := mem_numbers.mpr ⟨stamp, member, rfl, rfl⟩
  apply mem_numbers.mp
  rw [written, List.mem_range'_1] at listed ⊢
  omega

/-- An earlier group has every number which a later one has. -/
theorem Log.counterpart (log : Log limit current stamps) (member : stamp ∈ stamps) {group : Nat}
    (earlier : group < stamp.group) :
    ∃ other ∈ stamps, other.group = group ∧ other.number = stamp.number := by
  have bounded := log.bounded member
  apply mem_numbers.mp
  rw [log.closed group (earlier.trans_le (log.upTo stamp member)), List.mem_range'_1]
  omega

/-- A group is written after the groups before it. -/
theorem Log.after (log : Log limit current stamps) (left : first ∈ stamps) (right : second ∈ stamps)
    (before : first.group < second.group) : first.time ≤ second.time :=
  le_of_lt_key log.grouped log.timed left right before

/-- Within a group the numbers are in the order of the times. -/
theorem Log.within (log : Log limit current stamps) (left : first ∈ stamps)
    (right : second ∈ stamps) (group : first.group = second.group)
    (ordered : first.number ≤ second.number) : first.time ≤ second.time := by
  obtain ⟨count, _, written⟩ := log.counted right
  have rising : (numbers stamps second.group).Pairwise (· < ·) := by
    rw [written]
    exact List.pairwise_lt_range'
  have own : ∀ stamp ∈ stamps, stamp.group = second.group →
      stamp ∈ stamps.filter fun stamp => stamp.group = second.group :=
    fun stamp member same => List.mem_filter.mpr ⟨member, by simpa using same⟩
  have numbered := List.pairwise_map.mp rising
  rcases Nat.lt_or_eq_of_le ordered with before | same
  · exact le_of_lt_key (numbered.imp fun before => Nat.le_of_lt before)
      (log.timed.sublist List.filter_sublist) (own first left group) (own second right rfl) before
  · -- a number occurs once in its group
    have single : first = second := List.inj_on_of_nodup_map (rising.imp fun before => Nat.ne_of_lt before)
      (own first left group) (own second right rfl) same
    rw [single]

/-- Every arrangement by number is in the order of the times if and only if the rows of
different groups have one time: a number of a later group is also one of each earlier
group, and the first row of a later group comes back before the others of an earlier. -/
theorem Log.exact (log : Log limit current stamps) :
    (∀ first ∈ stamps, ∀ second ∈ stamps, first.number ≤ second.number → first.time ≤ second.time) ↔
      Alike stamps := by
  constructor
  · intro agrees first left second right before
    have forward := log.after left right before
    obtain ⟨opening, starts, group, number⟩ := log.opening right
    obtain ⟨twin, member, earlier, same⟩ := log.counterpart right before
    refine le_antisymm forward ?_
    calc second.time
        ≤ twin.time := agrees second right twin member same.ge
      _ ≤ opening.time := log.after member starts (by omega)
      _ ≤ first.time := agrees opening starts first left (number ▸ (log.bounded left).1)
  · intro alike first left second right ordered
    rcases Nat.lt_trichotomy first.group second.group with before | same | behind
    · exact (alike first left second right before).le
    · exact log.within left right same ordered
    · exact (alike second right first left behind).ge

end Log
end Library.Numbering
