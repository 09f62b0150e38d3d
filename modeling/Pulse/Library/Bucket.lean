import Mathlib.Algebra.Order.Field.Basic
import Mathlib.Algebra.Order.Ring.Nat
import Mathlib.Data.Nat.Cast.Order.Ring
import Mathlib.Tactic.Linarith
import Mathlib.Tactic.Ring

/-! A bucket which refills at a constant rate up to its capacity and from which
single tokens are drawn at given times, newest first. It is never overdrawn if and
only if no interval sees more draws than the capacity and its refill allow. -/
namespace Library.Bucket
universe u
variable {K : Type u} [Field K] [LinearOrder K] [IsStrictOrderedRing K]

/-- What is in the bucket at `now`, after the draws. It was full before them. -/
def level (capacity rate : K) : List K → K → K
  | [], _ => capacity
  | last :: earlier, now => min capacity (level capacity rate earlier last - 1 + rate * (now - last))

/-- There was a token for every draw. -/
def Conforms (capacity rate : K) : List K → Prop
  | [] => True
  | last :: earlier => Conforms capacity rate earlier ∧ 1 ≤ level capacity rate earlier last

/-- How many draws fall into the closed interval. -/
def drawn (draws : List K) (start stop : K) : Nat :=
  draws.countP fun time => start ≤ time && time ≤ stop

def drawnSince (draws : List K) (start : K) : Nat :=
  draws.countP fun time => start ≤ time

/-- No interval sees more draws than a full bucket and its refill allow. -/
def WindowBound (capacity rate : K) (draws : List K) : Prop :=
  ∀ start stop, start ≤ stop → (drawn draws start stop : K) ≤ capacity + rate * (stop - start)

/-- The draws are listed from the newest to the oldest. -/
def Chronological (draws : List K) : Prop := draws.Pairwise fun later earlier => earlier ≤ later

section Level
variable {capacity rate : K} {draws : List K}

omit [IsStrictOrderedRing K] in
theorem level_le_capacity (draws : List K) (now : K) : level capacity rate draws now ≤ capacity := by
  cases draws with
  | nil => exact le_refl capacity
  | cons last earlier => exact min_le_left _ _

theorem level_nonneg (full : 0 ≤ capacity) (refills : 0 ≤ rate) (conforms : Conforms capacity rate draws)
    {now : K} (latest : ∀ time ∈ draws, time ≤ now) : 0 ≤ level capacity rate draws now := by
  cases draws with
  | nil => exact full
  | cons last earlier =>
    apply le_min full
    have left := conforms.2
    have gained := mul_nonneg refills (sub_nonneg.mpr (latest last List.mem_cons_self))
    linarith

omit [Field K] [IsStrictOrderedRing K] in
theorem drawn_of_latest {now start stop : K} (latest : ∀ time ∈ draws, time ≤ now) (late : now ≤ stop) :
    drawn draws start stop = drawnSince draws start := by
  apply List.countP_congr
  intro time member
  have before := (latest time member).trans late
  simp [before]

/-- There are `amount` tokens exactly where every interval up to now has room for
that many more draws. -/
theorem amount_le_level (refills : 0 ≤ rate) (chronological : Chronological draws) {now : K}
    (latest : ∀ time ∈ draws, time ≤ now) (amount : K) :
    amount ≤ level capacity rate draws now ↔
      ∀ start ≤ now, amount + drawnSince draws start ≤ capacity + rate * (now - start) := by
  induction draws generalizing now amount with
  | nil =>
    constructor
    · intro enough start before
      have gained := mul_nonneg refills (sub_nonneg.mpr before)
      have enough : amount ≤ capacity := enough
      simp only [drawnSince, List.countP_nil, Nat.cast_zero]
      linarith
    · intro room
      have now := room now (le_refl now)
      simpa [drawnSince, level] using now
  | cons last earlier ih =>
    obtain ⟨newest, rest⟩ := List.pairwise_cons.mp chronological
    have past := latest last List.mem_cons_self
    have counted : ∀ start ≤ last,
        (drawnSince (last :: earlier) start : K) = drawnSince earlier start + 1 := by
      intro start before
      rw [drawnSince, List.countP_cons_of_pos (by simpa using before)]
      exact Nat.cast_succ _
    have none : ∀ start, last < start → drawnSince (last :: earlier) start = 0 := by
      intro start after
      apply List.countP_eq_zero.mpr
      intro time member
      rcases List.mem_cons.mp member with rfl | old
      · simpa using after
      · simpa using lt_of_le_of_lt (newest time old) after
    have step := ih rest newest (amount + 1 - rate * (now - last))
    rw [level, le_min_iff]
    constructor
    · rintro ⟨bounded, left⟩ start before
      rcases le_or_gt start last with inside | after
      · have room := step.mp (by linarith) start inside
        rw [counted start inside]
        linarith
      · rw [none start after, Nat.cast_zero]
        have gained := mul_nonneg refills (sub_nonneg.mpr before)
        linarith
    · intro room
      refine ⟨?_, ?_⟩
      · have whole := room now (le_refl now)
        have drawn : (0 : K) ≤ drawnSince (last :: earlier) now := Nat.cast_nonneg _
        rw [sub_self, mul_zero] at whole
        linarith
      · have left := step.mpr fun start inside => by
          have fits := room start (inside.trans past)
          rw [counted start inside] at fits
          linarith
        linarith

/-- The bucket is never overdrawn if and only if every interval keeps the bound. -/
theorem conforms_iff (full : 0 ≤ capacity) (refills : 0 ≤ rate)
    (chronological : Chronological draws) :
    Conforms capacity rate draws ↔ WindowBound capacity rate draws := by
  induction draws with
  | nil =>
    refine iff_of_true trivial ?_
    intro start stop ordered
    have gained := mul_nonneg refills (sub_nonneg.mpr ordered)
    simp only [drawn, List.countP_nil, Nat.cast_zero]
    linarith
  | cons last earlier ih =>
    obtain ⟨newest, rest⟩ := List.pairwise_cons.mp chronological
    have enough : 1 ≤ level capacity rate earlier last ↔ _ := amount_le_level refills rest newest 1
    rw [Conforms, ih rest, enough]
    constructor
    · rintro ⟨bounded, room⟩ start stop ordered
      by_cases inside : start ≤ last ∧ last ≤ stop
      · have count : (drawn (last :: earlier) start stop : K) = 1 + drawnSince earlier start := by
          rw [drawn, List.countP_cons_of_pos (by simpa using inside)]
          rw [show earlier.countP (fun time => start ≤ time && time ≤ stop) = drawnSince earlier start
            from drawn_of_latest newest inside.2, Nat.cast_succ, add_comm]
        rw [count]
        have fits := room start inside.1
        have gained := mul_le_mul_of_nonneg_left (sub_le_sub_right inside.2 start) refills
        linarith
      · rw [drawn, List.countP_cons_of_neg (by simpa using inside)]
        exact bounded start stop ordered
    · intro bounded
      refine ⟨?_, ?_⟩
      · intro start stop ordered
        refine le_trans ?_ (bounded start stop ordered)
        exact Nat.cast_le.mpr (List.Sublist.countP_le (List.sublist_cons_self last earlier))
      · intro start before
        have whole := bounded start last before
        rw [drawn, List.countP_cons_of_pos (by simpa using before)] at whole
        rw [show earlier.countP (fun time => start ≤ time && time ≤ last) = drawnSince earlier start
          from drawn_of_latest newest (le_refl last), Nat.cast_succ] at whole
        linarith

/-- Between two draws the bucket fills up. -/
theorem level_later (refills : 0 ≤ rate) {now later : K} (passed : now ≤ later) :
    level capacity rate draws later =
      min capacity (level capacity rate draws now + rate * (later - now)) := by
  have gained := mul_nonneg refills (sub_nonneg.mpr passed)
  cases draws with
  | nil =>
    refine (min_eq_left ?_).symm
    exact le_add_of_nonneg_right gained
  | cons last earlier =>
    rw [level, level, min_add, ← min_assoc, min_eq_left (le_add_of_nonneg_right gained)]
    ring_nf

/-- Where the last draw is long past, the bucket is full again. -/
theorem level_rested (conforms : Conforms capacity rate draws) {now : K}
    (rested : ∀ time ∈ draws, capacity ≤ rate * (now - time)) :
    level capacity rate draws now = capacity := by
  cases draws with
  | nil => rfl
  | cons last earlier =>
    apply min_eq_left
    have left : 0 ≤ level capacity rate earlier last - 1 := sub_nonneg.mpr conforms.2
    have refilled := rested last List.mem_cons_self
    exact refilled.trans (le_add_of_nonneg_left left)

/-- Draws at one moment. -/
theorem level_batch (amount : Nat) (now : K) :
    level capacity rate (List.replicate amount now ++ draws) now =
      level capacity rate draws now - amount := by
  induction amount with
  | zero => simp
  | succ amount ih =>
    rw [List.replicate_succ, List.cons_append, level, ih, sub_self, mul_zero, add_zero]
    rw [min_eq_right]
    · push_cast
      ring
    · have bounded : level capacity rate draws now ≤ capacity := level_le_capacity draws now
      have drawn : (0 : K) ≤ amount := Nat.cast_nonneg _
      linarith

theorem conforms_batch (full : 0 ≤ capacity) (refills : 0 ≤ rate) (amount : Nat) {now : K}
    (latest : ∀ time ∈ draws, time ≤ now) :
    Conforms capacity rate (List.replicate amount now ++ draws) ↔
      Conforms capacity rate draws ∧ amount ≤ level capacity rate draws now := by
  induction amount with
  | zero =>
    rw [List.replicate_zero, List.nil_append, Nat.cast_zero]
    exact ⟨fun conforms => ⟨conforms, level_nonneg full refills conforms latest⟩, And.left⟩
  | succ amount ih =>
    rw [List.replicate_succ, List.cons_append, Conforms, ih, level_batch, Nat.cast_succ]
    constructor
    · rintro ⟨⟨conforms, _⟩, another⟩
      exact ⟨conforms, by linarith⟩
    · rintro ⟨conforms, enough⟩
      exact ⟨⟨conforms, by linarith⟩, by linarith⟩

end Level
end Library.Bucket
