import Mathlib.Data.List.Nodup

/-! The timers of an event loop. No number is given out twice, and to clear a timer which has fired
or was cleared does nothing. -/
namespace Library
universe u

structure Timer (Task : Type u) where
  id : Nat
  due : Nat
  task : Task
deriving DecidableEq, Repr

structure Timers (Task : Type u) where
  armed : List (Timer Task) := []
  next : Nat := 0
  distinct : (armed.map Timer.id).Nodup := by simp
  below : ∀ timer ∈ armed, timer.id < next := by simp

namespace Timers
variable {Task : Type u} {timers : Timers Task} {id due : Nat} {task other : Task}

/-- `setTimeout`: the timer has the number `timers.next`. -/
def setTimeout (timers : Timers Task) (due : Nat) (task : Task) : Timers Task where
  armed := timers.armed ++ [⟨timers.next, due, task⟩]
  next := timers.next + 1
  distinct := by
    rw [List.map_append]
    refine List.Nodup.append timers.distinct (List.nodup_singleton _) ?_
    refine List.disjoint_singleton.mpr fun member => ?_
    obtain ⟨timer, old, same⟩ := List.mem_map.mp member
    exact Nat.ne_of_lt (timers.below timer old) same
  below := by
    intro timer member
    rcases List.mem_append.mp member with old | new
    · exact Nat.lt_succ_of_lt (timers.below timer old)
    · exact List.mem_singleton.mp new ▸ Nat.lt_succ_self _

def clearTimeout (timers : Timers Task) (id : Nat) : Timers Task where
  armed := timers.armed.filter fun timer => timer.id ≠ id
  next := timers.next
  distinct := timers.distinct.sublist (List.filter_sublist.map Timer.id)
  below := fun timer member => timers.below timer (List.mem_of_mem_filter member)

/-- `if (id) clearTimeout(id)`. -/
def clear (timers : Timers Task) : Option Nat → Timers Task
  | some id => timers.clearTimeout id
  | none => timers

/-- The timer fires, no earlier than it was set for, and is gone. -/
def fire (timers : Timers Task) (now id : Nat) : Option (Task × Timers Task) :=
  match timers.armed.find? fun timer => timer.id = id with
  | some timer => if timer.due ≤ now then some (timer.task, timers.clearTimeout id) else none
  | none => none

@[simp] theorem next_clear (id : Option Nat) : (timers.clear id).next = timers.next := by
  cases id <;> rfl

theorem mem_setTimeout {timer : Timer Task} : timer ∈ (timers.setTimeout due task).armed ↔
    timer ∈ timers.armed ∨ timer = ⟨timers.next, due, task⟩ := by
  rw [setTimeout, List.mem_append, List.mem_singleton]

theorem mem_clearTimeout {timer : Timer Task} :
    timer ∈ (timers.clearTimeout id).armed ↔ timer ∈ timers.armed ∧ timer.id ≠ id := by
  simp [clearTimeout]

theorem clear_subset (id : Option Nat) : (timers.clear id).armed ⊆ timers.armed := by
  cases id with
  | none => exact fun _ member => member
  | some id => exact fun _ member => (mem_clearTimeout.mp member).1

theorem owned (armed : ⟨id, due, task⟩ ∈ timers.armed) :
    id < timers.next ∧ ∀ timer ∈ timers.armed, timer.id = id → timer.task = task := by
  refine ⟨timers.below _ armed, fun timer member same => ?_⟩
  rw [List.inj_on_of_nodup_map timers.distinct member armed same]

theorem fire_some {now : Nat} {rest : Timers Task} (fired : timers.fire now id = some (task, rest)) :
    rest = timers.clearTimeout id ∧ ∃ due ≤ now, (⟨id, due, task⟩ : Timer Task) ∈ timers.armed := by
  unfold fire at fired
  split at fired
  · rename_i timer found
    split at fired
    · rename_i late
      cases fired
      have same : timer.id = id := by simpa using List.find?_some found
      refine ⟨rfl, timer.due, late, ?_⟩
      rw [← same]
      exact List.mem_of_find?_eq_some found
    · cases fired
  · cases fired

variable [DecidableEq Task]

/-- What is armed for a task. -/
def of (timers : Timers Task) (task : Task) : List (Timer Task) :=
  timers.armed.filter fun timer => timer.task = task

theorem mem_of {timer : Timer Task} : timer ∈ timers.of task ↔
    timer ∈ timers.armed ∧ timer.task = task := by
  simp [of]

theorem of_setTimeout_self :
    (timers.setTimeout due task).of task = timers.of task ++ [⟨timers.next, due, task⟩] := by
  simp [of, setTimeout]

theorem of_setTimeout_ne (different : other ≠ task) :
    (timers.setTimeout due task).of other = timers.of other := by
  simp [of, setTimeout, different.symm]

theorem of_clearTimeout :
    (timers.clearTimeout id).of task = (timers.of task).filter fun timer => timer.id ≠ id := by
  simp only [of, clearTimeout, List.filter_filter, Bool.and_comm]

/-- The number is of another task, if it is armed at all. -/
theorem of_clearTimeout_ne (owned : ∀ timer ∈ timers.armed, timer.id = id → timer.task = task)
    (different : other ≠ task) : (timers.clearTimeout id).of other = timers.of other := by
  rw [of_clearTimeout, List.filter_eq_self]
  intro timer member
  obtain ⟨armed, same⟩ := mem_of.mp member
  refine decide_eq_true fun here => different ?_
  rw [← same]
  exact owned timer armed here

theorem of_eq_nil_of_clear (only : timers.of task = [⟨id, due, task⟩]) :
    (timers.clearTimeout id).of task = [] := by
  simp [of_clearTimeout, only]

theorem of_clearTimeout_nil (none : timers.of task = []) : (timers.clearTimeout id).of task = [] := by
  simp [of_clearTimeout, none]

theorem of_clear_armed {held : Option Nat} (here : held = some id)
    (only : timers.of task = [⟨id, due, task⟩]) : (timers.clear held).of task = [] := by
  rw [here]
  exact of_eq_nil_of_clear only

theorem of_clear_nil (held : Option Nat) (none : timers.of task = []) :
    (timers.clear held).of task = [] := by
  cases held with
  | none => exact none
  | some id => exact of_clearTimeout_nil none

end Timers

/-- Of times which are a gap apart, the last first, no more are in an interval than fit in. -/
theorem countP_spaced {gap : Nat} (positive : 0 < gap) {times : List Nat}
    (spaced : times.Pairwise fun later earlier => earlier + gap ≤ later) (start width : Nat) :
    times.countP (fun time => start ≤ time ∧ time ≤ start + width) ≤ width / gap + 1 := by
  induction times generalizing width with
  | nil => exact Nat.zero_le _
  | cons time rest ih =>
    obtain ⟨last, before⟩ := List.pairwise_cons.mp spaced
    rw [List.countP_cons]
    by_cases inside : start ≤ time ∧ time ≤ start + width
    · by_cases alone : time < start + gap
      · have none : rest.countP (fun time => start ≤ time ∧ time ≤ start + width) = 0 := by
          refine List.countP_eq_zero.mpr fun earlier member => ?_
          have apart := last earlier member
          simp only [decide_eq_true_eq, not_and]
          omega
        rw [none, if_pos (decide_eq_true inside)]
        exact Nat.add_le_add_right (Nat.zero_le _) 1
      · have fewer : rest.countP (fun time => start ≤ time ∧ time ≤ start + width) ≤
            rest.countP (fun earlier => start ≤ earlier ∧ earlier ≤ start + (time - gap - start)) := by
          refine List.countP_mono_left fun earlier member here => ?_
          have apart := last earlier member
          simp only [decide_eq_true_eq] at here ⊢
          omega
        have counted := ih before (time - gap - start)
        have room : (time - gap - start) / gap + 1 ≤ width / gap := by
          rw [← Nat.add_div_right _ positive]
          exact Nat.div_le_div_right (by omega)
        rw [if_pos (decide_eq_true inside)]
        omega
    · have counted := ih before width
      rw [if_neg (by simpa using inside)]
      omega

end Library
