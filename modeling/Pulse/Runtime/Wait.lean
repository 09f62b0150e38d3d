import Mathlib.Data.Rat.Defs
import Pulse.Runtime.Loop

/-! The poll loop with all its suspensions: how it is cancelled, and its wait, which is
`Event.wait` inside `asyncio.wait_for`. -/
namespace Pulse.Runtime
open Library.Lts

/-- A step of the process, and the cancellation of `poll_loop`. -/
inductive Event where
  | act (action : Step)
  | cancel
deriving DecidableEq, Repr

/-- `CancelledError` ends `poll_loop` where it is suspended. An `acquire` which was granted gives
the semaphore back. -/
def WorkerProcess.cancelPoll (process : WorkerProcess) : WorkerProcess :=
  match process.poll with
  | .acquiring true _ _ _ => { process with
      poll := .ended, runtime := { process.runtime with sem := process.runtime.sem + 1 } }
  | _ => { process with poll := .ended }

def perform (process : WorkerProcess) : Event → Option WorkerProcess
  | .act action => advance process action
  | .cancel => some process.cancelPoll

/-- A process from its registration on, also after `shutdown` has returned. -/
def processOf (concurrency : Nat) : Machine WorkerProcess Event where
  init := fun process => ∃ queueIds, process = { runtime := { concurrency }, queueIds }
  step := perform

/-- What one event does. -/
inductive Performed (process : WorkerProcess) : Event → WorkerProcess → Prop where
  | act {action next} (advanced : Advanced process action next) : Performed process (.act action) next
  | cancel : Performed process .cancel process.cancelPoll

theorem perform_performed {process next : WorkerProcess} {event : Event}
    (taken : perform process event = some next) : Performed process event next := by
  cases event with
  | act action => exact .act (advance_advanced taken)
  | cancel =>
    cases Option.some.inj taken
    exact .cancel

/-! The wait. -/

/-- `wait_for` while `poll_loop` is suspended in it: the event has not been set, it has been set, or
the timeout has cancelled the wait. In the last two `poll_loop` is scheduled. -/
inductive Wait where
  | pending
  | woken
  | expired
deriving DecidableEq, Repr

/-- A notification has been delivered, a `_poll_once` has begun. -/
inductive Mark where
  | notified
  | began
deriving DecidableEq, Repr

/-- `wait` counts while `poll_loop` sleeps. The marks, newest first, are read by no turn. -/
structure Looping where
  process : WorkerProcess
  wait : Wait := .pending
  marks : List Mark := []
deriving DecidableEq, Repr

section Turns
variable (interval : ℚ) (loop : Looping)

/-- `while not self.shutting_down`. -/
def Looping.iterate : Looping :=
  { loop with
    process := loop.process.iterate
    marks := if loop.process.shuttingDown then loop.marks else .began :: loop.marks }

/-- `_wake_event.clear()` and the next iteration. -/
def Looping.again : Looping :=
  { loop with process := { loop.process with wakeEvent := false } }.iterate

/-- `wait_for` suspends; with no time to wait it has already cancelled. -/
def Looping.suspend : Looping :=
  { loop with wait := if interval ≤ 0 then .expired else .pending }

/-- Where `poll_loop` has come to its wait: `Event.wait` returns at once if the event is set. -/
def Looping.settle : Looping :=
  if loop.process.poll = .sleeping then
    if 0 < interval ∧ loop.process.wakeEvent then loop.again.suspend interval
    else loop.suspend interval
  else loop

/-- `_wake_event.set()`. -/
def Looping.set : Looping :=
  { loop with
    process := { loop.process with wakeEvent := true }
    wait := if loop.wait = .pending then .woken else loop.wait }

end Turns

/-- The events which are turns of their own. -/
def Event.ofWait : Event → Bool
  | .act .begin | .act .wake | .act .notify => true
  | _ => false

/-- `poll_loop` begins; any other event; `_on_notify`; `_ensure_notify_listener` has connected; the
timeout fires; and `poll_loop` goes on after its wait. -/
inductive Turn where
  | start
  | event (event : Event)
  | notify
  | listen
  | expire
  | resume
deriving DecidableEq, Repr

def turn (interval : ℚ) (loop : Looping) : Turn → Option Looping
  | .start =>
    if loop.process.poll = .starting then some (loop.iterate.settle interval) else none
  | .event event =>
    if event.ofWait then none
    else (perform loop.process event).map fun process =>
      if loop.process.poll = .sleeping then { loop with process }
      else { loop with process }.settle interval
  | .notify => some { loop.set with marks := .notified :: loop.marks }
  | .listen => some loop.set
  | .expire =>
    if loop.process.poll = .sleeping then some { loop with wait := .expired } else none
  | .resume =>
    if loop.process.poll = .sleeping ∧ loop.wait ≠ .pending then some (loop.again.settle interval)
    else none

def looping (interval : ℚ) (concurrency : Nat) : Machine Looping Turn where
  init := fun loop => ∃ queueIds, loop = { process := { runtime := { concurrency }, queueIds } }
  step := turn interval

/-- What one turn does. -/
inductive Turned (interval : ℚ) (loop : Looping) : Turn → Looping → Prop where
  | start (starting : loop.process.poll = .starting) :
      Turned interval loop .start (loop.iterate.settle interval)
  | aside {event process} (other : event.ofWait = false)
      (performed : perform loop.process event = some process)
      (sleeping : loop.process.poll = .sleeping) :
      Turned interval loop (.event event) { loop with process }
  | own {event process} (other : event.ofWait = false)
      (performed : perform loop.process event = some process)
      (awake : loop.process.poll ≠ .sleeping) :
      Turned interval loop (.event event) ({ loop with process }.settle interval)
  | notify : Turned interval loop .notify { loop.set with marks := .notified :: loop.marks }
  | listen : Turned interval loop .listen loop.set
  | expire (sleeping : loop.process.poll = .sleeping) :
      Turned interval loop .expire { loop with wait := .expired }
  | resume (sleeping : loop.process.poll = .sleeping) (due : loop.wait ≠ .pending) :
      Turned interval loop .resume (loop.again.settle interval)

theorem turn_turned {interval : ℚ} {loop next : Looping} {taken : Turn}
    (made : turn interval loop taken = some next) : Turned interval loop taken next := by
  cases taken with
  | start =>
    simp only [turn] at made
    split at made
    · rename_i starting
      cases Option.some.inj made
      exact .start starting
    · cases made
  | event event =>
    simp only [turn] at made
    split at made
    · cases made
    · rename_i other
      obtain ⟨process, performed, rfl⟩ := Option.map_eq_some_iff.mp made
      split
      · rename_i sleeping
        exact .aside (by simpa using other) performed sleeping
      · rename_i awake
        exact .own (by simpa using other) performed awake
  | notify =>
    cases Option.some.inj made
    exact .notify
  | listen =>
    cases Option.some.inj made
    exact .listen
  | expire =>
    simp only [turn] at made
    split at made
    · rename_i sleeping
      cases Option.some.inj made
      exact .expire sleeping
    · cases made
  | resume =>
    simp only [turn] at made
    split at made
    · rename_i due
      cases Option.some.inj made
      exact .resume due.1 due.2
    · cases made

/-! Every turn is made of events of the process. -/

section Paths
variable {interval : ℚ} {concurrency : Nat} {loop next : Looping} {origin process : WorkerProcess}

theorem perform_begin (starting : process.poll = .starting) :
    perform process (.act .begin) = some process.iterate := by
  rw [perform, advance, starting]

theorem perform_wake (sleeping : process.poll = .sleeping) :
    perform process (.act .wake) = some { process with wakeEvent := false }.iterate := by
  rw [perform, advance, sleeping]

theorem path_perform {event : Event} {last : WorkerProcess}
    (path : (processOf concurrency).Path anyStep origin process)
    (performed : perform process event = some last) :
    (processOf concurrency).Path anyStep origin last :=
  path.step trivial performed

theorem path_settle (path : (processOf concurrency).Path anyStep origin loop.process) :
    (processOf concurrency).Path anyStep origin (loop.settle interval).process := by
  unfold Looping.settle
  split
  · rename_i sleeping
    split
    · exact path_perform path (perform_wake sleeping)
    · exact path
  · exact path

theorem Turned.path {taken : Turn} (turned : Turned interval loop taken next) :
    (processOf concurrency).Path anyStep loop.process next.process := by
  have set : perform loop.process (.act .notify) = some { loop.process with wakeEvent := true } := rfl
  cases turned with
  | start starting => exact path_settle (path_perform .refl (perform_begin starting))
  | aside _ performed => exact path_perform .refl performed
  | own _ performed => exact path_settle (path_perform .refl performed)
  | notify => exact path_perform .refl set
  | listen => exact path_perform .refl set
  | expire => exact .refl
  | resume sleeping => exact path_settle (path_perform .refl (perform_wake sleeping))

/-- A run of the turns is a run of the process. -/
theorem looping_refines (reachable : (looping interval concurrency).Reachable anyStep loop) :
    (processOf concurrency).Reachable anyStep loop.process := by
  refine @Machine.Reachable.invariant _ _ (looping interval concurrency) anyStep
    (fun loop => (processOf concurrency).Reachable anyStep loop.process) ?_ ?_ loop reachable
  · rintro _ ⟨queueIds, rfl⟩
    exact .start ⟨queueIds, rfl⟩
  · intro loop taken next earlier _ made
    exact earlier.path (turn_turned made).path

end Paths
end Pulse.Runtime
