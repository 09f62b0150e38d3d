import Pulse.Library.Numbering
import Pulse.System.Accounts

/-! The system on one clock. `_execute` reads `started_at` before its first transaction
and writes what it has read; the other readings of the clock are left free. The rows
which it writes are what `list_executions` returns. -/
namespace Pulse.History
open Library.Lts Library.Numbering

/-- `startedAt` is what the `_execute` which runs in the session has read. -/
structure Clock where
  now : Time
  startedAt : Sid → Option Time := fun _ => none

inductive Move where
  | pass (duration : Time)
  | read (sid : Sid)
  | act (action : Action)
deriving Repr

/-- `_execute` has read the clock before it loads the job. -/
def Clock.permits (clock : Clock) (state : System) : Action → Bool
  | .next sid input => match state.sessions sid with
    | .execute _ => (clock.startedAt sid).isSome
    | .starting _ => clock.startedAt sid = some input.now
    | _ => true
  | _ => true

/-- A submission runs a new `_execute`, which has read nothing yet. -/
def Clock.note (clock : Clock) : Action → Clock
  | .submit _ newSid =>
    { clock with startedAt := Function.update clock.startedAt newSid none }
  | _ => clock

def step (env : Environment) : System × Clock → Move → Option (System × Clock)
  | (state, clock), .pass duration =>
    if 0 ≤ duration then some (state, { clock with now := clock.now + duration }) else none
  | (state, clock), .read sid => match state.sessions sid, clock.startedAt sid with
    | .execute _, none => some (state,
        { clock with startedAt := Function.update clock.startedAt sid (some clock.now) })
    | _, _ => none
  | (state, clock), .act action =>
    if clock.permits state action then
      (Pulse.step env state action).map fun next => (next, clock.note action)
    else none

/-- `list_executions`, `ORDER BY attempt_number ASC`. -/
def ListsExecutions (db : Db) (jobId : Uuid) (rows : List JobExecution) : Prop :=
  ∃ record ∈ db.findJob jobId, Arranged JobExecution.attemptNumber record.executions rows

instance (db : Db) (jobId : Uuid) (rows : List JobExecution) :
    Decidable (ListsExecutions db jobId rows) :=
  inferInstanceAs (Decidable (∃ record ∈ db.findJob jobId, _))

/-- Oldest first. -/
def Chronological (rows : List JobExecution) : Prop :=
  rows.Pairwise fun first second => first.startedAt ≤ second.startedAt

instance (rows : List JobExecution) : Decidable (Chronological rows) :=
  inferInstanceAs (Decidable (List.Pairwise _ _))

/-- What one move does. -/
inductive Moved (env : Environment) (state : System) (clock : Clock) :
    Move → System → Clock → Prop where
  | pass {duration} (forward : 0 ≤ duration) :
      Moved env state clock (.pass duration) state { clock with now := clock.now + duration }
  | read {sid task} (executing : state.sessions sid = .execute task)
      (unread : clock.startedAt sid = none) :
      Moved env state clock (.read sid) state
        { clock with startedAt := Function.update clock.startedAt sid (some clock.now) }
  | act {action after} (permitted : clock.permits state action = true)
      (taken : Pulse.step env state action = some after) :
      Moved env state clock (.act action) after (clock.note action)

theorem step_moved {env : Environment} {state after : System} {clock later : Clock} {move : Move}
    (taken : step env (state, clock) move = some (after, later)) :
    Moved env state clock move after later := by
  cases move with
  | pass duration =>
    simp only [step] at taken
    split at taken
    · rename_i forward
      cases Option.some.inj taken
      exact .pass forward
    · cases taken
  | read sid =>
    simp only [step] at taken
    split at taken
    · rename_i executing unread
      cases Option.some.inj taken
      exact .read executing unread
    · cases taken
  | act action =>
    simp only [step] at taken
    split at taken
    · rename_i permitted
      obtain ⟨next, stepped, same⟩ := Option.map_eq_some_iff.mp taken
      cases same
      exact .act permitted stepped
    · cases taken

/-- A run of the system whose `started_at` values are read from one clock. -/
def clocked (env : Environment) : Machine (System × Clock) Move where
  init := fun pair => pair.1 = {} ∧ ∃ now, pair.2 = { now }
  step := step env

end Pulse.History
