import Pulse.Library.Simulation
import Pulse.System.Fenced
import Pulse.System.Publishes

/-! One job's life: the state diagram of `docs/architecture.md` as a machine, with the process which
takes each edge. `cancel` is `POST /cancel`, which the diagram leaves out. -/
namespace Pulse
open Library.Lts

inductive Actor where
  | api
  | scheduler
  | worker
  | reaper
deriving DecidableEq, Repr

inductive Edge where
  | create (status : JobStatus) (maxAttempts : Nat)
  | promote
  | dependencyEnded
  | claim
  | start
  | succeed
  | backOff
  | bury
  | abandon
  | lose
  | buryLost
  | replay
  | cancel
  | delete
deriving DecidableEq, Repr

/-- The columns of a job which the diagram speaks of. -/
structure Phase where
  status : JobStatus
  attempts : Nat
  maxAttempts : Nat
deriving DecidableEq, Repr

namespace Edge

def actors : Edge → List Actor
  | .create _ _ => [.api, .scheduler]
  | .promote | .dependencyEnded => [.scheduler]
  | .claim | .start | .succeed | .backOff | .bury => [.worker]
  | .abandon | .lose | .buryLost => [.reaper]
  | .replay | .cancel | .delete => [.api]

def sources : Edge → List JobStatus
  | .promote => [.scheduled, .retrying]
  | .dependencyEnded => [.scheduled]
  | .claim => [.queued]
  | .start | .abandon => [.claimed]
  | .succeed | .backOff | .bury | .lose | .buryLost => [.running]
  | .replay => [.dead]
  | .cancel => [.scheduled, .queued, .retrying]
  | .create _ _ | .delete => []

/-- The phase behind an edge between two statuses. -/
def target (edge : Edge) (phase : Phase) : Phase :=
  match edge with
  | .promote | .abandon => { phase with status := .queued }
  | .dependencyEnded | .cancel => { phase with status := .cancelled }
  | .claim => { phase with status := .claimed }
  | .start => { phase with status := .running }
  | .succeed => { phase with status := .completed }
  | .backOff => { phase with status := .retrying, attempts := phase.attempts + 1 }
  | .lose => { phase with status := .queued, attempts := phase.attempts + 1 }
  | .bury | .buryLost => { phase with status := .dead, attempts := phase.attempts + 1 }
  | .replay => { phase with status := .queued, attempts := 0 }
  | .create _ _ | .delete => phase

/-- Whether attempts are left, or spent, after the one which an edge charges. -/
def admits (edge : Edge) (phase : Phase) : Bool :=
  match edge with
  | .backOff | .lose => phase.attempts + 1 < phase.maxAttempts
  | .bury | .buryLost => phase.maxAttempts ≤ phase.attempts + 1
  | _ => true

def move (edge : Edge) (phase : Phase) : Option Phase :=
  if phase.status ∈ edge.sources ∧ edge.admits phase then some (edge.target phase) else none

/-- A job is in a phase, or there is none. -/
def step (phase : Option Phase) : Edge → Option (Option Phase)
  | .create status maxAttempts =>
    if phase = none ∧ status ∈ [.scheduled, .queued] ∧ 0 < maxAttempts then
      some (some { status, attempts := 0, maxAttempts })
    else none
  | .delete => phase.map fun _ => none
  | edge => (phase.bind edge.move).map some

end Edge

def lifecycle : Machine (Option Phase) Edge where
  init := fun phase => phase = none
  step := Edge.step

/-- What the diagram promises of every phase. -/
structure Phase.Sane (phase : Phase) : Prop where
  notFailed : phase.status ≠ .failed
  positive : 0 < phase.maxAttempts
  counted : if phase.status = .dead then phase.attempts = phase.maxAttempts
    else phase.attempts < phase.maxAttempts

theorem Phase.Sane.move {phase next : Phase} (sane : phase.Sane) {edge : Edge}
    (moved : edge.move phase = some next) : next.Sane := by
  obtain ⟨_, positive, counted⟩ := sane
  unfold Edge.move at moved
  split at moved
  · rename_i enabled
    obtain ⟨source, admitted⟩ := enabled
    cases Option.some.inj moved
    cases edge with
    | create | delete => cases source
    | replay => exact ⟨by simp [Edge.target], positive, by simpa [Edge.target] using positive⟩
    | backOff | lose | bury | buryLost =>
      -- a running job has attempts left; the edge charges one
      simp only [Edge.sources, List.mem_singleton] at source
      simp only [Edge.admits, decide_eq_true_eq] at admitted
      simp only [source, reduceCtorEq, if_false] at counted
      refine ⟨by simp [Edge.target], positive, ?_⟩
      simp only [Edge.target, reduceCtorEq, if_true, if_false]
      lia
    | _ =>
      have alive : phase.status ≠ .dead := by
        intro dead
        simp [Edge.sources, dead] at source
      rw [if_neg alive] at counted
      exact ⟨by simp [Edge.target], positive, by simpa [Edge.target] using counted⟩
  · cases moved

/-- Every phase to which the diagram leads is sane. -/
theorem Phase.Sane.reachable {phase : Phase}
    (reachable : lifecycle.Reachable anyStep (some phase)) : phase.Sane := by
  refine @Machine.Reachable.invariant _ _ lifecycle anyStep
    (fun state => ∀ phase, state = some phase → phase.Sane) ?_ ?_ (some phase) reachable phase rfl
  · rintro _ rfl phase impossible
    cases impossible
  · rintro state edge next sane _ taken phase rfl
    cases edge with
    | create status maxAttempts =>
      simp only [lifecycle, Edge.step] at taken
      split at taken
      · rename_i enabled
        obtain ⟨_, waiting, positive⟩ := enabled
        cases Option.some.inj (Option.some.inj taken)
        have fresh : status = .scheduled ∨ status = .queued := by simpa using waiting
        rcases fresh with rfl | rfl <;> exact ⟨by simp, positive, by simpa using positive⟩
      · cases taken
    | delete =>
      obtain ⟨_, _, impossible⟩ := Option.map_eq_some_iff.mp taken
      cases impossible
    | _ =>
      obtain ⟨moved, made, same⟩ := Option.map_eq_some_iff.mp taken
      cases Option.some.inj same
      obtain ⟨before, rfl, edge⟩ := Option.bind_eq_some_iff.mp made
      exact (sane before rfl).move edge

/-! The phases of a job in the database. -/

def JobRecord.phase (record : JobRecord) : Phase where
  status := record.job.status
  attempts := record.job.attempts
  maxAttempts := record.job.maxAttempts

def Db.phase (db : Db) (jobId : Uuid) : Option Phase := (db.findJob jobId).map JobRecord.phase

/-- The process in which a session runs. -/
def Session.actor : Session → Actor
  | .idle | .cancelling _ | .retrying _ | .superseded _ _ | .replaying _ _ | .replayingJob _ _ => .api
  | .tick _ => .scheduler
  | .claimLocked _ _ _ _ | .claimWritten _ _ _ _ | .claimCommitted _ _ | .handing _ _ | .execute _
  | .starting _ | .handling _ _ | .returned _ _ _ _ | .finishing _ _ _ _ | .workerLoaded _ _ _ =>
    .worker
  | .reaperLocked | .reaperStale _ _ | .reaperRead _ _ | .reaperMarked _ _ | .reaperSwept _
  | .reaperPruned _ => .reaper

end Pulse
