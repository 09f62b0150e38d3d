import Pulse.Engine.Promotion
import Pulse.Library.Lts

/-! The scheduler replicas and the jobs which their ticks promote. Whichever replica
gets the advisory lock runs a tick, with the buckets of its own process. -/
namespace Pulse.Replicas
open Library.Lts Library.Rounding

/-- A scheduler process, from its start to its end. -/
abbrev Replica := Nat

/-- The committed database, the registry of each process, the time up to which ticks
have run and, as an auxiliary, the jobs moved so far, newest first. -/
structure Cluster where
  db : Db := {}
  registries : Replica → RateLimiterRegistry := fun _ => {}
  clock : Time := 0
  promoted : List Promoted := []

/-- Ticks do not overlap. A tick reads the bucket of a queue before it moves its jobs,
and moves the jobs of one queue after those of another. -/
def Timely (clock endAt : Time) (visits : List Visit) : Prop :=
  clock ≤ endAt ∧ (visits.map Visit.movedAt).Pairwise (· ≤ ·) ∧
    ∀ visit ∈ visits, clock ≤ visit.readAt ∧ visit.readAt ≤ visit.movedAt ∧ visit.movedAt ≤ endAt

instance (clock endAt : Time) (visits : List Visit) : Decidable (Timely clock endAt visits) :=
  inferInstanceAs (Decidable (_ ∧ _))

/-- A tick which commits; one which raises, after some of its visits; and what all
other transactions make of the database. -/
inductive Action where
  | tick (replica : Replica) (txNow : Time) (visits : List Visit) (endAt : Time)
  | abort (replica : Replica) (txNow : Time) (visits : List Visit) (endAt : Time)
  | others (db : Db)
deriving DecidableEq, Repr

def Cluster.leave (state : Cluster) (replica : Replica) (registry : RateLimiterRegistry)
    (endAt : Time) : Cluster :=
  { state with
    registries := Function.update state.registries replica registry
    clock := endAt }

def step [Arithmetic] (state : Cluster) : Action → Option Cluster
  | .tick replica txNow visits endAt =>
    if Timely state.clock endAt visits then
      (promoteDueJobs state.db (state.registries replica) txNow endAt visits).map fun done =>
        { state.leave replica done.registry endAt with
          db := done.db
          promoted := done.moves ++ state.promoted }
    else none
  | .abort replica txNow visits endAt =>
    if Timely state.clock endAt visits ∧ (visits.map Visit.queueId).Nodup ∧
        ∀ visit ∈ visits, (visit.queueId, visit.ratePerSec) ∈ state.db.rateLimited then
      (promoteRateLimited txNow { db := state.db, registry := state.registries replica }
        visits).map fun done => state.leave replica done.registry endAt
    else none
  | .others db => if db.Keyed then some { state with db } else none

def cluster [Arithmetic] : Machine Cluster Action where
  init := fun state => state = {}
  step := step

/-- How many jobs of the queue were moved in the closed interval. -/
def movedIn (state : Cluster) (queueId : Uuid) (start stop : Time) : Nat :=
  state.promoted.countP fun move =>
    move.queueId = queueId && (start ≤ move.movedAt && move.movedAt ≤ stop)

/-- The queue has this limit whenever a tick runs. -/
def Rated (queueId : Uuid) (rate : Nat) (state : Cluster) : Action → Prop
  | .tick .. | .abort .. => (queueId, rate) ∈ state.db.rateLimited
  | .others _ => True

instance (queueId : Uuid) (rate : Nat) (state : Cluster) :
    (action : Action) → Decidable (Rated queueId rate state action)
  | .tick .. | .abort .. => inferInstanceAs (Decidable (_ ∈ _))
  | .others _ => isTrue trivial

section Ticks
variable [Arithmetic] {state after : Cluster} {queueId : Uuid} {rate : Nat}

/-- A tick serves each queue with a limit once, at its rate. -/
theorem tick_serves (keyed : state.db.Keyed) {replica : Replica} {txNow endAt : Time}
    {visits : List Visit} (rated : (queueId, rate) ∈ state.db.rateLimited)
    (taken : step state (.tick replica txNow visits endAt) = some after) :
    Timely state.clock endAt visits ∧ ∃ visit ∈ visits, visit.queueId = queueId ∧
      visit.ratePerSec = rate ∧ (∀ other ∈ visits, other.queueId = queueId → other = visit) ∧
      ∃ done, Serves queueId txNow visit
        { db := state.db, registry := state.registries replica } done ∧ done.db.Keyed ∧
        after = { state.leave replica done.registry endAt with
          db := done.db
          promoted := done.moves ++ state.promoted } := by
  simp only [step] at taken
  split at taken
  · rename_i timely
    refine ⟨timely, ?_⟩
    obtain ⟨done, made, rfl⟩ := Option.map_eq_some_iff.mp taken
    unfold promoteDueJobs at made
    split at made
    · rename_i complete
      obtain ⟨limited, looped, rfl⟩ := Option.map_eq_some_iff.mp made
      have once : (visits.map Visit.queueId).Nodup := by
        have listed := (complete.map Prod.fst).nodup_iff.mpr (rateLimited_nodup keyed)
        rwa [List.map_map] at listed
      obtain ⟨visit, member, same⟩ := List.mem_map.mp (complete.mem_iff.mpr rated)
      cases same
      refine ⟨visit, member, rfl, rfl, ?_, ?_⟩
      · intro other listed equal
        exact List.inj_on_of_nodup_map once listed member equal
      · have served := visits_serve keyed once member looped
        have stored := visits_keyed keyed looped
        refine ⟨_, served.spares (unlimited_spares stored ?_), promote_keyed stored, rfl⟩
        exact List.mem_map.mpr ⟨_, rated, rfl⟩
    · cases made
  · cases taken

end Ticks

end Pulse.Replicas
