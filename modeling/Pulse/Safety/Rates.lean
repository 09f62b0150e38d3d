import Pulse.Replicas.Step
import Pulse.Library.Bucket

/-! How many jobs of a queue with a rate limit the replicas move to `queued` in an
interval, against one bucket which all of them would share. -/
namespace Pulse.Replicas
open Library.Lts Library.Bucket Library.Rounding Arithmetic

/-- In no interval are more jobs of the queue moved than the rate and its length allow. -/
def Bounded (queueId : Uuid) (rate : Nat) (state : Cluster) : Prop :=
  ∀ start stop, start ≤ stop →
    (movedIn state queueId start stop : ℚ) ≤ rate + rate * (stop - start)

/-- What would be in a bucket of the queue's rate which all replicas share, once the
jobs moved so far are paid for. -/
def shared (state : Cluster) (queueId : Uuid) (rate : Nat) (now : Time) : ℚ :=
  level (rate : ℚ) rate (movesOf queueId state.promoted) now

/-- A tick finds no more due jobs and whole tokens in the leader's own bucket than there
is in the shared bucket when it moves them. -/
def WithinShared [Arithmetic] (queueId : Uuid) (rate : Nat) (state : Cluster) : Action → Prop
  | .tick replica txNow visits _ => ∀ visit ∈ visits, visit.queueId = queueId →
      (quota state.db (state.registries replica) txNow queueId rate visit.readAt : ℚ) ≤
        shared state queueId rate visit.movedAt
  | _ => True

instance [Arithmetic] (queueId : Uuid) (rate : Nat) (state : Cluster) :
    (action : Action) → Decidable (WithinShared queueId rate state action)
  | .tick replica txNow visits _ => inferInstanceAs (Decidable (∀ visit ∈ visits,
      visit.queueId = queueId →
        (quota state.db (state.registries replica) txNow queueId rate visit.readAt : ℚ) ≤
          shared state queueId rate visit.movedAt))
  | .abort .. | .others _ => isTrue trivial

/-- The times of the moves are in order, and past. -/
structure Steady (queueId : Uuid) (state : Cluster) : Prop where
  keyed : state.db.Keyed
  chronological : Chronological (movesOf queueId state.promoted)
  past : ∀ time ∈ movesOf queueId state.promoted, time ≤ state.clock

section Exact
variable {state after : Cluster} {action : Action} {queueId : Uuid} {rate : Nat}

theorem movedIn_eq (start stop : Time) :
    movedIn state queueId start stop = drawn (movesOf queueId state.promoted) start stop := by
  rw [movedIn, drawn, movesOf, List.countP_map, List.countP_filter]
  apply List.countP_congr
  intro move _
  simp [and_comm, Function.comp]

/-- The bound says that the shared bucket is never overdrawn. -/
theorem bounded_iff (steady : Steady queueId state) :
    Bounded queueId rate state ↔ Conforms (rate : ℚ) rate (movesOf queueId state.promoted) := by
  rw [conforms_iff (Nat.cast_nonneg _) (Nat.cast_nonneg _) steady.chronological]
  constructor
  · intro bounded start stop ordered
    rw [← movedIn_eq]
    exact bounded start stop ordered
  · intro bounded start stop ordered
    rw [movedIn_eq]
    exact bounded start stop ordered

/-- The moves of one tick precede those before it. -/
theorem Steady.batch (steady : Steady queueId state) (amount : Nat) {now endAt : Time}
    (later : state.clock ≤ now) (ended : now ≤ endAt) :
    Chronological (List.replicate amount now ++ movesOf queueId state.promoted) ∧
      ∀ time ∈ List.replicate amount now ++ movesOf queueId state.promoted, time ≤ endAt := by
  constructor
  · refine List.pairwise_append.mpr ⟨?_, steady.chronological, ?_⟩
    · exact List.pairwise_replicate.mpr (.inr (le_refl now))
    · intro time drawn earlier member
      rw [List.eq_of_mem_replicate drawn]
      exact (steady.past earlier member).trans later
  · intro time member
    rcases List.mem_append.mp member with drawn | old
    · rw [List.eq_of_mem_replicate drawn]
      exact ended
    · exact ((steady.past time old).trans later).trans ended

theorem initial_steady : Steady queueId {} :=
  ⟨⟨List.nodup_nil, List.nodup_nil⟩, List.Pairwise.nil, fun _ member => nomatch member⟩

theorem initial_bounded : Bounded queueId rate {} :=
  (bounded_iff initial_steady).mpr trivial

variable [Arithmetic]

/-- What a tick adds to the moves of the queue. -/
theorem tick_moves {replica : Replica} {txNow endAt : Time} {visits : List Visit}
    (steady : Steady queueId state) (rated : (queueId, rate) ∈ state.db.rateLimited)
    (taken : step state (.tick replica txNow visits endAt) = some after) :
    ∃ visit ∈ visits, visit.queueId = queueId ∧ state.clock ≤ visit.movedAt ∧
      visit.movedAt ≤ endAt ∧ (∀ other ∈ visits, other.queueId = queueId → other = visit) ∧
      after.db.Keyed ∧ after.clock = endAt ∧ movesOf queueId after.promoted = List.replicate
        (quota state.db (state.registries replica) txNow queueId rate visit.readAt) visit.movedAt ++
          movesOf queueId state.promoted := by
  obtain ⟨timely, visit, member, named, same, unique, done, served, keyed, rfl⟩ :=
    tick_serves steady.keyed rated taken
  obtain ⟨_, _, timed⟩ := timely
  obtain ⟨started, moved, ended⟩ := timed visit member
  refine ⟨visit, member, named, started.trans moved, ended, unique, keyed, rfl, ?_⟩
  have moves := served.moves
  rw [same] at moves
  rw [movesOf_append, moves]
  simp [movesOf]

theorem step_others {db : Db} (taken : step state (.others db) = some after) :
    db.Keyed ∧ after = { state with db } := by
  simp only [step] at taken
  split at taken
  · rename_i keyed
    exact ⟨keyed, (Option.some.inj taken).symm⟩
  · cases taken

theorem step_abort {replica : Replica} {txNow endAt : Time} {visits : List Visit}
    (taken : step state (.abort replica txNow visits endAt) = some after) :
    Timely state.clock endAt visits ∧ (visits.map Visit.queueId).Nodup ∧
      (∀ visit ∈ visits, (visit.queueId, visit.ratePerSec) ∈ state.db.rateLimited) ∧
      ∃ done, promoteRateLimited txNow { db := state.db, registry := state.registries replica }
        visits = some done ∧ after = state.leave replica done.registry endAt := by
  simp only [step] at taken
  split at taken
  · rename_i enabled
    obtain ⟨done, made, rfl⟩ := Option.map_eq_some_iff.mp taken
    exact ⟨enabled.1, enabled.2.1, enabled.2.2, done, made, rfl⟩
  · cases taken

theorem Steady.step (steady : Steady queueId state) (rated : Rated queueId rate state action)
    (taken : step state action = some after) : Steady queueId after := by
  cases action with
  | tick replica txNow visits endAt =>
    obtain ⟨visit, _, _, later, ended, _, keyed, clock, moves⟩ := tick_moves steady rated taken
    have batch := steady.batch
      (quota state.db (state.registries replica) txNow queueId rate visit.readAt) later ended
    rw [← moves, ← clock] at batch
    exact ⟨keyed, batch.1, batch.2⟩
  | abort replica txNow visits endAt =>
    obtain ⟨timely, _, _, done, _, rfl⟩ := step_abort taken
    exact ⟨steady.keyed, steady.chronological,
      fun time member => (steady.past time member).trans timely.1⟩
  | others db =>
    obtain ⟨keyed, rfl⟩ := step_others taken
    exact ⟨keyed, steady.chronological, steady.past⟩

/-- A step keeps the bound if and only if it stays within the shared bucket. -/
theorem bounded_step (steady : Steady queueId state) (rated : Rated queueId rate state action)
    (taken : step state action = some after) :
    Bounded queueId rate after ↔
      Bounded queueId rate state ∧ WithinShared queueId rate state action := by
  rw [bounded_iff steady, bounded_iff (steady.step rated taken)]
  cases action with
  | tick replica txNow visits endAt =>
    obtain ⟨visit, member, named, later, _, unique, _, _, moves⟩ := tick_moves steady rated taken
    have past : ∀ time ∈ movesOf queueId state.promoted, time ≤ visit.movedAt :=
      fun time listed => (steady.past time listed).trans later
    rw [moves, conforms_batch (Nat.cast_nonneg _) (Nat.cast_nonneg _) _ past]
    refine and_congr_right fun _ => ?_
    constructor
    · intro enough other listed same
      rw [unique other listed same]
      exact enough
    · intro within
      exact within visit member named
  | abort replica txNow visits endAt =>
    obtain ⟨_, _, _, done, _, rfl⟩ := step_abort taken
    exact (and_iff_left trivial).symm
  | others db =>
    obtain ⟨_, rfl⟩ := step_others taken
    exact (and_iff_left trivial).symm

/-- For every run of the replicas: the bound holds if and only if every tick finds no
more than the shared bucket has. -/
theorem rate_bounded {actions : List Action}
    (ran : cluster.run (Rated queueId rate) {} actions = some state) :
    Bounded queueId rate state ↔ cluster.run (fun state action => Rated queueId rate state action ∧
      WithinShared queueId rate state action) {} actions = some state := by
  refine Machine.run_exact (fun _ _ _ steady rated taken => steady.step rated taken) ?_ ?_ actions
    initial_steady initial_bounded ran
  · intro earlier action next steady bounded rated taken
    rw [bounded_step steady rated taken]
    exact and_iff_right bounded
  · intro earlier action next steady rated taken bounded
    exact ((bounded_step steady rated taken).mp bounded).1

end Exact

/-! A single leader. With exact arithmetic its bucket never has more than the shared one. -/

/-- Every tick is this replica's, and moves its jobs when it reads their bucket. -/
def LedBy (replica : Replica) : Action → Prop
  | .tick leader _ visits _ =>
    leader = replica ∧ ∀ visit ∈ visits, visit.movedAt = visit.readAt
  | .abort leader _ _ _ => leader = replica
  | .others _ => True

/-- The tokens which a process finds in the bucket of a queue. -/
def tokensAt [Arithmetic] (registry : RateLimiterRegistry) (queueId : Uuid) (rate : Nat) (now : Time) : ℚ :=
  ((registry.bucketFor queueId rate now).refill now).tokens

section Buckets
variable {registry after : RateLimiterRegistry} {queueId : Uuid} {rate : Nat} {now later : Time}

theorem bucketFor_rate : (registry.bucketFor queueId rate now).ratePerSec = rate := by
  unfold RateLimiterRegistry.bucketFor
  split
  · rfl
  · split
    · rfl
    · rename_i same
      simpa using same

variable [Arithmetic]

/-- The bucket which is taken from stays the queue's. -/
theorem bucketFor_taken (taken : after.buckets queueId = some
    ((registry.bucketFor queueId rate now).takeAvailable now).2) :
    after.bucketFor queueId rate later =
      ((registry.bucketFor queueId rate now).takeAvailable now).2 := by
  have rated : ((registry.bucketFor queueId rate now).takeAvailable now).2.ratePerSec = rate :=
    bucketFor_rate
  rw [RateLimiterRegistry.bucketFor, taken]
  exact if_neg (not_not.mpr rated)

theorem tokensAt_taken (taken : after.buckets queueId = some
    ((registry.bucketFor queueId rate now).takeAvailable now).2) :
    tokensAt after queueId rate later = min (registry.bucketFor queueId rate now).capacity
      (fl (fl (tokensAt registry queueId rate now - truncate (tokensAt registry queueId rate now)) +
        fl (fl (later - now) * rate))) := by
  rw [tokensAt, bucketFor_taken taken]
  simp only [TokenBucket.refill, TokenBucket.takeAvailable, tokensAt, bucketFor_rate]

/-- The tokens of a queue depend on its own bucket alone. -/
theorem tokensAt_spared (same : after.buckets queueId = registry.buckets queueId) :
    tokensAt after queueId rate now = tokensAt registry queueId rate now := by
  simp only [tokensAt, RateLimiterRegistry.bucketFor, same]

theorem quota_le (db : Db) (registry : RateLimiterRegistry) (txNow : Time)
    (held : 0 ≤ tokensAt registry queueId rate now) :
    (quota db registry txNow queueId rate now : ℚ) ≤
      truncate (tokensAt registry queueId rate now) := by
  have whole := truncate_nonneg held
  calc (quota db registry txNow queueId rate now : ℚ)
      ≤ ((truncate (tokensAt registry queueId rate now)).toNat : ℚ) := by
        exact_mod_cast Nat.min_le_left _ _
    _ = truncate (tokensAt registry queueId rate now) := by
        exact_mod_cast Int.toNat_of_nonneg whole

end Buckets

section OneLeader
attribute [local instance] exact

/-- The bucket of a queue in a registry, with the capacity `TokenBucket` gives it, holds
no more than the shared one. -/
structure Covered (queueId : Uuid) (rate : Nat) (registry : RateLimiterRegistry)
    (moves : List Time) (clock : Time) : Prop where
  capacity : ∀ bucket, registry.buckets queueId = some bucket →
    bucket.capacity = max bucket.ratePerSec 1
  held : ∀ now, clock ≤ now → 0 ≤ tokensAt registry queueId rate now
  covered : ∀ now, clock ≤ now → tokensAt registry queueId rate now ≤ level (rate : ℚ) rate moves now

section Leader
variable {registry after : RateLimiterRegistry} {queueId : Uuid} {rate : Nat} {moves : List Time}
  {clock now later : Time}

theorem Covered.bucketFor_capacity (covered : Covered queueId rate registry moves clock)
    (positive : 1 ≤ rate) : (registry.bucketFor queueId rate now).capacity = rate := by
  have floor : max (rate : ℚ) 1 = rate := max_eq_left (by exact_mod_cast positive)
  unfold RateLimiterRegistry.bucketFor
  split
  · exact floor
  · rename_i bucket found
    split
    · exact floor
    · rename_i same
      rw [covered.capacity bucket found, show bucket.ratePerSec = rate by simpa using same, floor]

/-- Taking the whole tokens at one moment, and moving no more jobs than that, keeps the
bucket covered. -/
theorem Covered.take (covered : Covered queueId rate registry moves clock) (positive : 1 ≤ rate)
    {endAt : Time} {amount : Nat} (started : clock ≤ now) (ended : now ≤ endAt)
    (taken : after.buckets queueId = some
      ((registry.bucketFor queueId rate now).takeAvailable now).2)
    (within : (amount : ℚ) ≤ truncate (tokensAt registry queueId rate now)) :
    Covered queueId rate after (List.replicate amount now ++ moves) endAt := by
  have held := covered.held now started
  have enough := covered.covered now started
  have whole := truncate_le held
  have refills : (0 : ℚ) ≤ rate := Nat.cast_nonneg _
  refine ⟨?_, ?_, ?_⟩
  · intro bucket found
    cases Option.some.inj (found.symm.trans taken)
    show (registry.bucketFor queueId rate now).capacity =
      max (registry.bucketFor queueId rate now).ratePerSec 1
    rw [covered.bucketFor_capacity positive, bucketFor_rate]
    exact (max_eq_left (by exact_mod_cast positive)).symm
  · intro later passed
    have gained := mul_nonneg (sub_nonneg.mpr (ended.trans passed)) refills
    rw [tokensAt_taken taken, covered.bucketFor_capacity positive]
    simp only [exact_fl]
    exact le_min refills (by linarith)
  · intro later passed
    rw [tokensAt_taken taken, covered.bucketFor_capacity positive,
      level_later refills (ended.trans passed), level_batch]
    apply min_le_min_left
    simp only [exact_fl]
    linarith

/-- What a registry holds of a queue depends on the bucket of the queue alone. -/
theorem Covered.spared (covered : Covered queueId rate registry moves clock) {endAt : Time}
    (ended : clock ≤ endAt) (same : after.buckets queueId = registry.buckets queueId) :
    Covered queueId rate after moves endAt := by
  refine ⟨fun bucket found => covered.capacity bucket (same ▸ found), ?_, ?_⟩
  · intro now passed
    rw [tokensAt_spared same]
    exact covered.held now (ended.trans passed)
  · intro now passed
    rw [tokensAt_spared same]
    exact covered.covered now (ended.trans passed)

end Leader

variable {state after : Cluster} {action : Action} {queueId : Uuid} {rate : Nat}
  {replica : Replica}

/-- The leader's bucket is covered by the shared one, which is never overdrawn. -/
structure Led (queueId : Uuid) (rate : Nat) (replica : Replica) (state : Cluster) : Prop where
  steady : Steady queueId state
  bounded : Bounded queueId rate state
  covered : Covered queueId rate (state.registries replica) (movesOf queueId state.promoted)
    state.clock

theorem Led.within (led : Led queueId rate replica state) (alone : LedBy replica action)
    (timely : ∀ leader txNow visits endAt, action = .tick leader txNow visits endAt →
      ∀ visit ∈ visits, state.clock ≤ visit.readAt) :
    WithinShared queueId rate state action := by
  cases action with
  | tick leader txNow visits endAt =>
    obtain ⟨rfl, prompt⟩ := alone
    intro visit member _
    have started := timely _ _ _ _ rfl visit member
    rw [prompt visit member]
    have held := led.covered.held visit.readAt started
    calc (quota state.db (state.registries leader) txNow queueId rate visit.readAt : ℚ)
        ≤ truncate (tokensAt (state.registries leader) queueId rate visit.readAt) :=
          quota_le _ _ _ held
      _ ≤ tokensAt (state.registries leader) queueId rate visit.readAt := truncate_le held
      _ ≤ shared state queueId rate visit.readAt := led.covered.covered visit.readAt started
  | abort | others => trivial

theorem Led.step (positive : 1 ≤ rate) (led : Led queueId rate replica state)
    (rated : Rated queueId rate state action) (alone : LedBy replica action)
    (taken : Replicas.step state action = some after) : Led queueId rate replica after := by
  have steady := led.steady.step rated taken
  cases action with
  | tick leader txNow visits endAt =>
    obtain ⟨timely, visit, member, named, same, unique, done, served, keyed, rfl⟩ :=
      tick_serves led.steady.keyed rated taken
    have within := led.within alone fun _ _ _ _ equal visit member => by
      cases equal
      exact (timely.2.2 visit member).1
    obtain ⟨rfl, prompt⟩ := alone
    obtain ⟨started, moved, ended⟩ := timely.2.2 visit member
    refine ⟨steady, (bounded_step led.steady rated taken).mpr ⟨led.bounded, within⟩, ?_⟩
    have moves := served.moves
    have bucket := served.bucket
    rw [same] at moves bucket
    rw [movesOf_append, moves, prompt visit member]
    show Covered queueId rate (Function.update state.registries leader done.registry leader) _ endAt
    rw [Function.update_self]
    have held := led.covered.held visit.readAt started
    have covered := led.covered.take positive started (moved.trans ended) bucket
      (quota_le state.db (state.registries leader) txNow held)
    simpa [movesOf] using covered
  | abort leader txNow visits endAt =>
    obtain ⟨timely, once, limited, done, made, rfl⟩ := step_abort taken
    cases alone
    refine ⟨steady, led.bounded, ?_⟩
    show Covered queueId rate (Function.update state.registries replica done.registry replica) _ _
    rw [Function.update_self]
    by_cases visited : ∃ visit ∈ visits, visit.queueId = queueId
    · obtain ⟨visit, member, rfl⟩ := visited
      have same : (visit.queueId, visit.ratePerSec) = (visit.queueId, rate) :=
        List.inj_on_of_nodup_map (rateLimited_nodup led.steady.keyed) (limited visit member) rated rfl
      obtain ⟨started, moved, ended⟩ := timely.2.2 visit member
      have bucket := (visits_serve led.steady.keyed once member made).bucket
      rw [(Prod.mk.inj same).2] at bucket
      have held := led.covered.held visit.readAt started
      have none : ((0 : Nat) : ℚ) ≤
          truncate (tokensAt (state.registries replica) visit.queueId rate visit.readAt) := by
        exact_mod_cast truncate_nonneg held
      exact led.covered.take positive started (moved.trans ended) bucket none
    · refine led.covered.spared timely.1 (visits_spare led.steady.keyed ?_ made).bucket
      intro visit member same
      exact visited ⟨visit, member, same⟩
  | others db =>
    have bounded := (bounded_step led.steady rated taken).mpr ⟨led.bounded, trivial⟩
    obtain ⟨_, rfl⟩ := step_others taken
    exact ⟨steady, bounded, led.covered⟩

theorem initial_led (positive : 1 ≤ rate) : Led queueId rate replica {} := by
  have floor : max (rate : ℚ) 1 = rate := max_eq_left (by exact_mod_cast positive)
  have full : ∀ now, tokensAt {} queueId rate now = rate := by
    intro now
    show min (max (rate : ℚ) 1) (max (rate : ℚ) 1 + (now - now) * rate) = rate
    rw [floor, sub_self, zero_mul, add_zero, min_self]
  refine ⟨initial_steady, initial_bounded, ⟨fun _ found => (nomatch found), ?_, ?_⟩⟩
  · intro now _
    rw [full]
    exact Nat.cast_nonneg _
  · intro now _
    rw [full]
    exact le_refl _

/-- Where one replica leads throughout, and nothing is rounded, the bound holds. -/
theorem one_leader_bounded (positive : 1 ≤ rate)
    (reachable : cluster.Reachable (fun state action => Rated queueId rate state action ∧
      LedBy replica action) state) : Bounded queueId rate state := by
  have led : Led queueId rate replica state :=
    reachable.invariant (fun _ initial => initial ▸ initial_led positive)
      fun _ _ _ led permitted taken => led.step positive permitted.1 permitted.2 taken
  exact led.bounded

end OneLeader

/-- Two jobs of a queue with a limit of one a second are due. -/
def backlog : Db where
  queues := [{
    id := 1
    projectId := 0
    retryPolicyId := none
    name := "slow"
    priorityDefault := 0
    concurrencyLimit := 5
    rateLimitPerSec := some 1
    isPaused := false }]
  jobs := [2, 3].map fun id => { job := {
    id
    queueId := 1
    type := .delayed
    status := .scheduled
    priority := 0
    payload := "\x7b\x7d"
    handler := "noop"
    runAt := 0
    maxAttempts := 3 } }

def visitAt (now : Time) (jobId : Uuid) : Visit :=
  { queueId := 1, ratePerSec := 1, readAt := now, movedAt := now, picked := [jobId] }

/-- Two ticks, a second apart. -/
def paced : List Action := [
  .others backlog,
  .tick 0 0 [visitAt 0 2] 0,
  .tick 1 1 [visitAt 1 3] 1]

/-- The leadership changes between two ticks. -/
def handedOver : List Action := [
  .others backlog,
  .tick 0 0 [visitAt 0 2] 0,
  .tick 1 0 [visitAt 0 3] 0]

attribute [local instance] binary64

theorem rate_bounded_paced : ∃ state, cluster.run (Rated 1 1) {} paced = some state ∧
    movedIn state 1 0 1 = 2 ∧ (Bounded 1 1 state ↔
      cluster.run (fun state action => Rated 1 1 state action ∧ WithinShared 1 1 state action) {}
        paced = some state) := by
  have ran : (cluster.run (Rated 1 1) {} paced).any (fun state => movedIn state 1 0 1 = 2) = true := by
    decide +kernel
  cases result : cluster.run (Rated 1 1) {} paced with
  | none =>
    rw [result] at ran
    cases ran
  | some state =>
    rw [result] at ran
    exact ⟨state, rfl, by simpa using ran, rate_bounded result⟩

/-- Both replicas find a full bucket: two jobs are moved at one moment. -/
theorem leaders_burst : ∃ state, cluster.run (Rated 1 1) {} handedOver = some state ∧
    ¬ Bounded 1 1 state := by
  have ran : (cluster.run (Rated 1 1) {} handedOver).any (fun state => movedIn state 1 0 0 = 2) =
      true := by
    decide +kernel
  cases result : cluster.run (Rated 1 1) {} handedOver with
  | none =>
    rw [result] at ran
    cases ran
  | some state =>
    rw [result] at ran
    refine ⟨state, rfl, ?_⟩
    intro bounded
    have burst := bounded 0 0 (le_refl 0)
    rw [show movedIn state 1 0 0 = 2 by simpa using ran] at burst
    norm_num at burst

end Pulse.Replicas
