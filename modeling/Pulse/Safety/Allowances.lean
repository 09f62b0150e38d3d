import Pulse.Safety.Rates

/-! How many jobs of a queue with a rate limit one scheduler process promotes at each
tick, against an ideal bucket which is charged for promoted jobs only and rounds nothing. -/
namespace Pulse.Replicas
open Library.Lts Library.Bucket Library.Rounding Arithmetic

/-- Every tick is this process's. -/
def Alone (replica : Replica) : Action → Prop
  | .tick leader .. | .abort leader .. => leader = replica
  | .others _ => True

instance (replica : Replica) : (action : Action) → Decidable (Alone replica action)
  | .tick .. | .abort .. => inferInstanceAs (Decidable (_ = _))
  | .others _ => isTrue trivial

/-- The capacity which `TokenBucket` gives a bucket of the rate. -/
def fullAt (rate : Nat) : ℚ := max (rate : ℚ) 1

/-- A committed tick found `due` jobs of the queue and promoted `promoted` of them, with
`level` in the ideal bucket; `quiet` where it had promoted none for a second. -/
structure Service where
  due : Nat
  level : ℚ
  promoted : Nat
  quiet : Bool
deriving DecidableEq, Repr

/-- The tick promoted what is due, as far as the ideal bucket has tokens. -/
def Service.Exact (rate : Nat) (service : Service) : Prop :=
  service.promoted = min service.due ⌊service.level⌋.toNat ∧
    (service.quiet = true → 1 ≤ rate → service.promoted = min service.due rate)

instance (rate : Nat) (service : Service) : Decidable (service.Exact rate) :=
  inferInstanceAs (Decidable (_ ∧ _))

/-- Auxiliary: when the ideal bucket of the queue was charged, newest first; what the
process's bucket would have held more after its last visit, as far as there was room, had
earlier ticks left the tokens for which they promoted no job and had nothing been rounded;
and what the ticks which visited the queue did, newest first. -/
structure Ledger where
  draws : List Time := []
  lacks : ℚ := 0
  services : List Service := []
deriving DecidableEq, Repr

/-- What the process's bucket would hold more, were it not for these ticks and roundings. -/
def Ledger.missing [Arithmetic] (ledger : Ledger) (bucket : TokenBucket) (now : Time) : ℚ :=
  let refilled := bucket.tokens + (now - bucket.lastRefill) * bucket.ratePerSec
  min bucket.capacity (refilled + ledger.lacks) - (bucket.refill now).tokens

/-- A visit takes the whole tokens and promotes `amount` jobs. -/
def Ledger.take [Arithmetic] (ledger : Ledger) (bucket : TokenBucket) (amount : Nat)
    (now : Time) : Ledger :=
  let taken := bucket.takeAvailable now
  let unused : ℚ := taken.1 - amount
  let rounded := (bucket.refill now).tokens - taken.1 - taken.2.tokens
  { ledger with
    draws := List.replicate amount now ++ ledger.draws
    lacks := ledger.missing bucket now + unused + rounded }

/-- How many jobs of the queue a step promotes. -/
def promotedBy [Arithmetic] (queueId : Uuid) (state : Cluster) (action : Action) : Nat :=
  ((step state action).elim 0 fun after => (movesOf queueId after.promoted).length) -
    (movesOf queueId state.promoted).length

def Ledger.note [Arithmetic] (queueId : Uuid) (rate : Nat) (state : Cluster) (action : Action)
    (ledger : Ledger) : Ledger :=
  match action with
  | .tick replica txNow visits _ =>
    match visits.find? fun visit => visit.queueId = queueId with
    | some visit =>
      let amount := promotedBy queueId state action
      let bucket := (state.registries replica).bucketFor queueId rate visit.readAt
      { ledger.take bucket amount visit.readAt with
        services := {
          due := (state.db.dueIn queueId txNow).length
          level := level (fullAt rate) rate ledger.draws visit.readAt
          promoted := amount
          quiet := ledger.draws.all fun time => time ≤ visit.readAt - 1 } :: ledger.services }
    | none => ledger
  | .abort replica _ visits _ =>
    match visits.find? fun visit => visit.queueId = queueId with
    | some visit =>
      ledger.take ((state.registries replica).bucketFor queueId rate visit.readAt) 0 visit.readAt
    | none => ledger
  | .others _ => ledger

/-- The replicas, with the ledger of a queue. -/
def charged [Arithmetic] (queueId : Uuid) (rate : Nat) : Machine (Cluster × Ledger) Action :=
  cluster.recorded (fun ledger => ledger = {}) (Ledger.note queueId rate)

/-- One process runs all ticks, and the queue has this limit. -/
def Single (queueId : Uuid) (rate : Nat) (replica : Replica) (pair : Cluster × Ledger)
    (action : Action) : Prop :=
  Rated queueId rate pair.1 action ∧ Alone replica action

instance (queueId : Uuid) (rate : Nat) (replica : Replica) (pair : Cluster × Ledger)
    (action : Action) : Decidable (Single queueId rate replica pair action) :=
  inferInstanceAs (Decidable (_ ∧ _))

/-- Where there are more due jobs than whole tokens, or than there would be with what is
missing, the two are as many. -/
def Unmissed [Arithmetic] (queueId : Uuid) (rate : Nat) (pair : Cluster × Ledger) : Action → Prop
  | .tick replica txNow visits _ => ∀ visit ∈ visits, visit.queueId = queueId →
      let due := (pair.1.db.dueIn queueId txNow).length
      let bucket := (pair.1.registries replica).bucketFor queueId rate visit.readAt
      let tokens := (bucket.refill visit.readAt).tokens
      let whole := (truncate tokens).toNat
      let without := ⌊tokens + pair.2.missing bucket visit.readAt⌋.toNat
      (due ≤ whole ∧ due ≤ without) ∨ whole = without
  | .abort .. | .others _ => True

instance [Arithmetic] (queueId : Uuid) (rate : Nat) (pair : Cluster × Ledger) :
    (action : Action) → Decidable (Unmissed queueId rate pair action)
  | .tick .. => inferInstanceAs (Decidable (∀ _ ∈ _, _ → _ ∨ _))
  | .abort .. | .others _ => isTrue trivial

/-- Every committed tick promoted what the ideal bucket allows. -/
def Spent (rate : Nat) (pair : Cluster × Ledger) : Prop :=
  ∀ service ∈ pair.2.services, service.Exact rate

section Backing
variable [Arithmetic] {registry after : RateLimiterRegistry} {queueId : Uuid} {rate : Nat}
  {ledger : Ledger} {bucket : TokenBucket} {clock now later endAt : Time}

omit [Arithmetic] in
theorem fullAt_nonneg : 0 ≤ fullAt rate := le_max_of_le_right zero_le_one

/-- With what is missing, nothing is rounded. -/
theorem Ledger.add_missing : (bucket.refill now).tokens + ledger.missing bucket now =
    min bucket.capacity (bucket.tokens + (now - bucket.lastRefill) * bucket.ratePerSec +
      ledger.lacks) :=
  add_sub_cancel _ _

/-- The ideal bucket holds what the process's bucket holds and what that one lacks. -/
structure Backed (queueId : Uuid) (rate : Nat) (registry : RateLimiterRegistry) (ledger : Ledger)
    (clock : Time) : Prop where
  capacity : ∀ now, (registry.bucketFor queueId rate now).capacity = fullAt rate
  past : ∀ time ∈ ledger.draws, time ≤ clock
  level : ∀ now, clock ≤ now → level (fullAt rate) rate ledger.draws now =
    ((registry.bucketFor queueId rate now).refill now).tokens +
      ledger.missing (registry.bucketFor queueId rate now) now

/-- Taking the whole tokens, for any number of jobs. -/
theorem Backed.take (backed : Backed queueId rate registry ledger clock) (amount : Nat)
    (started : clock ≤ now) (ended : now ≤ endAt)
    (taken : after.buckets queueId = some
      ((registry.bucketFor queueId rate now).takeAvailable now).2) :
    Backed queueId rate after
      (ledger.take (registry.bucketFor queueId rate now) amount now) endAt := by
  have refills : (0 : ℚ) ≤ rate := Nat.cast_nonneg _
  refine ⟨?_, ?_, ?_⟩
  · intro later
    rw [bucketFor_taken taken]
    exact backed.capacity now
  · intro time member
    rcases List.mem_append.mp member with drawn | old
    · rw [List.eq_of_mem_replicate drawn]
      exact ended
    · exact (backed.past time old).trans (started.trans ended)
  · intro later passed
    have capacity : ((registry.bucketFor queueId rate now).takeAvailable now).2.capacity =
        fullAt rate := backed.capacity now
    have rated : ((registry.bucketFor queueId rate now).takeAvailable now).2.ratePerSec = rate :=
      bucketFor_rate
    rw [Ledger.add_missing, bucketFor_taken taken, capacity, rated]
    show Library.Bucket.level _ _ (List.replicate amount now ++ ledger.draws) later = _
    rw [level_later refills (ended.trans passed), level_batch, backed.level now started]
    congr 1
    show _ = _ + (later - now) * _ + (ledger.missing _ now + _ + _)
    ring

theorem Backed.spared (backed : Backed queueId rate registry ledger clock) (ended : clock ≤ endAt)
    (same : after.buckets queueId = registry.buckets queueId) :
    Backed queueId rate after ledger endAt := by
  have kept : ∀ now, after.bucketFor queueId rate now = registry.bucketFor queueId rate now := by
    intro now
    simp only [RateLimiterRegistry.bucketFor, same]
  refine ⟨?_, fun time member => (backed.past time member).trans ended, ?_⟩
  · intro now
    rw [kept]
    exact backed.capacity now
  · intro now passed
    rw [kept]
    exact backed.level now (ended.trans passed)

theorem initial_backed : Backed queueId rate {} {} clock := by
  refine ⟨fun _ => rfl, by simp, ?_⟩
  intro now _
  rw [Ledger.add_missing]
  show fullAt rate = min (fullAt rate) (fullAt rate + (now - now) * rate + 0)
  rw [sub_self, zero_mul, add_zero, add_zero, min_self]

omit [Arithmetic] in
/-- A second without a draw fills the ideal bucket. -/
theorem level_quiet (conforms : Conforms (fullAt rate) rate ledger.draws) (positive : 1 ≤ rate)
    (quiet : ∀ time ∈ ledger.draws, time ≤ now - 1) :
    Library.Bucket.level (fullAt rate) rate ledger.draws now = rate := by
  have full : fullAt rate = rate := max_eq_left (by exact_mod_cast positive)
  rw [level_rested conforms, full]
  intro time member
  have passed := quiet time member
  have refills : (0 : ℚ) ≤ rate := Nat.cast_nonneg _
  rw [full]
  exact le_mul_of_one_le_right refills (by linarith)

/-- A visit is exact if and only if nothing missing would have changed how many jobs it
promotes. -/
theorem Backed.exact_iff (backed : Backed queueId rate registry ledger clock)
    (conforms : Conforms (fullAt rate) rate ledger.draws) (started : clock ≤ now) (due : Nat) :
    let bucket := registry.bucketFor queueId rate now
    let whole := (truncate (bucket.refill now).tokens).toNat
    let without := ⌊(bucket.refill now).tokens + ledger.missing bucket now⌋.toNat
    Service.Exact rate {
      due
      level := Library.Bucket.level (fullAt rate) rate ledger.draws now
      promoted := min whole due
      quiet := ledger.draws.all fun time => time ≤ now - 1 } ↔
    (due ≤ whole ∧ due ≤ without) ∨ whole = without := by
  intro bucket whole without
  have quiet := @level_quiet rate ledger now conforms
  simp only [Service.Exact]
  rw [backed.level now started] at quiet ⊢
  change min whole due = min due without ∧ _ ↔ _
  constructor
  · rintro ⟨exact', _⟩
    omega
  · intro unmissed
    have exact' : min whole due = min due without := by omega
    refine ⟨exact', fun rested positive => ?_⟩
    rw [exact']
    show min due ⌊_⌋.toNat = _
    rw [quiet positive (by simpa using rested), Int.floor_natCast, Int.toNat_natCast]

omit [Arithmetic] in
/-- What the ideal bucket allows does not overdraw it. -/
theorem conforms_allowed (conforms : Conforms (fullAt rate) rate ledger.draws)
    (past : ∀ time ∈ ledger.draws, time ≤ now) (due : Nat) :
    Conforms (fullAt rate) rate (List.replicate (min due
      ⌊Library.Bucket.level (fullAt rate) rate ledger.draws now⌋.toNat) now ++ ledger.draws) := by
  have refills : (0 : ℚ) ≤ rate := Nat.cast_nonneg _
  refine (conforms_batch fullAt_nonneg refills _ past).mpr ⟨conforms, ?_⟩
  have left := level_nonneg fullAt_nonneg refills conforms past
  rw [Int.floor_toNat]
  refine le_trans ?_ (Nat.floor_le left)
  exact_mod_cast Nat.min_le_right _ _

end Backing

section Ticks
variable {pair next : Cluster × Ledger} {action : Action} {queueId : Uuid} {rate : Nat}
  {replica : Replica} {visits : List Visit}

theorem find_visit {visit : Visit} (member : visit ∈ visits) (named : visit.queueId = queueId)
    (unique : ∀ other ∈ visits, other.queueId = queueId → other = visit) :
    (visits.find? fun other => other.queueId = queueId) = some visit := by
  cases found : visits.find? fun other => other.queueId = queueId with
  | none => exact absurd named (by simpa using List.find?_eq_none.mp found visit member)
  | some other =>
    rw [unique other (List.mem_of_find?_eq_some found) (by simpa using List.find?_some found)]

variable [Arithmetic]

/-- The process's bucket backs the ideal one, which is not overdrawn while the law holds. -/
structure Balanced (queueId : Uuid) (rate : Nat) (replica : Replica) (pair : Cluster × Ledger) :
    Prop where
  keyed : pair.1.db.Keyed
  backed : Backed queueId rate (pair.1.registries replica) pair.2 pair.1.clock
  conforms : Spent rate pair → Conforms (fullAt rate) rate pair.2.draws

/-- What a tick does to the ledger. -/
theorem note_tick {txNow endAt : Time} (keyed : pair.1.db.Keyed)
    (rated : (queueId, rate) ∈ pair.1.db.rateLimited)
    (taken : (charged queueId rate).step pair (.tick replica txNow visits endAt) = some next) :
    ∃ visit ∈ visits, (∀ other ∈ visits, other.queueId = queueId → other = visit) ∧
      visit.queueId = queueId ∧ pair.1.clock ≤ visit.readAt ∧ visit.readAt ≤ endAt ∧
      next.1.clock = endAt ∧ next.1.db.Keyed ∧
      let bucket := (pair.1.registries replica).bucketFor queueId rate visit.readAt
      let due := (pair.1.db.dueIn queueId txNow).length
      let amount := min (truncate (bucket.refill visit.readAt).tokens).toNat due
      (next.1.registries replica).buckets queueId = some (bucket.takeAvailable visit.readAt).2 ∧
      next.2 = { pair.2.take bucket amount visit.readAt with
        services := {
          due
          level := level (fullAt rate) rate pair.2.draws visit.readAt
          promoted := amount
          quiet := pair.2.draws.all fun time => time ≤ visit.readAt - 1 } :: pair.2.services } := by
  obtain ⟨stepped, noted⟩ := Machine.recorded_step taken
  obtain ⟨timely, visit, member, named, same, unique, done, served, stored, made⟩ :=
    tick_serves keyed rated stepped
  obtain ⟨started, moved, ended⟩ := timely.2.2 visit member
  have bucket := served.bucket
  have moves := served.moves
  rw [same] at bucket moves
  refine ⟨visit, member, unique, named, started, moved.trans ended, ?_, ?_, ?_, ?_⟩
  · rw [made]
    rfl
  · rw [made]
    exact stored
  · rw [made]
    have own : Function.update pair.1.registries replica done.registry replica = done.registry :=
      Function.update_self ..
    exact (congrArg (fun registry => registry.buckets queueId) own).trans bucket
  · have amount : promotedBy queueId pair.1 (.tick replica txNow visits endAt) =
        quota pair.1.db (pair.1.registries replica) txNow queueId rate visit.readAt := by
      have stepped : step pair.1 (.tick replica txNow visits endAt) = some next.1 := stepped
      rw [promotedBy, stepped, made]
      show (movesOf queueId (done.moves ++ pair.1.promoted)).length - _ = _
      rw [movesOf_append, moves]
      simp [movesOf]
    rw [noted, Ledger.note, find_visit member named unique]
    simp only [amount]
    rfl

/-- While the law holds, the jobs of a tick do not overdraw the ideal bucket. -/
theorem Balanced.tick {txNow endAt : Time} (balanced : Balanced queueId rate replica pair)
    (rated : (queueId, rate) ∈ pair.1.db.rateLimited)
    (taken : (charged queueId rate).step pair (.tick replica txNow visits endAt) = some next) :
    Balanced queueId rate replica next := by
  obtain ⟨visit, _, _, _, started, ended, clock, keyed, bucket, noted⟩ :=
    note_tick balanced.keyed rated taken
  have charged := balanced.backed.take (min (truncate (((pair.1.registries replica).bucketFor
    queueId rate visit.readAt).refill visit.readAt).tokens).toNat
      (pair.1.db.dueIn queueId txNow).length) started ended bucket
  refine ⟨keyed, ?_, ?_⟩
  · rw [clock, noted]
    exact ⟨charged.capacity, charged.past, charged.level⟩
  · intro spent
    rw [Spent, noted, List.forall_mem_cons] at spent
    obtain ⟨exact', spent⟩ := spent
    rw [noted]
    have allowed := conforms_allowed (balanced.conforms spent)
      (fun time member => (balanced.backed.past time member).trans started)
      (pair.1.db.dueIn queueId txNow).length
    rw [← exact'.1] at allowed
    exact allowed

theorem Balanced.step (balanced : Balanced queueId rate replica pair)
    (single : Single queueId rate replica pair action)
    (taken : (charged queueId rate).step pair action = some next) :
    Balanced queueId rate replica next := by
  obtain ⟨rated, alone⟩ := single
  have backed := balanced.backed
  cases action with
  | tick leader txNow visits endAt =>
    cases alone
    exact balanced.tick rated taken
  | abort leader txNow visits endAt =>
    cases alone
    obtain ⟨stepped, noted⟩ := Machine.recorded_step taken
    obtain ⟨timely, once, limited, done, made, after⟩ := step_abort stepped
    have registry : next.1.registries replica = done.registry := by
      rw [after]
      exact Function.update_self ..
    have clock : next.1.clock = endAt := by
      rw [after]
      rfl
    rw [Ledger.note] at noted
    cases found : visits.find? fun visit => visit.queueId = queueId with
    | some visit =>
      rw [found] at noted
      have member := List.mem_of_find?_eq_some found
      have named : visit.queueId = queueId := by simpa using List.find?_some found
      have same : (visit.queueId, visit.ratePerSec) = (queueId, rate) :=
        List.inj_on_of_nodup_map (rateLimited_nodup balanced.keyed) (limited visit member) rated named
      obtain ⟨started, moved, ended⟩ := timely.2.2 visit member
      have bucket := (visits_serve balanced.keyed once member made).bucket
      rw [(Prod.mk.inj same).2, named] at bucket
      refine ⟨by rw [after]; exact balanced.keyed, ?_, ?_⟩
      · rw [registry, clock, noted]
        exact backed.take 0 started (moved.trans ended) bucket
      · rw [Spent, noted]
        exact balanced.conforms
    | none =>
      rw [found] at noted
      refine ⟨by rw [after]; exact balanced.keyed, ?_, ?_⟩
      · rw [registry, clock, noted]
        refine backed.spared timely.1 (visits_spare balanced.keyed ?_ made).bucket
        intro visit member
        simpa using List.find?_eq_none.mp found visit member
      · rw [Spent, noted]
        exact balanced.conforms
  | others db =>
    obtain ⟨stepped, noted⟩ := Machine.recorded_step taken
    obtain ⟨keyed, after⟩ := step_others stepped
    rw [Ledger.note] at noted
    refine ⟨by rw [after]; exact keyed, ?_, ?_⟩
    · rw [noted, after]
      exact backed
    · rw [Spent, noted]
      exact balanced.conforms

/-- A step keeps the law if and only if no missing token would have been needed. -/
theorem spent_step (balanced : Balanced queueId rate replica pair)
    (single : Single queueId rate replica pair action)
    (taken : (charged queueId rate).step pair action = some next) :
    Spent rate next ↔ Spent rate pair ∧ Unmissed queueId rate pair action := by
  obtain ⟨rated, alone⟩ := single
  cases action with
  | tick leader txNow visits endAt =>
    cases alone
    obtain ⟨visit, member, unique, named, started, _, _, _, _, noted⟩ :=
      note_tick balanced.keyed rated taken
    have unmissed : Unmissed queueId rate pair (.tick replica txNow visits endAt) ↔ _ :=
      ⟨fun all => all visit member named, fun own other listed same => by
        rw [unique other listed same]
        exact own⟩
    rw [Spent, noted, List.forall_mem_cons, unmissed, and_comm]
    refine and_congr_right fun spent => ?_
    exact balanced.backed.exact_iff (balanced.conforms spent) started
      (pair.1.db.dueIn queueId txNow).length
  | abort leader txNow visits endAt =>
    obtain ⟨_, noted⟩ := Machine.recorded_step taken
    have same : next.2.services = pair.2.services := by
      rw [noted, Ledger.note]
      split <;> rfl
    rw [Spent, same]
    exact (and_iff_left trivial).symm
  | others db =>
    obtain ⟨_, noted⟩ := Machine.recorded_step taken
    rw [Spent, noted]
    exact (and_iff_left trivial).symm

theorem initial_balanced : Balanced queueId rate replica ({}, {}) :=
  ⟨⟨List.nodup_nil, List.nodup_nil⟩, initial_backed, fun _ => trivial⟩

end Ticks

/-- The queue without its jobs, whose limit is two a second. -/
def idleQueue : Db where
  queues := backlog.queues.map fun queue => { queue with rateLimitPerSec := some 2 }

/-- Two jobs arrive. -/
def arrived : Db := { idleQueue with jobs := backlog.jobs }

def visitPair (now : Time) (picked : List Uuid) : Visit :=
  { queueId := 1, ratePerSec := 2, readAt := now, movedAt := now, picked }

/-- A tick which finds the queue empty, and one a second later. -/
def rested : List Action := [
  .others idleQueue,
  .tick 0 0 [visitPair 0 []] 0,
  .others arrived,
  .tick 0 1 [visitPair 1 [2, 3]] 1]

/-- A tick which finds the queue empty half a second before the jobs are due, long after the start. -/
def drained : List Action := [
  .others idleQueue,
  .tick 0 5 [visitPair 5 []] 5,
  .others arrived,
  .tick 0 (11 / 2) [visitPair (11 / 2) [2]] (11 / 2)]

attribute [local instance] binary64

/-- The queue with four jobs due. -/
def crowded : Db := { arrived with jobs := arrived.jobs ++ arrived.jobs.map fun record =>
  { record with job := { record.job with id := record.job.id + 2 } } }

/-- The third tick leaves 0.7999999999999998 tokens, a tenth of a second before the last. -/
def crowdedTicks : List Action := [
  .others crowded,
  .tick 0 0 [visitPair 0 [2, 3]] 0,
  .tick 0 (fl (1 / 5)) [visitPair (fl (1 / 5)) []] (fl (1 / 5)),
  .tick 0 (fl (9 / 10)) [visitPair (fl (9 / 10)) [4]] (fl (9 / 10)),
  .tick 0 1 [visitPair 1 []] 1]

example : ((charged 1 2).run (Single 1 2 0) ({}, {}) crowdedTicks).map (fun pair =>
    pair.2.services.map fun service => (service.promoted, ⌊service.level⌋)) =
      some [(0, 1), (1, 1), (0, 0), (2, 2)] := by
  decide +kernel

end Pulse.Replicas
