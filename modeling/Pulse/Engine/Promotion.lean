import Pulse.Core.RateLimit
import Pulse.Engine.Scheduler

/-! `promote_due_jobs`, with no other transaction between its statements. -/
namespace Pulse
open Library.Rounding

/-- The queues with a limit, and their rates. -/
def Db.rateLimited (db : Db) : List (Uuid × Nat) :=
  db.queues.filterMap fun queue => queue.rateLimitPerSec.map fun rate => (queue.id, rate)

def Db.dueIn (db : Db) (queueId : Uuid) (txNow : Time) : List Job :=
  (db.jobs.map JobRecord.job).filter fun job => job.queueId = queueId && job.due txNow

/-- `UPDATE jobs SET status = 'queued' WHERE id IN (...)`. -/
def Db.promote (db : Db) (ids : List Uuid) : Db :=
  { db with jobs := db.jobs.map fun record =>
      if record.job.id ∈ ids then record.promote else record }

/-- A job was moved to `queued`. -/
structure Promoted where
  jobId : Uuid
  queueId : Uuid
  movedAt : Time
deriving DecidableEq, Repr

def Db.moves (db : Db) (ids : List Uuid) (movedAt : Time) : List Promoted :=
  (db.jobs.filter fun record => record.job.id ∈ ids).map fun record =>
    { jobId := record.job.id, queueId := record.job.queueId, movedAt }

/-- One iteration of the loop over the queues with a limit: when its bucket is read,
when its rows are moved, and which rows the subquery returned. -/
structure Visit where
  queueId : Uuid
  ratePerSec : Nat
  readAt : Time
  movedAt : Time
  picked : List Uuid := []
deriving DecidableEq, Repr

/-- What a run of `promote_due_jobs` has done so far, the newest move first. -/
structure Promotion where
  db : Db
  registry : RateLimiterRegistry
  moves : List Promoted := []

/-- `_promote_rate_limited_queue`. -/
def promoteRateLimitedQueue [Arithmetic] (txNow : Time) (progress : Promotion) (visit : Visit) :
    Option Promotion :=
  let taken := progress.registry.takeAvailable visit.queueId visit.ratePerSec visit.readAt
  if taken.1 ≤ 0 then some { progress with registry := taken.2 }
  else if Takes (progress.db.dueIn visit.queueId txNow) taken.1.toNat visit.picked then
    some {
      db := progress.db.promote visit.picked
      registry := taken.2
      moves := progress.db.moves visit.picked visit.movedAt ++ progress.moves }
  else none

def promoteRateLimited [Arithmetic] (txNow : Time) : Promotion → List Visit → Option Promotion
  | progress, [] => some progress
  | progress, visit :: rest =>
    (promoteRateLimitedQueue txNow progress visit).bind fun next =>
      promoteRateLimited txNow next rest

/-- The UPDATE of the other queues. -/
def promoteUnlimited (txNow movedAt : Time) (limited : List Uuid) (progress : Promotion) :
    Promotion :=
  let ids := ((progress.db.jobs.map JobRecord.job).filter fun job =>
    job.due txNow && job.queueId ∉ limited).map Job.id
  { progress with
    db := progress.db.promote ids
    moves := progress.db.moves ids movedAt ++ progress.moves }

def promoteDueJobs [Arithmetic] (db : Db) (registry : RateLimiterRegistry) (txNow movedAt : Time)
    (visits : List Visit) : Option Promotion :=
  if (visits.map fun visit => (visit.queueId, visit.ratePerSec)).Perm db.rateLimited then
    (promoteRateLimited txNow { db, registry } visits).map
      (promoteUnlimited txNow movedAt (db.rateLimited.map Prod.fst))
  else none

/-- Primary keys are unique. -/
structure Db.Keyed (db : Db) : Prop where
  queues : (db.queues.map Queue.id).Nodup
  jobs : (db.jobs.map fun record => record.job.id).Nodup

instance (db : Db) : Decidable db.Keyed :=
  decidable_of_iff ((db.queues.map Queue.id).Nodup ∧ (db.jobs.map fun record => record.job.id).Nodup)
    ⟨fun keyed => ⟨keyed.1, keyed.2⟩, fun keyed => ⟨keyed.queues, keyed.jobs⟩⟩

/-- A queue has at most one limit. -/
theorem rateLimited_nodup {db : Db} (keyed : db.Keyed) : (db.rateLimited.map Prod.fst).Nodup := by
  refine keyed.queues.sublist ?_
  rw [Db.rateLimited]
  induction db.queues with
  | nil => exact .slnil
  | cons queue rest ih =>
    cases limit : queue.rateLimitPerSec with
    | none =>
      rw [List.filterMap_cons_none (by simp [limit])]
      exact ih.cons _
    | some rate =>
      rw [List.filterMap_cons_some (by rw [limit]; rfl)]
      exact ih.cons_cons _

/-- The times at which jobs of a queue were moved. -/
def movesOf (queueId : Uuid) (moves : List Promoted) : List Time :=
  (moves.filter fun move => move.queueId = queueId).map Promoted.movedAt

section Moves
variable {db : Db} {ids : List Uuid} {movedAt txNow : Time} {queueId : Uuid}

theorem movesOf_append (first second : List Promoted) :
    movesOf queueId (first ++ second) = movesOf queueId first ++ movesOf queueId second := by
  simp [movesOf]

theorem promote_keyed (keyed : db.Keyed) : (db.promote ids).Keyed := by
  refine ⟨keyed.queues, ?_⟩
  have same : (db.promote ids).jobs.map (fun record => record.job.id) =
      db.jobs.map fun record => record.job.id := by
    simp only [Db.promote, List.map_map]
    apply List.map_congr_left
    intro record _
    simp only [Function.comp]
    split <;> rfl
  rw [same]
  exact keyed.jobs

/-- An UPDATE of rows of other queues leaves what is due in this one. -/
theorem dueIn_promote (others : ∀ record ∈ db.jobs, record.job.id ∈ ids →
    record.job.queueId ≠ queueId) : (db.promote ids).dueIn queueId txNow = db.dueIn queueId txNow := by
  simp only [Db.dueIn, Db.promote, List.map_map, List.filter_map]
  have same : ∀ record ∈ db.jobs,
      ((fun job : Job => job.queueId = queueId && job.due txNow) ∘ JobRecord.job ∘ fun record =>
        if record.job.id ∈ ids then record.promote else record) record =
      ((fun job : Job => job.queueId = queueId && job.due txNow) ∘ JobRecord.job) record := by
    intro record member
    simp only [Function.comp]
    split
    · rename_i written
      have other := others record member written
      simp [JobRecord.promote, other]
    · rfl
  rw [List.filter_congr same]
  apply List.map_congr_left
  intro record kept
  obtain ⟨member, due⟩ := List.mem_filter.mp kept
  have unwritten : record.job.id ∉ ids := by
    intro written
    have other := others record member written
    simp [other] at due
  simp [unwritten]

/-- Moves of other queues' jobs. -/
theorem movesOf_others (others : ∀ record ∈ db.jobs, record.job.id ∈ ids →
    record.job.queueId ≠ queueId) : movesOf queueId (db.moves ids movedAt) = [] := by
  simp only [movesOf, Db.moves, List.map_eq_nil_iff, List.filter_eq_nil_iff]
  intro move member
  obtain ⟨record, kept, rfl⟩ := List.mem_map.mp member
  obtain ⟨present, written⟩ := List.mem_filter.mp kept
  simpa using others record present (by simpa using written)

/-- Every job which the subquery returned is one of the queue's. -/
theorem picked_queue (keyed : db.Keyed) {limit : Nat}
    (takes : Takes (db.dueIn queueId txNow) limit ids) :
    ∀ record ∈ db.jobs, record.job.id ∈ ids → record.job.queueId = queueId := by
  intro record member picked
  obtain ⟨job, eligible, same⟩ := takes.2.2.1 _ picked
  obtain ⟨listed, due⟩ := List.mem_filter.mp eligible
  obtain ⟨row, present, rfl⟩ := List.mem_map.mp listed
  rw [unique_record keyed.jobs member present same.symm]
  simp only [Bool.and_eq_true, decide_eq_true_eq] at due
  exact due.1

/-- An UPDATE by id reaches each of the rows once. -/
theorem written_length (keyed : db.Keyed) (distinct : ids.Nodup)
    (present : ∀ id ∈ ids, ∃ record ∈ db.jobs, record.job.id = id) :
    (db.jobs.filter fun record => record.job.id ∈ ids).length = ids.length := by
  have written : ((db.jobs.map fun record => record.job.id).filter (· ∈ ids)).Perm ids := by
    refine (List.perm_ext_iff_of_nodup (keyed.jobs.filter _) distinct).mpr ?_
    intro id
    refine ⟨fun member => by simpa using List.of_mem_filter member, ?_⟩
    intro listed
    obtain ⟨record, member, rfl⟩ := present id listed
    exact List.mem_filter.mpr ⟨List.mem_map.mpr ⟨record, member, rfl⟩, by simpa using listed⟩
  rw [← written.length_eq, List.filter_map, List.length_map]
  rfl

theorem picked_present {limit : Nat} (takes : Takes (db.dueIn queueId txNow) limit ids) :
    ∀ id ∈ ids, ∃ record ∈ db.jobs, record.job.id = id := by
  intro id listed
  obtain ⟨job, eligible, rfl⟩ := takes.2.2.1 id listed
  obtain ⟨record, member, rfl⟩ := List.mem_map.mp (List.mem_of_mem_filter eligible)
  exact ⟨record, member, rfl⟩

/-- As many jobs are moved as the subquery returned. -/
theorem movesOf_picked (keyed : db.Keyed) {limit : Nat}
    (takes : Takes (db.dueIn queueId txNow) limit ids) :
    movesOf queueId (db.moves ids movedAt) =
      List.replicate (min limit (db.dueIn queueId txNow).length) movedAt := by
  have own := picked_queue keyed takes
  have all : (db.moves ids movedAt).filter (fun move => move.queueId = queueId) =
      db.moves ids movedAt := by
    apply List.filter_eq_self.mpr
    intro move member
    obtain ⟨record, kept, rfl⟩ := List.mem_map.mp member
    obtain ⟨present, written⟩ := List.mem_filter.mp kept
    simpa using own record present (by simpa using written)
  rw [movesOf, all, Db.moves, List.map_map]
  rw [show (Promoted.movedAt ∘ fun record : JobRecord =>
      ({ jobId := record.job.id, queueId := record.job.queueId, movedAt } : Promoted)) =
    fun _ => movedAt from rfl, List.map_const', written_length keyed takes.1 (picked_present takes),
    takes.2.1]

end Moves

/-! What a visit does to its own queue, and what to the others. -/

/-- How many jobs of a queue a visit moves: no more than are due, no more than there
are whole tokens. -/
def quota [Arithmetic] (db : Db) (registry : RateLimiterRegistry) (txNow : Time) (queueId : Uuid)
    (ratePerSec : Nat) (readAt : Time) : Nat :=
  min (registry.takeAvailable queueId ratePerSec readAt).1.toNat (db.dueIn queueId txNow).length

structure Spares (queueId : Uuid) (before after : Promotion) : Prop where
  due : ∀ txNow, after.db.dueIn queueId txNow = before.db.dueIn queueId txNow
  bucket : after.registry.buckets queueId = before.registry.buckets queueId
  moves : movesOf queueId after.moves = movesOf queueId before.moves

structure Serves [Arithmetic] (queueId : Uuid) (txNow : Time) (visit : Visit)
    (before after : Promotion) : Prop where
  bucket : after.registry.buckets queueId = some
    ((before.registry.bucketFor queueId visit.ratePerSec visit.readAt).takeAvailable visit.readAt).2
  moves : movesOf queueId after.moves =
    List.replicate (quota before.db before.registry txNow queueId visit.ratePerSec visit.readAt)
      visit.movedAt ++ movesOf queueId before.moves

section Visits
variable {txNow : Time} {before after : Promotion} {visit : Visit} {queueId : Uuid}

theorem Spares.trans {middle : Promotion} (first : Spares queueId before middle)
    (second : Spares queueId middle after) : Spares queueId before after :=
  ⟨fun txNow => (second.due txNow).trans (first.due txNow), second.bucket.trans first.bucket,
    second.moves.trans first.moves⟩

/-- The UPDATE of the other queues spares the queues with a limit. -/
theorem unlimited_spares {movedAt : Time} {limited : List Uuid} (keyed : before.db.Keyed)
    (listed : queueId ∈ limited) :
    Spares queueId before (promoteUnlimited txNow movedAt limited before) := by
  have others : ∀ record ∈ before.db.jobs, record.job.id ∈
      ((before.db.jobs.map JobRecord.job).filter fun job =>
        job.due txNow && job.queueId ∉ limited).map Job.id → record.job.queueId ≠ queueId := by
    intro record member written same
    obtain ⟨job, kept, equal⟩ := List.mem_map.mp written
    obtain ⟨present, due⟩ := List.mem_filter.mp kept
    obtain ⟨row, stored, rfl⟩ := List.mem_map.mp present
    rw [unique_record keyed.jobs stored member equal] at due
    simp [same, listed] at due
  refine ⟨fun _ => dueIn_promote others, rfl, ?_⟩
  show movesOf queueId (_ ++ _) = _
  rw [movesOf_append, movesOf_others others, List.nil_append]

variable [Arithmetic]

/-- The bucket of a queue does not depend on the other buckets. -/
theorem Spares.serves {middle : Promotion} (first : Spares queueId before middle)
    (second : Serves queueId txNow visit middle after) : Serves queueId txNow visit before after := by
  have bucket : ∀ rate now, middle.registry.bucketFor queueId rate now =
      before.registry.bucketFor queueId rate now := by
    intro rate now
    simp only [RateLimiterRegistry.bucketFor, first.bucket]
  refine ⟨?_, ?_⟩
  · rw [second.bucket, bucket]
  · rw [second.moves, first.moves, quota, quota, first.due]
    simp only [RateLimiterRegistry.takeAvailable, bucket]

theorem Serves.spares {middle : Promotion} (first : Serves queueId txNow visit before middle)
    (second : Spares queueId middle after) : Serves queueId txNow visit before after :=
  ⟨second.bucket.trans first.bucket, second.moves.trans first.moves⟩

/-- A visit moves nothing, or what its subquery returned. -/
theorem visit_cases (made : promoteRateLimitedQueue txNow before visit = some after) :
    let taken := before.registry.takeAvailable visit.queueId visit.ratePerSec visit.readAt
    (taken.1 ≤ 0 ∧ after = { before with registry := taken.2 }) ∨
      (Takes (before.db.dueIn visit.queueId txNow) taken.1.toNat visit.picked ∧ after = {
        db := before.db.promote visit.picked
        registry := taken.2
        moves := before.db.moves visit.picked visit.movedAt ++ before.moves }) := by
  intro taken
  simp only [promoteRateLimitedQueue] at made
  split at made
  · rename_i empty
    exact .inl ⟨empty, (Option.some.inj made).symm⟩
  · split at made
    · rename_i takes
      exact .inr ⟨takes, (Option.some.inj made).symm⟩
    · cases made

theorem visit_keyed (keyed : before.db.Keyed)
    (made : promoteRateLimitedQueue txNow before visit = some after) : after.db.Keyed := by
  rcases visit_cases made with ⟨_, rfl⟩ | ⟨_, rfl⟩
  · exact keyed
  · exact promote_keyed keyed

theorem visit_spares (keyed : before.db.Keyed) (other : queueId ≠ visit.queueId)
    (made : promoteRateLimitedQueue txNow before visit = some after) :
    Spares queueId before after := by
  rcases visit_cases made with ⟨_, rfl⟩ | ⟨takes, rfl⟩
  · exact ⟨fun _ => rfl, takeAvailable_other _ _ _ other, rfl⟩
  · have own := picked_queue keyed takes
    have others : ∀ record ∈ before.db.jobs, record.job.id ∈ visit.picked →
        record.job.queueId ≠ queueId := by
      intro record member picked same
      exact other (same.symm.trans (own record member picked))
    refine ⟨fun _ => dueIn_promote others, takeAvailable_other _ _ _ other, ?_⟩
    rw [movesOf_append, movesOf_others others, List.nil_append]

theorem visit_serves (keyed : before.db.Keyed)
    (made : promoteRateLimitedQueue txNow before visit = some after) :
    Serves visit.queueId txNow visit before after := by
  rcases visit_cases made with ⟨empty, rfl⟩ | ⟨takes, rfl⟩
  · refine ⟨takeAvailable_bucket .., ?_⟩
    have none : quota before.db before.registry txNow visit.queueId visit.ratePerSec
        visit.readAt = 0 := by
      rw [quota, Int.toNat_of_nonpos empty, Nat.zero_min]
    rw [none]
    rfl
  · refine ⟨takeAvailable_bucket .., ?_⟩
    rw [movesOf_append, movesOf_picked keyed takes]
    rfl

theorem visits_keyed {visits : List Visit} (keyed : before.db.Keyed)
    (made : promoteRateLimited txNow before visits = some after) : after.db.Keyed := by
  induction visits generalizing before with
  | nil =>
    cases made
    exact keyed
  | cons visit rest ih =>
    obtain ⟨next, first, remaining⟩ := Option.bind_eq_some_iff.mp made
    exact ih (visit_keyed keyed first) remaining

theorem visits_spare {visits : List Visit} (keyed : before.db.Keyed)
    (unvisited : ∀ visit ∈ visits, visit.queueId ≠ queueId)
    (made : promoteRateLimited txNow before visits = some after) : Spares queueId before after := by
  induction visits generalizing before with
  | nil =>
    cases made
    exact ⟨fun _ => rfl, rfl, rfl⟩
  | cons visit rest ih =>
    obtain ⟨next, first, remaining⟩ := Option.bind_eq_some_iff.mp made
    have spared := visit_spares keyed (unvisited visit List.mem_cons_self).symm first
    exact spared.trans (ih (visit_keyed keyed first)
      (fun visit member => unvisited visit (List.mem_cons_of_mem _ member)) remaining)

/-- A queue is served by its own visit alone. -/
theorem visits_serve {visits : List Visit} (keyed : before.db.Keyed)
    (once : (visits.map Visit.queueId).Nodup) (member : visit ∈ visits)
    (made : promoteRateLimited txNow before visits = some after) :
    Serves visit.queueId txNow visit before after := by
  induction visits generalizing before with
  | nil => cases member
  | cons head rest ih =>
    obtain ⟨next, first, remaining⟩ := Option.bind_eq_some_iff.mp made
    obtain ⟨absent, others⟩ := List.nodup_cons.mp once
    rcases List.mem_cons.mp member with rfl | later
    · refine (visit_serves keyed first).spares (visits_spare (visit_keyed keyed first) ?_ remaining)
      intro other listed same
      exact absent (same ▸ List.mem_map_of_mem listed)
    · have different : visit.queueId ≠ head.queueId := by
        intro same
        exact absent (same ▸ List.mem_map_of_mem later)
      exact (visit_spares keyed different first).serves
        (ih (visit_keyed keyed first) others later remaining)

end Visits

end Pulse
