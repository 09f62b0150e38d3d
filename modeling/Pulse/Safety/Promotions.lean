import Pulse.Engine.Promotion

/-! Exactly which jobs `promote_due_jobs` moves, and which it leaves to
`resolve_dependencies`. -/
namespace Pulse
open Library.Rounding

/-- `total`, to which each UPDATE adds the number of rows it has moved. -/
def Promotion.total (promotion : Promotion) : Nat := promotion.moves.length

/-- How many tokens a visit takes. -/
def allowance [Arithmetic] (registry : RateLimiterRegistry) (visit : Visit) : Nat :=
  (registry.takeAvailable visit.queueId visit.ratePerSec visit.readAt).1.toNat

/-- What `promote_due_jobs` does to the jobs, `given` tokens for each visit. -/
structure Promotes (before after : Db) (txNow : Time) (visits : List Visit) (given : Visit → Nat)
    (total : Nat) : Prop where
  others : after = { before with jobs := after.jobs }
  moves : List.Forall₂ (fun old new : JobRecord =>
    new = old ∨ old.job.due txNow = true ∧ new = old.promote) before.jobs after.jobs
  unlimited : List.Forall₂ (fun old new : JobRecord =>
    old.job.queueId ∉ before.rateLimited.map Prod.fst → old.job.due txNow = true →
      new = old.promote) before.jobs after.jobs
  count : ∀ visit ∈ visits, converted before.jobs after.jobs (fun old new =>
      old.job.queueId = visit.queueId && new ≠ old) =
    min (given visit) (before.dueIn visit.queueId txNow).length
  first : ∀ moved ∈ before.jobs.zip after.jobs, ∀ left ∈ before.jobs.zip after.jobs,
    moved.1.job.queueId = left.1.job.queueId → moved.2 ≠ moved.1 → left.1.job.due txNow = true →
      left.2 = left.1 → left.1.job.before moved.1.job = false
  total : total = converted before.jobs after.jobs fun old new => new ≠ old

section Picks
variable {txNow : Time} {before after : Promotion} {db : Db} {first second ids : List Uuid}

theorem promote_nil : db.promote [] = db := by
  simp [Db.promote]

/-- One UPDATE after another. -/
theorem promote_append : (db.promote first).promote second = db.promote (first ++ second) := by
  simp only [Db.promote, List.map_map]
  congr 1
  apply List.map_congr_left
  intro record _
  simp only [Function.comp, List.mem_append]
  by_cases early : record.job.id ∈ first
  · simp only [early, if_true, true_or]
    split <;> rfl
  · simp [early]

theorem flatMap_update {pick : Uuid → List Uuid} {queueId : Uuid} {queueIds picked : List Uuid}
    (absent : queueId ∉ queueIds) :
    queueIds.flatMap (Function.update pick queueId picked) = queueIds.flatMap pick := by
  apply List.flatMap_congr
  intro other member
  have different : other ≠ queueId := fun same => absent (same ▸ member)
  exact Function.update_of_ne different ..

/-- The tokens of a queue do not depend on the other queues. -/
theorem Spares.allowance [Arithmetic] {visit : Visit} (spared : Spares visit.queueId before after) :
    allowance after.registry visit = allowance before.registry visit := by
  have bucket : after.registry.bucketFor visit.queueId visit.ratePerSec visit.readAt =
      before.registry.bucketFor visit.queueId visit.ratePerSec visit.readAt := by
    simp only [RateLimiterRegistry.bucketFor, spared.bucket]
  simp only [Pulse.allowance, RateLimiterRegistry.takeAvailable, bucket]

/-- The rows which each visit moves, and what they leave for the others. -/
theorem visits_pick [Arithmetic] {visits : List Visit} (keyed : before.db.Keyed)
    (once : (visits.map Visit.queueId).Nodup)
    (made : promoteRateLimited txNow before visits = some after) :
    ∃ pick : Uuid → List Uuid,
      (∀ visit ∈ visits, Takes (before.db.dueIn visit.queueId txNow)
        (allowance before.registry visit) (pick visit.queueId)) ∧
      after.db = before.db.promote ((visits.map Visit.queueId).flatMap pick) ∧
        after.moves.length = before.moves.length + ((visits.map Visit.queueId).flatMap pick).length := by
  induction visits generalizing before with
  | nil =>
    cases made
    exact ⟨fun _ => [], by simp, promote_nil.symm, rfl⟩
  | cons head rest ih =>
    obtain ⟨next, visited, remaining⟩ := Option.bind_eq_some_iff.mp made
    obtain ⟨absent, others⟩ := List.nodup_cons.mp once
    obtain ⟨pick, takes, moved, counted⟩ := ih (visit_keyed keyed visited) others remaining
    have own : ∃ picked, Takes (before.db.dueIn head.queueId txNow)
        (allowance before.registry head) picked ∧ next.db = before.db.promote picked ∧
          next.moves.length = before.moves.length + picked.length := by
      rcases visit_cases visited with ⟨empty, rfl⟩ | ⟨taken, rfl⟩
      · refine ⟨[], ?_, promote_nil.symm, rfl⟩
        rw [allowance, Int.toNat_of_nonpos empty]
        exact ⟨List.nodup_nil, by simp, by simp, by simp⟩
      · refine ⟨head.picked, taken, rfl, ?_⟩
        rw [List.length_append, Db.moves, List.length_map,
          written_length keyed taken.1 (picked_present taken), Nat.add_comm]
    obtain ⟨picked, chosen, written, added⟩ := own
    refine ⟨Function.update pick head.queueId picked, ?_, ?_, ?_⟩
    · intro visit member
      rcases List.mem_cons.mp member with rfl | later
      · rw [Function.update_self]
        exact chosen
      · have different : visit.queueId ≠ head.queueId := fun same =>
          absent (same ▸ List.mem_map_of_mem later)
        have spared := visit_spares keyed different visited
        rw [Function.update_of_ne different]
        have given := takes visit later
        rwa [spared.due, spared.allowance] at given
    · rw [moved, written, promote_append, List.map_cons, List.flatMap_cons, Function.update_self,
        flatMap_update absent]
    · rw [counted, added, List.map_cons, List.flatMap_cons, Function.update_self,
        flatMap_update absent, List.length_append]
      omega

/-- The due jobs of the queues without a limit. -/
def Db.dueOutside (db : Db) (limited : List Uuid) (txNow : Time) : List Uuid :=
  ((db.jobs.map JobRecord.job).filter fun job => job.due txNow && job.queueId ∉ limited).map Job.id

/-- The visits to the limited queues do not change them. -/
theorem dueOutside_promote {limited : List Uuid} (inside : ∀ record ∈ db.jobs, record.job.id ∈ ids →
    record.job.queueId ∈ limited) :
    (db.promote ids).dueOutside limited txNow = db.dueOutside limited txNow := by
  unfold Db.dueOutside Db.promote
  simp only [List.filter_map, List.map_map]
  have same : ∀ record ∈ db.jobs,
      ((fun job : Job => job.due txNow && job.queueId ∉ limited) ∘ JobRecord.job ∘ fun record =>
        if record.job.id ∈ ids then record.promote else record) record =
      ((fun job : Job => job.due txNow && job.queueId ∉ limited) ∘ JobRecord.job) record := by
    intro record member
    simp only [Function.comp]
    split
    · rename_i written
      have limited := inside record member written
      simp [JobRecord.promote, limited]
    · rfl
  rw [List.filter_congr same]
  apply List.map_congr_left
  intro record _
  simp only [Function.comp]
  split <;> rfl

theorem mem_dueOutside {limited : List Uuid} (keyed : db.Keyed) {record : JobRecord}
    (member : record ∈ db.jobs) : record.job.id ∈ db.dueOutside limited txNow ↔
      record.job.due txNow = true ∧ record.job.queueId ∉ limited := by
  constructor
  · intro listed
    obtain ⟨job, kept, same⟩ := List.mem_map.mp listed
    obtain ⟨present, selected⟩ := List.mem_filter.mp kept
    obtain ⟨row, stored, rfl⟩ := List.mem_map.mp present
    rw [unique_record keyed.jobs stored member same] at selected
    simpa using selected
  · rintro ⟨due, outside⟩
    refine List.mem_map.mpr ⟨record.job, List.mem_filter.mpr ⟨List.mem_map_of_mem member, ?_⟩, rfl⟩
    simpa using ⟨due, outside⟩

/-- A due job is not queued yet, so that moving it changes its row. -/
theorem promote_ne {record : JobRecord} (due : record.job.due txNow = true) :
    record.promote ≠ record := by
  intro same
  have queued : record.job.status = .queued := by
    rw [← same]
    rfl
  simp [Job.due, Job.dueFilter, queued] at due

end Picks

section Outcome
variable {db : Db} {registry : RateLimiterRegistry} {txNow movedAt : Time} {visits : List Visit}
  {after : Promotion} {pick : Uuid → List Uuid} {given : Visit → Nat}

/-- The rows which `promote_due_jobs` moves: the picks of the limited queues, and all that is
due in the others. -/
structure Picks (db : Db) (txNow : Time) (visits : List Visit) (given : Visit → Nat)
    (pick : Uuid → List Uuid) : Prop where
  limited : ∀ queueId, queueId ∈ db.rateLimited.map Prod.fst ↔ queueId ∈ visits.map Visit.queueId
  once : (visits.map Visit.queueId).Nodup
  takes : ∀ visit ∈ visits, Takes (db.dueIn visit.queueId txNow) (given visit) (pick visit.queueId)

def picked (db : Db) (txNow : Time) (visits : List Visit) (pick : Uuid → List Uuid) : List Uuid :=
  (visits.map Visit.queueId).flatMap pick ++ db.dueOutside (db.rateLimited.map Prod.fst) txNow

namespace Picks

theorem mem_picked (picks : Picks db txNow visits given pick) (keyed : db.Keyed) {record : JobRecord}
    (member : record ∈ db.jobs) : record.job.id ∈ picked db txNow visits pick ↔
      if record.job.queueId ∈ db.rateLimited.map Prod.fst then
        record.job.id ∈ pick record.job.queueId
      else record.job.due txNow = true := by
  rw [picked, List.mem_append, mem_dueOutside keyed member, List.mem_flatMap]
  have own : ∀ queueId ∈ visits.map Visit.queueId, record.job.id ∈ pick queueId →
      record.job.queueId = queueId := by
    intro queueId visited listed
    obtain ⟨visit, present, rfl⟩ := List.mem_map.mp visited
    exact picked_queue keyed (picks.takes visit present) record member listed
  by_cases limited : record.job.queueId ∈ db.rateLimited.map Prod.fst
  · rw [if_pos limited]
    constructor
    · rintro (⟨queueId, visited, listed⟩ | ⟨_, outside⟩)
      · rwa [own queueId visited listed]
      · exact absurd limited outside
    · exact fun listed => .inl ⟨_, (picks.limited _).mp limited, listed⟩
  · rw [if_neg limited]
    constructor
    · rintro (⟨queueId, visited, listed⟩ | ⟨due, _⟩)
      · have queue := own queueId visited listed
        exact absurd ((picks.limited _).mpr (queue ▸ visited)) limited
      · exact due
    · exact fun due => .inr ⟨due, limited⟩

theorem due_of_picked (picks : Picks db txNow visits given pick) (keyed : db.Keyed) {record : JobRecord}
    (member : record ∈ db.jobs) (listed : record.job.id ∈ picked db txNow visits pick) :
    record.job.due txNow = true := by
  rw [picks.mem_picked keyed member] at listed
  split at listed
  · rename_i limited
    obtain ⟨visit, present, same⟩ := List.mem_map.mp ((picks.limited _).mp limited)
    obtain ⟨job, eligible, equal⟩ := (picks.takes visit present).2.2.1 _ (same ▸ listed)
    obtain ⟨stored, due⟩ := List.mem_filter.mp eligible
    obtain ⟨row, there, rfl⟩ := List.mem_map.mp stored
    rw [unique_record keyed.jobs there member equal] at due
    simp only [Bool.and_eq_true] at due
    exact due.2
  · exact listed

/-- Exactly the picked rows change. -/
theorem changed_iff (picks : Picks db txNow visits given pick) (keyed : db.Keyed) {record : JobRecord}
    (member : record ∈ db.jobs) :
    (if record.job.id ∈ picked db txNow visits pick then record.promote else record) ≠ record ↔
      record.job.id ∈ picked db txNow visits pick := by
  by_cases listed : record.job.id ∈ picked db txNow visits pick
  · rw [if_pos listed]
    exact iff_of_true (promote_ne (picks.due_of_picked keyed member listed)) listed
  · rw [if_neg listed]
    exact iff_of_false (fun different => different rfl) listed

theorem present (picks : Picks db txNow visits given pick) :
    ∀ id ∈ picked db txNow visits pick, ∃ record ∈ db.jobs, record.job.id = id := by
  intro id listed
  rcases List.mem_append.mp listed with limited | outside
  · obtain ⟨queueId, visited, chosen⟩ := List.mem_flatMap.mp limited
    obtain ⟨visit, member, rfl⟩ := List.mem_map.mp visited
    exact picked_present (picks.takes visit member) id chosen
  · obtain ⟨job, kept, rfl⟩ := List.mem_map.mp outside
    obtain ⟨record, member, rfl⟩ := List.mem_map.mp (List.mem_of_mem_filter kept)
    exact ⟨record, member, rfl⟩

/-- No row is moved twice. -/
theorem distinct (picks : Picks db txNow visits given pick) (keyed : db.Keyed) :
    (picked db txNow visits pick).Nodup := by
  have own : ∀ queueId ∈ visits.map Visit.queueId, ∀ id ∈ pick queueId,
      ∃ record ∈ db.jobs, record.job.id = id ∧ record.job.queueId = queueId := by
    intro queueId visited id listed
    obtain ⟨visit, member, rfl⟩ := List.mem_map.mp visited
    obtain ⟨record, stored, rfl⟩ := picked_present (picks.takes visit member) id listed
    exact ⟨record, stored, rfl, picked_queue keyed (picks.takes visit member) record stored listed⟩
  have same : ∀ first ∈ visits.map Visit.queueId, ∀ second ∈ visits.map Visit.queueId, ∀ id,
      id ∈ pick first → id ∈ pick second → first = second := by
    intro first left second right id one two
    obtain ⟨record, member, rfl, queue⟩ := own first left id one
    obtain ⟨other, stored, equal, another⟩ := own second right _ two
    rw [← queue, ← another, unique_record keyed.jobs stored member equal]
  refine List.nodup_append.mpr ⟨List.nodup_flatMap.mpr ⟨?_, ?_⟩, ?_, ?_⟩
  · intro queueId visited
    obtain ⟨visit, member, rfl⟩ := List.mem_map.mp visited
    exact (picks.takes visit member).1
  · refine picks.once.pairwise_of_forall_ne fun first left second right different => ?_
    intro id one two
    exact different (same first left second right id one two)
  · have ids : ((db.jobs.map JobRecord.job).map Job.id).Nodup := by
      rw [List.map_map]
      exact keyed.jobs
    exact ids.sublist (List.filter_sublist.map _)
  · rintro id limited _ outside rfl
    obtain ⟨queueId, visited, listed⟩ := List.mem_flatMap.mp limited
    obtain ⟨record, member, rfl, queue⟩ := own queueId visited id listed
    exact ((mem_dueOutside keyed member).mp outside).2 (queue ▸ (picks.limited _).mpr visited)

/-- What the picks say about the rows before and after. -/
theorem promotes (picks : Picks db txNow visits given pick) (keyed : db.Keyed) :
    Promotes db (db.promote (picked db txNow visits pick)) txNow visits given
      (picked db txNow visits pick).length := by
  refine ⟨rfl, ?_, ?_, ?_, ?_, ?_⟩
  · rw [Db.promote, List.forall₂_map_right_iff, List.forall₂_same]
    intro record member
    by_cases listed : record.job.id ∈ picked db txNow visits pick
    · rw [if_pos listed]
      exact .inr ⟨picks.due_of_picked keyed member listed, rfl⟩
    · rw [if_neg listed]
      exact .inl rfl
  · rw [Db.promote, List.forall₂_map_right_iff, List.forall₂_same]
    intro record member outside due
    rw [if_pos]
    rw [picks.mem_picked keyed member, if_neg outside]
    exact due
  · intro visit member
    have taken := picks.takes visit member
    have visited : visit.queueId ∈ visits.map Visit.queueId := List.mem_map_of_mem member
    rw [Db.promote, converted_map, ← taken.2.1, ← written_length keyed taken.1 (picked_present taken),
      ← List.countP_eq_length_filter]
    apply List.countP_congr
    intro record stored
    have changed := picks.changed_iff keyed stored
    simp only [Bool.and_eq_true, decide_eq_true_eq, ne_eq] at changed ⊢
    rw [changed, picks.mem_picked keyed stored]
    constructor
    · rintro ⟨queue, listed⟩
      rwa [queue, if_pos ((picks.limited _).mpr visited)] at listed
    · intro listed
      have queue := picked_queue keyed taken record stored listed
      refine ⟨queue, ?_⟩
      rw [if_pos ((picks.limited _).mpr (queue ▸ visited)), queue]
      exact listed
  · intro moved present left other queue changed due kept
    obtain ⟨stored, written⟩ := mem_zip_map.mp present
    obtain ⟨there, unwritten⟩ := mem_zip_map.mp other
    rw [written] at changed
    rw [unwritten] at kept
    have chosen := (picks.changed_iff keyed stored).mp changed
    have spared : left.1.job.id ∉ picked db txNow visits pick := fun listed =>
      (picks.changed_iff keyed there).mpr listed kept
    rw [picks.mem_picked keyed stored] at chosen
    rw [picks.mem_picked keyed there] at spared
    by_cases limited : left.1.job.queueId ∈ db.rateLimited.map Prod.fst
    · rw [queue, if_pos limited] at chosen
      rw [if_pos limited] at spared
      obtain ⟨visit, member, same⟩ := List.mem_map.mp ((picks.limited _).mp limited)
      have taken := picks.takes visit member
      rw [same] at taken
      refine taken.2.2.2 moved.1.job ?_ chosen left.1.job ?_ spared
      · refine List.mem_filter.mpr ⟨List.mem_map_of_mem stored, ?_⟩
        have early := picks.due_of_picked keyed stored ((picks.changed_iff keyed stored).mp changed)
        simp [queue, early]
      · exact List.mem_filter.mpr ⟨List.mem_map_of_mem there, by simp [due]⟩
    · rw [if_neg limited] at spared
      exact absurd due spared
  · rw [Db.promote, converted_map, ← written_length keyed (picks.distinct keyed) picks.present,
      ← List.countP_eq_length_filter]
    apply List.countP_congr
    intro record stored
    have changed := picks.changed_iff keyed stored
    simp only [decide_eq_true_eq, ne_eq] at changed ⊢
    exact changed.symm

end Picks
end Outcome
section Call
variable {db : Db} {registry : RateLimiterRegistry} {txNow movedAt : Time} {visits : List Visit}
  {after : Promotion}

/-- A visit without what its subquery returned. -/
def Visit.asked (visit : Visit) : Visit := { visit with picked := [] }

theorem promoteDueJobs_picks [Arithmetic] (keyed : db.Keyed)
    (made : promoteDueJobs db registry txNow movedAt visits = some after) :
    ∃ pick, Picks db txNow visits (allowance registry) pick ∧
      after.db = db.promote (picked db txNow visits pick) ∧
        after.total = (picked db txNow visits pick).length := by
  unfold promoteDueJobs at made
  split at made
  · rename_i order
    obtain ⟨middle, visited, rfl⟩ := Option.map_eq_some_iff.mp made
    have same : (visits.map Visit.queueId).Perm (db.rateLimited.map Prod.fst) := by
      have mapped := order.map Prod.fst
      rwa [List.map_map] at mapped
    have once : (visits.map Visit.queueId).Nodup := same.nodup_iff.mpr (rateLimited_nodup keyed)
    obtain ⟨pick, takes, moved, counted⟩ := visits_pick keyed once visited
    have picks : Picks db txNow visits (allowance registry) pick :=
      ⟨fun _ => same.mem_iff.symm, once, takes⟩
    have inside : ∀ record ∈ db.jobs, record.job.id ∈ (visits.map Visit.queueId).flatMap pick →
        record.job.queueId ∈ db.rateLimited.map Prod.fst := by
      intro record member listed
      obtain ⟨queueId, present, chosen⟩ := List.mem_flatMap.mp listed
      obtain ⟨visit, among, rfl⟩ := List.mem_map.mp present
      rw [picked_queue keyed (takes visit among) record member chosen]
      exact same.mem_iff.mp present
    have rest : middle.db.dueOutside (db.rateLimited.map Prod.fst) txNow =
        db.dueOutside (db.rateLimited.map Prod.fst) txNow := by
      rw [moved]
      exact dueOutside_promote inside
    refine ⟨pick, picks, ?_, ?_⟩
    · change middle.db.promote (middle.db.dueOutside _ txNow) = _
      rw [rest, moved, promote_append]
      rfl
    · change (middle.db.moves (middle.db.dueOutside _ txNow) movedAt ++ middle.moves).length = _
      rw [rest, List.length_append, counted, Db.moves, List.length_map]
      rw [written_length (visits_keyed keyed visited)]
      · rw [picked, List.length_append]
        simp only [List.length_nil]
        omega
      · exact (List.nodup_append.mp (picks.distinct keyed)).2.1
      · intro id listed
        obtain ⟨record, member, rfl⟩ := picks.present id (List.mem_append_right _ listed)
        rw [moved]
        refine ⟨_, List.mem_map_of_mem member, ?_⟩
        split <;> rfl
  · cases made

/-- The subqueries always return rows. -/
theorem promoteRateLimited_returns [Arithmetic] (txNow : Time) {before : Promotion}
    (keyed : before.db.Keyed) (visits : List Visit) :
    ∃ answered after, answered.map Visit.asked = visits.map Visit.asked ∧
      promoteRateLimited txNow before answered = some after := by
  induction visits generalizing before with
  | nil => exact ⟨[], before, rfl, rfl⟩
  | cons visit rest ih =>
    have unique : ((before.db.dueIn visit.queueId txNow).map Job.id).Nodup := by
      have ids : ((before.db.jobs.map JobRecord.job).map Job.id).Nodup := by
        rw [List.map_map]
        exact keyed.jobs
      exact ids.sublist (List.filter_sublist.map _)
    obtain ⟨picked, takes⟩ := exists_takes unique (allowance before.registry visit)
    have visited : ∃ next, promoteRateLimitedQueue txNow before { visit with picked } = some next := by
      unfold promoteRateLimitedQueue
      by_cases empty : (before.registry.takeAvailable visit.queueId visit.ratePerSec visit.readAt).1 ≤ 0
      · exact ⟨_, if_pos empty⟩
      · exact ⟨_, (if_neg empty).trans (if_pos takes)⟩
    obtain ⟨next, first⟩ := visited
    obtain ⟨answered, after, same, remaining⟩ := ih (visit_keyed keyed first)
    refine ⟨{ visit with picked } :: answered, after, ?_, ?_⟩
    · rw [List.map_cons, List.map_cons, same]
      rfl
    · rw [promoteRateLimited, first, Option.bind_some, remaining]

theorem promoteDueJobs_returns [Arithmetic] (keyed : db.Keyed) (registry : RateLimiterRegistry)
    (txNow movedAt : Time)
    (order : (visits.map fun visit => (visit.queueId, visit.ratePerSec)).Perm db.rateLimited) :
    ∃ answered after, answered.map Visit.asked = visits.map Visit.asked ∧
      promoteDueJobs db registry txNow movedAt answered = some after := by
  have start : (⟨db, registry, []⟩ : Promotion).db.Keyed := keyed
  obtain ⟨answered, after, same, ran⟩ := promoteRateLimited_returns txNow start visits
  refine ⟨answered, promoteUnlimited txNow movedAt (db.rateLimited.map Prod.fst) after, same, ?_⟩
  have asked : ∀ list : List Visit, list.map (fun visit => (visit.queueId, visit.ratePerSec)) =
      (list.map Visit.asked).map fun visit => (visit.queueId, visit.ratePerSec) := by
    intro list
    rw [List.map_map]
    rfl
  rw [promoteDueJobs, if_pos (by rw [asked, same, ← asked]; exact order), ran, Option.map_some]

/-- A scheduled job is promoted when it is due, or waits for its dependencies. -/
theorem dueFilter_iff_not_pending (keyed : db.Keyed) {record : JobRecord} (member : record ∈ db.jobs)
    (scheduled : record.job.status = .scheduled) :
    record.job.dueFilter = true ↔ record.job.id ∉ (pendingDependents db.jobs).map Prod.fst := by
  have filtered : record.job.dueFilter = record.job.noDeps := by
    simp [Job.dueFilter, scheduled]
  rw [filtered]
  constructor
  · intro free listed
    obtain ⟨⟨jobId, deps⟩, pending, same⟩ := List.mem_map.mp listed
    obtain ⟨other, stored, equal, -, gated, -⟩ := pendingDependents_selects.mp pending
    rw [unique_record keyed.jobs stored member (equal.trans same), hasDeps_eq, free] at gated
    cases gated
  · intro unlisted
    by_contra gated
    have hasDeps : record.job.hasDeps = true := by
      rw [hasDeps_eq]
      simpa using gated
    obtain ⟨deps, same⟩ : ∃ deps, record.job.dependsOn = some deps := by
      apply Option.isSome_iff_exists.mp
      exact (Bool.and_eq_true_iff.mp hasDeps).1
    exact unlisted (List.mem_map.mpr ⟨(record.job.id, deps),
      pendingDependents_selects.mpr ⟨record, member, rfl, scheduled, hasDeps, same⟩, rfl⟩)

end Call

/-- `promote_due_jobs` returns, whatever order the queues and readings of the clock come in, and
moves exactly the due jobs: all of a queue without a limit, and as many of the first ones of a
queue with a limit as it has tokens. It never moves a job which `resolve_dependencies` selects,
and a scheduled job is eligible for exactly one of the two. -/
theorem promotion_exact [Arithmetic] {db : Db} (keyed : db.Keyed) (registry : RateLimiterRegistry)
    (txNow movedAt : Time) (visits : List Visit) :
    (∀ after, promoteDueJobs db registry txNow movedAt visits = some after →
      Promotes db after.db txNow visits (allowance registry) after.total) ∧
    ((visits.map fun visit => (visit.queueId, visit.ratePerSec)).Perm db.rateLimited →
      ∃ answered after, answered.map Visit.asked = visits.map Visit.asked ∧
        promoteDueJobs db registry txNow movedAt answered = some after) ∧
    ∀ record ∈ db.jobs, record.job.status = .scheduled →
      (record.job.dueFilter = true ↔
        record.job.id ∉ (pendingDependents db.jobs).map Prod.fst) := by
  refine ⟨?_, ?_, ?_⟩
  · intro after made
    obtain ⟨pick, picks, moved, counted⟩ := promoteDueJobs_picks keyed made
    rw [moved, counted]
    exact picks.promotes keyed
  · exact promoteDueJobs_returns keyed registry txNow movedAt
  · exact fun record member scheduled => dueFilter_iff_not_pending keyed member scheduled

def waitingJob (id queueId : Uuid) (priority : Int) (dependsOn : Option (List Uuid)) : JobRecord where
  job := {
    id
    queueId
    type := .delayed
    status := .scheduled
    priority
    payload := "\x7b\x7d"
    handler := "noop"
    runAt := 0
    maxAttempts := 3
    dependsOn }

def waitingQueue (id : Uuid) (rateLimitPerSec : Option Nat) : Queue where
  id
  projectId := 0
  retryPolicyId := none
  name := "mail"
  priorityDefault := 0
  concurrencyLimit := 5
  rateLimitPerSec
  isPaused := false

/-- Two jobs of a queue without a limit, one of them gated, and two of a queue with a limit of
one a second. -/
def waiting : Db where
  queues := [waitingQueue 1 none, waitingQueue 2 (some 1)]
  jobs := [waitingJob 3 1 0 none, waitingJob 4 1 0 (some [3]), waitingJob 5 2 0 (some []),
    waitingJob 6 2 9 none]

attribute [local instance] binary64

/-- The one token goes to the job with the higher priority, and the gated job stays. -/
theorem promotion_exact_waiting : ∃ after,
    promoteDueJobs waiting {} 0 0 [{ queueId := 2, ratePerSec := 1, readAt := 0, movedAt := 0, picked := [6] }] =
      some after ∧
    after.db.jobs.map (fun record => (record.job.id, record.job.status)) =
      [(3, .queued), (4, .scheduled), (5, .scheduled), (6, .queued)] ∧
    Promotes waiting after.db 0
      [{ queueId := 2, ratePerSec := 1, readAt := 0, movedAt := 0, picked := [6] }] (allowance {})
      after.total := by
  have keyed : waiting.Keyed := by decide
  have ran : (promoteDueJobs waiting {} 0 0
      [{ queueId := 2, ratePerSec := 1, readAt := 0, movedAt := 0, picked := [6] }]).any
      (fun after => after.db.jobs.map (fun record => (record.job.id, record.job.status)) =
        [(3, .queued), (4, .scheduled), (5, .scheduled), (6, .queued)]) = true := by
    decide +kernel
  obtain ⟨after, made, jobs⟩ := (Option.any_eq_true ..).mp ran
  exact ⟨after, made, by simpa using jobs, (promotion_exact keyed _ _ _ _).1 after made⟩

end Pulse
