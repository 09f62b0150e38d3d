import Pulse.Api.Batches
import Pulse.Safety.References
import Pulse.System.Runs

/-! A batch is created as a whole, and is gone as a whole, with its queue. -/
namespace Pulse
open Library.Lts

/-- What no transition changes of the rows of a batch. -/
def Db.batchRows (db : Db) (batchId : Uuid) : List (Uuid × Uuid) :=
  (db.batch batchId).map fun job => (job.id, job.queueId)

section Rows
variable {env : Environment} {state : System} {session next : Session} {sid : Sid}
  {record after : JobRecord} {patch : Patch} {batchId : Uuid}

theorem Move.batch (move : Move state session record after) :
    after.job.batchId = record.job.batchId := by
  cases move with
  | detach =>
    unfold JobRecord.detach
    split <;> rfl
  | @write _ write => cases write.change <;> rfl
  | _ => rfl

theorem batch_rows_batchId {db : Db} {now : Time} {first : Uuid} {body : JobBatchCreate} {queue : Queue}
    {job : Job} (listed : job ∈ body.rows db now first batchId queue) :
    job.batchId = some batchId := by
  obtain ⟨_, _, rfl⟩ := List.mem_mapIdx.mp listed
  rfl

/-- The jobs which a commit inserts are in no batch, or are all of one. -/
theorem Publishes.batched (publishes : Publishes env state sid next patch)
    (spawning : ∀ current, state.sessions sid = .tick current → ∀ job ∈ current.spawned,
      job.batchId = none) :
    (∀ job ∈ patch.newJobs, job.batchId = none) ∨
      (∃ now body, createBatch state.db now (state.nextUuid + 1) state.nextUuid body =
        .ok patch.newJobs) ∧ patch.deletedJobs = [] := by
  cases publishes with
  | rows _ _ inserted =>
    rw [inserted]
    exact .inl (by simp)
  | tick running made =>
    cases made
    refine .inl fun job listed => ?_
    obtain ⟨spawned, there, _, _, rfl⟩ := numbered_member listed
    exact spawning _ running spawned there
  | api _ answers =>
    cases answers with
    | @createJob _ created made =>
      refine .inl fun job listed => ?_
      obtain rfl : created = some job := by simpa using listed
      obtain ⟨_, _, _, _, _, rfl⟩ := createJob_row made
      rfl
    | createBatch made => exact .inr ⟨⟨_, _, made⟩, rfl⟩
    | deleteSchedule made | deleteQueue made =>
      cases made
      exact .inl (by simp)
    | _ => exact .inl (by simp)

/-- A commit deletes no job, or those of a queue with this queue. -/
theorem Publishes.deletes (publishes : Publishes env state sid next patch) (shape : Shape state) :
    patch.deletedJobs = [] ∨ ∃ queueId,
      (∀ record ∈ state.db.jobs, record.job.id ∈ patch.deletedJobs ↔ record.job.queueId = queueId) ∧
        queueId ∉ (patch.queues state.db.queues).map Queue.id := by
  cases publishes with
  | rows _ _ _ deleted => exact .inl deleted
  | tick _ made =>
    cases made
    exact .inl rfl
  | api _ answers =>
    cases answers with
    | @deleteQueue queueId _ _ made =>
      cases made
      refine .inr ⟨queueId, fun record member => ?_, by simp⟩
      constructor
      · intro listed
        obtain ⟨twin, present, same⟩ := List.mem_map.mp listed
        obtain ⟨there, inside⟩ := List.mem_filter.mp present
        rw [← unique_record shape.distinct there member same]
        exact of_decide_eq_true inside
      · intro inside
        exact List.mem_map.mpr ⟨record, List.mem_filter.mpr ⟨member, decide_eq_true inside⟩, rfl⟩
    | deleteSchedule made =>
      cases made
      exact .inl rfl
    | _ => exact .inl rfl

theorem batch_apply (db : Db) (patch : Patch) (batchId : Uuid) : (db.apply patch).batch batchId =
    ((((db.jobs.filter fun record => record.job.id ∉ patch.deletedJobs).map patch.job).map
      JobRecord.job).filter fun job => job.batchId = some batchId) ++
        patch.newJobs.filter fun job => job.batchId = some batchId := by
  simp [Db.batch, Db.apply, Function.comp_def]

theorem mem_written {db : Db} {job : Job} (listed : job ∈ ((db.jobs.filter fun record =>
    record.job.id ∉ patch.deletedJobs).map patch.job).map JobRecord.job) :
    ∃ record ∈ db.jobs, record.job.id ∉ patch.deletedJobs ∧ (patch.job record).job = job := by
  obtain ⟨written, among, rfl⟩ := List.mem_map.mp listed
  obtain ⟨record, old, rfl⟩ := List.mem_map.mp among
  obtain ⟨member, stays⟩ := List.mem_filter.mp old
  exact ⟨record, member, of_decide_eq_true stays, rfl⟩

/-- The rows of a batch which a commit leaves. -/
theorem survivors {records : List JobRecord}
    (stays : ∀ record ∈ records, record.job.batchId = some batchId →
      record.job.id ∉ patch.deletedJobs)
    (keeps : ∀ record ∈ records, record.job.id ∉ patch.deletedJobs →
      (patch.job record).job.batchId = record.job.batchId)
    (same : ∀ record : JobRecord, record.Kept (patch.job record)) :
    (((((records.filter fun record => record.job.id ∉ patch.deletedJobs).map patch.job).map
      JobRecord.job).filter fun job => job.batchId = some batchId).map
        fun job => (job.id, job.queueId)) =
      ((records.map JobRecord.job).filter fun job => job.batchId = some batchId).map
        fun job => (job.id, job.queueId) := by
  induction records with
  | nil => rfl
  | cons record rest ih =>
    have rest := ih (fun other member => stays other (List.mem_cons_of_mem _ member))
      (fun other member => keeps other (List.mem_cons_of_mem _ member))
    have stays := stays record List.mem_cons_self
    have keeps := keeps record List.mem_cons_self
    have id := (same record).job_id
    have queueId := (same record).queueId
    by_cases deleted : record.job.id ∈ patch.deletedJobs
    · have other : record.job.batchId ≠ some batchId := fun mine => stays mine deleted
      simpa [deleted, other] using rest
    · have keeps := keeps deleted
      by_cases mine : record.job.batchId = some batchId
      · simpa [deleted, keeps, mine, id, queueId] using rest
      · simpa [deleted, keeps, mine] using rest

end Rows

section Steps
variable {env : Environment} {state after : System} {next : Session} {sid : Sid} {patch : Patch}
  {batchId : Uuid}

theorem mem_batch {db : Db} {job : Job} : job ∈ db.batch batchId ↔
    ∃ record ∈ db.jobs, record.job = job ∧ job.batchId = some batchId := by
  simp only [Db.batch, List.mem_filter, List.mem_map, decide_eq_true_eq]
  constructor
  · rintro ⟨⟨record, member, rfl⟩, mine⟩
    exact ⟨record, member, rfl, mine⟩
  · rintro ⟨record, member, rfl, mine⟩
    exact ⟨⟨record, member, rfl⟩, mine⟩

/-- A batch has an id of its own and lies in one queue. -/
structure Batches (state : System) : Prop where
  issued : ∀ record ∈ state.db.jobs, ∀ batchId, record.job.batchId = some batchId →
    batchId < state.nextUuid
  single : ∀ record ∈ state.db.jobs, ∀ other ∈ state.db.jobs, ∀ batchId,
    record.job.batchId = some batchId → other.job.batchId = some batchId →
      record.job.queueId = other.job.queueId
  spawning : ∀ sid current, state.sessions sid = .tick current →
    ∀ job ∈ current.spawned, job.batchId = none

/-- The batch stays as it is, or goes with its queue. -/
def BatchKept (before after : Db) (batchId : Uuid) : Prop :=
  after.batchRows batchId = before.batchRows batchId ∨
    after.batch batchId = [] ∧
      ∀ job ∈ before.batch batchId, job.queueId ∉ after.queues.map Queue.id

theorem BatchKept.of_db {before after : Db} (jobs : after.jobs = before.jobs) :
    BatchKept before after batchId := by
  left
  rw [Db.batchRows, Db.batchRows, Db.batch, Db.batch, jobs]

/-- What a commit makes of the batches which exist. -/
theorem Batches.kept (batches : Batches state) (shape : Shape state) (commits : Commits state sid next patch)
    (publishes : Publishes env state sid next patch) (old : batchId < state.nextUuid) :
    BatchKept state.db (state.db.apply patch) batchId := by
  have none : patch.newJobs.filter (fun job => job.batchId = some batchId) = [] := by
    refine List.filter_eq_nil_iff.mpr fun job listed => ?_
    rcases publishes.batched (batches.spawning sid) with outside | ⟨⟨now, body, created⟩, _⟩
    · simp [outside job listed]
    · obtain ⟨queue, _, rows⟩ := createBatch_rows created
      rw [rows] at listed
      simp [batch_rows_batchId listed, Nat.ne_of_gt old]
  have keeps : ∀ record ∈ state.db.jobs, record.job.id ∉ patch.deletedJobs →
      (patch.job record).job.batchId = record.job.batchId :=
    fun record member stays => (commits.moves record member stays).batch
  have left := @survivors patch batchId state.db.jobs
  rw [BatchKept, Db.batchRows, Db.batchRows, batch_apply, none, List.append_nil]
  rcases publishes.deletes shape with spared | ⟨queueId, deleted, gone⟩
  · exact .inl (left (by simp [spared]) keeps publishes.kept)
  · by_cases inside : ∃ record ∈ state.db.jobs, record.job.batchId = some batchId ∧
        record.job.queueId = queueId
    · obtain ⟨record, member, mine, same⟩ := inside
      have all : ∀ other ∈ state.db.jobs, other.job.batchId = some batchId →
          other.job.queueId = queueId :=
        fun other present its => (batches.single other present record member _ its mine).trans same
      refine .inr ⟨?_, ?_⟩
      · refine List.filter_eq_nil_iff.mpr fun job listed => ?_
        obtain ⟨other, present, stays, rfl⟩ := mem_written listed
        rw [keeps other present stays]
        intro its
        exact stays ((deleted other present).mpr (all other present (of_decide_eq_true its)))
      · intro job listed
        obtain ⟨other, present, rfl, its⟩ := mem_batch.mp listed
        rw [all other present its]
        exact gone
    · refine .inl (left (fun record member mine doomed => ?_) keeps publishes.kept)
      exact inside ⟨record, member, mine, (deleted record member).mp doomed⟩

/-- A batch which appears is what one `create_batch` has computed. -/
theorem Batches.created (batches : Batches state) (commits : Commits state sid next patch)
    (publishes : Publishes env state sid next patch) (absent : state.db.batch batchId = [])
    (present : (state.db.apply patch).batch batchId ≠ []) :
    ∃ now body, createBatch state.db now (batchId + 1) batchId body =
      .ok ((state.db.apply patch).batch batchId) := by
  have nothing : ((((state.db.jobs.filter fun record => record.job.id ∉ patch.deletedJobs).map
      patch.job).map JobRecord.job).filter fun job => job.batchId = some batchId) = [] := by
    refine List.filter_eq_nil_iff.mpr fun job listed => ?_
    obtain ⟨record, member, stays, rfl⟩ := mem_written listed
    rw [(commits.moves record member stays).batch]
    intro mine
    have before := mem_batch.mpr ⟨record, member, rfl, of_decide_eq_true mine⟩
    rw [absent] at before
    cases before
  rw [batch_apply, nothing, List.nil_append] at present ⊢
  obtain ⟨job, listed⟩ := List.exists_mem_of_ne_nil _ present
  obtain ⟨listed, mine⟩ := List.mem_filter.mp listed
  rcases publishes.batched (batches.spawning sid) with outside | ⟨⟨now, body, created⟩, _⟩
  · simp [outside job listed] at mine
  · obtain ⟨queue, _, rows⟩ := createBatch_rows created
    have own : ∀ row ∈ patch.newJobs, row.batchId = some state.nextUuid :=
      fun row inserted => batch_rows_batchId (rows ▸ inserted)
    have same : state.nextUuid = batchId := by simpa [own job listed] using mine
    subst same
    refine ⟨now, body, ?_⟩
    rw [List.filter_eq_self.mpr fun row inserted => decide_eq_true (own row inserted)]
    exact created

theorem Batches.commit (batches : Batches state) (shape : Shape state) (commits : Commits state sid next patch)
    (publishes : Publishes env state sid next patch)
    (spawning : ∀ other current, (state.commit sid next patch).sessions other = .tick current →
      ∀ job ∈ current.spawned, job.batchId = none) : Batches (state.commit sid next patch) := by
  have origin : ∀ record ∈ (state.db.apply patch).jobs, ∀ batchId,
      record.job.batchId = some batchId →
        (∃ old ∈ state.db.jobs, old.job.batchId = some batchId ∧
          old.job.queueId = record.job.queueId) ∨ batchId = state.nextUuid ∧ record.job ∈ patch.newJobs := by
    intro record member batchId mine
    rcases commits.origin member with ⟨old, present, stays, rfl, move⟩ | ⟨job, inserted, rfl⟩
    · exact .inl ⟨old, present, move.batch ▸ mine, (publishes.kept old).queueId.symm⟩
    · rcases publishes.batched (batches.spawning sid) with outside | ⟨⟨_, _, created⟩, _⟩
      · simp [outside job inserted] at mine
      · obtain ⟨_, _, rows⟩ := createBatch_rows created
        have own := batch_rows_batchId (rows ▸ inserted)
        exact .inr ⟨Option.some.inj (mine.symm.trans own), inserted⟩
  refine ⟨?_, ?_, spawning⟩
  · intro record member batchId mine
    have grows : state.nextUuid < (state.commit sid next patch).nextUuid := by
      have positive := shape.positive
      rw [System.commit_nextUuid]
      lia
    rcases origin record member batchId mine with ⟨old, present, its, _⟩ | ⟨rfl, _⟩
    · exact (batches.issued old present batchId its).trans grows
    · exact grows
  · intro record member other listed batchId mine its
    rcases origin record member batchId mine with ⟨old, present, first, queue⟩ | ⟨rfl, inserted⟩
    · rcases origin other listed batchId its with ⟨twin, there, second, same⟩ | ⟨rfl, _⟩
      · rw [← queue, ← same]
        exact batches.single old present twin there batchId first second
      · exact absurd (batches.issued old present _ first) (Nat.lt_irrefl _)
    · rcases origin other listed _ its with ⟨twin, there, second, _⟩ | ⟨_, also⟩
      · exact absurd (batches.issued twin there _ second) (Nat.lt_irrefl _)
      · rcases publishes.batched (batches.spawning sid) with outside | ⟨⟨_, _, created⟩, _⟩
        · simp [outside _ inserted] at mine
        · obtain ⟨queue, _, rows⟩ := createBatch_rows created
          obtain ⟨_, _, _, first, _⟩ := mem_batch_rows (rows ▸ inserted)
          obtain ⟨_, _, _, second, _⟩ := mem_batch_rows (rows ▸ also)
          exact first.trans second.symm

theorem Batches.relax (batches : Batches state) (jobs : after.db.jobs = state.db.jobs)
    (grows : state.nextUuid ≤ after.nextUuid)
    (spawning : ∀ sid current, after.sessions sid = .tick current →
      ∀ job ∈ current.spawned, job.batchId = none) : Batches after := by
  refine ⟨?_, ?_, spawning⟩
  · rw [jobs]
    exact fun record member batchId mine =>
      (batches.issued record member batchId mine).trans_le grows
  · rw [jobs]
    exact batches.single

theorem Batches.step (batches : Batches state) (base : Base state) (shape : Shape state)
    {action : Action} (guards : GuardsToken state action)
    (taken : Pulse.step env state action = some after) : Batches after := by
  have spawning : ∀ sid current, after.sessions sid = .tick current →
      ∀ job ∈ current.spawned, job.batchId = none := by
    refine ticks_step (by simp) ?_ batches.spawning taken
    intro current tick locks ticks before job listed
    rcases ticks.spawned with same | ⟨now, made⟩
    · exact before job (same ▸ listed)
    · obtain ⟨_, _, _, _, rfl, _⟩ := promoteCronJobs_spawned made job listed
      rfl
  have doubled : state.nextUuid ≤ 2 * state.nextUuid := by lia
  cases step_cases base guards taken with
  | begin _ performs | next _ performs =>
    cases performs with
    | hold => exact batches.relax rfl doubled spawning
    | commit commits publishes => exact batches.commit shape commits publishes spawning
    | rollback => exact batches.relax rfl (le_refl _) spawning
  | fail | submit | exit => exact batches.relax rfl (le_refl _) spawning
  | reregister => exact batches.relax rfl doubled spawning

/-- What a run makes of what was there at its beginning. -/
structure Followed (origin later : System) : Prop where
  grows : origin.nextUuid ≤ later.nextUuid
  queues : ∀ queueId < origin.nextUuid, queueId ∉ origin.db.queues.map Queue.id →
    queueId ∉ later.db.queues.map Queue.id
  kept : ∀ batchId < origin.nextUuid, BatchKept origin.db later.db batchId

theorem Followed.of_db (jobs : after.db.jobs = state.db.jobs) (queues : after.db.queues = state.db.queues)
    (grows : state.nextUuid ≤ after.nextUuid) : Followed state after where
  grows := grows
  queues := fun _ _ absent => queues ▸ absent
  kept := fun _ _ => .of_db jobs

theorem Followed.trans {origin : System} (first : Followed origin state)
    (second : Followed state after)
    (housed : ∀ record ∈ origin.db.jobs, record.job.queueId < origin.nextUuid) :
    Followed origin after where
  grows := first.grows.trans second.grows
  queues := fun queueId old absent =>
    second.queues queueId (old.trans_le first.grows) (first.queues queueId old absent)
  kept := by
    intro batchId old
    have later := second.kept batchId (old.trans_le first.grows)
    rcases first.kept batchId old with same | ⟨empty, gone⟩
    · rcases later with again | ⟨empty, gone⟩
      · exact .inl (again.trans same)
      · refine .inr ⟨empty, fun job listed => ?_⟩
        have row : (job.id, job.queueId) ∈ state.db.batchRows batchId :=
          same ▸ List.mem_map.mpr ⟨job, listed, rfl⟩
        obtain ⟨twin, there, pair⟩ := List.mem_map.mp row
        rw [← (Prod.mk.inj pair).2]
        exact gone twin there
    · refine .inr ⟨?_, fun job listed => ?_⟩
      · rcases later with again | ⟨empty, _⟩
        · rw [Db.batchRows, Db.batchRows, empty] at again
          exact List.map_eq_nil_iff.mp again
        · exact empty
      · obtain ⟨record, member, rfl, _⟩ := mem_batch.mp listed
        exact second.queues _ ((housed record member).trans_le first.grows) (gone _ listed)

theorem Batches.followed (batches : Batches state) (base : Base state) (shape : Shape state)
    {action : Action} (guards : GuardsToken state action)
    (taken : Pulse.step env state action = some after) : Followed state after := by
  have doubled : state.nextUuid ≤ 2 * state.nextUuid := by lia
  cases step_cases base guards taken with
  | begin _ performs | next _ performs =>
    cases performs with
    | hold => exact .of_db rfl rfl doubled
    | commit commits publishes =>
      refine ⟨?_, ?_, fun batchId => batches.kept shape commits publishes⟩
      · rw [System.commit_nextUuid]
        lia
      · intro queueId old absent listed
        rcases List.mem_append.mp (publishes.grows.queues.subset listed) with there | new
        · exact absent there
        · exact absurd (List.mem_singleton.mp new) (Nat.ne_of_lt old)
    | rollback => exact .of_db rfl rfl (le_refl _)
  | fail | submit | exit => exact .of_db rfl rfl (le_refl _)
  | reregister => exact .of_db rfl rfl doubled

end Steps

section Runs
variable {env : Environment} {state later : System}

/-- What the run lemmas below rest on. -/
structure Batched (state : System) : Prop where
  base : Base state
  shape : Shape state
  batches : Batches state

theorem Batched.step (batched : Batched state) {action : Action} (guards : GuardsToken state action)
    (taken : Pulse.step env state action = some later) : Batched later where
  base := batched.base.step guards taken
  shape := batched.shape.step taken
  batches := batched.batches.step batched.base batched.shape guards taken

theorem Batched.reachable (reachable : (pulse env).Reachable GuardsToken state) : Batched state := by
  refine @Machine.Reachable.invariant _ _ (pulse env) GuardsToken Batched ?_ ?_ state reachable
  · rintro _ rfl
    exact ⟨initial_base, initial_shape, ⟨by simp, by simp, fun _ _ ticking => by cases ticking⟩⟩
  · exact fun earlier action next batched guards taken => batched.step guards taken

theorem housed_old (reachable : (pulse env).Reachable GuardsToken state) :
    ∀ record ∈ state.db.jobs, record.job.queueId < state.nextUuid := by
  intro record member
  obtain ⟨projectId, found⟩ := (References.reachable reachable).housed record member
  obtain ⟨queue, found, _⟩ := Option.map_eq_some_iff.mp found
  have same : queue.id = record.job.queueId := by simpa using List.find?_some found
  exact (Shape.reachable reachable).issued.queues.2 _
    (List.mem_map.mpr ⟨queue, List.mem_of_find?_eq_some found, same⟩)

theorem followed_path (reachable : (pulse env).Reachable GuardsToken state)
    (path : (pulse env).Path GuardsToken state later) : Followed state later := by
  have both : Batched later ∧ Followed state later := by
    refine @Machine.Path.preserves _ _ (pulse env) GuardsToken
      (fun later => Batched later ∧ Followed state later) ?_ state later path
      ⟨.reachable reachable, .of_db rfl rfl (le_refl _)⟩
    rintro earlier action next ⟨batched, followed⟩ guards taken
    exact ⟨batched.step guards taken, followed.trans
      (batched.batches.followed batched.base batched.shape guards taken) (housed_old reachable)⟩
  exact both.2

theorem one_queue (reachable : (pulse env).Reachable GuardsToken state) {batchId : Uuid} {job other : Job}
    (listed : job ∈ state.db.batch batchId) (among : other ∈ state.db.batch batchId) :
    job.queueId = other.queueId := by
  obtain ⟨record, member, rfl, mine⟩ := mem_batch.mp listed
  obtain ⟨twin, there, rfl, its⟩ := mem_batch.mp among
  exact (Batched.reachable reachable).batches.single record member twin there batchId mine its

theorem batch_old (reachable : (pulse env).Reachable GuardsToken state) {batchId : Uuid} {job : Job}
    (listed : job ∈ state.db.batch batchId) : batchId < state.nextUuid := by
  obtain ⟨record, member, rfl, mine⟩ := mem_batch.mp listed
  exact (Batched.reachable reachable).batches.issued record member batchId mine

theorem batch_created (reachable : (pulse env).Reachable GuardsToken state) {action : Action}
    (guards : GuardsToken state action) (taken : Pulse.step env state action = some later)
    {batchId : Uuid} (absent : state.db.batch batchId = []) (present : later.db.batch batchId ≠ []) :
    ∃ now body, createBatch state.db now (batchId + 1) batchId body = .ok (later.db.batch batchId) := by
  have batched := Batched.reachable reachable
  cases step_cases batched.base guards taken with
  | begin _ performs | next _ performs =>
    cases performs with
    | hold | rollback => exact absurd absent present
    | commit commits publishes => exact batched.batches.created commits publishes absent present
  | _ => exact absurd absent present

/-- A batch of two, of which one is claimed later. -/
def batchOfTwo : List Action := [
  .begin 0 (.api 0 (.createQueue { projectId := 0, name := "default" })),
  .begin 0 (.api 0 .registerWorker),
  .begin 0 (.api 0 (.createBatch {
    queueId := 1, jobs := [{ handler := "noop" }, { handler := "sleep" }] }))]

def oneOfTwo : List Action := [
  .begin 1 (.claimJobs 1 2 1 0),
  .next 1 { picked := [5] },
  .next 1 {}]

end Runs
end Pulse
