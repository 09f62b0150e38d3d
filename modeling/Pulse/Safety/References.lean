import Pulse.System.Shape

/-! References between rows which no constraint of the database checks: they stay
inside one project, and inside one queue. -/
namespace Pulse
open Library.RowLock Library.Lts

/-- The project under which a queue lies. -/
def Db.projectOf (db : Db) (queueId : Uuid) : Option Uuid :=
  (db.findQueue queueId).map Queue.projectId

def Db.findTemplate (db : Db) (id : Uuid) : Option ScheduledJob :=
  db.scheduledJobs.find? fun template => template.id = id

/-- A queue's policy is null or one of the queue's own project. -/
def Db.PolicyInside (db : Db) (queue : Queue) : Prop :=
  ∀ policyId, queue.retryPolicyId = some policyId →
    ∃ policy, db.retryPolicyOf queue = some policy ∧ policy.projectId = queue.projectId

/-- A job's template is null or one of the same queue. -/
def Db.TemplateInside (db : Db) (job : Job) : Prop :=
  ∀ templateId, job.scheduledJobId = some templateId →
    ∃ template, db.findTemplate templateId = some template ∧ template.queueId = job.queueId

/-- What a job depends on and still exists lies in a queue of the same project. -/
def Db.DependenciesInside (db : Db) (job : Job) : Prop :=
  ∀ dep ∈ job.dependsOn.getD [], ∀ other ∈ db.jobs, other.job.id = dep →
    ∃ projectId, db.projectOf job.queueId = some projectId ∧
      db.projectOf other.job.queueId = some projectId

structure Db.Inside (db : Db) : Prop where
  policies : ∀ queue ∈ db.queues, db.PolicyInside queue
  dependencies : ∀ record ∈ db.jobs, db.DependenciesInside record.job
  templates : ∀ record ∈ db.jobs, db.TemplateInside record.job
  letters : ∀ record ∈ db.jobs, ∀ entry ∈ record.deadLetters, entry.queueId = record.job.queueId

/-- A job which a tick is about to insert: its template and its queue are locked. -/
structure Spawned (state : System) (sid : Sid) (job : Job) : Prop where
  noDeps : job.dependsOn = none
  queued : job.status = .queued
  unfinished : job.finishedAt = none
  template : ∃ template, state.db.findTemplate template.id = some template ∧
    job.scheduledJobId = some template.id ∧ template.queueId = job.queueId ∧
    Holds state.grants sid (.scheduledJob template.id, .noKeyUpdate)
  queue : ∃ projectId, state.db.projectOf job.queueId = some projectId
  locked : Holds state.grants sid (.queue job.queueId, .keyShare)

structure References (state : System) : Prop where
  inside : state.db.Inside
  housed : ∀ record ∈ state.db.jobs,
    ∃ projectId, state.db.projectOf record.job.queueId = some projectId
  older : ∀ record ∈ state.db.jobs, ∀ dep ∈ record.job.dependsOn.getD [], dep < state.nextUuid
  spawning : ∀ sid current, state.sessions sid = .tick current →
    ∀ job ∈ current.spawned, Spawned state sid job

/-! Lookups by primary key. -/

section Lookups
variable {Row : Type} {key : Row → Uuid} {rows : List Row} {id : Uuid} {row : Row}

theorem find_append (found : rows.find? (fun row => key row = id) = some row) (more : List Row) :
    (rows ++ more).find? (fun row => key row = id) = some row := by
  rw [List.find?_append, found]
  rfl

theorem find_map {f : Row → Row} (keeps : ∀ row, key (f row) = key row) :
    (rows.map f).find? (fun row => key row = id) =
      (rows.find? fun row => key row = id).map f := by
  rw [List.find?_map]
  congr 2
  funext row
  simp only [Function.comp, keeps]

theorem find_filter {stays : Row → Bool} (found : rows.find? (fun row => key row = id) = some row)
    (kept : stays row = true) : (rows.filter stays).find? (fun row => key row = id) = some row := by
  induction rows with
  | nil => cases found
  | cons first rest ih =>
    rw [List.find?_cons] at found
    by_cases same : key first = id
    · simp only [same, decide_true, Option.some.injEq] at found
      subst found
      simp [kept, same]
    · simp only [same, decide_false] at found
      rw [List.filter_cons]
      split
      · rw [List.find?_cons]
        simp only [same, decide_false]
        exact ih found
      · exact ih found

theorem find_of_mem (distinct : (rows.map key).Nodup) (member : row ∈ rows) :
    rows.find? (fun other => key other = key row) = some row := by
  cases found : rows.find? (fun other => key other = key row) with
  | none =>
    have missing := List.find?_eq_none.mp found row member
    simp at missing
  | some other =>
    have same : key other = key row := by simpa using List.find?_some found
    rw [List.inj_on_of_nodup_map distinct (List.mem_of_find?_eq_some found) member same]

end Lookups

section Commits
variable {env : Environment} {state : System} {sid : Sid} {next : Session} {patch : Patch}

/-- A queue keeps its project until it is deleted with all its jobs, under a lock. -/
theorem Publishes.projectOf (publishes : Publishes env state sid next patch) {queueId projectId : Uuid}
    (found : state.db.projectOf queueId = some projectId) :
    (state.db.apply patch).projectOf queueId = some projectId ∨
      (state.waits sid (.queue queueId, .update) = false ∧ patch.newJobs = [] ∧
        (∀ record ∈ state.db.jobs, record.job.queueId = queueId →
          record.job.id ∈ patch.deletedJobs)) := by
  obtain ⟨queue, present, rfl⟩ := Option.map_eq_some_iff.mp found
  have unchanged : patch.queues = id →
      (state.db.apply patch).projectOf queueId = some queue.projectId := by
    intro same
    rw [← found, Db.projectOf, Db.projectOf, Db.findQueue, Db.findQueue, Db.apply, same]
    rfl
  have mapped : ∀ f : Queue → Queue, (∀ queue, (f queue).id = queue.id) →
      (∀ queue, (f queue).projectId = queue.projectId) → patch.queues = (fun rows => rows.map f) →
      (state.db.apply patch).projectOf queueId = some queue.projectId := by
    intro f keeps lies same
    simp only [Db.projectOf, Db.findQueue, Db.apply, same]
    rw [find_map keeps, show state.db.queues.find? _ = some queue from present]
    simp [lies]
  cases publishes with
  | rows _ _ _ _ queues => exact .inl (unchanged queues)
  | tick _ made =>
    cases made
    exact .inl (unchanged rfl)
  | api _ answers free =>
    cases answers with
    | createQueue made =>
      refine .inl ?_
      simp only [Db.projectOf, Db.findQueue, Db.apply]
      rw [find_append present]
      rfl
    | updateQueue made =>
      obtain ⟨rfl, _⟩ := updateQueue_write made
      exact .inl (mapped _ (onId_id fun _ => by rfl)
        (fun queue => by unfold onId; split <;> rfl) rfl)
    | setPaused made =>
      cases setPaused_write made
      exact .inl (mapped _ (onId_id fun _ => by rfl)
        (fun queue => by unfold onId; split <;> rfl) rfl)
    | deleteRetryPolicy =>
      refine .inl (mapped _ ?_ ?_ rfl) <;> intro row <;> split <;> rfl
    | @deleteQueue id _ _ made =>
      cases made
      by_cases same : id = queueId
      · subst same
        refine .inr ⟨Base.unblocked free _ (List.mem_append_left _ List.mem_cons_self), rfl, ?_⟩
        intro record member inside
        exact List.mem_map.mpr ⟨record, List.mem_filter.mpr ⟨member, by simpa using inside⟩, rfl⟩
      · refine .inl ?_
        have other : queue.id ≠ id := by
          have named : queue.id = queueId := by simpa using List.find?_some present
          exact fun equal => same (equal.symm.trans named)
        simp only [Db.projectOf, Db.findQueue, Db.apply]
        rw [find_filter present (by simpa using other)]
        rfl
    | deleteSchedule made =>
      cases made
      exact .inl (unchanged rfl)
    | _ => exact .inl (unchanged rfl)

/-- A template keeps its queue until it is deleted, under a lock on it or on its queue. -/
theorem Publishes.template (publishes : Publishes env state sid next patch) {templateId : Uuid}
    {template : ScheduledJob} (found : state.db.findTemplate templateId = some template) :
    (∃ newer, (state.db.apply patch).findTemplate templateId = some newer ∧
        newer.id = template.id ∧ newer.queueId = template.queueId) ∨
      (state.waits sid (.scheduledJob templateId, .update) = false ∧ patch.newJobs = [] ∧
        ∀ record : JobRecord, (patch.job record).job.scheduledJobId ≠ some templateId) ∨
      (state.waits sid (.queue template.queueId, .update) = false ∧ patch.newJobs = [] ∧
        ∀ record ∈ state.db.jobs, record.job.queueId = template.queueId →
          record.job.id ∈ patch.deletedJobs) := by
  have named : template.id = templateId := by simpa using List.find?_some found
  have mapped : ∀ f : ScheduledJob → ScheduledJob,
      (∀ row, (f row).id = row.id ∧ (f row).queueId = row.queueId) →
      patch.scheduledJobs = (fun rows => rows.map f) → ∃ newer,
        (state.db.apply patch).findTemplate templateId = some newer ∧ newer.id = template.id ∧
          newer.queueId = template.queueId := by
    intro f keeps same
    refine ⟨f template, ?_, keeps template⟩
    simp only [Db.findTemplate, Db.apply, same]
    rw [find_map fun row => (keeps row).1, show state.db.scheduledJobs.find? _ = some template from found]
    rfl
  have unchanged : patch.scheduledJobs = id → ∃ newer,
      (state.db.apply patch).findTemplate templateId = some newer ∧ newer.id = template.id ∧
        newer.queueId = template.queueId := by
    intro same
    refine ⟨template, ?_, rfl, rfl⟩
    simp only [Db.findTemplate, Db.apply, same]
    exact found
  cases publishes with
  | rows _ _ _ _ _ _ templates => exact .inl (unchanged templates)
  | tick _ made =>
    cases made
    refine .inl (mapped _ (fun row => ?_) rfl)
    refine writes_keep (fun first row => row.id = first.id ∧ row.queueId = first.queueId)
      (fun _ => ⟨rfl, rfl⟩) ?_ _ row
    intro first row change kept
    refine ⟨(change.write_id row).trans kept.1, ?_⟩
    rw [← kept.2]
    cases change <;> simp only [ScheduleWrite.write, onId] <;> split <;> rfl
  | api _ answers free =>
    cases answers with
    | createSchedule made =>
      refine .inl ⟨template, ?_, rfl, rfl⟩
      simp only [Db.findTemplate, Db.apply]
      exact find_append found _
    | updateSchedule made =>
      refine .inl (mapped _ (fun row => ?_) rfl)
      unfold onId
      split
      · exact updateSchedule_id made row
      · exact ⟨rfl, rfl⟩
    | @deleteSchedule id _ _ made =>
      cases made
      by_cases same : templateId = id
      · subst same
        refine .inr (.inl ⟨Base.unblocked free _ List.mem_cons_self, rfl, ?_⟩)
        intro record
        simp only [JobRecord.detach]
        split
        · simp
        · assumption
      · refine .inl ⟨template, ?_, rfl, rfl⟩
        simp only [Db.findTemplate, Db.apply]
        exact find_filter found (by simpa [named] using same)
    | @deleteQueue id _ _ made =>
      cases made
      by_cases same : template.queueId = id
      · subst same
        refine .inr (.inr
          ⟨Base.unblocked free _ (List.mem_append_left _ List.mem_cons_self), rfl, ?_⟩)
        intro record member inside
        exact List.mem_map.mpr ⟨record, List.mem_filter.mpr ⟨member, by simpa using inside⟩, rfl⟩
      · refine .inl ⟨template, ?_, rfl, rfl⟩
        simp only [Db.findTemplate, Db.apply]
        exact find_filter found (by simpa using same)
    | _ => exact .inl (unchanged rfl)

theorem validateRetryPolicy_inside {db : Db} {queue : Queue}
    (valid : validateRetryPolicy db queue.retryPolicyId queue.projectId = true) :
    db.PolicyInside queue := by
  intro policyId named
  simp only [validateRetryPolicy, named, Option.all_some, Option.any_eq_true,
    decide_eq_true_eq] at valid
  obtain ⟨policy, found, lies⟩ := valid
  exact ⟨policy, by simp [Db.retryPolicyOf, named, found], lies⟩

/-- Only the policies of the database and two columns of the queue matter. -/
theorem Db.PolicyInside.congr {db after : Db} {queue written : Queue}
    (inside : db.PolicyInside queue) (policies : after.retryPolicies = db.retryPolicies)
    (named : written.retryPolicyId = queue.retryPolicyId)
    (lies : written.projectId = queue.projectId) : after.PolicyInside written := by
  intro policyId refers
  obtain ⟨policy, found, project⟩ := inside policyId (named ▸ refers)
  refine ⟨policy, ?_, project.trans lies.symm⟩
  rw [← found, Db.retryPolicyOf, Db.retryPolicyOf, named, policies]

/-- A change of the policies after which the one which the queue names is still there. -/
theorem Db.PolicyInside.moved {db after : Db} {queue : Queue} (inside : db.PolicyInside queue)
    (keeps : ∀ policyId policy, queue.retryPolicyId = some policyId →
      db.retryPolicies.find? (fun policy => policy.id = policyId) = some policy →
      ∃ newer, after.retryPolicies.find? (fun policy => policy.id = policyId) = some newer ∧
        newer.projectId = policy.projectId) : after.PolicyInside queue := by
  intro policyId refers
  obtain ⟨policy, found, project⟩ := inside policyId refers
  simp only [Db.retryPolicyOf, refers, Option.bind_some] at found ⊢
  obtain ⟨newer, there, same⟩ := keeps policyId policy refers found
  exact ⟨newer, there, same.trans project⟩

theorem updateQueue_inside {db : Db} (distinct : (db.queues.map Queue.id).Nodup) {id : Uuid}
    {body : QueueUpdate} {f : Queue → Queue} (made : updateQueue db id body = .ok f) {queue : Queue}
    (member : queue ∈ db.queues) (same : queue.id = id) (inside : db.PolicyInside queue) :
    db.PolicyInside (f queue) := by
  obtain ⟨rfl, found, lookup, valid⟩ := updateQueue_write made
  have identical : found = queue := by
    rw [Db.findQueue, ← same, find_of_mem distinct member] at lookup
    exact (Option.some.inj lookup).symm
  subst identical
  cases sent : body.retryPolicyId with
  | none => exact inside.congr rfl (by simp [QueueUpdate.write, sent]) rfl
  | some policyId =>
    refine validateRetryPolicy_inside ?_
    simpa [QueueUpdate.write, sent] using valid

/-- A PATCH or an INSERT of a queue names a policy of its project, and no other commit
moves a policy away. -/
theorem Publishes.policies (publishes : Publishes env state sid next patch)
    (distinct : (state.db.queues.map Queue.id).Nodup)
    (inside : ∀ queue ∈ state.db.queues, state.db.PolicyInside queue) :
    ∀ queue ∈ (state.db.apply patch).queues, (state.db.apply patch).PolicyInside queue := by
  have unchanged : patch.queues = id → patch.retryPolicies = id →
      ∀ queue ∈ (state.db.apply patch).queues, (state.db.apply patch).PolicyInside queue := by
    intro queues policies queue member
    simp only [Db.apply, queues, id] at member
    exact (inside queue member).congr (by simp only [Db.apply, policies, id]) rfl rfl
  cases publishes with
  | rows _ _ _ _ queues policies => exact unchanged queues policies
  | tick _ made =>
    cases made
    exact unchanged rfl rfl
  | api _ answers =>
    cases answers with
    | createQueue made =>
      intro queue member
      rcases List.mem_append.mp member with old | new
      · exact (inside queue old).congr rfl rfl rfl
      · rw [List.mem_singleton.mp new]
        exact (validateRetryPolicy_inside (createQueue_row made).2).congr rfl rfl rfl
    | updateQueue made =>
      intro queue member
      obtain ⟨old, present, rfl⟩ := List.mem_map.mp member
      unfold onId
      split
      · rename_i same
        exact (updateQueue_inside distinct made present same (inside old present)).congr rfl rfl rfl
      · exact (inside old present).congr rfl rfl rfl
    | setPaused made =>
      cases setPaused_write made
      intro queue member
      obtain ⟨old, present, rfl⟩ := List.mem_map.mp member
      refine (inside old present).congr rfl ?_ ?_ <;> unfold onId <;> split <;> rfl
    | deleteQueue made =>
      cases made
      intro queue member
      exact (inside queue (List.mem_of_mem_filter member)).congr rfl rfl rfl
    | createRetryPolicy made =>
      intro queue member
      exact (inside queue member).moved fun policyId policy _ found =>
        ⟨policy, find_append found _, rfl⟩
    | @updateRetryPolicy id body _ made =>
      cases updateRetryPolicy_write made
      intro queue member
      refine (inside queue member).moved fun policyId policy _ found =>
        ⟨onId RetryPolicy.id id body.write policy, ?_, ?_⟩
      · show (state.db.retryPolicies.map _).find? _ = _
        rw [find_map (onId_id fun _ => by rfl), found]
        rfl
      · unfold onId
        split <;> rfl
    | @deleteRetryPolicy id =>
      intro queue member
      obtain ⟨old, present, rfl⟩ := List.mem_map.mp member
      by_cases named : old.retryPolicyId = some id
      · intro policyId refers
        simp [named] at refers
      · simp only [named, if_false]
        refine (inside old present).moved fun policyId policy refers found => ⟨policy, ?_, rfl⟩
        have other : policy.id ≠ id := by
          rintro rfl
          have same : policy.id = policyId := by simpa using List.find?_some found
          exact named (same ▸ refers)
        exact find_filter found (by simpa using other)
    | deleteSchedule made =>
      cases made
      exact unchanged rfl rfl
    | _ => exact unchanged rfl rfl

end Commits

section Steps
variable {env : Environment} {state after : System} {sid : Sid} {next : Session} {patch : Patch}

/-- What a commit inserts refers to what its transaction has checked, or locked. -/
theorem References.inserted (references : References state) (shape : Shape state)
    (publishes : Publishes env state sid next patch) {job : Job} (listed : job ∈ patch.newJobs) :
    (∃ projectId, (state.db.apply patch).projectOf job.queueId = some projectId) ∧
      (state.db.apply patch).TemplateInside job ∧
      ∀ dep ∈ job.dependsOn.getD [], ∃ other ∈ state.db.jobs, other.job.id = dep ∧
        state.db.projectOf other.job.queueId = (state.db.apply patch).projectOf job.queueId := by
  have inserts : patch.newJobs ≠ [] := List.ne_nil_of_mem listed
  have project : ∀ {queueId projectId : Uuid}, state.db.projectOf queueId = some projectId →
      (state.db.apply patch).projectOf queueId = some projectId := fun found =>
    (publishes.projectOf found).resolve_right fun gone => inserts gone.2.1
  have template : ∀ {templateId : Uuid} {template : ScheduledJob},
      state.db.findTemplate templateId = some template → ∃ newer,
        (state.db.apply patch).findTemplate templateId = some newer ∧
          newer.queueId = template.queueId := by
    intro templateId template found
    rcases publishes.template found with ⟨newer, there, _, same⟩ | gone | gone
    · exact ⟨newer, there, same⟩
    · exact absurd gone.2.1 inserts
    · exact absurd gone.2.1 inserts
  have housed : ∀ {queueId : Uuid} {queue : Queue}, state.db.findQueue queueId = some queue →
      state.db.projectOf queue.id = some queue.projectId := by
    intro queueId queue found
    have named : queue.id = queueId := by simpa using List.find?_some found
    rw [Db.projectOf, named, found]
    rfl
  cases publishes with
  | rows _ _ inserted => exact absurd inserted inserts
  | tick running made =>
    cases made
    obtain ⟨spawned, there, index, _, rfl⟩ := numbered_member listed
    have fact := references.spawning sid _ running spawned there
    obtain ⟨projectId, lies⟩ := fact.queue
    refine ⟨⟨projectId, project lies⟩, ?_, by simp [fact.noDeps]⟩
    intro templateId refers
    obtain ⟨sched, found, named, same, _⟩ := fact.template
    cases Option.some.inj (named.symm.trans refers)
    obtain ⟨newer, present, queue⟩ := template found
    exact ⟨newer, present, queue.trans same⟩
  | api _ answers =>
    cases answers with
    | @createJob body created made =>
      cases created with
      | none => cases listed
      | some row =>
        cases List.mem_singleton.mp listed
        obtain ⟨queue, found, _, depends, _, rfl⟩ := createJob_row made
        have lies := project (housed found)
        refine ⟨⟨_, lies⟩, by simp [Db.TemplateInside, JobCreate.row], ?_⟩
        intro dep member
        obtain ⟨record, present, rfl, theirs, lookup, same⟩ :=
          validateDependsOn_found shape.distinct depends dep member
        refine ⟨record, present, rfl, ?_⟩
        show _ = Db.projectOf _ queue.id
        rw [lies, Db.projectOf, lookup, Option.map_some, same]
    | createBatch made =>
      obtain ⟨queue, found, rfl⟩ := createBatch_rows made
      obtain ⟨index, _, _, inQueue, noDeps, noTemplate, _⟩ := mem_batch_rows listed
      refine ⟨⟨queue.projectId, ?_⟩, ?_, by simp [noDeps]⟩
      · rw [inQueue]
        exact project (housed found)
      · intro templateId refers
        rw [noTemplate] at refers
        cases refers
    | deleteSchedule made | deleteQueue made =>
      cases made
      cases listed
    | _ => cases listed

theorem References.commit (references : References state) (shape : Shape state)
    (publishes : Publishes env state sid next patch) :
    References (state.commit sid next patch) := by
  have inserted : ∀ {job : Job}, job ∈ patch.newJobs → _ := references.inserted shape publishes
  have drawn := publishes.inserted shape.positive
  have project : ∀ record ∈ state.db.jobs, record.job.id ∉ patch.deletedJobs → ∀ projectId,
      state.db.projectOf record.job.queueId = some projectId →
      (state.db.apply patch).projectOf record.job.queueId = some projectId := by
    intro record member stays projectId found
    rcases publishes.projectOf found with kept | ⟨_, _, deleted⟩
    · exact kept
    · exact absurd (deleted record member rfl) stays
  refine ⟨⟨publishes.policies shape.issued.queues.1 references.inside.policies, ?_, ?_, ?_⟩,
    ?_, ?_, ?_⟩
  · intro record member dep refers other there same
    rcases publishes.origin member with ⟨old, present, stays, _, kept⟩ | ⟨job, listed, rfl⟩
    · have depends : record.job.dependsOn = old.job.dependsOn :=
        congrArg (fun identity => identity.2.2.2) kept.identity
      rw [depends] at refers
      have below := references.older old present dep refers
      rcases publishes.origin there with ⟨seen, found, survives, _, left⟩ | ⟨fresh, drew, rfl⟩
      · have id : seen.job.id = dep := left.job_id.symm.trans same
        obtain ⟨projectId, mine, theirs⟩ :=
          references.inside.dependencies old present dep refers seen found id
        rw [kept.queueId, left.queueId]
        exact ⟨projectId, project old present stays _ mine, project seen found survives _ theirs⟩
      · have above := (drawn.2 fresh drew).1
        exact absurd (same ▸ below) (Nat.not_lt.mpr above)
    · obtain ⟨⟨projectId, mine⟩, _, depends⟩ := inserted listed
      obtain ⟨named, known, rfl, inside⟩ := depends dep refers
      rcases publishes.origin there with ⟨seen, found, survives, _, left⟩ | ⟨fresh, drew, rfl⟩
      · have id : seen.job.id = named.job.id := left.job_id.symm.trans same
        have identical := unique_record shape.distinct found known id
        subst identical
        rw [left.queueId]
        exact ⟨projectId, mine, project seen found survives _ (inside.trans mine)⟩
      · have above := (drawn.2 fresh drew).1
        exact absurd (same ▸ shape.id_lt known) (Nat.not_lt.mpr above)
  · intro record member
    rcases publishes.origin member with ⟨old, present, stays, rfl, kept⟩ | ⟨job, listed, rfl⟩
    · intro templateId refers
      rcases kept.template with same | cleared
      · obtain ⟨template, found, queue⟩ :=
          references.inside.templates old present templateId (same.symm.trans refers)
        rcases publishes.template found with ⟨newer, there, _, moved⟩ | gone | gone
        · exact ⟨newer, there, by rw [kept.queueId, moved, queue]⟩
        · exact absurd refers (gone.2.2 old)
        · exact absurd (gone.2.2 old present queue.symm) stays
      · rw [cleared] at refers
        cases refers
    · exact (inserted listed).2.1
  · intro record member entry listed
    rcases publishes.origin member with ⟨old, present, _, _, kept⟩ | ⟨job, _, rfl⟩
    · rw [kept.queueId]
      rcases kept.letters entry listed with queue | ⟨earlier, there, same⟩
      · exact queue
      · exact same.symm.trans (references.inside.letters old present earlier there)
    · cases listed
  · intro record member
    rcases publishes.origin member with ⟨old, present, stays, _, kept⟩ | ⟨job, listed, rfl⟩
    · obtain ⟨projectId, lies⟩ := references.housed old present
      rw [kept.queueId]
      exact ⟨projectId, project old present stays _ lies⟩
    · exact (inserted listed).1
  · intro record member dep refers
    rw [System.commit_nextUuid]
    rcases publishes.origin member with ⟨old, present, _, _, kept⟩ | ⟨job, listed, rfl⟩
    · have depends : record.job.dependsOn = old.job.dependsOn :=
        congrArg (fun identity => identity.2.2.2) kept.identity
      have below := references.older old present dep (depends ▸ refers)
      lia
    · obtain ⟨other, present, rfl, _⟩ := (inserted listed).2.2 dep refers
      have below := shape.id_lt present
      lia
  · refine System.update_sessions (fun other session => ∀ current, session = .tick current →
      ∀ job ∈ current.spawned, Spawned (state.commit sid next patch) other job) ?_ ?_
    · exact fun current ticking => absurd ticking (publishes.not_tick current)
    · intro other different current ticking job listed
      obtain ⟨noDeps, queued, unfinished, ⟨template, found, named, queue, held⟩, ⟨projectId, lies⟩,
        locked⟩ :=
        references.spawning other current ticking job listed
      have queueFree : state.waits sid (.queue job.queueId, .update) ≠ false :=
        fun free => different (locked.excludes free rfl)
      refine ⟨noDeps, queued, unfinished, ?_, ?_, locked.release different⟩
      · rcases publishes.template found with ⟨newer, there, same, moved⟩ | gone | gone
        · exact ⟨newer, by rw [same]; exact there, by rw [same]; exact named, by rw [moved, queue],
            by rw [same]; exact held.release different⟩
        · exact absurd (held.excludes gone.1 rfl) different
        · exact absurd (queue ▸ gone.1) queueFree
      · rcases publishes.projectOf lies with kept | gone
        · exact ⟨projectId, kept⟩
        · exact absurd gone.1 queueFree

theorem Spawned.hold {other : Sid} {job : Job} (spawned : Spawned state other job)
    (locks : List Lock) : Spawned (state.hold sid next locks) other job := by
  obtain ⟨template, found, named, queue, held⟩ := spawned.template
  exact ⟨spawned.noDeps, spawned.queued, spawned.unfinished, ⟨template, found, named, queue, held.acquire locks⟩,
    spawned.queue, spawned.locked.acquire locks⟩

theorem References.hold (references : References state) (shape : Shape state) {locks : List Lock}
    (advance : Advance env state (state.sessions sid) next locks)
    (ticks : ∀ current, state.sessions sid = .tick current →
      ∃ tick, next = .tick tick ∧ Ticks env state current tick locks) :
    References (state.hold sid next locks) := by
  refine ⟨references.inside, references.housed, ?_, ?_⟩
  · intro record member dep refers
    have below := references.older record member dep refers
    rw [System.hold_nextUuid]
    lia
  refine System.update_sessions (fun other session => ∀ current, session = .tick current →
    ∀ job ∈ current.spawned, Spawned (state.hold sid next locks) other job) ?_ ?_
  · intro tick ticking job listed
    have before := references.spawning sid
    rcases advance.tick_origin ticking with ⟨_, now, rfl⟩ | ⟨current, running⟩
    · cases listed
    obtain ⟨_, same, ticks⟩ := ticks current running
    cases ticking.symm.trans same
    rcases ticks.spawned with kept | ⟨now, made⟩
    · exact (before current running job (kept ▸ listed)).hold locks
    · obtain ⟨sched, member, queue, found, rfl, template, locked⟩ :=
        promoteCronJobs_spawned made job listed
      have named : queue.id = sched.queueId := by simpa using List.find?_some found
      refine ⟨rfl, rfl, rfl, ⟨sched, find_of_mem shape.issued.templates.1 member, rfl, rfl,
        holds_of_acquired template⟩, ⟨queue.projectId, ?_⟩, ?_⟩
      · show (state.db.findQueue sched.queueId).map Queue.projectId = _
        rw [found]
        rfl
      · show Holds _ sid (Key.queue sched.queueId, Mode.keyShare)
        rw [← named]
        exact holds_of_acquired locked
  · intro other _ current ticking job listed
    exact (references.spawning other current ticking job listed).hold locks

/-- Steps which leave the tables to which jobs refer, and every session which ticks. -/
theorem References.relax (references : References state) (jobs : after.db.jobs = state.db.jobs)
    (queues : after.db.queues = state.db.queues)
    (policies : after.db.retryPolicies = state.db.retryPolicies)
    (templates : after.db.scheduledJobs = state.db.scheduledJobs)
    (grows : state.nextUuid ≤ after.nextUuid)
    (sessions : ∀ sid current, after.sessions sid = .tick current →
      state.sessions sid = .tick current ∧ ∀ lock, Holds state.grants sid lock →
        Holds after.grants sid lock) : References after := by
  have lookup : ∀ queueId, after.db.findQueue queueId = state.db.findQueue queueId := by
    intro queueId
    rw [Db.findQueue, Db.findQueue, queues]
  have template : ∀ id, after.db.findTemplate id = state.db.findTemplate id := by
    intro id
    rw [Db.findTemplate, Db.findTemplate, templates]
  refine ⟨⟨?_, ?_, ?_, ?_⟩, ?_, ?_, ?_⟩
  · intro queue member
    rw [queues] at member
    exact (references.inside.policies queue member).congr policies rfl rfl
  · intro record member
    rw [jobs] at member
    have before := references.inside.dependencies record member
    simpa only [Db.DependenciesInside, Db.projectOf, jobs, lookup] using before
  · intro record member
    rw [jobs] at member
    have before := references.inside.templates record member
    simpa only [Db.TemplateInside, template] using before
  · intro record member
    rw [jobs] at member
    exact references.inside.letters record member
  · intro record member
    rw [jobs] at member
    simpa only [Db.projectOf, lookup] using references.housed record member
  · intro record member dep refers
    rw [jobs] at member
    exact Nat.lt_of_lt_of_le (references.older record member dep refers) grows
  · intro sid current ticking job listed
    obtain ⟨running, kept⟩ := sessions sid current ticking
    obtain ⟨noDeps, queued, unfinished, ⟨sched, found, named, queue, held⟩, lies, locked⟩ :=
      references.spawning sid current running job listed
    refine ⟨noDeps, queued, unfinished, ⟨sched, (template _).trans found, named, queue, kept _ held⟩, ?_, kept _ locked⟩
    simpa only [Db.projectOf, lookup] using lies

theorem References.rollback (references : References state) (sid : Sid) :
    References (state.rollback sid) := by
  refine references.relax rfl rfl rfl rfl (Nat.le_refl _) ?_
  intro other current ticking
  by_cases same : other = sid
  · subst same
    simp at ticking
  · rw [System.rollback_sessions, Function.update_of_ne same] at ticking
    exact ⟨ticking, fun lock held => held.release same⟩

theorem References.submit (references : References state) (sid newSid : Sid) (workerId : Uuid)
    (task : Task) (rest : List Task) :
    References (state.handed sid newSid workerId task rest) := by
  refine references.relax rfl rfl rfl rfl (Nat.le_refl _) ?_
  refine System.handed_forall (fun other session => ∀ current, session = .tick current →
    state.sessions other = .tick current ∧ ∀ lock, Holds state.grants other lock →
      Holds state.grants other lock) ?_ ?_ ?_
  · intro current ticking
    cases ticking
  · intro current ticking
    unfold handingOver at ticking
    split at ticking <;> cases ticking
  · exact fun other _ current ticking => ⟨ticking, fun _ => id⟩

theorem References.run (references : References state) (shape : Shape state)
    (executes : Executes env state sid after) : References after := by
  cases executes with
  | hold advance ticks => exact references.hold shape advance ticks
  | commit publishes => exact references.commit shape publishes
  | rollback => exact references.rollback sid

theorem References.step (references : References state) (shape : Shape state) {action : Action}
    (taken : Pulse.step env state action = some after) : References after := by
  cases step_inverted taken with
  | begin idle made performed => exact references.run shape (Request.executes idle made performed)
  | next _ made performed => exact references.run shape (shape.executes made performed)
  | fail => exact references.rollback _
  | submit => exact references.submit ..
  | exit =>
    exact references.relax rfl rfl rfl rfl (Nat.le_refl _) fun _ _ ticking => ⟨ticking, fun _ => id⟩
  | reregister =>
    refine references.relax rfl rfl rfl rfl ?_ fun _ _ ticking => ⟨ticking, fun _ => id⟩
    show state.nextUuid ≤ 2 * state.nextUuid
    lia

end Steps

theorem initial_references : References {} where
  inside := by constructor <;> exact fun _ member => nomatch member
  housed := fun _ member => nomatch member
  older := fun _ member => nomatch member
  spawning := fun _ _ ticking => nomatch ticking

theorem References.reachable {env : Environment} {allowed : System → Action → Prop}
    {state : System} (reachable : (pulse env).Reachable allowed state) : References state := by
  have both : Shape state ∧ References state := by
    refine @Machine.Reachable.invariant _ _ (pulse env) allowed
      (fun state => Shape state ∧ References state) ?_ ?_ state reachable
    · rintro _ rfl
      exact ⟨initial_shape, initial_references⟩
    · rintro earlier action next ⟨shape, references⟩ _ taken
      exact ⟨shape.step taken, references.step shape taken⟩
  exact both.2

/-- In every reachable state the references between rows stay inside a project, and
those of a job to its template and of a dead letter to its queue inside a queue. -/
theorem references_inside {env : Environment} {state : System}
    (reachable : (pulse env).Reachable anyStep state) : state.db.Inside :=
  (References.reachable reachable).inside

/-- A template fires every minute. -/
def everyMinute : Environment where
  handover := .reread
  getNext := fun _ _ base => some (base + 60)

/-- A queue with a policy, a job which dies, a job which depends on it and a template which
spawns a third. -/
def referring : List Action := [
  .begin 0 (.api 0 (.createRetryPolicy {
    projectId := 7
    name := "once"
    strategy := .fixed
    baseDelaySec := 1
    maxDelaySec := 1
    maxAttempts := 1 })),
  .begin 0 (.api 0 (.createQueue { projectId := 7, name := "default", retryPolicyId := some 1 })),
  .begin 0 (.api 0 .registerWorker),
  .begin 0 (.api 0 (.createJob { queueId := 2, type := .immediate, handler := "fail" })),
  .begin 0 (.api 0 (.createJob
    { queueId := 2, type := .immediate, handler := "noop", dependsOn := some [8] })),
  .begin 0 (.api 0 (.createSchedule { queueId := 2, cronExpr := "* * * * *", handler := "noop" })),
  .begin 1 (.claimJobs 2 4 1 0),
  .next 1 { picked := [8] },
  .next 1 {},
  .next 1 {},
  .submit 1 10,
  .next 10 {},
  .next 10 {},
  .next 10 { outcome := .failure "RuntimeError" "boom" },
  .next 10 {},
  .next 10 {},
  .begin 2 (.tick 100),
  .next 2 {},
  .next 2 {},
  .next 2 { now := 100 },
  .next 2 {},
  .next 2 { now := 100 },
  .next 2 { jobId := 17 },
  .next 2 {}]

theorem references_inside_used : ∃ state, (pulse everyMinute).Reachable anyStep state ∧
    (∃ queue ∈ state.db.queues, queue.retryPolicyId.isSome = true) ∧
    (∃ record ∈ state.db.jobs, record.job.dependsOn = some [8]) ∧
    (∃ record ∈ state.db.jobs, record.job.scheduledJobId.isSome = true) ∧
    (∃ record ∈ state.db.jobs, record.deadLetters ≠ []) ∧ state.db.Inside := by
  have ran : ((pulse everyMinute).run anyStep {} referring).any (fun state =>
      (state.db.queues.any fun queue => queue.retryPolicyId.isSome) &&
      (state.db.jobs.any fun record => record.job.dependsOn = some [8]) &&
      (state.db.jobs.any fun record => record.job.scheduledJobId.isSome) &&
      (state.db.jobs.any fun record => record.deadLetters ≠ [])) = true := by
    decide +kernel
  obtain ⟨state, reachable, passes⟩ := Machine.reachable_of_check rfl referring ran
  simp only [Bool.and_eq_true, List.any_eq_true, decide_eq_true_eq] at passes
  obtain ⟨⟨⟨policy, depends⟩, template⟩, letter⟩ := passes
  exact ⟨state, reachable, policy, depends, template, letter, references_inside reachable⟩

end Pulse
