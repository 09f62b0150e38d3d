import Pulse.Engine.Dependencies
import Pulse.Safety.References
import Pulse.System.Fenced

/-! Dependencies: every job depends on older jobs, so what waits leads to something that
can still move. -/
namespace Pulse
open Library.Lts

/-- No job is deleted: a queue is deleted only when it has none. -/
def KeepsJobs (state : System) : Action → Prop
  | .begin _ (.api _ (.deleteQueue queueId)) => ∀ record ∈ state.db.jobs, record.job.queueId ≠ queueId
  | _ => True

def Action.deletes : Action → Option Uuid
  | .begin _ (.api _ (.deleteQueue queueId)) => some queueId
  | _ => none

instance (state : System) (action : Action) : Decidable (KeepsJobs state action) :=
  decidable_of_iff (∀ queueId ∈ action.deletes, ∀ record ∈ state.db.jobs,
      record.job.queueId ≠ queueId) (by
    unfold KeepsJobs Action.deletes
    split <;> simp)

/-- What is known of a job when it is inserted. -/
structure Job.Entered (db : Db) (bound : Uuid) (job : Job) : Prop where
  fresh : bound ≤ job.id
  status : job.status = .scheduled ∨ (job.status = .queued ∧ job.noDeps = true)
  unfinished : job.finishedAt = none
  present : ∀ dep ∈ job.dependsOn.getD [], ∃ other ∈ db.jobs, other.job.id = dep

section Ticks
variable {state : System} {current : Tick} {now : Time}

/-- The targets which a tick decides about are the jobs which the loop changes, each with
the change it makes. -/
theorem decideDependents_resolves (distinct : (state.db.jobs.map fun record => record.job.id).Nodup)
    {decided : Tick} (made : decideDependents state current
      (pendingDependents (current.view state.db)) now = .hold (.tick decided) []) :
    ∀ record ∈ current.view state.db, resolveRecord (current.view state.db) now record =
      match decided.targets.find? fun target => target.jobId = record.job.id with
      | some target => target.change.write record
      | none => record := by
  cases made
  have unique : ((current.view state.db).map fun record => record.job.id).Nodup := by
    simpa [Tick.view, Function.comp_def] using distinct
  intro record member
  -- A target names one record of the view, which is pending and decided.
  have named : ∀ target ∈ (pendingDependents (current.view state.db)).filterMap fun dependent =>
      (resolveDependent (statusById (current.view state.db)) now dependent.2).map fun change =>
        ({ jobId := dependent.1, change, recheck := false } : Target),
      target.jobId = record.job.id → record.gated = true ∧
        resolveDependent (statusById (current.view state.db)) now
          (record.job.dependsOn.getD []) = some target.change := by
    intro target listed same
    obtain ⟨dependent, pending, decision⟩ := List.mem_filterMap.mp listed
    obtain ⟨change, chosen, rfl⟩ := Option.map_eq_some_iff.mp decision
    obtain ⟨other, present, id, depends, scheduled, gated⟩ := mem_pendingDependents.mp pending
    have identical := unique_record unique present member (id.trans same)
    subst identical
    exact ⟨by simp [JobRecord.gated, scheduled, gated], by simpa [depends] using chosen⟩
  rcases resolveRecord_cases (current.view state.db) now record with
    same | ⟨gated, change, chosen, written⟩
  · rw [same]
    split
    · rename_i target found
      have id : target.jobId = record.job.id := by simpa using List.find?_some found
      obtain ⟨gated, chosen⟩ := named target (List.mem_of_find?_eq_some found) id
      simpa [resolveRecord, gated, chosen] using same.symm
    · rfl
  · rw [written]
    have pending : (record.job.id, record.job.dependsOn.getD []) ∈
        pendingDependents (current.view state.db) := by
      simp only [JobRecord.gated, Bool.and_eq_true, decide_eq_true_eq, Bool.not_eq_true'] at gated
      refine mem_pendingDependents.mpr ⟨record, member, rfl, ?_, gated⟩
      cases depends : record.job.dependsOn with
      | none => simp [Job.noDeps, depends] at gated
      | some deps => rfl
    split
    · rename_i target found
      have id : target.jobId = record.job.id := by simpa using List.find?_some found
      have other := (named target (List.mem_of_find?_eq_some found) id).2
      rw [chosen] at other
      rw [Option.some.inj other]
    · rename_i missing
      have absent := List.find?_eq_none.mp missing ⟨record.job.id, change, false⟩
        (List.mem_filterMap.mpr ⟨_, pending, by simp [chosen]⟩)
      simp at absent

end Ticks

section Steps
variable {env : Environment} {state after : System} {sid : Sid} {next : Session} {patch : Patch}

/-- A job with dependencies starts out scheduled. -/
theorem initialStatus_gated (now : Time) (runAt : Option Time) (job : Job) :
    (initialStatusAndRunAt now runAt (hasDeps job.dependsOn)).1 = .scheduled ∨
      ((initialStatusAndRunAt now runAt (hasDeps job.dependsOn)).1 = .queued ∧
        job.noDeps = true) := by
  by_cases gated : job.noDeps = true
  · rcases initialStatus_fresh now runAt (hasDeps job.dependsOn) with queued | scheduled
    · exact .inr ⟨queued, gated⟩
    · exact .inl scheduled
  · left
    unfold Job.noDeps at gated
    unfold hasDeps initialStatusAndRunAt
    split at gated <;> simp_all

theorem References.entered (references : References state) (shape : Shape state)
    (publishes : Publishes env state sid next patch) :
    ∀ job ∈ patch.newJobs, job.Entered state.db state.nextUuid := by
  intro job listed
  have present : ∀ dep ∈ job.dependsOn.getD [], ∃ other ∈ state.db.jobs, other.job.id = dep := by
    intro dep refers
    obtain ⟨other, there, same, _⟩ := (references.inserted shape publishes listed).2.2 dep refers
    exact ⟨other, there, same⟩
  have fresh := ((publishes.inserted shape.positive).2 job listed).1
  cases publishes with
  | rows _ _ inserted =>
    rw [inserted] at listed
    cases listed
  | tick running made =>
    cases made
    obtain ⟨spawned, there, _, _, rfl⟩ := numbered_member listed
    have fact := references.spawning sid _ running spawned there
    exact ⟨fresh, .inr ⟨fact.queued, by simp [Job.noDeps, fact.noDeps]⟩, fact.unfinished, present⟩
  | api _ answers =>
    cases answers with
    | @createJob body created made =>
      cases created with
      | none => cases listed
      | some row =>
        cases List.mem_singleton.mp listed
        obtain ⟨queue, _, _, _, _, rfl⟩ := createJob_row made
        refine ⟨fresh, ?_, rfl, present⟩
        exact initialStatus_gated _ _ (body.row state.db _ state.nextUuid queue)
    | createBatch made =>
      obtain ⟨queue, _, rfl⟩ := createBatch_rows made
      obtain ⟨_, _, _, _, noDeps, _, status, unfinished⟩ := mem_batch_rows listed
      refine ⟨fresh, ?_, unfinished, present⟩
      rcases initialStatus_fresh _ _ false with queued | scheduled
      · exact .inr ⟨status.trans queued, by simp [Job.noDeps, noDeps]⟩
      · exact .inl (status.trans scheduled)
    | deleteSchedule made | deleteQueue made =>
      cases made
      cases listed
    | _ => cases listed

/-- Where a job of the next state comes from. -/
theorem step_origin (references : References state) (shape : Shape state) {action : Action}
    (taken : step env state action = some after) : ∀ record ∈ after.db.jobs,
      (∃ old ∈ state.db.jobs, old.Kept record) ∨
        ∃ job : Job, job.Entered state.db state.nextUuid ∧ record = { job } := by
  have executed : ∀ {sid}, Executes env state sid after → ∀ record ∈ after.db.jobs,
      (∃ old ∈ state.db.jobs, old.Kept record) ∨
        ∃ job : Job, job.Entered state.db state.nextUuid ∧ record = { job } := by
    intro sid executes record member
    cases executes with
    | hold | rollback => exact .inl ⟨record, member, .refl record⟩
    | commit publishes =>
      rcases publishes.origin member with ⟨old, present, _, _, kept⟩ | ⟨job, listed, rfl⟩
      · exact .inl ⟨old, present, kept⟩
      · exact .inr ⟨job, references.entered shape publishes job listed, rfl⟩
  cases step_inverted taken with
  | begin idle made performed => exact executed (Request.executes idle made performed)
  | next _ made performed => exact executed (shape.executes made performed)
  | _ => exact fun record member => .inl ⟨record, member, .refl record⟩

/-- A job is deleted only with its queue. -/
theorem step_deletes (shape : Shape state) {action : Action} (taken : step env state action = some after) :
    ∀ record ∈ state.db.jobs, (∃ later ∈ after.db.jobs, later.job.id = record.job.id) ∨
      ∃ sid now, action = .begin sid (.api now (.deleteQueue record.job.queueId)) := by
  have stays : ∀ {sid next patch}, Publishes env state sid next patch → ∀ record ∈ state.db.jobs,
      record.job.id ∉ patch.deletedJobs →
        ∃ later ∈ (state.commit sid next patch).db.jobs, later.job.id = record.job.id := by
    intro sid next patch publishes record member kept
    refine ⟨patch.job record, mem_apply_jobs.mpr (.inl ⟨record, member, kept, rfl⟩), ?_⟩
    exact (publishes.kept record).job_id
  intro record member
  cases step_inverted taken with
  | @begin sid request effect _ idle made performed =>
    cases effect with
    | hold =>
      obtain ⟨_, rfl⟩ := System.perform_hold performed
      exact .inl ⟨record, member, rfl⟩
    | commit next locks patch =>
      obtain ⟨free, rfl⟩ := System.perform_commit performed
      have publishes := Request.effect_publishes idle made free
      obtain ⟨now, call, rfl, rfl, answers⟩ := Request.effect_closes made
      cases answers with
      | @deleteQueue id _ _ deleted =>
        cases deleted
        by_cases same : record.job.queueId = id
        · exact .inr ⟨sid, now, by rw [same]⟩
        · refine .inl (stays publishes record member ?_)
          intro gone
          obtain ⟨other, doomed, twin⟩ := List.mem_map.mp gone
          obtain ⟨present, inside⟩ := List.mem_filter.mp doomed
          rw [unique_record shape.distinct present member twin] at inside
          exact same (by simpa using inside)
      | deleteSchedule deleted =>
        cases deleted
        exact .inl (stays publishes record member (by simp))
      | _ => exact .inl (stays publishes record member (by simp))
    | rollback =>
      cases Option.some.inj performed
      exact .inl ⟨record, member, rfl⟩
  | @next sid input effect _ running made performed =>
    cases effect with
    | hold =>
      obtain ⟨_, rfl⟩ := System.perform_hold performed
      exact .inl ⟨record, member, rfl⟩
    | commit next locks patch =>
      obtain ⟨_, rfl⟩ := System.perform_commit performed
      refine .inl (stays (Session.effect_publishes made) record member ?_)
      have closes := Session.effect_closes made
      generalize state.sessions sid = session at closes
      cases closes <;> simp
    | rollback =>
      cases Option.some.inj performed
      exact .inl ⟨record, member, rfl⟩
  | _ => exact .inl ⟨record, member, rfl⟩

theorem Grounded.step (grounded : Grounded state.db.jobs) (references : References state)
    (shape : Shape state) {action : Action} (keeps : KeepsJobs state action)
    (taken : Pulse.step env state action = some after) : Grounded after.db.jobs := by
  have origin := step_origin references shape taken
  have survives : ∀ record ∈ state.db.jobs,
      ∃ later ∈ after.db.jobs, later.job.id = record.job.id := by
    intro record member
    rcases step_deletes shape taken record member with stays | ⟨sid, now, rfl⟩
    · exact stays
    · exact absurd rfl (keeps record member)
  refine ⟨(shape.step taken).distinct, ?_, ?_, ?_⟩
  · intro record member dep refers
    rcases origin record member with ⟨old, present, kept⟩ | ⟨job, entered, rfl⟩
    · rw [kept.dependsOn] at refers
      rw [kept.job_id]
      exact grounded.older old present dep refers
    · obtain ⟨other, there, rfl⟩ := entered.present dep refers
      exact Nat.lt_of_lt_of_le (shape.id_lt there) entered.fresh
  · intro record member dep refers
    rcases origin record member with ⟨old, present, kept⟩ | ⟨job, entered, rfl⟩
    · rw [kept.dependsOn] at refers
      obtain ⟨other, there, rfl⟩ := grounded.present old present dep refers
      exact survives other there
    · obtain ⟨other, there, rfl⟩ := entered.present dep refers
      exact survives other there
  · intro record member
    rcases origin record member with ⟨old, present, kept⟩ | ⟨job, entered, rfl⟩
    · rcases kept.status with same | other
      · rw [same]
        exact grounded.notFailed old present
      · exact other
    · rcases entered.status with scheduled | ⟨queued, _⟩
      · simp [scheduled]
      · simp [queued]

theorem Grounded.reachable (reachable : (pulse env).Reachable KeepsJobs state) :
    Grounded state.db.jobs := by
  have both : Shape state ∧ References state ∧ Grounded state.db.jobs := by
    refine @Machine.Reachable.invariant _ _ (pulse env) KeepsJobs
      (fun state => Shape state ∧ References state ∧ Grounded state.db.jobs) ?_ ?_ state reachable
    · rintro _ rfl
      refine ⟨initial_shape, initial_references, ⟨List.nodup_nil, ?_, ?_, ?_⟩⟩ <;>
        exact fun _ member => nomatch member
    · rintro earlier action next ⟨shape, references, grounded⟩ keeps taken
      exact ⟨shape.step taken, references.step shape taken,
        grounded.step references shape keeps taken⟩
  exact both.2.2

/-- Where no job has been deleted, dependencies are acyclic, and no more passes of the loop
than there are scheduled dependents leave none which waits only for others. -/
theorem dependents_settle (reachable : (pulse env).Reachable KeepsJobs state) :
    (∀ jobId, ¬ Relation.TransGen (DependsOn state.db.jobs) jobId jobId) ∧
      ∀ clock : List Time, pendingCount state.db.jobs ≤ clock.length →
        Resolved (clock.foldl resolveDependencies state.db.jobs) := by
  have grounded := Grounded.reachable reachable
  exact ⟨grounded.acyclic, fun clock enough => grounded.resolves enough⟩

end Steps

/-- A chain of two dependents behind a cancelled job. -/
def chained : List Action := [
  .begin 0 (.api 0 (.createQueue { projectId := 0, name := "default" })),
  .begin 0 (.api 0 (.createJob { queueId := 1, type := .immediate, handler := "noop" })),
  .begin 0 (.api 0 (.createJob
    { queueId := 1, type := .immediate, handler := "noop", dependsOn := some [2] })),
  .begin 0 (.api 0 (.createJob
    { queueId := 1, type := .immediate, handler := "noop", dependsOn := some [5] })),
  .begin 1 (.cancelJob 2),
  .next 1 {}]

theorem dependents_settle_chained : ∃ state, (pulse (sample .reread)).Reachable KeepsJobs state ∧
    pendingCount state.db.jobs = 2 ∧
    ((∀ jobId, ¬ Relation.TransGen (DependsOn state.db.jobs) jobId jobId) ∧
      ∀ clock : List Time, pendingCount state.db.jobs ≤ clock.length →
        Resolved (clock.foldl resolveDependencies state.db.jobs)) := by
  have ran : ((pulse (sample .reread)).run KeepsJobs {} chained).any (fun state =>
      pendingCount state.db.jobs = 2) = true := by
    decide +kernel
  obtain ⟨state, reachable, passes⟩ := Machine.reachable_of_check rfl chained ran
  exact ⟨state, reachable, by simpa using passes, dependents_settle reachable⟩

end Pulse
