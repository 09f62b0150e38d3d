import Mathlib.Data.List.Dedup
import Pulse.Engine.Scheduler
import Pulse.Library.Passes

/-! `resolve_dependencies`, with no other transaction between its statements, and what
is left of it when it is run again and again. -/
namespace Pulse
open Library.Passes

/-- A scheduled job with dependencies: one which the first query returns. -/
def JobRecord.gated (record : JobRecord) : Bool :=
  record.job.status = .scheduled && !record.job.noDeps

/-- One iteration of the loop over the pending jobs. -/
def resolveRecord (jobs : List JobRecord) (now : Time) (record : JobRecord) : JobRecord :=
  if record.gated then
    match resolveDependent (statusById jobs) now (record.job.dependsOn.getD []) with
    | some change => change.write record
    | none => record
  else record

def resolveDependencies (jobs : List JobRecord) (now : Time) : List JobRecord :=
  jobs.map (resolveRecord jobs now)

/-- One job names the other in its `depends_on`. -/
def DependsOn (jobs : List JobRecord) (jobId dep : Uuid) : Prop :=
  ∃ record ∈ jobs, record.job.id = jobId ∧ dep ∈ record.job.dependsOn.getD []

/-- What creation and the absence of deletions give: ids are unique, and every job depends
on older jobs which exist. -/
structure Grounded (jobs : List JobRecord) : Prop where
  distinct : (jobs.map fun record => record.job.id).Nodup
  older : ∀ record ∈ jobs, ∀ dep ∈ record.job.dependsOn.getD [], dep < record.job.id
  present : ∀ record ∈ jobs, ∀ dep ∈ record.job.dependsOn.getD [],
    ∃ other ∈ jobs, other.job.id = dep
  notFailed : ∀ record ∈ jobs, record.job.status ≠ .failed

/-- A job which does not wait for another: in the queue, in a worker's hands, waiting for
its time. -/
def JobRecord.movable (record : JobRecord) : Prop :=
  record.job.status = .queued ∨ record.job.status = .claimed ∨ record.job.status = .running ∨
    record.job.status = .retrying ∨ (record.job.status = .scheduled ∧ record.job.noDeps = true)

/-- No dependent is left which the loop would cancel or release, and every one which is left
leads to a job that can still move. -/
structure Resolved (jobs : List JobRecord) : Prop where
  cascaded : ∀ record ∈ jobs, record.gated = true → ∀ other ∈ jobs,
    other.job.id ∈ record.job.dependsOn.getD [] →
      other.job.status ≠ .dead ∧ other.job.status ≠ .cancelled
  released : ∀ record ∈ jobs, record.gated = true → ∃ other ∈ jobs,
    other.job.id ∈ record.job.dependsOn.getD [] ∧ other.job.status ≠ .completed
  leads : ∀ record ∈ jobs, record.gated = true → ∃ other ∈ jobs, other.movable ∧
    Relation.TransGen (DependsOn jobs) record.job.id other.job.id

section Decisions
variable {statuses : Uuid → Option JobStatus} {now : Time} {deps : List Uuid}

theorem mem_depStatuses {status : JobStatus} :
    status ∈ deps.dedup.filterMap statuses ↔ ∃ dep ∈ deps, statuses dep = some status := by
  simp [List.mem_filterMap]

/-- The loop leaves a dependent whose prerequisites all exist exactly where none of them
has failed and not all have completed. -/
theorem resolveDependent_none (present : ∀ dep ∈ deps, (statuses dep).isSome = true)
    (undecided : resolveDependent statuses now deps = none) :
    (∀ dep ∈ deps, statuses dep ≠ some .dead ∧ statuses dep ≠ some .cancelled) ∧
      ∃ dep ∈ deps, statuses dep ≠ some .completed := by
  have whole : (deps.dedup.filterMap statuses).length = deps.dedup.length :=
    List.filterMap_length_eq_length.mpr fun dep member => present dep (List.mem_dedup.mp member)
  unfold resolveDependent at undecided
  simp only [whole, Nat.lt_irrefl, if_false] at undecided
  split at undecided
  · cases undecided
  rename_i sound
  split at undecided
  · cases undecided
  rename_i waiting
  constructor
  · intro dep member
    have fine : ∀ status, statuses dep = some status → ¬ (status = .dead ∨ status = .cancelled) := by
      intro status known bad
      apply sound
      refine List.any_eq_true.mpr ⟨status, mem_depStatuses.mpr ⟨dep, member, known⟩, ?_⟩
      simpa using bad
    exact ⟨fun known => fine _ known (.inl rfl), fun known => fine _ known (.inr rfl)⟩
  · by_contra all
    push Not at all
    apply waiting
    apply List.all_eq_true.mpr
    intro status listed
    obtain ⟨dep, member, known⟩ := mem_depStatuses.mp listed
    rw [all dep member] at known
    simpa using (Option.some.inj known).symm

/-- A dependent is released only when each of its prerequisites has completed. -/
theorem resolveDependent_release {change : Change}
    (decided : resolveDependent statuses now deps = some change)
    (released : change.status = .queued) : ∀ dep ∈ deps, statuses dep = some .completed := by
  unfold resolveDependent at decided
  dsimp only at decided
  split at decided
  · cases decided
  rename_i whole
  split at decided
  · cases decided
    cases released
  split at decided
  · rename_i completed
    have present := List.filterMap_length_eq_length.mp
      (Nat.le_antisymm (List.length_filterMap_le ..) (Nat.le_of_not_lt whole))
    intro dep member
    obtain ⟨status, known⟩ := Option.isSome_iff_exists.mp (present dep (List.mem_dedup.mpr member))
    have done := List.all_eq_true.mp completed status (mem_depStatuses.mpr ⟨dep, member, known⟩)
    rw [known, show status = .completed by simpa using done]
  · cases decided

/-- A decision takes the dependent out of those that are scheduled. -/
theorem resolveDependent_status {change : Change}
    (decided : resolveDependent statuses now deps = some change) :
    change.status = .queued ∨ change.status = .cancelled := by
  cases change with
  | promote | release => exact .inl rfl
  | cancel => exact .inr rfl

end Decisions

section Passes
variable {jobs : List JobRecord} {now : Time}

/-- What one iteration leaves of a job: everything but the status and its times. -/
theorem resolveRecord_cases (jobs : List JobRecord) (now : Time) (record : JobRecord) :
    resolveRecord jobs now record = record ∨ record.gated = true ∧ ∃ change,
      resolveDependent (statusById jobs) now (record.job.dependsOn.getD []) = some change ∧
        resolveRecord jobs now record = change.write record := by
  unfold resolveRecord
  split
  · rename_i gated
    split
    · rename_i change decided
      exact .inr ⟨gated, change, decided, rfl⟩
    · exact .inl rfl
  · exact .inl rfl

theorem resolveRecord_identity (jobs : List JobRecord) (now : Time) (record : JobRecord) :
    (resolveRecord jobs now record).job.id = record.job.id ∧
      (resolveRecord jobs now record).job.dependsOn = record.job.dependsOn := by
  rcases resolveRecord_cases jobs now record with same | ⟨_, change, _, written⟩
  · rw [same]
    exact ⟨rfl, rfl⟩
  · rw [written]
    cases change <;> exact ⟨rfl, rfl⟩

theorem resolveRecord_status (jobs : List JobRecord) (now : Time) (record : JobRecord) :
    resolveRecord jobs now record = record ∨
      ((resolveRecord jobs now record).job.status = .queued ∨
        (resolveRecord jobs now record).job.status = .cancelled) := by
  rcases resolveRecord_cases jobs now record with same | ⟨_, change, decided, written⟩
  · exact .inl same
  · rw [written, change.write_status]
    exact .inr (resolveDependent_status decided)

/-- A pass keeps what creation gave. -/
theorem Grounded.pass (grounded : Grounded jobs) (now : Time) :
    Grounded (resolveDependencies jobs now) where
  distinct := by
    have same : (resolveDependencies jobs now).map (fun record => record.job.id) =
        jobs.map fun record => record.job.id := by
      rw [resolveDependencies, List.map_map]
      exact List.map_congr_left fun record _ => (resolveRecord_identity jobs now record).1
    rw [same]
    exact grounded.distinct
  older := by
    intro record member dep refers
    obtain ⟨old, present, rfl⟩ := List.mem_map.mp member
    obtain ⟨id, depends⟩ := resolveRecord_identity jobs now old
    rw [depends] at refers
    rw [id]
    exact grounded.older old present dep refers
  present := by
    intro record member dep refers
    obtain ⟨old, present, rfl⟩ := List.mem_map.mp member
    rw [(resolveRecord_identity jobs now old).2] at refers
    obtain ⟨other, there, same⟩ := grounded.present old present dep refers
    exact ⟨_, List.mem_map_of_mem there, (resolveRecord_identity jobs now other).1.trans same⟩
  notFailed := by
    intro record member
    obtain ⟨old, present, rfl⟩ := List.mem_map.mp member
    rcases resolveRecord_status jobs now old with same | queued | cancelled
    · rw [same]
      exact grounded.notFailed old present
    · simp [queued]
    · simp [cancelled]

/-- The loop decides about none of the pending jobs. -/
def Undecided (jobs : List JobRecord) : Prop :=
  ∀ record ∈ jobs, record.gated = true → ∀ now,
    resolveDependent (statusById jobs) now (record.job.dependsOn.getD []) = none

theorem Undecided.pass (undecided : Undecided jobs) (now : Time) :
    resolveDependencies jobs now = jobs := by
  have same : ∀ record ∈ jobs, resolveRecord jobs now record = record := by
    intro record member
    rcases resolveRecord_cases jobs now record with same | ⟨gated, change, decided, _⟩
    · exact same
    · rw [undecided record member gated now] at decided
      cases decided
  exact (List.map_congr_left same).trans (List.map_id' jobs)

/-- How many scheduled dependents there are. -/
def pendingCount (jobs : List JobRecord) : Nat :=
  jobs.countP JobRecord.gated

/-- Whether the loop decides does not depend on the clock. -/
theorem resolveDependent_isSome (statuses : Uuid → Option JobStatus) (now later : Time)
    (deps : List Uuid) : (resolveDependent statuses now deps).isSome =
      (resolveDependent statuses later deps).isSome := by
  unfold resolveDependent
  dsimp only
  split
  · rfl
  · split
    · rfl
    · split <;> rfl

/-- A pass which decides leaves fewer dependents scheduled. -/
theorem pass_progress (decides : ¬ Undecided jobs) (now : Time) :
    pendingCount (resolveDependencies jobs now) < pendingCount jobs := by
  have leaves : ∀ record : JobRecord, (record.job.status = .queued ∨ record.job.status = .cancelled) →
      record.gated = false := by
    intro record status
    rcases status with status | status <;> simp [JobRecord.gated, status]
  apply countP_map_lt
  · intro record member still
    rcases resolveRecord_status jobs now record with same | status
    · rwa [same] at still
    · rw [leaves _ status] at still
      cases still
  · unfold Undecided at decides
    push Not at decides
    obtain ⟨record, member, gated, moment, decided⟩ := decides
    refine ⟨record, member, gated, ?_⟩
    obtain ⟨change, decision⟩ : ∃ change,
        resolveDependent (statusById jobs) now (record.job.dependsOn.getD []) = some change := by
      rw [← Option.isSome_iff_exists, resolveDependent_isSome _ now moment]
      exact Option.isSome_iff_ne_none.mpr decided
    apply leaves
    have status := resolveDependent_status decision
    simp only [resolveRecord, gated, if_true, decision, change.write_status]
    exact status

theorem statusById_mem (distinct : (jobs.map fun record => record.job.id).Nodup)
    {record : JobRecord} (member : record ∈ jobs) :
    statusById jobs record.job.id = some record.job.status := by
  cases found : jobs.find? fun other => other.job.id = record.job.id with
  | none =>
    have missing := List.find?_eq_none.mp found record member
    simp at missing
  | some other =>
    have same : other.job.id = record.job.id := by simpa using List.find?_some found
    rw [statusById, found, Option.map_some,
      unique_record distinct (List.mem_of_find?_eq_some found) member same]

/-- What cannot move and is not done waits for something that is not done. -/
theorem stuck_cases {record : JobRecord} (notFailed : record.job.status ≠ .failed)
    (sound : record.job.status ≠ .dead ∧ record.job.status ≠ .cancelled)
    (unfinished : record.job.status ≠ .completed) : record.movable ∨ record.gated = true := by
  unfold JobRecord.movable JobRecord.gated
  cases status : record.job.status <;> simp_all

/-- Dependencies are older, so they have smaller ids. -/
theorem Grounded.lower (grounded : Grounded jobs) (jobId dep : Uuid)
    (depends : DependsOn jobs jobId dep) : dep < jobId := by
  obtain ⟨record, member, rfl, refers⟩ := depends
  exact grounded.older record member dep refers

/-- What is left when the loop decides nothing. -/
theorem Grounded.resolved (grounded : Grounded jobs) (undecided : Undecided jobs) : Resolved jobs := by
  have lookup : ∀ other ∈ jobs, statusById jobs other.job.id = some other.job.status :=
    fun other member => statusById_mem grounded.distinct member
  have left : ∀ record ∈ jobs, record.gated = true →
      (∀ dep ∈ record.job.dependsOn.getD [], statusById jobs dep ≠ some .dead ∧
        statusById jobs dep ≠ some .cancelled) ∧
      ∃ dep ∈ record.job.dependsOn.getD [], statusById jobs dep ≠ some .completed := by
    intro record member gated
    refine resolveDependent_none ?_ (undecided record member gated 0)
    intro dep refers
    obtain ⟨other, present, rfl⟩ := grounded.present record member dep refers
    simp [lookup other present]
  have cascaded : ∀ record ∈ jobs, record.gated = true → ∀ other ∈ jobs,
      other.job.id ∈ record.job.dependsOn.getD [] →
        other.job.status ≠ .dead ∧ other.job.status ≠ .cancelled := by
    intro record member gated other present refers
    have fine := (left record member gated).1 _ refers
    simpa [lookup other present] using fine
  have released : ∀ record ∈ jobs, record.gated = true → ∃ other ∈ jobs,
      other.job.id ∈ record.job.dependsOn.getD [] ∧ other.job.status ≠ .completed := by
    intro record member gated
    obtain ⟨dep, refers, waiting⟩ := (left record member gated).2
    obtain ⟨other, present, rfl⟩ := grounded.present record member dep refers
    exact ⟨other, present, refers, by simpa [lookup other present] using waiting⟩
  refine ⟨cascaded, released, ?_⟩
  intro record member gated
  -- A dependent that is left waits for an older job, which moves or is itself left.
  have onward : ∀ id, (∃ record ∈ jobs, record.job.id = id ∧ record.gated = true) →
      ∃ dep, DependsOn jobs id dep ∧ ((∃ other ∈ jobs, other.job.id = dep ∧ other.movable) ∨
        ∃ record ∈ jobs, record.job.id = dep ∧ record.gated = true) := by
    rintro _ ⟨record, member, rfl, gated⟩
    obtain ⟨other, present, refers, waiting⟩ := released record member gated
    refine ⟨other.job.id, ⟨record, member, rfl, refers⟩, ?_⟩
    rcases stuck_cases (grounded.notFailed other present)
      (cascaded record member gated other present refers) waiting with movable | still
    · exact .inl ⟨other, present, rfl, movable⟩
    · exact .inr ⟨other, present, rfl, still⟩
  obtain ⟨_, path, other, present, rfl, movable⟩ :=
    leads id grounded.lower onward ⟨record, member, rfl, gated⟩
  exact ⟨other, present, movable, path⟩

theorem Grounded.acyclic (grounded : Grounded jobs) (jobId : Uuid) :
    ¬ Relation.TransGen (DependsOn jobs) jobId jobId :=
  Library.Passes.acyclic id grounded.lower jobId

/-- As many passes as there are scheduled dependents settle them all, whatever the clock
says in each. -/
theorem Grounded.resolves (grounded : Grounded jobs) {clock : List Time}
    (enough : pendingCount jobs ≤ clock.length) :
    Resolved (clock.foldl resolveDependencies jobs) := by
  have empty : ∀ jobs, pendingCount jobs = 0 → Undecided jobs := by
    intro jobs none record member gated
    have refused := List.countP_eq_zero.mp none record member
    exact absurd gated refused
  have stays : ∀ jobs now, Undecided jobs → Undecided (resolveDependencies jobs now) := by
    intro jobs now undecided
    rwa [undecided.pass now]
  have kept : ∀ jobs now, Grounded jobs → Grounded (resolveDependencies jobs now) :=
    fun jobs now grounded => grounded.pass now
  have undecided := settles empty (fun jobs now decides => pass_progress decides now) stays enough
  exact (foldl_settled kept clock grounded).resolved undecided

end Passes

end Pulse
