import Pulse.Api.Jobs

/-! What a tick does to one template: `promote_cron_jobs` treats each due row by itself. -/
namespace Pulse

/-- The row is one which a tick selects. -/
def ScheduledJob.due (row : ScheduledJob) (txNow : Time) : Bool :=
  row.isActive && row.nextRunAt ≤ txNow

/-- The slot which a job fires, with its template. -/
def Job.slot (job : Job) : Option (Uuid × Time) :=
  job.scheduledJobId.map fun id => (id, job.runAt)

/-- `get_next` answers a time after its base, or raises. -/
def GetNext.Advances (getNext : GetNext) : Prop :=
  ∀ cronExpr timezone base next, getNext cronExpr timezone base = some next → base < next

section Templates
variable (getNext : GetNext) (txNow now : Time) (row : ScheduledJob)

/-- The next slot after the later one of the template's slot and now. -/
def ScheduledJob.upcoming : Option Time :=
  getNext row.cronExpr row.timezone (max row.nextRunAt now)

/-- The write of a tick to the template. -/
def ScheduledJob.change : Option ScheduleWrite :=
  if row.due txNow then
    match row.upcoming getNext now with
    | none => some (.deactivate row.id)
    | some nextRunAt => some (.advance row.id nextRunAt now)
  else none

/-- The template after a tick. -/
def ScheduledJob.ticked : ScheduledJob :=
  if row.due txNow then
    match row.upcoming getNext now with
    | none => { row with isActive := false }
    | some nextRunAt => { row with nextRunAt := nextRunAt, lastRunAt := some now }
  else row

/-- The slot which a tick fires for the template. -/
def ScheduledJob.fired : Option (Uuid × Time) :=
  if row.due txNow then (row.upcoming getNext now).map fun _ => (row.id, row.nextRunAt) else none

end Templates

def ScheduleWrite.target : ScheduleWrite → Uuid
  | .deactivate target | .advance target _ _ => target

section Ticked
variable {getNext : GetNext} {txNow now : Time} {row : ScheduledJob}

@[simp] theorem ScheduledJob.ticked_id : (row.ticked getNext txNow now).id = row.id := by
  unfold ScheduledJob.ticked
  split
  · split <;> rfl
  · rfl

@[simp] theorem ScheduledJob.ticked_queueId :
    (row.ticked getNext txNow now).queueId = row.queueId := by
  unfold ScheduledJob.ticked
  split
  · split <;> rfl
  · rfl

/-- A slot is fired at its time or later, of an active template, which moves past it. -/
theorem ScheduledJob.fired_slot (advances : getNext.Advances) {entry : Uuid × Time}
    (fired : row.fired getNext txNow now = some entry) :
    entry = (row.id, row.nextRunAt) ∧ row.isActive = true ∧ row.nextRunAt ≤ txNow ∧
      row.nextRunAt < (row.ticked getNext txNow now).nextRunAt := by
  unfold ScheduledJob.fired at fired
  split at fired
  · rename_i due
    obtain ⟨next, upcoming, rfl⟩ := Option.map_eq_some_iff.mp fired
    have later := lt_of_le_of_lt (le_max_left _ _) (advances _ _ _ _ upcoming)
    simp only [ScheduledJob.due, Bool.and_eq_true, decide_eq_true_eq] at due
    refine ⟨rfl, due.1, due.2, ?_⟩
    simp only [ScheduledJob.ticked, ScheduledJob.due, due, decide_true, Bool.and_self, if_true,
      upcoming]
    exact later
  · cases fired

/-- A tick never moves a template back. -/
theorem ScheduledJob.ticked_later (advances : getNext.Advances) :
    row.nextRunAt ≤ (row.ticked getNext txNow now).nextRunAt := by
  unfold ScheduledJob.ticked
  split
  · split
    · exact le_refl _
    · rename_i upcoming
      exact (lt_of_le_of_lt (le_max_left _ _) (advances _ _ _ _ upcoming)).le
  · exact le_refl _

/-- Whatever it has missed, a template which stays active is ahead of the tick. -/
theorem ScheduledJob.ticked_ahead (advances : getNext.Advances) (older : txNow ≤ now)
    (active : (row.ticked getNext txNow now).isActive = true) :
    txNow < (row.ticked getNext txNow now).nextRunAt := by
  unfold ScheduledJob.ticked at *
  split
  · rename_i due
    rw [if_pos due] at active
    split
    · rename_i raises
      rw [raises] at active
      cases active
    · rename_i upcoming
      have later := lt_of_le_of_lt (le_max_right _ _) (advances _ _ _ _ upcoming)
      exact lt_of_le_of_lt older later
  · rename_i waiting
    rw [if_neg waiting] at active
    simpa [ScheduledJob.due, active] using waiting

/-- A due template fails alone: it is deactivated, and fires nothing. -/
theorem ScheduledJob.ticked_failing (due : row.due txNow = true)
    (raises : row.upcoming getNext now = none) :
    row.ticked getNext txNow now = { row with isActive := false } ∧
      row.fired getNext txNow now = none := by
  simp [ScheduledJob.ticked, ScheduledJob.fired, due, raises]

/-- A due template fires one slot unless it fails. -/
theorem ScheduledJob.fired_isSome (due : row.due txNow = true)
    (valid : (row.upcoming getNext now).isSome = true) :
    row.fired getNext txNow now = some (row.id, row.nextRunAt) := by
  obtain ⟨next, upcoming⟩ := Option.isSome_iff_exists.mp valid
  simp [ScheduledJob.fired, due, upcoming]

/-- An inactive template fires nothing and stays as it is. -/
theorem ScheduledJob.ticked_inactive (inactive : row.isActive = false) :
    row.ticked getNext txNow now = row ∧ row.fired getNext txNow now = none := by
  simp [ScheduledJob.ticked, ScheduledJob.fired, ScheduledJob.due, inactive]

end Ticked

/-! A tick over the whole table. -/

section Table
variable {getNext : GetNext} {txNow now : Time} {row : ScheduledJob} {rows : List ScheduledJob}

theorem ScheduledJob.change_target {change : ScheduleWrite}
    (made : row.change getNext txNow now = some change) :
    change.target = row.id ∧ change.write row = row.ticked getNext txNow now := by
  unfold ScheduledJob.change at made
  split at made
  · rename_i due
    split at made
    · rename_i raises
      cases made
      simp [ScheduleWrite.target, ScheduleWrite.write, onId, ScheduledJob.ticked, due, raises]
    · rename_i upcoming
      cases made
      simp [ScheduleWrite.target, ScheduleWrite.write, onId, ScheduledJob.ticked, due, upcoming]
  · cases made

theorem ScheduledJob.unchanged (none : row.change getNext txNow now = none) :
    row.ticked getNext txNow now = row := by
  unfold ScheduledJob.change at none
  split at none
  · split at none <;> cases none
  · rename_i waiting
    simp [ScheduledJob.ticked, waiting]

theorem ScheduleWrite.write_other {change : ScheduleWrite} (other : change.target ≠ row.id) :
    change.write row = row := by
  cases change with
  | deactivate | advance =>
    exact if_neg fun same => other same.symm

/-- Writes to other templates leave a row alone. -/
theorem writes_others (absent : row.id ∉ rows.map ScheduledJob.id) :
    (rows.filterMap (ScheduledJob.change getNext txNow now)).foldl
      (fun row change => change.write row) row = row := by
  induction rows with
  | nil => rfl
  | cons head rest ih =>
    have different := List.ne_of_not_mem_cons absent
    have others := List.not_mem_of_not_mem_cons absent
    rw [List.filterMap_cons]
    cases made : head.change getNext txNow now with
    | none => exact ih others
    | some change =>
      have target := (ScheduledJob.change_target made).1
      rw [List.foldl_cons, ScheduleWrite.write_other (by rw [target]; exact Ne.symm different)]
      exact ih others

/-- All writes together do to each template what its own write does. -/
theorem writes_ticked (distinct : (rows.map ScheduledJob.id).Nodup) (member : row ∈ rows) :
    (rows.filterMap (ScheduledJob.change getNext txNow now)).foldl
      (fun row change => change.write row) row = row.ticked getNext txNow now := by
  induction rows with
  | nil => cases member
  | cons head rest ih =>
    obtain ⟨absent, others⟩ := List.nodup_cons.mp distinct
    rw [List.filterMap_cons]
    rcases List.mem_cons.mp member with rfl | later
    · cases made : row.change getNext txNow now with
      | none =>
        rw [ScheduledJob.unchanged made]
        exact writes_others absent
      | some change =>
        rw [List.foldl_cons, (ScheduledJob.change_target made).2]
        exact writes_others (by rwa [ScheduledJob.ticked_id])
    · cases made : head.change getNext txNow now with
      | none => exact ih others later
      | some change =>
        have target := (ScheduledJob.change_target made).1
        have different : change.target ≠ row.id := by
          intro same
          exact absent (target ▸ same ▸ List.mem_map_of_mem later)
        rw [List.foldl_cons, ScheduleWrite.write_other different]
        exact ih others later

/-- At most one slot a template. -/
theorem fired_distinct (distinct : (rows.map ScheduledJob.id).Nodup) :
    ((rows.filterMap (ScheduledJob.fired getNext txNow now)).map Prod.fst).Nodup := by
  refine List.Sublist.nodup ?_ distinct
  induction rows with
  | nil => exact List.Sublist.slnil
  | cons head rest ih =>
    have tail := ih (List.nodup_cons.mp distinct).2
    rw [List.filterMap_cons]
    cases made : head.fired getNext txNow now with
    | none => exact tail.cons _
    | some entry =>
      have named : entry.1 = head.id := by
        unfold ScheduledJob.fired at made
        split at made
        · obtain ⟨_, _, rfl⟩ := Option.map_eq_some_iff.mp made
          rfl
        · cases made
      rw [List.map_cons, List.map_cons, named]
      exact tail.cons_cons _

variable {db : Db}

/-- One iteration of the loop. -/
theorem spawn_due {queue : Queue} (due : row.due txNow = true) :
    row.change getNext txNow now = some (spawn getNext db now row queue).1 ∧
      (spawn getNext db now row queue).2.map Job.slot =
        (row.fired getNext txNow now).map some := by
  simp only [ScheduledJob.change, ScheduledJob.fired, ScheduledJob.upcoming, spawn, due, if_true]
  cases getNext row.cronExpr row.timezone (max row.nextRunAt now) <;> exact ⟨rfl, rfl⟩

/-- The query of the loop, where each template has its queue. -/
theorem dueSchedules_due (txNow : Time) (homed : (db.findQueue row.queueId).isSome = true) :
    ∃ queue, (if row.isActive && row.nextRunAt ≤ txNow then
      (db.findQueue row.queueId).map fun queue => (row, queue) else none) =
        if row.due txNow then some (row, queue) else none := by
  obtain ⟨queue, found⟩ := Option.isSome_iff_exists.mp homed
  refine ⟨queue, ?_⟩
  rw [found]
  rfl

/-- The writes of the loop, template by template. -/
theorem spawns_changes (homed : ∀ row ∈ db.scheduledJobs, (db.findQueue row.queueId).isSome = true) :
    ((db.dueSchedules txNow).map fun pair => (spawn getNext db now pair.1 pair.2).1) =
      db.scheduledJobs.filterMap (ScheduledJob.change getNext txNow now) := by
  rw [Db.dueSchedules, List.map_filterMap]
  refine List.filterMap_congr ?_
  intro row member
  obtain ⟨queue, query⟩ := dueSchedules_due txNow (homed row member)
  rw [query]
  by_cases due : row.due txNow = true
  · rw [if_pos due, (spawn_due due).1]
    rfl
  · rw [if_neg due, ScheduledJob.change, if_neg due]
    rfl

/-- The slots of the jobs which the loop inserts, template by template. -/
theorem spawns_slots (homed : ∀ row ∈ db.scheduledJobs, (db.findQueue row.queueId).isSome = true) :
    ((db.dueSchedules txNow).filterMap fun pair => (spawn getNext db now pair.1 pair.2).2).map
        Job.slot =
      (db.scheduledJobs.filterMap (ScheduledJob.fired getNext txNow now)).map some := by
  rw [Db.dueSchedules, List.filterMap_filterMap, List.map_filterMap, List.map_filterMap]
  refine List.filterMap_congr ?_
  intro row member
  obtain ⟨queue, query⟩ := dueSchedules_due txNow (homed row member)
  rw [query]
  by_cases due : row.due txNow = true
  · rw [if_pos due]
    exact (spawn_due due).2
  · rw [if_neg due, ScheduledJob.fired, if_neg due]
    rfl

end Table

section Calls
variable {getNext : GetNext} {db : Db} {now : Time} {id : Uuid}

theorem createSchedule_ahead (advances : getNext.Advances) {body : JobScheduleCreate}
    {sched : ScheduledJob} (made : createSchedule getNext db now id body = .ok sched) :
    now < sched.nextRunAt := by
  unfold createSchedule at made
  split at made
  · cases made
  split at made
  · cases made
  · rename_i upcoming
    cases made
    exact advances _ _ _ _ upcoming

/-- A template keeps its slot, or resumes after now. -/
theorem updateSchedule_ahead (advances : getNext.Advances) {isActive : Bool}
    {f : ScheduledJob → ScheduledJob} (made : updateSchedule getNext db now id isActive = .ok f)
    (row : ScheduledJob) : (f row).nextRunAt = row.nextRunAt ∨ now < (f row).nextRunAt := by
  unfold updateSchedule at made
  split at made
  · cases made
  · split at made
    · split at made
      · cases made
      · rename_i upcoming
        cases made
        exact .inr (advances _ _ _ _ upcoming)
    · cases made
      exact .inl rfl

end Calls

end Pulse
