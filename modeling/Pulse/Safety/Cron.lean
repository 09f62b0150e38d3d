import Mathlib.Data.Rat.Floor
import Pulse.Engine.Cron
import Pulse.System.Runs

/-! Cron templates over whole runs: each slot is fired once, and a gap is made up for by one
job. -/
namespace Pulse
open Library.RowLock Library.Lts

/-- Requests which change templates. -/
def ApiCall.schedules : ApiCall → Bool
  | .createSchedule _ | .updateSchedule _ _ | .deleteSchedule _ | .deleteQueue _ => true
  | _ => false

/-- The tick is about to commit. -/
def Tick.commits (tick : Tick) : Bool :=
  tick.targets.isEmpty && tick.stage = .committing

/-- `promote_cron_jobs` has run. -/
def Tick.planned (tick : Tick) : Bool :=
  match tick.stage with
  | .locked | .promoting _ | .spawning => false
  | .resolving | .deciding _ | .committing => true

/-- Auxiliary: the last reading of the clock, and the slots which ticks have fired, with their
templates, the newest first. -/
structure CronLog where
  clock : Time
  fired : List (Uuid × Time) := []
deriving Repr

def CronLog.note (state : System) (action : Action) (log : CronLog) : CronLog :=
  match action with
  | .begin _ (.tick now) => { log with clock := now }
  | .begin _ (.api now call) => if call.schedules then { log with clock := now } else log
  | .next sid input => match state.sessions sid with
    | .tick current =>
      { clock := input.now
        fired := (if current.commits then current.spawned.filterMap Job.slot else []) ++ log.fired }
    | _ => log
  | _ => log

/-- Ticks and the requests which change templates read one clock which does not go backwards,
and such a request comes between two ticks. -/
def OnClock (pair : System × CronLog) : Action → Prop
  | .begin _ (.tick now) => pair.2.clock ≤ now
  | .begin sid (.api now call) => call.schedules = true →
      pair.2.clock ≤ now ∧ pair.1.waits sid (.schedulerLock, .update) = false
  | .next sid input => match pair.1.sessions sid with
    | .tick _ => pair.2.clock ≤ input.now
    | _ => True
  | _ => True

/-- A database with any templates, no session at work, and nothing fired yet. -/
def cron (env : Environment) : Machine (System × CronLog) Action where
  init := fun pair => Shape pair.1 ∧ (∀ sid, pair.1.sessions sid = .idle) ∧
    (∀ row ∈ pair.1.db.scheduledJobs, row.queueId ∈ pair.1.db.queues.map Queue.id) ∧
      pair.2.fired = []
  step := ((pulse env).recorded (fun _ => True) CronLog.note).step

/-- What a tick does to the templates: one job at most for each, of a template which is active
and due, for its slot; whatever stays active is ahead of the tick; a template which always fails is
deactivated, and fires no job no more than an inactive one, while one which never fails fires its
own; and what happens to a template depends on itself alone. -/
structure Tick.Fires (getNext : GetNext) (before after : List ScheduledJob) (tick : Tick) : Prop where
  once : (tick.spawned.map Job.scheduledJobId).Nodup
  due : ∀ job ∈ tick.spawned, ∃ row ∈ before, row.isActive = true ∧ row.nextRunAt ≤ tick.now ∧
    job.scheduledJobId = some row.id ∧ job.runAt = row.nextRunAt
  ahead : ∀ row ∈ after, row.isActive = true → tick.now < row.nextRunAt
  inactive : ∀ row ∈ before, row.isActive = false →
    row ∈ after ∧ ∀ job ∈ tick.spawned, job.scheduledJobId ≠ some row.id
  broken : ∀ row ∈ before, row.due tick.now = true →
    (∀ base, getNext row.cronExpr row.timezone base = none) → { row with isActive := false } ∈ after ∧
      ∀ job ∈ tick.spawned, job.scheduledJobId ≠ some row.id
  valid : ∀ row ∈ before, row.due tick.now = true →
    (∀ base, (getNext row.cronExpr row.timezone base).isSome = true) →
      ∃ job ∈ tick.spawned, job.slot = some (row.id, row.nextRunAt)
  apart : ∃ now, tick.now ≤ now ∧ after = before.map (ScheduledJob.ticked getNext tick.now now) ∧
    tick.spawned.filterMap Job.slot = before.filterMap (ScheduledJob.fired getNext tick.now now)

/-- The slots fired for a template increase strictly, and every tick which commits fires what
is due and inserts its jobs. -/
structure FiresOnce (env : Environment) (state : System) (log : CronLog) : Prop where
  increasing : log.fired.Pairwise fun newer older => newer.1 = older.1 → older.2 < newer.2
  ticks : ∀ sid current input after, state.sessions sid = .tick current → current.commits = true →
    step env state (.next sid input) = some after →
      current.Fires env.getNext state.db.scheduledJobs after.db.scheduledJobs ∧
        ∃ rows : List JobRecord, after.db.jobs = state.db.jobs.map (tickWrite current.writes) ++ rows ∧
          rows.map (fun record => record.job.slot) = current.spawned.map Job.slot

/-- What a tick is about to write follows from the templates as they are. -/
structure Tick.Plans (getNext : GetNext) (rows : List ScheduledJob) (clock : Time) (tick : Tick) :
    Prop where
  started : tick.now ≤ clock
  planned : tick.planned = true → ∃ now, tick.now ≤ now ∧
    tick.schedules = rows.filterMap (ScheduledJob.change getNext tick.now now) ∧
    tick.spawned.map Job.slot = (rows.filterMap (ScheduledJob.fired getNext tick.now now)).map some

structure Cron (env : Environment) (state : System) (log : CronLog) : Prop where
  shape : Shape state
  homed : ∀ row ∈ state.db.scheduledJobs, row.queueId ∈ state.db.queues.map Queue.id
  plans : ∀ sid current, state.sessions sid = .tick current →
    current.Plans env.getNext state.db.scheduledJobs log.clock
  ahead : ∀ row ∈ state.db.scheduledJobs, ∀ entry ∈ log.fired, entry.1 = row.id →
    entry.2 < row.nextRunAt
  past : ∀ entry ∈ log.fired, entry.2 ≤ log.clock
  increasing : log.fired.Pairwise fun newer older => newer.1 = older.1 → older.2 < newer.2

def Session.ticking : Session → Option Tick
  | .tick current => some current
  | _ => none

section Ticks
variable {env : Environment} {state after : System} {sid : Sid} {log later : CronLog}
  {next : Session} {locks : List Lock} {patch : Patch} {current tick : Tick} {input : Input}

theorem Tick.Plans.mono {getNext : GetNext} {rows : List ScheduledJob} {clock wider : Time}
    (plans : tick.Plans getNext rows clock) (older : clock ≤ wider) :
    tick.Plans getNext rows wider :=
  ⟨plans.started.trans older, plans.planned⟩

theorem findQueue_isSome {db : Db} {id : Uuid} (listed : id ∈ db.queues.map Queue.id) :
    (db.findQueue id).isSome = true := by
  obtain ⟨queue, member, rfl⟩ := List.mem_map.mp listed
  exact List.find?_isSome.mpr ⟨queue, member, by simp⟩

/-- A statement of a tick keeps its plans, or makes them. -/
theorem tickEffect_plans (made : tickEffect env state sid current input = some (.hold next locks)) :
    ∃ tick, next = .tick tick ∧ tick.now = current.now ∧
      ((tick.planned = true → current.planned = true) ∧ tick.spawned = current.spawned ∧
          tick.schedules = current.schedules ∨
        promoteCronJobs env.getNext state current input.now = .hold (.tick tick) locks) := by
  obtain ⟨tick, rfl, ticks⟩ := tickEffect_ticks made
  refine ⟨tick, rfl, ?_⟩
  cases ticks with
  | promoteCronJobs idle stage promoted =>
    have same : promoteCronJobs env.getNext state current input.now = .hold (.tick tick) locks := by
      simpa [tickEffect, idle, stage] using made
    cases promoted
    exact ⟨rfl, .inr same⟩
  | selectUnlimited _ stage selected =>
    cases selected
    exact ⟨rfl, .inl ⟨by simp [Tick.planned], rfl, rfl⟩⟩
  | selectPending _ stage selected =>
    cases selected
    exact ⟨rfl, .inl ⟨by simp [Tick.planned, stage], rfl, rfl⟩⟩
  | decideDependents _ stage selected =>
    cases selected
    exact ⟨rfl, .inl ⟨by simp [Tick.planned, stage], rfl, rfl⟩⟩
  | locked | selectRateLimited => exact ⟨rfl, .inl ⟨by simp [Tick.planned], rfl, rfl⟩⟩
  | skip | write => exact ⟨rfl, .inl ⟨id, rfl, rfl⟩⟩

theorem promoteCronJobs_plans {now : Time}
    (homed : ∀ row ∈ state.db.scheduledJobs, row.queueId ∈ state.db.queues.map Queue.id)
    (made : promoteCronJobs env.getNext state current now = .hold (.tick tick) locks) :
    tick.schedules = state.db.scheduledJobs.filterMap
        (ScheduledJob.change env.getNext current.now now) ∧
      tick.spawned.map Job.slot = (state.db.scheduledJobs.filterMap
        (ScheduledJob.fired env.getNext current.now now)).map some := by
  have found := fun row member => findQueue_isSome (homed row member)
  cases made
  refine ⟨?_, ?_⟩
  · rw [List.map_map]
    exact spawns_changes found
  · rw [List.filterMap_map]
    exact spawns_slots found

/-- The slots of a list of jobs which all have one. -/
theorem slots_eq {jobs : List Job} {fired : List (Uuid × Time)}
    (slots : jobs.map Job.slot = fired.map some) : jobs.filterMap Job.slot = fired ∧
      jobs.map Job.scheduledJobId = (fired.map Prod.fst).map some := by
  constructor
  · calc
      jobs.filterMap Job.slot = (jobs.map Job.slot).filterMap id := by
        rw [List.filterMap_map]
        rfl
      _ = fired := by
        rw [slots, List.filterMap_map]
        exact List.filterMap_some
  · calc
      jobs.map Job.scheduledJobId = (jobs.map Job.slot).map (Option.map Prod.fst) := by
        rw [List.map_map]
        refine List.map_congr_left fun job _ => ?_
        simp [Job.slot, Function.comp_def]
      _ = (fired.map Prod.fst).map some := by
        rw [slots, List.map_map, List.map_map]
        rfl

theorem Cron.advance (cron : Cron env state log) (older : log.clock ≤ input.now)
    (ticking : state.sessions sid = .tick current)
    (made : tickEffect env state sid current input = some (.hold next locks)) :
    ∃ tick, next = .tick tick ∧ tick.Plans env.getNext state.db.scheduledJobs input.now := by
  have plans := cron.plans sid current ticking
  obtain ⟨tick, rfl, now, kept | promoted⟩ := tickEffect_plans made
  · refine ⟨tick, rfl, ?_, ?_⟩
    · rw [now]
      exact plans.started.trans older
    · intro planned
      rw [now, kept.2.1, kept.2.2]
      exact plans.planned (kept.1 planned)
  · obtain ⟨schedules, spawned⟩ := promoteCronJobs_plans cron.homed promoted
    have started := plans.started.trans older
    refine ⟨tick, rfl, now ▸ started, fun _ => ⟨input.now, now ▸ started, ?_, ?_⟩⟩
    · rw [now]
      exact schedules
    · rw [now]
      exact spawned

/-- A job of a tick is of a template which fires. -/
theorem spawned_fired {getNext : GetNext} {rows : List ScheduledJob} {now : Time}
    (advances : getNext.Advances)
    (spawned : current.spawned.map Job.slot =
      (rows.filterMap (ScheduledJob.fired getNext current.now now)).map some)
    {job : Job} (listed : job ∈ current.spawned) : ∃ row ∈ rows,
      row.fired getNext current.now now = some (row.id, row.nextRunAt) ∧
      row.isActive = true ∧ row.nextRunAt ≤ current.now ∧
      job.scheduledJobId = some row.id ∧ job.runAt = row.nextRunAt := by
  have image : job.slot ∈ current.spawned.map Job.slot := List.mem_map_of_mem listed
  rw [spawned] at image
  obtain ⟨entry, fired, same⟩ := List.mem_map.mp image
  obtain ⟨row, member, made⟩ := List.mem_filterMap.mp fired
  obtain ⟨rfl, active, due, _⟩ := ScheduledJob.fired_slot advances made
  obtain ⟨id, named, pair⟩ := Option.map_eq_some_iff.mp same.symm
  obtain ⟨rfl, slot⟩ := Prod.mk.inj pair
  exact ⟨row, member, made, active, due, named, slot⟩

/-- The commit of a tick does what its plans say. -/
theorem Tick.Plans.fires (advances : env.getNext.Advances) {rows : List ScheduledJob} {clock : Time}
    (plans : current.Plans env.getNext rows clock) (commits : current.commits = true)
    (distinct : (rows.map ScheduledJob.id).Nodup) : current.Fires env.getNext rows
      (rows.map fun row => current.schedules.foldl (fun row change => change.write row) row) := by
  have planned : current.planned = true := by
    simp only [Tick.commits, Bool.and_eq_true, decide_eq_true_eq] at commits
    simp [Tick.planned, commits.2]
  obtain ⟨now, older, schedules, spawned⟩ := plans.planned planned
  have table : (rows.map fun row => current.schedules.foldl (fun row change => change.write row) row) =
      rows.map (ScheduledJob.ticked env.getNext current.now now) := by
    refine List.map_congr_left ?_
    intro row member
    rw [schedules]
    exact writes_ticked distinct member
  obtain ⟨slots, named⟩ := slots_eq spawned
  have spared : ∀ row ∈ rows, row.fired env.getNext current.now now = none →
      ∀ job ∈ current.spawned, job.scheduledJobId ≠ some row.id := by
    intro row member fires job listed named
    obtain ⟨other, present, made, _, _, owned, _⟩ := spawned_fired advances spawned listed
    have same : other = row :=
      List.inj_on_of_nodup_map distinct present member (Option.some.inj (owned.symm.trans named))
    rw [same, fires] at made
    cases made
  refine ⟨?_, ?_, ?_, ?_, ?_, ?_, now, older, table, slots⟩
  · rw [named]
    exact (fired_distinct distinct).map (Option.some_injective _)
  · intro job listed
    obtain ⟨row, member, _, reason⟩ := spawned_fired advances spawned listed
    exact ⟨row, member, reason⟩
  · rw [table]
    intro row member active
    obtain ⟨old, present, rfl⟩ := List.mem_map.mp member
    exact ScheduledJob.ticked_ahead advances older active
  · intro row member inactive
    obtain ⟨kept, fires⟩ := ScheduledJob.ticked_inactive inactive
    exact ⟨table ▸ List.mem_map.mpr ⟨row, member, kept⟩, spared row member fires⟩
  · intro row member due raises
    obtain ⟨ticked, fires⟩ := ScheduledJob.ticked_failing due (raises _)
    exact ⟨table ▸ List.mem_map.mpr ⟨row, member, ticked⟩, spared row member fires⟩
  · intro row member due advancing
    have fires := ScheduledJob.fired_isSome due (advancing (max row.nextRunAt now))
    have slot : some (row.id, row.nextRunAt) ∈ current.spawned.map Job.slot := by
      rw [spawned]
      exact List.mem_map_of_mem (List.mem_filterMap.mpr ⟨row, member, fires⟩)
    exact List.mem_map.mp slot

/-! Steps. -/

/-- Steps which change no template and fire nothing. -/
theorem Cron.relax (cron : Cron env state log) (shape : Shape after)
    (templates : after.db.scheduledJobs = state.db.scheduledJobs)
    (queues : state.db.queues.map Queue.id ⊆ after.db.queues.map Queue.id)
    (older : log.clock ≤ later.clock) (fired : later.fired = log.fired)
    (sessions : ∀ sid current, after.sessions sid = .tick current →
      state.sessions sid = .tick current ∨
        current.Plans env.getNext state.db.scheduledJobs later.clock) : Cron env after later := by
  refine ⟨shape, ?_, ?_, ?_, ?_, fired ▸ cron.increasing⟩
  · rw [templates]
    exact fun row member => queues (cron.homed row member)
  · intro sid current ticking
    rw [templates]
    rcases sessions sid current ticking with same | plans
    · exact (cron.plans sid current same).mono older
    · exact plans
  · rw [templates, fired]
    exact cron.ahead
  · rw [fired]
    exact fun entry member => (cron.past entry member).trans older

theorem Closes.templates {session : Session} (closes : Closes env state session next patch) :
    (∃ current, session = .tick current) ∨
      (patch.scheduledJobs = id ∧ patch.queues = id ∧ ∀ current, next ≠ .tick current) := by
  cases closes with
  | tick => exact .inl ⟨_, rfl⟩
  | claim =>
    refine .inr ⟨rfl, rfl, ?_⟩
    split <;> exact nofun
  | _ => exact .inr ⟨rfl, rfl, nofun⟩

/-- Other requests leave the templates and their queues. -/
theorem Answers.templates {now : Time} {call : ApiCall}
    (answers : Answers env state now call locks patch) (other : call.schedules = false) :
    patch.scheduledJobs = id ∧
      state.db.queues.map Queue.id ⊆ (patch.queues state.db.queues).map Queue.id := by
  constructor
  · cases answers with
    | createSchedule | updateSchedule | deleteSchedule | deleteQueue => cases other
    | _ => rfl
  · intro id listed
    rcases answers.houses listed with stays | rfl
    · exact stays
    · cases other

/-- Requests about templates leave each at its slot, or put it after now; and each in a queue. -/
theorem Answers.schedules (advances : env.getNext.Advances) {now : Time} {call : ApiCall}
    (answers : Answers env state now call locks patch) (about : call.schedules = true)
    (homed : ∀ row ∈ state.db.scheduledJobs, row.queueId ∈ state.db.queues.map Queue.id) :
    (∀ row ∈ patch.scheduledJobs state.db.scheduledJobs,
      (∃ old ∈ state.db.scheduledJobs, old.id = row.id ∧ old.nextRunAt = row.nextRunAt) ∨
        now < row.nextRunAt) ∧
    ∀ row ∈ patch.scheduledJobs state.db.scheduledJobs,
      row.queueId ∈ (patch.queues state.db.queues).map Queue.id := by
  cases answers with
  | createSchedule made =>
    obtain ⟨_, queue, found, same⟩ := createSchedule_row made
    constructor
    · intro row member
      rcases List.mem_append.mp member with old | new
      · exact .inl ⟨row, old, rfl, rfl⟩
      · rw [List.mem_singleton.mp new]
        exact .inr (createSchedule_ahead advances made)
    · intro row member
      rcases List.mem_append.mp member with old | new
      · exact homed row old
      · rw [List.mem_singleton.mp new, same]
        exact List.mem_map_of_mem (List.mem_of_find?_eq_some found)
  | @updateSchedule id _ f made =>
    constructor
    · intro row member
      obtain ⟨old, present, rfl⟩ := List.mem_map.mp member
      unfold onId
      split
      · rcases updateSchedule_ahead advances made old with kept | resumed
        · exact .inl ⟨old, present, (updateSchedule_id made old).1.symm, kept.symm⟩
        · exact .inr resumed
      · exact .inl ⟨old, present, rfl, rfl⟩
    · intro row member
      obtain ⟨old, present, rfl⟩ := List.mem_map.mp member
      unfold onId
      split
      · rw [(updateSchedule_id made old).2]
        exact homed old present
      · exact homed old present
  | deleteSchedule made =>
    cases made
    refine ⟨fun row member => .inl ⟨row, List.mem_of_mem_filter member, rfl, rfl⟩, ?_⟩
    exact fun row member => homed row (List.mem_of_mem_filter member)
  | @deleteQueue id _ _ made =>
    cases made
    refine ⟨fun row member => .inl ⟨row, List.mem_of_mem_filter member, rfl, rfl⟩, ?_⟩
    intro row member
    obtain ⟨old, elsewhere⟩ := List.mem_filter.mp member
    obtain ⟨queue, present, same⟩ := List.mem_map.mp (homed row old)
    exact List.mem_map.mpr ⟨queue, List.mem_filter.mpr ⟨present, by simpa [same] using elsewhere⟩, same⟩
  | _ => cases about

/-- Between two ticks. -/
theorem Cron.idle (cron : Cron env state log) (idle : state.sessions sid = .idle)
    (free : state.waits sid (.schedulerLock, .update) = false) (other : Sid) (current : Tick) :
    state.sessions other ≠ .tick current := by
  intro ticking
  have held := cron.shape.granted other (.schedulerLock, .update) (by simp [ticking, Session.locks])
  cases held.excludes free rfl
  rw [idle] at ticking
  cases ticking

/-- A request about templates, between two ticks. -/
theorem Cron.schedules (cron : Cron env state log) (advances : env.getNext.Advances) {now : Time}
    {call : ApiCall} (answers : Answers env state now call locks patch)
    (about : call.schedules = true) (idle : state.sessions sid = .idle) (older : log.clock ≤ now)
    (free : state.waits sid (.schedulerLock, .update) = false)
    (shape : Shape (state.commit sid .idle patch)) :
    Cron env (state.commit sid .idle patch) { log with clock := now } := by
  obtain ⟨slots, homes⟩ := answers.schedules advances about cron.homed
  refine ⟨shape, homes, ?_, ?_, fun entry member => (cron.past entry member).trans older,
    cron.increasing⟩
  · refine System.update_sessions (fun _ session => ∀ current, session = .tick current → current.Plans
      env.getNext (state.commit sid .idle patch).db.scheduledJobs now) nofun ?_
    exact fun other _ current ticking => absurd ticking (cron.idle idle free other current)
  · intro row member entry listed same
    rcases slots row member with ⟨old, present, named, slot⟩ | later
    · exact slot ▸ cron.ahead old present entry listed (same.trans named.symm)
    · exact lt_of_le_of_lt ((cron.past entry listed).trans older) later

/-- The commit of a tick: what it fires is newer than all before. -/
theorem Cron.fires (cron : Cron env state log) (advances : env.getNext.Advances)
    (ticking : state.sessions sid = .tick current) (commits : current.commits = true)
    (older : log.clock ≤ input.now) (shape : Shape (state.commit sid .idle patch))
    (made : tickCommit state current = .commit .idle locks patch) :
    Cron env (state.commit sid .idle patch) {
      clock := input.now, fired := current.spawned.filterMap Job.slot ++ log.fired } := by
  have plans := cron.plans sid current ticking
  have fires := plans.fires advances commits cron.shape.issued.templates.1
  cases made
  obtain ⟨now, spawnedAt, table, slots⟩ := fires.apart
  have fresh : ∀ entry ∈ current.spawned.filterMap Job.slot, ∃ row ∈ state.db.scheduledJobs,
      entry = (row.id, row.nextRunAt) ∧ row.nextRunAt ≤ current.now ∧
        row.nextRunAt < (row.ticked env.getNext current.now now).nextRunAt := by
    intro entry listed
    rw [slots] at listed
    obtain ⟨row, member, fired⟩ := List.mem_filterMap.mp listed
    obtain ⟨same, _, due, later⟩ := ScheduledJob.fired_slot advances fired
    exact ⟨row, member, same, due, later⟩
  have rows : (state.commit sid .idle {
      job := tickWrite current.writes
      newJobs := numbered state.nextUuid current.spawned
      scheduledJobs := fun rows => rows.map fun row =>
        current.schedules.foldl (fun row change => change.write row) row }).db.scheduledJobs =
      state.db.scheduledJobs.map (ScheduledJob.ticked env.getNext current.now now) := table
  refine ⟨shape, ?_, ?_, ?_, ?_, ?_⟩
  · rw [rows]
    intro row member
    obtain ⟨old, present, rfl⟩ := List.mem_map.mp member
    rw [ScheduledJob.ticked_queueId]
    exact cron.homed old present
  · refine System.update_sessions (fun _ session => ∀ tick, session = .tick tick → tick.Plans
      env.getNext _ input.now) nofun ?_
    intro other different tick twin
    -- Nobody else has the scheduler's lock.
    have held := cron.shape.granted other (.schedulerLock, .update) (by simp [twin, Session.locks])
    have ours := cron.shape.granted sid (.schedulerLock, .update) (by simp [ticking, Session.locks])
    exact absurd (cron.shape.compatible.holder_unique held ours rfl) different
  · rw [rows]
    intro row member entry listed same
    obtain ⟨old, present, rfl⟩ := List.mem_map.mp member
    rw [ScheduledJob.ticked_id] at same
    rcases List.mem_append.mp listed with new | before
    · obtain ⟨fired, there, rfl, _, later⟩ := fresh entry new
      cases List.inj_on_of_nodup_map cron.shape.issued.templates.1 there present same
      exact later
    · exact lt_of_lt_of_le (cron.ahead old present entry before same)
        (ScheduledJob.ticked_later advances)
  · intro entry listed
    rcases List.mem_append.mp listed with new | before
    · obtain ⟨row, _, rfl, due, _⟩ := fresh entry new
      exact (due.trans plans.started).trans older
    · exact (cron.past entry before).trans older
  · refine List.pairwise_append.mpr ⟨?_, cron.increasing, ?_⟩
    · rw [slots]
      refine (List.pairwise_map.mp (fired_distinct cron.shape.issued.templates.1)).imp ?_
      exact fun different same => absurd same different
    · intro newer new older before same
      obtain ⟨row, there, rfl, _, _⟩ := fresh newer new
      exact cron.ahead row there older before same.symm

/-- What a request does to the record of the run. -/
theorem CronLog.note_begin (clock : OnClock (state, log) (.begin sid request)) :
    log.clock ≤ (log.note state (.begin sid request)).clock ∧
      (log.note state (.begin sid request)).fired = log.fired := by
  cases request with
  | tick => exact ⟨clock, rfl⟩
  | api now call =>
    simp only [CronLog.note]
    split
    · rename_i about
      exact ⟨(clock about).1, rfl⟩
    · exact ⟨le_refl _, rfl⟩
  | _ => exact ⟨le_refl _, rfl⟩

theorem Cron.begins (cron : Cron env state log) (advances : env.getNext.Advances)
    {request : Request} (clock : OnClock (state, log) (.begin sid request))
    (taken : Pulse.step env state (.begin sid request) = some after) :
    Cron env after (log.note state (.begin sid request)) := by
  have shape := cron.shape.step taken
  obtain ⟨older, fired⟩ := CronLog.note_begin clock
  cases step_inverted taken with
  | @begin sid request effect _ idle made performed =>
    cases effect with
    | hold next locks =>
      obtain ⟨_, rfl⟩ := System.perform_hold performed
      refine cron.relax shape rfl (List.Subset.refl _) older fired (ticks_update ?_)
      rintro current rfl
      obtain ⟨now, rfl, rfl⟩ := Request.begins_tick made
      exact ⟨le_refl _, nofun⟩
    | commit next locks patch =>
      obtain ⟨free, rfl⟩ := System.perform_commit performed
      obtain ⟨now, call, rfl, rfl, answers⟩ := Request.effect_closes made
      by_cases about : call.schedules = true
      · obtain ⟨later, between⟩ := clock about
        have next := cron.schedules advances answers about idle later between shape
        simpa [CronLog.note, about] using next
      · obtain ⟨templates, queues⟩ := answers.templates (Bool.eq_false_iff.mpr about)
        refine cron.relax shape ?_ queues older fired (ticks_update (by simp))
        simp [Db.apply, templates]
    | rollback =>
      cases Option.some.inj performed
      exact cron.relax shape rfl (List.Subset.refl _) older fired (ticks_update (by simp))

theorem Tick.commits_iff : current.commits = true ↔
    current.targets = [] ∧ current.stage = .committing := by
  simp [Tick.commits]

/-- The next statement of a tick. -/
theorem Cron.ticks (cron : Cron env state log) (advances : env.getNext.Advances)
    (ticking : state.sessions sid = .tick current) (older : log.clock ≤ input.now)
    (taken : Pulse.step env state (.next sid input) = some after) : Cron env after {
      clock := input.now
      fired := (if current.commits then current.spawned.filterMap Job.slot else []) ++ log.fired } := by
  have shape := cron.shape.step taken
  obtain ⟨effect, made, performed⟩ := next_effect taken
  rw [ticking] at made
  have going : (∀ next locks patch, effect ≠ .commit next locks patch) → current.commits = false := by
    intro other
    rw [← Bool.not_eq_true, Tick.commits_iff]
    rintro ⟨visited, stage⟩
    simp only [Session.effect, tickEffect, visited, stage, ne_eq, not_true_eq_false, if_false,
      Option.some.injEq] at made
    exact other _ _ _ made.symm
  cases effect with
  | hold next locks =>
    obtain ⟨_, rfl⟩ := System.perform_hold performed
    obtain ⟨tick, rfl, plans⟩ := cron.advance older ticking made
    rw [going (by simp)]
    refine cron.relax shape rfl (List.Subset.refl _) older rfl (ticks_update ?_)
    intro other same
    cases same
    exact plans
  | commit next locks patch =>
    obtain ⟨_, rfl⟩ := System.perform_commit performed
    obtain ⟨visited, stage, committed⟩ := tickEffect_commit made
    have commits := Tick.commits_iff.mpr ⟨visited, stage⟩
    cases committed
    rw [commits]
    exact cron.fires advances ticking commits older shape rfl
  | rollback =>
    cases Option.some.inj performed
    rw [going (by simp)]
    exact cron.relax shape rfl (List.Subset.refl _) older rfl (ticks_update (by simp))

/-- The next statement of any other session. -/
theorem Cron.others (cron : Cron env state log)
    (other : ∀ current, state.sessions sid ≠ .tick current)
    (taken : Pulse.step env state (.next sid input) = some after) : Cron env after log := by
  have shape := cron.shape.step taken
  obtain ⟨effect, made, performed⟩ := next_effect taken
  cases effect with
  | hold next locks =>
    obtain ⟨_, rfl⟩ := System.perform_hold performed
    refine cron.relax shape rfl (List.Subset.refl _) (le_refl _) rfl (ticks_update ?_)
    intro tick same
    obtain ⟨current, ticking⟩ := Session.effect_tick (same ▸ made)
    exact absurd ticking (other current)
  | commit next locks patch =>
    obtain ⟨_, rfl⟩ := System.perform_commit performed
    rcases (Session.effect_closes made).templates with ⟨current, ticking⟩ | ⟨templates, queues, quiet⟩
    · exact absurd ticking (other current)
    · refine cron.relax shape ?_ ?_ (le_refl _) rfl (ticks_update fun current same =>
        absurd same (quiet current))
      · simp [Db.apply, templates]
      · simp [Db.apply, queues]
  | rollback =>
    cases Option.some.inj performed
    exact cron.relax shape rfl (List.Subset.refl _) (le_refl _) rfl (ticks_update (by simp))

theorem Cron.step (cron : Cron env state log) (advances : env.getNext.Advances) {action : Action}
    (clock : OnClock (state, log) action) (taken : Pulse.step env state action = some after) :
    Cron env after (log.note state action) := by
  have shape := cron.shape.step taken
  cases action with
  | begin => exact cron.begins advances clock taken
  | next sid input =>
    by_cases ticks : ∃ current, state.sessions sid = .tick current
    · obtain ⟨current, ticking⟩ := ticks
      simp only [OnClock, ticking] at clock
      simpa only [CronLog.note, ticking] using cron.ticks advances ticking clock taken
    · have other := not_exists.mp ticks
      have same : log.note state (.next sid input) = log := by
        cases running : state.sessions sid with
        | tick current => exact absurd running (other current)
        | _ => simp only [CronLog.note, running]
      rw [same]
      exact cron.others other taken
  | fail =>
    cases step_inverted taken with
    | fail => exact cron.relax shape rfl (List.Subset.refl _) (le_refl _) rfl (ticks_update (by simp))
  | submit =>
    cases step_inverted taken with
    | submit =>
      refine cron.relax shape rfl (List.Subset.refl _) (le_refl _) rfl ?_
      refine System.handed_forall (fun other session => ∀ current, session = .tick current →
        state.sessions other = .tick current ∨
          current.Plans env.getNext state.db.scheduledJobs log.clock) nofun ?_ fun _ _ _ same => .inl same
      intro current same
      unfold handingOver at same
      split at same <;> cases same
  | exit =>
    cases step_inverted taken with
    | exit => exact cron.relax shape rfl (List.Subset.refl _) (le_refl _) rfl fun _ _ => .inl
  | reregister =>
    cases step_inverted taken with
    | reregister => exact cron.relax shape rfl (List.Subset.refl _) (le_refl _) rfl fun _ _ => .inl

/-- The ids which new rows get leave their slots. -/
theorem numbered_slots (first : Uuid) (jobs : List Job) :
    (numbered first jobs).map Job.slot = jobs.map Job.slot := by
  refine List.ext_getElem? fun index => ?_
  simp only [numbered, List.getElem?_map, List.getElem?_mapIdx, Option.map_map]
  rfl

theorem Cron.firesOnce (cron : Cron env state log) (advances : env.getNext.Advances) :
    FiresOnce env state log := by
  refine ⟨cron.increasing, ?_⟩
  intro sid current input after ticking commits taken
  obtain ⟨effect, made, performed⟩ := next_effect taken
  obtain ⟨visited, stage⟩ := Tick.commits_iff.mp commits
  rw [ticking] at made
  simp only [Session.effect, tickEffect, visited, stage, ne_eq, not_true_eq_false, if_false,
    Option.some.injEq] at made
  cases made
  obtain ⟨_, rfl⟩ := System.perform_commit performed
  refine ⟨(cron.plans sid current ticking).fires advances commits cron.shape.issued.templates.1,
    (numbered state.nextUuid current.spawned).map fun job => { job }, ?_, ?_⟩
  · simp [Db.apply]
  · rw [List.map_map]
    exact numbered_slots ..

/-- In every run on one clock, from any templates, no slot is fired twice, and a tick fires at
most one for each template, however many were missed. -/
theorem cron_fires_once (advances : env.getNext.Advances) {pair : System × CronLog}
    (reachable : (cron env).Reachable OnClock pair) : FiresOnce env pair.1 pair.2 := by
  have all : Cron env pair.1 pair.2 := by
    refine @Machine.Reachable.invariant _ _ (cron env) OnClock (fun pair => Cron env pair.1 pair.2)
      ?_ ?_ pair reachable
    · rintro ⟨state, log⟩ ⟨shape, idle, homed, fired⟩
      refine ⟨shape, homed, fun sid current ticking => ?_, ?_, ?_, ?_⟩
      · rw [show state.sessions sid = .idle from idle sid] at ticking
        cases ticking
      · rw [show log.fired = [] from fired]
        exact fun _ _ _ listed => nomatch listed
      · rw [show log.fired = [] from fired]
        exact fun _ listed => nomatch listed
      · rw [show log.fired = [] from fired]
        exact .nil
    · rintro ⟨state, log⟩ action ⟨after, later⟩ cron clock taken
      obtain ⟨next, stepped, same⟩ := Option.map_eq_some_iff.mp taken
      cases same
      exact cron.step advances clock stepped
  exact all.firesOnce advances

end Ticks

instance (pair : System × CronLog) : (action : Action) → Decidable (OnClock pair action)
  | .begin _ (.tick _) => inferInstanceAs (Decidable (_ ≤ _))
  | .begin _ (.api _ _) => inferInstanceAs (Decidable (_ → _ ∧ _))
  | .next sid input => decidable_of_iff (∀ current ∈ (pair.1.sessions sid).ticking,
      pair.2.clock ≤ input.now) (by
    cases stage : pair.1.sessions sid <;> simp [OnClock, stage, Session.ticking])
  | .begin _ (.claimJobs ..) | .begin _ (.updateWorker ..) | .begin _ .reaper
  | .begin _ (.cancelJob _) | .begin _ (.retryJob _) | .begin _ (.replayDlqEntry _) | .fail _
  | .submit .. | .exit _ | .reregister .. => isTrue trivial

/-- A calendar of minutes, in which one expression has no date. -/
def calendar : Environment where
  handover := .reread
  getNext := fun cronExpr _ base =>
    if cronExpr = "0 0 30 2 *" then none else some ((⌊base / 60⌋ + 1) * 60)

theorem calendar_advances : calendar.getNext.Advances := by
  intro cronExpr timezone base next upcoming
  simp only [calendar] at upcoming
  split at upcoming
  · cases upcoming
  · cases Option.some.inj upcoming
    exact (div_lt_iff₀ (by decide)).mp (Int.lt_floor_add_one (base / 60))

/-- A queue, and a template which was written straight to the database. -/
def broken : System where
  db := {
    queues := [{
      id := 1, projectId := 0, retryPolicyId := none, name := "default", priorityDefault := 0
      concurrencyLimit := 5, rateLimitPerSec := none, isPaused := false }]
    scheduledJobs := [{
      id := 2, queueId := 1, cronExpr := "0 0 30 2 *", timezone := "UTC", handler := "sleep"
      payload := "{}", isActive := true, nextRunAt := 60, lastRunAt := none }] }
  nextUuid := 3

theorem broken_shape : Shape broken where
  positive := by decide
  compatible := compatible_nil
  granted := fun _ _ member => by cases member
  issued := by constructor <;> exact ⟨by decide, by decide⟩

/-- The statements of a tick. -/
def ticking (now : Time) : List Action := [
  .begin 2 (.tick now),
  .next 2 { now },
  .next 2 { now },
  .next 2 { now },
  .next 2 { now },
  .next 2 { now }]

/-- Two templates; a tick after many missed slots fires one of them and finds the other
without a date; a pause is followed by a slot of its own. -/
def missing : List Action := [
    .begin 0 (.api 0 (.createSchedule { queueId := 1, cronExpr := "* * * * *", handler := "sleep" }))] ++
  ticking 1000 ++ ticking 1001 ++ [
    .begin 0 (.api 1002 (.updateSchedule 3 false)),
    .begin 0 (.api 2000 (.updateSchedule 3 true))] ++
  ticking 2100

theorem cron_fires_once_missing : ∃ pair, (cron calendar).Reachable OnClock pair ∧
    pair.2.fired = [(3, 2040), (3, 60)] ∧
      (pair.1.db.scheduledJobs.map ScheduledJob.isActive) = [false, true] ∧
        FiresOnce calendar pair.1 pair.2 := by
  have ran : ((cron calendar).run OnClock (broken, { clock := 0 }) missing).any (fun pair =>
      pair.2.fired = [(3, 2040), (3, 60)] &&
        pair.1.db.scheduledJobs.map ScheduledJob.isActive = [false, true]) = true := by
    decide +kernel
  obtain ⟨pair, reachable, passes⟩ := Machine.reachable_of_check
    (by exact ⟨broken_shape, fun _ => rfl, by decide, rfl⟩) missing ran
  simp only [Bool.and_eq_true, decide_eq_true_eq] at passes
  exact ⟨pair, reachable, passes.1, passes.2, cron_fires_once calendar_advances reachable⟩

end Pulse
