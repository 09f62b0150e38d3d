import Pulse.Library.Lts
import Pulse.Library.Paging
import Pulse.Ws.Manager

/-! `EventPublisher` of `ws/publisher.py` on the event loop: each `await` of `_tick` ends
a step, and clients connect and disconnect between any two. -/
namespace Pulse.Ws
open Library Library.Lts Library.Paging

def POLL_INTERVAL_SEC : Time := 2
def JOB_UPDATES_PER_TICK : Nat := 200

/-- The columns of a job which `_broadcast_job_updates` selects. -/
structure JobRow where
  id : Uuid
  status : JobStatus
  queueId : Uuid
  updatedAt : Time
deriving DecidableEq, Repr

/-- The committed rows which it reads; `id` is the primary key of `jobs`. -/
structure Tables where
  queues : List Queue := []
  jobs : List JobRow := []
  distinct : (jobs.map JobRow.id).Nodup := by simp

/-- `.join(Queue, Queue.id == Job.queue_id).where(Queue.project_id == project_id)`. -/
def Tables.jobsOf (tables : Tables) (projectId : Uuid) : List JobRow :=
  tables.jobs.filter fun job =>
    (tables.queues.find? fun queue => queue.id = job.queueId).any fun queue =>
      queue.projectId = projectId

/-- What is left of the visit to one project: the watermark which a full page leaves, and
the rows whose messages are still to be broadcast. -/
structure Visit where
  now : Time
  projectIds : List Uuid
  projectId : Uuid
  truncatedAt : Option Time
  rows : List JobRow
deriving DecidableEq, Repr

/-- `_run`: in `asyncio.sleep`, opening the session of a tick, at the head of its loop over
the projects, in `_broadcast_job_updates`, or in one of its calls of `broadcast`. -/
inductive Stage where
  | sleeping
  | opening (projectIds : List Uuid)
  | looping (now : Time) (projectIds : List Uuid)
  | updating (visit : Visit)
  | sending (visit : Visit) (row : JobRow) (targets dead : List WebSocket)
deriving DecidableEq, Repr

/-- The time of the tick which is under way, once it is read. -/
def Stage.now : Stage → Option Time
  | .sleeping | .opening _ => none
  | .looping now _ => some now
  | .updating visit | .sending visit _ _ _ => some visit.now

/-- The projects which the tick under way has not advanced yet. -/
def Stage.ahead : Stage → Option (List Uuid)
  | .sleeping => none
  | .opening projectIds | .looping _ projectIds => some projectIds
  | .updating visit | .sending visit _ _ _ => some (visit.projectId :: visit.projectIds)

/-- The visit under way. -/
def Stage.visit : Stage → Option Visit
  | .updating visit | .sending visit _ _ _ => some visit
  | _ => none

structure Publisher where
  manager : ConnectionManager := {}
  lastCheck : Dict Uuid Time := {}
  stage : Stage := .sleeping
  tables : Tables := {}

/-- `disconnect` also stands for a socket which one of the other broadcasts found dead,
`fail` for an exception which `_run` logs. -/
inductive Event where
  | connect (projectId : Uuid) (websocket : WebSocket)
  | disconnect (projectId : Uuid) (websocket : WebSocket)
  | commit (tables : Tables)
  | tick
  | clock (now : Time)
  | select (ordered : List JobRow)
  | broadcast
  | send (reached : Bool)
  | dropDead
  | advance
  | finish
  | fail

def Event.isTick : Event → Bool
  | .tick => true
  | _ => false

/-- `del self._last_check[stale]` for the projects which nobody watches. -/
def forget (lastCheck : Dict Uuid Time) (projectIds : List Uuid) : Dict Uuid Time :=
  (lastCheck.keys.filter (· ∉ projectIds)).foldl Dict.erase lastCheck

/-- `self._last_check.get(project_id, now - timedelta(seconds=POLL_INTERVAL_SEC * 2))`. -/
def Publisher.since (publisher : Publisher) (projectId : Uuid) (now : Time) : Time :=
  (publisher.lastCheck.get? projectId).getD (now - POLL_INTERVAL_SEC * 2)

/-- What `_broadcast_job_updates` returns. -/
def truncation (rows : List JobRow) : Option Time :=
  if rows.length = JOB_UPDATES_PER_TICK then rows.getLast?.map JobRow.updatedAt else none

def step (publisher : Publisher) : Event → Option Publisher
  | .connect projectId websocket =>
    some { publisher with manager := publisher.manager.connect projectId websocket }
  | .disconnect projectId websocket =>
    some { publisher with manager := publisher.manager.disconnect projectId websocket }
  | .commit tables => some { publisher with tables }
  | .tick => match publisher.stage with
    | .sleeping =>
      let projectIds := publisher.manager.activeProjectIds
      if projectIds.isEmpty then some publisher
      else some { publisher with
        lastCheck := forget publisher.lastCheck projectIds
        stage := .opening projectIds }
    | _ => none
  | .clock now => match publisher.stage with
    | .opening projectIds => some { publisher with stage := .looping now projectIds }
    | _ => none
  | .select ordered => match publisher.stage with
    | .looping now (projectId :: projectIds) =>
      if Paging.Ordered JobRow.updatedAt (publisher.tables.jobsOf projectId)
          (publisher.since projectId now) ordered then
        let rows := ordered.take JOB_UPDATES_PER_TICK
        some { publisher with
          stage := .updating { now, projectIds, projectId, truncatedAt := truncation rows, rows } }
      else none
    | _ => none
  | .broadcast => match publisher.stage with
    | .updating visit => match visit.rows with
      | row :: rows => some { publisher with
          stage := .sending { visit with rows } row (publisher.manager.conns visit.projectId) [] }
      | [] => none
    | _ => none
  | .send reached => match publisher.stage with
    | .sending visit row (websocket :: targets) dead => some { publisher with
        stage := .sending visit row targets (if reached then dead else websocket :: dead) }
    | _ => none
  | .dropDead => match publisher.stage with
    | .sending visit _ [] dead => some { publisher with
        manager := dead.foldl (fun manager ws => manager.disconnect visit.projectId ws)
          publisher.manager
        stage := .updating visit }
    | _ => none
  | .advance => match publisher.stage with
    | .updating visit =>
      -- the broadcasts of workers, queues and metrics come before this assignment
      if visit.rows.isEmpty then some { publisher with
        lastCheck := publisher.lastCheck.set visit.projectId (visit.truncatedAt.getD visit.now)
        stage := .looping visit.now visit.projectIds }
      else none
    | _ => none
  | .finish => match publisher.stage with
    | .looping _ [] => some { publisher with stage := .sleeping }
    | _ => none
  | .fail => match publisher.stage with
    | .sleeping => none
    | _ => some { publisher with stage := .sleeping }

def publishing : Machine Publisher Event where
  init := fun publisher => publisher.stage = .sleeping ∧ publisher.lastCheck.entries = []
  step := step

/-- What each step does. -/
inductive Taken (publisher : Publisher) : Event → Publisher → Prop where
  | connect {projectId websocket} : Taken publisher (.connect projectId websocket)
      { publisher with manager := publisher.manager.connect projectId websocket }
  | disconnect {projectId websocket} : Taken publisher (.disconnect projectId websocket)
      { publisher with manager := publisher.manager.disconnect projectId websocket }
  | commit {tables} : Taken publisher (.commit tables) { publisher with tables }
  | nobody (sleeping : publisher.stage = .sleeping)
      (unwatched : publisher.manager.activeProjectIds = []) : Taken publisher .tick publisher
  | tick (sleeping : publisher.stage = .sleeping)
      (watched : publisher.manager.activeProjectIds ≠ []) : Taken publisher .tick
      { publisher with
        lastCheck := forget publisher.lastCheck publisher.manager.activeProjectIds
        stage := .opening publisher.manager.activeProjectIds }
  | clock {now projectIds} (opening : publisher.stage = .opening projectIds) :
      Taken publisher (.clock now) { publisher with stage := .looping now projectIds }
  | select {now projectId projectIds ordered}
      (looping : publisher.stage = .looping now (projectId :: projectIds))
      (arranged : Paging.Ordered JobRow.updatedAt (publisher.tables.jobsOf projectId)
        (publisher.since projectId now) ordered) : Taken publisher (.select ordered)
      { publisher with stage := .updating {
        now, projectIds, projectId
        truncatedAt := truncation (ordered.take JOB_UPDATES_PER_TICK)
        rows := ordered.take JOB_UPDATES_PER_TICK } }
  | broadcast {visit row rows} (updating : publisher.stage = .updating visit)
      (left : visit.rows = row :: rows) : Taken publisher .broadcast
      { publisher with
        stage := .sending { visit with rows } row (publisher.manager.conns visit.projectId) [] }
  | send {visit row websocket targets dead reached}
      (sending : publisher.stage = .sending visit row (websocket :: targets) dead) :
      Taken publisher (.send reached) { publisher with
        stage := .sending visit row targets (if reached then dead else websocket :: dead) }
  | dropDead {visit row dead} (sending : publisher.stage = .sending visit row [] dead) :
      Taken publisher .dropDead { publisher with
        manager := dead.foldl (fun manager ws => manager.disconnect visit.projectId ws)
          publisher.manager
        stage := .updating visit }
  | advance {visit} (updating : publisher.stage = .updating visit) (done : visit.rows = []) :
      Taken publisher .advance { publisher with
        lastCheck := publisher.lastCheck.set visit.projectId (visit.truncatedAt.getD visit.now)
        stage := .looping visit.now visit.projectIds }
  | finish {now} (looping : publisher.stage = .looping now []) :
      Taken publisher .finish { publisher with stage := .sleeping }
  | fail (busy : publisher.stage ≠ .sleeping) :
      Taken publisher .fail { publisher with stage := .sleeping }

theorem step_taken {publisher next : Publisher} {event : Event}
    (made : step publisher event = some next) : Taken publisher event next := by
  cases event with
  | connect | disconnect | commit =>
    cases Option.some.inj made
    constructor
  | tick =>
    cases stage : publisher.stage with
    | sleeping =>
      simp only [step, stage] at made
      split at made
      · rename_i nobody
        cases Option.some.inj made
        exact .nobody stage (List.isEmpty_iff.mp nobody)
      · rename_i somebody
        cases Option.some.inj made
        exact .tick stage (by simpa using somebody)
    | _ => simp [step, stage] at made
  | clock =>
    cases stage : publisher.stage with
    | opening =>
      simp only [step, stage] at made
      cases Option.some.inj made
      exact .clock stage
    | _ => simp [step, stage] at made
  | select =>
    cases stage : publisher.stage with
    | looping now projectIds =>
      cases projectIds with
      | nil => simp [step, stage] at made
      | cons projectId projectIds =>
        simp only [step, stage] at made
        split at made
        · rename_i arranged
          cases Option.some.inj made
          exact .select stage arranged
        · cases made
    | _ => simp [step, stage] at made
  | broadcast =>
    cases stage : publisher.stage with
    | updating visit =>
      cases left : visit.rows with
      | nil => simp [step, stage, left] at made
      | cons =>
        simp only [step, stage, left] at made
        cases Option.some.inj made
        exact .broadcast stage left
    | _ => simp [step, stage] at made
  | send =>
    cases stage : publisher.stage with
    | sending visit row targets dead =>
      cases targets with
      | nil => simp [step, stage] at made
      | cons =>
        simp only [step, stage] at made
        cases Option.some.inj made
        exact .send stage
    | _ => simp [step, stage] at made
  | dropDead =>
    cases stage : publisher.stage with
    | sending visit row targets dead =>
      cases targets with
      | nil =>
        simp only [step, stage] at made
        cases Option.some.inj made
        exact .dropDead stage
      | cons => simp [step, stage] at made
    | _ => simp [step, stage] at made
  | advance =>
    cases stage : publisher.stage with
    | updating visit =>
      simp only [step, stage] at made
      split at made
      · rename_i done
        cases Option.some.inj made
        exact .advance stage (List.isEmpty_iff.mp done)
      · cases made
    | _ => simp [step, stage] at made
  | finish =>
    cases stage : publisher.stage with
    | looping now projectIds =>
      cases projectIds with
      | nil =>
        simp only [step, stage] at made
        cases Option.some.inj made
        exact .finish stage
      | cons => simp [step, stage] at made
    | _ => simp [step, stage] at made
  | fail =>
    cases stage : publisher.stage with
    | sleeping => simp [step, stage] at made
    | _ =>
      simp only [step, stage] at made
      cases Option.some.inj made
      exact .fail (by simp [stage])

section Forget
variable {lastCheck : Dict Uuid Time} {projectIds : List Uuid} {projectId : Uuid}

private theorem get?_eraseAll (keys : List Uuid) (dict : Dict Uuid Time) :
    (keys.foldl Dict.erase dict).get? projectId =
      if projectId ∈ keys then none else dict.get? projectId := by
  induction keys generalizing dict with
  | nil => simp
  | cons key rest ih =>
    rw [List.foldl_cons, ih]
    by_cases same : projectId = key
    · subst same
      simp
    · simp [same, Dict.get?_erase_ne same]

/-- A tick which finds somebody watching forgets every other project. -/
theorem get?_forget : (forget lastCheck projectIds).get? projectId =
    if projectId ∈ projectIds then lastCheck.get? projectId else none := by
  unfold forget
  rw [get?_eraseAll]
  by_cases watched : projectId ∈ projectIds
  · simp [watched]
  · by_cases known : projectId ∈ lastCheck.keys
    · simp [watched, known]
    · simp [watched, known, Dict.get?_eq_none.mpr known]

end Forget
end Pulse.Ws
