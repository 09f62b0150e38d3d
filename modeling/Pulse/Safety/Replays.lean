import Pulse.Ws.Publisher

/-! Which job updates a project's clients are sent at the first tick after a tick at which
it had none. -/
namespace Pulse.Ws
open Library Library.Lts Library.Paging

/-- A `job.updated` message: the row, the time of the tick, and whether the project had no
client at the tick before. -/
structure Broadcast where
  row : JobRow
  now : Time
  rejoined : Bool
deriving DecidableEq, Repr

/-- The projects watched at the last tick and at the last tick which found any, those of the
tick under way which were not watched at the tick before, and the messages. -/
structure Watching where
  previous : Option (List Uuid) := none
  watched : List Uuid := []
  rejoined : List Uuid := []
  broadcasts : List Broadcast := []
deriving DecidableEq, Repr

def watch (publisher : Publisher) : Event → Watching → Watching
  | .tick, seen =>
    let projectIds := publisher.manager.activeProjectIds
    { seen with
      previous := some projectIds
      watched := if projectIds.isEmpty then seen.watched else projectIds
      rejoined := projectIds.filter fun projectId => seen.previous.any fun before => projectId ∉ before }
  | .broadcast, seen => match publisher.stage with
    | .updating visit => match visit.rows with
      | row :: _ => { seen with broadcasts :=
          { row, now := visit.now, rejoined := visit.projectId ∈ seen.rejoined } :: seen.broadcasts }
      | [] => seen
    | _ => seen
  | _, seen => seen

def watching : Machine (Publisher × Watching) Event :=
  publishing.recorded (fun seen => seen = {}) watch

/-- A tick which finds clients, where the tick before found none at all, has none of the
projects of the last tick which found any. -/
def forgets (pair : Publisher × Watching) (event : Event) : Prop :=
  event.isTick = true → pair.2.previous = some [] →
    ∀ projectId ∈ pair.1.manager.activeProjectIds, projectId ∉ pair.2.watched

instance (pair : Publisher × Watching) (event : Event) : Decidable (forgets pair event) :=
  inferInstanceAs (Decidable (_ → _))

/-- The message concerns a row from the time which a new client is shown. -/
def Broadcast.Fresh (broadcast : Broadcast) : Prop :=
  broadcast.rejoined = true → broadcast.now - POLL_INTERVAL_SEC * 2 < broadcast.row.updatedAt

/-- The watermarks are those of the projects watched at the last tick which found any, a
project which is watched again has none until its visit, and that visit reads from a time
shortly before the tick. -/
structure Watched (pair : Publisher × Watching) : Prop where
  known : ∀ projectId time, pair.1.lastCheck.get? projectId = some time → projectId ∈ pair.2.watched
  previous : ∀ projectIds, pair.2.previous = some projectIds → projectIds ≠ [] →
    pair.2.watched = projectIds
  ahead : ∀ projectIds ∈ pair.1.stage.ahead, projectIds.Nodup ∧ projectIds ⊆ pair.2.watched ∧
    ∀ projectId ∈ projectIds, projectId ∈ pair.2.rejoined →
      pair.1.lastCheck.get? projectId = none
  visit : ∀ visit ∈ pair.1.stage.visit, visit.projectId ∈ pair.2.rejoined →
    ∀ row ∈ visit.rows, visit.now - POLL_INTERVAL_SEC * 2 < row.updatedAt
  fresh : ∀ broadcast ∈ pair.2.broadcasts, broadcast.Fresh

section Steps
variable {publisher next : Publisher} {seen : Watching} {event : Event}

/-- A project which is watched again has no watermark: one which has was watched at the last
tick which found any. -/
theorem Watched.unknown (watched : Watched (publisher, seen))
    (forgets : forgets (publisher, seen) .tick) {projectId : Uuid}
    (active : projectId ∈ publisher.manager.activeProjectIds)
    (rejoined : seen.previous.any (fun before => projectId ∉ before) = true) :
    publisher.lastCheck.get? projectId = none := by
  cases found : publisher.lastCheck.get? projectId with
  | none => rfl
  | some time =>
    have old := watched.known projectId time found
    cases last : seen.previous with
    | none =>
      rw [last] at rejoined
      cases rejoined
    | some before =>
      have absent : projectId ∉ before := by simpa [last] using rejoined
      by_cases nobody : before = []
      · exact absurd old (forgets rfl (by rw [last, nobody]) projectId active)
      · exact absurd (watched.previous before last nobody ▸ old) absent

theorem Watched.step (watched : Watched (publisher, seen)) (forgets : forgets (publisher, seen) event)
    (taken : Taken publisher event next) : Watched (next, watch publisher event seen) := by
  have ⟨known, previous, ahead, visits, fresh⟩ := watched
  cases taken with
  | connect | disconnect | commit =>
    exact ⟨known, previous, ahead, visits, fresh⟩
  | nobody sleeping unwatched =>
    simp only [watch, unwatched]
    refine ⟨known, by simp, ?_, ?_, fresh⟩
    · simp [sleeping, Stage.ahead]
    · simp [sleeping, Stage.visit]
  | tick sleeping somebody =>
    have nonempty : publisher.manager.activeProjectIds.isEmpty = false := by simpa using somebody
    simp only [watch, nonempty]
    refine ⟨?_, ?_, ?_, by simp [Stage.visit], fresh⟩
    · intro projectId time found
      rw [get?_forget] at found
      split at found
      · rename_i active
        exact active
      · cases found
    · intro projectIds same _
      exact Option.some.inj same
    · rintro _ ⟨⟩
      refine ⟨activeProjectIds_nodup, fun _ => id, ?_⟩
      intro projectId active rejoined
      rw [get?_forget, if_pos active]
      exact watched.unknown forgets active (List.mem_filter.mp rejoined).2
  | clock opening =>
    rw [opening] at ahead
    exact ⟨known, previous, ahead, by simp [Stage.visit], fresh⟩
  | select looping arranged =>
    rw [looping] at ahead
    refine ⟨known, previous, ahead, ?_, fresh⟩
    rintro visit ⟨⟩ rejoined row member
    have late := (arranged.mem_iff.mp (List.mem_of_mem_take member)).2
    rw [Publisher.since, (ahead _ rfl).2.2 _ List.mem_cons_self rejoined, Option.getD_none] at late
    exact late
  | broadcast updating left =>
    rename_i visit row rows
    rw [updating] at ahead visits
    have rest := visits visit rfl
    simp only [watch, updating, left]
    refine ⟨known, previous, ahead, ?_, ?_⟩
    · rintro _ ⟨⟩ rejoined job member
      exact rest rejoined job (left ▸ List.mem_cons_of_mem _ member)
    · intro broadcast listed
      rcases List.mem_cons.mp listed with rfl | old
      · intro rejoined
        exact rest (by simpa using rejoined) row (left ▸ List.mem_cons_self)
      · exact fresh broadcast old
  | send sending =>
    rw [sending] at ahead visits
    exact ⟨known, previous, ahead, visits, fresh⟩
  | dropDead sending =>
    rw [sending] at ahead visits
    exact ⟨known, previous, ahead, visits, fresh⟩
  | advance updating done =>
    rename_i visit
    rw [updating] at ahead
    obtain ⟨distinct, inside, unknown⟩ := ahead _ rfl
    have other := List.nodup_cons.mp distinct
    refine ⟨?_, previous, ?_, by simp [Stage.visit], fresh⟩
    · intro projectId time found
      by_cases same : projectId = visit.projectId
      · rw [same]
        exact inside List.mem_cons_self
      · exact known projectId time ((Dict.get?_set_ne same).symm.trans found)
    · rintro _ ⟨⟩
      refine ⟨other.2, fun _ member => inside (List.mem_cons_of_mem _ member), ?_⟩
      intro projectId member rejoined
      have different : projectId ≠ visit.projectId := fun same => other.1 (same ▸ member)
      exact (Dict.get?_set_ne different).trans
        (unknown projectId (List.mem_cons_of_mem _ member) rejoined)
  | finish | fail =>
    exact ⟨known, previous, by simp [Stage.ahead], by simp [Stage.visit], fresh⟩

end Steps

/-- In every run in which no project is watched again after ticks which found nobody at all,
what a project's new clients are sent is recent. -/
theorem no_stale_replay {pair : Publisher × Watching} (reached : watching.Reachable forgets pair) :
    ∀ broadcast ∈ pair.2.broadcasts, broadcast.Fresh := by
  have watched : Watched pair := by
    refine reached.invariant ?_ ?_
    · rintro ⟨publisher, seen⟩ ⟨⟨sleeping, nothing⟩, rfl⟩
      refine ⟨?_, by simp, ?_, ?_, by simp⟩
      · intro projectId time found
        rw [Dict.get?_eq_some, nothing] at found
        exact absurd found List.not_mem_nil
      · simp only at sleeping
        simp [sleeping, Stage.ahead]
      · simp only at sleeping
        simp [sleeping, Stage.visit]
    · rintro ⟨publisher, seen⟩ event ⟨next, later⟩ watched forgets taken
      obtain ⟨taken, rfl⟩ := Machine.recorded_step taken
      exact watched.step forgets (step_taken taken)
  exact watched.fresh

/-- Project 1 has a queue with one job, which was changed at time 50. -/
def changed : Tables where
  queues := [⟨1, 1, none, "default", 0, 10, none, false⟩]
  jobs := [⟨8, .completed, 1, 50⟩]

/-- A tick at `now` which has nothing to broadcast for `watched` projects. -/
def quietTick (now : Time) (watched : Nat) : List Event :=
  [.tick, .clock now] ++ (List.replicate watched [.select [], .advance]).flatten ++ [.finish]

/-- The job's message is sent to the one client. -/
def lastVisit : List Event :=
  [.select [⟨8, .completed, 1, 50⟩], .broadcast, .send true, .dropDead, .advance, .finish]

/-- Project 2 is watched while nobody watches project 1. -/
def watchedMeanwhile : List Event :=
  [.connect 1 0] ++ quietTick 0 1 ++ [.disconnect 1 0, .connect 2 5] ++ quietTick 2 1 ++
    [.commit changed, .connect 1 6, .tick, .clock 52, .select [], .advance] ++ lastVisit

/-- Nobody watches anything while nobody watches project 1. -/
def unwatchedMeanwhile : List Event :=
  [.connect 1 0] ++ quietTick 0 1 ++ [.disconnect 1 0, .tick, .commit changed, .connect 1 6, .tick,
    .clock 3600] ++ lastVisit

theorem no_stale_replay_rejoined : ∃ pair, watching.Reachable forgets pair ∧
    (pair.2.broadcasts.any fun broadcast => broadcast.rejoined) = true ∧
      ∀ broadcast ∈ pair.2.broadcasts, broadcast.Fresh := by
  have ran : ((watching.run forgets ({}, {}) watchedMeanwhile).any fun pair =>
      pair.2.broadcasts.any fun broadcast => broadcast.rejoined) = true := by decide +kernel
  obtain ⟨pair, reached, rejoined⟩ :=
    Machine.reachable_of_check (by exact ⟨⟨rfl, rfl⟩, rfl⟩) watchedMeanwhile ran
  exact ⟨pair, reached, rejoined, no_stale_replay reached⟩

/-- A client which comes back after an hour without any client is sent what has changed
since it left. -/
theorem stale_replay : ¬ ∀ pair, watching.Reachable anyStep pair →
    ∀ broadcast ∈ pair.2.broadcasts, broadcast.Fresh := by
  intro fresh
  have ran : ((watching.run anyStep ({}, {}) unwatchedMeanwhile).any fun pair =>
      pair.2.broadcasts.any fun broadcast => broadcast.rejoined && broadcast.now = 3600 &&
        broadcast.row.updatedAt = 50) = true := by decide +kernel
  obtain ⟨pair, reached, stale⟩ :=
    Machine.reachable_of_check (by exact ⟨⟨rfl, rfl⟩, rfl⟩) unwatchedMeanwhile ran
  obtain ⟨broadcast, member, found⟩ := List.any_eq_true.mp stale
  simp only [Bool.and_eq_true, decide_eq_true_eq] at found
  obtain ⟨⟨rejoined, now⟩, updated⟩ := found
  have recent := fresh pair reached broadcast member rejoined
  rw [now, updated] at recent
  exact absurd recent (by decide +kernel)

end Pulse.Ws
