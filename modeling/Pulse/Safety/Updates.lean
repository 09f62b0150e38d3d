import Pulse.Ws.Publisher

/-! Which job updates reach a client of the project which stays connected while the rows
do not change. -/
namespace Pulse.Ws
open Library Library.Lts Library.Paging

/-- The completed ticks of a run, and the messages which reached a socket. -/
structure Deliveries where
  ticks : Nat := 0
  sent : List (Uuid × WebSocket × JobRow) := []

def deliver (publisher : Publisher) : Event → Deliveries → Deliveries
  | .finish, seen => { seen with ticks := seen.ticks + 1 }
  | .send true, seen => match publisher.stage with
    | .sending visit row (websocket :: _) _ =>
      { seen with sent := (visit.projectId, websocket, row) :: seen.sent }
    | _ => seen
  | _, seen => seen

def delivering : Machine (Publisher × Deliveries) Event :=
  publishing.recorded (fun seen => seen = {}) deliver

/-- The client stays connected and its socket takes every message, the project's rows do not
change, and no tick fails before the project has a watermark. -/
def staying (projectId : Uuid) (client : WebSocket) (pair : Publisher × Deliveries) : Event → Prop
  | .disconnect other websocket => ¬ (other = projectId ∧ websocket = client)
  | .commit tables => (tables.jobsOf projectId).Perm (pair.1.tables.jobsOf projectId)
  | .send reached => match pair.1.stage with
    | .sending visit _ (websocket :: _) _ =>
      reached = false → ¬ (visit.projectId = projectId ∧ websocket = client)
    | _ => True
  | .fail => pair.1.lastCheck.get? projectId ≠ none
  | _ => True

/-- The watermark of the project between two ticks or, before its first visit, the time
from which the tick will read. -/
inductive Watermark (publisher : Publisher) (projectId : Uuid) (since : Time) : Prop where
  | kept (sleeping : publisher.stage = .sleeping)
      (known : publisher.lastCheck.get? projectId = some since)
  | first {now : Time} {projectIds : List Uuid} (looping : publisher.stage = .looping now projectIds)
      (waits : projectId ∈ projectIds) (unknown : publisher.lastCheck.get? projectId = none)
      (early : since = now - POLL_INTERVAL_SEC * 2)

/-- After so many completed ticks every row later than the watermark has reached a client
which stays connected. -/
def Delivers (tables : Tables) (projectId : Uuid) (since : Time) (ticks : Nat) : Prop :=
  ∀ publisher client next seen, publisher.tables = tables →
    client ∈ publisher.manager.conns projectId → Watermark publisher projectId since →
      delivering.Path (staying projectId client) (publisher, {}) (next, seen) →
        ticks ≤ seen.ticks → ∀ row ∈ tables.jobsOf projectId, since < row.updatedAt →
          (projectId, client, row) ∈ seen.sent

/-- The rows which the visit under way has still to send to the client. -/
def Stage.unsent (client : WebSocket) : Stage → List JobRow
  | .updating visit => visit.rows
  | .sending visit row targets _ => if client ∈ targets then row :: visit.rows else visit.rows
  | _ => []

section Progress
variable (rows : List JobRow) (projectId : Uuid) (client : WebSocket) (since : Time) (enough : Nat)

/-- The rows are as they were, and the client is connected. -/
structure Stays (publisher : Publisher) : Prop where
  rows : (publisher.tables.jobsOf projectId).Perm rows
  connected : client ∈ publisher.manager.conns projectId
  alive : ∀ visit row targets dead, publisher.stage = .sending visit row targets dead →
    visit.projectId = projectId → client ∉ dead

/-- Every row has been sent, is among the unsent ones, or is later than the mark. -/
def Covers (seen : Deliveries) (unsent : List JobRow) (mark : Option Time) : Prop :=
  ∀ row ∈ rows, since < row.updatedAt →
    (projectId, client, row) ∈ seen.sent ∨ row ∈ unsent ∨ ∃ time ∈ mark, time < row.updatedAt

/-- The next visit reads from this time. -/
def Resumes (publisher : Publisher) (mark : Time) : Prop :=
  publisher.lastCheck.get? projectId = some mark ∨
    publisher.lastCheck.get? projectId = none ∧ (∃ ahead ∈ publisher.stage.ahead, projectId ∈ ahead) ∧
      ∃ now ∈ publisher.stage.now, mark = now - POLL_INTERVAL_SEC * 2

/-- The tick under way has been at the project. -/
def Stage.passed (stage : Stage) : Nat :=
  if ∃ ahead ∈ stage.ahead, projectId ∉ ahead then 1 else 0

/-- What the visit under way leaves to the later ones. -/
structure Visits (pair : Publisher × Deliveries) (mark : Time) (visit : Visit) : Prop where
  covers : Covers rows projectId client since pair.2 (pair.1.stage.unsent client) visit.truncatedAt
  truncated : ∀ time ∈ visit.truncatedAt, Whole JobRow.updatedAt rows JOB_UPDATES_PER_TICK time ∧
    (later JobRow.updatedAt rows time).length < (later JobRow.updatedAt rows mark).length

/-- Each tick leaves fewer rows later than the mark. -/
structure Progresses (pair : Publisher × Deliveries) (mark : Time) : Prop where
  resumes : Resumes projectId pair.1 mark
  whole : Whole JobRow.updatedAt rows JOB_UPDATES_PER_TICK mark
  covers : Covers rows projectId client since pair.2 [] (some mark)
  measure : (later JobRow.updatedAt rows mark).length + pair.2.ticks +
    pair.1.stage.passed projectId ≤ enough
  visits : ∀ visit ∈ pair.1.stage.visit, visit.projectId = projectId →
    Visits rows projectId client since pair mark visit

def Delivering (pair : Publisher × Deliveries) : Prop :=
  Stays rows projectId client pair.1 ∧
    (Covers rows projectId client since pair.2 [] none ∨
      ∃ mark, Progresses rows projectId client since enough pair mark)

end Progress

section Page
variable {rows ordered : List JobRow} {mark time : Time}

theorem truncation_some (truncated : truncation rows = some time) :
    ∃ front last, rows = front ++ [last] ∧ front.length + 1 = JOB_UPDATES_PER_TICK ∧
      last.updatedAt = time := by
  unfold truncation at truncated
  split at truncated
  · rename_i full
    obtain ⟨last, found, same⟩ := Option.map_eq_some_iff.mp truncated
    obtain ⟨front, rfl⟩ := List.getLast?_eq_some_iff.mp found
    exact ⟨front, last, rfl, by simpa using full, same⟩
  · cases truncated

theorem truncation_none (complete : truncation rows = none) :
    rows.length ≠ JOB_UPDATES_PER_TICK := by
  intro full
  unfold truncation at complete
  rw [if_pos full, Option.map_eq_none_iff, List.getLast?_eq_none_iff] at complete
  subst complete
  cases full

/-- A full page, and the rows behind its cut. -/
theorem page_full (truncated : truncation (ordered.take JOB_UPDATES_PER_TICK) = some time) :
    ∃ front last, ordered = front ++ last :: ordered.drop JOB_UPDATES_PER_TICK ∧
      ordered.take JOB_UPDATES_PER_TICK = front ++ [last] ∧
        front.length + 1 = JOB_UPDATES_PER_TICK ∧ last.updatedAt = time := by
  obtain ⟨front, last, page, full, same⟩ := truncation_some truncated
  refine ⟨front, last, ?_, page, full, same⟩
  calc ordered = ordered.take JOB_UPDATES_PER_TICK ++ ordered.drop JOB_UPDATES_PER_TICK :=
        (List.take_append_drop ..).symm
    _ = front ++ last :: ordered.drop JOB_UPDATES_PER_TICK := by rw [page]; simp

theorem page_short (complete : truncation (ordered.take JOB_UPDATES_PER_TICK) = none) :
    ordered.length < JOB_UPDATES_PER_TICK := by
  have other := truncation_none complete
  rw [List.length_take] at other
  omega

theorem page_complete (complete : truncation (ordered.take JOB_UPDATES_PER_TICK) = none) :
    ordered.take JOB_UPDATES_PER_TICK = ordered :=
  List.take_of_length_le (le_of_lt (page_short complete))

end Page

section Steps
variable {rows : List JobRow} {projectId : Uuid} {client : WebSocket} {since mark : Time}
  {enough : Nat} {publisher next : Publisher} {seen : Deliveries} {event : Event}

/-- Nothing which was sent is unsent again. -/
theorem deliver_sent : seen.sent ⊆ (deliver publisher event seen).sent := by
  unfold deliver
  split
  · exact fun _ => id
  · split
    · exact List.subset_cons_self ..
    · exact fun _ => id
  · exact fun _ => id

theorem Covers.sent {later : Deliveries} {unsent : List JobRow} {limit : Option Time}
    (covers : Covers rows projectId client since seen unsent limit) (more : seen.sent ⊆ later.sent) :
    Covers rows projectId client since later unsent limit := by
  intro row member late
  rcases covers row member late with sent | rest
  · exact .inl (more sent)
  · exact .inr rest

theorem Stays.step (stays : Stays rows projectId client publisher)
    (allowed : staying projectId client (publisher, seen) event)
    (taken : Taken publisher event next) : Stays rows projectId client next := by
  obtain ⟨same, connected, alive⟩ := stays
  cases taken with
  | connect => exact ⟨same, connect_keeps connected, alive⟩
  | disconnect => exact ⟨same, disconnect_keeps connected allowed, alive⟩
  | commit => exact ⟨allowed.trans same, connected, alive⟩
  | nobody => exact ⟨same, connected, alive⟩
  | broadcast =>
    refine ⟨same, connected, ?_⟩
    rintro _ _ _ _ ⟨⟩ _
    exact List.not_mem_nil
  | send sending =>
    refine ⟨same, connected, ?_⟩
    rintro _ _ _ _ ⟨⟩ own
    rename_i visit row websocket targets dead reached
    have before := alive _ _ _ _ sending own
    simp only [staying, sending] at allowed
    cases reached with
    | true => exact before
    | false =>
      intro member
      rcases List.mem_cons.mp member with same | old
      · exact allowed rfl ⟨own, same.symm⟩
      · exact before old
  | dropDead sending =>
    refine ⟨same, disconnectAll_keeps connected fun own => alive _ _ _ _ sending own, ?_⟩
    rintro _ _ _ _ ⟨⟩
  | tick | clock | select | advance | finish | fail =>
    refine ⟨same, connected, ?_⟩
    rintro _ _ _ _ ⟨⟩

/-- A visit reads from the mark. -/
theorem Resumes.reads {now : Time} {projectIds : List Uuid}
    (resumes : Resumes projectId publisher mark)
    (looping : publisher.stage = .looping now (projectId :: projectIds)) :
    publisher.since projectId now = mark := by
  unfold Publisher.since
  rcases resumes with known | ⟨unknown, _, time, reading, rfl⟩
  · rw [known, Option.getD_some]
  · rw [looping] at reading
    cases reading
    rw [unknown, Option.getD_none]

/-- What a page leaves, where it parts no rows with one time. -/
theorem page_visits {tables : List JobRow} {ordered : List JobRow} (same : tables.Perm rows)
    (arranged : Paging.Ordered JobRow.updatedAt tables mark ordered)
    (whole : Whole JobRow.updatedAt rows JOB_UPDATES_PER_TICK mark)
    (covers : Covers rows projectId client since seen [] (some mark)) :
    Covers rows projectId client since seen (ordered.take JOB_UPDATES_PER_TICK)
        (truncation (ordered.take JOB_UPDATES_PER_TICK)) ∧
      ∀ time ∈ truncation (ordered.take JOB_UPDATES_PER_TICK),
        Whole JobRow.updatedAt rows JOB_UPDATES_PER_TICK time ∧
          (later JobRow.updatedAt rows time).length < (later JobRow.updatedAt rows mark).length := by
  have arranged : Paging.Ordered JobRow.updatedAt rows mark ordered :=
    ⟨arranged.1.trans (same.filter _), arranged.2⟩
  have remains : ∀ row ∈ rows, since < row.updatedAt →
      (projectId, client, row) ∈ seen.sent ∨ row ∈ ordered := by
    intro row member late
    rcases covers row member late with sent | none | ⟨time, same, after⟩
    · exact .inl sent
    · exact absurd none List.not_mem_nil
    · cases same
      exact .inr (arranged.mem_iff.mpr ⟨member, after⟩)
  cases cut : truncation (ordered.take JOB_UPDATES_PER_TICK) with
  | none =>
    refine ⟨?_, by simp⟩
    intro row member late
    rw [page_complete cut]
    rcases remains row member late with sent | unsent
    · exact .inl sent
    · exact .inr (.inl unsent)
  | some time =>
    obtain ⟨front, last, parts, page, full, rfl⟩ := page_full cut
    rw [parts] at arranged
    have clean := whole.clean arranged full
    constructor
    · intro row member late
      rcases remains row member late with sent | unsent
      · exact .inl sent
      · rw [parts, List.append_cons, ← page] at unsent
        rcases List.mem_append.mp unsent with inside | behind
        · exact .inr (.inl inside)
        · exact .inr (.inr ⟨last.updatedAt, rfl, clean row behind⟩)
    · intro time same
      cases same
      exact ⟨(arranged.whole_iff full clean).mp whole, arranged.later_lt⟩

/-- A change which leaves the tick where it is. -/
theorem Progresses.still (progress : Progresses rows projectId client since enough (publisher, seen) mark)
    (stage : next.stage = publisher.stage) (known : next.lastCheck = publisher.lastCheck) :
    Progresses rows projectId client since enough (next, seen) mark := by
  obtain ⟨resumes, whole, covers, measure, visits⟩ := progress
  refine ⟨?_, whole, covers, ?_, ?_⟩
  · unfold Resumes at *
    rwa [stage, known]
  · change _ + _ + next.stage.passed projectId ≤ enough
    rwa [stage]
  · intro visit under own
    change visit ∈ next.stage.visit at under
    rw [stage] at under
    have left := visits visit under own
    refine ⟨?_, left.truncated⟩
    change Covers _ _ _ _ _ (next.stage.unsent client) _
    rw [stage]
    exact left.covers

theorem passed_of_waits {stage : Stage} {ahead : List Uuid} (same : stage.ahead = some ahead)
    (waits : projectId ∈ ahead) : stage.passed projectId = 0 := by
  unfold Stage.passed
  rw [if_neg]
  rintro ⟨other, found, absent⟩
  rw [same] at found
  cases found
  exact absent waits

theorem passed_le (stage : Stage) : stage.passed projectId ≤ 1 := by
  unfold Stage.passed
  split <;> omega

theorem passed_sleeping {stage : Stage} (sleeping : stage = .sleeping) :
    stage.passed projectId = 0 := by
  subst sleeping
  simp [Stage.passed, Stage.ahead]

theorem passed_end {stage : Stage} (ended : stage.ahead = some []) :
    stage.passed projectId = 1 := by
  unfold Stage.passed
  rw [if_pos ⟨[], ended, List.not_mem_nil⟩]

/-- The head of the loop does not move while a visit goes on. -/
theorem Progresses.inside (progress : Progresses rows projectId client since enough (publisher, seen) mark)
    {later : Deliveries} (more : seen.sent ⊆ later.sent) (ticks : later.ticks = seen.ticks)
    (known : next.lastCheck = publisher.lastCheck) (ahead : next.stage.ahead = publisher.stage.ahead)
    (now : next.stage.now = publisher.stage.now)
    (visits : ∀ visit ∈ next.stage.visit, visit.projectId = projectId →
      Visits rows projectId client since (next, later) mark visit) :
    Progresses rows projectId client since enough (next, later) mark := by
  refine ⟨?_, progress.whole, progress.covers.sent more, ?_, visits⟩
  · have resumes := progress.resumes
    unfold Resumes at *
    rwa [known, ahead, now]
  · have measure := progress.measure
    unfold Stage.passed at *
    rw [ticks]
    change _ + _ + (if ∃ projectIds ∈ next.stage.ahead, _ then 1 else 0) ≤ _
    rwa [ahead]

/-- Where no visit goes on, the mark stays while no tick is counted without having been at
the project. -/
theorem Progresses.between (progress : Progresses rows projectId client since enough (publisher, seen) mark)
    {later : Deliveries} (resumes : Resumes projectId next mark) (more : seen.sent ⊆ later.sent)
    (spent : later.ticks + next.stage.passed projectId ≤
      seen.ticks + publisher.stage.passed projectId) (nowhere : next.stage.visit = none) :
    Progresses rows projectId client since enough (next, later) mark := by
  refine ⟨resumes, progress.whole, progress.covers.sent more, ?_, by simp [nowhere]⟩
  have measure := progress.measure
  simp only at measure ⊢
  omega

/-- A message which goes to another socket, or arrives, leaves nothing behind. -/
theorem Covers.send {visit : Visit} {row : JobRow} {websocket : WebSocket} {targets : List WebSocket}
    {dead after : List WebSocket} {reached : Bool} {limit : Option Time}
    (sending : publisher.stage = .sending visit row (websocket :: targets) dead)
    (own : visit.projectId = projectId) (arrives : client = websocket → reached = true)
    (covers : Covers rows projectId client since seen (publisher.stage.unsent client) limit) :
    Covers rows projectId client since (deliver publisher (.send reached) seen)
      ((Stage.sending visit row targets after).unsent client) limit := by
  intro job member late
  rcases covers job member late with sent | unsent | behind
  · exact .inl (deliver_sent sent)
  · rw [sending] at unsent
    by_cases waits : client ∈ targets
    · refine .inr (.inl ?_)
      simp only [Stage.unsent, List.mem_cons, waits, or_true, if_true] at unsent ⊢
      exact unsent
    · by_cases mine : client = websocket
      · have arrived := arrives mine
        subst mine arrived
        simp only [Stage.unsent, List.mem_cons, true_or, if_true] at unsent
        rcases unsent with rfl | rest
        · left
          simp [deliver, sending, own]
        · refine .inr (.inl ?_)
          simpa [Stage.unsent, waits] using rest
      · refine .inr (.inl ?_)
        simpa [Stage.unsent, waits, mine] using unsent
  · exact .inr (.inr behind)

/-- The visit of another project leaves the mark, and the project still to come. -/
theorem Resumes.other {visit : Visit} {time : Time} (resumes : Resumes projectId publisher mark)
    (updating : publisher.stage = .updating visit) (different : projectId ≠ visit.projectId) :
    Resumes projectId { publisher with
      lastCheck := publisher.lastCheck.set visit.projectId time
      stage := .looping visit.now visit.projectIds } mark := by
  rcases resumes with known | ⟨unknown, ⟨ahead, found, waits⟩, now, reading, early⟩
  · exact .inl ((Dict.get?_set_ne different).trans known)
  · rw [updating] at found reading
    cases found
    refine .inr ⟨(Dict.get?_set_ne different).trans unknown, ⟨_, rfl, ?_⟩, now, reading, early⟩
    exact (List.mem_cons.mp waits).resolve_left different

/-- The end of a visit of the project: everything is sent, or its page was full and the next
tick reads from the cut. -/
theorem Progresses.visited {visit : Visit}
    (progress : Progresses rows projectId client since enough (publisher, seen) mark)
    (updating : publisher.stage = .updating visit) (done : visit.rows = [])
    (own : visit.projectId = projectId) :
    Covers rows projectId client since seen [] none ∨
      ∃ time, Progresses rows projectId client since enough ({ publisher with
        lastCheck := publisher.lastCheck.set visit.projectId (visit.truncatedAt.getD visit.now)
        stage := .looping visit.now visit.projectIds }, seen) time := by
  have before := progress.visits visit (by rw [updating]; rfl) own
  have covers := before.covers
  rw [updating, Stage.unsent, done] at covers
  cases cut : visit.truncatedAt with
  | none => exact .inl (cut ▸ covers)
  | some time =>
    right
    obtain ⟨whole, fewer⟩ := before.truncated time cut
    refine ⟨time, .inl ?_, whole, cut ▸ covers, ?_, by simp [Stage.visit]⟩
    · simp only [own, Dict.get?_set_self, Option.getD_some]
    · have measure := progress.measure
      have bounded : (Stage.looping visit.now visit.projectIds).passed projectId ≤ 1 := passed_le _
      simp only at measure ⊢
      omega

/-- One step keeps the progress, or everything is sent. -/
theorem Progresses.step (stays : Stays rows projectId client publisher)
    (progress : Progresses rows projectId client since enough (publisher, seen) mark)
    (allowed : staying projectId client (publisher, seen) event)
    (taken : Taken publisher event next) :
    Covers rows projectId client since (deliver publisher event seen) [] none ∨
      ∃ mark, Progresses rows projectId client since enough
        (next, deliver publisher event seen) mark := by
  have watched := active_of_client stays.connected
  cases taken with
  | connect => exact .inr ⟨mark, progress.still rfl rfl⟩
  | disconnect => exact .inr ⟨mark, progress.still rfl rfl⟩
  | commit => exact .inr ⟨mark, progress.still rfl rfl⟩
  | nobody sleeping unwatched => exact absurd (unwatched ▸ watched) List.not_mem_nil
  | tick sleeping =>
    have known : publisher.lastCheck.get? projectId = some mark := by
      rcases progress.resumes with known | ⟨_, ⟨_, ahead, _⟩, _⟩
      · exact known
      · rw [sleeping] at ahead
        cases ahead
    refine .inr ⟨mark, progress.between (.inl ?_) (fun _ => id) ?_ rfl⟩
    · rw [get?_forget, if_pos watched]
      exact known
    · have none : (Stage.opening publisher.manager.activeProjectIds).passed projectId = 0 :=
        passed_of_waits rfl watched
      rw [none]
      exact Nat.le_add_right ..
  | clock opening =>
    refine .inr ⟨mark, progress.between ?_ (fun _ => id) ?_ rfl⟩
    · rcases progress.resumes with known | ⟨_, _, time, reading, _⟩
      · exact .inl known
      · rw [opening] at reading
        cases reading
    · rw [opening]
      exact le_rfl
  | select looping arranged =>
    right
    rename_i now own projectIds ordered
    refine ⟨mark, progress.inside (fun _ => id) rfl rfl (by rw [looping]; rfl) (by rw [looping]; rfl) ?_⟩
    rintro visit ⟨⟩ rfl
    rw [progress.resumes.reads looping] at arranged
    have left := page_visits stays.rows arranged progress.whole progress.covers
    exact ⟨left.1, left.2⟩
  | broadcast updating left =>
    right
    rename_i visit row rest
    refine ⟨mark, progress.inside (fun _ => id) rfl rfl (by rw [updating]; rfl)
      (by rw [updating]; rfl) ?_⟩
    rintro _ ⟨⟩ own
    have before := progress.visits visit (by rw [updating]; rfl) own
    refine ⟨?_, before.truncated⟩
    have connected : client ∈ publisher.manager.conns visit.projectId := own ▸ stays.connected
    have same : (Stage.sending { visit with rows := rest } row
        (publisher.manager.conns visit.projectId) []).unsent client = visit.rows := by
      rw [Stage.unsent, if_pos connected, left]
    change Covers _ _ _ _ _ (Stage.unsent client _) _
    rw [same]
    have covers := before.covers
    rwa [updating] at covers
  | send sending =>
    right
    rename_i visit row websocket targets dead reached
    refine ⟨mark, progress.inside deliver_sent ?_ rfl (by rw [sending]; rfl) (by rw [sending]; rfl) ?_⟩
    · cases reached <;> simp [deliver, sending]
    · rintro _ ⟨⟩ own
      have before := progress.visits visit (by rw [sending]; rfl) own
      refine ⟨before.covers.send sending own ?_, before.truncated⟩
      intro mine
      cases reached with
      | true => rfl
      | false => exact absurd own (by simpa [staying, sending, mine] using allowed)
  | dropDead sending =>
    right
    rename_i visit row dead
    refine ⟨mark, progress.inside (fun _ => id) rfl rfl (by rw [sending]; rfl)
      (by rw [sending]; rfl) ?_⟩
    rintro _ ⟨⟩ own
    have before := progress.visits visit (by rw [sending]; rfl) own
    refine ⟨?_, before.truncated⟩
    have covers := before.covers
    rwa [sending] at covers
  | advance updating done =>
    rename_i visit
    by_cases own : visit.projectId = projectId
    · exact progress.visited updating done own
    · have different : projectId ≠ visit.projectId := fun same => own same.symm
      refine .inr ⟨mark, progress.between (progress.resumes.other updating different)
        (fun _ => id) ?_ rfl⟩
      unfold Stage.passed
      rw [updating]
      simp [Stage.ahead, different, deliver]
  | finish looping =>
    refine .inr ⟨mark, progress.between ?_ (fun _ => id) ?_ rfl⟩
    · rcases progress.resumes with known | ⟨_, ⟨_, found, waits⟩, _⟩
      · exact .inl known
      · rw [looping] at found
        cases found
        exact absurd waits List.not_mem_nil
    · have ended : publisher.stage.passed projectId = 1 := passed_end (by rw [looping]; rfl)
      rw [ended, passed_sleeping rfl]
      exact le_rfl
  | fail =>
    refine .inr ⟨mark, progress.between ?_ (fun _ => id) ?_ rfl⟩
    · rcases progress.resumes with known | ⟨unknown, _⟩
      · exact .inl known
      · exact absurd unknown allowed
    · rw [passed_sleeping rfl]
      exact Nat.le_add_right ..

/-- What one step keeps. -/
theorem Delivering.step {pair after : Publisher × Deliveries}
    (state : Delivering rows projectId client since enough pair)
    (allowed : staying projectId client pair event)
    (taken : delivering.step pair event = some after) :
    Delivering rows projectId client since enough after := by
  obtain ⟨publisher, seen⟩ := pair
  obtain ⟨next, later⟩ := after
  obtain ⟨stays, state⟩ := state
  obtain ⟨taken, rfl⟩ := Machine.recorded_step taken
  have taken := step_taken taken
  refine ⟨stays.step allowed taken, ?_⟩
  rcases state with all | ⟨mark, progress⟩
  · exact .inl (all.sent deliver_sent)
  · exact progress.step stays allowed taken

end Steps

/-- Where no page parts rows with one time, one more tick than there are rows suffices. -/
theorem delivers_of_whole {tables : Tables} {projectId : Uuid} {since : Time}
    (whole : Whole JobRow.updatedAt (tables.jobsOf projectId) JOB_UPDATES_PER_TICK since) :
    Delivers tables projectId since
      ((later JobRow.updatedAt (tables.jobsOf projectId) since).length + 1) := by
  intro publisher client next seen same connected watermark path many row member late
  have start : Delivering (tables.jobsOf projectId) projectId client since
      (later JobRow.updatedAt (tables.jobsOf projectId) since).length (publisher, {}) := by
    have covers : Covers (tables.jobsOf projectId) projectId client since {} [] (some since) :=
      fun row _ late => .inr (.inr ⟨since, rfl, late⟩)
    refine ⟨⟨same ▸ .refl _, connected, ?_⟩, .inr ⟨since, ?_⟩⟩
    · intro visit row targets dead sending
      cases watermark with
      | kept sleeping => cases sleeping.symm.trans sending
      | first looping => cases looping.symm.trans sending
    · cases watermark with
      | kept sleeping known =>
        refine ⟨.inl known, whole, covers, ?_, ?_⟩
        · rw [passed_sleeping sleeping]
          exact le_refl _
        · intro visit under
          rw [sleeping] at under
          cases under
      | @first now projectIds looping waits unknown early =>
        refine ⟨.inr ⟨unknown, ⟨projectIds, ?_, waits⟩, now, ?_, early⟩, whole, covers, ?_, ?_⟩
        · rw [looping]
          rfl
        · rw [looping]
          rfl
        · have none : publisher.stage.passed projectId = 0 :=
            passed_of_waits (by rw [looping]; rfl) waits
          rw [none]
          exact le_refl _
        · intro visit under
          rw [looping] at under
          cases under
  rcases (path.preserves (fun _ _ _ => Delivering.step) start).2 with all | ⟨mark, progress⟩
  · rcases all row member late with sent | none | ⟨_, none, _⟩
    · exact sent
    · exact absurd none List.not_mem_nil
    · cases none
  · have measure := progress.measure
    simp only at measure
    omega

/-! The run in which nothing else happens. -/

section Quiet
variable {tables : Tables} {projectId : Uuid} {client : WebSocket} {since mark : Time}

/-- Only this project is watched, by this client, and no tick is under way. -/
structure Alone (tables : Tables) (projectId : Uuid) (client : WebSocket) (mark : Time)
    (publisher : Publisher) : Prop where
  tables : publisher.tables = tables
  active : publisher.manager.activeProjectIds = [projectId]
  conns : publisher.manager.conns projectId = [client]
  sleeping : publisher.stage = .sleeping
  known : publisher.lastCheck.get? projectId = some mark

variable {origin : Publisher × Deliveries} {publisher : Publisher} {seen : Deliveries}

theorem act (event : Event) {next : Publisher}
    (path : delivering.Path (staying projectId client) origin (publisher, seen))
    (permitted : staying projectId client (publisher, seen) event)
    (taken : step publisher event = some next) :
    delivering.Path (staying projectId client) origin (next, deliver publisher event seen) := by
  refine path.step permitted ?_
  change (step publisher event).map _ = _
  rw [taken]
  rfl

/-- The messages of a page are sent one after the other. -/
theorem sends_page (visit : Visit) (own : visit.projectId = projectId)
    (connected : publisher.manager.conns projectId = [client])
    (path : delivering.Path (staying projectId client) origin
      ({ publisher with stage := .updating visit }, seen)) :
    ∃ sent, (∀ message ∈ sent, message ∈ seen.sent ∨ ∃ row ∈ visit.rows, message.2.2 = row) ∧
      delivering.Path (staying projectId client) origin
        ({ publisher with stage := .updating { visit with rows := [] } }, { seen with sent }) := by
  obtain ⟨now, projectIds, other, truncatedAt, rows⟩ := visit
  cases own
  induction rows generalizing seen with
  | nil => exact ⟨seen.sent, fun _ => .inl, path⟩
  | cons row rest ih =>
    have begun := act .broadcast path trivial rfl
    simp only [connected] at begun
    have sent := act (.send true) begun (by simp [staying]) rfl
    have left : delivering.Path (staying other client) origin
        ({ publisher with stage := .updating ⟨now, projectIds, other, truncatedAt, rest⟩ },
          { seen with sent := (other, client, row) :: seen.sent }) := act .dropDead sent trivial rfl
    obtain ⟨messages, listed, path⟩ := ih connected left
    refine ⟨messages, ?_, path⟩
    intro message member
    rcases listed message member with old | ⟨job, behind, same⟩
    · rcases List.mem_cons.mp old with rfl | before
      · exact .inr ⟨row, List.mem_cons_self, rfl⟩
      · exact .inl before
    · exact .inr ⟨job, List.mem_cons_of_mem _ behind, same⟩

/-- One tick which sends a page. -/
theorem Alone.tick {ordered : List JobRow} (alone : Alone tables projectId client mark publisher)
    (arranged : Paging.Ordered JobRow.updatedAt (tables.jobsOf projectId) mark ordered)
    (path : delivering.Path (staying projectId client) origin (publisher, seen)) :
    ∃ next sent, Alone tables projectId client ((truncation (ordered.take JOB_UPDATES_PER_TICK)).getD
        (mark + POLL_INTERVAL_SEC)) next ∧
      (∀ message ∈ sent, message ∈ seen.sent ∨
        ∃ row ∈ ordered.take JOB_UPDATES_PER_TICK, message.2.2 = row) ∧
      delivering.Path (staying projectId client) origin
        (next, { ticks := seen.ticks + 1, sent }) := by
  obtain ⟨same, active, conns, sleeping, known⟩ := alone
  let base : Publisher := { publisher with lastCheck := forget publisher.lastCheck [projectId] }
  have remembered : base.lastCheck.get? projectId = some mark := by
    rw [get?_forget, if_pos (List.mem_singleton_self projectId), known]
  have opened : delivering.Path (staying projectId client) origin
      ({ base with stage := .opening [projectId] }, seen) := by
    refine act .tick path trivial ?_
    simp [step, sleeping, active, base]
  have looping := act (.clock (mark + POLL_INTERVAL_SEC)) opened trivial rfl
  let visit : Visit :=
    { now := mark + POLL_INTERVAL_SEC, projectIds := [], projectId
      truncatedAt := truncation (ordered.take JOB_UPDATES_PER_TICK)
      rows := ordered.take JOB_UPDATES_PER_TICK }
  have selected : delivering.Path (staying projectId client) origin
      ({ base with stage := .updating visit }, seen) := by
    refine act (.select ordered) looping trivial ?_
    have reads : Paging.Ordered JobRow.updatedAt (base.tables.jobsOf projectId)
        (Publisher.since { base with stage := .looping (mark + POLL_INTERVAL_SEC) [projectId] }
          projectId (mark + POLL_INTERVAL_SEC)) ordered := by
      rw [Publisher.since, remembered, Option.getD_some]
      exact same ▸ arranged
    change (if _ then _ else none : Option Publisher) = _
    rw [if_pos reads]
  obtain ⟨sent, listed, path⟩ := sends_page visit rfl (show base.manager.conns _ = _ from conns) selected
  have advanced := act .advance path trivial rfl
  let next : Publisher := { base with
    lastCheck := base.lastCheck.set projectId (visit.truncatedAt.getD visit.now), stage := .sleeping }
  have finished : delivering.Path (staying projectId client) origin
      (next, { ticks := seen.ticks + 1, sent }) := act .finish advanced trivial rfl
  exact ⟨next, sent, ⟨same, active, conns, rfl, Dict.get?_set_self⟩, listed, finished⟩

/-- A row was passed over, or one will be. -/
inductive Misses (rows : List JobRow) (since mark : Time)
    (sent : List (Uuid × WebSocket × JobRow)) : Prop where
  | passed {row : JobRow} (member : row ∈ rows) (late : since < row.updatedAt)
      (early : row.updatedAt ≤ mark) (unsent : ∀ message ∈ sent, message.2.2 ≠ row)
  | torn (torn : ¬ Whole JobRow.updatedAt rows JOB_UPDATES_PER_TICK mark) (late : since ≤ mark)
      (sent : ∀ message ∈ sent, message.2.2.updatedAt ≤ mark)

variable {rows ordered : List JobRow} {sent messages : List (Uuid × WebSocket × JobRow)}

theorem Misses.unsent (misses : Misses rows since mark sent) :
    ∃ row ∈ rows, since < row.updatedAt ∧ ∀ message ∈ sent, message.2.2 ≠ row := by
  cases misses with
  | passed member late early unsent => exact ⟨_, member, late, unsent⟩
  | torn torn late sent =>
    unfold Whole at torn
    push Not at torn
    obtain ⟨row, member, _⟩ := torn
    obtain ⟨present, after⟩ := mem_later.mp member
    refine ⟨row, present, lt_of_le_of_lt late after, ?_⟩
    rintro message listed rfl
    exact absurd (sent message listed) (not_le_of_gt after)

/-- A page does not bring back what was passed over, and passes a row over where it is the
first which parts rows with one time. -/
theorem Misses.page (distinct : rows.Nodup) (misses : Misses rows since mark sent)
    (arranged : Paging.Ordered JobRow.updatedAt rows mark ordered)
    (listed : ∀ message ∈ messages, message ∈ sent ∨
      ∃ row ∈ ordered.take JOB_UPDATES_PER_TICK, message.2.2 = row) :
    Misses rows since ((truncation (ordered.take JOB_UPDATES_PER_TICK)).getD
      (mark + POLL_INTERVAL_SEC)) messages := by
  have forward : mark ≤ (truncation (ordered.take JOB_UPDATES_PER_TICK)).getD
      (mark + POLL_INTERVAL_SEC) := by
    cases cut : truncation (ordered.take JOB_UPDATES_PER_TICK) with
    | none => exact le_add_of_nonneg_right (by decide)
    | some time =>
      obtain ⟨front, last, parts, _, _, rfl⟩ := page_full cut
      rw [parts] at arranged
      exact le_of_lt arranged.since_lt_last
  cases misses with
  | @passed row member late early unsent =>
    refine .passed member late (early.trans forward) ?_
    intro message written
    rcases listed message written with old | ⟨job, inside, same⟩
    · exact unsent message old
    · rintro rfl
      have after := (arranged.mem_iff.mp (same ▸ List.mem_of_mem_take inside)).2
      exact absurd early (not_le_of_gt after)
  | torn torn late before =>
    cases cut : truncation (ordered.take JOB_UPDATES_PER_TICK) with
    | none => exact absurd (whole_of_short _ arranged (le_of_lt (page_short cut))) torn
    | some time =>
      obtain ⟨front, last, parts, page, full, rfl⟩ := page_full cut
      have ordinary := arranged
      rw [parts] at arranged
      have within : ∀ message ∈ messages, message.2.2.updatedAt ≤ last.updatedAt := by
        intro message written
        rcases listed message written with old | ⟨job, inside, same⟩
        · exact (before message old).trans (le_of_lt arranged.since_lt_last)
        · rw [same]
          rw [page] at inside
          rcases List.mem_append.mp inside with front | tail
          · exact arranged.front_le job front
          · rw [List.mem_singleton.mp tail]
      rcases arranged.torn full torn with ⟨row, behind, tie⟩ | torn
      · have member := ordinary.mem_iff.mp (List.mem_of_mem_drop behind)
        refine .passed member.1 (lt_of_le_of_lt late member.2) (le_of_eq tie) ?_
        rintro message written rfl
        rcases listed message written with old | ⟨job, inside, same⟩
        · exact absurd (before message old) (not_le_of_gt member.2)
        · have once := ordinary.1.nodup_iff.mpr (distinct.filter _)
          rw [← List.take_append_drop JOB_UPDATES_PER_TICK ordered] at once
          exact (List.nodup_append.mp once).2.2 _ (same ▸ inside) _ behind rfl
      · exact .torn torn (late.trans (le_of_lt arranged.since_lt_last)) within

/-- Any number of ticks may pass without the row. -/
theorem misses_forever (distinct : (tables.jobsOf projectId).Nodup)
    (alone : Alone tables projectId client mark publisher)
    (misses : Misses (tables.jobsOf projectId) since mark []) (ticks : Nat) :
    ∃ next mark sent, Alone tables projectId client mark next ∧
      Misses (tables.jobsOf projectId) since mark sent ∧
        delivering.Path (staying projectId client) (publisher, {}) (next, { ticks, sent }) := by
  induction ticks with
  | zero => exact ⟨publisher, mark, [], alone, misses, .refl⟩
  | succ ticks ih =>
    obtain ⟨next, mark, sent, alone, misses, path⟩ := ih
    obtain ⟨ordered, arranged⟩ := exists_ordered JobRow.updatedAt (tables.jobsOf projectId) mark
    obtain ⟨later, messages, alone, listed, path⟩ := alone.tick arranged path
    exact ⟨later, _, messages, alone, misses.page distinct arranged listed, path⟩

/-- Where a page parts rows with one time, a run misses one of them however long it is. -/
theorem undelivered_of_torn
    (torn : ¬ Whole JobRow.updatedAt (tables.jobsOf projectId) JOB_UPDATES_PER_TICK since)
    (ticks : Nat) : ¬ Delivers tables projectId since ticks := by
  intro delivers
  let publisher : Publisher :=
    { manager := ({} : ConnectionManager).connect projectId 0
      lastCheck := ({} : Dict Uuid Time).set projectId since, tables }
  have alone : Alone tables projectId 0 since publisher :=
    ⟨rfl, rfl, by simp [publisher, ConnectionManager.connect, ConnectionManager.conns], rfl,
      Dict.get?_set_self⟩
  have distinct : (tables.jobsOf projectId).Nodup := (List.Nodup.of_map _ tables.distinct).filter _
  obtain ⟨next, mark, sent, _, misses, path⟩ :=
    misses_forever distinct alone (.torn torn (le_refl _) (by simp)) ticks
  obtain ⟨row, member, late, unsent⟩ := misses.unsent
  have delivered := delivers publisher 0 next _ rfl (by rw [alone.conns]; exact List.mem_singleton_self _)
    (.kept rfl Dict.get?_set_self) path (le_refl _) row member late
  exact unsent _ delivered rfl

end Quiet

/-- Every row later than the watermark reaches a client which stays connected if and only if
no page is cut among rows with one `updated_at`. -/
theorem updates_delivered (tables : Tables) (projectId : Uuid) (since : Time) :
    (∃ ticks, Delivers tables projectId since ticks) ↔
      Whole JobRow.updatedAt (tables.jobsOf projectId) JOB_UPDATES_PER_TICK since := by
  constructor
  · rintro ⟨ticks, delivers⟩
    by_contra torn
    exact undelivered_of_torn torn ticks delivers
  · exact fun whole => ⟨_, delivers_of_whole whole⟩

/-- 201 jobs which one promotion has queued at time 1. -/
def burst : Tables where
  queues := [⟨1, 1, none, "default", 0, 10, none, false⟩]
  jobs := (List.range 201).map fun id => ⟨id, .queued, 1, 1⟩
  distinct := by
    rw [List.map_map]
    exact List.nodup_range.map fun _ _ same => same

theorem burst_undelivered : ¬ ∃ ticks, Delivers burst 1 0 ticks := by
  rintro ⟨ticks, delivers⟩
  refine undelivered_of_torn ?_ ticks delivers
  intro whole
  have cut := whole ⟨0, .queued, 1, 1⟩ (by decide +kernel)
  exact absurd cut (by decide +kernel)

end Pulse.Ws
