import Pulse.Safety.Slots

/-! No notification is lost: `poll_loop` sleeps with the wake event clear only after a `_poll_once`
which began later than every notification, and until then it goes on by itself. -/
namespace Pulse.Runtime
open Library.Lts

/-- The last `_poll_once` began after the last notification. -/
def Looping.Covered (loop : Looping) : Prop := loop.marks.head? = some .began

/-- `poll_loop` runs, and `shutdown` has not been called. -/
def Looping.GoesOn (loop : Looping) : Prop :=
  loop.process.shuttingDown = false ∧ loop.process.poll ≠ .ended

/-- A turn which is neither a call of `shutdown` nor a cancellation. -/
def steady (_ : Looping) (taken : Turn) : Prop :=
  taken ≠ .event (.act .stop) ∧ taken ≠ .event .cancel

instance (loop : Looping) (taken : Turn) : Decidable (steady loop taken) :=
  inferInstanceAs (Decidable (_ ∧ _))

/-- A turn of `poll_loop` itself. -/
def Turn.own : Turn → Bool
  | .start | .resume => true
  | .event (.act (.claim _)) | .event (.act .fail) | .event (.act (.submit _))
  | .event (.act .resume) | .event (.act .lose) => true
  | _ => false

/-- How many turns of its own `poll_loop` takes until its next `_poll_once`, at most: two for each
queue which is left. -/
def Poll.turnsLeft : Poll → Nat
  | .starting | .sleeping => 1
  | .claiming _ rest => 2 * rest.length + 3
  | .claimed _ rest => 2 * rest.length + 2
  | .acquiring .. | .ended => 0

/-- Asleep with the event clear, every notification is covered. Where one is not, `poll_loop` has a
turn to take whether or not the timeout fires, and after so many of them it has polled. -/
structure NoLostWakeUp (interval : ℚ) (concurrency : Nat) (loop : Looping) : Prop where
  covered : loop.process.poll = .sleeping → loop.process.wakeEvent = false → loop.Covered
  ready : loop.GoesOn → ¬ loop.Covered →
    ∃ taken : Turn, taken.own = true ∧ (turn interval loop taken).isSome
  polled : loop.GoesOn → ¬ loop.Covered → ∀ turns last,
    (looping interval concurrency).run steady loop turns = some last →
    loop.process.poll.turnsLeft ≤ turns.countP Turn.own →
    ∃ newer, last.marks = newer ++ loop.marks ∧ Mark.began ∈ newer

/-- A notification which no poll covers is in the wake event. -/
structure Looping.Noted (loop : Looping) : Prop where
  marked : loop.marks.head? = some .notified →
    loop.process.wakeEvent = true ∨ loop.process.poll = .ended
  begun : loop.marks.head? = none → loop.process.poll = .starting ∨ loop.process.poll = .ended

/-- And the event is not set while the wait is pending. -/
structure Looping.Wakeful (loop : Looping) : Prop extends loop.Noted where
  armed : loop.process.poll = .sleeping → loop.process.wakeEvent = true → loop.wait ≠ .pending

section Events
variable {process next : WorkerProcess} {event : Event}

/-! `poll_loop` sets the event nowhere. -/

@[simp] theorem visit_wakeEvent (queues : List Uuid) :
    (process.visit queues).wakeEvent = process.wakeEvent := by
  unfold WorkerProcess.visit
  split
  · rfl
  · split
    · rfl
    · split <;> rfl

@[simp] theorem submitAll_wakeEvent (rest jobs : List Uuid) :
    (process.submitAll rest jobs).wakeEvent = process.wakeEvent := by
  induction jobs generalizing process with
  | nil => exact visit_wakeEvent rest
  | cons jobId jobs ih =>
    unfold WorkerProcess.submitAll
    split
    · rfl
    · exact ih

@[simp] theorem iterate_wakeEvent : process.iterate.wakeEvent = process.wakeEvent := by
  unfold WorkerProcess.iterate
  split
  · rfl
  · exact visit_wakeEvent _

/-- One queue less is left. -/
theorem visit_turnsLeft (process : WorkerProcess) (queues : List Uuid) :
    (process.visit queues).poll.turnsLeft ≤ 2 * queues.length + 1 ∧
      (process.visit queues).poll ≠ .ended := by
  unfold WorkerProcess.visit
  split
  · exact ⟨le_refl _, Poll.noConfusion⟩
  · rename_i rest
    split
    · exact ⟨Nat.le_add_left _ _, Poll.noConfusion⟩
    · split
      · exact ⟨Nat.le_add_left _ _, Poll.noConfusion⟩
      · exact ⟨le_refl _, Poll.noConfusion⟩

theorem submitAll_turnsLeft (process : WorkerProcess) (rest jobs : List Uuid) :
    (process.submitAll rest jobs).poll.turnsLeft ≤ 2 * rest.length + 1 ∧
      (process.submitAll rest jobs).poll ≠ .ended := by
  induction jobs generalizing process with
  | nil => exact visit_turnsLeft process rest
  | cons jobId jobs ih =>
    unfold WorkerProcess.submitAll
    split
    · exact ⟨Nat.zero_le _, Poll.noConfusion⟩
    · exact ih _

@[simp] theorem onDone_wakeEvent (id : Nat) : (process.onDone id).wakeEvent = process.wakeEvent := by
  unfold WorkerProcess.onDone
  dsimp only
  split <;> rfl

@[simp] theorem cancelPoll_wakeEvent : process.cancelPoll.wakeEvent = process.wakeEvent := by
  unfold WorkerProcess.cancelPoll
  split <;> rfl

@[simp] theorem cancelPoll_poll : process.cancelPoll.poll = .ended := by
  unfold WorkerProcess.cancelPoll
  split <;> rfl

theorem perform_wakeEvent (other : event.ofWait = false)
    (performed : perform process event = some next) : next.wakeEvent = process.wakeEvent := by
  cases perform_performed performed with
  | cancel => exact cancelPoll_wakeEvent
  | act advanced =>
    cases advanced with
    | begin | wake | notify => cases other
    | submit => exact submitAll_wakeEvent _ _
    | resume => exact submitAll_wakeEvent _ _
    | callback => exact onDone_wakeEvent _
    | claim | fail | lose | refresh | finish | stop | wait | idle | timeout | retire => rfl

/-- Where `poll_loop` does not run: before it begins, in its wait, and after its end. -/
def Poll.Rests (poll : Poll) : Prop := poll = .starting ∨ poll = .sleeping ∨ poll = .ended

theorem onDone_poll (process : WorkerProcess) (id : Nat) (free : ∀ granted jobId jobs rest,
    process.poll ≠ .acquiring granted jobId jobs rest) :
    (process.onDone id).poll = process.poll := by
  unfold WorkerProcess.onDone
  dsimp only
  split
  · rename_i acquiring
    exact absurd acquiring (free _ _ _ _)
  · rfl

/-- Only its own turns move it from there, and a cancellation. -/
theorem perform_rests (other : event.ofWait = false)
    (performed : perform process event = some next) (rests : process.poll.Rests) :
    next.poll = process.poll ∨ next.poll = .ended := by
  have elsewhere : ∀ {poll : Poll}, process.poll = poll → poll.Rests := fun same => same ▸ rests
  cases perform_performed performed with
  | cancel => exact .inr cancelPoll_poll
  | act advanced =>
    cases advanced with
    | begin | wake | notify => cases other
    | claim claiming => simpa [Poll.Rests] using elsewhere claiming
    | fail claiming => simpa [Poll.Rests] using elsewhere claiming
    | submit claimed | lose claimed => simpa [Poll.Rests] using elsewhere claimed
    | resume acquiring => simpa [Poll.Rests] using elsewhere acquiring
    | callback =>
      refine .inl (onDone_poll process _ ?_)
      intro granted jobId jobs rest acquiring
      simpa [Poll.Rests] using elsewhere acquiring
    | refresh | finish | stop | wait | idle | timeout | retire => exact .inl rfl

/-- A turn of its own brings `poll_loop` nearer to its next poll, and nothing sends it back. -/
theorem perform_turnsLeft {count concurrency : Nat} (slotted : Slotted concurrency count process)
    (other : event.ofWait = false) (performed : perform process event = some next)
    (unstopped : process.shuttingDown = false) (running : process.poll ≠ .ended)
    (permitted : event ≠ .act .stop ∧ event ≠ .cancel) :
    next.shuttingDown = false ∧ next.poll ≠ .ended ∧
      next.poll.turnsLeft + (if (Turn.event event).own then 1 else 0) ≤ process.poll.turnsLeft := by
  have notCalled : process.shutdown = .notCalled := by
    simpa [WorkerProcess.shuttingDown] using unstopped
  cases perform_performed performed with
  | cancel => exact absurd rfl permitted.2
  | act advanced =>
    cases advanced with
    | begin | wake | notify => cases other
    | stop => exact absurd rfl permitted.1
    | wait called | idle called | timeout called | retire called =>
      rw [notCalled] at called
      cases called
    | claim claiming =>
      refine ⟨unstopped, Poll.noConfusion, ?_⟩
      rw [claiming]
      exact le_refl _
    | fail claiming =>
      refine ⟨unstopped, Poll.noConfusion, ?_⟩
      rw [claiming]
      exact Nat.le_add_left _ _
    | lose claimed =>
      refine ⟨unstopped, Poll.noConfusion, ?_⟩
      rw [claimed]
      exact Nat.le_add_left _ _
    | @submit jobs rest returned claimed =>
      obtain ⟨fewer, goes⟩ := submitAll_turnsLeft process rest returned
      refine ⟨?_, goes, ?_⟩
      · rwa [WorkerProcess.shuttingDown, submitAll_shutdown]
      · rw [claimed]
        exact Nat.add_le_add_right fewer 1
    | resume acquiring =>
      have fits := slotted.fits
      rw [acquiring] at fits
      exact fits.elim
    | @callback task =>
      have same := onDone_poll process task.id fun granted jobId jobs rest acquiring => by
        have fits := slotted.fits
        rw [acquiring] at fits
        exact fits
      refine ⟨?_, ?_, ?_⟩
      · rwa [WorkerProcess.shuttingDown, onDone_shutdown]
      · rwa [same]
      · rw [same]
        exact le_refl _
    | refresh | finish => exact ⟨unstopped, running, le_refl _⟩

end Events

section Loop
variable {interval : ℚ} {concurrency : Nat} {loop next : Looping} {taken : Turn}

/-- A poll begins, or there is none any more. -/
theorem iterate_noted (loop : Looping) : loop.iterate.Noted := by
  cases stopped : loop.process.shuttingDown with
  | true =>
    have ended : loop.iterate.process.poll = .ended := by
      simp [Looping.iterate, WorkerProcess.iterate, stopped]
    exact ⟨fun _ => .inr ended, fun _ => .inr ended⟩
  | false =>
    have marks : loop.iterate.marks = .began :: loop.marks := by simp [Looping.iterate, stopped]
    constructor <;> rw [marks] <;> intro none <;> cases none

theorem again_wakeEvent (loop : Looping) : loop.again.process.wakeEvent = false :=
  iterate_wakeEvent

theorem Looping.Noted.settle (noted : loop.Noted) : (loop.settle interval).Wakeful := by
  unfold Looping.settle
  split
  · split
    · refine ⟨⟨(iterate_noted _).marked, (iterate_noted _).begun⟩, ?_⟩
      intro _ set
      cases set.symm.trans (again_wakeEvent loop)
    · rename_i kept
      refine ⟨⟨noted.marked, noted.begun⟩, ?_⟩
      intro _ set
      have elapsed : interval ≤ 0 := by
        by_contra positive
        exact kept ⟨not_le.mp positive, set⟩
      simp [Looping.suspend, elapsed]
  · rename_i awake
    exact ⟨noted, fun sleeping => absurd sleeping awake⟩

/-- The wake event is set, and a wait which was pending is over. -/
theorem set_armed (loop : Looping) : loop.set.wait ≠ .pending := by
  unfold Looping.set
  split
  · exact Wait.noConfusion
  · assumption

theorem Looping.Noted.perform {event : Event} {process : WorkerProcess} (noted : loop.Noted)
    (other : event.ofWait = false) (performed : perform loop.process event = some process) :
    ({ loop with process } : Looping).Noted := by
  have same := perform_wakeEvent other performed
  have stays (before : loop.process.poll = .ended) : process.poll = .ended := by
    rcases perform_rests other performed (.inr (.inr before)) with still | gone
    · exact still.trans before
    · exact gone
  constructor
  · intro last
    rcases noted.marked last with set | ended
    · exact .inl (same.trans set)
    · exact .inr (stays ended)
  · intro none
    rcases noted.begun none with starting | ended
    · rcases perform_rests other performed (.inl starting) with still | gone
      · exact .inl (still.trans starting)
      · exact .inr gone
    · exact .inr (stays ended)

/-- What one turn keeps. -/
theorem Looping.Wakeful.turn (wakeful : loop.Wakeful) (turned : Turned interval loop taken next) :
    next.Wakeful := by
  cases turned with
  | start => exact (iterate_noted _).settle
  | resume => exact (iterate_noted _).settle
  | own other performed => exact (wakeful.toNoted.perform other performed).settle
  | aside other performed sleeping =>
    refine ⟨wakeful.toNoted.perform other performed, ?_⟩
    intro _ set
    exact wakeful.armed sleeping ((perform_wakeEvent other performed).symm.trans set)
  | notify => exact ⟨⟨fun _ => .inl rfl, fun none => by cases none⟩, fun _ _ => set_armed loop⟩
  | listen => exact ⟨⟨fun _ => .inl rfl, wakeful.begun⟩, fun _ _ => set_armed loop⟩
  | expire => exact ⟨⟨wakeful.marked, wakeful.begun⟩, fun _ _ => Wait.noConfusion⟩

/-- A notification which is not covered, in a loop which goes on. -/
structure Looping.Due (concurrency : Nat) (loop : Looping) : Prop extends loop.Wakeful where
  slotted : ∃ count, Slotted concurrency count loop.process
  goesOn : loop.GoesOn
  uncovered : ¬ loop.Covered

theorem Looping.Wakeful.notified (wakeful : loop.Wakeful) (uncovered : ¬ loop.Covered)
    (begun : loop.process.poll ≠ .starting) (running : loop.process.poll ≠ .ended) :
    loop.process.wakeEvent = true := by
  have last : loop.marks.head? = some .notified := by
    cases marks : loop.marks with
    | nil =>
      have none : loop.marks.head? = none := by rw [marks]; rfl
      rcases wakeful.begun none with starting | ended
      · exact absurd starting begun
      · exact absurd ended running
    | cons mark older =>
      cases mark with
      | notified => rfl
      | began => exact absurd (show loop.Covered by rw [Looping.Covered, marks]; rfl) uncovered
  exact (wakeful.marked last).resolve_right running

/-- `acquire` never waits, so `poll_loop` waits for the database or is scheduled. -/
theorem Looping.Due.ready (due : loop.Due concurrency) :
    ∃ taken : Turn, taken.own = true ∧ (Runtime.turn interval loop taken).isSome := by
  obtain ⟨count, slotted⟩ := due.slotted
  have fits := slotted.fits
  cases poll : loop.process.poll with
  | starting => exact ⟨.start, rfl, by simp [Runtime.turn, poll]⟩
  | claiming free rest =>
    exact ⟨.event (.act .fail), rfl, by
      simp [Runtime.turn, Event.ofWait, perform, advance, poll]⟩
  | claimed jobs rest =>
    exact ⟨.event (.act .lose), rfl, by
      simp [Runtime.turn, Event.ofWait, perform, advance, poll]⟩
  | acquiring granted jobId jobs rest =>
    rw [poll] at fits
    exact fits.elim
  | sleeping =>
    have set := due.notified due.uncovered (by simp [poll]) (by simp [poll])
    have armed := due.armed poll set
    exact ⟨.resume, rfl, by simp [Runtime.turn, poll, armed]⟩
  | ended => exact absurd poll due.goesOn.2

/-- The slots are accounted for after every turn. -/
theorem Turned.slotted (turned : Turned interval loop taken next)
    (slotted : ∃ count, Slotted concurrency count loop.process) :
    ∃ count, Slotted concurrency count next.process := by
  have path : (processOf concurrency).Path anyStep loop.process next.process := turned.path
  refine @Machine.Path.preserves _ _ _ _
    (fun process => ∃ count, Slotted concurrency count process) ?_ _ _ path slotted
  intro process event next ⟨count, slotted⟩ _ performed
  exact ⟨_, slotted.perform performed⟩

/-! The marks only grow. -/

theorem iterate_marks (loop : Looping) : loop.marks <:+ loop.iterate.marks := by
  unfold Looping.iterate
  dsimp only
  split
  · exact List.suffix_rfl
  · exact List.suffix_cons _ _

theorem again_marks (loop : Looping) : loop.marks <:+ loop.again.marks :=
  iterate_marks { loop with process := { loop.process with wakeEvent := false } }

theorem settle_marks (loop : Looping) : loop.marks <:+ (loop.settle interval).marks := by
  unfold Looping.settle
  split
  · split
    · exact again_marks loop
    · exact List.suffix_rfl
  · exact List.suffix_rfl

theorem Turned.marks (turned : Turned interval loop taken next) : loop.marks <:+ next.marks := by
  cases turned with
  | start => exact (iterate_marks loop).trans (settle_marks _)
  | resume => exact (again_marks loop).trans (settle_marks _)
  | @own event process => exact settle_marks { loop with process }
  | notify => exact List.suffix_cons _ _
  | aside | listen | expire => exact List.suffix_rfl

theorem run_marks {turns : List Turn} {allowed : Looping → Turn → Prop}
    [∀ loop taken, Decidable (allowed loop taken)]
    (ran : (looping interval concurrency).run allowed loop turns = some next) :
    loop.marks <:+ next.marks := by
  induction turns generalizing loop with
  | nil =>
    cases Option.some.inj ran
    exact List.suffix_rfl
  | cons taken turns ih =>
    obtain ⟨_, middle, made, rest⟩ := Machine.run_cons.mp ran
    exact (turn_turned made).marks.trans (ih rest)

/-- A poll has begun since. -/
def Looping.BegunSince (loop next : Looping) : Prop :=
  ∃ newer, next.marks = newer ++ loop.marks ∧ Mark.began ∈ newer

theorem begunSince_of_suffix (grown : .began :: loop.marks <:+ next.marks) :
    loop.BegunSince next := by
  obtain ⟨newer, same⟩ := grown
  exact ⟨newer ++ [.began], by simp [← same], by simp⟩

theorem Looping.BegunSince.trans {last : Looping} (begun : loop.BegunSince next)
    (grown : next.marks <:+ last.marks) : loop.BegunSince last := by
  obtain ⟨newer, same, began⟩ := begun
  obtain ⟨newest, grown⟩ := grown
  exact ⟨newest ++ newer, by rw [← grown, same, List.append_assoc],
    List.mem_append_right newest began⟩

theorem iterate_began (loop : Looping) (unstopped : loop.process.shuttingDown = false) :
    loop.iterate.marks = .began :: loop.marks := by
  simp [Looping.iterate, unstopped]

theorem again_began (loop : Looping) (unstopped : loop.process.shuttingDown = false) :
    loop.again.marks = .began :: loop.marks :=
  iterate_began _ unstopped

/-- Where `poll_loop` comes to its wait it polls again at once, or nothing changes but the wait. -/
theorem settle_cases (interval : ℚ) (loop : Looping) (unstopped : loop.process.shuttingDown = false) :
    .began :: loop.marks <:+ (loop.settle interval).marks ∨
      (loop.settle interval).marks = loop.marks ∧ (loop.settle interval).process = loop.process := by
  unfold Looping.settle
  split
  · split
    · left
      rw [← again_began loop unstopped]
      exact List.suffix_rfl
    · exact .inr ⟨rfl, rfl⟩
  · exact .inr ⟨rfl, rfl⟩

/-- A turn begins a poll, or the notification is still due and a turn of its own has brought
`poll_loop` nearer to one. -/
theorem Looping.Due.turn (due : loop.Due concurrency) (permitted : steady loop taken)
    (turned : Turned interval loop taken next) :
    loop.BegunSince next ∨ next.Due concurrency ∧
      next.process.poll.turnsLeft + (if taken.own then 1 else 0) ≤ loop.process.poll.turnsLeft := by
  have wakeful := due.toWakeful.turn turned
  have slotted := turned.slotted due.slotted
  have goesOn := due.goesOn
  have uncovered := due.uncovered
  have nearer : ∀ {event process}, taken = .event event → event.ofWait = false →
      perform loop.process event = some process → process.shuttingDown = false ∧
        process.poll ≠ .ended ∧ process.poll.turnsLeft + (if taken.own then 1 else 0) ≤
          loop.process.poll.turnsLeft := by
    rintro event process rfl other performed
    obtain ⟨count, slotted⟩ := due.slotted
    exact perform_turnsLeft slotted other performed goesOn.1 goesOn.2
      ⟨fun same => permitted.1 (same ▸ rfl), fun same => permitted.2 (same ▸ rfl)⟩
  cases turned with
  | start =>
    left
    apply begunSince_of_suffix
    rw [← iterate_began loop goesOn.1]
    exact settle_marks _
  | resume =>
    left
    apply begunSince_of_suffix
    rw [← again_began loop goesOn.1]
    exact settle_marks _
  | own other performed =>
    obtain ⟨unstopped, running, fewer⟩ := nearer rfl other performed
    rcases settle_cases interval { loop with process := _ } unstopped with
      polled | ⟨marks, same⟩
    · exact .inl (begunSince_of_suffix polled)
    · right
      rw [same]
      refine ⟨⟨wakeful, slotted, ?_, ?_⟩, fewer⟩
      · rw [Looping.GoesOn, same]
        exact ⟨unstopped, running⟩
      · rwa [Looping.Covered, marks]
  | aside other performed =>
    obtain ⟨unstopped, running, fewer⟩ := nearer rfl other performed
    exact .inr ⟨⟨wakeful, slotted, ⟨unstopped, running⟩, uncovered⟩, fewer⟩
  | notify => exact .inr ⟨⟨wakeful, slotted, goesOn, by simp [Looping.Covered]⟩, le_refl _⟩
  | listen | expire => exact .inr ⟨⟨wakeful, slotted, goesOn, uncovered⟩, le_refl _⟩

/-- So many turns of its own, and `poll_loop` has begun a poll. -/
theorem Looping.Due.run {turns : List Turn} {last : Looping} (due : loop.Due concurrency)
    (ran : (looping interval concurrency).run steady loop turns = some last)
    (enough : loop.process.poll.turnsLeft ≤ turns.countP Turn.own) : loop.BegunSince last := by
  induction turns generalizing loop with
  | nil =>
    obtain ⟨count, slotted⟩ := due.slotted
    have fits := slotted.fits
    have none : loop.process.poll.turnsLeft = 0 := Nat.le_zero.mp enough
    cases poll : loop.process.poll with
    | acquiring =>
      rw [poll] at fits
      exact fits.elim
    | ended => exact absurd poll due.goesOn.2
    | starting | claiming | claimed | sleeping =>
      rw [poll] at none
      cases none
  | cons taken turns ih =>
    obtain ⟨permitted, middle, made, rest⟩ := Machine.run_cons.mp ran
    have turned := turn_turned made
    rcases due.turn permitted turned with begun | ⟨still, fewer⟩
    · exact begun.trans (run_marks rest)
    · rw [List.countP_cons] at enough
      obtain ⟨newer, same, began⟩ := ih still rest (by omega)
      obtain ⟨between, grown⟩ := turned.marks
      exact ⟨newer ++ between, by rw [same, ← grown, List.append_assoc],
        List.mem_append_left between began⟩

end Loop

/-- Whatever the interval, and in every interleaving of `poll_loop` with the notifications, the
timeouts and the other events of the process. -/
theorem notified_polled {interval : ℚ} {concurrency : Nat} {loop : Looping}
    (reachable : (looping interval concurrency).Reachable anyStep loop) :
    NoLostWakeUp interval concurrency loop := by
  have kept : loop.Wakeful ∧ ∃ count, Slotted concurrency count loop.process := by
    refine @Machine.Reachable.invariant _ _ (looping interval concurrency) anyStep
      (fun loop => loop.Wakeful ∧ ∃ count, Slotted concurrency count loop.process) ?_ ?_ loop
      reachable
    · rintro _ ⟨queueIds, rfl⟩
      refine ⟨⟨⟨?_, ?_⟩, ?_⟩, 0, ⟨⟨rfl, rfl, rfl, rfl, List.nodup_nil, ?_⟩, trivial⟩⟩
      · intro marked
        cases marked
      · exact fun _ => .inl rfl
      · intro sleeping
        cases sleeping
      · intro task member
        cases member
    · intro loop taken next ⟨wakeful, slotted⟩ _ made
      have turned := turn_turned made
      exact ⟨wakeful.turn turned, turned.slotted slotted⟩
  obtain ⟨wakeful, slotted⟩ := kept
  refine ⟨?_, ?_, ?_⟩
  · intro sleeping clear
    by_contra uncovered
    have set := wakeful.notified uncovered (by simp [sleeping]) (by simp [sleeping])
    cases set.symm.trans clear
  · intro goesOn uncovered
    have due : loop.Due concurrency := ⟨wakeful, slotted, goesOn, uncovered⟩
    exact due.ready
  · intro goesOn uncovered turns last ran enough
    exact Looping.Due.run ⟨wakeful, slotted, goesOn, uncovered⟩ ran enough

/-- A notification arrives during a poll, and the wait returns at once; a second one arrives between
the timeout and the clear. -/
def twoNotified : List Turn := [
  .event (.act (.refresh [7])), .listen, .start, .notify, .event (.act (.claim [1])),
  .event (.act (.submit [1])), .event (.act .fail), .expire, .notify]

theorem notified_polled_twoNotified : ∃ loop, (looping 1 2).Reachable anyStep loop ∧
    loop.process.poll = .sleeping ∧ loop.marks.length = 4 ∧ loop.wait = .expired ∧
    NoLostWakeUp 1 2 loop := by
  have ran : ((looping 1 2).run anyStep { process := { runtime := { concurrency := 2 } } }
      twoNotified).any (fun loop => loop.process.poll = .sleeping ∧ loop.marks.length = 4 ∧
        loop.wait = .expired) = true := by
    decide +kernel
  obtain ⟨loop, reachable, stands⟩ := Machine.reachable_of_check (by exact ⟨[], rfl⟩) twoNotified ran
  obtain ⟨sleeping, marks, expired⟩ := of_decide_eq_true stands
  exact ⟨loop, reachable, sleeping, marks, expired, notified_polled reachable⟩

end Pulse.Runtime
