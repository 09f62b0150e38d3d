import Pulse.System.Notifies
import Pulse.System.Runs
import Pulse.Safety.Wakeups

/-! The engine beside one worker process which LISTENs: NOTIFY, the connection, `_on_notify` and
`poll_loop` together. No job is put in line unheard by a worker which sleeps. -/
namespace Pulse.Runtime
open Library.Lts

/-- The connection of `_ensure_notify_listener`: none, subscribed with the wake event still to
be set, or in place. -/
inductive Link where
  | down
  | subscribed
  | up
deriving DecidableEq, Repr

/-- `inbox` counts the notifications on their way to the process. `unheard` is auxiliary: the
jobs which have been lined up since the last `_poll_once` began. -/
structure Listening where
  system : System := {}
  loop : Looping
  link : Link := .down
  inbox : Nat := 0
  unheard : List Uuid := []

/-- A step of the engine; a turn of the process other than those which the connection brings; a
notification reaches `_on_notify`; `_ensure_notify_listener` has subscribed, and sets the wake
event; and the connection is lost. -/
inductive Exchange where
  | engine (action : Action)
  | turn (taken : Turn)
  | deliver
  | subscribe
  | listen
  | drop
deriving Repr

/-- The turns which the connection brings. -/
def Turn.ofLink : Turn → Bool
  | .notify | .listen => true
  | _ => false

/-- What a step of the engine lines up is unheard, and its NOTIFY reaches who is subscribed. -/
def Listening.commit (env : Environment) (state : Listening) (action : Action) (next : System) :
    Listening :=
  { state with
    system := next
    inbox := if state.link ≠ .down && delivers env state.system action then state.inbox + 1
      else state.inbox
    unheard := (next.db.linedUp.filter fun jobId => jobId ∉ state.system.db.linedUp) ++ state.unheard }

/-- A poll which begins hears of all of them. -/
def Listening.goesOn (state : Listening) (loop : Looping) : Listening :=
  { state with
    loop
    unheard := if state.loop.marks.length < loop.marks.length then [] else state.unheard }

def exchange (env : Environment) (interval : ℚ) (state : Listening) : Exchange → Option Listening
  | .engine action => (Pulse.step env state.system action).map (state.commit env action)
  | .turn taken =>
    if taken.ofLink then none else (turn interval state.loop taken).map state.goesOn
  | .deliver =>
    if 0 < state.inbox then
      (turn interval state.loop .notify).map fun loop => { state with loop, inbox := state.inbox - 1 }
    else none
  | .subscribe =>
    if state.link = .down then some { state with link := .subscribed, inbox := 0 } else none
  | .listen =>
    if state.link = .subscribed then
      (turn interval state.loop .listen).map fun loop => { state with loop, link := .up }
    else none
  | .drop => some { state with link := .down, inbox := 0 }

/-- An engine at its start beside a process which has registered. -/
def listening (env : Environment) (interval : ℚ) (concurrency : Nat) :
    Machine Listening Exchange where
  init := fun state => ∃ loop, (looping interval concurrency).init loop ∧ state = { loop }
  step := exchange env interval

/-- While its connection is in place, whatever was lined up since the last poll of a worker began
is on its way to it, or it is about to poll. -/
def Listening.Attentive (state : Listening) : Prop :=
  state.link = .up → state.unheard ≠ [] → 0 < state.inbox ∨ state.loop.process.wakeEvent = true ∨
    state.loop.process.poll = .starting ∨ state.loop.process.poll = .ended

/-- What one exchange does. -/
inductive Exchanged (env : Environment) (interval : ℚ) (state : Listening) :
    Exchange → Listening → Prop where
  | engine {action next} (taken : Pulse.step env state.system action = some next) :
      Exchanged env interval state (.engine action) (state.commit env action next)
  | turn {taken loop} (own : taken.ofLink = false) (turned : Turned interval state.loop taken loop) :
      Exchanged env interval state (.turn taken) (state.goesOn loop)
  | deliver {loop} (waiting : 0 < state.inbox) (turned : Turned interval state.loop .notify loop) :
      Exchanged env interval state .deliver { state with loop, inbox := state.inbox - 1 }
  | subscribe (off : state.link = .down) :
      Exchanged env interval state .subscribe { state with link := .subscribed, inbox := 0 }
  | listen {loop} (subscribed : state.link = .subscribed)
      (turned : Turned interval state.loop .listen loop) :
      Exchanged env interval state .listen { state with loop, link := .up }
  | drop : Exchanged env interval state .drop { state with link := .down, inbox := 0 }

section Exchanges
variable {env : Environment} {interval : ℚ} {concurrency : Nat} {state next : Listening}
  {loop after : Looping} {taken : Turn}

theorem exchange_exchanged {made : Exchange} (performed : exchange env interval state made = some next) :
    Exchanged env interval state made next := by
  cases made with
  | engine action =>
    obtain ⟨system, stepped, rfl⟩ := Option.map_eq_some_iff.mp performed
    exact .engine stepped
  | turn taken =>
    simp only [exchange] at performed
    split at performed
    · cases performed
    · rename_i own
      obtain ⟨loop, turned, rfl⟩ := Option.map_eq_some_iff.mp performed
      exact .turn (by simpa using own) (turn_turned turned)
  | deliver =>
    simp only [exchange] at performed
    split at performed
    · rename_i waiting
      obtain ⟨loop, turned, rfl⟩ := Option.map_eq_some_iff.mp performed
      exact .deliver waiting (turn_turned turned)
    · cases performed
  | subscribe =>
    simp only [exchange] at performed
    split at performed
    · rename_i off
      cases Option.some.inj performed
      exact .subscribe off
    · cases performed
  | listen =>
    simp only [exchange] at performed
    split at performed
    · rename_i subscribed
      obtain ⟨loop, turned, rfl⟩ := Option.map_eq_some_iff.mp performed
      exact .listen subscribed (turn_turned turned)
    · cases performed
  | drop =>
    cases Option.some.inj performed
    exact .drop

/-- An iteration begins a poll, or ends `poll_loop`. -/
theorem iterate_polls (loop : Looping) :
    loop.marks.length < loop.iterate.marks.length ∨ loop.iterate.process.poll = .ended := by
  cases stopped : loop.process.shuttingDown with
  | true => exact .inr (by simp [Looping.iterate, WorkerProcess.iterate, stopped])
  | false =>
    left
    rw [iterate_began loop stopped]
    exact Nat.lt_succ_self _

/-- Where `poll_loop` comes to its wait it polls again, or ends, or nothing changes but the wait. -/
theorem settle_polls (interval : ℚ) (loop : Looping) :
    loop.marks.length < (loop.settle interval).marks.length ∨
      (loop.settle interval).process.poll = .ended ∨
        (loop.settle interval).process = loop.process := by
  unfold Looping.settle
  split
  · split
    · rcases iterate_polls { loop with process := { loop.process with wakeEvent := false } } with
        polled | ended
      · exact .inl polled
      · exact .inr (.inl ended)
    · exact .inr (.inr rfl)
  · exact .inr (.inr rfl)

/-- What comes after an iteration, or after an event. -/
theorem polls_settle (polls : loop.marks.length < after.marks.length ∨ after.process.poll = .ended) :
    loop.marks.length < (after.settle interval).marks.length ∨
      (after.settle interval).process.poll = .ended := by
  rcases polls with polled | ended
  · exact .inl (Nat.lt_of_lt_of_le polled (settle_marks after).length_le)
  · right
    rw [Looping.settle, if_neg (by simp [ended])]
    exact ended

/-- A turn which begins no poll leaves the wake event as it is, and `poll_loop` before its first
poll, unless that ends. -/
theorem Turned.unpolled (turned : Turned interval loop taken after) (own : taken.ofLink = false)
    (unpolled : ¬ loop.marks.length < after.marks.length) : after.process.poll = .ended ∨
      after.process.wakeEvent = loop.process.wakeEvent ∧
        (loop.process.poll = .starting → after.process.poll = .starting) ∧
        loop.process.poll ≠ .ended := by
  by_cases before : loop.process.poll = .ended
  · left
    cases turned with
    | start starting => simp [before] at starting
    | aside _ performed sleeping => simp [before] at sleeping
    | own other performed =>
      have stays : (_ : WorkerProcess).poll = Poll.ended :=
        (perform_rests other performed (.inr (.inr before))).elim (·.trans before) id
      rw [Looping.settle, if_neg (by simp [stays])]
      exact stays
    | notify | listen => cases own
    | expire sleeping => simp [before] at sleeping
    | resume sleeping => simp [before] at sleeping
  · cases turned with
    | start => exact .inl ((polls_settle (iterate_polls loop)).resolve_left unpolled)
    | resume =>
      exact .inl ((polls_settle (iterate_polls { loop with
        process := { loop.process with wakeEvent := false } })).resolve_left unpolled)
    | @own event process other performed awake =>
      have starts : loop.process.poll = .starting → process.poll = .starting ∨ process.poll = .ended :=
        fun starting => (perform_rests other performed (.inl starting)).imp_left (·.trans starting)
      rcases settle_polls interval { loop with process } with polled | ended | same
      · exact absurd polled unpolled
      · exact .inl ended
      · rw [same]
        by_cases ended : process.poll = .ended
        · exact .inl ended
        · exact .inr ⟨perform_wakeEvent other performed,
            fun starting => (starts starting).resolve_right ended, before⟩
    | @aside event process other performed sleeping =>
      rcases perform_rests other performed (.inr (.inl sleeping)) with same | ended
      · refine .inr ⟨perform_wakeEvent other performed, fun starting => ?_, before⟩
        simp [sleeping] at starting
      · exact .inl ended
    | notify | listen => cases own
    | expire sleeping =>
      refine .inr ⟨rfl, fun starting => ?_, before⟩
      simp [sleeping] at starting

/-- Whatever a step of the engine lines up, who is subscribed will hear of it. -/
theorem Listening.Attentive.engine (attentive : state.Attentive) (references : References state.system)
    {action : Action} {system : System} (taken : Pulse.step env state.system action = some system) :
    (state.commit env action system).Attentive := by
  intro up unheard
  by_cases delivered : delivers env state.system action = true
  · left
    have up : state.link = .up := up
    simp [Listening.commit, up, delivered]
  · have none : (system.db.linedUp.filter fun jobId => jobId ∉ state.system.db.linedUp) = [] := by
      refine List.filter_eq_nil_iff.mpr fun jobId listed fresh => delivered ?_
      exact step_delivers references taken listed (by simpa using fresh)
    simp only [Listening.commit, none, List.nil_append] at unheard
    simpa [Listening.commit, delivered] using attentive up unheard

theorem Listening.Attentive.exchanged (attentive : state.Attentive)
    (references : References state.system) {made : Exchange}
    (exchanged : Exchanged env interval state made next) : next.Attentive := by
  cases exchanged with
  | engine taken => exact attentive.engine references taken
  | @turn taken loop own turned =>
    intro up unheard
    simp only [Listening.goesOn] at up unheard ⊢
    by_cases polled : state.loop.marks.length < loop.marks.length
    · simp [polled] at unheard
    · rw [if_neg polled] at unheard
      rcases turned.unpolled own polled with ended | ⟨event, starts, running⟩
      · exact .inr (.inr (.inr ended))
      · rcases attentive up unheard with coming | set | starting | ended
        · exact .inl coming
        · exact .inr (.inl (event.trans set))
        · exact .inr (.inr (.inl (starts starting)))
        · exact absurd ended running
  | deliver _ turned | listen _ turned =>
    intro _ _
    cases turned
    exact .inr (.inl rfl)
  | subscribe | drop =>
    intro up
    cases up

/-- A run of both is a run of the engine. -/
theorem listening_engine (reachable : (listening env interval concurrency).Reachable anyStep state) :
    (pulse env).Reachable anyStep state.system := by
  refine @Machine.Reachable.invariant _ _ (listening env interval concurrency) anyStep
    (fun state => (pulse env).Reachable anyStep state.system) ?_ ?_ state reachable
  · rintro _ ⟨loop, _, rfl⟩
    exact .start rfl
  · intro state made next earlier _ performed
    cases exchange_exchanged performed with
    | engine taken => exact earlier.extend trivial taken
    | turn | deliver | subscribe | listen | drop => exact earlier

/-- And one of the process. -/
theorem listening_loop (reachable : (listening env interval concurrency).Reachable anyStep state) :
    (looping interval concurrency).Reachable anyStep state.loop := by
  refine @Machine.Reachable.invariant _ _ (listening env interval concurrency) anyStep
    (fun state => (looping interval concurrency).Reachable anyStep state.loop) ?_ ?_ state reachable
  · rintro _ ⟨loop, initial, rfl⟩
    exact .start initial
  · intro state made next earlier _ performed
    have turns : ∀ {taken : Turn} {loop : Looping}, turn interval state.loop taken = some loop →
        (looping interval concurrency).Reachable anyStep loop := by
      intro taken loop turned
      have moved : (looping interval concurrency).step state.loop taken = some loop := turned
      exact earlier.extend trivial moved
    cases made with
    | engine =>
      obtain ⟨_, _, rfl⟩ := Option.map_eq_some_iff.mp performed
      exact earlier
    | turn =>
      simp only [listening, exchange] at performed
      split at performed
      · cases performed
      · obtain ⟨loop, turned, rfl⟩ := Option.map_eq_some_iff.mp performed
        exact turns turned
    | deliver | listen =>
      simp only [listening, exchange] at performed
      split at performed
      · obtain ⟨loop, turned, rfl⟩ := Option.map_eq_some_iff.mp performed
        exact turns turned
      · cases performed
    | subscribe =>
      simp only [listening, exchange] at performed
      split at performed <;> cases performed
      exact earlier
    | drop =>
      cases Option.some.inj performed
      exact earlier

theorem Listening.Attentive.reachable
    (reachable : (listening env interval concurrency).Reachable anyStep state) : state.Attentive := by
  have both : (listening env interval concurrency).Reachable anyStep state ∧ state.Attentive := by
    refine @Machine.Reachable.invariant _ _ (listening env interval concurrency) anyStep
      (fun state => (listening env interval concurrency).Reachable anyStep state ∧ state.Attentive)
      ?_ ?_ state reachable
    · rintro _ ⟨loop, initial, rfl⟩
      exact ⟨.start ⟨loop, initial, rfl⟩, fun up => by cases up⟩
    · rintro state made next ⟨earlier, attentive⟩ _ performed
      exact ⟨earlier.extend trivial performed,
        attentive.exchanged (References.reachable (listening_engine earlier))
          (exchange_exchanged performed)⟩
  exact both.2

/-- A worker which has its connection and no notification on its way, and sleeps: with the wake
event clear it has heard of every job which was lined up, and otherwise it goes on and polls,
after the last of them was lined up. -/
structure Listening.Heard (interval : ℚ) (state : Listening) : Prop where
  asleep : state.link = .up → state.inbox = 0 → state.loop.process.poll = .sleeping →
    state.loop.process.wakeEvent = false → state.unheard = []
  woken : state.link = .up → state.inbox = 0 → state.loop.process.poll = .sleeping →
    state.loop.process.shuttingDown = false → state.unheard ≠ [] →
    ∃ loop, turn interval state.loop .resume = some loop ∧ (state.goesOn loop).unheard = []

/-- In every interleaving of the engine with the notifications, the losses of the connection and
the turns of the process. -/
theorem lined_up_heard (reachable : (listening env interval concurrency).Reachable anyStep state) :
    state.Heard interval := by
  have attentive := Listening.Attentive.reachable reachable
  have wakeful : state.loop.Wakeful := by
    refine @Machine.Reachable.invariant _ _ (looping interval concurrency) anyStep
      Looping.Wakeful ?_ ?_ state.loop (listening_loop reachable)
    · rintro _ ⟨queueIds, rfl⟩
      refine ⟨⟨fun marked => ?_, fun _ => .inl rfl⟩, fun sleeping => ?_⟩
      · cases marked
      · cases sleeping
    · exact fun loop taken next wakeful _ made => wakeful.turn (turn_turned made)
  have set : state.link = .up → state.inbox = 0 → state.loop.process.poll = .sleeping →
      state.unheard ≠ [] → state.loop.process.wakeEvent = true := by
    intro up empty sleeping unheard
    rcases attentive up unheard with coming | set | starting | ended
    · exact absurd empty (Nat.ne_of_gt coming)
    · exact set
    · simp [sleeping] at starting
    · simp [sleeping] at ended
  constructor
  · intro up empty sleeping clear
    by_contra unheard
    cases (set up empty sleeping unheard).symm.trans clear
  · intro up empty sleeping unstopped unheard
    have due := wakeful.armed sleeping (set up empty sleeping unheard)
    refine ⟨state.loop.again.settle interval, by simp [turn, sleeping, due], ?_⟩
    have grown : state.loop.marks.length < (state.loop.again.settle interval).marks.length := by
      refine Nat.lt_of_lt_of_le ?_ (settle_marks state.loop.again).length_le
      rw [again_began state.loop unstopped]
      exact Nat.lt_succ_self _
    simp [Listening.goesOn, grown]

end Exchanges

/-- The worker polls and sleeps, a job is created, and its notification arrives; the connection
is lost, another job is created unheard, and the connection is there again. -/
def reconnected : List Exchange := [
  .engine (.begin 0 (.api 0 (.createQueue { projectId := 0, name := "default" }))),
  .turn (.event (.act (.refresh [1]))),
  .subscribe,
  .listen,
  .turn .start,
  .turn (.event (.act (.claim []))),
  .turn (.event (.act (.submit []))),
  .turn (.event (.act (.claim []))),
  .turn (.event (.act (.submit []))),
  .engine (.begin 0 (.api 0 (.createJob { queueId := 1, type := .immediate, handler := "noop" }))),
  .deliver,
  .drop,
  .engine (.begin 0 (.api 0 (.createJob { queueId := 1, type := .immediate, handler := "noop" }))),
  .subscribe,
  .listen]

theorem lined_up_heard_reconnected : ∃ state,
    (listening (sample .reread) 1 2).Reachable anyStep state ∧ state.link = .up ∧ state.inbox = 0 ∧
      state.unheard.length = 2 ∧ state.loop.process.poll = .sleeping ∧ state.Heard 1 := by
  have ran : ((listening (sample .reread) 1 2).run anyStep
      { loop := { process := { runtime := { concurrency := 2 } } } } reconnected).any (fun state =>
        state.link = .up && state.inbox = 0 && state.unheard.length = 2 &&
          state.loop.process.poll = .sleeping) = true := by
    decide +kernel
  obtain ⟨state, reachable, passes⟩ :=
    Machine.reachable_of_check (by exact ⟨_, ⟨[], rfl⟩, rfl⟩) reconnected ran
  simp only [Bool.and_eq_true, decide_eq_true_eq] at passes
  obtain ⟨⟨⟨up, empty⟩, unheard⟩, sleeping⟩ := passes
  exact ⟨state, reachable, up, empty, unheard, sleeping, lined_up_heard reachable⟩

end Pulse.Runtime
