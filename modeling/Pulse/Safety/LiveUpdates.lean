import Pulse.Client.LiveUpdates

/-! What holds of the hook in every state of a tab: it has one connection or one timer for the next
one, and what the messages ask for is invalidated, in batches. -/
namespace Pulse.Live
open Library Library.Lts

variable {Token : Type} {hook next : Hook Token} {effect later : Effect Token}
  {timers changed : Timers Task} {index : Nat}

/-- The run of the effect which a timer is for. -/
def Task.owner : Task → Nat
  | .connect index | .flush index => index

/-- When sockets have closed since one opened, the last first. -/
def Effect.failures (effect : Effect Token) : List Nat :=
  (effect.history.takeWhile fun entry => entry.2 = .closed).map Prod.fst

/-- A run of the effect has a socket which is not closed, or a timer for the next one, or is over. -/
inductive Effect.Standing (timers : Timers Task) (index : Nat) (effect : Effect Token) : Prop where
  | connected {socket : ReadyState} {earlier : List ReadyState}
      (mounted : effect.cancelled = false) (sockets : effect.sockets = socket :: earlier)
      (unclosed : socket ≠ .closed) (before : ∀ other ∈ earlier, other = .closed)
      (idle : timers.of (.connect index) = [])
  | waiting {id closedAt : Nat} {rest : List Nat} {earlier : List ReadyState}
      (mounted : effect.cancelled = false) (sockets : effect.sockets = .closed :: earlier)
      (before : ∀ other ∈ earlier, other = .closed)
      (failed : effect.failures = closedAt :: rest)
      (retry : timers.of (.connect index) =
        [⟨id, closedAt + min (1000 * 2 ^ rest.length) 15000, .connect index⟩])
      (held : effect.retryTimeout = some id)
  | finished {socket : ReadyState} {earlier : List ReadyState} (cancelled : effect.cancelled = true)
      (sockets : effect.sockets = socket :: earlier) (dead : socket.isLive = false)
      (before : ∀ other ∈ earlier, other = .closed) (idle : timers.of (.connect index) = [])

/-- What is pending waits for one timer. -/
inductive Effect.Flushing (timers : Timers Task) (index : Nat) (effect : Effect Token) : Prop where
  | idle (empty : effect.pending = []) (unset : effect.flushTimer = none)
      (none : timers.of (.flush index) = [])
  | armed {id due : Nat} (mounted : effect.cancelled = false) (asked : effect.pending ≠ [])
      (held : effect.flushTimer = some id)
      (one : timers.of (.flush index) = [⟨id, due, .flush index⟩])
  | finished (cancelled : effect.cancelled = true) (none : timers.of (.flush index) = [])

/-- The number which a variable holds is of its own task, if that timer is still armed. -/
def Holds (timers : Timers Task) (task : Task) (held : Option Nat) : Prop :=
  ∀ id, held = some id → id < timers.next ∧ ∀ timer ∈ timers.armed, timer.id = id → timer.task = task

structure Effect.Sound (timers : Timers Task) (index : Nat) (effect : Effect Token) : Prop where
  standing : effect.Standing timers index
  flushing : effect.Flushing timers index
  attempt : effect.cancelled = false → effect.attempt = effect.failures.length
  retryTimeout : Holds timers (.connect index) effect.retryTimeout
  flushTimer : Holds timers (.flush index) effect.flushTimer
  distinct : effect.pending.Nodup

structure Hook.Sound (hook : Hook Token) : Prop where
  effects : ∀ (index : Nat) (effect : Effect Token), hook.effects[index]? = some effect →
    effect.Sound hook.timers index
  current : ∀ (index : Nat) (effect : Effect Token), hook.effects[index]? = some effect →
    (effect.cancelled = false ↔ hook.current = some index)
  mounted : ∀ index, hook.current = some index → index < hook.effects.length
  tasks : ∀ timer ∈ hook.timers.armed, timer.task.owner < hook.effects.length

/-- The timers of one run of the effect are set and cleared, and no others. -/
structure Touches (index : Nat) (timers changed : Timers Task) : Prop where
  next : timers.next ≤ changed.next
  armed : ∀ timer ∈ changed.armed, timer ∈ timers.armed ∨
    timers.next ≤ timer.id ∧ timer.task.owner = index
  others : ∀ task : Task, task.owner ≠ index → changed.of task = timers.of task

section Frames
variable {task : Task} {held : Option Nat} {due id : Nat}

theorem Touches.refl : Touches index timers timers where
  next := le_rfl
  armed := fun _ member => .inl member
  others := fun _ _ => rfl

theorem Touches.setTimeout (owned : task.owner = index) :
    Touches index timers (timers.setTimeout due task) where
  next := Nat.le_succ _
  armed := by
    intro timer member
    rcases Timers.mem_setTimeout.mp member with old | rfl
    · exact .inl old
    · exact .inr ⟨le_rfl, owned⟩
  others := by
    intro other foreign
    exact Timers.of_setTimeout_ne fun same => foreign (same ▸ owned)

theorem Touches.clear (owned : task.owner = index) (holds : Holds timers task held) :
    Touches index timers (timers.clear held) where
  next := by rw [Timers.next_clear]
  armed := fun _ member => .inl (Timers.clear_subset held member)
  others := by
    intro other foreign
    cases held with
    | none => rfl
    | some id =>
      exact Timers.of_clearTimeout_ne (holds id rfl).2 fun same => foreign (same ▸ owned)

theorem Touches.trans {last : Timers Task} (first : Touches index timers changed)
    (second : Touches index changed last) : Touches index timers last where
  next := first.next.trans second.next
  armed := by
    intro timer member
    rcases second.armed timer member with old | ⟨new, owned⟩
    · exact first.armed timer old
    · exact .inr ⟨first.next.trans new, owned⟩
  others := fun task foreign => (second.others task foreign).trans (first.others task foreign)

theorem Holds.touches (holds : Holds timers task held) (touches : Touches index timers changed) :
    Holds changed task held := by
  intro id here
  obtain ⟨below, owned⟩ := holds id here
  refine ⟨below.trans_le touches.next, fun timer member same => ?_⟩
  rcases touches.armed timer member with old | ⟨new, _⟩
  · exact owned timer old same
  · omega

theorem Holds.setTimeout (timers : Timers Task) (due : Nat) (task : Task) :
    Holds (timers.setTimeout due task) task (some timers.next) := by
  intro id here
  cases here
  refine ⟨Nat.lt_succ_self _, fun timer member same => ?_⟩
  rcases Timers.mem_setTimeout.mp member with old | rfl
  · exact absurd same (Nat.ne_of_lt (timers.below timer old))
  · rfl

theorem Effect.Sound.touches {other : Nat} (sound : effect.Sound timers other)
    (touches : Touches index timers changed) (different : other ≠ index) :
    effect.Sound changed other where
  standing := by
    have same := touches.others (.connect other) different
    cases sound.standing with
    | connected mounted sockets unclosed before idle =>
      exact .connected mounted sockets unclosed before (same.trans idle)
    | waiting mounted sockets before failed retry held =>
      exact .waiting mounted sockets before failed (same.trans retry) held
    | finished cancelled sockets dead before idle =>
      exact .finished cancelled sockets dead before (same.trans idle)
  flushing := by
    have same := touches.others (.flush other) different
    cases sound.flushing with
    | idle empty unset none => exact .idle empty unset (same.trans none)
    | armed mounted asked held one => exact .armed mounted asked held (same.trans one)
    | finished cancelled none => exact .finished cancelled (same.trans none)
  attempt := sound.attempt
  retryTimeout := sound.retryTimeout.touches touches
  flushTimer := sound.flushTimer.touches touches
  distinct := sound.distinct

/-- One run of the effect goes on, with its timers, and is cleaned up where the hook forgets it. -/
theorem Hook.Sound.update (sound : hook.Sound) (running : hook.effects[index]? = some effect)
    (touches : Touches index hook.timers next.timers)
    (effects : next.effects = hook.effects.set index later)
    (keeps : later.Sound next.timers index)
    (current : later.cancelled = false ↔ next.current = some index)
    (elsewhere : ∀ other, other ≠ index → (next.current = some other ↔ hook.current = some other)) :
    next.Sound := by
  have inside : index < hook.effects.length := (List.getElem?_eq_some_iff.mp running).1
  have found : ∀ other found, next.effects[other]? = some found →
      (other = index ∧ found = later) ∨ (other ≠ index ∧ hook.effects[other]? = some found) := by
    intro other found here
    rw [effects] at here
    by_cases same : other = index
    · subst same
      rw [List.getElem?_set_self inside] at here
      exact .inl ⟨rfl, (Option.some.inj here).symm⟩
    · rw [List.getElem?_set_ne (Ne.symm same)] at here
      exact .inr ⟨same, here⟩
  refine ⟨?_, ?_, ?_, ?_⟩
  · intro other here present
    rcases found other here present with ⟨rfl, rfl⟩ | ⟨different, old⟩
    · exact keeps
    · exact (sound.effects other here old).touches touches different
  · intro other here present
    rcases found other here present with ⟨rfl, rfl⟩ | ⟨different, old⟩
    · exact current
    · exact (sound.current other here old).trans (elsewhere other different).symm
  · intro other here
    rw [effects, List.length_set]
    by_cases same : other = index
    · exact same ▸ inside
    · exact sound.mounted other ((elsewhere other same).mp here)
  · intro timer member
    rw [effects, List.length_set]
    rcases touches.armed timer member with old | ⟨_, owned⟩
    · exact sound.tasks timer old
    · exact owned ▸ inside

end Frames

section Steps

/-- The two cases of a run of the effect which has a socket that is not closed. -/
theorem Effect.Sound.unclosed (sound : effect.Sound timers index) {socket : Nat}
    {state : ReadyState} (present : effect.sockets[socket]? = some state)
    (unclosed : state ≠ .closed) : socket = 0 ∧ ∃ earlier, effect.sockets = state :: earlier ∧
      (∀ other ∈ earlier, other = .closed) ∧ timers.of (.connect index) = [] ∧
      (effect.cancelled = true → state.isLive = false) := by
  have first : ∀ {latest : ReadyState} {earlier : List ReadyState},
      effect.sockets = latest :: earlier → (∀ other ∈ earlier, other = .closed) →
      socket = 0 ∧ state = latest := by
    intro latest earlier sockets before
    rw [sockets] at present
    cases socket with
    | zero => exact ⟨rfl, (Option.some.inj present).symm⟩
    | succ socket =>
      rw [List.getElem?_cons_succ] at present
      exact absurd (before state (List.mem_of_getElem? present)) unclosed
  cases sound.standing with
  | connected mounted sockets _ before idle =>
    obtain ⟨rfl, rfl⟩ := first sockets before
    exact ⟨rfl, _, sockets, before, idle, fun cancelled => by simp [mounted] at cancelled⟩
  | waiting mounted sockets before failed retry held =>
    exact absurd (first sockets before).2 unclosed
  | finished cancelled sockets dead before idle =>
    obtain ⟨rfl, rfl⟩ := first sockets before
    exact ⟨rfl, _, sockets, before, idle, fun _ => dead⟩

theorem Hook.Sound.found (sound : hook.Sound) {socket : Nat} {state : ReadyState}
    (found : hook.socket index socket = some (effect, state)) :
    hook.effects[index]? = some effect ∧ effect.sockets[socket]? = some state ∧
      effect.Sound hook.timers index := by
  obtain ⟨here, running, mapped⟩ := Option.bind_eq_some_iff.mp found
  obtain ⟨there, present, same⟩ := Option.map_eq_some_iff.mp mapped
  cases same
  exact ⟨running, present, sound.effects _ _ running⟩

theorem Effect.Sound.mounted (sound : effect.Sound timers index) {socket : Nat}
    {state : ReadyState} (present : effect.sockets[socket]? = some state)
    (live : state.isLive = true) : effect.cancelled = false := by
  obtain ⟨_, _, _, _, _, finished⟩ := sound.unclosed present fun same => by simp [same, ReadyState.isLive] at live
  by_contra cancelled
  rw [finished (by simpa using cancelled)] at live
  cases live

/-- Another state of the latest socket, short of closed. -/
theorem Effect.Sound.setSocket (sound : effect.Sound timers index) {socket : Nat}
    {state new : ReadyState} (present : effect.sockets[socket]? = some state)
    (unclosed : state ≠ .closed) (stays : new ≠ .closed)
    (dead : state.isLive = false → new.isLive = false) :
    (effect.setSocket socket new).Sound timers index := by
  obtain ⟨rfl, earlier, sockets, before, idle, finished⟩ := sound.unclosed present unclosed
  have changed : (effect.setSocket 0 new).sockets = new :: earlier := by
    rw [Effect.setSocket, sockets, List.set_cons_zero]
  refine ⟨?_, ?_, sound.attempt, sound.retryTimeout, sound.flushTimer, sound.distinct⟩
  · cases cancelled : effect.cancelled with
    | false => exact .connected cancelled changed stays before idle
    | true => exact .finished cancelled changed (dead (finished cancelled)) before idle
  · cases sound.flushing with
    | idle empty unset none => exact .idle empty unset none
    | armed mounted asked held one => exact .armed mounted asked held one
    | finished cancelled none => exact .finished cancelled none

/-- Where a run of the effect stands does not depend on what is pending. -/
theorem Effect.Standing.congr (standing : effect.Standing timers index)
    (cancelled : later.cancelled = effect.cancelled) (sockets : later.sockets = effect.sockets)
    (history : later.history = effect.history) (held : later.retryTimeout = effect.retryTimeout)
    (same : changed.of (.connect index) = timers.of (.connect index)) :
    later.Standing changed index := by
  have failures : later.failures = effect.failures := by rw [failures, failures, history]
  cases standing with
  | connected mounted present unclosed before idle =>
    exact .connected (cancelled.trans mounted) (sockets.trans present) unclosed before
      (same.trans idle)
  | waiting mounted present before failed retry here =>
    exact .waiting (cancelled.trans mounted) (sockets.trans present) before
      (failures.trans failed) (same.trans retry) (held.trans here)
  | finished ended present dead before idle =>
    exact .finished (cancelled.trans ended) (sockets.trans present) dead before (same.trans idle)

theorem Effect.Flushing.congr (flushing : effect.Flushing timers index)
    (cancelled : later.cancelled = effect.cancelled) (pending : later.pending = effect.pending)
    (held : later.flushTimer = effect.flushTimer)
    (same : changed.of (.flush index) = timers.of (.flush index)) :
    later.Flushing changed index := by
  cases flushing with
  | idle empty unset none => exact .idle (pending.trans empty) (held.trans unset) (same.trans none)
  | armed mounted asked here one =>
    exact .armed (cancelled.trans mounted) (pending ▸ asked) (held.trans here) (same.trans one)
  | finished ended none => exact .finished (cancelled.trans ended) (same.trans none)

theorem Hook.Sound.opens (sound : hook.Sound) {socket : Nat}
    (found : hook.socket index socket = some (effect, .connecting)) :
    (hook.onopen index (effect.setSocket socket .opened)).Sound := by
  obtain ⟨running, present, keeps⟩ := sound.found found
  obtain ⟨rfl, earlier, sockets, before, idle, finished⟩ := keeps.unclosed present (by decide)
  have mounted := keeps.mounted present rfl
  have changed : effect.sockets.set 0 .opened = .opened :: earlier := by rw [sockets]; rfl
  refine sound.update running .refl rfl ⟨?_, ?_, ?_, ?_, ?_, ?_⟩ ?_ fun _ _ => .rfl
  · exact .connected mounted changed (by decide) before idle
  · exact keeps.flushing.congr rfl rfl rfl rfl
  · exact fun _ => by simp [Effect.log, Effect.failures]
  · exact keeps.retryTimeout
  · exact keeps.flushTimer
  · exact keeps.distinct
  · exact sound.current _ effect running

theorem Hook.Sound.closing (sound : hook.Sound) {socket : Nat}
    (found : hook.socket index socket = some (effect, .opened)) :
    (hook.setEffect index (effect.setSocket socket .closing)).Sound := by
  obtain ⟨running, present, keeps⟩ := sound.found found
  refine sound.update running .refl rfl ?_ (sound.current _ effect running) fun _ _ => .rfl
  exact keeps.setSocket present (by decide) (by decide) fun _ => rfl

theorem Hook.Sound.closes (sound : hook.Sound) {socket : Nat} {state : ReadyState} (failed : Bool)
    (found : hook.socket index socket = some (effect, state)) (unclosed : state ≠ .closed) :
    let closed := (effect.setSocket socket .closed).log hook.now .closed
    (hook.onclose index (if failed then closed.closeSocket else closed)).Sound := by
  obtain ⟨running, present, keeps⟩ := sound.found found
  obtain ⟨rfl, earlier, sockets, before, idle, finished⟩ := keeps.unclosed present unclosed
  have changed : effect.sockets.set 0 .closed = .closed :: earlier := by rw [sockets]; rfl
  intro closed
  have same : (if failed then closed.closeSocket else closed) = closed := by
    have unmoved : closed.closeSocket = closed := by
      simp only [closed, Effect.closeSocket, Effect.log, Effect.setSocket, changed]
      rfl
    rw [unmoved, ite_self]
  have failures : closed.failures = hook.now :: effect.failures := by
    simp [closed, Effect.failures, Effect.log, Effect.setSocket]
  rw [same]
  unfold Hook.onclose
  split
  · rename_i cancelled
    refine sound.update running .refl rfl ⟨?_, ?_, ?_, ?_, ?_, ?_⟩ ?_ fun _ _ => .rfl
    · exact .finished cancelled changed rfl before idle
    · exact keeps.flushing.congr rfl rfl rfl rfl
    · exact fun mounted => by simp [mounted] at cancelled
    · exact keeps.retryTimeout
    · exact keeps.flushTimer
    · exact keeps.distinct
    · exact sound.current _ effect running
  · rename_i mounted
    have touches : Touches index hook.timers (hook.timers.setTimeout
        (hook.now + min (1000 * 2 ^ closed.attempt) 15000) (.connect index)) := .setTimeout rfl
    have mounted : closed.cancelled = false := by simpa using mounted
    have attempt : closed.attempt = effect.failures.length := keeps.attempt mounted
    refine sound.update running touches rfl ⟨?_, ?_, ?_, ?_, ?_, ?_⟩ ?_ fun _ _ => .rfl
    · refine .waiting mounted changed before failures ?_ rfl
      change (hook.timers.setTimeout _ _).of (.connect index) = _
      rw [Timers.of_setTimeout_self, idle, attempt]
      rfl
    · refine keeps.flushing.congr rfl rfl rfl (Timers.of_setTimeout_ne ?_)
      exact fun same => by cases same
    · exact fun _ => (congrArg Nat.succ attempt).trans (congrArg List.length failures).symm
    · exact .setTimeout _ _ _
    · exact keeps.flushTimer.touches touches
    · exact keeps.distinct
    · exact sound.current _ effect running

/-- A key which is asked for is pending, once. -/
theorem setPending_cases (effect : Effect Token) (key : QueryKey) :
    (key ∈ effect.pending ∧ effect.setPending key = effect) ∨ (key ∉ effect.pending ∧
      effect.setPending key = { effect with pending := effect.pending ++ [key] }) := by
  unfold Effect.setPending
  split
  · rename_i present
    exact .inl ⟨present, rfl⟩
  · rename_i absent
    exact .inr ⟨absent, rfl⟩

theorem mem_setPending {key other : QueryKey} :
    other ∈ (effect.setPending key).pending ↔ other ∈ effect.pending ∨ other = key := by
  rcases setPending_cases effect key with ⟨present, same⟩ | ⟨_, same⟩
  · rw [same]
    exact ⟨.inl, fun either => either.elim id fun here => here ▸ present⟩
  · rw [same, List.mem_append, List.mem_singleton]

theorem Effect.Sound.setPending (sound : effect.Sound timers index)
    (mounted : effect.cancelled = false) (key : QueryKey)
    (touches : Touches index timers changed)
    (retries : changed.of (.connect index) = timers.of (.connect index))
    {held : Option Nat} (holds : Holds changed (.flush index) held) {id due : Nat}
    (armed : held = some id) (one : changed.of (.flush index) = [⟨id, due, .flush index⟩]) :
    Effect.Sound changed index { effect.setPending key with flushTimer := held } := by
  have asked : (effect.setPending key).pending ≠ [] :=
    List.ne_nil_of_mem (mem_setPending.mpr (.inr rfl))
  rcases setPending_cases effect key with ⟨present, same⟩ | ⟨absent, same⟩
  · rw [same] at asked ⊢
    exact ⟨sound.standing.congr rfl rfl rfl rfl retries, .armed mounted asked armed one,
      sound.attempt, sound.retryTimeout.touches touches, holds, sound.distinct⟩
  · rw [same] at asked ⊢
    exact ⟨sound.standing.congr rfl rfl rfl rfl retries, .armed mounted asked armed one,
      sound.attempt, sound.retryTimeout.touches touches, holds,
      List.Nodup.append sound.distinct (List.nodup_singleton _)
        (List.disjoint_singleton.mpr absent)⟩

theorem Hook.Sound.invalidate (sound : hook.Sound) (running : hook.effects[index]? = some effect)
    (mounted : effect.cancelled = false) (key : QueryKey) :
    (hook.invalidate index effect key).Sound := by
  have keeps := sound.effects index effect running
  have current : (effect.setPending key).cancelled = false ↔ hook.current = some index := by
    rw [← sound.current index effect running]
    rcases setPending_cases effect key with ⟨_, same⟩ | ⟨_, same⟩ <;> rw [same]
  cases held : effect.flushTimer with
  | some id =>
    simp only [Hook.invalidate, held]
    refine sound.update running .refl rfl ?_ current fun _ _ => .rfl
    cases keeps.flushing with
    | idle empty unset none => rw [unset] at held; cases held
    | armed mounted _ here one =>
      have same : (effect.setPending key).flushTimer = effect.flushTimer := by
        rcases setPending_cases effect key with ⟨_, same⟩ | ⟨_, same⟩ <;> rw [same]
      have sound := keeps.setPending mounted key .refl rfl keeps.flushTimer here one
      rw [← same] at sound
      exact sound
    | finished cancelled none => rw [mounted] at cancelled; cases cancelled
  | none =>
    simp only [Hook.invalidate, held]
    have touches : Touches index hook.timers (hook.timers.setTimeout (hook.now + 300)
        (.flush index)) := .setTimeout rfl
    refine sound.update running touches rfl ?_ current fun _ _ => .rfl
    have one : (hook.timers.setTimeout (hook.now + 300) (.flush index)).of (.flush index) =
        [⟨hook.timers.next, hook.now + 300, .flush index⟩] := by
      rw [Timers.of_setTimeout_self]
      cases keeps.flushing with
      | idle _ _ none => rw [none]; rfl
      | armed _ _ here _ => rw [held] at here; cases here
      | finished cancelled _ => rw [mounted] at cancelled; cases cancelled
    refine keeps.setPending mounted key touches (Timers.of_setTimeout_ne ?_) (.setTimeout _ _ _) rfl one
    exact fun same => by cases same

/-- A mounted run of the effect is still there, and mounted, after `invalidate`. -/
theorem invalidate_mounted (running : hook.effects[index]? = some effect)
    (mounted : effect.cancelled = false) (key : QueryKey) :
    ∃ later, (hook.invalidate index effect key).effects[index]? = some later ∧
      later.cancelled = false := by
  have inside : index < hook.effects.length := (List.getElem?_eq_some_iff.mp running).1
  have still : (effect.setPending key).cancelled = false := by
    rcases setPending_cases effect key with ⟨_, same⟩ | ⟨_, same⟩ <;> rw [same] <;> exact mounted
  cases held : effect.flushTimer with
  | some id =>
    simp only [Hook.invalidate, held]
    exact ⟨_, List.getElem?_set_self inside, still⟩
  | none =>
    simp only [Hook.invalidate, held]
    exact ⟨_, List.getElem?_set_self inside, still⟩

/-- What every `invalidate` of a mounted run keeps, `onmessage` keeps. -/
theorem invalidateAll_keeps {property : Hook Token → Prop} {keys : List QueryKey}
    (keeps : ∀ (hook : Hook Token) (effect : Effect Token) (key : QueryKey), property hook →
      hook.effects[index]? = some effect → effect.cancelled = false →
      property (hook.invalidate index effect key))
    (running : hook.effects[index]? = some effect) (mounted : effect.cancelled = false)
    (holds : property hook) : property (hook.invalidateAll index keys) := by
  unfold Hook.invalidateAll
  induction keys generalizing hook effect with
  | nil => exact holds
  | cons key rest ih =>
    rw [List.foldl_cons, running]
    obtain ⟨later, stays, still⟩ := invalidate_mounted running mounted key
    exact ih stays still (keeps hook effect key holds running mounted)

theorem onmessage_keeps (property : Hook Token → Prop) (message : Option Ws.Message)
    (keeps : ∀ (hook : Hook Token) (effect : Effect Token) (key : QueryKey), property hook →
      hook.effects[index]? = some effect → effect.cancelled = false →
      property (hook.invalidate index effect key))
    (live : ∀ metricsLive, property { hook with metricsLive })
    (running : hook.effects[index]? = some effect) (mounted : effect.cancelled = false)
    (holds : property hook) : property (hook.onmessage index effect message) := by
  cases message with
  | none => exact holds
  | some message =>
    cases message with
    | metricsTick => exact invalidateAll_keeps keeps running mounted (live _)
    | _ => exact invalidateAll_keeps keeps running mounted holds

/-- The timer which fires was set by the run of the effect for which it is. -/
theorem Hook.Sound.fires (sound : hook.Sound) {id : Nat} {task : Task} {rest : Timers Task}
    (fired : hook.timers.fire hook.now id = some (task, rest)) :
    ({ hook with timers := rest }.runTask task).Sound := by
  obtain ⟨rfl, due, late, armed⟩ := Timers.fire_some fired
  have owned := Timers.owned armed
  have holds : Holds hook.timers task (some id) := fun _ same => Option.some.inj same ▸ owned
  have inside := sound.tasks _ armed
  have touches : Touches task.owner hook.timers (hook.timers.clearTimeout id) :=
    Touches.clear rfl holds
  cases task with
  | connect index =>
    obtain ⟨effect, running⟩ : ∃ effect, hook.effects[index]? = some effect :=
      ⟨_, List.getElem?_eq_getElem inside⟩
    have keeps := sound.effects index effect running
    have member := Timers.mem_of.mpr ⟨armed, rfl⟩
    simp only [Hook.runTask, running]
    cases keeps.standing with
    | connected _ _ _ _ idle => rw [idle] at member; cases member
    | finished _ _ _ _ idle => rw [idle] at member; cases member
    | @waiting number closedAt failures earlier mounted sockets before failed retry held =>
      have same : id = number := by
        rw [retry] at member
        exact congrArg Timer.id (List.mem_singleton.mp member)
      subst same
      have connected : effect.connect = { effect with sockets := .connecting :: effect.sockets } := by
        simp [Effect.connect, mounted]
      rw [connected]
      refine sound.update running touches rfl ⟨?_, ?_, keeps.attempt, ?_, ?_, keeps.distinct⟩
        (sound.current _ effect running) fun _ _ => .rfl
      · refine .connected mounted rfl (by decide) ?_ (Timers.of_eq_nil_of_clear retry)
        rw [sockets]
        intro other member
        rcases List.mem_cons.mp member with rfl | older
        · rfl
        · exact before other older
      · refine keeps.flushing.congr rfl rfl rfl (Timers.of_clearTimeout_ne owned.2 ?_)
        exact fun same => by cases same
      · exact keeps.retryTimeout.touches touches
      · exact keeps.flushTimer.touches touches
  | flush index =>
    obtain ⟨effect, running⟩ : ∃ effect, hook.effects[index]? = some effect :=
      ⟨_, List.getElem?_eq_getElem inside⟩
    have keeps := sound.effects index effect running
    have member := Timers.mem_of.mpr ⟨armed, rfl⟩
    simp only [Hook.runTask, running]
    refine sound.update running touches rfl ⟨?_, ?_, keeps.attempt, ?_, ?_, List.nodup_nil⟩
      (sound.current _ effect running) fun _ _ => .rfl
    · refine keeps.standing.congr rfl rfl rfl rfl (Timers.of_clearTimeout_ne owned.2 ?_)
      exact fun same => by cases same
    · cases keeps.flushing with
      | idle _ _ none => rw [none] at member; cases member
      | finished _ none => rw [none] at member; cases member
      | @armed number due mounted asked held one =>
        have same : id = number := by
          rw [one] at member
          exact congrArg Timer.id (List.mem_singleton.mp member)
        subst same
        exact .idle rfl rfl (Timers.of_eq_nil_of_clear one)
    · exact keeps.retryTimeout.touches touches
    · exact fun _ same => by cases same

theorem Hook.Sound.cleanup (sound : hook.Sound) (running : hook.effects[index]? = some effect)
    (mounted : hook.current = some index) : (hook.cleanup index effect).Sound := by
  have keeps := sound.effects index effect running
  have first : Touches index hook.timers (hook.timers.clear effect.retryTimeout) :=
    .clear rfl keeps.retryTimeout
  have touches : Touches index hook.timers
      ((hook.timers.clear effect.retryTimeout).clear effect.flushTimer) :=
    first.trans (.clear rfl (keeps.flushTimer.touches first))
  have closed : ∀ {socket : ReadyState} {earlier : List ReadyState},
      effect.sockets = socket :: earlier →
      effect.sockets.modifyHead ReadyState.close = socket.close :: earlier :=
    fun sockets => (congrArg (List.modifyHead ReadyState.close) sockets).trans rfl
  refine sound.update running touches rfl ⟨?_, ?_, ?_, ?_, ?_, keeps.distinct⟩ ?_ ?_
  · cases keeps.standing with
    | @connected socket _ _ sockets _ before idle =>
      have dead : socket.close.isLive = false := by cases socket <;> rfl
      exact .finished rfl (closed sockets) dead before (Timers.of_clear_nil _ (Timers.of_clear_nil _ idle))
    | waiting _ sockets before _ retry held =>
      exact .finished rfl (closed sockets) rfl before (Timers.of_clear_nil _ (Timers.of_clear_armed held retry))
    | @finished socket _ _ sockets _ before idle =>
      have dead : socket.close.isLive = false := by cases socket <;> rfl
      exact .finished rfl (closed sockets) dead before (Timers.of_clear_nil _ (Timers.of_clear_nil _ idle))
  · refine .finished rfl ?_
    have same : (hook.timers.clear effect.retryTimeout).of (.flush index) =
        hook.timers.of (.flush index) := by
      cases held : effect.retryTimeout with
      | none => rfl
      | some id =>
        refine Timers.of_clearTimeout_ne (keeps.retryTimeout id held).2 ?_
        exact fun same => by cases same
    cases keeps.flushing with
    | idle _ _ none => exact Timers.of_clear_nil _ (same.trans none)
    | armed _ _ held one => exact Timers.of_clear_armed held (same.trans one)
    | finished _ none => exact Timers.of_clear_nil _ (same.trans none)
  · exact fun mounted => by cases mounted
  · exact keeps.retryTimeout.touches touches
  · exact keeps.flushTimer.touches touches
  · simp [Hook.cleanup, Hook.setEffect]
  · intro other different
    rw [mounted]
    exact ⟨fun none => (by cases none), fun same => absurd (Option.some.inj same).symm different⟩

theorem Hook.Sound.cleanupCurrent (sound : hook.Sound) :
    hook.cleanupCurrent.Sound ∧ hook.cleanupCurrent.current = none := by
  unfold Hook.cleanupCurrent
  cases mounted : hook.current with
  | none => exact ⟨sound, mounted⟩
  | some index =>
    obtain ⟨effect, running⟩ : ∃ effect, hook.effects[index]? = some effect :=
      ⟨_, List.getElem?_eq_getElem (sound.mounted index mounted)⟩
    simp only [running]
    exact ⟨sound.cleanup running mounted, rfl⟩

/-- A run of the effect was there, or is the new one. -/
theorem concat_cases {effects : List (Effect Token)} {fresh found : Effect Token}
    (here : (effects ++ [fresh])[index]? = some found) :
    effects[index]? = some found ∨ index = effects.length ∧ found = fresh := by
  rcases Nat.lt_trichotomy index effects.length with below | same | above
  · rw [List.getElem?_append_left below] at here
    exact .inl here
  · subst same
    rw [List.getElem?_concat_length] at here
    exact .inr ⟨rfl, (Option.some.inj here).symm⟩
  · rw [List.getElem?_eq_none (by rw [List.length_append]; exact above)] at here
    cases here

theorem Hook.Sound.runEffect (sound : hook.Sound) (idle : hook.current = none)
    (projectId : Option Uuid) (accessToken : Option Token) :
    (hook.runEffect projectId accessToken).Sound := by
  unfold Hook.runEffect
  split
  · rename_i projectId accessToken
    have none : ∀ task : Task, task.owner = hook.effects.length → hook.timers.of task = [] := by
      intro task fresh
      refine List.eq_nil_iff_forall_not_mem.mpr fun timer member => ?_
      obtain ⟨armed, same⟩ := Timers.mem_of.mp member
      have below := sound.tasks timer armed
      rw [same, fresh] at below
      exact Nat.lt_irrefl _ below
    refine ⟨?_, ?_, ?_, ?_⟩
    · intro index found here
      rcases concat_cases here with old | ⟨rfl, rfl⟩
      · exact sound.effects index found old
      · refine ⟨.connected rfl rfl (by decide) (fun _ member => by cases member) (none _ rfl),
          .idle rfl rfl (none _ rfl), fun _ => rfl, ?_, ?_, List.nodup_nil⟩
        · exact fun _ same => by cases same
        · exact fun _ same => by cases same
    · intro index found here
      rcases concat_cases here with old | ⟨rfl, rfl⟩
      · have before := sound.current index found old
        have below : index < hook.effects.length := (List.getElem?_eq_some_iff.mp old).1
        rw [idle] at before
        constructor
        · intro mounted
          cases before.mp mounted
        · intro same
          exact absurd (Option.some.inj same) (Nat.ne_of_gt below)
      · exact ⟨fun _ => rfl, fun _ => rfl⟩
    · intro index same
      cases same
      simp
    · intro timer armed
      rw [List.length_append]
      exact Nat.lt_succ_of_lt (sound.tasks timer armed)
  · exact sound

/-- Only the run which is mounted has timers. -/
theorem Hook.Sound.armed_mounted (sound : hook.Sound) {timer : Timer Task}
    (armed : timer ∈ hook.timers.armed) : hook.current = some timer.task.owner := by
  have inside := sound.tasks timer armed
  obtain ⟨effect, running⟩ : ∃ effect, hook.effects[timer.task.owner]? = some effect :=
    ⟨_, List.getElem?_eq_getElem inside⟩
  refine (sound.current _ effect running).mp ?_
  have keeps := sound.effects _ effect running
  have member := Timers.mem_of.mpr ⟨armed, rfl⟩
  cases which : timer.task with
  | connect index =>
    rw [which] at keeps member
    have keeps : effect.Sound hook.timers index := keeps
    cases keeps.standing with
    | connected mounted => exact mounted
    | waiting mounted => exact mounted
    | finished _ _ _ _ idle => rw [idle] at member; cases member
  | flush index =>
    rw [which] at keeps member
    have keeps : effect.Sound hook.timers index := keeps
    cases keeps.flushing with
    | armed mounted => exact mounted
    | idle _ _ none => rw [none] at member; cases member
    | finished _ none => rw [none] at member; cases member

theorem Hook.Sound.step (sound : hook.Sound) {event : Event Token}
    (taken : Live.step hook event = some next) : next.Sound := by
  cases event with
  | elapse duration =>
    cases taken
    exact ⟨sound.effects, sound.current, sound.mounted, sound.tasks⟩
  | render projectId accessToken =>
    cases taken
    obtain ⟨cleaned, idle⟩ := sound.cleanupCurrent
    exact cleaned.runEffect idle projectId accessToken
  | opens index socket =>
    simp only [Live.step] at taken
    split at taken
    · rename_i effect found
      cases taken
      exact sound.opens found
    · cases taken
  | message index socket data =>
    simp only [Live.step] at taken
    split at taken
    · rename_i effect found
      cases taken
      obtain ⟨running, present, keeps⟩ := sound.found found
      refine onmessage_keeps Hook.Sound data ?_ ?_ running (keeps.mounted present rfl) sound
      · exact fun _ _ key sound running mounted => sound.invalidate running mounted key
      · exact fun _ => ⟨sound.effects, sound.current, sound.mounted, sound.tasks⟩
    · cases taken
  | closing index socket =>
    simp only [Live.step] at taken
    split at taken
    · rename_i effect found
      cases taken
      exact sound.closing found
    · cases taken
  | closes index socket failed =>
    simp only [Live.step] at taken
    split at taken
    · cases taken
    · cases taken
    · rename_i effect state unclosed found
      cases taken
      exact sound.closes failed found unclosed
  | fires timer =>
    simp only [Live.step] at taken
    split at taken
    · rename_i task rest fired
      cases taken
      exact sound.fires fired
    · cases taken

end Steps

theorem Hook.Sound.reachable (reachable : machine.Reachable anyStep hook) : hook.Sound := by
  refine reachable.invariant ?_ ?_
  · rintro _ rfl
    refine ⟨?_, ?_, ?_, ?_⟩
    · exact fun _ _ here => by simp at here
    · exact fun _ _ here => by simp at here
    · exact fun _ here => by cases here
    · exact fun _ member => by cases member
  · exact fun state event later sound _ taken => sound.step taken

/-! The badge. -/

/-- The badge shows a connection, or what is left of one: the last thing that has happened to the
sockets of a run is that one opened, and it is not closed. -/
def Hook.Shown (hook : Hook Token) : Prop :=
  hook.connected = true → ∃ effect ∈ hook.effects,
    (∃ openedAt earlier, effect.history = (openedAt, .opened) :: earlier) ∧
      ∃ socket ∈ effect.sockets, socket = .opened ∨ socket = .closing

section Shown

/-- A run of the effect goes on with its sockets, or with one which has opened. -/
theorem Hook.Shown.update (shown : hook.Shown) (running : hook.effects[index]? = some effect)
    (effects : next.effects = hook.effects.set index later)
    (connected : next.connected = hook.connected) (history : later.history = effect.history)
    (sockets : ∀ socket ∈ effect.sockets, socket = .opened ∨ socket = .closing →
      ∃ socket ∈ later.sockets, socket = .opened ∨ socket = .closing) : next.Shown := by
  intro claims
  obtain ⟨found, member, opened, socket, present, left⟩ := shown (connected.symm.trans claims)
  obtain ⟨other, inside, here⟩ := List.mem_iff_getElem.mp member
  rw [effects]
  by_cases same : other = index
  · subst same
    have equal : found = effect := by
      rw [List.getElem?_eq_getElem inside] at running
      exact here.symm.trans (Option.some.inj running)
    obtain ⟨kept, still, stays⟩ := sockets socket (equal ▸ present) left
    refine ⟨later, List.mem_of_getElem? (List.getElem?_set_self inside), ?_, kept, still, stays⟩
    rw [history, ← equal]
    exact opened
  · refine ⟨found, List.mem_iff_getElem?.mpr ⟨other, ?_⟩, opened, socket, present, left⟩
    rw [List.getElem?_set_ne (Ne.symm same), List.getElem?_eq_getElem inside, here]

theorem setPending_kept (effect : Effect Token) (key : QueryKey) :
    (effect.setPending key).sockets = effect.sockets ∧
      (effect.setPending key).history = effect.history := by
  rcases setPending_cases effect key with ⟨_, same⟩ | ⟨_, same⟩ <;> rw [same] <;> exact ⟨rfl, rfl⟩

theorem Hook.Shown.invalidate (shown : hook.Shown) (running : hook.effects[index]? = some effect)
    (key : QueryKey) : (hook.invalidate index effect key).Shown := by
  obtain ⟨kept, history⟩ := setPending_kept effect key
  cases held : effect.flushTimer with
  | some id =>
    simp only [Hook.invalidate, held]
    refine shown.update running rfl rfl history fun socket present left => ⟨socket, ?_, left⟩
    exact kept ▸ present
  | none =>
    simp only [Hook.invalidate, held]
    refine shown.update running rfl rfl history fun socket present left => ⟨socket, ?_, left⟩
    exact kept ▸ present

theorem Hook.Shown.cleanupCurrent (shown : hook.Shown) : hook.cleanupCurrent.Shown := by
  unfold Hook.cleanupCurrent
  split
  · rename_i index mounted
    split
    · rename_i effect running
      refine shown.update running rfl rfl rfl fun socket present left => ?_
      rcases List.mem_iff_getElem?.mp present with ⟨_ | other, here⟩
      · refine ⟨socket.close, ?_, .inr ?_⟩
        · cases sockets : effect.sockets with
          | nil => rw [sockets] at here; cases here
          | cons latest earlier =>
            rw [sockets] at here
            cases here
            simp [Effect.closeSocket, sockets]
        · rcases left with rfl | rfl <;> rfl
      · refine ⟨socket, ?_, left⟩
        cases sockets : effect.sockets with
        | nil => rw [sockets] at here; cases here
        | cons latest earlier =>
          rw [sockets, List.getElem?_cons_succ] at here
          simp [Effect.closeSocket, sockets, List.mem_of_getElem? here]
    · exact shown
  · exact shown

theorem onclose_connected : (hook.onclose index effect).connected = false := by
  unfold Hook.onclose
  split <;> rfl

theorem Hook.Shown.step (shown : hook.Shown) (sound : hook.Sound) {event : Event Token}
    (taken : Live.step hook event = some next) : next.Shown := by
  cases event with
  | elapse duration =>
    cases taken
    exact shown
  | render projectId accessToken =>
    cases taken
    have cleaned := shown.cleanupCurrent
    unfold Hook.runEffect
    split
    · intro claims
      obtain ⟨found, member, open_⟩ := cleaned claims
      exact ⟨found, List.mem_append_left _ member, open_⟩
    · exact cleaned
  | opens index socket =>
    simp only [Live.step] at taken
    split at taken
    · rename_i effect found
      cases taken
      obtain ⟨running, present, _⟩ := sound.found found
      have inside : index < hook.effects.length := (List.getElem?_eq_some_iff.mp running).1
      have first : socket < effect.sockets.length := (List.getElem?_eq_some_iff.mp present).1
      refine fun _ => ⟨_, List.mem_of_getElem? (List.getElem?_set_self inside), ⟨_, _, rfl⟩,
        .opened, ?_, .inl rfl⟩
      exact List.mem_of_getElem? (List.getElem?_set_self first)
    · cases taken
  | message index socket data =>
    simp only [Live.step] at taken
    split at taken
    · rename_i effect found
      cases taken
      obtain ⟨running, present, keeps⟩ := sound.found found
      refine onmessage_keeps Hook.Shown data ?_ (fun _ => shown) running (keeps.mounted present rfl) shown
      exact fun _ _ key shown running _ => shown.invalidate running key
    · cases taken
  | closing index socket =>
    simp only [Live.step] at taken
    split at taken
    · rename_i effect found
      cases taken
      obtain ⟨running, present, _⟩ := sound.found found
      have first : socket < effect.sockets.length := (List.getElem?_eq_some_iff.mp present).1
      refine shown.update running rfl rfl rfl fun _ _ _ => ⟨.closing, ?_, .inr rfl⟩
      exact List.mem_of_getElem? (List.getElem?_set_self first)
    · cases taken
  | closes index socket failed =>
    simp only [Live.step] at taken
    split at taken
    · cases taken
    · cases taken
    · cases taken
      exact fun claims => by rw [onclose_connected] at claims; cases claims
  | fires timer =>
    simp only [Live.step] at taken
    split at taken
    · rename_i task rest fired
      cases taken
      unfold Hook.runTask
      split
      · split
        · rename_i index _ effect running
          have history : effect.connect.history = effect.history := by
            unfold Effect.connect
            split <;> rfl
          refine shown.update running rfl rfl history fun socket present left => ⟨socket, ?_, left⟩
          unfold Effect.connect
          split
          · exact present
          · exact List.mem_cons_of_mem _ present
        · exact shown
      · split
        · rename_i index _ effect running
          exact shown.update running rfl rfl rfl fun socket present left => ⟨socket, present, left⟩
        · exact shown
    · cases taken

end Shown

/-- The hook has one connection. Only the socket of the run which is mounted is connecting or open;
it is not closed, or the next one waits for a timer, the longer the more have closed in a row; no
other run has a timer. -/
theorem one_connection (reachable : machine.Reachable anyStep hook) :
    (∀ (index : Nat) (effect : Effect Token) (socket : Nat) (state : ReadyState),
      hook.effects[index]? = some effect → effect.sockets[socket]? = some state →
      state.isLive = true → hook.current = some index ∧ socket = 0) ∧
    (∀ index, hook.current = some index → ∃ effect, hook.effects[index]? = some effect ∧
      ((∃ socket, effect.sockets[0]? = some socket ∧ socket ≠ .closed ∧
          hook.timers.of (.connect index) = []) ∨
        (∀ socket ∈ effect.sockets, socket = .closed) ∧ ∃ closedAt rest,
          effect.failures = closedAt :: rest ∧
          (hook.timers.of (.connect index)).map Timer.due =
            [closedAt + min (1000 * 2 ^ rest.length) 15000])) ∧
    (∀ timer ∈ hook.timers.armed, hook.current = some timer.task.owner) ∧ hook.Shown := by
  have sound := Hook.Sound.reachable reachable
  refine ⟨?_, ?_, ?_, ?_⟩
  · intro index effect socket state running present live
    have keeps := sound.effects index effect running
    have mounted := (sound.current index effect running).mp (keeps.mounted present live)
    refine ⟨mounted, (keeps.unclosed present fun closed => ?_).1⟩
    rw [closed] at live
    cases live
  · intro index current
    obtain ⟨effect, running⟩ : ∃ effect, hook.effects[index]? = some effect :=
      ⟨_, List.getElem?_eq_getElem (sound.mounted index current)⟩
    refine ⟨effect, running, ?_⟩
    have mounted := (sound.current index effect running).mpr current
    cases (sound.effects index effect running).standing with
    | connected _ sockets unclosed before idle =>
      exact .inl ⟨_, by rw [sockets]; rfl, unclosed, idle⟩
    | waiting _ sockets before failed retry held =>
      refine .inr ⟨?_, _, _, failed, by rw [retry]; rfl⟩
      rw [sockets]
      intro socket member
      rcases List.mem_cons.mp member with rfl | older
      · rfl
      · exact before socket older
    | finished cancelled _ _ _ _ => rw [mounted] at cancelled; cases cancelled
  · exact fun timer => sound.armed_mounted
  · refine (@Machine.Reachable.invariant _ _ _ _ (fun hook => Hook.Sound hook ∧ Hook.Shown hook)
      ?_ ?_ hook reachable).2
    · rintro _ rfl
      exact ⟨Hook.Sound.reachable (.start rfl), fun claims => by cases claims⟩
    · exact fun _ _ _ holds _ taken => ⟨holds.1.step taken, holds.2.step holds.1 taken⟩

/-! What the messages ask for. -/

/-- The key was invalidated since it was asked for, or is pending, and due in time. -/
def Hook.Answers (hook : Hook Token) (ask : Ask) : Prop :=
  (∃ call ∈ hook.invalidated, call.key = ask.key ∧ ask.time ≤ call.time) ∨
    ∃ effect, hook.effects[ask.effect]? = some effect ∧ ask.key ∈ effect.pending ∧
      ∀ timer ∈ hook.timers.of (.flush ask.effect), timer.due ≤ ask.time + 300

/-- A timer which is armed for what is pending is due in time, and not too soon. -/
def Hook.Due (hook : Hook Token) (timer : Timer Task) : Prop :=
  timer.due ≤ hook.now + 300 ∧ ∀ call ∈ hook.invalidated, call.time + 300 ≤ timer.due

structure Hook.Timely (hook : Hook Token) : Prop where
  asks : ∀ ask ∈ hook.asked, ask.time ≤ hook.now
  calls : ∀ call ∈ hook.invalidated, call.time ≤ hook.now
  spaced : hook.invalidated.Pairwise fun later earlier =>
    later.key = earlier.key → earlier.time + 300 ≤ later.time
  due : ∀ index, ∀ timer ∈ hook.timers.of (.flush index), hook.Due timer
  answered : ∀ ask ∈ hook.asked, hook.Answers ask
  justified : ∀ call ∈ hook.invalidated, ∃ ask ∈ hook.asked,
    ask.key = call.key ∧ ask.time ≤ call.time
  wanted : ∀ index effect, hook.effects[index]? = some effect → ∀ key ∈ effect.pending,
    ∃ ask ∈ hook.asked, ask.key = key ∧ ask.effect = index

/-- Nothing is asked for, and nothing is flushed. -/
structure Quiet (hook next : Hook Token) : Prop where
  now : hook.now ≤ next.now
  asked : next.asked = hook.asked
  invalidated : next.invalidated = hook.invalidated
  armed : ∀ index, next.timers.of (.flush index) ⊆ hook.timers.of (.flush index)
  kept : ∀ (index : Nat) (effect : Effect Token), hook.effects[index]? = some effect →
    ∃ later : Effect Token, next.effects[index]? = some later ∧
      later.pending = effect.pending ∧ (effect.cancelled = true → later.cancelled = true)
  made : ∀ (index : Nat) (later : Effect Token), next.effects[index]? = some later →
    later.pending = [] ∨ ∃ effect : Effect Token, hook.effects[index]? = some effect ∧
      later.pending = effect.pending

section Asks

theorem Quiet.trans {last : Hook Token} (first : Quiet hook next) (second : Quiet next last) :
    Quiet hook last where
  now := first.now.trans second.now
  asked := second.asked.trans first.asked
  invalidated := second.invalidated.trans first.invalidated
  armed := fun index _ member => first.armed index (second.armed index member)
  kept := by
    intro index effect running
    obtain ⟨between, stays, same, ended⟩ := first.kept index effect running
    obtain ⟨later, still, equal, finished⟩ := second.kept index between stays
    exact ⟨later, still, equal.trans same, fun cancelled => finished (ended cancelled)⟩
  made := by
    intro index later running
    rcases second.made index later running with empty | ⟨between, before, same⟩
    · exact .inl empty
    · rcases first.made index between before with empty | ⟨effect, earlier, equal⟩
      · exact .inl (same.trans empty)
      · exact .inr ⟨effect, earlier, same.trans equal⟩

theorem Quiet.still (now : hook.now ≤ next.now) (asked : next.asked = hook.asked)
    (invalidated : next.invalidated = hook.invalidated) (timers : next.timers = hook.timers)
    (effects : next.effects = hook.effects) : Quiet hook next where
  now := now
  asked := asked
  invalidated := invalidated
  armed := fun _ => timers ▸ List.Subset.refl _
  kept := fun _ effect running => ⟨effect, effects ▸ running, rfl, id⟩
  made := fun _ later running => .inr ⟨later, effects ▸ running, rfl⟩

theorem Quiet.update (running : hook.effects[index]? = some effect)
    (now : next.now = hook.now) (asked : next.asked = hook.asked)
    (invalidated : next.invalidated = hook.invalidated)
    (effects : next.effects = hook.effects.set index later)
    (pending : later.pending = effect.pending)
    (ended : effect.cancelled = true → later.cancelled = true)
    (armed : ∀ index, next.timers.of (.flush index) ⊆ hook.timers.of (.flush index)) :
    Quiet hook next where
  now := now.ge
  asked := asked
  invalidated := invalidated
  armed := armed
  kept := by
    intro other found here
    rw [effects]
    by_cases same : other = index
    · subst same
      cases running.symm.trans here
      exact ⟨later, List.getElem?_set_self (List.getElem?_eq_some_iff.mp here).1, pending, ended⟩
    · exact ⟨found, by rwa [List.getElem?_set_ne (Ne.symm same)], rfl, id⟩
  made := by
    intro other found here
    rw [effects] at here
    by_cases same : other = index
    · subst same
      rw [List.getElem?_set_self (List.getElem?_eq_some_iff.mp running).1] at here
      cases here
      exact .inr ⟨effect, running, pending⟩
    · rw [List.getElem?_set_ne (Ne.symm same)] at here
      exact .inr ⟨found, here, rfl⟩

theorem Hook.Timely.quiet (timely : hook.Timely) (quiet : Quiet hook next) : next.Timely where
  asks := fun ask member => (timely.asks ask (quiet.asked ▸ member)).trans quiet.now
  calls := fun call member => (timely.calls call (quiet.invalidated ▸ member)).trans quiet.now
  spaced := quiet.invalidated ▸ timely.spaced
  due := by
    intro index timer member
    obtain ⟨soon, apart⟩ := timely.due index timer (quiet.armed index member)
    exact ⟨soon.trans (Nat.add_le_add_right quiet.now 300), quiet.invalidated ▸ apart⟩
  answered := by
    intro ask member
    rcases timely.answered ask (quiet.asked ▸ member) with called | ⟨effect, running, pending, due⟩
    · exact .inl (quiet.invalidated ▸ called)
    · obtain ⟨later, stays, same, _⟩ := quiet.kept _ effect running
      exact .inr ⟨later, stays, same ▸ pending, fun timer here => due timer (quiet.armed _ here)⟩
  justified := by
    rw [quiet.invalidated, quiet.asked]
    exact timely.justified
  wanted := by
    intro index later running key pending
    rw [quiet.asked]
    rcases quiet.made index later running with empty | ⟨effect, before, same⟩
    · rw [empty] at pending
      cases pending
    · exact timely.wanted index effect before key (same ▸ pending)

/-- A key is asked for, and pending from then on. -/
theorem Hook.Timely.ask (timely : hook.Timely) (running : hook.effects[index]? = some effect)
    (key : QueryKey) (now : next.now = hook.now)
    (asked : next.asked = ⟨index, hook.now, key⟩ :: hook.asked)
    (invalidated : next.invalidated = hook.invalidated)
    (effects : next.effects = hook.effects.set index later)
    (pending : ∀ other, other ∈ later.pending ↔ other ∈ effect.pending ∨ other = key)
    (due : ∀ timer ∈ next.timers.of (.flush index), hook.Due timer)
    (before : effect.pending = [] ∨
      next.timers.of (.flush index) = hook.timers.of (.flush index))
    (others : ∀ other, other ≠ index →
      next.timers.of (.flush other) = hook.timers.of (.flush other)) : next.Timely := by
  have inside : index < hook.effects.length := (List.getElem?_eq_some_iff.mp running).1
  have stays : next.effects[index]? = some later := by
    rw [effects, List.getElem?_set_self inside]
  have elsewhere : ∀ other, other ≠ index → next.effects[other]? = hook.effects[other]? := by
    intro other different
    rw [effects, List.getElem?_set_ne different.symm]
  refine ⟨?_, ?_, invalidated ▸ timely.spaced, ?_, ?_, ?_, ?_⟩
  · rw [asked, now]
    intro ask member
    rcases List.mem_cons.mp member with rfl | old
    · exact le_rfl
    · exact timely.asks ask old
  · rw [invalidated, now]
    exact timely.calls
  · intro other timer member
    unfold Hook.Due
    rw [now, invalidated]
    by_cases same : other = index
    · exact due timer (same ▸ member)
    · exact timely.due other timer (others other same ▸ member)
  · rw [asked]
    intro ask member
    unfold Hook.Answers
    rw [invalidated]
    rcases List.mem_cons.mp member with rfl | old
    · exact .inr ⟨later, stays, (pending key).mpr (.inr rfl), fun timer here => (due timer here).1⟩
    · rcases timely.answered ask old with called | ⟨found, here, waiting, soon⟩
      · exact .inl called
      · by_cases same : ask.effect = index
        · subst same
          cases running.symm.trans here
          refine .inr ⟨later, stays, (pending _).mpr (.inl waiting), ?_⟩
          rcases before with empty | unmoved
          · rw [empty] at waiting
            cases waiting
          · exact unmoved ▸ soon
        · refine .inr ⟨found, (elsewhere _ same).trans here, waiting, ?_⟩
          exact others _ same ▸ soon
  · rw [invalidated, asked]
    intro call member
    obtain ⟨ask, old, reason⟩ := timely.justified call member
    exact ⟨ask, List.mem_cons_of_mem _ old, reason⟩
  · rw [asked]
    intro other found here wanted waiting
    by_cases same : other = index
    · subst same
      cases stays.symm.trans here
      rcases (pending wanted).mp waiting with old | rfl
      · obtain ⟨ask, member, reason⟩ := timely.wanted _ effect running wanted old
        exact ⟨ask, List.mem_cons_of_mem _ member, reason⟩
      · exact ⟨_, List.mem_cons_self, rfl, rfl⟩
    · obtain ⟨ask, member, reason⟩ :=
        timely.wanted other found ((elsewhere other same).symm.trans here) wanted waiting
      exact ⟨ask, List.mem_cons_of_mem _ member, reason⟩

theorem Hook.Timely.invalidate (timely : hook.Timely) (sound : hook.Sound)
    (running : hook.effects[index]? = some effect) (mounted : effect.cancelled = false)
    (key : QueryKey) : (hook.invalidate index effect key).Timely := by
  have keeps := sound.effects index effect running
  cases held : effect.flushTimer with
  | some id =>
    simp only [Hook.invalidate, held]
    exact timely.ask running key rfl rfl rfl rfl (fun _ => mem_setPending) (timely.due index)
      (.inr rfl) fun _ _ => rfl
  | none =>
    simp only [Hook.invalidate, held]
    have empty : effect.pending = [] ∧ hook.timers.of (.flush index) = [] := by
      cases keeps.flushing with
      | idle empty _ none => exact ⟨empty, none⟩
      | armed _ _ here _ => rw [held] at here; cases here
      | finished cancelled _ => rw [mounted] at cancelled; cases cancelled
    refine timely.ask running key rfl rfl rfl rfl (fun _ => mem_setPending) ?_ (.inl empty.1) ?_
    · intro timer member
      have alone : timer ∈ (hook.timers.setTimeout (hook.now + 300) (.flush index)).of
          (.flush index) := member
      rw [Timers.of_setTimeout_self, empty.2] at alone
      cases List.mem_singleton.mp alone
      exact ⟨le_rfl, fun call called => Nat.add_le_add_right (timely.calls call called) 300⟩
    · intro other different
      refine Timers.of_setTimeout_ne fun same => different ?_
      exact Task.flush.inj same

/-- The timer fires: all which is pending is invalidated, no sooner than 300 ms after the last
time. -/
theorem Hook.Timely.flush (timely : hook.Timely) (sound : hook.Sound) {id due : Nat}
    (late : due ≤ hook.now) (armed : ⟨id, due, .flush index⟩ ∈ hook.timers.armed)
    (running : hook.effects[index]? = some effect) :
    ({ hook with timers := hook.timers.clearTimeout id }.flush index effect).Timely := by
  have keeps := sound.effects index effect running
  have member := Timers.mem_of.mpr ⟨armed, rfl⟩
  have apart : ∀ call ∈ hook.invalidated, call.time + 300 ≤ hook.now :=
    fun call called => ((timely.due index _ member).2 call called).trans late
  have inside : index < hook.effects.length := (List.getElem?_eq_some_iff.mp running).1
  have alone : ∀ other, (hook.timers.clearTimeout id).of (.flush other) = [] := by
    intro other
    rw [Timers.of_clearTimeout, List.filter_eq_nil_iff]
    intro timer here
    obtain ⟨still, task⟩ := Timers.mem_of.mp here
    have same : other = index := by
      have first := sound.armed_mounted still
      rw [task] at first
      exact Option.some.inj (first.symm.trans (sound.armed_mounted armed))
    subst same
    cases keeps.flushing with
    | idle _ _ none => rw [none] at here; cases here
    | finished _ none => rw [none] at here; cases here
    | armed _ _ _ one =>
      rw [one] at here member
      cases List.mem_singleton.mp here
      have number := congrArg Timer.id (List.mem_singleton.mp member)
      simpa using number.symm
  have stays : ({ hook with timers := hook.timers.clearTimeout id }.flush index effect).effects =
      hook.effects.set index { effect with flushTimer := none, pending := [] } := rfl
  have calls : ∀ call, call ∈ ({ hook with
      timers := hook.timers.clearTimeout id }.flush index effect).invalidated ↔
      (call.time = hook.now ∧ call.key ∈ effect.pending) ∨ call ∈ hook.invalidated := by
    intro call
    simp only [Hook.flush, Hook.setEffect, List.mem_append, List.mem_reverse, List.mem_map]
    refine or_congr_left ⟨?_, ?_⟩
    · rintro ⟨key, pending, rfl⟩
      exact ⟨rfl, pending⟩
    · rintro ⟨here, pending⟩
      exact ⟨call.key, pending, by rw [← here]⟩
  refine ⟨timely.asks, ?_, ?_, ?_, ?_, ?_, ?_⟩
  · intro call called
    rcases (calls call).mp called with ⟨here, _⟩ | old
    · exact here.le
    · exact timely.calls call old
  · refine List.pairwise_append.mpr ⟨?_, timely.spaced, ?_⟩
    · rw [List.pairwise_reverse, List.pairwise_map]
      exact keeps.distinct.imp fun different same => absurd same.symm different
    · intro call made earlier old _
      obtain ⟨key, _, rfl⟩ := List.mem_map.mp (List.mem_reverse.mp made)
      exact apart earlier old
  · intro other timer here
    have none : timer ∈ (hook.timers.clearTimeout id).of (.flush other) := here
    rw [alone] at none
    cases none
  · intro ask asked
    rcases timely.answered ask asked with ⟨call, called, reason⟩ | ⟨found, here, waiting, _⟩
    · exact .inl ⟨call, (calls call).mpr (.inr called), reason⟩
    · by_cases same : ask.effect = index
      · subst same
        cases running.symm.trans here
        exact .inl ⟨⟨hook.now, ask.key⟩, (calls _).mpr (.inl ⟨rfl, waiting⟩), rfl,
          timely.asks ask asked⟩
      · refine .inr ⟨found, ?_, waiting, fun timer here => ?_⟩
        · rw [stays, List.getElem?_set_ne (Ne.symm same)]
          exact here
        · have none : timer ∈ (hook.timers.clearTimeout id).of (.flush ask.effect) := here
          rw [alone] at none
          cases none
  · intro call called
    rcases (calls call).mp called with ⟨time, pending⟩ | old
    · obtain ⟨ask, asked, same, _⟩ := timely.wanted index effect running call.key pending
      exact ⟨ask, asked, same, time ▸ timely.asks ask asked⟩
    · exact timely.justified call old
  · intro other found here key waiting
    rw [stays] at here
    by_cases same : other = index
    · subst same
      rw [List.getElem?_set_self inside] at here
      cases here
      cases waiting
    · rw [List.getElem?_set_ne (Ne.symm same)] at here
      exact timely.wanted other found here key waiting

theorem quiet_cleanup (hook : Hook Token) : Quiet hook hook.cleanupCurrent := by
  unfold Hook.cleanupCurrent
  split
  · rename_i index mounted
    split
    · rename_i effect running
      refine .update running rfl rfl rfl rfl rfl (fun _ => rfl) fun index timer member => ?_
      obtain ⟨armed, same⟩ := Timers.mem_of.mp member
      exact Timers.mem_of.mpr ⟨Timers.clear_subset _ (Timers.clear_subset _ armed), same⟩
    · exact .still le_rfl rfl rfl rfl rfl
  · exact .still le_rfl rfl rfl rfl rfl

theorem quiet_runEffect (hook : Hook Token) (projectId : Option Uuid) (accessToken : Option Token) :
    Quiet hook (hook.runEffect projectId accessToken) := by
  unfold Hook.runEffect
  split
  · refine ⟨le_rfl, rfl, rfl, fun _ => List.Subset.refl _, ?_, ?_⟩
    · intro index effect running
      have inside := (List.getElem?_eq_some_iff.mp running).1
      exact ⟨effect, (List.getElem?_append_left inside).trans running, rfl, id⟩
    · intro index later running
      rcases concat_cases running with old | ⟨_, rfl⟩
      · exact .inr ⟨later, old, rfl⟩
      · exact .inl rfl
  · exact .still le_rfl rfl rfl rfl rfl

theorem quiet_onclose (running : hook.effects[index]? = some effect) (closed : Effect Token)
    (pending : closed.pending = effect.pending) (same : closed.cancelled = effect.cancelled) :
    Quiet hook (hook.onclose index closed) := by
  unfold Hook.onclose
  split
  · exact .update running rfl rfl rfl rfl pending same.trans fun _ => List.Subset.refl _
  · refine .update running rfl rfl rfl rfl pending same.trans fun other timer member => ?_
    have different : Task.flush other ≠ Task.connect index := fun same => by cases same
    have here : timer ∈ (hook.timers.setTimeout _ (.connect index)).of (.flush other) := member
    rw [Timers.of_setTimeout_ne different] at here
    exact here

/-- What a step does with keys: a message to a run asks for some, the timer of a run flushes those
which it has pending, and all else leaves them alone. -/
theorem step_quiet (sound : hook.Sound) {event : Event Token}
    (taken : Live.step hook event = some next) : Quiet hook next ∨
    (∃ index effect data, hook.effects[index]? = some effect ∧ effect.cancelled = false ∧
      next = hook.onmessage index effect data) ∨
    ∃ index effect id due, hook.effects[index]? = some effect ∧ due ≤ hook.now ∧
      ⟨id, due, .flush index⟩ ∈ hook.timers.armed ∧
      next = { hook with timers := hook.timers.clearTimeout id }.flush index effect := by
  cases event with
  | elapse duration =>
    cases taken
    exact .inl (.still (Nat.le_add_right _ _) rfl rfl rfl rfl)
  | render projectId accessToken =>
    cases taken
    exact .inl ((quiet_cleanup hook).trans (quiet_runEffect _ projectId accessToken))
  | opens index socket =>
    simp only [Live.step] at taken
    split at taken
    · rename_i effect found
      cases taken
      obtain ⟨running, _, _⟩ := sound.found found
      exact .inl (.update running rfl rfl rfl rfl rfl id fun _ => List.Subset.refl _)
    · cases taken
  | message index socket data =>
    simp only [Live.step] at taken
    split at taken
    · rename_i effect found
      cases taken
      obtain ⟨running, present, keeps⟩ := sound.found found
      exact .inr (.inl ⟨index, effect, data, running, keeps.mounted present rfl, rfl⟩)
    · cases taken
  | closing index socket =>
    simp only [Live.step] at taken
    split at taken
    · rename_i effect found
      cases taken
      obtain ⟨running, _, _⟩ := sound.found found
      exact .inl (.update running rfl rfl rfl rfl rfl id fun _ => List.Subset.refl _)
    · cases taken
  | closes index socket failed =>
    simp only [Live.step] at taken
    split at taken
    · cases taken
    · cases taken
    · rename_i effect state unclosed found
      cases taken
      obtain ⟨running, _, _⟩ := sound.found found
      exact .inl (quiet_onclose running _ (by split <;> rfl) (by split <;> rfl))
  | fires timer =>
    simp only [Live.step] at taken
    split at taken
    · rename_i task rest fired
      cases taken
      obtain ⟨rfl, due, late, armed⟩ := Timers.fire_some fired
      obtain ⟨effect, running⟩ : ∃ effect, hook.effects[task.owner]? = some effect :=
        ⟨_, List.getElem?_eq_getElem (sound.tasks _ armed)⟩
      cases task with
      | connect index =>
        have running : hook.effects[index]? = some effect := running
        simp only [Hook.runTask, running]
        have same : effect.connect.pending = effect.pending ∧
            effect.connect.cancelled = effect.cancelled := by
          unfold Effect.connect
          split <;> exact ⟨rfl, rfl⟩
        refine .inl (.update running rfl rfl rfl rfl same.1 same.2.trans fun _ => ?_)
        intro other member
        obtain ⟨here, same⟩ := Timers.mem_of.mp member
        exact Timers.mem_of.mpr ⟨(Timers.mem_clearTimeout.mp here).1, same⟩
      | flush index =>
        have running : hook.effects[index]? = some effect := running
        simp only [Hook.runTask, running]
        exact .inr (.inr ⟨index, effect, timer, due, running, late, armed, rfl⟩)
    · cases taken

theorem Hook.Timely.step (timely : hook.Timely) (sound : hook.Sound) {event : Event Token}
    (taken : Live.step hook event = some next) : next.Timely := by
  rcases step_quiet sound taken with quiet | ⟨index, effect, data, running, mounted, rfl⟩ |
    ⟨index, effect, id, due, running, late, armed, rfl⟩
  · exact timely.quiet quiet
  · refine (onmessage_keeps (fun hook => hook.Sound ∧ hook.Timely) data ?_ ?_ running mounted
      ⟨sound, timely⟩).2
    · intro hook effect key holds running mounted
      exact ⟨holds.1.invalidate running mounted key,
        holds.2.invalidate holds.1 running mounted key⟩
    · intro metricsLive
      refine ⟨⟨sound.effects, sound.current, sound.mounted, sound.tasks⟩, timely.quiet ?_⟩
      exact .still le_rfl rfl rfl rfl rfl
  · exact timely.flush sound late armed running

theorem Hook.Timely.reachable (reachable : machine.Reachable anyStep hook) : hook.Timely := by
  refine (@Machine.Reachable.invariant _ _ _ _ (fun hook => Hook.Sound hook ∧ Hook.Timely hook)
    ?_ ?_ hook reachable).2
  · rintro _ rfl
    refine ⟨Hook.Sound.reachable (.start rfl), ⟨?_, ?_, List.Pairwise.nil, ?_, ?_, ?_, ?_⟩⟩
    · exact fun _ member => by cases member
    · exact fun _ member => by cases member
    · exact fun _ _ member => by cases member
    · exact fun _ member => by cases member
    · exact fun _ member => by cases member
    · exact fun _ _ running => by simp at running
  · exact fun _ _ _ holds _ taken => ⟨holds.1.step taken, holds.2.step holds.1 taken⟩

/-- A run which is over still has a key pending, and no timer for it. -/
def Hook.Lost (hook : Hook Token) (index : Nat) (key : QueryKey) : Prop :=
  ∃ effect, hook.effects[index]? = some effect ∧ effect.cancelled = true ∧
    key ∈ effect.pending ∧ hook.timers.of (.flush index) = []

theorem Hook.Sound.lost (sound : hook.Sound) (running : hook.effects[index]? = some effect)
    (ended : effect.cancelled = true) {key : QueryKey} (pending : key ∈ effect.pending) :
    hook.Lost index key := by
  refine ⟨effect, running, ended, pending, ?_⟩
  cases (sound.effects index effect running).flushing with
  | idle _ _ none | finished _ none => exact none
  | armed mounted => rw [ended] at mounted; cases mounted

/-- Nothing reaches a run which is over any more: what it has pending stays so. -/
theorem Hook.Lost.step {key : QueryKey} (lost : hook.Lost index key) (sound : hook.Sound)
    {event : Event Token} (taken : Live.step hook event = some next) : next.Lost index key := by
  obtain ⟨effect, running, ended, pending, idle⟩ := lost
  rcases step_quiet sound taken with quiet | ⟨other, found, data, here, mounted, rfl⟩ |
    ⟨other, found, id, due, here, _, armed, rfl⟩
  · obtain ⟨later, stays, same, still⟩ := quiet.kept index effect running
    exact (sound.step taken).lost stays (still ended) (same ▸ pending)
  · have different : other ≠ index := by
      rintro rfl
      cases running.symm.trans here
      rw [ended] at mounted
      cases mounted
    refine (sound.step taken).lost ?_ ended pending
    refine onmessage_keeps (fun hook => hook.effects[index]? = some effect) data ?_ (fun _ => running)
      here mounted running
    intro hook found key running _ _
    refine Eq.trans ?_ running
    cases held : found.flushTimer <;> simp only [Hook.invalidate, held] <;>
      exact List.getElem?_set_ne different
  · have different : other ≠ index := by
      rintro rfl
      have member := Timers.mem_of.mpr ⟨armed, rfl⟩
      rw [idle] at member
      cases member
    refine (sound.step taken).lost ?_ ended pending
    change (hook.effects.set other _)[index]? = some effect
    rw [List.getElem?_set_ne different, running]

theorem Hook.Sound.lost_path (sound : hook.Sound) {key : QueryKey} (lost : hook.Lost index key)
    {later : Hook Token} (path : machine.Path anyStep hook later) : later.Lost index key := by
  refine (@Machine.Path.preserves _ _ _ _ (fun hook => Hook.Sound hook ∧ hook.Lost index key) ?_
    _ _ path ⟨sound, lost⟩).2
  exact fun _ _ _ holds _ taken => ⟨holds.1.step taken, holds.2.step holds.1 taken⟩

theorem invalidate_asks (running : hook.effects[index]? = some effect) (key : QueryKey) :
    (hook.invalidate index effect key).asked = ⟨index, hook.now, key⟩ :: hook.asked ∧
      (hook.invalidate index effect key).now = hook.now ∧
      ∃ later, (hook.invalidate index effect key).effects[index]? = some later := by
  have inside : index < hook.effects.length := (List.getElem?_eq_some_iff.mp running).1
  cases held : effect.flushTimer <;> simp only [Hook.invalidate, held] <;>
    exact ⟨rfl, rfl, _, List.getElem?_set_self inside⟩

/-- Every key of a message is asked for. -/
theorem invalidateAll_asks (running : hook.effects[index]? = some effect) (keys : List QueryKey) :
    hook.asked ⊆ (hook.invalidateAll index keys).asked ∧
      ∀ key ∈ keys, ⟨index, hook.now, key⟩ ∈ (hook.invalidateAll index keys).asked := by
  unfold Hook.invalidateAll
  induction keys generalizing hook effect with
  | nil => exact ⟨List.Subset.refl _, fun _ member => by cases member⟩
  | cons first rest ih =>
    rw [List.foldl_cons, running]
    obtain ⟨asked, now, later, stays⟩ := invalidate_asks running first
    obtain ⟨grown, others⟩ := ih stays
    rw [now] at others
    dsimp only
    constructor
    · exact fun ask old => grown (asked ▸ List.mem_cons_of_mem _ old)
    · intro key member
      rcases List.mem_cons.mp member with rfl | other
      · exact grown (asked ▸ List.mem_cons_self)
      · exact others key other

theorem step_asks {socket : Nat} {message : Ws.Message}
    (taken : step hook (.message index socket (some message)) = some next) :
    ∀ key ∈ queryKeys message, ⟨index, hook.now, key⟩ ∈ next.asked := by
  simp only [Live.step] at taken
  split at taken
  · rename_i effect found
    obtain ⟨here, running, mapped⟩ := Option.bind_eq_some_iff.mp found
    obtain ⟨_, _, same⟩ := Option.map_eq_some_iff.mp mapped
    cases same
    cases taken
    cases message with
    | metricsTick =>
      simp only [Hook.onmessage]
      exact (invalidateAll_asks (by exact running) _).2
    | _ => exact (invalidateAll_asks running _).2
  · cases taken

end Asks

section Runs

/-- A socket opens, two messages come at once, their keys are flushed, the socket closes, the next
one waits a second, and the effect runs anew with a fresh token while it is open. -/
def reconnecting : List (Event Nat) :=
  [.render (some 1) (some 7), .elapse 10, .opens 0 0,
    .message 0 0 (some (.jobUpdated 5 .running 2)), .message 0 0 (some (.jobUpdated 5 .completed 2)),
    .elapse 300, .fires 0, .closes 0 0 true, .elapse 1000, .fires 1, .opens 0 0,
    .message 0 0 (some (.jobUpdated 6 .queued 2)), .render (some 1) (some 8)]

theorem one_connection_reconnecting : ∃ hook : Hook Nat, hook.current = some 0 ∧
    hook.timers.armed.map Timer.due = [1310] ∧
    ∀ timer ∈ hook.timers.armed, hook.current = some timer.task.owner := by
  have ran : (machine.run anyStep {} (reconnecting.take 8)).any (fun hook =>
      hook.current = some 0 && hook.timers.armed.map Timer.due = [1310]) = true := by
    decide +kernel
  obtain ⟨hook, reachable, passes⟩ :=
    Machine.reachable_of_check (by exact rfl) (reconnecting.take 8) ran
  rw [Bool.and_eq_true] at passes
  exact ⟨hook, of_decide_eq_true passes.1, of_decide_eq_true passes.2,
    (one_connection reachable).2.2.1⟩

/-- The badge does not show every connection: the socket of the run before closes late, and the new
one is open. -/
example : ((machine.run anyStep {} (reconnecting ++
    [.opens 1 0, .closes 0 0 false])).map fun hook : Hook Nat =>
      (hook.connected, hook.effects.map Effect.sockets)) =
    some (false, [[.closed, .closed], [.opened]]) := by
  decide +kernel

end Runs
end Pulse.Live
