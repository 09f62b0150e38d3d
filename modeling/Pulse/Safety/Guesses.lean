import Pulse.Login.Step
import Mathlib.Tactic.Linarith

/-! How many passwords can be tried at a login in a window, when requests overlap: each is
tested before it awaits its user's row, and counted after it. -/
namespace Pulse.Login
open Library Library.Lts Library.Window

/-- A failed verification between the times. -/
def Stage.failedWithin (start stop : Time) : Stage → Bool
  | .unauthorized repliedAt => start ≤ repliedAt && repliedAt ≤ stop
  | _ => false

/-- The password is right. -/
def Stage.succeeds (functions : Functions) (password : String) : Stage → Bool
  | .verifying passwordHash => passwordHash.any (functions.verifyPassword password)
  | _ => false

/-- The test is passed, and the verification may still fail. -/
def Stage.pending (functions : Functions) (password : String) : Stage → Bool
  | .lookingUp => true
  | .verifying passwordHash => !passwordHash.any (functions.verifyPassword password)
  | _ => false

def Request.failedWithin (functions : Functions) (key : String) (start stop : Time)
    (request : Request) : Bool :=
  request.key functions = key && request.stage.failedWithin start stop

def Request.pending (functions : Functions) (key : String) (request : Request) : Bool :=
  request.key functions = key && request.stage.pending functions request.password

def failedIn (functions : Functions) (key : String) (process : Process) (start stop : Time) : Nat :=
  process.requests.countP (Request.failedWithin functions key start stop)

def pendingOf (functions : Functions) (key : String) (process : Process) : Nat :=
  process.requests.countP (Request.pending functions key)

/-- In every window at most `max_failures` requests of the key fail, and all others which are
answered are refused with 429. -/
structure Bounded (functions : Functions) (limiter : FailureLimiter) (key : String)
    (process : Process) : Prop where
  window : ∀ start, failedIn functions key process start (start + limiter.windowSec) ≤
    limiter.maxFailures
  others : ∀ request ∈ process.requests, request.key functions = key →
    ∀ repliedAt, request.stage ≠ .granted repliedAt

/-- No login of the key succeeds, and fewer than `max_keys` keys are in use. -/
def Guessing (functions : Functions) (limiter : FailureLimiter) (key : String)
    (process : Process) : Action → Prop
  | .verify index _ => process.usage.failures.size < limiter.maxKeys ∧
      ∀ request ∈ process.requests[index]?, request.key functions = key →
        request.stage.succeeds functions request.password = false
  | .test .. | .lookup .. => True

instance (functions : Functions) (limiter : FailureLimiter) (key : String) (process : Process) :
    (action : Action) → Decidable (Guessing functions limiter key process action)
  | .verify index _ => inferInstanceAs (Decidable (_ ∧ ∀ _ ∈ process.requests[index]?, _ → _))
  | .test .. | .lookup .. => isTrue trivial

/-- A request which passes the test while others of the key may still fail leaves room for
their failures. -/
def Spaced (functions : Functions) (limiter : FailureLimiter) (key : String)
    (process : Process) : Action → Prop
  | .test clientIp email _ now => limiterKey functions clientIp email = key →
      (limiter.isBlocked process.usage.failures key now).1 = false →
        pendingOf functions key process = 0 ∨
          failedIn functions key process (now - limiter.windowSec) now +
            pendingOf functions key process < limiter.maxFailures
  | .lookup .. | .verify .. => True

instance (functions : Functions) (limiter : FailureLimiter) (key : String) (process : Process) :
    (action : Action) → Decidable (Spaced functions limiter key process action)
  | .test .. => inferInstanceAs (Decidable (_ → _ → _ ∨ _))
  | .lookup .. | .verify .. => isTrue trivial

section Requests
variable {functions : Functions} {limiter : FailureLimiter} {key : String}
  {process next origin : Process} {action : Action} {request : Request} {index : Nat}
  {stage : Stage} {now start stop : Time} {passwordHash : Option String}

/-- One request goes on. -/
theorem resume_count (property : Request → Bool) (stage : Stage)
    (found : process.requests[index]? = some request) :
    (process.resume index request stage).requests.countP property + (property request).toNat =
      process.requests.countP property + (property { request with stage }).toNat := by
  obtain ⟨inside, same⟩ := List.getElem?_eq_some_iff.mp found
  have present : property request = true → 0 < process.requests.countP property := fun holds =>
    List.countP_pos_iff.mpr ⟨request, List.mem_of_getElem? found, holds⟩
  have counted := List.countP_set (p := property) (a := { request with stage }) inside
  rw [same] at counted
  change (process.requests.set index _).countP property + _ = _
  rw [counted]
  generalize property { request with stage } = new
  cases kept : property request with
  | true =>
    have positive := present kept
    cases new <;> simp only [if_true, Bool.false_eq_true, if_false, Bool.toNat_true, Bool.toNat_false] <;> omega
  | false =>
    cases new <;> simp only [if_true, Bool.false_eq_true, if_false, Bool.toNat_true, Bool.toNat_false] <;> omega

theorem mem_resume {other : Request} (member : other ∈ (process.resume index request stage).requests) :
    other ∈ process.requests ∨ other = { request with stage } :=
  List.mem_or_eq_of_mem_set member

/-- What a request which goes on changes of another key's. -/
theorem resume_other (property : Request → Bool)
    (found : process.requests[index]? = some request)
    (same : property { request with stage } = property request) :
    (process.resume index request stage).requests.countP property =
      process.requests.countP property := by
  have counted := resume_count property stage found
  rw [same] at counted
  omega

/-- A request counts for its own key only, whatever its stage. -/
theorem failedWithin_other (other : request.key functions ≠ key) :
    Request.failedWithin functions key start stop { request with stage } = false := by
  change (decide (request.key functions = key) && _) = false
  rw [decide_eq_false other, Bool.false_and]

theorem pending_other (other : request.key functions ≠ key) :
    Request.pending functions key { request with stage } = false := by
  change (decide (request.key functions = key) && _) = false
  rw [decide_eq_false other, Bool.false_and]

theorem failedIn_other (found : process.requests[index]? = some request)
    (other : request.key functions ≠ key) :
    failedIn functions key (process.resume index request stage) start stop =
      failedIn functions key process start stop :=
  resume_other _ found ((failedWithin_other other).trans
    (failedWithin_other other).symm)

theorem pendingOf_other (found : process.requests[index]? = some request)
    (other : request.key functions ≠ key) :
    pendingOf functions key (process.resume index request stage) =
      pendingOf functions key process :=
  resume_other _ found ((pending_other other).trans
    (pending_other other).symm)

/-- The limiter is called at the time of the answer, under the request's key. -/
theorem answer_other (other : request.key functions ≠ key) (calls : List LimiterCall) :
    (request.answer functions passwordHash now).1.now = now ∧
      failuresOf key ((request.answer functions passwordHash now).1 :: calls) =
        failuresOf key calls := by
  unfold Request.answer
  split <;> exact ⟨rfl, if_neg other⟩

end Requests

section Bound
variable {functions : Functions} {limiter : FailureLimiter} {key : String}
  {process next origin : Process} {action : Action} {request : Request} {index : Nat}
  {now : Time} {passwordHash : Option String}

/-- The limiter has counted the requests which failed, and there is room for those which may
still fail. -/
structure Guarded (functions : Functions) (limiter : FailureLimiter) (key : String)
    (process : Process) : Prop where
  tracks : Tracks limiter process.usage
  counted : ∀ start stop, failedIn functions key process start stop =
    (failuresOf key process.usage.calls).countP fun time => start ≤ time && time ≤ stop
  room : recent limiter.windowSec (failuresOf key process.usage.calls) process.usage.clock +
    pendingOf functions key process ≤ limiter.maxFailures
  window : ∀ start, ((failuresOf key process.usage.calls).countP fun time =>
    start ≤ time && time ≤ start + limiter.windowSec) ≤ limiter.maxFailures
  others : ∀ request ∈ process.requests, request.key functions = key →
    ∀ repliedAt, request.stage ≠ .granted repliedAt

theorem Guarded.bounded (guarded : Guarded functions limiter key process) :
    Bounded functions limiter key process :=
  ⟨fun start => (guarded.counted start _).trans_le (guarded.window start), guarded.others⟩

/-- A new failure shares its window with recent ones only. -/
theorem window_push {width : ℚ} {times : List Time} {limit : Nat} (room : recent width times now + 1 ≤ limit)
    (window : ∀ start, (times.countP fun time => start ≤ time && time ≤ start + width) ≤ limit)
    (start : Time) :
    ((now :: times).countP fun time => start ≤ time && time ≤ start + width) ≤ limit := by
  rw [List.countP_cons]
  split
  · rename_i inside
    simp only [Bool.and_eq_true, decide_eq_true_eq] at inside
    have fewer : (times.countP fun time => start ≤ time && time ≤ start + width) ≤
        recent width times now := by
      apply List.countP_mono_left
      intro time _ within
      simp only [Bool.and_eq_true, decide_eq_true_eq] at within ⊢
      linarith [within.1, inside.2]
    exact (Nat.add_le_add_right fewer 1).trans room
  · exact window start

/-- A request which finds its key free leaves room for its own failure. -/
theorem Guarded.admits {clientIp : Option String} {email password : String}
    (guarded : Guarded functions limiter key process)
    (spaced : Spaced functions limiter key process (.test clientIp email password now))
    (later : process.usage.clock ≤ now) (own : limiterKey functions clientIp email = key)
    (free : (limiter.isBlocked process.usage.failures key now).1 = false) :
    recent limiter.windowSec (failuresOf key process.usage.calls) now +
      (pendingOf functions key process + 1) ≤ limiter.maxFailures := by
  have past : ∀ time ∈ failuresOf key process.usage.calls, time ≤ now := fun time listed =>
    (guarded.tracks.recorded key time listed).trans later
  have counted : failedIn functions key process (now - limiter.windowSec) now =
      recent limiter.windowSec (failuresOf key process.usage.calls) now := by
    rw [guarded.counted, ← inWindow_eq past]
    rfl
  have few := guarded.tracks.exact key now later
  rw [inWindow_eq past, free] at few
  have fewer : ¬ limiter.maxFailures ≤ recent limiter.windowSec
      (failuresOf key process.usage.calls) now := fun many => Bool.false_ne_true (few.mpr many)
  have space := spaced own free
  rw [counted] at space
  omega

/-- A request with another key, or a blocked one, will not fail under the key. -/
theorem tested_waits {clientIp : Option String} {email password : String}
    (shut : ¬ (limiterKey functions clientIp email = key ∧
      (limiter.isBlocked process.usage.failures key now).1 = false)) :
    (tested clientIp email password (limiter.isBlocked process.usage.failures
      (limiterKey functions clientIp email) now).1 now).pending functions key = false := by
  by_cases own : limiterKey functions clientIp email = key
  · have blocked : (limiter.isBlocked process.usage.failures key now).1 = true := by
      simpa [own] using shut
    simp [Request.pending, tested, own, blocked, Stage.pending]
  · simp [Request.pending, Request.key, tested, own]

theorem Guarded.test {clientIp : Option String} {email password : String}
    (guarded : Guarded functions limiter key process)
    (spaced : Spaced functions limiter key process (.test clientIp email password now))
    (taken : step functions limiter process (.test clientIp email password now) = some next) :
    Guarded functions limiter key next := by
  obtain ⟨usage, called, rfl⟩ := step_test taken
  have spares : KeepsWindow limiter process.usage
      (.isBlocked (limiterKey functions clientIp email) now) := trivial
  have tracks : Tracks limiter usage := guarded.tracks.step spares called
  obtain ⟨later, failures, made, rfl⟩ := usage_step called
  have sooner : recent limiter.windowSec (failuresOf key process.usage.calls) now ≤
      recent limiter.windowSec (failuresOf key process.usage.calls) process.usage.clock :=
    recent_antitone _ later
  have room := guarded.room
  refine ⟨tracks, ?_, ?_, guarded.window, ?_⟩
  · intro start stop
    rw [failedIn, List.countP_append, List.countP_singleton]
    have answered : (tested clientIp email password (limiter.isBlocked process.usage.failures
        (limiterKey functions clientIp email) now).1 now).failedWithin functions key start stop =
          false := by
      unfold Request.failedWithin tested
      split <;> simp [Stage.failedWithin]
    rw [answered]
    exact guarded.counted start stop
  · change recent limiter.windowSec (failuresOf key process.usage.calls) now + _ ≤ _
    rw [pendingOf, List.countP_append, List.countP_singleton]
    change _ + (pendingOf functions key process + _) ≤ _
    by_cases passes : limiterKey functions clientIp email = key ∧
        (limiter.isBlocked process.usage.failures key now).1 = false
    · have space := guarded.admits spaced later passes.1 passes.2
      split <;> omega
    · rw [tested_waits passes]
      simp only [Bool.false_eq_true, if_false]
      omega
  · intro other member
    rcases List.mem_append.mp member with old | new
    · exact guarded.others other old
    · rw [List.mem_singleton.mp new]
      intro _ repliedAt granted
      unfold tested at granted
      dsimp only at granted
      split at granted <;> cases granted

theorem Guarded.lookup (guarded : Guarded functions limiter key process)
    (taken : step functions limiter process (.lookup index passwordHash) = some next) :
    Guarded functions limiter key next := by
  obtain ⟨request, found, waiting, rfl⟩ := step_lookup taken
  refine ⟨guarded.tracks, ?_, ?_, guarded.window, ?_⟩
  · intro start stop
    refine Eq.trans (resume_other _ found ?_) (guarded.counted start stop)
    simp [Request.failedWithin, Request.key, waiting, Stage.failedWithin]
  · have counted := resume_count (Request.pending functions key) (.verifying passwordHash) found
    have fewer : pendingOf functions key (process.resume index request (.verifying passwordHash)) ≤
        pendingOf functions key process := by
      have least : (Request.pending functions key { request with stage := .verifying passwordHash }).toNat ≤
          (Request.pending functions key request).toNat := by
        apply Bool.toNat_le_toNat
        rw [Request.pending, Request.pending, waiting]
        change (decide _ && _) ≤ (decide _ && true)
        rw [Bool.and_true]
        exact Bool.and_le_left _ _
      unfold pendingOf
      omega
    exact (Nat.add_le_add_left fewer _).trans guarded.room
  · intro other member
    rcases mem_resume member with old | rfl
    · exact guarded.others other old
    · intro _ repliedAt granted
      cases granted

/-- A verification of the key which fails. -/
theorem step_fails (found : process.requests[index]? = some request)
    (verifying : request.stage = .verifying passwordHash) (own : request.key functions = key)
    (failed : request.verified functions passwordHash = false)
    (taken : step functions limiter process (.verify index now) = some next) :
    (usageOf limiter).step process.usage (.recordFailure key now) = some next.usage ∧
      next.requests = (process.resume index request (.unauthorized now)).requests := by
  obtain ⟨other, hash, same, waits, usage, called, rfl⟩ := step_verify taken
  cases Option.some.inj (same.symm.trans found)
  cases Stage.verifying.inj (waits.symm.trans verifying)
  have answer : request.answer functions passwordHash now =
      (.recordFailure key now, .unauthorized now) := by
    rw [Request.answer, failed, own]
    rfl
  rw [answer] at called ⊢
  exact ⟨called, rfl⟩

theorem failedIn_fails (found : process.requests[index]? = some request)
    (verifying : request.stage = .verifying passwordHash) (own : request.key functions = key)
    (made : next.requests = (process.resume index request (.unauthorized now)).requests)
    (start stop : Time) : failedIn functions key next start stop =
      failedIn functions key process start stop + if start ≤ now && now ≤ stop then 1 else 0 := by
  have counted := resume_count (Request.failedWithin functions key start stop) (.unauthorized now) found
  have before : request.failedWithin functions key start stop = false := by
    rw [Request.failedWithin, verifying]
    exact Bool.and_false _
  have after : Request.failedWithin functions key start stop { request with stage := .unauthorized now } =
      (start ≤ now && now ≤ stop) := by
    change (decide (request.key functions = key) && _) = _
    rw [decide_eq_true own, Bool.true_and]
    rfl
  rw [before, after, ← made] at counted
  rw [failedIn, failedIn]
  cases inside : (decide (start ≤ now) && decide (now ≤ stop)) <;> rw [inside] at counted <;>
    simpa using counted

theorem pendingOf_fails (found : process.requests[index]? = some request)
    (verifying : request.stage = .verifying passwordHash) (own : request.key functions = key)
    (failed : request.verified functions passwordHash = false)
    (made : next.requests = (process.resume index request (.unauthorized now)).requests) :
    pendingOf functions key next + 1 = pendingOf functions key process := by
  have counted := resume_count (Request.pending functions key) (.unauthorized now) found
  have before : request.pending functions key = true := by
    rw [Request.pending, verifying, decide_eq_true own]
    change (true && !request.verified functions passwordHash) = true
    rw [failed]
    rfl
  have after : Request.pending functions key { request with stage := .unauthorized now } = false :=
    Bool.and_false _
  rw [before, after, ← made] at counted
  exact counted.symm ▸ rfl

theorem Guarded.fails (guarded : Guarded functions limiter key process)
    (fits : process.usage.failures.size < limiter.maxKeys)
    (found : process.requests[index]? = some request)
    (verifying : request.stage = .verifying passwordHash) (own : request.key functions = key)
    (failed : request.verified functions passwordHash = false)
    (taken : step functions limiter process (.verify index now) = some next) :
    Guarded functions limiter key next := by
  obtain ⟨called, made⟩ := step_fails found verifying own failed taken
  have spares : KeepsWindow limiter process.usage (.recordFailure key now) := .inl fits
  have tracks : Tracks limiter next.usage := guarded.tracks.step spares called
  obtain ⟨later, failures, _, usage⟩ := usage_step called
  have later : process.usage.clock ≤ now := later
  have recorded : failuresOf key next.usage.calls = now :: failuresOf key process.usage.calls := by
    rw [usage, failuresOf_record, if_pos rfl]
  have clock : next.usage.clock = now := by
    rw [usage]
    rfl
  have sooner : recent limiter.windowSec (failuresOf key process.usage.calls) now ≤
      recent limiter.windowSec (failuresOf key process.usage.calls) process.usage.clock :=
    recent_antitone _ later
  have fewer := pendingOf_fails found verifying own failed made
  have room := guarded.room
  have one : recent limiter.windowSec [now] now ≤ 1 := List.countP_le_length
  refine ⟨tracks, ?_, ?_, ?_, ?_⟩
  · intro start stop
    rw [failedIn_fails found verifying own made, guarded.counted, recorded, List.countP_cons]
  · rw [recorded, clock, recent_cons now (failuresOf key process.usage.calls)]
    omega
  · rw [recorded]
    exact window_push (by omega) guarded.window
  · intro other member
    rw [made] at member
    rcases mem_resume member with old | rfl
    · exact guarded.others other old
    · intro _ repliedAt granted
      cases granted

/-- A verification of another key. -/
theorem Guarded.elsewhere (guarded : Guarded functions limiter key process)
    (fits : process.usage.failures.size < limiter.maxKeys)
    (found : process.requests[index]? = some request) (other : request.key functions ≠ key)
    (taken : step functions limiter process (.verify index now) = some next) :
    Guarded functions limiter key next := by
  obtain ⟨same, passwordHash, present, _, usage, called, rfl⟩ := step_verify taken
  cases Option.some.inj (present.symm.trans found)
  have spares : KeepsWindow limiter process.usage (request.answer functions passwordHash now).1 := by
    unfold Request.answer
    split
    · trivial
    · exact .inl fits
  have tracks : Tracks limiter usage := guarded.tracks.step spares called
  have answered : (request.answer functions passwordHash now).1.now = now ∧
      failuresOf key ((request.answer functions passwordHash now).1 :: process.usage.calls) =
        failuresOf key process.usage.calls := answer_other other process.usage.calls
  obtain ⟨at_now, uncounted⟩ := answered
  obtain ⟨later, failures, _, rfl⟩ := usage_step called
  rw [at_now] at later
  have sooner : recent limiter.windowSec (failuresOf key process.usage.calls) now ≤
      recent limiter.windowSec (failuresOf key process.usage.calls) process.usage.clock :=
    recent_antitone _ later
  refine ⟨tracks, ?_, ?_, ?_, ?_⟩
  · intro start stop
    change _ = List.countP _ (failuresOf key (_ :: process.usage.calls))
    rw [uncounted, ← guarded.counted start stop]
    exact failedIn_other found other
  · change recent _ (failuresOf key (_ :: process.usage.calls)) _ +
      pendingOf functions key (process.resume index request _) ≤ _
    rw [uncounted, at_now, pendingOf_other found other]
    exact (Nat.add_le_add_right sooner _).trans guarded.room
  · change ∀ start, List.countP _ (failuresOf key (_ :: process.usage.calls)) ≤ _
    rw [uncounted]
    exact guarded.window
  · intro another member own
    rcases mem_resume member with old | rfl
    · exact guarded.others another old own
    · exact absurd own other

theorem Guarded.step (guarded : Guarded functions limiter key process)
    (guessing : Guessing functions limiter key process action)
    (spaced : Spaced functions limiter key process action)
    (taken : Login.step functions limiter process action = some next) :
    Guarded functions limiter key next := by
  cases action with
  | test clientIp email password now => exact guarded.test spaced taken
  | lookup index passwordHash => exact guarded.lookup taken
  | verify index now =>
    obtain ⟨request, passwordHash, found, verifying, _⟩ := step_verify taken
    obtain ⟨fits, wrong⟩ := guessing
    by_cases own : request.key functions = key
    · have failed := wrong request found own
      rw [verifying] at failed
      exact guarded.fails fits found verifying own failed taken
    · exact guarded.elsewhere fits found own taken

theorem initial_guarded (initial : (login functions limiter).init process) :
    Guarded functions limiter key process := by
  obtain ⟨usage, none⟩ := initial
  have never : failuresOf key process.usage.calls = [] := by
    rw [usage.2]
    rfl
  refine ⟨initial_tracks usage, ?_, ?_, ?_, ?_⟩
  · intro start stop
    rw [failedIn, none, never]
    rfl
  · rw [pendingOf, none, never]
    exact Nat.zero_le _
  · rw [never]
    exact fun _ => Nat.zero_le _
  · simp [none]

end Bound
/-! Where there is no room, the requests which overlap can all fail. -/

section Burst
variable {functions : Functions} {limiter : FailureLimiter} {key : String}
  {process next origin : Process} {request : Request} {index : Nat} {now : Time}
  {passwordHash : Option String}

/-- Another failure of the key needs no eviction. -/
def HasRoom (limiter : FailureLimiter) (failures : Failures) (key : String) : Prop :=
  (key ∈ failures.keys ∧ failures.size < limiter.maxKeys) ∨ failures.size + 1 < limiter.maxKeys

theorem HasRoom.fits {failures : Failures} (room : HasRoom limiter failures key) :
    failures.size < limiter.maxKeys := by
  rcases room with ⟨_, fits⟩ | fits <;> omega

theorem HasRoom.record {failures after : Failures} (room : HasRoom limiter failures key)
    (written : limiter.recordFailure failures key now = some after) :
    HasRoom limiter after key := by
  obtain ⟨kept, evicted, rfl⟩ := Option.map_eq_some_iff.mp written
  have same : kept = failures := by
    rcases evict_cases evicted with ⟨_, same⟩ | ⟨_, full, _⟩
    · exact same
    · exact absurd room.fits (not_lt.mpr full)
  cases same
  refine .inl ⟨Dict.mem_keys.mpr ⟨_, Dict.get?_set_self⟩, ?_⟩
  rcases room with ⟨present, fits⟩ | fits
  · exact (prune_set_size present _).trans_lt fits
  · exact (Dict.size_set_le.trans (Nat.add_le_add_right prune_size 1)).trans_lt fits

/-- A request which awaits its verification fails. -/
theorem verify_fails (room : HasRoom limiter process.usage.failures key)
    (path : (login functions limiter).Path (Guessing functions limiter key) origin process)
    (later : process.usage.clock ≤ now) (found : process.requests[index]? = some request)
    (verifying : request.stage = .verifying passwordHash) (own : request.key functions = key)
    (failed : request.verified functions passwordHash = false) :
    ∃ next, (login functions limiter).Path (Guessing functions limiter key) origin next ∧
      next.usage.clock = now ∧ HasRoom limiter next.usage.failures key ∧
      pendingOf functions key next + 1 = pendingOf functions key process ∧
      ∀ start ≤ now, failedIn functions key next start now =
        failedIn functions key process start now + 1 := by
  have positive : 1 ≤ limiter.maxKeys := by
    have fits := room.fits
    omega
  obtain ⟨failures, written⟩ := recordFailure_returns positive process.usage.failures key now
  have called : (usageOf limiter).step process.usage (.recordFailure key now) =
      some { failures, clock := now, calls := .recordFailure key now :: process.usage.calls } := by
    simp only [usageOf, LimiterCall.now, later, if_true, FailureLimiter.call, written,
      Option.map_some]
  have answer : request.answer functions passwordHash now =
      (.recordFailure key now, .unauthorized now) := by
    rw [Request.answer, failed, own]
    rfl
  let next : Process := { process.resume index request (.unauthorized now) with
    usage := { failures, clock := now, calls := .recordFailure key now :: process.usage.calls } }
  have taken : (login functions limiter).step process (.verify index now) = some next := by
    simp only [login, step, found, verifying, answer, called, Option.map_some]
    rfl
  have made : next.requests = (process.resume index request (.unauthorized now)).requests := rfl
  have wrong : ∀ same ∈ process.requests[index]?, same.key functions = key →
      same.stage.succeeds functions same.password = false := by
    intro same listed _
    cases Option.some.inj (listed.symm.trans found)
    rw [verifying]
    exact failed
  have permitted : Guessing functions limiter key process (.verify index now) := ⟨room.fits, wrong⟩
  refine ⟨next, .step path permitted taken, rfl, room.record written,
    pendingOf_fails found verifying own failed made, ?_⟩
  intro start early
  rw [failedIn_fails found verifying own made start now, if_pos (by simpa using early)]

/-- One of the requests which may still fail does. -/
theorem one_fails (room : HasRoom limiter process.usage.failures key)
    (path : (login functions limiter).Path (Guessing functions limiter key) origin process)
    (later : process.usage.clock ≤ now) (some_pending : 0 < pendingOf functions key process) :
    ∃ next, (login functions limiter).Path (Guessing functions limiter key) origin next ∧
      next.usage.clock = now ∧ HasRoom limiter next.usage.failures key ∧
      pendingOf functions key next + 1 = pendingOf functions key process ∧
      ∀ start ≤ now, failedIn functions key next start now =
        failedIn functions key process start now + 1 := by
  obtain ⟨request, member, waits⟩ := List.countP_pos_iff.mp some_pending
  obtain ⟨index, found⟩ := List.mem_iff_getElem?.mp member
  obtain ⟨own, pending⟩ := Bool.and_eq_true_iff.mp waits
  have own : request.key functions = key := of_decide_eq_true own
  cases stage : request.stage with
  | verifying passwordHash =>
    have failed : request.verified functions passwordHash = false := by
      rw [stage] at pending
      exact Bool.not_eq_true' _ ▸ pending
    exact verify_fails room path later found stage own failed
  | lookingUp =>
    -- its row is missing
    have looked : (login functions limiter).step process (.lookup index none) =
        some (process.resume index request (.verifying none)) := by
      simp only [login, step, found, stage, if_true]
    obtain ⟨inside, _⟩ := List.getElem?_eq_some_iff.mp found
    have there : (process.resume index request (.verifying none)).requests[index]? =
        some { request with stage := .verifying none } := by
      exact List.getElem?_set_self inside
    have same : pendingOf functions key (process.resume index request (.verifying none)) =
        pendingOf functions key process := by
      apply resume_other _ found
      rw [Request.pending, Request.pending, stage]
      rfl
    have unfailed : ∀ start, failedIn functions key (process.resume index request (.verifying none))
        start now = failedIn functions key process start now := by
      intro start
      apply resume_other _ found
      rw [Request.failedWithin, Request.failedWithin, stage]
      rfl
    have moved : HasRoom limiter
      (process.resume index request (.verifying none)).usage.failures key := room
    have permitted : Guessing functions limiter key process (.lookup index none) := trivial
    obtain ⟨next, further, clock, kept, fewer, more⟩ :=
      verify_fails moved (.step path permitted looked) later there rfl own rfl
    exact ⟨next, further, clock, kept, fewer.trans same, fun start early =>
      (more start early).trans (by rw [unfailed])⟩
  | tooManyRequests | unauthorized | granted =>
    rw [stage] at pending
    cases pending

/-- All of them fail. -/
theorem all_fail (room : HasRoom limiter process.usage.failures key)
    (path : (login functions limiter).Path (Guessing functions limiter key) origin process)
    (later : process.usage.clock ≤ now) {count : Nat} (waiting : pendingOf functions key process = count) :
    ∃ next, (login functions limiter).Path (Guessing functions limiter key) origin next ∧
      ∀ start ≤ now, failedIn functions key next start now =
        failedIn functions key process start now + count := by
  induction count generalizing process with
  | zero => exact ⟨process, path, fun _ _ => rfl⟩
  | succ count ih =>
    obtain ⟨middle, further, clock, kept, fewer, one⟩ := one_fails room path later (by omega)
    obtain ⟨next, reached, rest⟩ := ih kept further clock.le (by omega)
    refine ⟨next, reached, fun start early => ?_⟩
    rw [rest start early, one start early]
    omega

theorem crowded_of_not_spaced {clientIp : Option String} {email password : String}
    (crowded : ¬ Spaced functions limiter key process (.test clientIp email password now)) :
    limiterKey functions clientIp email = key ∧
      (limiter.isBlocked process.usage.failures key now).1 = false ∧ limiter.maxFailures ≤
        failedIn functions key process (now - limiter.windowSec) now +
          pendingOf functions key process := by
  by_contra spaced
  apply crowded
  intro same free
  by_contra full
  obtain ⟨_, full⟩ := not_or.mp full
  exact spaced ⟨same, free, not_lt.mp full⟩

/-- One more request has passed its test than a window has room for, and they all fail in one. -/
theorem crowded_exceed {clientIp : Option String} {email password : String}
    (width : 0 ≤ limiter.windowSec)
    (room : process.usage.failures.size + 1 < limiter.maxKeys)
    (taken : (login functions limiter).step process (.test clientIp email password now) = some next)
    (free : (limiter.isBlocked process.usage.failures
      (limiterKey functions clientIp email) now).1 = false)
    (full : limiter.maxFailures ≤
      failedIn functions (limiterKey functions clientIp email) process (now - limiter.windowSec) now +
        pendingOf functions (limiterKey functions clientIp email) process) :
    ∃ later, (login functions limiter).Path
      (Guessing functions limiter (limiterKey functions clientIp email)) next later ∧
        ¬ Bounded functions limiter (limiterKey functions clientIp email) later := by
  obtain ⟨usage, called, made⟩ := step_test taken
  obtain ⟨_, failures, pruned, same⟩ := usage_step called
  have requests : next.requests = process.requests ++ [tested clientIp email password false now] := by
    rw [made, free]
  have clock : next.usage.clock = now := by
    rw [made, same]
    rfl
  have moved : HasRoom limiter next.usage.failures (limiterKey functions clientIp email) := by
    rw [made, same, ← Option.some.inj pruned]
    exact .inr ((Nat.add_le_add_right prune_size 1).trans_lt room)
  obtain ⟨later, path, failed⟩ := all_fail moved .refl clock.le rfl
  refine ⟨later, path, fun bounded => ?_⟩
  have window := bounded.window (now - limiter.windowSec)
  rw [sub_add_cancel, failed _ (sub_le_self now width), failedIn, pendingOf, requests,
    List.countP_append, List.countP_append, List.countP_singleton, List.countP_singleton] at window
  have waits : (tested clientIp email password false now).pending functions
      (limiterKey functions clientIp email) = true :=
    Bool.and_eq_true_iff.mpr ⟨decide_eq_true rfl, rfl⟩
  rw [waits] at window
  have full : limiter.maxFailures ≤ process.requests.countP _ + process.requests.countP _ := full
  simp only [if_true] at window
  omega

end Burst

/-- For every key, while no login of it succeeds and fewer than `max_keys` keys are in use: as
long as a request passes its test only where the others which may still fail leave room, every
window has at most `max_failures` failed verifications; where one passes it without, they can
all fail in one window. -/
theorem guesses_bounded (functions : Functions) (limiter : FailureLimiter) (key : String) :
    (∀ process, (login functions limiter).Reachable (fun process action =>
      Guessing functions limiter key process action ∧ Spaced functions limiter key process action)
        process → Bounded functions limiter key process) ∧
    ∀ process next clientIp email password now, 0 ≤ limiter.windowSec →
      (login functions limiter).Reachable (Guessing functions limiter key) process →
      process.usage.failures.size + 1 < limiter.maxKeys →
      (login functions limiter).step process (.test clientIp email password now) = some next →
      ¬ Spaced functions limiter key process (.test clientIp email password now) →
      ∃ later, (login functions limiter).Path (Guessing functions limiter key) next later ∧
        ¬ Bounded functions limiter key later := by
  constructor
  · intro process reachable
    have guarded : Guarded functions limiter key process :=
      reachable.invariant (fun _ initial => initial_guarded initial)
        fun _ _ _ guarded permitted taken => guarded.step permitted.1 permitted.2 taken
    exact guarded.bounded
  · intro process next clientIp email password now width _ room taken crowded
    obtain ⟨rfl, free, full⟩ := crowded_of_not_spaced crowded
    exact crowded_exceed width room taken free full

/-- Passwords are compared as they are. -/
def plain : Functions := { lower := id, verifyPassword := fun password hash => password = hash }

def guess (now : Time) : Action := .test (some "10.0.0.1") "a@b.c" "guess" now

/-- Two requests, one after the other. -/
def oneByOne : List Action := [
  guess 0, .lookup 0 none, .verify 0 1,
  guess 2, .lookup 1 (some "secret"), .verify 1 3]

/-- Eleven requests are tested before the first of them is verified. -/
def overlapping : List Action :=
  List.replicate 11 (guess 0) ++ (List.range 11).map (fun index => .lookup index none) ++
    (List.range 11).map fun index => .verify index 1

theorem guesses_bounded_oneByOne : ∃ process, (login plain loginLimiter).Reachable
      (fun process action => Guessing plain loginLimiter "10.0.0.1|a@b.c" process action ∧
        Spaced plain loginLimiter "10.0.0.1|a@b.c" process action) process ∧
    failedIn plain "10.0.0.1|a@b.c" process 0 300 = 2 ∧
    Bounded plain loginLimiter "10.0.0.1|a@b.c" process := by
  have ran : ((login plain loginLimiter).run (fun process action =>
      Guessing plain loginLimiter "10.0.0.1|a@b.c" process action ∧
        Spaced plain loginLimiter "10.0.0.1|a@b.c" process action) {} oneByOne).any
      (fun process => failedIn plain "10.0.0.1|a@b.c" process 0 300 = 2) = true := by
    decide +kernel
  obtain ⟨process, reachable, failed⟩ :=
    Machine.reachable_of_check (by exact ⟨⟨rfl, rfl⟩, rfl⟩) oneByOne ran
  exact ⟨process, reachable, by simpa using failed, (guesses_bounded ..).1 process reachable⟩

/-- All eleven fail within a window, where ten may. -/
theorem guesses_overlap : ∃ process,
    (login plain loginLimiter).Reachable (Guessing plain loginLimiter "10.0.0.1|a@b.c") process ∧
    failedIn plain "10.0.0.1|a@b.c" process 0 300 = 11 ∧
    ¬ Bounded plain loginLimiter "10.0.0.1|a@b.c" process := by
  have ran : ((login plain loginLimiter).run (Guessing plain loginLimiter "10.0.0.1|a@b.c") {}
      overlapping).any (fun process => failedIn plain "10.0.0.1|a@b.c" process 0 300 = 11) = true := by
    decide +kernel
  obtain ⟨process, reachable, failed⟩ :=
    Machine.reachable_of_check (by exact ⟨⟨rfl, rfl⟩, rfl⟩) overlapping ran
  have eleven : failedIn plain "10.0.0.1|a@b.c" process 0 300 = 11 := by simpa using failed
  refine ⟨process, reachable, eleven, fun bounded => ?_⟩
  have window := bounded.window 0
  rw [zero_add, show loginLimiter.windowSec = 300 from rfl, eleven] at window
  exact absurd window (by decide)

end Pulse.Login
