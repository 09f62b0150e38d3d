import Pulse.Library.Timers
import Pulse.Ws.Sockets

/-! `useLiveUpdates` of `lib/ws.ts`: the runs of its effect, on the event loop of one tab. The
sockets do what those of a browser do, and the other end sends what it likes. -/
namespace Pulse.Live
open Library Library.Lts
open Ws (Message)

inductive ReadyState where
  | connecting
  | opened
  | closing
  | closed
deriving DecidableEq, Repr

/-- `socket.close()`. -/
def ReadyState.close : ReadyState → ReadyState
  | .connecting | .opened => .closing
  | state => state

def ReadyState.isLive : ReadyState → Bool
  | .connecting | .opened => true
  | .closing | .closed => false

inductive QueryKey where
  | jobs
  | job (id : Uuid)
  | batchProgress
  | workers
  | worker (id : Uuid)
  | queues
  | queueStats (queueId : Uuid)
  | metricsOverview
deriving DecidableEq, Repr

/-- The keys which `onmessage` hands to `invalidate`. -/
def queryKeys : Message → List QueryKey
  | .jobUpdated id _ _ => [.jobs, .job id, .batchProgress]
  | .workerUpdated id _ _ _ => [.workers, .worker id]
  | .queueStats queueId _ _ _ _ => [.queues, .queueStats queueId]
  | .metricsTick _ _ _ => [.metricsOverview]

/-- What a timer runs, and for which run of the effect. -/
inductive Task where
  | connect (effect : Nat)
  | flush (effect : Nat)
deriving DecidableEq, Repr

inductive Happening where
  | opened
  | closed
deriving DecidableEq, Repr

/-- One run of the effect. Of its sockets `socket` is the first here, and the later ones are those
which it held before. `history` is auxiliary: when sockets opened and closed, the last first. -/
structure Effect (Token : Type) where
  projectId : Uuid
  accessToken : Token
  cancelled : Bool := false
  sockets : List ReadyState := []
  retryTimeout : Option Nat := none
  attempt : Nat := 0
  pending : List QueryKey := []
  flushTimer : Option Nat := none
  history : List (Nat × Happening) := []
deriving DecidableEq, Repr

/-- A key handed to `invalidate`, by a message to a run of the effect. -/
structure Ask where
  effect : Nat
  time : Nat
  key : QueryKey
deriving DecidableEq, Repr

/-- A call of `queryClient.invalidateQueries`. -/
structure Call where
  time : Nat
  key : QueryKey
deriving DecidableEq, Repr

/-- The runs of the effect, and the one which was not cleaned up; `metricsLive` is what the query
client holds. Auxiliary are the keys asked for and the calls, the last first. -/
structure Hook (Token : Type) where
  now : Nat := 0
  timers : Timers Task := {}
  effects : List (Effect Token) := []
  current : Option Nat := none
  connected : Bool := false
  metricsLive : Uuid → Option Message := fun _ => none
  asked : List Ask := []
  invalidated : List Call := []

/-- An unmount is a render without a project; React may also run the effect anew for nothing. A
message is `none` where it cannot be parsed or has another type. -/
inductive Event (Token : Type) where
  | elapse (duration : Nat)
  | render (projectId : Option Uuid) (accessToken : Option Token)
  | opens (effect socket : Nat)
  | message (effect socket : Nat) (data : Option Message)
  | closing (effect socket : Nat)
  | closes (effect socket : Nat) (failed : Bool)
  | fires (timer : Nat)

section Steps
variable {Token : Type}

def Effect.setSocket (effect : Effect Token) (index : Nat) (state : ReadyState) : Effect Token :=
  { effect with sockets := effect.sockets.set index state }

/-- `socket?.close()`. -/
def Effect.closeSocket (effect : Effect Token) : Effect Token :=
  { effect with sockets := effect.sockets.modifyHead ReadyState.close }

def Effect.log (effect : Effect Token) (now : Nat) (happening : Happening) : Effect Token :=
  { effect with history := (now, happening) :: effect.history }

def Effect.connect (effect : Effect Token) : Effect Token :=
  if effect.cancelled then effect
  else { effect with sockets := .connecting :: effect.sockets }

/-- `pending.set(JSON.stringify(queryKey), queryKey)`. -/
def Effect.setPending (effect : Effect Token) (queryKey : QueryKey) : Effect Token :=
  if queryKey ∈ effect.pending then effect
  else { effect with pending := effect.pending ++ [queryKey] }

namespace Hook
variable (hook : Hook Token)

def setEffect (index : Nat) (effect : Effect Token) : Hook Token :=
  { hook with effects := hook.effects.set index effect }

/-- `flushTimer ??= setTimeout(…, 300)` once the key is pending. -/
def invalidate (index : Nat) (effect : Effect Token) (queryKey : QueryKey) : Hook Token :=
  let asking := { hook with asked := ⟨index, hook.now, queryKey⟩ :: hook.asked }
  match effect.flushTimer with
  | some _ => asking.setEffect index (effect.setPending queryKey)
  | none => { asking with timers := hook.timers.setTimeout (hook.now + 300) (.flush index) }.setEffect
      index { effect.setPending queryKey with flushTimer := some hook.timers.next }

def invalidateAll (index : Nat) (queryKeys : List QueryKey) : Hook Token :=
  queryKeys.foldl (fun hook key => match hook.effects[index]? with
    | some effect => hook.invalidate index effect key
    | none => hook) hook

def onmessage (index : Nat) (effect : Effect Token) : Option Message → Hook Token
  | some (.metricsTick completed failed ts) => { hook with
      metricsLive := Function.update hook.metricsLive effect.projectId
        (some (.metricsTick completed failed ts)) }.invalidateAll index
          (queryKeys (.metricsTick completed failed ts))
  | some message => hook.invalidateAll index (queryKeys message)
  | none => hook

def onopen (index : Nat) (effect : Effect Token) : Hook Token :=
  { hook with connected := true }.setEffect index
    { effect.log hook.now .opened with attempt := 0 }

def onclose (index : Nat) (effect : Effect Token) : Hook Token :=
  if effect.cancelled then { hook with connected := false }.setEffect index effect
  else { hook with
    connected := false
    timers := hook.timers.setTimeout (hook.now + min (1000 * 2 ^ effect.attempt) 15000)
      (.connect index) }.setEffect index
      { effect with attempt := effect.attempt + 1, retryTimeout := some hook.timers.next }

/-- What the flush timer runs. -/
def flush (index : Nat) (effect : Effect Token) : Hook Token :=
  let calls := (effect.pending.map fun key => Call.mk hook.now key).reverse
  { hook with invalidated := calls ++ hook.invalidated }.setEffect index
    { effect with flushTimer := none, pending := [] }

/-- What the effect returns. -/
def cleanup (index : Nat) (effect : Effect Token) : Hook Token :=
  { hook with
    current := none
    timers := (hook.timers.clear effect.retryTimeout).clear effect.flushTimer }.setEffect index
      { effect.closeSocket with cancelled := true }

def cleanupCurrent : Hook Token :=
  match hook.current with
  | some index => match hook.effects[index]? with
    | some effect => hook.cleanup index effect
    | none => hook
  | none => hook

/-- The body of the effect. -/
def runEffect : Option Uuid → Option Token → Hook Token
  | some projectId, some accessToken => { hook with
      current := some hook.effects.length
      effects := hook.effects ++ [Effect.connect { projectId, accessToken }] }
  | _, _ => hook

def socket (index socket : Nat) : Option (Effect Token × ReadyState) :=
  hook.effects[index]?.bind fun effect => effect.sockets[socket]?.map fun state => (effect, state)

/-- What a timer which fires runs. -/
def runTask : Task → Hook Token
  | .connect index => match hook.effects[index]? with
    | some effect => hook.setEffect index effect.connect
    | none => hook
  | .flush index => match hook.effects[index]? with
    | some effect => hook.flush index effect
    | none => hook

end Hook

def step (hook : Hook Token) : Event Token → Option (Hook Token)
  | .elapse duration => some { hook with now := hook.now + duration }
  | .render projectId accessToken => some (hook.cleanupCurrent.runEffect projectId accessToken)
  | .opens index socket => match hook.socket index socket with
    | some (effect, .connecting) => some (hook.onopen index (effect.setSocket socket .opened))
    | _ => none
  | .message index socket data => match hook.socket index socket with
    | some (effect, .opened) => some (hook.onmessage index effect data)
    | _ => none
  | .closing index socket => match hook.socket index socket with
    | some (effect, .opened) => some (hook.setEffect index (effect.setSocket socket .closing))
    | _ => none
  | .closes index socket failed => match hook.socket index socket with
    | some (_, .closed) | none => none
    | some (effect, _) =>
      -- `onerror` comes first where the connection has failed
      let closed := (effect.setSocket socket .closed).log hook.now .closed
      some (hook.onclose index (if failed then closed.closeSocket else closed))
  | .fires timer => match hook.timers.fire hook.now timer with
    | some (task, timers) => some ({ hook with timers }.runTask task)
    | none => none

/-- A tab which has just mounted the hook. -/
def machine : Machine (Hook Token) (Event Token) where
  init := fun hook => hook = {}
  step := step

end Steps
end Pulse.Live
