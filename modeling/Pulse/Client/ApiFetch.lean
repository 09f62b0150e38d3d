import Pulse.Tokens.Step

/-! `apiFetch` and `refreshAccessToken` of `lib/api.ts` over `auth-store.ts`, on the event loop of one
tab. A step is what runs from one `await` to the next; the network loses what it likes, and the
server of the tokens is at its other end. -/
namespace Pulse.Client
open Library.Lts Pulse.Tokens

def UNAUTHENTICATED_PATHS : List String := ["/auth/login", "/auth/register", "/auth/refresh"]

def isUnauthenticatedEndpoint (path : String) : Bool :=
  UNAUTHENTICATED_PATHS.any fun start => start.toList.isPrefixOf path.toList

/-- The tokens of `AuthState`. -/
structure AuthStore (Token : Type) where
  accessToken : Option Token := none
  refreshToken : Option Token := none
deriving DecidableEq, Repr

/-- What `/auth/login` and `/auth/refresh` answer. -/
structure TokenResponse (Token : Type) where
  accessToken : Token
  refreshToken : Token
deriving DecidableEq, Repr

def AuthStore.setTokens {Token : Type} (tokens : TokenResponse Token) : AuthStore Token where
  accessToken := some tokens.accessToken
  refreshToken := some tokens.refreshToken

def AuthStore.logout {Token : Type} : AuthStore Token where

/-- `res.ok`. -/
def isOk (status : Nat) : Bool := 200 ≤ status && status < 300

/-- Why there is no new token: nothing to refresh, `fetch` has thrown, the endpoint has refused the
token, or something before it has answered with another status. No code reads it. -/
inductive Cause (Token : Type) where
  | noRefreshToken
  | network
  | refused (db : Directory) (now : Time) (token : Token)
  | unavailable (status : Nat)
deriving DecidableEq, Repr

/-- What `refreshAccessToken` returns, or that it throws. -/
inductive Outcome (Token : Type) where
  | token (accessToken : Token)
  | null (cause : Cause Token)
  | thrown
deriving DecidableEq, Repr

/-- A `refreshAccessToken`: in `fetch` before or after the answer, in `res.json()`, at its end, and
settled once its `finally` has run. -/
inductive Refresh (Token : Type) where
  | fetching (refreshToken : Token)
  | answered (response : Except (Cause Token) (TokenResponse Token))
  | reading (tokens : TokenResponse Token)
  | returned (outcome : Outcome Token)
  | settled (outcome : Outcome Token)

def Refresh.isSettled {Token : Type} : Refresh Token → Bool
  | .settled _ => true
  | _ => false

/-- Up to the first `await` of `refreshAccessToken`. -/
def refreshAccessToken {Token : Type} (store : AuthStore Token) : Refresh Token :=
  match store.refreshToken with
  | none => .returned (.null .noRefreshToken)
  | some refreshToken => .fetching refreshToken

inductive Result where
  | json
  | apiError (status : Nat)
  | sessionExpired
  | thrown
deriving DecidableEq, Repr

/-- An `apiFetch` is in `fetch`, in the `await` of a refresh, or done. -/
inductive CallStage where
  | fetching
  | waiting (refresh : Nat)
  | ended (result : Result)
deriving DecidableEq, Repr

/-- `bearers` are the `Authorization` headers of its requests, the last one first, and `joined` is
the refresh which it has waited for. -/
structure Call (Token : Type) where
  path : String
  retry : Bool := true
  stage : CallStage := .fetching
  bearers : List (Option Token)
  joined : Option Nat := none

/-- How a call ends on an answer which starts no refresh. -/
def conclude (status : Nat) (readable : Bool) : Result :=
  if isOk status then if status = 204 || readable then .json else .thrown
  else .apiError status

/-- The store, `refreshPromise` by its number, and the promises of the tab; the responses to its
logins; and, auxiliary, the user whose login was stored last. -/
structure Tab (Token : Type) where
  store : AuthStore Token := {}
  refreshPromise : Option Nat := none
  refreshes : List (Refresh Token) := []
  calls : List (Call Token) := []
  logins : List (Uuid × TokenResponse Token) := []
  owner : Option Uuid := none
  server : Server Token

inductive Event (Token : Type) where
  | server (action : Tokens.Action Token)
  | login (userId : Uuid) (accessAt refreshAt : Time)
  | setTokens (login : Nat)
  | logout
  | reload
  | apiFetch (path : String)
  | respond (call status : Nat) (readable : Bool)
  | fetchThrows (call : Nat)
  | resume (call : Nat)
  | refresh (refresh : Nat) (now accessAt refreshAt : Time)
  | unavailable (refresh status : Nat)
  | refreshThrows (refresh : Nat)
  | respondRefresh (refresh : Nat)
  | json (refresh : Nat) (readable : Bool)
  | finallyRuns (refresh : Nat)

section Steps
variable {Token : Type} (jwt : Jwt Token) (settings : Tokens.Settings)

/-- The two tokens which the server makes at once. -/
def tokenResponse (userId : Uuid) (accessAt refreshAt : Time) : TokenResponse Token where
  accessToken := createToken jwt settings accessAt userId .access
  refreshToken := createToken jwt settings refreshAt userId .refresh

/-- `refreshPromise ??= refreshAccessToken().finally(...)`. -/
def Tab.joinRefresh (tab : Tab Token) : Tab Token × Nat :=
  match tab.refreshPromise with
  | some refresh => (tab, refresh)
  | none => ({ tab with
      refreshPromise := some tab.refreshes.length
      refreshes := tab.refreshes ++ [refreshAccessToken tab.store] }, tab.refreshes.length)

def Tab.setCall (tab : Tab Token) (index : Nat) (call : Call Token) : Tab Token :=
  { tab with calls := tab.calls.set index call }

def Tab.setRefresh (tab : Tab Token) (index : Nat) (refresh : Refresh Token) : Tab Token :=
  { tab with refreshes := tab.refreshes.set index refresh }

/-- A call goes on with the answer to its request. -/
def Tab.respond (tab : Tab Token) (index : Nat) (call : Call Token) (status : Nat)
    (readable : Bool) : Tab Token :=
  if status = 401 ∧ call.retry ∧ !isUnauthenticatedEndpoint call.path then
    let (joined, refresh) := tab.joinRefresh
    joined.setCall index { call with stage := .waiting refresh, joined := some refresh }
  else tab.setCall index { call with stage := .ended (conclude status readable) }

/-- A call goes on with the outcome of the refresh which it waited for. -/
def Tab.resume (tab : Tab Token) (index : Nat) (call : Call Token) : Outcome Token → Tab Token
  | .token _ => tab.setCall index { call with
      retry := false, stage := .fetching, bearers := tab.store.accessToken :: call.bearers }
  | .null _ => tab.setCall index { call with stage := .ended .sessionExpired }
  | .thrown => tab.setCall index { call with stage := .ended .thrown }

/-- What `refresh` answers to the token. -/
def answer (server : Server Token) (token : Token) (now accessAt refreshAt : Time) :
    Except (Cause Token) (TokenResponse Token) :=
  match userOf jwt server.db now token .refresh with
  | .ok user => .ok (tokenResponse jwt settings user.id accessAt refreshAt)
  | .error _ => .error (.refused server.db now token)

/-- Up to the next `await` of a refresh whose request was answered. -/
def Tab.respondRefresh (tab : Tab Token) (index : Nat) :
    Except (Cause Token) (TokenResponse Token) → Tab Token
  | .ok tokens => tab.setRefresh index (.reading tokens)
  | .error cause => { tab with store := .logout, owner := none }.setRefresh index
      (.returned (.null cause))

def Tab.json (tab : Tab Token) (index : Nat) (tokens : TokenResponse Token) : Bool → Tab Token
  | true => { tab with store := .setTokens tokens }.setRefresh index
      (.returned (.token tokens.accessToken))
  | false => tab.setRefresh index (.returned .thrown)

def step (tab : Tab Token) : Event Token → Option (Tab Token)
  | .server action =>
    (Tokens.step jwt settings tab.server action).map fun server => { tab with server }
  | .login userId accessAt refreshAt =>
    (Tokens.step jwt settings tab.server (.login userId accessAt refreshAt)).map fun server =>
      { tab with
        server
        logins := tab.logins ++ [(userId, tokenResponse jwt settings userId accessAt refreshAt)] }
  | .setTokens login => tab.logins[login]?.map fun (userId, tokens) =>
      { tab with store := .setTokens tokens, owner := some userId }
  | .logout => some { tab with store := .logout, owner := none }
  | .reload => some { store := tab.store, owner := tab.owner, server := tab.server }
  | .apiFetch path => some { tab with
      calls := tab.calls ++ [{ path, bearers := [tab.store.accessToken] }] }
  | .respond index status readable => match tab.calls[index]? with
    | some call => if call.stage = .fetching then some (tab.respond index call status readable)
      else none
    | none => none
  | .fetchThrows index => match tab.calls[index]? with
    | some call =>
      if call.stage = .fetching then some (tab.setCall index { call with stage := .ended .thrown })
      else none
    | none => none
  | .resume index => match tab.calls[index]? with
    | some call => match call.stage with
      | .waiting refresh => match tab.refreshes[refresh]? with
        | some (.settled outcome) => some (tab.resume index call outcome)
        | _ => none
      | _ => none
    | none => none
  | .refresh index now accessAt refreshAt => match tab.refreshes[index]? with
    | some (.fetching token) =>
      (Tokens.step jwt settings tab.server (.refresh token now accessAt refreshAt)).map fun server =>
        { tab with server }.setRefresh index
          (.answered (answer jwt settings tab.server token now accessAt refreshAt))
    | _ => none
  | .unavailable index status => match tab.refreshes[index]? with
    | some (.fetching _) =>
      if isOk status then none
      else some (tab.setRefresh index (.answered (.error (.unavailable status))))
    | _ => none
  | .refreshThrows index => match tab.refreshes[index]? with
    | some (.fetching _) | some (.answered _) =>
      some (tab.setRefresh index (.returned (.null .network)))
    | _ => none
  | .respondRefresh index => match tab.refreshes[index]? with
    | some (.answered response) => some (tab.respondRefresh index response)
    | _ => none
  | .json index readable => match tab.refreshes[index]? with
    | some (.reading tokens) => some (tab.json index tokens readable)
    | _ => none
  | .finallyRuns index => match tab.refreshes[index]? with
    | some (.returned outcome) =>
      some { tab.setRefresh index (.settled outcome) with refreshPromise := none }
    | _ => none

def browsing : Machine (Tab Token) (Event Token) where
  init := fun tab => ∃ db, tab = { server := { db } }
  step := step jwt settings

/-- What each step does: on the server and the store; on a call; on a refresh. -/
inductive Taken (tab : Tab Token) : Event Token → Tab Token → Prop where
  | server {action server} (stepped : Tokens.step jwt settings tab.server action = some server) :
      Taken tab (.server action) { tab with server }
  | login {userId accessAt refreshAt server}
      (stepped : Tokens.step jwt settings tab.server (.login userId accessAt refreshAt) = some server) :
      Taken tab (.login userId accessAt refreshAt) { tab with
        server
        logins := tab.logins ++ [(userId, tokenResponse jwt settings userId accessAt refreshAt)] }
  | setTokens {login userId tokens} (answered : tab.logins[login]? = some (userId, tokens)) :
      Taken tab (.setTokens login) { tab with store := .setTokens tokens, owner := some userId }
  | logout : Taken tab .logout { tab with store := .logout, owner := none }
  | reload : Taken tab .reload { store := tab.store, owner := tab.owner, server := tab.server }
  | apiFetch {path} : Taken tab (.apiFetch path)
      { tab with calls := tab.calls ++ [{ path, bearers := [tab.store.accessToken] }] }
  | joins {event index call} (found : tab.calls[index]? = some call) (retries : call.retry = true) :
      Taken tab event
      (tab.joinRefresh.1.setCall index
        { call with stage := .waiting tab.joinRefresh.2, joined := some tab.joinRefresh.2 })
  | ends {event index call result} (found : tab.calls[index]? = some call)
      (other : result ≠ .sessionExpired) :
      Taken tab event (tab.setCall index { call with stage := .ended result })
  | retries {event index call refresh token} (found : tab.calls[index]? = some call)
      (waiting : call.stage = .waiting refresh)
      (settled : tab.refreshes[refresh]? = some (.settled (.token token))) : Taken tab event
      (tab.setCall index { call with
        retry := false, stage := .fetching, bearers := tab.store.accessToken :: call.bearers })
  | expires {event index call refresh cause} (found : tab.calls[index]? = some call)
      (waiting : call.stage = .waiting refresh)
      (settled : tab.refreshes[refresh]? = some (.settled (.null cause))) :
      Taken tab event (tab.setCall index { call with stage := .ended .sessionExpired })
  | serves {index token now accessAt refreshAt server}
      (found : tab.refreshes[index]? = some (.fetching token))
      (stepped : Tokens.step jwt settings tab.server (.refresh token now accessAt refreshAt) = some server) :
      Taken tab (.refresh index now accessAt refreshAt) ({ tab with server }.setRefresh index
        (.answered (answer jwt settings tab.server token now accessAt refreshAt)))
  | unavailable {index status token} (found : tab.refreshes[index]? = some (.fetching token))
      (bad : isOk status = false) : Taken tab (.unavailable index status)
      (tab.setRefresh index (.answered (.error (.unavailable status))))
  | throws {event index refresh} {outcome : Outcome Token}
      (found : tab.refreshes[index]? = some refresh) (unsettled : refresh.isSettled = false)
      (blank : outcome = .thrown ∨ outcome = .null .network) :
      Taken tab event (tab.setRefresh index (.returned outcome))
  | reads {index tokens} (found : tab.refreshes[index]? = some (.answered (.ok tokens))) :
      Taken tab (.respondRefresh index) (tab.setRefresh index (.reading tokens))
  | refused {index cause} (found : tab.refreshes[index]? = some (.answered (.error cause))) :
      Taken tab (.respondRefresh index) ({ tab with store := .logout, owner := none }.setRefresh index
        (.returned (.null cause)))
  | renews {index tokens} (found : tab.refreshes[index]? = some (.reading tokens)) :
      Taken tab (.json index true) ({ tab with store := .setTokens tokens }.setRefresh index
        (.returned (.token tokens.accessToken)))
  | finallyRuns {index outcome} (found : tab.refreshes[index]? = some (.returned outcome)) :
      Taken tab (.finallyRuns index)
        { tab.setRefresh index (.settled outcome) with refreshPromise := none }

theorem step_taken {tab next : Tab Token} {event : Event Token}
    (made : step jwt settings tab event = some next) : Taken jwt settings tab event next := by
  cases event with
  | server | login =>
    obtain ⟨server, stepped, rfl⟩ := Option.map_eq_some_iff.mp made
    constructor
    exact stepped
  | setTokens =>
    obtain ⟨⟨userId, tokens⟩, answered, rfl⟩ := Option.map_eq_some_iff.mp made
    exact .setTokens answered
  | logout | reload | apiFetch =>
    cases Option.some.inj made
    constructor
  | respond index status readable =>
    simp only [step] at made
    split at made
    · rename_i call found
      split at made
      · cases Option.some.inj made
        unfold Tab.respond
        split
        · rename_i renewable
          exact .joins found renewable.2.1
        · refine .ends found ?_
          unfold conclude
          split
          · split <;> simp
          · simp
      · cases made
    · cases made
  | fetchThrows index =>
    simp only [step] at made
    split at made
    · rename_i call found
      split at made
      · cases Option.some.inj made
        exact .ends found (by simp)
      · cases made
    · cases made
  | resume index =>
    simp only [step] at made
    split at made
    · rename_i call found
      split at made
      · rename_i refresh waiting
        split at made
        · rename_i outcome settled
          cases Option.some.inj made
          cases outcome with
          | token => exact .retries found waiting settled
          | null => exact .expires found waiting settled
          | thrown => exact .ends found (by simp)
        · cases made
      · cases made
    · cases made
  | refresh index now accessAt refreshAt =>
    simp only [step] at made
    split at made
    · rename_i token found
      obtain ⟨server, stepped, rfl⟩ := Option.map_eq_some_iff.mp made
      exact .serves found stepped
    · cases made
  | unavailable index status =>
    simp only [step] at made
    split at made
    · rename_i token found
      split at made
      · cases made
      · rename_i bad
        cases Option.some.inj made
        exact .unavailable found (Bool.eq_false_iff.mpr bad)
    · cases made
  | refreshThrows index =>
    simp only [step] at made
    split at made
    · rename_i token found
      cases Option.some.inj made
      exact .throws found rfl (.inr rfl)
    · rename_i response found
      cases Option.some.inj made
      exact .throws found rfl (.inr rfl)
    · cases made
  | respondRefresh index =>
    simp only [step] at made
    split at made
    · rename_i response found
      cases Option.some.inj made
      cases response with
      | ok => exact .reads found
      | error => exact .refused found
    · cases made
  | json index readable =>
    simp only [step] at made
    split at made
    · rename_i tokens found
      cases Option.some.inj made
      cases readable with
      | true => exact .renews found
      | false => exact .throws found rfl (.inl rfl)
    · cases made
  | finallyRuns index =>
    simp only [step] at made
    split at made
    · rename_i outcome found
      cases Option.some.inj made
      exact .finallyRuns found
    · cases made

/-- Of what others send to the server nothing is forged. -/
def Honest (tab : Tab Token) : Event Token → Prop
  | .server action => Unforged jwt tab.server action
  | _ => True

end Steps
end Pulse.Client
