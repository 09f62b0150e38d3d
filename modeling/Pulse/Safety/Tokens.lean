import Pulse.Tokens.Step

/-! Every request which is let in goes back, over refreshes none of which came too late, to a login
of its user. -/
namespace Pulse.Tokens
open Library.Lts

variable {Token : Type} {jwt : Jwt Token} {settings : Settings}

/-- What `get_current_user` and `refresh` answer to a token which the server has made. -/
def judged (settings : Settings) (db : Directory) (now : Time) (expectedType : TokenType)
    (issue : Issue Token) : Except ApiError User :=
  if now < ⌊issue.issuedAt⌋ then .error (.unauthorized "Invalid token")
  else if ⌊issue.issuedAt + settings.expiresDelta issue.tokenType⌋ ≤ now then
    .error (.unauthorized "Token has expired")
  else if issue.tokenType = expectedType then Pulse.getCurrentUser db issue.userId
  else .error (.unauthorized ("Expected a " ++ expectedType.value ++ " token"))

/-- The server's tokens are as it made them, each in a chain from a login. -/
structure Issued (jwt : Jwt Token) (settings : Settings) (server : Server Token)
    (issue : Issue Token) : Prop where
  made : issue.token = createToken jwt settings issue.issuedAt issue.userId issue.tokenType
  below : issue.userId < 2 ^ 128
  chain : Chain settings server issue.userId issue.tokenType issue.issuedAt

/-- A request was let in with an access token of such a chain, before that expired. -/
def Admitted (settings : Settings) (server : Server Token) (userId : Uuid) (now : Time) : Prop :=
  ∃ issuedAt : Time, Chain settings server userId .access issuedAt ∧ ⌊issuedAt⌋ ≤ now ∧
    now < ⌊issuedAt + settings.expiresDelta .access⌋

structure Sound (jwt : Jwt Token) (settings : Settings) (server : Server Token) : Prop where
  issued : ∀ issue ∈ server.issued, Issued jwt settings server issue
  admitted : ∀ entry ∈ server.admitted, Admitted settings server entry.1 entry.2

theorem TokenType.value_inj {first second : TokenType} (same : first.value = second.value) :
    first = second := by
  cases first <;> cases second <;> first | rfl | exact absurd same (by decide)

section Answers
variable {db : Directory} {now : Time} {server : Server Token} {issue : Issue Token}
  {expectedType : TokenType} {user : User}

/-- A token of the server is judged by its type and its times. -/
theorem Issued.judged (lawful : jwt.Lawful) (issued : Issued jwt settings server issue) :
    userOf jwt db now issue.token expectedType = judged settings db now expectedType issue := by
  rw [userOf, decodeToken, issued.made, createToken, lawful.decodes, Payload.validate,
    Tokens.judged]
  by_cases early : now < ⌊issue.issuedAt⌋
  · simp [early, bind, Except.bind]
  · by_cases late : (⌊issue.issuedAt + settings.expiresDelta issue.tokenType⌋ : Time) ≤ now
    · simp [early, late, bind, Except.bind]
    · by_cases same : issue.tokenType = expectedType
      · subst same
        simp [early, late, bind, Except.bind, subject, parseUuid_strUuid issued.below]
      · have different : issue.tokenType.value ≠ expectedType.value :=
          fun equal => same (TokenType.value_inj equal)
        simp [early, late, same, different, bind, Except.bind]

theorem judged_ok (accepted : Tokens.judged settings db now expectedType issue = .ok user) :
    ⌊issue.issuedAt⌋ ≤ now ∧ now < ⌊issue.issuedAt + settings.expiresDelta issue.tokenType⌋ ∧
      issue.tokenType = expectedType ∧ Pulse.getCurrentUser db issue.userId = .ok user := by
  unfold Tokens.judged at accepted
  split at accepted
  · cases accepted
  · rename_i begun
    split at accepted
    · cases accepted
    · rename_i unexpired
      split at accepted
      · rename_i same
        exact ⟨not_lt.mp begun, not_le.mp unexpired, same, accepted⟩
      · cases accepted

theorem getCurrentUser_id {userId : Uuid} (found : Pulse.getCurrentUser db userId = .ok user) :
    user.id = userId := by
  unfold Pulse.getCurrentUser at found
  split at found
  · rename_i listed
    cases found
    simpa using List.find?_some listed
  · cases found

/-- Whoever is accepted has brought a token, and it decodes. -/
theorem userOf_decodes {token : Token} (accepted : userOf jwt db now token expectedType = .ok user) :
    ∃ payload, jwt.decode now token = .ok payload := by
  rw [userOf, decodeToken] at accepted
  cases decoded : jwt.decode now token with
  | ok payload => exact ⟨payload, rfl⟩
  | error reason => cases reason <;> rw [decoded] at accepted <;> cases accepted

/-- So it is one of the server's. -/
theorem Sound.accepts (sound : Sound jwt settings server) (lawful : jwt.Lawful) {token : Token}
    (unforged : ∀ payload, jwt.decode now token = .ok payload →
      ∃ issue ∈ server.issued, issue.token = token)
    (accepted : userOf jwt server.db now token expectedType = .ok user) :
    ∃ issuedAt : Time, Chain settings server user.id expectedType issuedAt ∧ user.id < 2 ^ 128 ∧
      ⌊issuedAt⌋ ≤ now ∧ now < ⌊issuedAt + settings.expiresDelta expectedType⌋ := by
  obtain ⟨payload, decodes⟩ := userOf_decodes accepted
  obtain ⟨issue, member, rfl⟩ := unforged payload decodes
  have issued := sound.issued issue member
  rw [issued.judged lawful] at accepted
  obtain ⟨begun, unexpired, rfl, found⟩ := judged_ok accepted
  rw [getCurrentUser_id found]
  exact ⟨issue.issuedAt, issued.chain, issued.below, begun, unexpired⟩

end Answers

section Runs
variable {server next : Server Token} {userId : Uuid} {tokenType : TokenType} {issuedAt now : Time}

/-- A chain stays one as the records grow. -/
theorem Chain.mono (chain : Chain settings server userId tokenType issuedAt)
    (logins : server.logins ⊆ next.logins) (renewals : server.renewals ⊆ next.renewals) :
    Chain settings next userId tokenType issuedAt := by
  induction chain with
  | login made => exact .login (logins made)
  | refresh _ valid unexpired made ih => exact .refresh ih valid unexpired (renewals made)

/-- What is kept as the records grow by one pair of tokens. -/
theorem Sound.grow (sound : Sound jwt settings server) (logins : server.logins ⊆ next.logins)
    (renewals : server.renewals ⊆ next.renewals) {accessAt refreshAt : Time}
    (issues : next.issued = pair jwt settings userId accessAt refreshAt ++ server.issued)
    (admitted : next.admitted = server.admitted) (below : userId < 2 ^ 128)
    (access : Chain settings next userId .access accessAt)
    (refresh : Chain settings next userId .refresh refreshAt) : Sound jwt settings next := by
  constructor
  · intro issue member
    rw [issues] at member
    rcases List.mem_append.mp member with new | old
    · rw [pair, List.mem_cons, List.mem_singleton] at new
      rcases new with rfl | rfl
      · exact ⟨rfl, below, access⟩
      · exact ⟨rfl, below, refresh⟩
    · obtain ⟨made, small, chain⟩ := sound.issued issue old
      exact ⟨made, small, chain.mono logins renewals⟩
  · intro entry member
    rw [admitted] at member
    obtain ⟨issuedAt, chain, begun, unexpired⟩ := sound.admitted entry member
    exact ⟨issuedAt, chain.mono logins renewals, begun, unexpired⟩

theorem Sound.step (sound : Sound jwt settings server) (lawful : jwt.Lawful) {action : Action Token}
    (unforged : Unforged jwt server action)
    (taken : Tokens.step jwt settings server action = some next) : Sound jwt settings next := by
  cases action with
  | change db =>
    cases Option.some.inj taken
    exact ⟨fun issue member => ⟨(sound.issued issue member).made, (sound.issued issue member).below,
      (sound.issued issue member).chain.mono (List.Subset.refl _) (List.Subset.refl _)⟩,
      fun entry member => (sound.admitted entry member).imp fun _ ⟨chain, times⟩ =>
        ⟨chain.mono (List.Subset.refl _) (List.Subset.refl _), times⟩⟩
  | login userId accessAt refreshAt =>
    simp only [Tokens.step] at taken
    split at taken
    · split at taken
      · rename_i below
        cases Option.some.inj taken
        refine sound.grow ?_ (List.Subset.refl _) rfl rfl below (.login List.mem_cons_self)
          (.login (List.mem_cons_of_mem _ List.mem_cons_self))
        exact fun _ old => List.mem_cons_of_mem _ (List.mem_cons_of_mem _ old)
      · cases taken
    · cases taken
  | refresh token now accessAt refreshAt =>
    simp only [Tokens.step] at taken
    split at taken
    · rename_i user accepted
      cases Option.some.inj taken
      obtain ⟨earlier, chain, below, begun, unexpired⟩ := sound.accepts lawful unforged accepted
      have grown : server.renewals ⊆ ⟨user.id, now, .access, accessAt⟩ ::
          ⟨user.id, now, .refresh, refreshAt⟩ :: server.renewals :=
        fun _ old => List.mem_cons_of_mem _ (List.mem_cons_of_mem _ old)
      refine sound.grow (List.Subset.refl _) grown rfl rfl below
        (.refresh (chain.mono (List.Subset.refl _) grown) begun unexpired List.mem_cons_self)
        (.refresh (chain.mono (List.Subset.refl _) grown) begun unexpired
          (List.mem_cons_of_mem _ List.mem_cons_self))
    · cases Option.some.inj taken
      exact sound
  | request credentials now =>
    simp only [Tokens.step] at taken
    split at taken
    · rename_i user accepted
      cases Option.some.inj taken
      cases credentials with
      | none => cases accepted
      | some token =>
        obtain ⟨issuedAt, chain, _, begun, unexpired⟩ := sound.accepts lawful unforged accepted
        refine ⟨fun issue member => ?_, ?_⟩
        · obtain ⟨made, below, earlier⟩ := sound.issued issue member
          exact ⟨made, below, earlier.mono (List.Subset.refl _) (List.Subset.refl _)⟩
        · intro entry member
          rcases List.mem_cons.mp member with rfl | old
          · exact ⟨issuedAt, chain.mono (List.Subset.refl _) (List.Subset.refl _), begun, unexpired⟩
          · exact (sound.admitted entry old).imp fun _ ⟨chain, times⟩ =>
              ⟨chain.mono (List.Subset.refl _) (List.Subset.refl _), times⟩
    · cases Option.some.inj taken
      exact sound

/-- In every run in which no token is forged: every request which was let in goes back to a login of
its user over refreshes with tokens which were valid, and an access token of the server is accepted
by `get_current_user` exactly from the second of its issue until it expires, while its user is
there; `refresh` takes refresh tokens alike, and neither takes those of the other. -/
theorem admitted_traced (lawful : jwt.Lawful)
    (reachable : (tokens jwt settings).Reachable (Unforged jwt) server) :
    (∀ entry ∈ server.admitted, Admitted settings server entry.1 entry.2) ∧
      ∀ issue ∈ server.issued, ∀ db now,
        getCurrentUser jwt db now (some issue.token) = judged settings db now .access issue ∧
        userOf jwt db now issue.token .refresh = judged settings db now .refresh issue := by
  have sound : Sound jwt settings server := by
    refine reachable.invariant ?_ fun _ _ _ sound unforged taken => sound.step lawful unforged taken
    rintro _ ⟨db, rfl⟩
    exact ⟨fun issue member => absurd member List.not_mem_nil,
      fun entry member => absurd member List.not_mem_nil⟩
  refine ⟨sound.admitted, fun issue member db now => ?_⟩
  have issued := sound.issued issue member
  exact ⟨issued.judged lawful, issued.judged lawful⟩

end Runs

/-! PyJWT without forgery: a token is its claims, or it is none of the server's. -/

def sealed : Jwt (Option Payload) where
  encode := some
  decode := fun now token => match token with
    | some payload => payload.validate now
    | none => .error .invalidToken

theorem sealed_lawful : sealed.Lawful :=
  ⟨fun _ _ => rfl⟩

instance {Token : Type} [DecidableEq Token] (jwt : Jwt Token) (server : Server Token)
    (action : Action Token) : Decidable (Unforged jwt server action) :=
  have known (now : Time) (token : Token) : Decidable (∀ payload,
      jwt.decode now token = .ok payload → ∃ issue ∈ server.issued, issue.token = token) :=
    match jwt.decode now token with
    | .ok payload => decidable_of_iff (∃ issue ∈ server.issued, issue.token = token)
        ⟨fun made _ _ => made, fun unforged => unforged payload rfl⟩
    | .error _ => isTrue fun _ decodes => absurd decodes (by simp)
  match action with
  | .change _ | .login _ _ _ | .request none _ => isTrue trivial
  | .refresh token now _ _ | .request (some token) now => known now token

/-- A login, a request and, after ten minutes, a refresh; after twenty the first access token comes
too late and the second in time. -/
def loggedIn : List (Action (Option Payload)) := [
  .login 7 0 0,
  .request (some (createToken sealed {} 0 7 .access)) 60,
  .refresh (createToken sealed {} 0 7 .refresh) 600 600 600,
  .request (some (createToken sealed {} 0 7 .access)) 1200,
  .request (some (createToken sealed {} 600 7 .access)) 1200]

theorem admitted_traced_loggedIn : ∃ server : Server (Option Payload),
    (tokens sealed {}).Reachable (Unforged sealed) server ∧
    server.admitted = [(7, 1200), (7, 60)] ∧
    (∀ entry ∈ server.admitted, Admitted {} server entry.1 entry.2) ∧
    ∀ issue ∈ server.issued, ∀ db now,
      getCurrentUser sealed db now (some issue.token) = judged {} db now .access issue ∧
      userOf sealed db now issue.token .refresh = judged {} db now .refresh issue := by
  have ran : ((tokens sealed {}).run (Unforged sealed)
      { db := { users := [{ id := 7, email := "ada@example.com" }] } } loggedIn).any
      (fun server => server.admitted = [(7, 1200), (7, 60)]) = true := by
    decide +kernel
  obtain ⟨server, reachable, passes⟩ := Machine.reachable_of_check (by exact ⟨_, rfl⟩) loggedIn ran
  exact ⟨server, reachable, of_decide_eq_true passes, admitted_traced sealed_lawful reachable⟩

end Pulse.Tokens
