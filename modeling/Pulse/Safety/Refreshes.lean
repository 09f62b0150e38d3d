import Pulse.Client.ApiFetch
import Pulse.Safety.Tokens

/-! However the calls of a tab, its logins and the network interleave: one refresh at a time serves
every call which was answered 401, and the tokens of the tab are a pair from one login. -/
namespace Pulse.Client
open Library.Lts Pulse.Tokens

variable {Token : Type} {jwt : Jwt Token} {settings : Tokens.Settings}

/-! Promises. -/

section Promises
variable {tab next : Tab Token} {refreshes others : List (Refresh Token)} {call : Call Token}
  {old new : Refresh Token} {index : Nat}

/-- The number of requests which a call has sent goes with its `retry`; a call which waits has its
refresh, and what became of a call is what became of that. -/
structure Call.Orderly (refreshes : List (Refresh Token)) (call : Call Token) : Prop where
  sent : call.bearers.length = if call.retry then 1 else 2
  waits : ∀ refresh, call.stage = .waiting refresh →
    call.retry = true ∧ call.joined = some refresh ∧ refresh < refreshes.length
  retried : call.retry = false → ∃ refresh token, call.joined = some refresh ∧
    refreshes[refresh]? = some (.settled (.token token))
  expired : call.stage = .ended .sessionExpired → ∃ refresh cause, call.joined = some refresh ∧
    refreshes[refresh]? = some (.settled (.null cause))

/-- `refreshPromise` is the refresh which has not settled. -/
structure Tab.Orderly (tab : Tab Token) : Prop where
  promise : ∀ (index : Nat) refresh, tab.refreshes[index]? = some refresh →
    (refresh.isSettled = false ↔ tab.refreshPromise = some index)
  promised : ∀ index, tab.refreshPromise = some index → index < tab.refreshes.length
  calls : ∀ call ∈ tab.calls, call.Orderly tab.refreshes

/-- A call which is orderly stays so as refreshes start and settle. -/
theorem Call.Orderly.grow (orderly : call.Orderly refreshes)
    (longer : refreshes.length ≤ others.length)
    (kept : ∀ (index : Nat) outcome, refreshes[index]? = some (.settled outcome) →
      others[index]? = some (.settled outcome)) : call.Orderly others where
  sent := orderly.sent
  waits := fun refresh waiting =>
    let ⟨retries, joined, below⟩ := orderly.waits refresh waiting
    ⟨retries, joined, Nat.lt_of_lt_of_le below longer⟩
  retried := fun retried =>
    let ⟨refresh, token, joined, settled⟩ := orderly.retried retried
    ⟨refresh, token, joined, kept _ _ settled⟩
  expired := fun expired =>
    let ⟨refresh, cause, joined, settled⟩ := orderly.expired expired
    ⟨refresh, cause, joined, kept _ _ settled⟩

/-- A refresh which has not settled moves on. -/
theorem settled_set (found : refreshes[index]? = some old) (unsettled : old.isSettled = false)
    (other : Nat) (outcome : Outcome Token) (settled : refreshes[other]? = some (.settled outcome)) :
    (refreshes.set index new)[other]? = some (.settled outcome) := by
  rw [List.getElem?_set_ne, settled]
  rintro rfl
  cases found.symm.trans settled
  cases unsettled

/-- A tab which has just been loaded. -/
theorem Tab.Orderly.blank (promise : tab.refreshPromise = none) (refreshes : tab.refreshes = [])
    (calls : tab.calls = []) : tab.Orderly := by
  refine ⟨?_, ?_, ?_⟩
  · rw [refreshes]
    intro index refresh present
    cases present
  · rw [promise]
    intro index promised
    cases promised
  · rw [calls]
    intro call member
    cases member

theorem Tab.Orderly.moves (orderly : tab.Orderly) (found : tab.refreshes[index]? = some old)
    (unsettled : old.isSettled = false) (still : new.isSettled = false)
    (refreshes : next.refreshes = tab.refreshes.set index new)
    (promise : next.refreshPromise = tab.refreshPromise) (calls : next.calls = tab.calls) :
    next.Orderly := by
  constructor
  · rw [refreshes, promise]
    intro other refresh present
    by_cases same : index = other
    · subst same
      have below : index < tab.refreshes.length := (List.getElem?_eq_some_iff.mp found).1
      rw [List.getElem?_set_self below] at present
      cases Option.some.inj present
      exact ⟨fun _ => (orderly.promise index old found).mp unsettled, fun _ => still⟩
    · rw [List.getElem?_set_ne same] at present
      exact orderly.promise other refresh present
  · rw [refreshes, promise, List.length_set]
    exact orderly.promised
  · rw [refreshes, calls]
    intro call member
    exact (orderly.calls call member).grow (Nat.le_of_eq List.length_set.symm)
      (settled_set found unsettled)

theorem Tab.Orderly.setCall (orderly : tab.Orderly) (kept : call.Orderly tab.refreshes) :
    (tab.setCall index call).Orderly where
  promise := orderly.promise
  promised := orderly.promised
  calls := fun other member => by
    rcases List.mem_or_eq_of_mem_set member with old | rfl
    · exact orderly.calls other old
    · exact kept

/-- A call which was answered 401 finds a refresh under way, or starts it. -/
theorem Tab.Orderly.joinRefresh (orderly : tab.Orderly) :
    tab.joinRefresh.1.Orderly ∧ tab.joinRefresh.1.calls = tab.calls ∧
      tab.joinRefresh.2 < tab.joinRefresh.1.refreshes.length := by
  unfold Tab.joinRefresh
  split
  · rename_i refresh promised
    exact ⟨orderly, rfl, orderly.promised refresh promised⟩
  · rename_i unpromised
    have begun : (refreshAccessToken tab.store).isSettled = false := by
      unfold refreshAccessToken
      split <;> rfl
    refine ⟨⟨?_, ?_, ?_⟩, rfl, by simp⟩
    · intro index refresh present
      dsimp only at present ⊢
      rcases Nat.lt_trichotomy index tab.refreshes.length with below | rfl | above
      · rw [List.getElem?_append_left below] at present
        refine ⟨fun unsettled => ?_, fun same => ?_⟩
        · cases unpromised.symm.trans ((orderly.promise index refresh present).mp unsettled)
        · exact absurd (Option.some.inj same) (Nat.ne_of_gt below)
      · rw [List.getElem?_concat_length] at present
        cases Option.some.inj present
        exact ⟨fun _ => rfl, fun _ => begun⟩
      · simp [Nat.not_lt.mpr (Nat.le_of_lt above), List.getElem?_append, Nat.sub_ne_zero_of_lt above]
          at present
    · intro index same
      cases Option.some.inj same
      simp
    · intro call member
      refine (orderly.calls call member).grow (by simp) fun index outcome settled => ?_
      rw [List.getElem?_append_left (List.getElem?_eq_some_iff.mp settled).1, settled]

theorem Tab.Orderly.step (orderly : tab.Orderly) {event : Event Token}
    (taken : Taken jwt settings tab event next) : next.Orderly := by
  cases taken with
  | server | login | setTokens | logout =>
    exact ⟨orderly.promise, orderly.promised, orderly.calls⟩
  | reload => exact .blank rfl rfl rfl
  | apiFetch =>
    refine ⟨orderly.promise, orderly.promised, fun call member => ?_⟩
    rcases List.mem_append.mp member with old | new
    · exact orderly.calls call old
    · cases List.mem_singleton.mp new
      exact ⟨rfl, by simp, by simp, by simp⟩
  | joins found retries =>
    obtain ⟨joined, same, below⟩ := orderly.joinRefresh
    have before := joined.calls _ (same ▸ List.mem_of_getElem? found)
    refine joined.setCall ⟨before.sent, fun refresh waiting => ?_, fun retried => ?_, by simp⟩
    · cases waiting
      exact ⟨retries, rfl, below⟩
    · cases retries.symm.trans retried
  | ends found other =>
    have before := orderly.calls _ (List.mem_of_getElem? found)
    exact orderly.setCall ⟨before.sent, by simp, before.retried, by simp [other]⟩
  | retries found waiting settled =>
    have before := orderly.calls _ (List.mem_of_getElem? found)
    obtain ⟨retries, joined, _⟩ := before.waits _ waiting
    refine orderly.setCall ⟨?_, by simp, fun _ => ⟨_, _, joined, settled⟩, by simp⟩
    have sent := before.sent
    simp only [retries, if_true] at sent
    simp [sent]
  | expires found waiting settled =>
    have before := orderly.calls _ (List.mem_of_getElem? found)
    obtain ⟨_, joined, _⟩ := before.waits _ waiting
    exact orderly.setCall ⟨before.sent, by simp, before.retried, fun _ => ⟨_, _, joined, settled⟩⟩
  | serves found | unavailable found | reads found | refused found | renews found =>
    exact orderly.moves found rfl rfl rfl rfl rfl
  | throws found unsettled => exact orderly.moves found unsettled rfl rfl rfl rfl
  | @finallyRuns index outcome found =>
    have below : index < tab.refreshes.length := (List.getElem?_eq_some_iff.mp found).1
    have promised := (orderly.promise index _ found).mp rfl
    refine ⟨fun other refresh present => ?_, fun other promised => ?_, fun call member => ?_⟩
    · refine ⟨fun unsettled => ?_, fun none => by cases none⟩
      by_cases same : index = other
      · subst same
        rw [Tab.setRefresh, List.getElem?_set_self below] at present
        cases Option.some.inj present
        cases unsettled
      · rw [Tab.setRefresh, List.getElem?_set_ne same] at present
        have another := (orderly.promise other refresh present).mp unsettled
        exact absurd (Option.some.inj (promised.symm.trans another)) same
    · cases promised
    · exact (orderly.calls call member).grow (by simp [Tab.setRefresh]) (settled_set found rfl)

end Promises

/-! Tokens. -/

/-- The server has made the token for the user. -/
def Made (server : Server Token) (userId : Uuid) (tokenType : TokenType) (token : Token) : Prop :=
  ∃ issuedAt, { token, userId, tokenType, issuedAt } ∈ server.issued

/-- The server has made both tokens for the user. -/
def Paired (server : Server Token) (userId : Uuid) (tokens : TokenResponse Token) : Prop :=
  Made server userId .access tokens.accessToken ∧ Made server userId .refresh tokens.refreshToken

/-- The store holds the tokens of its owner, and nothing without one. -/
def AuthStore.Of (server : Server Token) (store : AuthStore Token) : Option Uuid → Prop
  | none => store = .logout
  | some userId => ∃ tokens, Paired server userId tokens ∧ store = .setTokens tokens

/-- A refresh has read, or will store, tokens of the owner alone. -/
def Refresh.From (server : Server Token) (owner : Option Uuid) : Refresh Token → Prop
  | .fetching token => ∃ userId, owner = some userId ∧ Made server userId .refresh token
  | .answered (.ok tokens) | .reading tokens =>
    ∃ userId, owner = some userId ∧ Paired server userId tokens
  | _ => True

/-- Where a refresh has ended, or will end, without a token. -/
def Refresh.cause? : Refresh Token → Option (Cause Token)
  | .answered (.error cause) | .returned (.null cause) | .settled (.null cause) => some cause
  | _ => none

/-- Why a refresh may bring no token: the store held none for it, `fetch` has thrown, something before
the endpoint has answered with a status that is not ok, or the endpoint has refused a refresh token
of the server because it came too late (or before its time) or its user was not there any more. -/
def Cause.Justified (settings : Tokens.Settings) (server : Server Token) : Cause Token → Prop
  | .refused db now token => ∃ issue ∈ server.issued,
      issue.token = token ∧ issue.tokenType = .refresh ∧
        (now < ⌊issue.issuedAt⌋ ∨ ⌊issue.issuedAt + settings.expiresDelta .refresh⌋ ≤ now ∨
          ∃ error, Pulse.getCurrentUser db issue.userId = .error error)
  | .unavailable status => isOk status = false
  | .noRefreshToken | .network => True

section Servers
variable {server next : Server Token} {userId : Uuid} {tokenType : TokenType} {token : Token}
  {tokens : TokenResponse Token} {owner : Option Uuid} {now accessAt refreshAt : Time}

theorem Made.mono (grown : server.issued ⊆ next.issued) (made : Made server userId tokenType token) :
    Made next userId tokenType token :=
  made.imp fun _ member => grown member

theorem Paired.mono (grown : server.issued ⊆ next.issued) (paired : Paired server userId tokens) :
    Paired next userId tokens :=
  ⟨paired.1.mono grown, paired.2.mono grown⟩

theorem AuthStore.Of.mono {store : AuthStore Token} (grown : server.issued ⊆ next.issued)
    (holds : store.Of server owner) : store.Of next owner := by
  cases owner with
  | none => exact holds
  | some userId => exact holds.imp fun _ ⟨paired, same⟩ => ⟨paired.mono grown, same⟩

theorem Refresh.From.mono {refresh : Refresh Token} (grown : server.issued ⊆ next.issued)
    (stems : refresh.From server owner) : refresh.From next owner := by
  unfold Refresh.From at stems ⊢
  split
  · exact stems.imp fun _ ⟨owned, made⟩ => ⟨owned, made.mono grown⟩
  · exact stems.imp fun _ ⟨owned, paired⟩ => ⟨owned, paired.mono grown⟩
  · exact stems.imp fun _ ⟨owned, paired⟩ => ⟨owned, paired.mono grown⟩
  · trivial

theorem Cause.Justified.mono {cause : Cause Token} (grown : server.issued ⊆ next.issued)
    (justified : cause.Justified settings server) : cause.Justified settings next := by
  cases cause with
  | refused => exact justified.imp fun _ ⟨member, rest⟩ => ⟨grown member, rest⟩
  | unavailable => exact justified
  | noRefreshToken | network => trivial

/-- The server forgets no token. -/
theorem issued_grows {action : Tokens.Action Token}
    (stepped : Tokens.step jwt settings server action = some next) :
    server.issued ⊆ next.issued := by
  cases action with
  | change =>
    cases Option.some.inj stepped
    exact List.Subset.refl _
  | login =>
    simp only [Tokens.step] at stepped
    split at stepped
    · split at stepped
      · cases Option.some.inj stepped
        exact List.subset_append_right _ _
      · cases stepped
    · cases stepped
  | refresh =>
    simp only [Tokens.step] at stepped
    split at stepped <;> cases Option.some.inj stepped
    · exact List.subset_append_right _ _
    · exact List.Subset.refl _
  | request =>
    simp only [Tokens.step] at stepped
    split at stepped <;> cases Option.some.inj stepped <;> exact List.Subset.refl _

/-- The tokens of a response are among those which the server makes with it. -/
theorem paired_of_pair (issues : pair jwt settings userId accessAt refreshAt ⊆ next.issued) :
    Paired next userId (tokenResponse jwt settings userId accessAt refreshAt) :=
  ⟨⟨accessAt, issues List.mem_cons_self⟩,
    ⟨refreshAt, issues (List.mem_cons_of_mem _ List.mem_cons_self)⟩⟩

theorem login_pairs
    (stepped : Tokens.step jwt settings server (.login userId accessAt refreshAt) = some next) :
    Paired next userId (tokenResponse jwt settings userId accessAt refreshAt) := by
  simp only [Tokens.step] at stepped
  split at stepped
  · rename_i user found
    split at stepped
    · cases Option.some.inj stepped
      rw [getCurrentUser_id found]
      exact paired_of_pair (List.subset_append_left _ _)
    · cases stepped
  · cases stepped

theorem refresh_pairs {user : User}
    (accepted : userOf jwt server.db now token .refresh = .ok user)
    (stepped : Tokens.step jwt settings server (.refresh token now accessAt refreshAt) = some next) :
    Paired next user.id (tokenResponse jwt settings user.id accessAt refreshAt) := by
  simp only [Tokens.step, accepted] at stepped
  cases Option.some.inj stepped
  exact paired_of_pair (List.subset_append_left _ _)

/-- The answer to a token is for the user of the token. -/
theorem answer_from (sound : Sound jwt settings server) (lawful : jwt.Lawful)
    (stems : (Refresh.fetching token).From server owner)
    (stepped : Tokens.step jwt settings server (.refresh token now accessAt refreshAt) = some next) :
    (Refresh.answered (answer jwt settings server token now accessAt refreshAt)).From next owner := by
  obtain ⟨userId, owned, issuedAt, member⟩ := stems
  unfold answer
  split
  · rename_i user accepted
    have paired := refresh_pairs accepted stepped
    rw [(sound.issued _ member).judged lawful] at accepted
    obtain ⟨_, _, _, found⟩ := judged_ok accepted
    rw [getCurrentUser_id found] at paired ⊢
    exact ⟨userId, owned, paired⟩
  · trivial

theorem judged_error {db : Directory} {issue : Issue Token} {error : ApiError}
    (refresh : issue.tokenType = .refresh)
    (refused : judged settings db now .refresh issue = .error error) :
    now < ⌊issue.issuedAt⌋ ∨ ⌊issue.issuedAt + settings.expiresDelta .refresh⌋ ≤ now ∨
      ∃ error, Pulse.getCurrentUser db issue.userId = .error error := by
  unfold judged at refused
  rw [refresh] at refused
  split at refused
  · exact .inl (by assumption)
  · split at refused
    · exact .inr (.inl (by assumption))
    · rw [if_pos rfl] at refused
      exact .inr (.inr ⟨error, refused⟩)

theorem answer_cause (sound : Sound jwt settings server) (lawful : jwt.Lawful)
    (stems : (Refresh.fetching token).From server owner) {cause : Cause Token}
    (refused : (Refresh.answered
      (answer jwt settings server token now accessAt refreshAt)).cause? = some cause) :
    cause.Justified settings server := by
  obtain ⟨userId, _, issuedAt, member⟩ := stems
  unfold answer at refused
  split at refused
  · cases refused
  · rename_i error accepted
    cases Option.some.inj refused
    rw [(sound.issued _ member).judged lawful] at accepted
    exact ⟨_, member, rfl, rfl, judged_error rfl accepted⟩

end Servers

/-! The tab. -/

section Tabs
variable {tab next : Tab Token} {event : Event Token} {owner : Option Uuid} {index : Nat}
  {refresh : Refresh Token} {call : Call Token}

/-- Every token in the tab is one which the server has made for the purpose it is held for. -/
structure Tab.Genuine (jwt : Jwt Token) (settings : Tokens.Settings) (tab : Tab Token) : Prop where
  sound : Sound jwt settings tab.server
  store : ∃ owner, tab.store.Of tab.server owner
  logins : ∀ entry ∈ tab.logins, Paired tab.server entry.1 entry.2
  refreshes : ∀ refresh ∈ tab.refreshes, ∃ owner, refresh.From tab.server owner
  causes : ∀ refresh ∈ tab.refreshes, ∀ cause, refresh.cause? = some cause →
    cause.Justified settings tab.server
  bearers : ∀ call ∈ tab.calls, ∀ token, some token ∈ call.bearers →
    ∃ userId, Made tab.server userId .access token

theorem Tab.Genuine.serverMoves (genuine : tab.Genuine jwt settings) {server : Server Token}
    (sound : Sound jwt settings server) (grown : tab.server.issued ⊆ server.issued) :
    { tab with server }.Genuine jwt settings where
  sound := sound
  store := genuine.store.imp fun _ holds => holds.mono grown
  logins := fun entry member => (genuine.logins entry member).mono grown
  refreshes := fun refresh member =>
    (genuine.refreshes refresh member).imp fun _ stems => stems.mono grown
  causes := fun refresh member cause ends =>
    (genuine.causes refresh member cause ends).mono grown
  bearers := fun call member token sent =>
    (genuine.bearers call member token sent).imp fun _ made => made.mono grown

theorem Tab.Genuine.setRefresh (genuine : tab.Genuine jwt settings)
    (stems : ∃ owner, refresh.From tab.server owner)
    (justified : ∀ cause, refresh.cause? = some cause → cause.Justified settings tab.server) :
    (tab.setRefresh index refresh).Genuine jwt settings where
  sound := genuine.sound
  store := genuine.store
  logins := genuine.logins
  refreshes := fun other member => by
    rcases List.mem_or_eq_of_mem_set member with old | rfl
    · exact genuine.refreshes other old
    · exact stems
  causes := fun other member => by
    rcases List.mem_or_eq_of_mem_set member with old | rfl
    · exact genuine.causes other old
    · exact justified
  bearers := genuine.bearers

theorem Tab.Genuine.setCall (genuine : tab.Genuine jwt settings)
    (sent : ∀ token, some token ∈ call.bearers → ∃ userId, Made tab.server userId .access token) :
    (tab.setCall index call).Genuine jwt settings where
  sound := genuine.sound
  store := genuine.store
  logins := genuine.logins
  refreshes := genuine.refreshes
  causes := genuine.causes
  bearers := fun other member => by
    rcases List.mem_or_eq_of_mem_set member with old | rfl
    · exact genuine.bearers other old
    · exact sent

/-- What `apiFetch` reads from the store is an access token, and `refreshAccessToken` a refresh
token, of the owner. -/
theorem AuthStore.Of.accessToken {server : Server Token} {store : AuthStore Token}
    (holds : store.Of server owner) {token : Token} (read : store.accessToken = some token) :
    ∃ userId, Made server userId .access token := by
  cases owner with
  | none =>
    cases holds
    cases read
  | some userId =>
    obtain ⟨tokens, paired, rfl⟩ := holds
    cases Option.some.inj read
    exact ⟨userId, paired.1⟩

theorem AuthStore.Of.refreshing {server : Server Token} {store : AuthStore Token}
    (holds : store.Of server owner) : (refreshAccessToken store).From server owner := by
  cases owner with
  | none =>
    cases holds
    trivial
  | some userId =>
    obtain ⟨tokens, paired, rfl⟩ := holds
    exact ⟨userId, rfl, paired.2⟩

theorem refreshAccessToken_cause (store : AuthStore Token) {cause : Cause Token}
    (ends : (refreshAccessToken store).cause? = some cause) : cause = .noRefreshToken := by
  unfold refreshAccessToken at ends
  split at ends
  · cases ends
    rfl
  · cases ends

theorem Tab.Genuine.joinRefresh (genuine : tab.Genuine jwt settings) :
    tab.joinRefresh.1.Genuine jwt settings := by
  unfold Tab.joinRefresh
  split
  · exact genuine
  · refine ⟨genuine.sound, genuine.store, genuine.logins, ?_, ?_, genuine.bearers⟩
    · intro refresh member
      rcases List.mem_append.mp member with old | new
      · exact genuine.refreshes refresh old
      · cases List.mem_singleton.mp new
        exact genuine.store.imp fun _ holds => holds.refreshing
    · intro refresh member cause ends
      rcases List.mem_append.mp member with old | new
      · exact genuine.causes refresh old cause ends
      · cases List.mem_singleton.mp new
        cases refreshAccessToken_cause tab.store ends
        trivial

/-- A tab which stores other tokens, or none. -/
theorem Tab.Genuine.storeMoves (genuine : tab.Genuine jwt settings) {store : AuthStore Token}
    (holds : ∃ owner, store.Of tab.server owner) (loggedIn : Option Uuid) :
    { tab with store, owner := loggedIn }.Genuine jwt settings where
  sound := genuine.sound
  store := holds
  logins := genuine.logins
  refreshes := genuine.refreshes
  causes := genuine.causes
  bearers := genuine.bearers

theorem Tab.Genuine.step (genuine : tab.Genuine jwt settings) (lawful : jwt.Lawful)
    (honest : Honest jwt tab event) (taken : Taken jwt settings tab event next) :
    next.Genuine jwt settings := by
  cases taken with
  | server stepped =>
    exact genuine.serverMoves (genuine.sound.step lawful honest stepped) (issued_grows stepped)
  | @login userId accessAt refreshAt _ stepped =>
    have unforged : Unforged jwt tab.server (.login userId accessAt refreshAt) := trivial
    have moved := genuine.serverMoves (genuine.sound.step lawful unforged stepped)
      (issued_grows stepped)
    refine ⟨moved.sound, moved.store, ?_, moved.refreshes, moved.causes, moved.bearers⟩
    intro entry member
    rcases List.mem_append.mp member with old | new
    · exact moved.logins entry old
    · cases List.mem_singleton.mp new
      exact login_pairs stepped
  | @setTokens _ userId tokens answered =>
    exact genuine.storeMoves
      ⟨some userId, tokens, genuine.logins _ (List.mem_of_getElem? answered), rfl⟩ _
  | logout => exact genuine.storeMoves ⟨none, rfl⟩ _
  | reload =>
    refine ⟨genuine.sound, genuine.store, ?_, ?_, ?_, ?_⟩ <;> intro entry member <;> cases member
  | apiFetch =>
    refine ⟨genuine.sound, genuine.store, genuine.logins, genuine.refreshes, genuine.causes, ?_⟩
    intro call member token sent
    rcases List.mem_append.mp member with old | new
    · exact genuine.bearers call old token sent
    · cases List.mem_singleton.mp new
      obtain ⟨owner, holds⟩ := genuine.store
      exact holds.accessToken (List.mem_singleton.mp sent).symm
  | joins found =>
    refine genuine.joinRefresh.setCall ?_
    intro token sent
    have same : tab.joinRefresh.1.calls = tab.calls ∧ tab.joinRefresh.1.server = tab.server := by
      unfold Tab.joinRefresh
      split <;> exact ⟨rfl, rfl⟩
    rw [same.2]
    exact genuine.bearers _ (List.mem_of_getElem? found) token sent
  | @ends _ _ call _ found | @expires _ _ call _ _ found =>
    have before := genuine.bearers call (List.mem_of_getElem? found)
    exact genuine.setCall before
  | retries found =>
    refine genuine.setCall fun token sent => ?_
    rcases List.mem_cons.mp sent with now | before
    · obtain ⟨owner, holds⟩ := genuine.store
      exact holds.accessToken now.symm
    · exact genuine.bearers _ (List.mem_of_getElem? found) token before
  | serves found stepped =>
    obtain ⟨owner, stems⟩ := genuine.refreshes _ (List.mem_of_getElem? found)
    obtain ⟨userId, _, issuedAt, member⟩ := id stems
    have grown := issued_grows stepped
    refine (genuine.serverMoves (genuine.sound.step lawful ?_ stepped) grown).setRefresh
      ⟨owner, answer_from genuine.sound lawful stems stepped⟩ fun cause refused => ?_
    · exact fun _ _ => ⟨_, member, rfl⟩
    · exact (answer_cause genuine.sound lawful stems refused).mono grown
  | unavailable found bad =>
    refine genuine.setRefresh ⟨none, trivial⟩ fun cause ends => ?_
    cases Option.some.inj ends
    exact bad
  | throws found unsettled blank =>
    refine genuine.setRefresh ⟨none, trivial⟩ fun cause ends => ?_
    rcases blank with rfl | rfl
    · cases ends
    · cases Option.some.inj ends
      trivial
  | @reads _ tokens found =>
    have before := genuine.refreshes (.answered (.ok tokens)) (List.mem_of_getElem? found)
    refine genuine.setRefresh before fun cause ends => ?_
    cases ends
  | @refused _ cause found =>
    have before := genuine.causes (.answered (.error cause)) (List.mem_of_getElem? found)
    exact (genuine.storeMoves ⟨none, rfl⟩ none).setRefresh ⟨none, trivial⟩ before
  | @renews _ tokens found =>
    obtain ⟨owner, userId, _, paired⟩ := genuine.refreshes _ (List.mem_of_getElem? found)
    refine (genuine.storeMoves ⟨some userId, tokens, paired, rfl⟩ tab.owner).setRefresh
      ⟨none, trivial⟩ fun cause ends => ?_
    cases ends
  | @finallyRuns index outcome found =>
    have moved : (tab.setRefresh index (.settled outcome)).Genuine jwt settings :=
      genuine.setRefresh ⟨none, trivial⟩ fun cause ends => by
        refine genuine.causes _ (List.mem_of_getElem? found) cause ?_
        cases outcome <;> exact ends
    exact ⟨moved.sound, moved.store, moved.logins, moved.refreshes, moved.causes, moved.bearers⟩

theorem Tab.reachable (lawful : jwt.Lawful)
    (reachable : (browsing jwt settings).Reachable (Honest jwt) tab) :
    tab.Orderly ∧ tab.Genuine jwt settings := by
  refine @Machine.Reachable.invariant _ _ _ _
    (fun tab => tab.Orderly ∧ tab.Genuine jwt settings) ?_ ?_ tab reachable
  · rintro _ ⟨db, rfl⟩
    refine ⟨.blank rfl rfl rfl, ⟨⟨?_, ?_⟩, ⟨none, rfl⟩, ?_, ?_, ?_, ?_⟩⟩ <;> intro entry member <;>
      cases member
  · rintro tab event next ⟨orderly, genuine⟩ honest made
    have taken := step_taken jwt settings made
    exact ⟨orderly.step taken, genuine.step lawful honest taken⟩

/-- What holds of a call: how often it has asked and with what, that the refresh which it waits for is
under way or has settled, and why it has asked again or given up. -/
structure Call.Served (settings : Tokens.Settings) (tab : Tab Token) (call : Call Token) : Prop where
  requests : call.bearers.length ≤ 2
  bearers : ∀ token, some token ∈ call.bearers → ∃ userId, Made tab.server userId .access token
  waits : ∀ index, call.stage = .waiting index → tab.refreshPromise = some index ∨
    ∃ outcome, tab.refreshes[index]? = some (.settled outcome)
  retried : call.bearers.length = 2 → ∃ index token, call.joined = some index ∧
    tab.refreshes[index]? = some (.settled (.token token))
  expired : call.stage = .ended .sessionExpired → ∃ index cause, call.joined = some index ∧
    tab.refreshes[index]? = some (.settled (.null cause)) ∧ cause.Justified settings tab.server

theorem Tab.Orderly.waited (orderly : tab.Orderly) (below : index < tab.refreshes.length) :
    tab.refreshPromise = some index ∨
      ∃ outcome, tab.refreshes[index]? = some (.settled outcome) := by
  have found := List.getElem?_eq_getElem below
  cases stage : tab.refreshes[index] with
  | settled outcome => exact .inr ⟨outcome, by rw [found, stage]⟩
  | _ => exact .inl ((orderly.promise index _ found).mp (by rw [stage]; rfl))

instance {Token : Type} [DecidableEq Token] (jwt : Jwt Token) (tab : Tab Token)
    (event : Event Token) : Decidable (Honest jwt tab event) :=
  match event with
  | .server action => inferInstanceAs (Decidable (Unforged jwt tab.server action))
  | .login _ _ _ | .setTokens _ | .logout | .reload | .apiFetch _ | .respond _ _ _
  | .fetchThrows _ | .resume _ | .refresh _ _ _ _ | .unavailable _ _ | .refreshThrows _
  | .respondRefresh _ | .json _ _ | .finallyRuns _ => isTrue trivial

/-- Two calls are answered 401 and share one refresh; after eight days a third call finds the
refresh token expired. -/
def sharedRefresh : List (Event (Option Payload)) := [
  .server (.change { users := [{ id := 7, email := "ada@example.com" }] }),
  .login 7 0 0,
  .setTokens 0,
  .apiFetch "/orgs",
  .apiFetch "/projects",
  .respond 0 401 true,
  .respond 1 401 true,
  .refresh 0 1000 1000 1000,
  .respondRefresh 0,
  .json 0 true,
  .finallyRuns 0,
  .resume 0,
  .resume 1,
  .respond 0 200 true,
  .apiFetch "/auth/me",
  .respond 2 401 true,
  .refresh 1 700000 700000 700000,
  .respondRefresh 1,
  .finallyRuns 1,
  .resume 2]

/-- Nobody logs in or out of the tab while a refresh is under way. -/
def Quiet (tab : Tab Token) : Event Token → Prop
  | .setTokens _ | .logout => tab.refreshPromise = none
  | _ => True

/-- The store and the refresh under way have tokens of the owner alone. -/
structure Tab.Owned (tab : Tab Token) : Prop where
  store : tab.store.Of tab.server tab.owner
  refreshes : ∀ refresh ∈ tab.refreshes, refresh.From tab.server tab.owner

/-- Only the refresh under way depends on the owner. -/
theorem Tab.Orderly.stems (orderly : tab.Orderly) {server : Server Token}
    (current : ∀ index refresh, tab.refreshPromise = some index →
      tab.refreshes[index]? = some refresh → refresh.From server owner) :
    ∀ refresh ∈ tab.refreshes, refresh.From server owner := by
  intro refresh member
  obtain ⟨index, below, same⟩ := List.getElem_of_mem member
  have found : tab.refreshes[index]? = some refresh := same ▸ List.getElem?_eq_getElem below
  cases refresh with
  | settled => trivial
  | _ => exact current index _ ((orderly.promise index _ found).mp rfl) found

theorem Tab.Owned.set (owned : tab.Owned) (store : next.store.Of tab.server tab.owner)
    (server : next.server = tab.server) (loggedIn : next.owner = tab.owner)
    (refreshes : next.refreshes = tab.refreshes.set index refresh)
    (stems : refresh.From tab.server tab.owner) : next.Owned := by
  refine ⟨?_, ?_⟩
  · rw [server, loggedIn]
    exact store
  · rw [server, loggedIn, refreshes]
    intro other member
    rcases List.mem_or_eq_of_mem_set member with old | rfl
    · exact owned.refreshes other old
    · exact stems

theorem Tab.Owned.step (owned : tab.Owned) (orderly : tab.Orderly)
    (genuine : tab.Genuine jwt settings) (lawful : jwt.Lawful) (quiet : Quiet tab event)
    (taken : Taken jwt settings tab event next) : next.Owned := by
  have after := orderly.step taken
  cases taken with
  | server stepped | login stepped =>
    have grown := issued_grows stepped
    exact ⟨owned.store.mono grown,
      fun refresh member => (owned.refreshes refresh member).mono grown⟩
  | @setTokens _ userId tokens answered =>
    refine ⟨⟨tokens, genuine.logins _ (List.mem_of_getElem? answered), rfl⟩, ?_⟩
    refine orderly.stems fun index refresh promised => ?_
    cases promised.symm.trans quiet
  | logout =>
    refine ⟨rfl, orderly.stems fun index refresh promised => ?_⟩
    cases promised.symm.trans quiet
  | reload => exact ⟨owned.store, fun refresh member => by cases member⟩
  | apiFetch => exact ⟨owned.store, owned.refreshes⟩
  | joins =>
    unfold Tab.joinRefresh
    split
    · exact ⟨owned.store, owned.refreshes⟩
    · refine ⟨owned.store, fun refresh member => ?_⟩
      rcases List.mem_append.mp member with old | new
      · exact owned.refreshes refresh old
      · cases List.mem_singleton.mp new
        exact owned.store.refreshing
  | ends | expires | retries => exact ⟨owned.store, owned.refreshes⟩
  | serves found stepped =>
    have grown := issued_grows stepped
    have stems := owned.refreshes _ (List.mem_of_getElem? found)
    refine ⟨owned.store.mono grown, fun other member => ?_⟩
    rcases List.mem_or_eq_of_mem_set member with old | rfl
    · exact (owned.refreshes other old).mono grown
    · exact answer_from genuine.sound lawful stems stepped
  | unavailable | throws | finallyRuns => exact owned.set owned.store rfl rfl rfl trivial
  | @reads _ tokens found =>
    have stems := owned.refreshes (.answered (.ok tokens)) (List.mem_of_getElem? found)
    exact owned.set owned.store rfl rfl rfl stems
  | @refused index cause found =>
    have promised := (orderly.promise index _ found).mp rfl
    refine ⟨rfl, after.stems fun other refresh current present => ?_⟩
    cases promised.symm.trans current
    have below := (List.getElem?_eq_some_iff.mp found).1
    cases (List.getElem?_set_self below).symm.trans present
    trivial
  | @renews _ tokens found =>
    obtain ⟨userId, same, paired⟩ := owned.refreshes _ (List.mem_of_getElem? found)
    refine owned.set ?_ rfl rfl rfl trivial
    rw [same]
    exact ⟨tokens, paired, rfl⟩

instance {Token : Type} (tab : Tab Token) (event : Event Token) : Decidable (Quiet tab event) :=
  match event with
  | .setTokens _ | .logout => inferInstanceAs (Decidable (tab.refreshPromise = none))
  | .server _ | .login _ _ _ | .reload | .apiFetch _ | .respond _ _ _ | .fetchThrows _ | .resume _
  | .refresh _ _ _ _ | .unavailable _ _ | .refreshThrows _ | .respondRefresh _ | .json _ _
  | .finallyRuns _ => isTrue trivial

/-- A login, and a call which is answered 401. -/
def rejectedCall : List (Event (Option Payload)) := [
  .server (.change { users := [{ id := 7, email := "ada@example.com" }] }),
  .login 7 0 0,
  .setTokens 0,
  .apiFetch "/orgs",
  .respond 0 401 true,
  .refresh 0 1000 1000 1000,
  .respondRefresh 0]

/-- The user logs out while the refresh is under way, and its answer brings the session back. -/
example : ((browsing sealed {}).run (Honest sealed) { server := {} }
    (rejectedCall ++ [.logout, .json 0 true])).any
      (fun tab => tab.owner.isNone && tab.store.refreshToken.isSome) = true := by
  decide +kernel

end Tabs
end Pulse.Client
