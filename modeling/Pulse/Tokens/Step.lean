import Mathlib.Data.Rat.Floor
import Pulse.Core.Rbac
import Pulse.Core.UuidText
import Pulse.Library.Lts

/-! `core/security.py` with `login` past the password and `refresh` of `api/auth.py`. PyJWT, with
the secret and the algorithm of the settings, is a parameter. -/
namespace Pulse.Tokens
open Library.Lts

inductive TokenType where
  | access
  | refresh
deriving DecidableEq, Repr

def TokenType.value : TokenType → String
  | .access => "access"
  | .refresh => "refresh"

/-- The claims of a token, each where it is there. -/
structure Payload where
  sub : Option (List Char)
  type : Option String
  iat : Option Int
  exp : Option Int
deriving DecidableEq, Repr

/-- `ExpiredSignatureError`, and any other `InvalidTokenError`. -/
inductive JwtError where
  | expiredSignature
  | invalidToken
deriving DecidableEq, Repr

/-- `jwt.encode` and `jwt.decode`; a decoding reads the clock. -/
structure Jwt (Token : Type) where
  encode : Payload → Token
  decode : Time → Token → Except JwtError Payload

/-- PyJWT's checks of `iat` and `exp`, in their order. -/
def Payload.validate (payload : Payload) (now : Time) : Except JwtError Payload :=
  if payload.iat.any fun iat => now < iat then .error .invalidToken
  else if payload.exp.any fun exp => exp ≤ now then .error .expiredSignature
  else .ok payload

/-- What has been signed with the secret decodes to its claims while they are valid. -/
structure Jwt.Lawful {Token : Type} (jwt : Jwt Token) : Prop where
  decodes : ∀ payload now, jwt.decode now (jwt.encode payload) = payload.validate now

structure Settings where
  accessTokenExpireMinutes : Nat := 15
  refreshTokenExpireDays : Nat := 7
deriving DecidableEq, Repr

/-- `expires_delta`, in seconds. -/
def Settings.expiresDelta (settings : Settings) : TokenType → Time
  | .access => 60 * settings.accessTokenExpireMinutes
  | .refresh => 86400 * settings.refreshTokenExpireDays

section Functions
variable {Token : Type} (jwt : Jwt Token) (settings : Settings) (db : Directory) (now : Time)

/-- `_create_token`; PyJWT writes whole seconds. -/
def createToken (userId : Uuid) (tokenType : TokenType) : Token :=
  jwt.encode {
    sub := some (strUuid userId), type := some tokenType.value, iat := some ⌊now⌋
    exp := some ⌊now + settings.expiresDelta tokenType⌋ }

def decodeToken (token : Token) (expectedType : TokenType) : Except ApiError Payload :=
  match jwt.decode now token with
  | .error .expiredSignature => .error (.unauthorized "Token has expired")
  | .error .invalidToken => .error (.unauthorized "Invalid token")
  | .ok payload =>
    if payload.type = some expectedType.value then .ok payload
    else .error (.unauthorized ("Expected a " ++ expectedType.value ++ " token"))

/-- `uuid.UUID(payload["sub"])`. -/
def subject (payload : Payload) : Except ApiError Uuid :=
  match payload.sub.bind parseUuid with
  | some userId => .ok userId
  | none => .error (.unauthorized "Invalid token subject")

/-- The user whom a token of that type names, as both endpoints look him up. -/
def userOf (token : Token) (expectedType : TokenType) : Except ApiError User := do
  let payload ← decodeToken jwt now token expectedType
  let userId ← subject payload
  Pulse.getCurrentUser db userId

def getCurrentUser (credentials : Option Token) : Except ApiError User :=
  match credentials with
  | none => .error (.unauthorized "Missing bearer token")
  | some token => userOf jwt db now token .access

end Functions

/-! Runs. -/

/-- A token which the server has made for a user. -/
structure Issue (Token : Type) where
  token : Token
  userId : Uuid
  tokenType : TokenType
  issuedAt : Time
deriving DecidableEq, Repr

/-- A refresh which was accepted, and one of the tokens which it answered. -/
structure Renewal where
  userId : Uuid
  acceptedAt : Time
  tokenType : TokenType
  issuedAt : Time
deriving DecidableEq, Repr

/-- The server keeps the rows of its users alone; the rest is auxiliary: the tokens it has made, at
which logins and refreshes, and the requests which it has let in. -/
structure Server (Token : Type) where
  db : Directory := {}
  issued : List (Issue Token) := []
  logins : List (Uuid × TokenType × Time) := []
  renewals : List Renewal := []
  admitted : List (Uuid × Time) := []

/-- The rows of users change in any way; a login past its password, with the readings of the clock
for the two tokens; a refresh; and a request to any other endpoint. -/
inductive Action (Token : Type) where
  | change (db : Directory)
  | login (userId : Uuid) (accessAt refreshAt : Time)
  | refresh (token : Token) (now accessAt refreshAt : Time)
  | request (credentials : Option Token) (now : Time)
deriving Repr

section Steps
variable {Token : Type} (jwt : Jwt Token) (settings : Settings)

/-- `TokenResponse`. -/
def pair (userId : Uuid) (accessAt refreshAt : Time) : List (Issue Token) := [
  { token := createToken jwt settings accessAt userId .access, userId, tokenType := .access
    issuedAt := accessAt },
  { token := createToken jwt settings refreshAt userId .refresh, userId, tokenType := .refresh
    issuedAt := refreshAt }]

/-- An id has 128 bits. -/
def step (server : Server Token) : Action Token → Option (Server Token)
  | .change db => some { server with db }
  | .login userId accessAt refreshAt => match Pulse.getCurrentUser server.db userId with
    | .ok user =>
      if user.id < 2 ^ 128 then some { server with
        issued := pair jwt settings user.id accessAt refreshAt ++ server.issued
        logins := (user.id, .access, accessAt) :: (user.id, .refresh, refreshAt) :: server.logins }
      else none
    | .error _ => none
  | .refresh token now accessAt refreshAt => match userOf jwt server.db now token .refresh with
    | .ok user => some { server with
        issued := pair jwt settings user.id accessAt refreshAt ++ server.issued
        renewals := ⟨user.id, now, .access, accessAt⟩ :: ⟨user.id, now, .refresh, refreshAt⟩ ::
          server.renewals }
    | .error _ => some server
  | .request credentials now => match getCurrentUser jwt server.db now credentials with
    | .ok user => some { server with admitted := (user.id, now) :: server.admitted }
    | .error _ => some server

def tokens : Machine (Server Token) (Action Token) where
  init := fun server => ∃ db, server = { db }
  step := step jwt settings

/-- Nobody has the secret but the server: what decodes it has made. -/
def Unforged (server : Server Token) : Action Token → Prop
  | .refresh token now _ _ | .request (some token) now =>
    ∀ payload, jwt.decode now token = .ok payload → ∃ issue ∈ server.issued, issue.token = token
  | _ => True

/-- A login, or a refresh with a token from an earlier one which was valid. -/
inductive Chain (server : Server Token) (userId : Uuid) : TokenType → Time → Prop where
  | login {tokenType : TokenType} {issuedAt : Time}
      (made : (userId, tokenType, issuedAt) ∈ server.logins) : Chain server userId tokenType issuedAt
  | refresh {earlier acceptedAt issuedAt : Time} {tokenType : TokenType}
      (before : Chain server userId .refresh earlier) (valid : ⌊earlier⌋ ≤ acceptedAt)
      (unexpired : acceptedAt < ⌊earlier + settings.expiresDelta .refresh⌋)
      (made : ⟨userId, acceptedAt, tokenType, issuedAt⟩ ∈ server.renewals) :
      Chain server userId tokenType issuedAt

end Steps
end Pulse.Tokens
