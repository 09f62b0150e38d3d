import Pulse.Safety.Windows

/-! `POST /auth/login` in one API process: the requests on its event loop, and the
`FailureLimiter` which they share. -/
namespace Pulse.Login
open Library Library.Lts

/-- `str.lower` and passlib's `verify`. -/
structure Functions where
  lower : String → String
  verifyPassword : String → String → Bool

/-- Where a request stands: it awaits its user's row, it has got the password hash of the row
(`none` where no user has the e-mail), or it has been answered with 429, 401 or 200. -/
inductive Stage where
  | lookingUp
  | verifying (passwordHash : Option String)
  | tooManyRequests (repliedAt : Time)
  | unauthorized (repliedAt : Time)
  | granted (repliedAt : Time)
deriving DecidableEq, Repr

structure Request where
  clientIp : Option String
  email : String
  password : String
  stage : Stage := .lookingUp
deriving DecidableEq, Repr

/-- `limiter_key`. -/
def limiterKey (functions : Functions) (clientIp : Option String) (email : String) : String :=
  clientIp.getD "unknown" ++ "|" ++ functions.lower email

def Request.key (functions : Functions) (request : Request) : String :=
  limiterKey functions request.clientIp request.email

/-- `user is None or not verify_password(...)`, negated. -/
def Request.verified (functions : Functions) (request : Request) (passwordHash : Option String) :
    Bool :=
  passwordHash.any (functions.verifyPassword request.password)

/-- The limiter of the process, and its requests in the order of their arrival. -/
structure Process where
  usage : Usage := {}
  requests : List Request := []

/-- A request goes on. -/
def Process.resume (process : Process) (index : Nat) (request : Request) (stage : Stage) : Process :=
  { process with requests := process.requests.set index { request with stage } }

/-- A request arrives and is tested; its row is returned; it is verified and answered. -/
inductive Action where
  | test (clientIp : Option String) (email password : String) (now : Time)
  | lookup (index : Nat) (passwordHash : Option String)
  | verify (index : Nat) (now : Time)
deriving DecidableEq, Repr

/-- A request once it is tested. -/
def tested (clientIp : Option String) (email password : String) (blocked : Bool) (now : Time) :
    Request :=
  { clientIp, email, password, stage := if blocked then .tooManyRequests now else .lookingUp }

/-- What a verification does to the limiter, and the answer. -/
def Request.answer (functions : Functions) (request : Request) (passwordHash : Option String)
    (now : Time) : LimiterCall × Stage :=
  if request.verified functions passwordHash then
    (.reset (request.key functions) now, .granted now)
  else (.recordFailure (request.key functions) now, .unauthorized now)

def step (functions : Functions) (limiter : FailureLimiter) (process : Process) :
    Action → Option Process
  | .test clientIp email password now =>
    let key := limiterKey functions clientIp email
    let blocked := (limiter.isBlocked process.usage.failures key now).1
    ((usageOf limiter).step process.usage (.isBlocked key now)).map fun usage =>
      { usage, requests := process.requests ++ [tested clientIp email password blocked now] }
  | .lookup index passwordHash =>
    match process.requests[index]? with
    | some request =>
      if request.stage = .lookingUp then
        some (process.resume index request (.verifying passwordHash))
      else none
    | none => none
  | .verify index now =>
    match process.requests[index]? with
    | some request =>
      match request.stage with
      | .verifying passwordHash =>
        let answer := request.answer functions passwordHash now
        ((usageOf limiter).step process.usage answer.1).map fun usage =>
          { process.resume index request answer.2 with usage }
      | _ => none
    | none => none

def login (functions : Functions) (limiter : FailureLimiter) : Machine Process Action where
  init := fun process => (usageOf limiter).init process.usage ∧ process.requests = []
  step := step functions limiter

section Steps
variable {functions : Functions} {limiter : FailureLimiter} {process next : Process} {index : Nat}
  {passwordHash : Option String} {now : Time} {clientIp : Option String} {email password : String}

theorem step_test (taken : step functions limiter process (.test clientIp email password now) =
      some next) :
    ∃ usage, (usageOf limiter).step process.usage
        (.isBlocked (limiterKey functions clientIp email) now) = some usage ∧
      next = { usage, requests := process.requests ++ [tested clientIp email password
        (limiter.isBlocked process.usage.failures (limiterKey functions clientIp email) now).1 now] } := by
  obtain ⟨usage, made, rfl⟩ := Option.map_eq_some_iff.mp taken
  exact ⟨usage, made, rfl⟩

theorem step_lookup (taken : step functions limiter process (.lookup index passwordHash) =
      some next) :
    ∃ request, process.requests[index]? = some request ∧ request.stage = .lookingUp ∧
      next = process.resume index request (.verifying passwordHash) := by
  simp only [step] at taken
  split at taken
  · rename_i request found
    split at taken
    · rename_i waiting
      exact ⟨request, found, waiting, (Option.some.inj taken).symm⟩
    · cases taken
  · cases taken

theorem step_verify (taken : step functions limiter process (.verify index now) = some next) :
    ∃ request passwordHash, process.requests[index]? = some request ∧
      request.stage = .verifying passwordHash ∧ ∃ usage, (usageOf limiter).step process.usage
        (request.answer functions passwordHash now).1 = some usage ∧
      next = { process.resume index request (request.answer functions passwordHash now).2 with
        usage } := by
  simp only [step] at taken
  split at taken
  · rename_i request found
    split at taken
    · rename_i passwordHash verifying
      obtain ⟨usage, made, rfl⟩ := Option.map_eq_some_iff.mp taken
      exact ⟨request, passwordHash, found, verifying, usage, made, rfl⟩
    · cases taken
  · cases taken

end Steps
end Pulse.Login
