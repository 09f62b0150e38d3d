import Pulse.System.State

/-! `fail_n_times_handler` of `worker/handlers.py`, the handler whose outcome the attempt decides. -/
namespace Pulse

def deliberateFailure (attempt : Nat) (failUntil : Int) : String :=
  "deliberate failure on attempt " ++ toString attempt ++ " (fail_until=" ++ toString failUntil ++ ")"

/-- `failUntil` is `int(payload.get("fail_until", 1))`, or the type and text of what it raises. -/
def failNTimesHandler (failUntil : Except (String × String) Int) (attempt : Nat) : Outcome :=
  match failUntil with
  | .error (errorType, errorMessage) => .failure errorType errorMessage
  | .ok failUntil =>
    if attempt ≤ failUntil then .failure "RuntimeError" (deliberateFailure attempt failUntil)
    else .success

/-- `final_error` of the dead letter which the reaper writes. -/
def workerLostFinal : String := WORKER_LOST_ERROR ++ ": " ++ workerLostMessage

end Pulse
