import Cordon.Text.Quoted
/-!
Blocked attempts to reach the network, and the decisions that let an attempt pass or block it.
-/
namespace Cordon

open Text

/-- The port of an attempt that only resolves a name. -/
def nameResolutionPort : Int := -1

structure BlockedAttempt where
  host : String
  port : Int
  /-- The tag of the place that observed the attempt. -/
  caller : String
  /-- The frames of the attempt, innermost first, one a line. -/
  stack : String
  deriving DecidableEq

namespace BlockedAttempt

def destination (b : BlockedAttempt) : String :=
  if b.port = nameResolutionPort then b.host ++ " (name resolution)"
  else b.host ++ ":" ++ toString b.port

/-- One line, without the stack. -/
def message (b : BlockedAttempt) : String :=
  "Network request blocked: " ++ b.destination ++ " (caller: " ++ b.caller ++ ")"

/-- The message, followed by the stack if there is one. -/
def report (b : BlockedAttempt) : String :=
  if b.stack = "" then b.message else b.message ++ "\n" ++ b.stack

def describe (b : BlockedAttempt) : String :=
  "NetworkRequestAttempted \x7b host: " ++ quote b.host ++ ", port: " ++ toString b.port ++
    ", caller: " ++ quote b.caller ++ ", stack: " ++ quote b.stack ++ " \x7d"

end BlockedAttempt

inductive Decision where
  | allow
  | block (attempt : BlockedAttempt)
  deriving DecidableEq

namespace Decision

def isBlocked : Decision → Bool
  | .allow => false
  | .block _ => true

def isAllowed (d : Decision) : Bool := !d.isBlocked

/-- Changes what a block reports. -/
def mapAttempt (f : BlockedAttempt → BlockedAttempt) : Decision → Decision
  | .allow => .allow
  | .block b => .block (f b)

@[simp] theorem isBlocked_mapAttempt (f : BlockedAttempt → BlockedAttempt) (d : Decision) :
    (d.mapAttempt f).isBlocked = d.isBlocked := by
  cases d <;> rfl

end Decision
end Cordon
