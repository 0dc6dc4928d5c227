import Cordon.Engine
import Cordon.NativeTable
/-!
What the guard counts: every decision by its outcome and its caller, and every native call that went
straight to the function behind the hook.
-/
namespace Cordon

inductive PassReason where
  | unhookable
  | noEngine
  deriving DecidableEq

inductive Event where
  | decision (outcome : Outcome) (caller : String)
  | passthrough (entry : NativeEntry) (reason : PassReason)
  deriving DecidableEq

def Outcome.label : Outcome → String
  | .allowed => "allowed"
  | .blocked => "blocked"
  | .exempt => "exempt"
  | .noConfiguration => "no_configuration"

def PassReason.label : PassReason → String
  | .unhookable => "unhookable"
  | .noEngine => "no_engine"

/-- The name of the counter that an event adds to. -/
def Event.counter : Event → String
  | .decision outcome caller =>
    "airgap_decisions_total\x7boutcome=" ++ outcome.label ++ ",caller=" ++ caller ++ "\x7d"
  | .passthrough entry reason =>
    "airgap_hook_passthrough_total\x7bentry_point=" ++ entry.symbol ++ ",reason=" ++ reason.label ++
      "\x7d"

/-- Every counter that was touched, with its value. -/
def counters (events : List Event) : List (Event × Nat) :=
  events.eraseDups.map fun e => (e, events.count e)

end Cordon
