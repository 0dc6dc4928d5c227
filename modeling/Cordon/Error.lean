import Cordon.Attempt
import Cordon.Pattern
/-!
What can go wrong. A blocked attempt is the only error that code under test ever sees; the others are
mistakes in settings and conditions of the hooks.
-/
namespace Cordon

/-- An error of input and output. -/
inductive IoError where
  /-- A blocked attempt, which the caller of a blocked function sees as a denied permission. -/
  | denied (attempt : BlockedAttempt)
  | other (text : String)
  /-- An error number of the system, which carries no text of its own. -/
  | system

/-- The blocked attempt that an error of input and output carries. -/
def IoError.blocked? : IoError → Option BlockedAttempt
  | .denied attempt => some attempt
  | .other _ | .system => none

inductive Error where
  | attempted (attempt : BlockedAttempt)
  | interception (detail : String)
  | settings (detail : String)
  | pattern (text reason : String)
  /-- A source of settings that cannot be read, or a value in it that does not fit its setting. -/
  | source

namespace Error

def ofRejection (r : Pattern.Rejection) : Error := .pattern r.text r.fault.reason

def message : Error → String
  | attempted b => b.report
  | interception detail => "Interception failed: " ++ detail
  | settings detail => "Configuration error: " ++ detail
  | pattern text reason => "Invalid host pattern '" ++ text ++ "': " ++ reason
  | source => "Unusable configuration source"

end Error
end Cordon
