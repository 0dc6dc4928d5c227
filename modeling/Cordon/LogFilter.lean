import Cordon.Error
import Cordon.Settings
import Cordon.Settings.Environment
import Cordon.Text.Space
/-!
Filters of log lines. Which texts are filters is for the logging library to say, and is a parameter
of what depends on it. The plain ones are lists of directives between commas, each of which is a
level for everything, a target, or a target with a level.
-/
namespace Cordon.LogFilter

open Text

def levels : List String := ["off", "error", "warn", "info", "debug", "trace"]

/-- A level by its name in any case or by its number; nothing stands for a level as well. -/
def isLevel (cs : List Char) : Bool :=
  let word := lowerAscii (.ofList cs)
  word = "" || levels.contains word ||
    match cs with
    | [c] => '0' ≤ c && c ≤ '5'
    | _ => false

/-- Whether a character may stand in the name of a target. -/
def isTargetChar (c : Char) : Bool := c.isAlphanum || c == '_' || c == ':' || c == '-'

def isTarget (cs : List Char) : Bool := !cs.isEmpty && cs.all isTargetChar

def isDirective (cs : List Char) : Bool :=
  match cutAt ['='] cs with
  | none => isTarget cs
  | some (target, level) => isTarget target && isLevel level

/-- Empty directives are passed over, so that the empty filter is one. -/
def isPlain (filter : String) : Bool :=
  (splitAt ',' filter.toList).all fun directive => directive.isEmpty || isDirective directive

/-- What a logging library finds wrong with a filter, if anything. -/
abbrev Grammar := String → Option String

/-- The plain filters and no others. A whole logging library also takes directives for spans and
their fields, and targets in letters of any script. -/
def Grammar.plain : Grammar := fun filter =>
  if isPlain filter then none else some "invalid filter directive"

/-- The variable that outweighs the configured filter. -/
def variableName : String := "AIRGAP_LOG"

/-- The filter in effect: the variable unless it is blank, else the configured one. -/
def choose (env : Environment) (settings : LoggingSettings) : String :=
  match env.get? variableName with
  | some filter => if trim filter = "" then settings.filter else filter
  | none => settings.filter

/-- Sets up logging; a second time is no error. -/
def install (grammar : Grammar) (env : Environment) (settings : LoggingSettings) :
    Except Error Unit :=
  match grammar (choose env settings) with
  | none => .ok ()
  | some reason => .error (.settings ("Invalid log filter: " ++ reason))

end Cordon.LogFilter
