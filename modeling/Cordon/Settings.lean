import Cordon.Error
import Cordon.Policy
/-!
Settings of the guard, with their built-in values, and the rules that a usable set of them obeys.
-/
namespace Cordon

/-- What every test is guarded by beside its own annotations. -/
structure Defaults where
  applyToAllTests : Bool := false
  allowedHosts : List String := []
  blockedHosts : List String := []
  deriving DecidableEq

namespace Defaults

def draft (d : Defaults) : Policy.Draft := ⟨d.allowedHosts, d.blockedHosts⟩

end Defaults

structure EngineSettings where
  /-- How many frames a block reports. -/
  stackSnippetDepth : Nat := 12
  /-- Parts of frames that tell the harness's own traffic. -/
  exemptStackMarkers : List String := []
  /-- How the names of the harness's own threads start. -/
  harnessThreadPrefixes : List String := []
  deriving DecidableEq

structure NativeSettings where
  preloadLibraryPath : Option String := none
  debug : Bool := false
  deriving DecidableEq

structure LoggingSettings where
  filter : String := "warn"
  json : Bool := false
  deriving DecidableEq

structure Settings where
  defaults : Defaults := {}
  engine : EngineSettings := {}
  native : NativeSettings := {}
  logging : LoggingSettings := {}
  deriving DecidableEq

namespace Settings

/-- The first text that is no pattern. -/
def checkPatterns (texts : List String) : Except Error Unit :=
  texts.forM fun text =>
    match Pattern.parse text with
    | .ok _ => .ok ()
    | .error rejection => .error (Error.ofRejection rejection)

/-- Every host must be a pattern, and a block must report at least one frame. -/
def validate (s : Settings) : Except Error Unit := do
  checkPatterns (s.defaults.allowedHosts ++ s.defaults.blockedHosts)
  if s.engine.stackSnippetDepth = 0 then
    throw (.settings "engine.stack_snippet_depth must be at least 1")

end Settings
end Cordon
