import Cordon.Error
import Cordon.Files
import Cordon.Settings.Load
/-!
The shared library that puts the native hooks before those of a child process, and the environment in
which such a child is started.
-/
namespace Cordon.PreloadLibrary

open Text

def name : String := "libairgap_engine.so"

/-- Where the library is looked for without a configured path. -/
def standardPaths : List String :=
  ["/usr/lib/airgap/", "/usr/local/lib/airgap/", "./target/release/"].map (· ++ name)

/-- The configured path, which must exist, else the first standard one that does. -/
def locate (files : Files) (settings : NativeSettings) : Except Error (Option String) :=
  match settings.preloadLibraryPath with
  | some path =>
    if files.pathExists path then .ok (some path)
    else .error (.interception ("Preload library not found: " ++ quote path))
  | none => .ok (standardPaths.find? files.pathExists)

/-- The variables of a child process, in order. -/
def childEnvironment (env : Environment) (files : Files) (settings : NativeSettings) : Environment :=
  (match locate files settings with
    | .ok (some path) => [("LD_PRELOAD", path)]
    | _ => []) ++
  (if settings.debug then [("AIRGAP_NATIVE__DEBUG", "true")] else []) ++
  (match env.get? Settings.pathVariable with
    | some path => [(Settings.pathVariable, path)]
    | none => [])

end Cordon.PreloadLibrary
