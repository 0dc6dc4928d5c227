import Cordon.Files
import Cordon.Json.Document
import Cordon.Settings
import Cordon.Settings.Environment
import Cordon.Toml
/-!
Settings from a file and from the environment. Sources are laid over one another first; only then is
each value read as its setting, and the whole checked.
-/
namespace Cordon

open Text

namespace Settings

/-! ## Reading a document -/

/-- A field that is absent or can be read. -/
def field {α : Type} (read : Document → Option α) (default : α) (key : String)
    (entries : Layer.Entries) : Option α :=
  match entries.lookup key with
  | none => some default
  | some value => read value

/-- A section is a table. A section that is written as an array of its values in order is refused
here, also where the settings library would take it. -/
def inSection {α : Type} (read : Layer.Entries → Option α) : Document → Option α
  | .table entries => read entries
  | _ => none

def defaultsOf (entries : Layer.Entries) : Option Defaults := do
  return {
    applyToAllTests := ← field Document.switch? false "apply_to_all_tests" entries
    allowedHosts := ← field Document.strings? [] "allowed_hosts" entries
    blockedHosts := ← field Document.strings? [] "blocked_hosts" entries }

def engineOf (entries : Layer.Entries) : Option EngineSettings := do
  return {
    stackSnippetDepth := ← field Document.count? 12 "stack_snippet_depth" entries
    exemptStackMarkers := ← field Document.strings? [] "exempt_stack_markers" entries
    harnessThreadPrefixes := ← field Document.strings? [] "harness_thread_prefixes" entries }

def nativeOf (entries : Layer.Entries) : Option NativeSettings := do
  return {
    preloadLibraryPath := ← field Document.stringOrNull? none "preload_library_path" entries
    debug := ← field Document.switch? false "debug" entries }

def loggingOf (entries : Layer.Entries) : Option LoggingSettings := do
  return {
    filter := ← field Document.string? "warn" "filter" entries
    json := ← field Document.switch? false "json" entries }

def ofEntries (entries : Layer.Entries) : Option Settings := do
  return {
    defaults := ← field (inSection defaultsOf) {} "defaults" entries
    engine := ← field (inSection engineOf) {} "engine" entries
    native := ← field (inSection nativeOf) {} "native" entries
    logging := ← field (inSection loggingOf) {} "logging" entries }

/-! ## Files -/

inductive Format where
  | toml
  | json
  deriving DecidableEq

namespace Format

def all : List Format := [toml, json]

def extension : Format → String
  | toml => "toml"
  | json => "json"

def read : Format → String → Option Layer.Entries
  | toml => Toml.read
  | json => Json.readTable

end Format

/-- A byte order mark at the head of a file is no part of its text. -/
def withoutMark (text : String) : String :=
  match text.toList with
  | '\uFEFF' :: rest => .ofList rest
  | _ => text

def formatOf? (path : String) : Option Format :=
  (Files.extension? path).bind fun e => Format.all.find? (·.extension = e)

/-- The paths that are tried where there is no file at a path: the extension of each format is
appended. -/
def alternatives (path : String) : List (Format × String) :=
  match Files.named? path with
  | some name => Format.all.map fun format => (format, name ++ "." ++ format.extension)
  | none => []

/-- The text of the file of a path, or else of the first alternative to it, with its format. -/
def locate (files : Files) (path : String) : Option (Format × Option String) :=
  match files path with
  | some (.file text) => (formatOf? path).map fun format => (format, text)
  | _ => (alternatives path).findSome? fun (format, path) =>
    match files path with
    | some (.file text) => some (format, text)
    | _ => none

/-- Sources in the order in which they are laid over one another, read and checked. -/
def ofSources (sources : List Layer.Entries) : Except Error Settings := do
  let document := sources.foldl (fun d source => Layer.overlay source d) (.table [])
  match ofEntries (Layer.entriesOf document) with
  | none => throw .source
  | some settings =>
    settings.validate
    return settings

def readFile (format : Format) (text : Option String) : Except Error Layer.Entries :=
  match text.bind fun text => format.read (withoutMark text) with
  | some entries => .ok entries
  | none => .error .source

/-- The settings of one file, whatever the environment. -/
def loadFile (files : Files) (path : String) : Except Error Settings := do
  if !files.pathExists path then
    throw (.settings ("Configuration file not found: " ++ quote path))
  match locate files path with
  | none => throw .source
  | some (format, text) => ofSources [← readFile format text]

/-- The variable that names the file of settings. -/
def pathVariable : String := "AIRGAP_CONFIG"

def defaultPath : String := "airgap.toml"

def pathIn (env : Environment) : String := (env.get? pathVariable).getD defaultPath

/-- The settings of the file that the environment names, if there is one, under those of the
environment itself. -/
def load (env : Environment) (files : Files) : Except Error Settings := do
  match locate files (pathIn env) with
  | none => ofSources [env.source]
  | some (format, text) => ofSources [← readFile format text, env.source]

/-- Settings that cannot be loaded are taken to be the built-in ones. -/
def loadOrDefault (env : Environment) (files : Files) : Settings :=
  match load env files with
  | .ok settings => settings
  | .error _ => {}

end Settings
end Cordon
