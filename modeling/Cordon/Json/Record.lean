import Cordon.Json.Render
import Cordon.Lifecycle
import Cordon.Settings
/-!
Records in JSON. A record is written as an object with all its fields in the order of their declaration.
It is read from an object, whose members may come in any order, or from an array of its fields in the
order of their declaration. What is absent has its default; what no field is called by is passed over; a
field given twice, too many elements and a value of another type are errors.
-/
namespace Cordon

namespace Json

/-- The values of the named fields, where there are any. -/
def fields (names : List String) : Json → Option (List (Option Json))
  | .object members => do
    let members ← members? members
    let given := (members.map (·.1)).filter names.contains
    guard (given.eraseDups.length = given.length)
    return names.map (members.lookup ·)
  | .array elements =>
    if elements.length ≤ names.length then
      some ((List.range names.length).map (elements[·]?))
    else none
  | _ => none

/-- The object of the named fields. -/
def record (names : List String) (values : List Json) : Json := ofMembers (names.zip values)

/-- A field that is absent or can be read. -/
def field {α : Type} (read : Json → Option α) (default : α) : Option Json → Option α
  | none => some default
  | some value => read value

def bool? : Json → Option Bool
  | .bool b => some b
  | _ => none

def string? : Json → Option String
  | .text pieces => Piece.string? pieces
  | _ => none

def strings? : Json → Option (List String)
  | .array elements => elements.mapM string?
  | _ => none

/-- A text, or nothing. -/
def stringOrNull? : Json → Option (Option String)
  | .null => some none
  | value => (string? value).map some

/-- A whole number of 64 bits, written without a sign, a fraction or an exponent. -/
def count? : Json → Option Nat
  | .number n =>
    let value := Text.ofDigits n.whole
    if !n.negative && n.fraction.isEmpty && n.exponent.isEmpty && value < UInt64.size then some value
    else none
  | _ => none

end Json

open Json

def Annotations.fieldNames : List String :=
  ["block_network_requests", "allow_network_requests", "allowed_hosts", "blocked_hosts"]

def Annotations.ofJson (j : Json) : Option Annotations := do
  match ← j.fields Annotations.fieldNames with
  | [block, allow, allowed, blocked] =>
    return {
      blockNetworkRequests := ← field bool? false block
      allowNetworkRequests := ← field bool? false allow
      allowedHosts := ← field strings? [] allowed
      blockedHosts := ← field strings? [] blocked }
  | _ => none

def Annotations.read (text : String) : Option Annotations := (Json.read text).bind ofJson

def Annotations.toJson (a : Annotations) : Json :=
  .record Annotations.fieldNames [.bool a.blockNetworkRequests, .bool a.allowNetworkRequests,
    ofStrings a.allowedHosts, ofStrings a.blockedHosts]

def Defaults.fieldNames : List String := ["apply_to_all_tests", "allowed_hosts", "blocked_hosts"]

def Defaults.ofJson (j : Json) : Option Defaults := do
  match ← j.fields Defaults.fieldNames with
  | [all, allowed, blocked] =>
    return {
      applyToAllTests := ← field bool? false all
      allowedHosts := ← field strings? [] allowed
      blockedHosts := ← field strings? [] blocked }
  | _ => none

def Defaults.toJson (d : Defaults) : Json :=
  .record Defaults.fieldNames
    [.bool d.applyToAllTests, ofStrings d.allowedHosts, ofStrings d.blockedHosts]

def EngineSettings.fieldNames : List String :=
  ["stack_snippet_depth", "exempt_stack_markers", "harness_thread_prefixes"]

def EngineSettings.ofJson (j : Json) : Option EngineSettings := do
  match ← j.fields EngineSettings.fieldNames with
  | [depth, markers, starts] =>
    return {
      stackSnippetDepth := ← field count? 12 depth
      exemptStackMarkers := ← field strings? [] markers
      harnessThreadPrefixes := ← field strings? [] starts }
  | _ => none

def EngineSettings.toJson (x : EngineSettings) : Json :=
  .record EngineSettings.fieldNames [ofNat x.stackSnippetDepth, ofStrings x.exemptStackMarkers,
    ofStrings x.harnessThreadPrefixes]

def NativeSettings.fieldNames : List String := ["preload_library_path", "debug"]

def NativeSettings.ofJson (j : Json) : Option NativeSettings := do
  match ← j.fields NativeSettings.fieldNames with
  | [path, debug] =>
    return {
      preloadLibraryPath := ← field stringOrNull? none path
      debug := ← field bool? false debug }
  | _ => none

def NativeSettings.toJson (x : NativeSettings) : Json :=
  .record NativeSettings.fieldNames [ofStringOrNull x.preloadLibraryPath, .bool x.debug]

def LoggingSettings.fieldNames : List String := ["filter", "json"]

def LoggingSettings.ofJson (j : Json) : Option LoggingSettings := do
  match ← j.fields LoggingSettings.fieldNames with
  | [filter, json] =>
    return {
      filter := ← field string? "warn" filter
      json := ← field bool? false json }
  | _ => none

def LoggingSettings.toJson (x : LoggingSettings) : Json :=
  .record LoggingSettings.fieldNames [ofString x.filter, .bool x.json]

def Settings.fieldNames : List String := ["defaults", "engine", "native", "logging"]

def Settings.ofJson (j : Json) : Option Settings := do
  match ← j.fields Settings.fieldNames with
  | [defaults, engine, native, logging] =>
    return {
      defaults := ← field Defaults.ofJson {} defaults
      engine := ← field EngineSettings.ofJson {} engine
      native := ← field NativeSettings.ofJson {} native
      logging := ← field LoggingSettings.ofJson {} logging }
  | _ => none

def Settings.toJson (s : Settings) : Json :=
  .record Settings.fieldNames
    [s.defaults.toJson, s.engine.toJson, s.native.toJson, s.logging.toJson]

def Settings.read (text : String) : Option Settings := (Json.read text).bind ofJson

/-! ## Attempts and decisions -/

def BlockedAttempt.toJson (b : BlockedAttempt) : Json :=
  ofMembers [("host", ofString b.host), ("port", ofInt b.port), ("caller", ofString b.caller),
    ("stack", ofString b.stack)]

/-- A decision names itself beside what it reports; members stand in the order of their names. -/
def Decision.toJson : Decision → Json
  | .allow => ofMembers [("decision", ofString "allow")]
  | .block b =>
    ofMembers [("caller", ofString b.caller), ("decision", ofString "block"), ("host", ofString b.host),
      ("port", ofInt b.port), ("stack", ofString b.stack)]

end Cordon
