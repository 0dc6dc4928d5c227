import Cordon.Destination
import Cordon.Json.Record
import Cordon.LogFilter
import Cordon.Settings.Load
import Cordon.World
/-!
The check of destinations on the command line. Each is decided on as in a test that is guarded by the
configured defaults alone, in the order in which they are named, until one cannot be read.
-/
namespace Cordon.Check

/-- The tag of the attempts that the check makes. -/
def caller : String := "airgap-check"

def version : String := "0.1.0"

/-- One line of the answer. -/
inductive Line where
  | version
  | verdict (argument : String) (destination : Destination) (decision : Decision)

/-- Why the check ended early. -/
inductive Failure where
  | usage
  | settings (e : Error)
  | logging (e : Error)
  | scope (e : Error)
  | port (argument : String) (fault : Destination.PortFault)

/-- What is reported of a failure: a headline, and the causes under it. -/
def Failure.messages : Failure → List String
  | .usage => ["usage: airgap-check <host[:port]>..."]
  | .settings e => ["Failed to load airgap configuration", e.message]
  | .logging e | .scope e => [e.message]
  | .port argument fault => ["Invalid port in destination '" ++ argument ++ "'", fault.message]

structure Report where
  lines : List Line
  failure : Option Failure := none

def Line.isBlocked : Line → Bool
  | .version => false
  | .verdict _ _ decision => decision.isBlocked

/-- The exit status. -/
def Report.status (r : Report) : UInt32 :=
  if r.failure.isSome || r.lines.any Line.isBlocked then 1 else 0

/-- Decides on one argument after the other. -/
def decideAll (engine : Engine) (t : Thread) : (arguments : List String) → World Unit → Report
  | [], _ => ⟨[], none⟩
  | argument :: rest, w =>
    match Destination.read argument with
    | .error fault => ⟨[], some (.port argument fault)⟩
    | .ok d =>
      let (j, w) := w.decide engine t d.host d.port caller w.callStack
      let report := decideAll engine t rest w
      { report with lines := .verdict argument d j.decision :: report.lines }

/-- The main thread of the check. -/
def thread : Thread := ⟨0, some "main"⟩

def decideUnder (settings : Settings) (arguments : List String) (frames : List String) : Report :=
  let (store, w) := ({ frames, embedding := () } : World Unit).onStores (·.create Classifier.noHarness)
  let lifecycle : Lifecycle := ⟨store, settings.defaults⟩
  let (opened, w) := w.onStores fun stores => lifecycle.beforeTest stores thread Annotations.blocking
  match opened with
  | .error rejection => ⟨[], some (.scope (.ofRejection rejection))⟩
  | .ok _ => decideAll (.ofSettings store settings.engine) thread arguments w

/-- The whole check; `frames` are those of the calling stack. -/
def run (grammar : LogFilter.Grammar) (arguments : List String) (env : Environment) (files : Files)
    (frames : List String := []) : Report :=
  if arguments.contains "--version" then ⟨[.version], none⟩
  else if arguments.isEmpty then ⟨[], some .usage⟩
  else
    match Settings.load env files with
    | .error e => ⟨[], some (.settings e)⟩
    | .ok settings =>
      match LogFilter.install grammar env settings.logging with
      | .error e => ⟨[], some (.logging e)⟩
      | .ok _ => decideUnder settings arguments frames

/-! ## Text -/

open Json in
/-- The members of a line stand in the order of their names. -/
def Line.toJson : Line → Json
  | .version => ofMembers [("version", ofString Check.version)]
  | .verdict argument d decision =>
    ofMembers [("destination", ofString argument), ("host", ofString d.host), ("port", ofInt d.port),
      ("result", decision.toJson)]

/-- The lines that report a failure: the headline, and its causes with numbers if there are several. -/
def Failure.lines (f : Failure) : List String :=
  match f.messages with
  | [] => []
  | [headline] => ["Error: " ++ headline]
  | headline :: causes => ("Error: " ++ headline) :: "" :: "Caused by:" :: causes.map ("    " ++ ·)

end Cordon.Check
