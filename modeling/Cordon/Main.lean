import Cordon.Check
import Cordon.Text.Utf8
/-!
The command line of the check: arguments, environment and files in, lines and an exit status out.
-/
namespace Cordon.Main

/-- The variables of a block of `name=value` texts that end in zeros. -/
def readEnvironment (bytes : ByteArray) : Environment :=
  (Text.splitAt 0 bytes.toList).filterMap fun entry =>
    match Text.cutAt ['='.toUInt8] entry with
    | some (name, value) => do
      let name ← Text.ofUtf8? name
      let value ← Text.ofUtf8? value
      return (name, value)
    | none => none

/-- The entry at a path. -/
def readEntry (path : String) : IO (Option FileEntry) := do
  try
    let bytes ← IO.FS.readBinFile path
    return some (.file (Text.ofUtf8? bytes.toList))
  catch _ => return none

/-- The files that the settings may come from. -/
def readFiles (env : Environment) : IO Files := do
  let path := Settings.pathIn env
  let paths := path :: (Settings.alternatives path).map (·.2)
  let entries ← paths.filterMapM fun path => do
    return (← readEntry path).map fun entry => (path, entry)
  return fun path => entries.lookup path

end Cordon.Main

open Cordon in
/-- Prints the lines of the report, then what failed, and exits with its status. Of log filters it takes
the plain ones. -/
def main (arguments : List String) : IO UInt32 := do
  let env := Main.readEnvironment (← IO.FS.readBinFile "/proc/self/environ")
  let files ← Main.readFiles env
  let report := Check.run .plain arguments env files
  for line in report.lines do
    IO.println line.toJson.render
  if let some failure := report.failure then
    for line in failure.lines do
      IO.eprintln line
  return report.status
