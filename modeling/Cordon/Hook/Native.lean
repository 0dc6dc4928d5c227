import Cordon.Bridge.Exported
/-!
The guards of the native entry points. A guard passes an attempt without asking where its entry point
is not hooked, inside another native hook on the same thread, without an engine, and without an active
policy; what is left is for the engine to decide.
-/
namespace Cordon.NativeHook

variable {ε : Type} (m : Embedder ε)

/-- Whether an entry point is hooked; a call of one that never can be is counted. -/
def isHooked (i : TableId) (e : NativeEntry) : Act ε Bool := .ofStep fun w =>
  match (w.table i).state e with
  | .hooked => (true, w)
  | .unhookable => (false, w.count (.passthrough e .unhookable))
  | .unbound => (false, w)

/-- Runs `action` inside the hook; hooks inside hooks pass. -/
def once (t : Thread) (action : Act ε Decision) : Act ε Decision := do
  if ← Act.read (·.inHook t.id) then return .allow
  else action.bracket (·.setInHook t.id true) (·.setInHook t.id false)

/-- Asks the engine of the table, if there is one and it has an active policy. -/
def guarded (t : Thread) (i : TableId) (e : NativeEntry) (question : Bridge → Act ε Decision) :
    Act ε Decision := do
  if ← isHooked i e then
    once t do
      let resolver ← Act.read fun w => (w.table i).resolver
      match ← resolver.resolve with
      | none =>
        Act.modify (·.count (.passthrough e .noEngine))
        return .allow
      | some bridge =>
        if ← bridge.isActive m t then question bridge else return .allow
  else return .allow

/-- Guards a connection, judged by the address in its canonical form and the names it was resolved
from. -/
def guardConnect (t : Thread) (i : TableId) (target : Endpoint) (caller : String) :
    Act ε Decision :=
  guarded m t i .connect fun bridge => do
    let address := target.address.canonical
    let hostnames ← Act.read fun w => (w.table i).book.hostnames address
    bridge.checkConnection m t address hostnames target.port caller

/-- Guards a look-up; the empty name stands for this machine and is never looked up. -/
def guardLookup (t : Thread) (i : TableId) (host : String) (caller : String) : Act ε Decision :=
  if host = "" then return .allow
  else guarded m t i .getaddrinfo fun bridge => bridge.check m t host nameResolutionPort caller

end Cordon.NativeHook
