import Cordon.Bridge.Exported
import Cordon.Error
/-!
The guards of the resolution functions that programs call before there is a socket. They look at their
switch on every call, so that it takes effect on guards that exist already.
-/
namespace Cordon

inductive ManagedEntry where
  | standard
  | hyper
  | trustDns
  deriving DecidableEq

namespace ManagedEntry

def all : List ManagedEntry := [standard, hyper, trustDns]

def callerTag : ManagedEntry → String
  | .standard => "std-resolve"
  | .hyper => "hyper-resolver"
  | .trustDns => "trust-dns"

end ManagedEntry

structure ManagedHooks where
  installed : Bool := false
  resolver : Resolver := .dynamic

namespace ManagedHooks

def install (h : ManagedHooks) : ManagedHooks := { h with installed := true }

def uninstall (h : ManagedHooks) : ManagedHooks := { h with installed := false }

def describe (h : ManagedHooks) : String :=
  "ManagedHooks \x7b installed: " ++ (if h.installed then "true" else "false") ++ ", resolver: " ++
    h.resolver.describe ++ " \x7d"

variable {ε : Type} (m : Embedder ε)

/-- The decision taken before a name is resolved; the empty name stands for this machine. -/
def prologue (h : ManagedHooks) (t : Thread) (entry : ManagedEntry) (host : String) :
    Act ε Decision := do
  if host = "" || !h.installed then return .allow
  match ← h.resolver.resolve with
  | none => return .allow
  | some bridge =>
    if ← bridge.isActive m t then bridge.check m t host nameResolutionPort entry.callerTag
    else return .allow

/-- Runs a resolution that the prologue lets pass. -/
def guarded {α : Type} (h : ManagedHooks) (t : Thread) (entry : ManagedEntry) (host : String)
    (resolution : Act ε (Except IoError α)) : Act ε (Except IoError α) := do
  match ← h.prologue m t entry host with
  | .allow => resolution
  | .block b => return .error (.denied b)

/-- Resolves an address to itself at a port; other names need a resolver of the system. -/
def resolveLiteral (host : String) (port : UInt16) : Except IoError (List Endpoint) :=
  match Address.read host with
  | some address => .ok [⟨address, port⟩]
  | none => .error (.other "failed to lookup address information")

def resolve (h : ManagedHooks) (t : Thread) (host : String) (port : UInt16) :
    Act ε (Except IoError (List Endpoint)) :=
  h.guarded m t .standard host (return resolveLiteral host port)

end ManagedHooks
end Cordon
