import Cordon.AddressBook
import Cordon.Bridge
/-!
The native entry points and how far each is hooked. An entry point can be hooked only if the table is
installed before the entry point is first bound; one that was bound earlier stays as it is for the
rest of the process.
-/
namespace Cordon

inductive NativeEntry where
  | connect
  | getaddrinfo
  deriving DecidableEq

namespace NativeEntry

def all : List NativeEntry := [connect, getaddrinfo]

def symbol : NativeEntry → String
  | connect => "connect"
  | getaddrinfo => "getaddrinfo"

def callerTag : NativeEntry → String
  | connect => "native-connect"
  | getaddrinfo => "native-dns"

end NativeEntry

inductive BindState where
  | unbound
  | hooked
  | unhookable
  deriving DecidableEq

def BindState.label : BindState → String
  | .unbound => "Unbound"
  | .hooked => "Hooked"
  | .unhookable => "Unhookable"

/-- The entry points when the table was installed. -/
structure InstallReport where
  /-- Not bound yet, and hooked once they are. -/
  pending : List NativeEntry
  unhookable : List NativeEntry
  deriving DecidableEq

def InstallReport.isComplete (r : InstallReport) : Bool := r.unhookable.isEmpty

structure NativeTable where
  resolver : Resolver := .dynamic
  installed : Option InstallReport := none
  state : NativeEntry → BindState := fun _ => .unbound
  /-- The address of the function behind an entry point; 0 as long as there is none. -/
  address : NativeEntry → Nat := fun _ => 0
  book : AddressBook := {}
  debug : Bool := false

namespace NativeTable

def isInstalled (x : NativeTable) : Bool := x.installed.isSome

/-- The report of the first installation; later ones change nothing. -/
def install (x : NativeTable) : InstallReport × NativeTable :=
  match x.installed with
  | some report => (report, x)
  | none =>
    let isPending e := x.state e = .unbound
    let report := ⟨NativeEntry.all.filter isPending, NativeEntry.all.filter (!isPending ·)⟩
    (report, { x with installed := some report })

/-- Binds an entry point to the function behind it. The first binding decides for good. -/
def bind (x : NativeTable) (e : NativeEntry) (address : Nat) : BindState × NativeTable :=
  match x.state e with
  | .unbound =>
    let state := if x.isInstalled then .hooked else .unhookable
    (state, { x with
      state := fun e' => if e' = e then state else x.state e'
      address := fun e' => if e' = e then address else x.address e' })
  | state => (state, x)

/-- The address of the function behind an entry point, if there is one. -/
def function? (x : NativeTable) (e : NativeEntry) : Option Nat :=
  if x.address e = 0 then none else some (x.address e)

end NativeTable
end Cordon
