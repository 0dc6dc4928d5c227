import Cordon.Address
import Std.Data.HashMap
/-!
The names that addresses were resolved from, so that a connection to an address can be judged by the
names as well. Several names may share an address; the last few are kept, the most recent first.
-/
namespace Cordon

open Text

structure AddressBook where
  entries : Std.HashMap Address (List String) := {}

namespace AddressBook

/-- A book that has reached this size is emptied before the next name is recorded. -/
def capacity : Nat := 16384

def namesPerAddress : Nat := 8

def size (b : AddressBook) : Nat := b.entries.size

/-- The names recorded for an address, in whichever spelling it is given. -/
def hostnames (b : AddressBook) (a : Address) : List String := b.entries.getD a.canonical []

/-- Moves `host` to the front in its new spelling. -/
def promote (host : String) (names : List String) : List String :=
  (host :: names.filter fun name => !eqIgnoreAsciiCase name host).take namesPerAddress

def remember (host : String) (b : AddressBook) (a : Address) : AddressBook :=
  ⟨b.entries.insert a.canonical (promote host (b.hostnames a))⟩

/-- Whether a name is worth recording; an address is its own name. -/
def isRecordable (host : String) : Bool := host ≠ "" && (Address.read host).isNone

/-- The book that a recording starts from. -/
def makeRoom (b : AddressBook) : AddressBook := if capacity ≤ b.size then {} else b

def record (b : AddressBook) (host : String) (addresses : List Address) : AddressBook :=
  if isRecordable host then addresses.foldl (remember host) b.makeRoom else b

@[simp] theorem hostnames_canonical (b : AddressBook) (a : Address) :
    b.hostnames a.canonical = b.hostnames a := by
  simp [hostnames]

theorem hostnames_remember (host : String) (b : AddressBook) (a x : Address) :
    (b.remember host a).hostnames x =
      if a.canonical = x.canonical then promote host (b.hostnames a) else b.hostnames x := by
  simp [remember, hostnames, Std.HashMap.getD_insert, beq_iff_eq]

end AddressBook
end Cordon
