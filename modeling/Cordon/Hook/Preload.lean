import Cordon.Hook.Native
/-!
The functions that stand before `connect` and `getaddrinfo` of the C library. Each binds its entry
point on its first call, asks the guard where it understands its arguments, and else hands the call on
to the function behind it unchanged. A guard that breaks off blocks nothing.
-/
namespace Cordon.Preload

open Text

/-! ## Calls and answers -/

/-- The big-endian number of some bytes. -/
def bigEndian (bytes : List UInt8) : Nat := Address.ofParts 256 (bytes.map UInt8.toNat)

/-- The last `count` of the big-endian bytes of a number. -/
def bigEndianBytes : (count : Nat) → (n : Nat) → List UInt8
  | 0, _ => []
  | count + 1, n => bigEndianBytes count (n / 256) ++ [UInt8.ofNat n]

/-- Reads a socket address of the given length: the family in the first two bytes, least significant
first, then the port, and the address at the fourth byte or at the eighth. Families other than the
two of the internet protocol, and addresses cut short, are none. -/
def readSocketAddress (bytes : List UInt8) (length : Nat) : Option Endpoint :=
  let family := bigEndian (bytes.take 2).reverse
  let port := UInt16.ofNat (bigEndian ((bytes.drop 2).take 2))
  if family = 2 ∧ 16 ≤ length then
    some ⟨.v4 (BitVec.ofNat 32 (bigEndian ((bytes.drop 4).take 4))), port⟩
  else if family = 10 ∧ 28 ≤ length then
    some ⟨.v6 (BitVec.ofNat 128 (bigEndian ((bytes.drop 8).take 16))), port⟩
  else none

/-- The bytes of a socket address, if there is one, and the length that is said of it. -/
structure SocketAddress where
  bytes : Option (List UInt8)
  length : Nat

namespace SocketAddress

/-- No more is read than is there. -/
def read? (a : SocketAddress) : Option Endpoint :=
  a.bytes.bind fun bytes => readSocketAddress bytes (min a.length bytes.length)

/-- An endpoint as a complete socket address. -/
def ofEndpoint (e : Endpoint) : SocketAddress :=
  let port := bigEndianBytes 2 e.port.toNat
  match e.address with
  | .v4 bits =>
    ⟨some ([2, 0] ++ (port ++ (bigEndianBytes 4 bits.toNat ++ List.replicate 8 0))), 16⟩
  | .v6 bits =>
    ⟨some ([10, 0] ++ (port ++ (List.replicate 4 0 ++
      (bigEndianBytes 16 bits.toNat ++ List.replicate 4 0)))), 28⟩

end SocketAddress

structure ConnectCall where
  descriptor : Int
  address : SocketAddress

/-- A status, and the error number that goes with it, if one is left. -/
structure ConnectAnswer where
  status : Int
  errno : Option Nat := none

/-- Permission is denied. -/
def ConnectAnswer.denied : ConnectAnswer := ⟨-1, some 13⟩

/-- There is no such function. -/
def ConnectAnswer.missing : ConnectAnswer := ⟨-1, some 38⟩

structure LookupCall where
  node : ForeignText
  service : ForeignText := none
  hints : Option (List UInt8) := none
  /-- Whether there is a place for the results. -/
  takesResults : Bool := true

/-- A status, and the socket addresses that were found. -/
structure LookupAnswer where
  status : Int
  results : List SocketAddress := []

/-- The look-up fails for good. -/
def LookupAnswer.failed : LookupAnswer := ⟨-4, []⟩

def LookupAnswer.addresses (answer : LookupAnswer) : List Address :=
  answer.results.filterMap fun result => result.read?.map (·.address)

/-- The library behind the hooks. -/
structure Library (ε : Type) where
  /-- The address of the function that an entry point stands before, 0 if there is none. -/
  symbol : NativeEntry → Nat
  /-- The functions, by their addresses. -/
  connect : Nat → ConnectCall → Act ε ConnectAnswer
  getaddrinfo : Nat → LookupCall → Act ε LookupAnswer

/-! ## The functions in front -/

variable {ε : Type} (m : Embedder ε) (lib : Library ε)

/-- The function behind an entry point: what is bound, else what the library has, which is bound
then. -/
def original (i : TableId) (e : NativeEntry) : Act ε (Option Nat) := .ofStep fun w =>
  match (w.table i).function? e with
  | some address => (some address, w)
  | none =>
    if lib.symbol e = 0 then (none, w)
    else
      let table := ((w.table i).bind e (lib.symbol e)).2
      (some ((table.function? e).getD (lib.symbol e)), w.setTable i table)

/-- What a guard says of a call, if the call is one that it understands. -/
def verdict (guard? : Option (Act ε Decision)) : Act ε Decision :=
  match guard? with
  | some guard => guard.orElse .allow
  | none => return .allow

/-- Goes through to the function behind an entry point unless the guard blocks. -/
def through {α : Type} (i : TableId) (e : NativeEntry) (guard? : Option (Act ε Decision))
    (missing refused : α) (real : Nat → Act ε α) : Act ε α := do
  match ← original lib i e with
  | none => return missing
  | some address =>
    match ← verdict guard? with
    | .block _ => return refused
    | .allow => real address

def connect (t : Thread) (i : TableId) (call : ConnectCall) : Act ε ConnectAnswer :=
  let guard? := call.address.read?.map fun target =>
    NativeHook.guardConnect m t i target NativeEntry.connect.callerTag
  through lib i .connect guard? .missing .denied fun address => lib.connect address call

/-- Looks up, and keeps what was found in the book of the table. -/
def lookUp (i : TableId) (call : LookupCall) (address : Nat) : Act ε LookupAnswer := do
  let answer ← lib.getaddrinfo address call
  if answer.status = 0 && call.takesResults then
    if let some host := call.node.read then
      Act.modify fun w =>
        let table := w.table i
        w.setTable i { table with book := table.book.record host answer.addresses }
  return answer

def getaddrinfo (t : Thread) (i : TableId) (call : LookupCall) : Act ε LookupAnswer :=
  let guard? := call.node.read.map fun host =>
    NativeHook.guardLookup m t i host NativeEntry.getaddrinfo.callerTag
  through lib i .getaddrinfo guard? .failed .failed (lookUp lib i call)

end Cordon.Preload
