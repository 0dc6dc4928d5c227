import Cordon.Text.Split
import Cordon.Text.Utf8
import Cordon.World
/-!
The exported functions, through which other images of the process ask whatever is registered here, and
the caller's side of them. Texts cross as bytes that end at the first zero; a list of names crosses as
one text with a line feed between the names; the stack of a block comes back in a buffer of the
caller's. When nothing is registered, when an engine breaks off and when an argument cannot be read,
the answer is to let the attempt pass.
-/
namespace Cordon

open Text

/-- A text as it crosses: nothing, or bytes none of which is zero. -/
abbrev ForeignText := Option (List UInt8)

namespace ForeignText

/-- A text up to its first zero byte. -/
def ofBytes (bytes : List UInt8) : ForeignText := some (bytes.takeWhile (· ≠ 0))

/-- The bytes of a text, which cannot cross if one of them is zero. -/
def ofString? (s : String) : Option (List UInt8) :=
  let bytes := utf8 s
  if bytes.contains 0 then none else some bytes

/-- Reads a text; nothing and bytes that are not UTF-8 have none. -/
def read (f : ForeignText) : Option String := f.bind ofUtf8?

def nameSeparator : Char := '\n'

/-- The names of a list as one text. -/
def joinNames (names : List String) : String :=
  .ofList (joinWith nameSeparator (names.map String.toList))

/-- The names that a text lists; empty ones are dropped. -/
def splitNames (text : String) : List String :=
  ((splitAt nameSeparator text.toList).map String.ofList).filter (· ≠ "")

end ForeignText

/-- What is written to a buffer of `size` bytes: as much of the text as fits, and a zero. -/
def writeBuffer (text : String) (size : Nat) : List UInt8 :=
  if size = 0 then [] else (utf8 text).take (size - 1) ++ [0]

/-- What is read from a buffer, up to the first zero. -/
def readBuffer (bytes : List UInt8) : String := ofUtf8Lossy (bytes.takeWhile (· ≠ 0))

/-- The caller's buffer for a stack. -/
def stackBufferSize : Nat := 4096

/-- A buffer that a caller hands over, by its size; there need not be one. -/
abbrev ForeignBuffer := Option Nat

/-- What an exported function answers: pass, or block with a stack to report. -/
abbrev ForeignVerdict := Option String

namespace Exported

variable {ε : Type} (m : Embedder ε)

/-- Asks what is registered; without it, or if it breaks off, the answer is `fallback`. -/
def ask {α : Type} (fallback : α) (question : Backend → Act ε α) : Act ε α := do
  match ← Act.read (·.registered) with
  | some b => (question b).orElse fallback
  | none => return fallback

def verdict : Decision → ForeignVerdict
  | .allow => none
  | .block b => some b.stack

/-- What is written to a caller's buffer along with an answer: the stack of a block. -/
def written (buffer : ForeignBuffer) : ForeignVerdict → List UInt8
  | none => []
  | some stack => (buffer.map (writeBuffer stack)).getD []

def isActive (t : Thread) : Act ε Bool := ask false fun b => b.isActive m t

def check (t : Thread) (host : ForeignText) (port : Int) (caller : ForeignText) :
    Act ε ForeignVerdict :=
  match host.read, caller.read with
  | some host, some caller => ask none fun b => verdict <$> b.check m t host port caller
  | _, _ => return none

/-- A port that a connection can have. -/
def portOf? (port : Int) : Option UInt16 :=
  if 0 ≤ port ∧ port < 65536 then some (UInt16.ofNat port.toNat) else none

def checkConnection (t : Thread) (address hostnames : ForeignText) (port : Int)
    (caller : ForeignText) : Act ε ForeignVerdict :=
  match address.read.bind Address.read, portOf? port, caller.read with
  | some address, some port, some caller =>
    let names := (hostnames.read.map ForeignText.splitNames).getD []
    ask none fun b => verdict <$> b.checkConnection m t address names port caller
  | _, _, _ => return none

def isExplicitlyBlocked (t : Thread) (host : ForeignText) : Act ε Bool :=
  match host.read with
  | some host => ask false fun b => b.isExplicitlyBlocked m t host
  | none => return false

end Exported

/-! ## The caller's side -/

namespace Foreign

variable {ε : Type} (m : Embedder ε)

/-- The decision that a verdict means; the stack has gone through the caller's buffer. -/
def decision (host : String) (port : Int) (caller : String) : ForeignVerdict → Decision
  | none => .allow
  | some stack => .block ⟨host, port, caller, readBuffer (writeBuffer stack stackBufferSize)⟩

def check (t : Thread) (host : String) (port : Int) (caller : String) : Act ε Decision :=
  match ForeignText.ofString? host, ForeignText.ofString? caller with
  | some h, some c => decision host port caller <$> Exported.check m t (some h) port (some c)
  | _, _ => return .allow

def isExplicitlyBlocked (t : Thread) (host : String) : Act ε Bool :=
  match ForeignText.ofString? host with
  | some h => Exported.isExplicitlyBlocked m t (some h)
  | none => return false

/-- The first name that is explicitly blocked; later ones are not asked about. -/
def firstBlocked (t : Thread) : List String → Act ε (Option String)
  | [] => return none
  | name :: names => do
    if ← isExplicitlyBlocked m t name then return some name else firstBlocked t names

/-- The names of a connection as they cross; none at all, and any name with a zero in it, leave
nothing to send. -/
def namesText (hostnames : List String) : ForeignText :=
  if hostnames.isEmpty then none else ForeignText.ofString? (ForeignText.joinNames hostnames)

/-- A block reports a name rather than the address: a blocked one, else the first. -/
def checkConnection (t : Thread) (address : Address) (hostnames : List String) (port : UInt16)
    (caller : String) : Act ε Decision := do
  match ForeignText.ofString? caller with
  | none => return .allow
  | some c =>
    let verdict ← Exported.checkConnection m t (some (utf8 address.text)) (namesText hostnames)
      port.toNat (some c)
    match decision address.text port.toNat caller verdict with
    | .allow => return .allow
    | .block b =>
      let blocked ← firstBlocked m t hostnames
      return .block { b with host := (blocked.or hostnames.head?).getD b.host }

end Foreign

namespace Bridge

variable {ε : Type} (m : Embedder ε)

def isActive : Bridge → Thread → Act ε Bool
  | .direct b => b.isActive m
  | .exported => Exported.isActive m

def check : Bridge → Thread → (host : String) → (port : Int) → (caller : String) → Act ε Decision
  | .direct b => b.check m
  | .exported => Foreign.check m

def checkConnection : Bridge → Thread → Address → (hostnames : List String) → (port : UInt16) →
    (caller : String) → Act ε Decision
  | .direct b => b.checkConnection m
  | .exported => Foreign.checkConnection m

def isExplicitlyBlocked : Bridge → Thread → (host : String) → Act ε Bool
  | .direct b => b.isExplicitlyBlocked m
  | .exported => Foreign.isExplicitlyBlocked m

end Bridge

namespace Resolver

variable {ε : Type}

/-- The engine of a hook call. What is registered comes first; the exported functions are looked up
by name only without it. -/
def resolve : Resolver → Act ε (Option Bridge)
  | .fixed b => return some b
  | .dynamic => .ofStep fun w =>
    match w.registered with
    | some b => (some (.direct b), w)
    | none =>
      let symbols := w.symbols.call w.clock (if w.exported then some () else none)
      (symbols.found.map fun _ => .exported, { w with symbols })

end Resolver
end Cordon
