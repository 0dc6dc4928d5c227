import Cordon.Address
import Cordon.Attempt
/-!
Destinations as they are named on the command line: an address with a port, a host with a port, or a
host alone, which is checked as a resolution of its name.
-/
namespace Cordon

open Text

structure Destination where
  host : String
  port : Int
  deriving DecidableEq

namespace Destination

/-- Why a text is no port. -/
inductive PortFault where
  | empty
  | foreignCharacter
  | tooLarge
  deriving DecidableEq

def PortFault.message : PortFault → String
  | .empty => "cannot parse integer from empty string"
  | .foreignCharacter => "invalid digit found in string"
  | .tooLarge => "number too large to fit in target type"

/-- Reads a port, which a plus may stand before. The faults are looked for from left to right. -/
def readPort (cs : List Char) : Except PortFault Nat :=
  match cs with
  | [] => .error .empty
  | '+' :: [] | '-' :: [] => .error .foreignCharacter
  | '+' :: digits => go 0 digits
  | digits => go 0 digits
where
  go (n : Nat) : List Char → Except PortFault Nat
    | [] => .ok n
    | c :: rest =>
      if !isDigit c then .error .foreignCharacter
      else
        let n := n * 10 + digitValue c
        if n < 65536 then go n rest else .error .tooLarge

def isBracket (c : Char) : Bool := c == '[' || c == ']'

def trimBrackets (cs : List Char) : List Char :=
  ((cs.dropWhile isBracket).reverse.dropWhile isBracket).reverse

/-- A host alone, without brackets around it. -/
def bare (cs : List Char) : Destination := ⟨.ofList (trimBrackets cs), nameResolutionPort⟩

/-- An address with a port is reported in its canonical text. Otherwise a port follows the only
colon. -/
def read (text : String) : Except PortFault Destination :=
  match Endpoint.read text with
  | some e => .ok ⟨e.address.text, e.port.toNat⟩
  | none =>
    match cutLast ':' text.toList with
    | some (host, port) =>
      if host.contains ':' then .ok (bare text.toList)
      else (readPort port).map fun n => ⟨.ofList host, n⟩
    | none => .ok (bare text.toList)

end Destination
end Cordon
