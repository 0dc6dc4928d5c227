import Cordon.Address
/-!
The numeric host names that the C library understands without a look-up: an IPv4 address of one to
four numbers, each decimal, octal or hexadecimal, the last of which fills the bytes that are left; and
an IPv6 address, which may name its scope.
-/
namespace Cordon.Address

open Text

/-- A number with the marks of the C language for its base. -/
def readCNumber : List Char → Option Nat
  | [] => none
  | '0' :: 'x' :: digits | '0' :: 'X' :: digits =>
    if digits.isEmpty then none else ofHexDigits? digits
  | '0' :: digits =>
    if digits.all fun c => '0' ≤ c && c ≤ '7' then
      some (digits.foldl (fun n c => n * 8 + digitValue c) 0)
    else none
  | digits => if digits.all isDigit then some (ofDigits digits) else none

/-- All numbers but the last are single bytes. -/
def readLooseV4 (cs : List Char) : Option (BitVec 32) := do
  let parts ← (splitAt '.' cs).mapM readCNumber
  guard (parts.length ≤ 4)
  let last ← parts.getLast?
  let bytes := parts.dropLast
  guard (bytes.all (· < 256))
  let room := Nat.pow 256 (4 - bytes.length)
  guard (last < room)
  return BitVec.ofNat 32 (ofParts 256 bytes * room + last)

def readNumeric (s : String) : Option Address :=
  match readLooseV4 s.toList with
  | some bits => some (.v4 bits)
  | none => (Endpoint.readScoped s.toList).map .v6

end Cordon.Address
