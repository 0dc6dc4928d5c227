/-!
Texts compared and searched by their ASCII letters: case is ignored for `A`–`Z` and for nothing else.
-/
namespace Cordon.Text

/-- The characters of `s` with `A`–`Z` lowered. -/
def asciiKey (s : String) : List Char := s.toList.map Char.toLower

def lowerAscii (s : String) : String := .ofList (asciiKey s)

/-- Equality up to the case of ASCII letters. -/
def eqIgnoreAsciiCase (a b : String) : Bool := asciiKey a == asciiKey b

theorem eqIgnoreAsciiCase_iff {a b : String} :
    eqIgnoreAsciiCase a b = true ↔ asciiKey a = asciiKey b := by
  simp [eqIgnoreAsciiCase]

def isDigit (c : Char) : Bool := '0' ≤ c && c ≤ '9'

def digitValue (c : Char) : Nat := c.toNat - '0'.toNat

/-- The number that a run of decimal digits writes. -/
def ofDigits (cs : List Char) : Nat := cs.foldl (fun n c => n * 10 + digitValue c) 0

/-- The value of a hexadecimal digit in either case. -/
def hexValue? (c : Char) : Option Nat :=
  if isDigit c then some (digitValue c)
  else if 'a' ≤ c && c ≤ 'f' then some (c.toNat - 'a'.toNat + 10)
  else if 'A' ≤ c && c ≤ 'F' then some (c.toNat - 'A'.toNat + 10)
  else none

/-- The number that a run of hexadecimal digits writes, if it holds nothing else. -/
def ofHexDigits? (cs : List Char) : Option Nat :=
  cs.foldlM (fun n c => (hexValue? c).map (n * 16 + ·)) 0

end Cordon.Text
