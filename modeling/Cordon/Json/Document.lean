import Cordon.Document
import Cordon.Json
/-!
JSON as a settings source. Here every value counts: numbers must be in range, texts must be whole, no
name may occur twice in an object, and nesting is limited.
-/
namespace Cordon.Json

open Text

/-! ## Numbers -/

/-- The digits of a number that are taken into account, at most as many as 64 bits hold, and the power
of ten they are to be scaled by. Further digits of the whole part only raise the power; further digits
of the fraction have no effect. -/
structure Significand where
  digits : Nat := 0
  exponent : Int := 0
  full : Bool := false

namespace Significand

def push (x : Significand) (step : Int) (c : Char) : Significand :=
  let digits := x.digits * 10 + digitValue c
  if x.full || UInt64.size ≤ digits then { x with full := true }
  else { x with digits, exponent := x.exponent + step }

def ofWhole (whole : List Char) : Significand :=
  let x := whole.foldl (fun x c =>
    let next := x.push 0 c
    if next.full then { next with exponent := next.exponent + 1 } else next) ({} : Significand)
  { x with full := false }

def addFraction (fraction : List Char) (x : Significand) : Significand :=
  fraction.foldl (fun x c => x.push (-1) c) x

end Significand

/-- Scales a number by a power of ten that is itself a number of 64 bits. -/
def scaleOnce (x : Binary64) (exponent : Int) : Binary64 :=
  match x, Binary64.ofDecimal false 1 exponent.natAbs with
  | .finite negative s e, .finite _ s' e' =>
    let (n, d) := Binary64.ratio s e
    let (n', d') := Binary64.ratio s' e'
    if 0 ≤ exponent then .ofRatio negative (n * n') (d * d') else .ofRatio negative (n * d') (d * n')
  | x, _ => x

/-- Powers of ten up to this one are numbers of 64 bits. -/
def greatestPower : Nat := 308

/-- Scales by any power of ten, in steps where it is too small for one. -/
def scale : (fuel : Nat) → Binary64 → Int → Option Binary64
  | 0, x, _ => some x
  | fuel + 1, x, exponent =>
    if exponent.natAbs ≤ greatestPower then some (scaleOnce x exponent)
    else if x.isZero then some x
    else if 0 ≤ exponent then none
    else scale fuel (scaleOnce x (-greatestPower)) (exponent + greatestPower)

namespace Number

def isWhole (n : Number) : Bool := n.fraction.isEmpty && n.exponent.isEmpty

def exponentValue (n : Number) : Int :=
  let e : Nat := ofDigits n.exponent
  if n.exponentNegative then -e else e

/-- The largest exponent that is worked out; beyond it a number is zero or out of range. -/
def exponentLimit : Nat := 2147483647

/-- The number of 64 bits that the digits stand for, unless it is too large. -/
def decimal? (n : Number) : Option Binary64 :=
  let x := (Significand.ofWhole n.whole).addFraction n.fraction
  let magnitude : Option Binary64 :=
    if exponentLimit < ofDigits n.exponent then
      if x.digits ≠ 0 && !n.exponentNegative then none else some (.zero false)
    else scale 8 (Binary64.ofRatio false x.digits 1) (x.exponent + n.exponentValue)
  match magnitude with
  | some (.finite _ s e) => some (.finite n.negative s e)
  | _ => none

/-- Whole numbers are kept as such as far as 64 bits with a sign reach. -/
def document? (n : Number) : Option Document :=
  let value := ofDigits n.whole
  let whole? : Option Int :=
    if !n.isWhole || (n.negative && value = 0) then none
    else Document.wholeInRange? (if n.negative then -value else value)
  match whole? with
  | some whole => some (.whole whole)
  | none => n.decimal?.map .decimal

end Number

/-! ## Values -/

mutual

/-- How deep arrays and objects are nested. -/
def depth : Json → Nat
  | .array elements => elementsDepth elements + 1
  | .object members => membersDepth members + 1
  | _ => 0

def elementsDepth : List Json → Nat
  | [] => 0
  | element :: rest => max element.depth (elementsDepth rest)

def membersDepth : List (List Piece × Json) → Nat
  | [] => 0
  | (_, value) :: rest => max value.depth (membersDepth rest)

end

mutual

def document? : Json → Option Document
  | .null => some .null
  | .bool b => some (.bool b)
  | .number n => n.document?
  | .text pieces => (Piece.string? pieces).map .text
  | .array elements => (elementsDocument? elements).map .list
  | .object members => (membersDocument? members).map .table

def elementsDocument? : List Json → Option (List Document)
  | [] => some []
  | element :: rest => do
    let d ← element.document?
    let ds ← elementsDocument? rest
    return d :: ds

def membersDocument? : List (List Piece × Json) → Option (List (String × Document))
  | [] => some []
  | (pieces, value) :: rest => do
    let name ← Piece.string? pieces
    let d ← value.document?
    let ds ← membersDocument? rest
    if (ds.lookup name).isSome then none else return (name, d) :: ds

end

def depthLimit : Nat := 128

/-- Reads a document, which must be an object. -/
def readTable (text : String) : Option (List (String × Document)) := do
  let value ← read text
  guard (value.depth < depthLimit)
  match ← value.document? with
  | .table entries => return entries
  | _ => none

end Cordon.Json
