import Cordon.Number.Binary64
import Cordon.Text.Ascii
/-!
Values of a settings source, whatever it is written in, and what each can stand for: a switch, a count,
a text or a list of texts.
-/
namespace Cordon

open Text

inductive Document where
  | null
  | bool (b : Bool)
  | whole (n : Int)
  | decimal (x : Binary64)
  | text (s : String)
  | list (elements : List Document)
  | table (entries : List (String × Document))

namespace Document

/-- Whole numbers take 64 bits with their sign; this is the first that is too large. -/
def wholeBound : Nat := UInt64.size / 2

/-- A whole number that is in range. -/
def wholeInRange? (n : Int) : Option Int :=
  if -(wholeBound : Int) ≤ n ∧ n < wholeBound then some n else none

def yesWords : List String := ["true", "on", "yes"]

def noWords : List String := ["false", "off", "no"]

/-- A switch; numbers other than zero are on. -/
def switch? : Document → Option Bool
  | .bool b => some b
  | .whole n => some (n ≠ 0)
  | .decimal x => some !x.isZero
  | .text s =>
    let word := lowerAscii s
    if word = "1" || yesWords.contains word then some true
    else if word = "0" || noWords.contains word then some false
    else none
  | _ => none

/-- The largest count. -/
def countLimit : Nat := UInt64.size - 1

/-- Decimal digits of a count, with an optional plus. -/
def readCount (s : String) : Option Nat :=
  let digits := match s.toList with
    | '+' :: digits => digits
    | digits => digits
  if digits.isEmpty || !digits.all isDigit then none
  else
    let n := ofDigits digits
    if n ≤ countLimit then some n else none

def count? : Document → Option Nat
  | .bool b => some b.toNat
  | .whole n => if 0 ≤ n then some n.toNat else none
  | .decimal x => some (x.roundClamped countLimit)
  | .text s =>
    let word := lowerAscii s
    if yesWords.contains word then some 1
    else if noWords.contains word then some 0
    else readCount s
  | _ => none

def string? : Document → Option String
  | .bool b => some (if b then "true" else "false")
  | .whole n => some (toString n)
  | .decimal x => some x.text
  | .text s => some s
  | _ => none

def strings? : Document → Option (List String)
  | .list elements => elements.mapM string?
  | _ => none

/-- A text, or nothing. -/
def stringOrNull? : Document → Option (Option String)
  | .null => some none
  | d => d.string?.map some

end Document
end Cordon
