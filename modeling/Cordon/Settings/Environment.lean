import Cordon.Settings.Layer
import Cordon.Text.Split
/-!
Settings in environment variables. A variable whose name starts with `AIRGAP_` in any case names a path
by the rest of it, with `__` between the keys. What its text stands for is told by its looks, and by
its key where that is one of the lists.
-/
namespace Cordon

open Text

abbrev Environment := List (String × String)

namespace Environment

def get? (env : Environment) (name : String) : Option String := env.lookup name

/-- How the name of a variable starts that is a setting, in lower case. -/
def settingStart : List Char := "airgap_".toList

/-- Two underscores in a row become a dot. -/
def dotted : List Char → List Char
  | '_' :: '_' :: rest => '.' :: dotted rest
  | c :: rest => c :: dotted rest
  | [] => []

/-- The path that a variable sets. -/
def path? (name : String) : Option String :=
  let lowered := (Layer.lowerName name).toList
  if settingStart.isPrefixOf lowered then some (.ofList (dotted (lowered.drop settingStart.length)))
  else none

/-- The settings that are lists of texts. -/
def listPaths : List String :=
  ["defaults.allowed_hosts", "defaults.blocked_hosts", "engine.exempt_stack_markers",
    "engine.harness_thread_prefixes"]

/-- Splits off a sign; the flag tells a minus. -/
def signed : List Char → Bool × List Char
  | '-' :: rest => (true, rest)
  | '+' :: rest => (false, rest)
  | cs => (false, cs)

/-- A decimal whole number of 64 bits with an optional sign. -/
def whole? (cs : List Char) : Option Int :=
  let (negative, digits) := signed cs
  if digits.isEmpty || !digits.all isDigit then none
  else
    let n : Int := ofDigits digits
    let n := if negative then -n else n
    Document.wholeInRange? n

/-- The words for what is no ordinary number, in lower case. -/
def specialNumber? (negative : Bool) (word : List Char) : Option Binary64 :=
  if word = "inf".toList || word = "infinity".toList then some (.infinite negative)
  else if word = "nan".toList then some .nan
  else none

def isExponentMark (c : Char) : Bool := c == 'e' || c == 'E'

/-- Digits with at most one point among them: all digits, and how many stand behind the point. -/
def mantissa? (cs : List Char) : Option (List Char × Nat) :=
  let whole := cs.takeWhile isDigit
  match cs.drop whole.length with
  | [] => if whole.isEmpty then none else some (whole, 0)
  | '.' :: fraction =>
    if fraction.all isDigit && !(whole.isEmpty && fraction.isEmpty) then
      some (whole ++ fraction, fraction.length)
    else none
  | _ => none

/-- The exponent with its mark; without one it is zero. -/
def exponent? : List Char → Option Int
  | [] => some 0
  | _ :: cs =>
    let (negative, digits) := signed cs
    if digits.isEmpty || !digits.all isDigit then none
    else
      let n : Int := ofDigits digits
      some (if negative then -n else n)

/-- A decimal number with an optional sign, point and exponent, or one of the words. -/
def decimal? (cs : List Char) : Option Binary64 :=
  let (negative, cs) := signed cs
  match specialNumber? negative (cs.map Char.toLower) with
  | some x => some x
  | none => do
    let (digits, places) ← mantissa? (cs.takeWhile (!isExponentMark ·))
    let exponent ← exponent? (cs.dropWhile (!isExponentMark ·))
    return Binary64.ofDecimal negative (ofDigits digits) (exponent - places)

/-- The texts of a list, between commas. -/
def listTexts (cs : List Char) : List String := (splitAt ',' cs).map String.ofList

/-- What the text of a variable stands for. -/
def value (path text : String) : Document :=
  let word := lowerAscii text
  if word = "true" then .bool true
  else if word = "false" then .bool false
  else
    match whole? text.toList with
    | some n => .whole n
    | none =>
      match decimal? text.toList with
      | some x => .decimal x
      | none =>
        if listPaths.contains path then .list ((listTexts text.toList).map .text) else .text text

/-- The settings among the variables. -/
def source (env : Environment) : Layer.Entries :=
  env.filterMap fun (name, text) => (path? name).map fun path => (path, value path text)

end Environment
end Cordon
