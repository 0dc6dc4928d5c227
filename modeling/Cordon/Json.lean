import Cordon.Text.Ascii
/-!
Texts in JSON. Reading keeps what is written as it is written: numbers by their digits, texts by their
escapes, the members of an object in order and with repetitions. What a number or a text stands for is
settled only where it is used, so that a value nobody looks at need only be well formed.
-/
namespace Cordon

open Text

namespace Json

/-- A part of a text: a character, or a unit of sixteen bits written by its number. -/
inductive Piece where
  | char (c : Char)
  | unit (u : Nat)
  deriving DecidableEq

/-- A number by its digits; an absent fraction or exponent has none. -/
structure Number where
  negative : Bool
  whole : List Char
  fraction : List Char := []
  exponentNegative : Bool := false
  exponent : List Char := []
  deriving DecidableEq

end Json

inductive Json where
  | null
  | bool (b : Bool)
  | number (n : Json.Number)
  | text (pieces : List Json.Piece)
  | array (elements : List Json)
  | object (members : List (List Json.Piece × Json))

namespace Json

/-! ## Texts -/

def isHigh (u : Nat) : Bool := 0xD800 ≤ u && u < 0xDC00

def isLow (u : Nat) : Bool := 0xDC00 ≤ u && u < 0xE000

/-- The characters of a text. Two units may make up one character; half of such a pair makes none. -/
def Piece.chars? : List Piece → Option (List Char)
  | [] => some []
  | .char c :: rest => (chars? rest).map (c :: ·)
  | .unit u :: .unit v :: rest =>
    if isHigh u && isLow v then
      (chars? rest).map (Char.ofNat (0x10000 + (u - 0xD800) * 0x400 + (v - 0xDC00)) :: ·)
    else if isHigh u || isLow u then none
    else (chars? (.unit v :: rest)).map (Char.ofNat u :: ·)
  | .unit u :: rest =>
    if isHigh u || isLow u then none else (chars? rest).map (Char.ofNat u :: ·)

def Piece.string? (pieces : List Piece) : Option String := (chars? pieces).map String.ofList

def Piece.ofString (s : String) : List Piece := s.toList.map .char

/-- The members of an object by their names, if each name is a text. -/
def members? (members : List (List Piece × Json)) : Option (List (String × Json)) :=
  members.mapM fun (name, value) => (Piece.string? name).map (·, value)

/-- The character behind a backslash and a letter. -/
def escaped? : Char → Option Char
  | '"' => some '"'
  | '\\' => some '\\'
  | '/' => some '/'
  | 'b' => some '\x08'
  | 'f' => some '\x0c'
  | 'n' => some '\n'
  | 'r' => some '\r'
  | 't' => some '\t'
  | _ => none

/-- Reads a text behind its opening quote, up to and with the closing one. -/
def readPieces : List Char → Option (List Piece × List Char)
  | [] => none
  | '"' :: rest => some ([], rest)
  | '\\' :: 'u' :: a :: b :: c :: d :: rest => do
    let u ← ofHexDigits? [a, b, c, d]
    let (pieces, rest) ← readPieces rest
    return (.unit u :: pieces, rest)
  | '\\' :: c :: rest => do
    let c ← escaped? c
    let (pieces, rest) ← readPieces rest
    return (.char c :: pieces, rest)
  | c :: rest =>
    if c = '\\' || c.toNat < 0x20 then none
    else (readPieces rest).map fun (pieces, rest) => (.char c :: pieces, rest)

/-! ## Numbers -/

/-- Takes the digits at the head. -/
def takeDigits (cs : List Char) : List Char × List Char :=
  (cs.takeWhile isDigit, cs.dropWhile isDigit)

/-- At least one digit, and no zero before others. -/
def isWhole (digits : List Char) : Bool :=
  match digits with
  | [] => false
  | '0' :: _ :: _ => false
  | _ => true

def readFraction : List Char → Option (List Char × List Char)
  | '.' :: cs =>
    let (digits, rest) := takeDigits cs
    if digits.isEmpty then none else some (digits, rest)
  | cs => some ([], cs)

def readExponent (cs : List Char) : Option (Bool × List Char × List Char) :=
  let after (negative : Bool) (cs : List Char) :=
    let (digits, rest) := takeDigits cs
    if digits.isEmpty then none else some (negative, digits, rest)
  match cs with
  | 'e' :: '-' :: cs | 'E' :: '-' :: cs => after true cs
  | 'e' :: '+' :: cs | 'E' :: '+' :: cs => after false cs
  | 'e' :: cs | 'E' :: cs => after false cs
  | cs => some (false, [], cs)

def readNumber (negative : Bool) (cs : List Char) : Option (Number × List Char) := do
  let (whole, rest) := takeDigits cs
  guard (isWhole whole)
  let (fraction, rest) ← readFraction rest
  let (exponentNegative, exponent, rest) ← readExponent rest
  return ({ negative, whole, fraction, exponentNegative, exponent }, rest)

/-! ## Values -/

def isBlank (c : Char) : Bool := c == ' ' || c == '\n' || c == '\t' || c == '\r'

def skipBlanks (cs : List Char) : List Char := cs.dropWhile isBlank

mutual

/-- Reads a value; `fuel` bounds the steps. -/
def readValue : (fuel : Nat) → List Char → Option (Json × List Char)
  | 0, _ => none
  | fuel + 1, cs =>
    match skipBlanks cs with
    | 'n' :: 'u' :: 'l' :: 'l' :: rest => some (.null, rest)
    | 't' :: 'r' :: 'u' :: 'e' :: rest => some (.bool true, rest)
    | 'f' :: 'a' :: 'l' :: 's' :: 'e' :: rest => some (.bool false, rest)
    | '"' :: rest => (readPieces rest).map fun (pieces, rest) => (.text pieces, rest)
    | '[' :: rest =>
      match skipBlanks rest with
      | ']' :: rest => some (.array [], rest)
      | _ => (readElements fuel rest).map fun (elements, rest) => (.array elements, rest)
    | '\x7b' :: rest =>
      match skipBlanks rest with
      | '\x7d' :: rest => some (.object [], rest)
      | _ => (readMembers fuel rest).map fun (members, rest) => (.object members, rest)
    | '-' :: rest => (readNumber true rest).map fun (n, rest) => (.number n, rest)
    | rest => (readNumber false rest).map fun (n, rest) => (.number n, rest)

/-- Reads the elements of an array up to and with its closing bracket. -/
def readElements : (fuel : Nat) → List Char → Option (List Json × List Char)
  | 0, _ => none
  | fuel + 1, cs => do
    let (element, rest) ← readValue fuel cs
    match skipBlanks rest with
    | ',' :: rest =>
      let (elements, rest) ← readElements fuel rest
      return (element :: elements, rest)
    | ']' :: rest => return ([element], rest)
    | _ => none

/-- Reads the members of an object up to and with its closing brace. -/
def readMembers : (fuel : Nat) → List Char → Option (List (List Piece × Json) × List Char)
  | 0, _ => none
  | fuel + 1, cs =>
    match skipBlanks cs with
    | '"' :: rest => do
      let (name, rest) ← readPieces rest
      match skipBlanks rest with
      | ':' :: rest =>
        let (value, rest) ← readValue fuel rest
        match skipBlanks rest with
        | ',' :: rest =>
          let (members, rest) ← readMembers fuel rest
          return ((name, value) :: members, rest)
        | '\x7d' :: rest => return ([(name, value)], rest)
        | _ => none
      | _ => none
    | _ => none

end

/-- A step takes at least every other character, so that this many are enough. -/
def enough (cs : List Char) : Nat := 2 * cs.length + 2

def readChars (cs : List Char) : Option Json :=
  match readValue (enough cs) cs with
  | some (value, rest) => if (skipBlanks rest).isEmpty then some value else none
  | none => none

/-- Reads one value, with nothing but blanks around it. -/
def read (s : String) : Option Json := readChars s.toList

end Json
end Cordon
