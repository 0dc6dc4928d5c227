import Cordon.Json
/-!
The text of JSON values: everything in one line, without blanks, and only such characters of a text
escaped as have to be.
-/
namespace Cordon.Json

/-! ## Values by what they stand for -/

def ofString (s : String) : Json := .text (Piece.ofString s)

def ofStrings (xs : List String) : Json := .array (xs.map ofString)

/-- A text, or nothing. -/
def ofStringOrNull (s : Option String) : Json := (s.map ofString).getD .null

def ofNat (n : Nat) : Json := .number { negative := false, whole := Nat.toDigits 10 n }

def ofInt (n : Int) : Json := .number { negative := n < 0, whole := Nat.toDigits 10 n.natAbs }

def ofMembers (members : List (String × Json)) : Json :=
  .object (members.map fun (name, value) => (Piece.ofString name, value))

/-! ## Text -/

/-- A unit of sixteen bits by its number, in four digits. -/
def renderUnit (u : Nat) : List Char :=
  let digits := Nat.toDigits 16 u
  ['\\', 'u'] ++ List.replicate (4 - digits.length) '0' ++ digits

def renderPiece : Piece → List Char
  | .unit u => renderUnit u
  | .char c =>
    match c with
    | '"' => ['\\', '"']
    | '\\' => ['\\', '\\']
    | '\x08' => ['\\', 'b']
    | '\x0c' => ['\\', 'f']
    | '\n' => ['\\', 'n']
    | '\r' => ['\\', 'r']
    | '\t' => ['\\', 't']
    | c => if c.toNat < 0x20 then renderUnit c.toNat else [c]

def renderPieces (pieces : List Piece) : List Char := '"' :: pieces.flatMap renderPiece ++ ['"']

def Number.render (n : Number) : List Char :=
  (if n.negative then ['-'] else []) ++ n.whole ++
    (if n.fraction.isEmpty then [] else '.' :: n.fraction) ++
    if n.exponent.isEmpty then []
    else 'e' :: (if n.exponentNegative then ['-'] else []) ++ n.exponent

mutual

def renderChars : Json → List Char
  | .null => "null".toList
  | .bool b => (if b then "true" else "false").toList
  | .number n => n.render
  | .text pieces => renderPieces pieces
  | .array elements => '[' :: renderElements elements
  | .object members => '\x7b' :: renderMembers members

/-- The elements of an array up to and with its closing bracket. -/
def renderElements : List Json → List Char
  | [] => [']']
  | [last] => renderChars last ++ [']']
  | element :: elements => renderChars element ++ ',' :: renderElements elements

/-- The members of an object up to and with its closing brace. -/
def renderMembers : List (List Piece × Json) → List Char
  | [] => ['\x7d']
  | [(name, value)] => renderPieces name ++ ':' :: renderChars value ++ ['\x7d']
  | (name, value) :: members =>
    renderPieces name ++ ':' :: renderChars value ++ ',' :: renderMembers members

end

def render (j : Json) : String := .ofList (renderChars j)

end Cordon.Json
