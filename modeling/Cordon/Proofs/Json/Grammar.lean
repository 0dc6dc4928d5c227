import Cordon.Json
import Cordon.Proofs.Text.Digits
/-!
How JSON values may be written. White space stands around values and punctuation, a character of a
text stands for itself or is escaped, and a character outside the basic plane may be written as two
units. A value has many texts; a text has one value.
-/
namespace Cordon.Json

open Text

/-- White space only. -/
def Blank (cs : List Char) : Prop := ∀ c ∈ cs, isBlank c = true

/-! ## Texts -/

/-- The characters that a part of a text is written with. -/
inductive Piece.Written : Piece → List Char → Prop
  | plain {c : Char} : c ≠ '"' → c ≠ '\\' → 0x20 ≤ c.toNat → Written (.char c) [c]
  | escaped {letter c : Char} : escaped? letter = some c → Written (.char c) ['\\', letter]
  | unit {u : Nat} {a b c d : Char} : ofHexDigits? [a, b, c, d] = some u →
    Written (.unit u) ['\\', 'u', a, b, c, d]

inductive PiecesWritten : List Piece → List Char → Prop
  | nil : PiecesWritten [] []
  | cons {p : Piece} {ps : List Piece} {cs rest : List Char} : p.Written cs →
    PiecesWritten ps rest → PiecesWritten (p :: ps) (cs ++ rest)

/-- The first unit of the two that make up a character. -/
def highUnit (c : Char) : Nat := 0xD800 + (c.toNat - 0x10000) / 0x400

/-- The second unit of the two that make up a character. -/
def lowUnit (c : Char) : Nat := 0xDC00 + (c.toNat - 0x10000) % 0x400

/-- The characters that the parts of a text stand for. -/
inductive Spells : List Piece → List Char → Prop
  | nil : Spells [] []
  | char {ps : List Piece} {cs : List Char} (c : Char) : Spells ps cs →
    Spells (.char c :: ps) (c :: cs)
  | unit {ps : List Piece} {cs : List Char} {c : Char} : c.toNat < 0x10000 → Spells ps cs →
    Spells (.unit c.toNat :: ps) (c :: cs)
  | pair {ps : List Piece} {cs : List Char} {c : Char} : 0x10000 ≤ c.toNat → Spells ps cs →
    Spells (.unit (highUnit c) :: .unit (lowUnit c) :: ps) (c :: cs)

/-! ## Numbers -/

inductive FractionWritten : (digits : List Char) → List Char → Prop
  | absent : FractionWritten [] []
  | present {digits : List Char} : Digits digits → FractionWritten digits ('.' :: digits)

inductive ExponentWritten : (negative : Bool) → (digits : List Char) → List Char → Prop
  | absent : ExponentWritten false [] []
  | unsigned {digits : List Char} {mark : Char} : mark = 'e' ∨ mark = 'E' → Digits digits →
    ExponentWritten false digits (mark :: digits)
  | plus {digits : List Char} {mark : Char} : mark = 'e' ∨ mark = 'E' → Digits digits →
    ExponentWritten false digits (mark :: '+' :: digits)
  | minus {digits : List Char} {mark : Char} : mark = 'e' ∨ mark = 'E' → Digits digits →
    ExponentWritten true digits (mark :: '-' :: digits)

/-- A number is written without leading zeros. -/
inductive Number.Written : Number → List Char → Prop
  | mk {negative exponentNegative : Bool} {whole fraction exponent fs es : List Char} :
    Digits whole → (whole.head? = some '0' → whole = ['0']) → FractionWritten fraction fs →
    ExponentWritten exponentNegative exponent es →
    Written { negative, whole, fraction, exponentNegative, exponent }
      ((if negative then ['-'] else []) ++ whole ++ fs ++ es)

/-! ## Values -/

/-- The name of a member with its colon and the white space about them. -/
inductive LabelWritten : List Piece → List Char → Prop
  | mk {name : List Piece} {before cs between after : List Char} : Blank before →
    PiecesWritten name cs → Blank between → Blank after →
    LabelWritten name (before ++ '"' :: cs ++ '"' :: between ++ ':' :: after)

mutual

/-- A value without the white space around it. -/
inductive Written : Json → List Char → Prop
  | null : Written .null ['n', 'u', 'l', 'l']
  | yes : Written (.bool true) ['t', 'r', 'u', 'e']
  | no : Written (.bool false) ['f', 'a', 'l', 's', 'e']
  | number {n : Number} {cs : List Char} : n.Written cs → Written (.number n) cs
  | text {pieces : List Piece} {cs : List Char} : PiecesWritten pieces cs →
    Written (.text pieces) ('"' :: cs ++ ['"'])
  | emptyArray {blanks : List Char} : Blank blanks → Written (.array []) ('[' :: blanks ++ [']'])
  | array {elements : List Json} {cs : List Char} : ElementsWritten elements cs →
    Written (.array elements) ('[' :: cs)
  | emptyObject {blanks : List Char} : Blank blanks →
    Written (.object []) ('\x7b' :: blanks ++ ['\x7d'])
  | object {members : List (List Piece × Json)} {cs : List Char} : MembersWritten members cs →
    Written (.object members) ('\x7b' :: cs)

/-- The elements of an array up to and with its closing bracket. -/
inductive ElementsWritten : List Json → List Char → Prop
  | last {j : Json} {before cs after : List Char} : Blank before → Written j cs → Blank after →
    ElementsWritten [j] (before ++ cs ++ after ++ [']'])
  | more {j : Json} {js : List Json} {before cs after rest : List Char} : Blank before →
    Written j cs → Blank after → ElementsWritten js rest →
    ElementsWritten (j :: js) (before ++ cs ++ after ++ ',' :: rest)

/-- The members of an object up to and with its closing brace. -/
inductive MembersWritten : List (List Piece × Json) → List Char → Prop
  | last {name : List Piece} {j : Json} {label cs after : List Char} : LabelWritten name label →
    Written j cs → Blank after → MembersWritten [(name, j)] (label ++ cs ++ after ++ ['\x7d'])
  | more {name : List Piece} {j : Json} {members : List (List Piece × Json)}
    {label cs after rest : List Char} : LabelWritten name label → Written j cs → Blank after →
    MembersWritten members rest →
    MembersWritten ((name, j) :: members) (label ++ cs ++ after ++ ',' :: rest)

end

/-- A text that holds one value and white space around it. -/
def TextOf (j : Json) (s : String) : Prop :=
  ∃ before cs after, Blank before ∧ Written j cs ∧ Blank after ∧ s.toList = before ++ cs ++ after

end Cordon.Json
