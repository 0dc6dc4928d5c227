import Cordon.Text.Ascii
import Cordon.Text.CaseFold
import Cordon.Text.Quoted
import Cordon.Text.Space
import Cordon.Text.Split
/-!
Host patterns. A pattern is a host with any number of wildcards `*`, each of which stands for
characters other than a line feed, or the single `*`, which stands for every host. All other
characters stand for themselves in either case.
-/
namespace Cordon

open Text

namespace Pattern

/-- What a pattern may be written with. -/
def Valid (source : String) : Prop :=
  source ≠ "" ∧ ∀ c ∈ source.toList, isSpace c = false ∧ c ≠ '/'

end Pattern

structure Pattern where
  source : String
  valid : Pattern.Valid source

namespace Pattern

/-- Why a text is no pattern. -/
inductive Fault where
  | empty
  | foreignCharacter
  deriving DecidableEq

def Fault.reason : Fault → String
  | .empty => "pattern is empty"
  | .foreignCharacter => "hosts cannot contain whitespace or '/'"

/-- A trimmed text that is no pattern. -/
structure Rejection where
  text : String
  fault : Fault
  deriving DecidableEq

def isForeign (c : Char) : Bool := isSpace c || c == '/'

/-- Reads a pattern; white space around it is not part of it. -/
def parse (text : String) : Except Rejection Pattern :=
  let source := trim text
  if empty : source = "" then .error ⟨source, .empty⟩
  else if foreign : source.toList.any isForeign then .error ⟨source, .foreignCharacter⟩
  else .ok ⟨source, empty, fun c hc => by
    have := mt (List.any_eq_true.2 ⟨c, hc, ·⟩) foreign
    simpa [isForeign] using this⟩

def isMatchAll (p : Pattern) : Bool := p.source == "*"

/-- The pieces that the wildcards stand between. -/
def pieces (p : Pattern) : List (List Char) := splitAt '*' p.source.toList

section Fitting

variable {α : Type} [BEq α]

/-- Whether `text` is a gap and the first piece, a gap and the second, and so on to its end. Each
piece but the last is taken where it occurs first, which leaves the most for the pieces after it. -/
def fitsAfterGap : List (List α) → List α → Bool
  | [], text => text.isEmpty
  | [last], text => last.isSuffixOf text
  | piece :: pieces, text =>
    match cutAt piece text with
    | some (_, rest) => fitsAfterGap pieces rest
    | none => false

/-- Whether `text` is the pieces in order, with any gaps between them. -/
def fits : List (List α) → List α → Bool
  | [], text => text.isEmpty
  | first :: pieces, text =>
    first.isPrefixOf text && fitsAfterGap pieces (text.drop first.length)

end Fitting

/-- A pattern holds no white space, so that a line feed in the host, which no wildcard stands for,
leaves nothing to match it. -/
def isMatch (p : Pattern) (host : String) : Bool :=
  p.isMatchAll ||
    (host ≠ "" && !host.toList.contains '\n' &&
      fits (p.pieces.map foldPoints) (foldPoints host.toList))

/-- Matching against a text that need not be a pattern; one that is none matches nothing. -/
def isMatchText (text host : String) : Bool :=
  text == "*" ||
    match parse text with
    | .ok p => p.isMatch host
    | .error _ => false

/-- Two spellings of one pattern differ at most in the case of ASCII letters. -/
instance : BEq Pattern := ⟨fun p q => eqIgnoreAsciiCase p.source q.source⟩

theorem beq_iff {p q : Pattern} : (p == q) = true ↔ asciiKey p.source = asciiKey q.source :=
  eqIgnoreAsciiCase_iff

def describe (p : Pattern) : String := "HostPattern(" ++ quote p.source ++ ")"

end Pattern
end Cordon
