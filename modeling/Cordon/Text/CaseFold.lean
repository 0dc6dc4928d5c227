import Cordon.Text.CaseFold.Table
/-!
Simple case folding: each character is folded on its own, so that a folded text has as many
characters as the text itself.
-/
namespace Cordon.Text

/-- The folded code point of `c`; a character that no run of the table covers folds to itself. -/
def foldPoint (c : Char) : Nat :=
  if c.toNat < 0x80 then c.toLower.toNat
  else match foldRuns.find? (·.covers c.toNat) with
    | some r => r.apply c.toNat
    | none => c.toNat

/-- Two characters that differ at most in case. -/
def SameFold (a b : Char) : Prop := foldPoint a = foldPoint b

instance (a b : Char) : Decidable (SameFold a b) := inferInstanceAs (Decidable (_ = _))

def foldPoints (cs : List Char) : List Nat := cs.map foldPoint

end Cordon.Text
