import Cordon.Proofs.Text.Digits
import Cordon.Proofs.Text.Strip
import Cordon.Text.Space
/-!
What trimming leaves, said without the way in which it is done: the text between two runs of white
space that neither begins nor ends with white space itself.
-/
namespace Cordon.Text

/-- `inner` is `cs` less the white space at both ends. -/
structure Trims (cs inner : List Char) : Prop where
  within : ∃ front back, cs = front ++ inner ++ back ∧ ∀ c ∈ front ++ back, isSpace c = true
  head : ∀ c ∈ inner.head?, isSpace c = false
  last : ∀ c ∈ inner.getLast?, isSpace c = false

variable {c : Char} {cs inner spaces : List Char}

theorem trims_iff_strips : Trims cs inner ↔ Strips isSpace cs inner :=
  ⟨fun h => ⟨h.within, h.head, h.last⟩, fun h => ⟨h.within, h.head, h.last⟩⟩

/-- A text has one trimmed form. -/
theorem trims_iff : Trims cs inner ↔ trimSpaces cs = inner :=
  trims_iff_strips.trans strips_iff

theorem trims_trimSpaces (cs : List Char) : Trims cs (trimSpaces cs) :=
  trims_iff.mpr rfl

/-- White space behind a text makes no difference. -/
theorem Trims.append_spaces (H : Trims cs inner) (h : ∀ c ∈ spaces, isSpace c = true) :
    Trims (cs ++ spaces) inner where
  within := by
    obtain ⟨front, back, rfl, hends⟩ := H.within
    refine ⟨front, back ++ spaces, List.append_assoc .., fun c hc => ?_⟩
    rw [← List.append_assoc, List.mem_append] at hc
    exact hc.elim (hends c) (h c)
  head := H.head
  last := H.last

theorem trimSpaces_append_spaces (h : ∀ c ∈ spaces, isSpace c = true) :
    trimSpaces (cs ++ spaces) = trimSpaces cs :=
  trims_iff.mp ((trims_trimSpaces cs).append_spaces h)

theorem isSpace_of_isDigit (h : isDigit c = true) : isSpace c = false := by
  obtain ⟨hlow, hhigh⟩ := le_nine_of_isDigit h
  simp only [Char.reduceToNat] at hlow hhigh
  simp [isSpace]
  omega

end Cordon.Text
