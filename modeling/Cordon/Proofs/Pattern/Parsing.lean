import Cordon.Proofs.Policy.Union
import Cordon.Proofs.Text.Space
/-!
Which texts are patterns. A pattern is read off a text by trimming it and in no other way, so that a
pattern reads back from its own text, and a text matches as the pattern does that it holds.
-/
namespace Cordon.Pattern

open Text

variable {text : String} {p : Pattern} {r : Rejection}

theorem trims_trim (text : String) : Trims text.toList (trim text).toList := by
  rw [trim, String.toList_ofList]
  exact trims_trimSpaces text.toList

theorem trim_eq_of_trims {source : String} (h : Trims text.toList source.toList) :
    trim text = source := by
  rw [trim, trims_iff.mp h, String.ofList_toList]

theorem valid_iff {source : String} :
    Valid source ↔ source ≠ "" ∧ source.toList.any isForeign = false := by
  refine and_congr_right fun _ => ?_
  rw [List.any_eq_false]
  refine forall₂_congr fun c _ => ?_
  rw [isForeign, Bool.not_eq_true, Bool.or_eq_false_iff, beq_eq_false_iff_ne]

/-- A text is a pattern if it is the pattern's own text but for white space at the ends. -/
theorem parse_eq_ok_iff : parse text = .ok p ↔ Trims text.toList p.source.toList := by
  constructor
  · intro h
    rw [source_of_parse h]
    exact trims_trim text
  · intro h
    have htrim := trim_eq_of_trims h
    obtain ⟨q, hq⟩ := parse_of_trim (htrim ▸ p.valid.1) (htrim ▸ (valid_iff.mp p.valid).2)
    have hsource : q.source = p.source := (source_of_parse hq).trans htrim
    rw [hq]
    obtain ⟨source, valid⟩ := p
    obtain ⟨_, _⟩ := q
    cases hsource
    rfl

theorem exists_parse_iff :
    (∃ p, parse text = .ok p) ↔ ∃ source, Trims text.toList source.toList ∧ Valid source := by
  constructor
  · rintro ⟨p, hp⟩
    exact ⟨p.source, parse_eq_ok_iff.mp hp, p.valid⟩
  · rintro ⟨source, htrims, hvalid⟩
    exact ⟨⟨source, hvalid⟩, parse_eq_ok_iff.mpr htrims⟩

/-- What is rejected is named without the white space around it. -/
theorem trims_of_rejected (h : parse text = .error r) : Trims text.toList r.text.toList := by
  have htext : r.text = trim text := by
    rw [parse] at h
    split at h
    · exact (Except.error.inj h) ▸ rfl
    · split at h
      · exact (Except.error.inj h) ▸ rfl
      · contradiction
  rw [htext]
  exact trims_trim text

/-- A pattern holds nothing to trim. -/
theorem parse_source (p : Pattern) : parse p.source = .ok p := by
  have hspace : ∀ c ∈ p.source.toList, isSpace c = false := fun c hc => (p.valid.2 c hc).1
  rw [parse_eq_ok_iff, trims_iff, trimSpaces_eq_self hspace]

theorem isMatchText_of_rejected (h : parse text = .error r) (host : String) :
    isMatchText text host = false := by
  have hstar : (text == "*") = false := by
    rw [beq_eq_false_iff_ne]
    rintro rfl
    exact absurd h nofun
  rw [isMatchText, hstar, h]
  rfl

/-- A text is a pattern if what trimming leaves of it is not empty and holds neither white space nor
a slash. That is then the text of the pattern, from which it reads back; and matching against the
text is matching against the pattern. A text that is no pattern matches nothing. -/
theorem parse_normalises (text : String) :
    ((∃ p, parse text = .ok p) ↔ ∃ source, Trims text.toList source.toList ∧ Valid source) ∧
    (∀ p, parse text = .ok p →
      Trims text.toList p.source.toList ∧ parse p.source = .ok p ∧
        ∀ host, isMatchText text host = p.isMatch host) ∧
    (∀ r, parse text = .error r → ∀ host, isMatchText text host = false) :=
  ⟨exists_parse_iff,
    fun p hp => ⟨parse_eq_ok_iff.mp hp, parse_source p, isMatchText_of_parse hp⟩,
    fun _ hr => isMatchText_of_rejected hr⟩

/-- A star stands for every host also where white space of another script surrounds it, though the
text itself is not the star. -/
theorem parse_normalises_padded_star : ∃ p, parse "\u2003*\u0085" = .ok p ∧ p.isMatchAll = true ∧
    isMatchText "\u2003*\u0085" "" = true ∧ isMatchText "*\u3000*" "" = false := by
  obtain ⟨p, hparse⟩ := (parse_normalises "\u2003*\u0085").1.mpr
    ⟨"*", trims_iff.mpr (by decide), valid_iff.mpr ⟨by decide, rfl⟩⟩
  have hpadded := (parse_normalises "\u2003*\u0085").2.1 p hparse
  have hrejected : parse "*\u3000*" = .error ⟨"*\u3000*", .foreignCharacter⟩ := rfl
  have hall : p.isMatchAll = true := by
    rw [isMatchAll, source_of_parse hparse]
    decide
  refine ⟨p, hparse, hall, ?_, (parse_normalises "*\u3000*").2.2 _ hrejected ""⟩
  rw [hpadded.2.2, isMatch, hall, Bool.true_or]

end Cordon.Pattern
