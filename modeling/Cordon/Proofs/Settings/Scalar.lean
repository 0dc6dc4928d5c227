import Cordon.Proofs.Text.CaseFold
import Cordon.Proofs.Text.Digits
import Cordon.Proofs.Text.Split
import Cordon.Settings.Environment
import Mathlib.Data.List.TakeWhile
/-!
Texts that stand for a single value though they are given to a list: the two words for a switch, whole
numbers of 64 bits, and decimal numbers with the words for what is no ordinary number. None of them has a
comma in it.
-/
namespace Cordon.Environment

open Text

variable {cs ds fs : List Char} {path text : String} {P : List Char → Prop}

/-! ## How numbers are written -/

/-- A text behind an optional sign. -/
inductive Signed (P : List Char → Prop) : List Char → Prop
  | bare {cs : List Char} : P cs → Signed P cs
  | plus {cs : List Char} : P cs → Signed P ('+' :: cs)
  | minus {cs : List Char} : P cs → Signed P ('-' :: cs)

/-- The first whole number that is too large for 64 bits with a sign. -/
def wholeLimit : Nat := 0x8000000000000000

/-- A whole number that takes 64 bits with its sign. -/
inductive IsWhole : List Char → Prop
  | bare {ds : List Char} : Digits ds → ofDigits ds < wholeLimit → IsWhole ds
  | plus {ds : List Char} : Digits ds → ofDigits ds < wholeLimit → IsWhole ('+' :: ds)
  | minus {ds : List Char} : Digits ds → ofDigits ds ≤ wholeLimit → IsWhole ('-' :: ds)

/-- A word in any case for a number without end or for none. -/
def IsSpecial (cs : List Char) : Prop :=
  cs.map Char.toLower ∈ ["inf".toList, "infinity".toList, "nan".toList]

/-- Digits with at most one point at any place among them. -/
inductive IsMantissa : List Char → Prop
  | whole {ds : List Char} : Digits ds → IsMantissa ds
  | point {ds fs : List Char} : Digits (ds ++ fs) → IsMantissa (ds ++ '.' :: fs)

inductive IsExponent : List Char → Prop
  | absent : IsExponent []
  | lower {cs : List Char} : Signed Digits cs → IsExponent ('e' :: cs)
  | upper {cs : List Char} : Signed Digits cs → IsExponent ('E' :: cs)

/-- A decimal number without its sign. -/
inductive IsMagnitude : List Char → Prop
  | special {cs : List Char} : IsSpecial cs → IsMagnitude cs
  | number {ms es : List Char} : IsMantissa ms → IsExponent es → IsMagnitude (ms ++ es)

def IsDecimal : List Char → Prop := Signed IsMagnitude

/-- A text that is a single value whatever it is given to. -/
inductive IsScalar (text : String) : Prop
  | yes : lowerAscii text = "true" → IsScalar text
  | no : lowerAscii text = "false" → IsScalar text
  | whole : IsWhole text.toList → IsScalar text
  | decimal : IsDecimal text.toList → IsScalar text

/-! ## Signs -/

/-- No sign stands at the head. -/
def NoSign (cs : List Char) : Prop := ∀ c ∈ cs.head?, c ≠ '+' ∧ c ≠ '-'

theorem signed_of_noSign (h : NoSign cs) : signed cs = (false, cs) := by
  rw [signed]
  · rintro rest rfl
    exact (h _ rfl).2 rfl
  · rintro rest rfl
    exact (h _ rfl).1 rfl

theorem noSign_of_digits (h : Digits ds) : NoSign ds := by
  obtain ⟨d, ds, rfl, hd⟩ := h.exists_cons
  rintro c ⟨⟩
  constructor <;> rintro rfl <;> contradiction

/-- A sign is taken off what does not begin with one. -/
theorem signed_iff (hP : ∀ {cs}, P cs → NoSign cs) : Signed P cs ↔ P (signed cs).2 := by
  constructor
  · rintro (h | h | h)
    · rw [signed_of_noSign (hP h)]
      exact h
    · exact h
    · exact h
  · unfold signed
    split
    · exact .minus
    · exact .plus
    · exact .bare

/-! ## Reading -/

theorem wholeInRange?_isSome_iff {n : Int} :
    (Document.wholeInRange? n).isSome = true ↔ -(wholeLimit : Int) ≤ n ∧ n < wholeLimit := by
  have hbound : Document.wholeBound = wholeLimit := rfl
  rw [Document.wholeInRange?, hbound]
  split
  · next h => exact ⟨fun _ => h, fun _ => rfl⟩
  · next h => exact ⟨nofun, fun h' => absurd h' h⟩

/-- The digits behind the sign decide, and whether the number that they make with it is in range. -/
theorem whole?_isSome_iff_signed {negative : Bool} (h : signed cs = (negative, ds)) :
    (whole? cs).isSome = true ↔
      Digits ds ∧ if negative then ofDigits ds ≤ wholeLimit else ofDigits ds < wholeLimit := by
  rw [whole?, h]
  dsimp only
  split
  · next hguard =>
    rw [← Bool.not_eq_false, guard_digits_iff] at hguard
    exact ⟨nofun, fun h => absurd h.1 hguard⟩
  · next hguard =>
    rw [Bool.not_eq_true, guard_digits_iff] at hguard
    have hpos : 0 < wholeLimit := by decide
    rw [wholeInRange?_isSome_iff, and_iff_right hguard]
    cases negative
    all_goals
      simp only [if_true, if_false, Bool.false_eq_true]
      omega

theorem whole?_isSome_iff : (whole? cs).isSome = true ↔ IsWhole cs := by
  constructor
  · intro h
    rcases hsigned : signed cs with ⟨negative, ds⟩
    obtain ⟨hdigits, hrange⟩ := (whole?_isSome_iff_signed hsigned).mp h
    unfold signed at hsigned
    split at hsigned
    all_goals
      obtain ⟨rfl, rfl⟩ := Prod.mk.inj hsigned
    · exact .minus hdigits hrange
    · exact .plus hdigits hrange
    · exact .bare hdigits hrange
  · rintro (⟨hdigits, hrange⟩ | ⟨hdigits, hrange⟩ | ⟨hdigits, hrange⟩)
    · have hsigned := signed_of_noSign (noSign_of_digits hdigits)
      exact (whole?_isSome_iff_signed hsigned).mpr ⟨hdigits, hrange⟩
    · exact (whole?_isSome_iff_signed rfl).mpr ⟨hdigits, hrange⟩
    · exact (whole?_isSome_iff_signed rfl).mpr ⟨hdigits, hrange⟩

theorem specialNumber?_isSome_iff (negative : Bool) (cs : List Char) :
    (specialNumber? negative (cs.map Char.toLower)).isSome = true ↔ IsSpecial cs := by
  rw [specialNumber?, IsSpecial, List.mem_cons, List.mem_cons, List.mem_singleton, ← or_assoc]
  simp only [Bool.or_eq_true, decide_eq_true_eq]
  split
  · next h => exact ⟨fun _ => .inl h, fun _ => rfl⟩
  · next h =>
    rw [or_iff_right h]
    split
    · next h => exact ⟨fun _ => h, fun _ => rfl⟩
    · next h => exact ⟨nofun, fun h' => absurd h' h⟩

theorem not_both_isEmpty_iff : (!(ds.isEmpty && fs.isEmpty)) = true ↔ ds ++ fs ≠ [] := by
  cases ds <;> simp

theorem mantissa?_isSome_iff : (mantissa? cs).isSome = true ↔ IsMantissa cs := by
  rw [mantissa?, drop_length_takeWhile]
  constructor
  · intro h
    have hcs := List.takeWhile_append_dropWhile (p := isDigit) (l := cs)
    have hdigits : ∀ c ∈ cs.takeWhile isDigit, isDigit c = true :=
      List.all_eq_true.mp List.all_takeWhile
    split at h
    · next hrest =>
      rw [hrest, List.append_nil] at hcs
      split at h
      · contradiction
      · next hne => exact .whole (hcs ▸ ⟨by simpa [hcs] using hne, hdigits⟩)
    · next fraction hrest =>
      rw [hrest] at hcs
      split at h
      · next hguard =>
        rw [Bool.and_eq_true, List.all_eq_true, not_both_isEmpty_iff] at hguard
        rw [← hcs]
        exact .point ⟨hguard.2, fun c hc =>
          (List.mem_append.mp hc).elim (hdigits c) (hguard.1 c)⟩
      · contradiction
    · contradiction
  · intro h
    cases h with
    | whole h =>
      rw [List.takeWhile_eq_self_iff.mpr h.2, List.dropWhile_eq_nil_iff.mpr h.2]
      simp [h.1]
    | @point ds fs h =>
      have hds : ∀ c ∈ ds, isDigit c = true := fun c hc => h.2 c (List.mem_append_left _ hc)
      have hfs : fs.all isDigit = true :=
        List.all_eq_true.mpr fun c hc => h.2 c (List.mem_append_right _ hc)
      have hpoint : ∀ c ∈ ('.' :: fs).head?, isDigit c = false := by
        rintro c ⟨⟩
        rfl
      obtain ⟨htake, hdrop⟩ := run_append hds hpoint
      rw [htake, hdrop]
      simp only [hfs, not_both_isEmpty_iff.mpr h.1]
      rfl

theorem isExponentMark_iff {c : Char} : isExponentMark c = true ↔ c = 'e' ∨ c = 'E' := by
  simp [isExponentMark]

theorem exponent?_cons_isSome_iff {mark : Char} :
    (exponent? (mark :: cs)).isSome = true ↔ Signed Digits cs := by
  rw [signed_iff noSign_of_digits, exponent?]
  dsimp only
  split
  · next hguard =>
    rw [← Bool.not_eq_false, guard_digits_iff] at hguard
    exact ⟨nofun, fun h => absurd h hguard⟩
  · next hguard =>
    rw [Bool.not_eq_true, guard_digits_iff] at hguard
    exact ⟨fun _ => hguard, fun _ => rfl⟩

/-- A text that begins with a mark, if with anything, is split off as the exponent. -/
theorem exponent?_isSome_iff (h : ∀ c ∈ cs.head?, isExponentMark c = true) :
    (exponent? cs).isSome = true ↔ IsExponent cs := by
  cases cs with
  | nil => exact ⟨fun _ => .absent, fun _ => rfl⟩
  | cons mark cs =>
    rw [exponent?_cons_isSome_iff]
    constructor
    · intro hcs
      rcases isExponentMark_iff.mp (h mark rfl) with rfl | rfl
      · exact .lower hcs
      · exact .upper hcs
    · rintro (_ | hcs | hcs) <;> assumption

theorem IsMantissa.not_isExponentMark (h : IsMantissa cs) :
    ∀ c ∈ cs, isExponentMark c = false := by
  have hdigit {c : Char} (hc : isDigit c = true) : isExponentMark c = false := by
    rw [← Bool.not_eq_true, isExponentMark_iff]
    rintro (rfl | rfl) <;> contradiction
  intro c hc
  cases h with
  | whole h => exact hdigit (h.2 c hc)
  | point h =>
    rw [List.mem_append, List.mem_cons] at hc
    rcases hc with hc | rfl | hc
    · exact hdigit (h.2 c (List.mem_append_left _ hc))
    · decide
    · exact hdigit (h.2 c (List.mem_append_right _ hc))

theorem IsExponent.head (h : IsExponent cs) : ∀ c ∈ cs.head?, isExponentMark c = true := by
  cases h with
  | absent => exact nofun
  | lower | upper =>
    rintro c ⟨⟩
    decide

/-- A number is split where its exponent begins. -/
theorem exists_mantissa_exponent_iff :
    (∃ ms es, cs = ms ++ es ∧ IsMantissa ms ∧ IsExponent es) ↔
      IsMantissa (cs.takeWhile (!isExponentMark ·)) ∧
        IsExponent (cs.dropWhile (!isExponentMark ·)) := by
  constructor
  · rintro ⟨ms, es, rfl, hms, hes⟩
    have hms' : ∀ c ∈ ms, (!isExponentMark c) = true := fun c hc => by
      rw [hms.not_isExponentMark c hc, Bool.not_false]
    have hes' : ∀ c ∈ es.head?, (!isExponentMark c) = false := fun c hc => by
      rw [hes.head c hc, Bool.not_true]
    obtain ⟨htake, hdrop⟩ := run_append hms' hes'
    rw [htake, hdrop]
    exact ⟨hms, hes⟩
  · rintro ⟨hms, hes⟩
    exact ⟨_, _, List.takeWhile_append_dropWhile.symm, hms, hes⟩

theorem head?_dropWhile_isExponentMark (cs : List Char) :
    ∀ c ∈ (cs.dropWhile (!isExponentMark ·)).head?, isExponentMark c = true := by
  intro c hc
  rw [← List.find?_eq_head?_dropWhile_not] at hc
  exact List.find?_some hc

theorem NoSign.append {es : List Char} (h : NoSign cs) (hcs : cs ≠ []) : NoSign (cs ++ es) := by
  obtain ⟨c, cs, rfl⟩ := List.exists_cons_of_ne_nil hcs
  exact h

theorem IsMantissa.noSign (h : IsMantissa cs) : cs ≠ [] ∧ NoSign cs := by
  cases h with
  | whole h => exact ⟨h.1, noSign_of_digits h⟩
  | @point ds fs h =>
    refine ⟨by simp, ?_⟩
    cases ds with
    | nil =>
      rintro c ⟨⟩
      decide
    | cons d ds => exact fun c hc => noSign_of_digits h c hc

theorem IsSpecial.noSign (h : IsSpecial cs) : NoSign cs := by
  intro c hc
  obtain ⟨rest, rfl⟩ := List.head?_eq_some_iff.mp hc
  constructor
  all_goals
    rintro rfl
    rw [IsSpecial, List.map_cons] at h
    simp at h

theorem IsMagnitude.noSign (h : IsMagnitude cs) : NoSign cs := by
  cases h with
  | special h => exact h.noSign
  | number hms => exact hms.noSign.2.append hms.noSign.1

theorem isMagnitude_iff : IsMagnitude cs ↔
    IsSpecial cs ∨ ∃ ms es, cs = ms ++ es ∧ IsMantissa ms ∧ IsExponent es := by
  constructor
  · rintro (h | ⟨hms, hes⟩)
    · exact .inl h
    · exact .inr ⟨_, _, rfl, hms, hes⟩
  · rintro (h | ⟨ms, es, rfl, hms, hes⟩)
    · exact .special h
    · exact .number hms hes

theorem decimal?_isSome_iff : (decimal? cs).isSome = true ↔ IsDecimal cs := by
  rw [IsDecimal, signed_iff IsMagnitude.noSign, decimal?]
  rcases signed cs with ⟨negative, cs⟩
  have hspecial := specialNumber?_isSome_iff negative cs
  cases hword : specialNumber? negative (cs.map Char.toLower) with
  | some x =>
    rw [hword] at hspecial
    simp only [hword]
    exact ⟨fun _ => .special (hspecial.mp rfl), fun _ => rfl⟩
  | none =>
    rw [hword] at hspecial
    rw [isMagnitude_iff, or_iff_right fun h => absurd (hspecial.mpr h) nofun,
      exists_mantissa_exponent_iff, ← mantissa?_isSome_iff,
      ← exponent?_isSome_iff (head?_dropWhile_isExponentMark cs)]
    simp only [hword]
    cases mantissa? (cs.takeWhile (!isExponentMark ·)) <;>
      cases exponent? (cs.dropWhile (!isExponentMark ·)) <;> simp

/-! ## What texts stand for -/

theorem comma_not_mem_digits (h : Digits ds) : ',' ∉ ds := fun hmem =>
  absurd (h.2 _ hmem) (by decide)

theorem Signed.comma_not_mem (hP : ∀ {cs}, P cs → ',' ∉ cs) (h : Signed P cs) : ',' ∉ cs := by
  rcases h with h | h | h
  · exact hP h
  · exact List.not_mem_cons_of_ne_of_not_mem (by decide) (hP h)
  · exact List.not_mem_cons_of_ne_of_not_mem (by decide) (hP h)

theorem IsWhole.signed (h : IsWhole cs) : Signed Digits cs := by
  rcases h with ⟨h, -⟩ | ⟨h, -⟩ | ⟨h, -⟩
  · exact .bare h
  · exact .plus h
  · exact .minus h

/-- Lowering makes no comma and takes none away. -/
theorem comma_not_mem_of_map {word : List Char} (h : cs.map Char.toLower = word)
    (hword : ',' ∉ word) : ',' ∉ cs := fun hmem =>
  hword (h ▸ List.mem_map.mpr ⟨',', hmem, rfl⟩)

theorem IsMagnitude.comma_not_mem (h : IsMagnitude cs) : ',' ∉ cs := by
  rcases h with h | ⟨hms, hes⟩
  · have hwords : ∀ word ∈ ["inf".toList, "infinity".toList, "nan".toList], ',' ∉ word := by
      decide
    exact comma_not_mem_of_map rfl (hwords _ h)
  · refine List.not_mem_append ?_ ?_
    · rcases hms with h | h
      · exact comma_not_mem_digits h
      · have hcomma := comma_not_mem_digits h
        simp_all
    · rcases hes with _ | h | h
      · exact List.not_mem_nil
      · exact List.not_mem_cons_of_ne_of_not_mem (by decide) (h.comma_not_mem comma_not_mem_digits)
      · exact List.not_mem_cons_of_ne_of_not_mem (by decide) (h.comma_not_mem comma_not_mem_digits)

theorem IsScalar.comma_not_mem (h : IsScalar text) : ',' ∉ text.toList := by
  have hword {word : String} (h : lowerAscii text = word) (hword : ',' ∉ word.toList) :
      ',' ∉ text.toList := by
    refine comma_not_mem_of_map ?_ hword
    rw [← h, lowerAscii, String.toList_ofList, asciiKey]
  rcases h with h | h | h | h
  · exact hword h (by decide)
  · exact hword h (by decide)
  · exact h.signed.comma_not_mem comma_not_mem_digits
  · exact Signed.comma_not_mem IsMagnitude.comma_not_mem h

theorem strings?_value_of_isScalar (h : IsScalar text) (path : String) :
    (value path text).strings? = none := by
  rw [value]
  split
  · rfl
  split
  · rfl
  split
  · rfl
  next hyes hno _ hwhole =>
  split
  · rfl
  next _ hdecimal =>
  rcases h with h | h | h | h
  · exact absurd h hyes
  · exact absurd h hno
  · rw [← whole?_isSome_iff, hwhole] at h
    contradiction
  · rw [← decimal?_isSome_iff, hdecimal] at h
    contradiction

theorem value_of_not_isScalar (h : ¬ IsScalar text) (hpath : path ∈ listPaths) :
    value path text = .list ((listTexts text.toList).map .text) := by
  have hwhole : whole? text.toList = none :=
    Option.not_isSome_iff_eq_none.mp fun hsome => h (.whole (whole?_isSome_iff.mp hsome))
  have hdecimal : decimal? text.toList = none :=
    Option.not_isSome_iff_eq_none.mp fun hsome => h (.decimal (decimal?_isSome_iff.mp hsome))
  rw [value, if_neg fun hyes => h (.yes hyes), if_neg fun hno => h (.no hno), hwhole, hdecimal]
  exact if_pos (List.contains_iff_mem.mpr hpath)

end Cordon.Environment
