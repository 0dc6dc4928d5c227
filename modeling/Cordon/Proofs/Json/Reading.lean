import Cordon.Proofs.Json.Grammar
import Cordon.Proofs.Text.Split
import Cordon.Proofs.Text.Utf8
/-!
Reading takes up every text of a value, however it is written. The fuel that the reader starts with is
enough for any text, since each step down takes a character.
-/
namespace Cordon.Json

open Text

variable {c : Char} {cs rest blanks text : List Char} {ps : List Piece} {fuel : Nat}

/-! ## White space -/

theorem skipBlanks_append (h : Blank blanks) (cs : List Char) :
    skipBlanks (blanks ++ cs) = skipBlanks cs :=
  List.dropWhile_append_of_pos h

theorem skipBlanks_cons (h : isBlank c = false) (cs : List Char) :
    skipBlanks (c :: cs) = c :: cs :=
  List.dropWhile_cons_of_neg (by simp [h])

/-- White space ends where something else begins. -/
theorem skipBlanks_append_cons (h : Blank blanks) (hc : isBlank c = false) (cs : List Char) :
    skipBlanks (blanks ++ c :: cs) = c :: cs := by
  rw [skipBlanks_append h, skipBlanks_cons hc]

/-! ## Texts -/

theorem readPieces_append {p : Piece} (h : p.Written cs)
    (htext : readPieces text = some (ps, rest)) :
    readPieces (cs ++ text) = some (p :: ps, rest) := by
  cases h with
  | plain hquote hslash hprintable =>
    rw [List.singleton_append, readPieces, htext]
    · simp [hslash, Nat.not_lt.mpr hprintable]
    · exact hquote
    · intro a b c d rest h
      exact absurd h hslash
    · intro c rest h
      exact absurd h hslash
  | @escaped letter c hletter =>
    rw [List.cons_append, List.singleton_append, readPieces, hletter, htext]
    · rfl
    · rintro a b c d rest rfl
      contradiction
  | unit hu =>
    simp only [List.cons_append, List.nil_append, readPieces, hu, htext]
    rfl

/-- A text is read up to its closing quote. -/
theorem readPieces_of_written (h : PiecesWritten ps cs) (rest : List Char) :
    readPieces (cs ++ '"' :: rest) = some (ps, rest) := by
  induction h with
  | nil => rfl
  | cons hp _ ih =>
    rw [List.append_assoc]
    exact readPieces_append hp ih

/-! ## Characters -/

/-- No character is half of a pair. -/
theorem not_surrogate (c : Char) : isHigh c.toNat = false ∧ isLow c.toNat = false := by
  have hvalid := Utf8.toNat_valid c
  simp only [isHigh, isLow, Bool.and_eq_false_iff, decide_eq_false_iff_not]
  omega

theorem chars?_unit (hps : Piece.chars? ps = some cs) :
    Piece.chars? (.unit c.toNat :: ps) = some (c :: cs) := by
  obtain ⟨hhigh, hlow⟩ := not_surrogate c
  unfold Piece.chars?
  split
  · contradiction
  · next heq => exact absurd (List.cons.inj heq).1 nofun
  · next u v rest heq =>
    obtain ⟨hu, rfl⟩ := List.cons.inj heq
    obtain rfl := Piece.unit.inj hu
    simp [hhigh, hlow, hps, Char.ofNat_toNat]
  · next u rest hrest heq =>
    obtain ⟨hu, rfl⟩ := List.cons.inj heq
    obtain rfl := Piece.unit.inj hu
    simp [hhigh, hlow, hps, Char.ofNat_toNat]

theorem chars?_pair (hc : 0x10000 ≤ c.toNat) (hps : Piece.chars? ps = some cs) :
    Piece.chars? (.unit (highUnit c) :: .unit (lowUnit c) :: ps) = some (c :: cs) := by
  have hvalid := Utf8.toNat_valid c
  have hunits : isHigh (highUnit c) = true ∧ isLow (lowUnit c) = true := by
    rw [isHigh, isLow, highUnit, lowUnit, Bool.and_eq_true, Bool.and_eq_true, decide_eq_true_iff,
      decide_eq_true_iff, decide_eq_true_iff, decide_eq_true_iff]
    omega
  have hpoint : 0x10000 + (highUnit c - 0xD800) * 0x400 + (lowUnit c - 0xDC00) = c.toNat := by
    simp only [highUnit, lowUnit]
    omega
  rw [Piece.chars?, hunits.1, hunits.2, hpoint, hps, Char.ofNat_toNat]
  rfl

theorem Spells.chars?_eq (h : Spells ps cs) : Piece.chars? ps = some cs := by
  induction h with
  | nil => rfl
  | char c _ ih => rw [Piece.chars?, ih, Option.map_some]
  | unit _ _ ih => exact chars?_unit ih
  | pair hc _ ih => exact chars?_pair hc ih

theorem Spells.string?_eq {s : String} (h : Spells ps s.toList) : Piece.string? ps = some s := by
  rw [Piece.string?, h.chars?_eq, Option.map_some, String.ofList_toList]

theorem spells_ofString (s : String) : Spells (Piece.ofString s) s.toList := by
  rw [Piece.ofString]
  induction s.toList with
  | nil => exact .nil
  | cons c cs ih => exact .char c ih

/-! ## Numbers -/

/-- What may stand behind a number: anything that does not go on with it. -/
def EndsNumber (rest : List Char) : Prop :=
  ∀ c ∈ rest.head?, isDigit c = false ∧ c ≠ '.' ∧ c ≠ 'e' ∧ c ≠ 'E'

/-- No digit stands at the head. -/
def NoDigit (rest : List Char) : Prop := ∀ c ∈ rest.head?, isDigit c = false

theorem takeDigits_append {digits : List Char} (h : ∀ c ∈ digits, isDigit c = true)
    (hrest : NoDigit rest) : takeDigits (digits ++ rest) = (digits, rest) := by
  obtain ⟨htake, hdrop⟩ := run_append h hrest
  rw [takeDigits, htake, hdrop]

theorem EndsNumber.noDigit (h : EndsNumber rest) : NoDigit rest := fun c hc => (h c hc).1

/-- The digits of an exponent, once its mark and its sign are taken. -/
theorem readExponent_digits {digits : List Char} (h : Digits digits) (hrest : NoDigit rest)
    (negative : Bool) :
    (match takeDigits (digits ++ rest) with
      | (digits, rest) => if digits.isEmpty then none else some (negative, digits, rest)) =
      some (negative, digits, rest) := by
  rw [takeDigits_append h.2 hrest]
  exact if_neg (by simp [h.1])

theorem readFraction_of_written {digits : List Char} (h : FractionWritten digits cs)
    (hrest : NoDigit rest) (hpoint : ∀ c ∈ rest.head?, c ≠ '.') :
    readFraction (cs ++ rest) = some (digits, rest) := by
  cases h with
  | absent =>
    rw [List.nil_append, readFraction]
    rintro cs rfl
    exact hpoint '.' rfl rfl
  | present hdigits =>
    rw [List.cons_append, readFraction, takeDigits_append hdigits.2 hrest]
    exact if_neg (by simp [hdigits.1])

theorem readExponent_of_written {negative : Bool} {digits : List Char}
    (h : ExponentWritten negative digits cs) (hrest : EndsNumber rest) :
    readExponent (cs ++ rest) = some (negative, digits, rest) := by
  cases h with
  | absent =>
    rw [List.nil_append, readExponent]
    all_goals
      rintro cs rfl
      simpa using hrest _ rfl
  | unsigned hmark hdigits =>
    have hread := readExponent_digits hdigits hrest.noDigit false
    obtain ⟨d, ds, rfl, hd⟩ := hdigits.exists_cons
    have hminus : d ≠ '-' := by rintro rfl; contradiction
    have hplus : d ≠ '+' := by rintro rfl; contradiction
    rcases hmark with rfl | rfl
    all_goals
      rw [List.cons_append, readExponent]
      · exact hread
      all_goals
        intro cs h
        simp_all
  | plus hmark hdigits =>
    rcases hmark with rfl | rfl <;> exact readExponent_digits hdigits hrest.noDigit false
  | minus hmark hdigits =>
    rcases hmark with rfl | rfl <;> exact readExponent_digits hdigits hrest.noDigit true

/-- What a fraction and an exponent are written with ends the run of digits before them. -/
theorem noDigit_fraction {digits fs : List Char} (h : FractionWritten digits fs)
    (hrest : NoDigit rest) : NoDigit (fs ++ rest) := by
  cases h with
  | absent => exact hrest
  | present =>
    rintro c ⟨⟩
    rfl

theorem exponent_head {negative : Bool} {digits es : List Char}
    (h : ExponentWritten negative digits es) (hrest : EndsNumber rest) :
    ∀ c ∈ (es ++ rest).head?, isDigit c = false ∧ c ≠ '.' := by
  cases h with
  | absent => exact fun c hc => ⟨(hrest c hc).1, (hrest c hc).2.1⟩
  | unsigned hmark | plus hmark | minus hmark =>
    rintro c ⟨⟩
    rcases hmark with rfl | rfl <;> decide

theorem isWhole_of_digits {whole : List Char} (h : Digits whole)
    (hzero : whole.head? = some '0' → whole = ['0']) : isWhole whole = true := by
  unfold isWhole
  split
  · exact absurd rfl h.1
  · exact absurd (hzero rfl) (by simp)
  · rfl

/-- A number is read from its first digit on to what cannot go on with it. -/
theorem readNumber_of_written (negative : Bool) {exponentNegative : Bool}
    {whole fraction exponent fs es : List Char} (hwhole : Digits whole)
    (hzero : whole.head? = some '0' → whole = ['0']) (hfraction : FractionWritten fraction fs)
    (hexponent : ExponentWritten exponentNegative exponent es) (hrest : EndsNumber rest) :
    readNumber negative (whole ++ (fs ++ (es ++ rest))) =
      some ({ negative, whole, fraction, exponentNegative, exponent }, rest) := by
  have hexponentHead := exponent_head hexponent hrest
  have hfractionHead := noDigit_fraction hfraction fun c hc => (hexponentHead c hc).1
  have hfractionRead := readFraction_of_written hfraction (fun c hc => (hexponentHead c hc).1)
    fun c hc => (hexponentHead c hc).2
  rw [readNumber, takeDigits_append hwhole.2 hfractionHead]
  dsimp only
  rw [isWhole_of_digits hwhole hzero, hfractionRead]
  dsimp only [Option.bind_eq_bind, Option.bind_some]
  rw [readExponent_of_written hexponent hrest]
  rfl

/-! ## Values -/

theorem isBlank_iff : isBlank c = true ↔ c = ' ' ∨ c = '\n' ∨ c = '\t' ∨ c = '\r' := by
  simp [isBlank, or_assoc]

theorem isBlank_of_isDigit (h : isDigit c = true) : isBlank c = false := by
  rw [Bool.eq_false_iff]
  intro hblank
  rcases isBlank_iff.mp hblank with rfl | rfl | rfl | rfl <;> contradiction

/-- A digit begins no other value than a number. -/
theorem readValue_digit (h : Blank blanks) (hc : isDigit c = true) (text : List Char) :
    readValue (fuel + 1) (blanks ++ c :: text) =
      (readNumber false (c :: text)).map fun (n, rest) => (.number n, rest) := by
  have hne {d : Char} {text' : List Char} (hd : isDigit d = false) : c :: text ≠ d :: text' := by
    rintro ⟨⟩
    exact absurd hc (by simp [hd])
  rw [readValue, skipBlanks_append_cons h (isBlank_of_isDigit hc)]
  split
  all_goals first
    | rfl
    | next heq => exact absurd heq (hne rfl)

/-- No value begins with white space or a closing bracket. -/
theorem Written.exists_cons {j : Json} (h : Written j cs) :
    ∃ c text, cs = c :: text ∧ isBlank c = false ∧ c ≠ ']' := by
  cases h with
  | number h =>
    cases h with
    | @mk negative _ _ _ _ _ _ hwhole =>
      obtain ⟨d, ds, rfl, hd⟩ := hwhole.exists_cons
      cases negative with
      | true => exact ⟨'-', _, rfl, rfl, by decide⟩
      | false =>
        refine ⟨d, _, rfl, isBlank_of_isDigit hd, ?_⟩
        rintro rfl
        contradiction
  | null | yes | no | text | emptyArray | array | emptyObject | object =>
    exact ⟨_, _, rfl, rfl, by decide⟩

/-- White space and punctuation end a number. -/
theorem endsNumber_append (h : Blank blanks) (hc : isDigit c = false ∧ c ≠ '.' ∧ c ≠ 'e' ∧ c ≠ 'E')
    (rest : List Char) : EndsNumber (blanks ++ c :: rest) := by
  cases blanks with
  | nil =>
    rintro d ⟨⟩
    exact hc
  | cons b blanks =>
    rintro d ⟨⟩
    rcases isBlank_iff.mp (h b List.mem_cons_self) with rfl | rfl | rfl | rfl <;> decide

theorem endsNumber_blank (h : Blank blanks) : EndsNumber blanks := by
  cases blanks with
  | nil => exact nofun
  | cons b blanks =>
    rintro d ⟨⟩
    rcases isBlank_iff.mp (h b List.mem_cons_self) with rfl | rfl | rfl | rfl <;> decide

/-- Elements do not begin with the bracket that would close them. -/
theorem ElementsWritten.head {js : List Json} (h : ElementsWritten js cs) (rest : List Char) :
    ∃ c text, skipBlanks (cs ++ rest) = c :: text ∧ c ≠ ']' := by
  cases h with
  | last hbefore hj | more hbefore hj =>
    obtain ⟨c, text, rfl, hblank, hc⟩ := hj.exists_cons
    simp only [List.append_assoc, List.cons_append]
    exact ⟨c, _, skipBlanks_append_cons hbefore hblank _, hc⟩

theorem MembersWritten.head {ms : List (List Piece × Json)} (h : MembersWritten ms cs)
    (rest : List Char) : ∃ text, skipBlanks (cs ++ rest) = '"' :: text := by
  cases h with
  | last hlabel | more hlabel =>
    obtain ⟨hbefore⟩ := hlabel
    simp only [List.append_assoc, List.cons_append]
    exact ⟨_, skipBlanks_append_cons hbefore rfl _⟩

/-- With so much fuel, whatever takes at most half as many characters is read as it is written. -/
structure Suffices (fuel : Nat) : Prop where
  value {j : Json} {cs : List Char} : Written j cs → 2 * cs.length ≤ fuel →
    ∀ {blanks rest}, Blank blanks → EndsNumber rest →
      readValue fuel (blanks ++ (cs ++ rest)) = some (j, rest)
  elements {js : List Json} {cs : List Char} : ElementsWritten js cs → 2 * cs.length ≤ fuel →
    ∀ rest, readElements fuel (cs ++ rest) = some (js, rest)
  members {ms : List (List Piece × Json)} {cs : List Char} : MembersWritten ms cs →
    2 * cs.length ≤ fuel → ∀ rest, readMembers fuel (cs ++ rest) = some (ms, rest)

namespace Suffices

theorem value_succ (H : Suffices fuel) {j : Json} (h : Written j cs)
    (hfuel : 2 * cs.length ≤ fuel + 1) (hblanks : Blank blanks) (hrest : EndsNumber rest) :
    readValue (fuel + 1) (blanks ++ (cs ++ rest)) = some (j, rest) := by
  cases h with
  | null | yes | no =>
    simp only [List.cons_append, List.nil_append]
    rw [readValue, skipBlanks_append_cons hblanks rfl]
    rfl
  | number h =>
    obtain @⟨negative, _, _, _, _, _, _, hwhole, hzero, hfraction, hexponent⟩ := h
    have hread := readNumber_of_written negative hwhole hzero hfraction hexponent hrest
    cases negative with
    | true =>
      simp only [if_true, List.cons_append, List.nil_append, List.append_assoc]
      rw [readValue, skipBlanks_append_cons hblanks rfl]
      simp only [hread]
      rfl
    | false =>
      obtain ⟨d, ds, rfl, hd⟩ := hwhole.exists_cons
      simp only [Bool.false_eq_true, if_false, List.cons_append, List.nil_append,
        List.append_assoc] at hread ⊢
      rw [readValue_digit hblanks hd, hread]
      rfl
  | text h =>
    simp only [List.cons_append, List.append_assoc, List.nil_append]
    rw [readValue, skipBlanks_append_cons hblanks rfl]
    simp only [readPieces_of_written h]
    rfl
  | emptyArray h =>
    simp only [List.cons_append, List.append_assoc, List.nil_append]
    rw [readValue, skipBlanks_append_cons hblanks rfl]
    simp only [skipBlanks_append_cons h (c := ']') rfl]
  | array h =>
    obtain ⟨c, text, hhead, hc⟩ := h.head rest
    rw [List.cons_append, readValue, skipBlanks_append_cons hblanks rfl]
    simp only [hhead]
    split
    · next heq => exact absurd (List.cons.inj heq).1 hc
    · rw [H.elements h (by simp at hfuel; omega)]
      rfl
  | emptyObject h =>
    simp only [List.cons_append, List.append_assoc, List.nil_append]
    rw [readValue, skipBlanks_append_cons hblanks rfl]
    simp only [skipBlanks_append_cons h (c := '\x7d') rfl]
  | object h =>
    obtain ⟨text, hhead⟩ := h.head rest
    rw [List.cons_append, readValue, skipBlanks_append_cons hblanks rfl]
    simp only [hhead]
    rw [H.members h (by simp at hfuel; omega)]
    rfl

theorem elements_succ (H : Suffices fuel) {js : List Json} (h : ElementsWritten js cs)
    (hfuel : 2 * cs.length ≤ fuel + 1) (rest : List Char) :
    readElements (fuel + 1) (cs ++ rest) = some (js, rest) := by
  cases h with
  | last hbefore hj hafter =>
    simp only [List.append_assoc, List.singleton_append]
    rw [readElements, H.value hj (by simp at hfuel; omega) hbefore
      (endsNumber_append hafter (by decide) rest)]
    simp only [Option.bind_eq_bind, Option.bind_some]
    rw [skipBlanks_append_cons hafter rfl]
    rfl
  | more hbefore hj hafter hjs =>
    simp only [List.append_assoc, List.cons_append]
    rw [readElements, H.value hj (by simp at hfuel; omega) hbefore
      (endsNumber_append hafter (by decide) _)]
    simp only [Option.bind_eq_bind, Option.bind_some]
    rw [skipBlanks_append_cons hafter rfl]
    simp only [H.elements hjs (by simp at hfuel; omega)]
    rfl

theorem members_succ (H : Suffices fuel) {ms : List (List Piece × Json)} (h : MembersWritten ms cs)
    (hfuel : 2 * cs.length ≤ fuel + 1) (rest : List Char) :
    readMembers (fuel + 1) (cs ++ rest) = some (ms, rest) := by
  cases h with
  | last hlabel hj hafter =>
    obtain ⟨hbefore, hname, hbetween, hcolon⟩ := hlabel
    simp only [List.append_assoc, List.cons_append, List.nil_append]
    rw [readMembers, skipBlanks_append_cons hbefore rfl]
    simp only [readPieces_of_written hname, Option.bind_eq_bind, Option.bind_some]
    rw [skipBlanks_append_cons hbetween rfl]
    simp only [H.value hj (by simp at hfuel; omega) hcolon
      (endsNumber_append hafter (c := '\x7d') (by decide) rest), Option.bind_some]
    rw [skipBlanks_append_cons hafter rfl]
    rfl
  | more hlabel hj hafter hms =>
    obtain ⟨hbefore, hname, hbetween, hcolon⟩ := hlabel
    simp only [List.append_assoc, List.cons_append]
    rw [readMembers, skipBlanks_append_cons hbefore rfl]
    simp only [readPieces_of_written hname, Option.bind_eq_bind, Option.bind_some]
    rw [skipBlanks_append_cons hbetween rfl]
    simp only [H.value hj (by simp at hfuel; omega) hcolon
      (endsNumber_append hafter (c := ',') (by decide) _), Option.bind_some]
    rw [skipBlanks_append_cons hafter rfl]
    simp only [H.members hms (by simp at hfuel; omega)]
    rfl

theorem all (fuel : Nat) : Suffices fuel := by
  induction fuel with
  | zero =>
    -- nothing at all is written with no character
    refine ⟨fun h hfuel => ?_, fun h hfuel => ?_, fun h hfuel => ?_⟩
    · obtain ⟨c, text, rfl, -⟩ := h.exists_cons
      contradiction
    · cases h <;> simp at hfuel
    · cases h <;> simp at hfuel
  | succ fuel H =>
    exact ⟨fun h hfuel _ _ => H.value_succ h hfuel, H.elements_succ, H.members_succ⟩

end Suffices

/-- A text of a value reads as that value. -/
theorem read_of_textOf {j : Json} {s : String} (h : TextOf j s) : read s = some j := by
  obtain ⟨before, cs, after, hbefore, hj, hafter, hs⟩ := h
  rw [List.append_assoc] at hs
  have hfuel : 2 * cs.length ≤ enough s.toList := by
    rw [enough, hs]
    simp
    omega
  have hread := (Suffices.all _).value hj hfuel hbefore (endsNumber_blank hafter)
  have hend : (skipBlanks after).isEmpty = true := by
    rw [← List.append_nil after, skipBlanks_append hafter]
    rfl
  rw [← hs] at hread
  rw [read, readChars, hread]
  exact if_pos hend

end Cordon.Json
