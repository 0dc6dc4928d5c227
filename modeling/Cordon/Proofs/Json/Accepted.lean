import Cordon.Proofs.Json.Reading
import Mathlib.Data.Option.Basic
/-!
What reads as a value is a text of it, so that reading takes the texts of values and nothing else.
Each reader takes what one rule of writing allows and leaves the rest; the value follows by induction
on the fuel, since a step down always has less of it.
-/
namespace Cordon.Json

open Text

variable {c : Char} {cs rest : List Char} {ps : List Piece} {fuel : Nat}

theorem exists_blanks (cs : List Char) : ∃ blanks, Blank blanks ∧ cs = blanks ++ skipBlanks cs := by
  refine ⟨cs.takeWhile isBlank, fun c hc => ?_, ?_⟩
  · exact List.all_eq_true.mp List.all_takeWhile c hc
  · rw [skipBlanks, List.takeWhile_append_dropWhile]

theorem exists_of_readPieces (h : readPieces cs = some (ps, rest)) :
    ∃ text, PiecesWritten ps text ∧ cs = text ++ '"' :: rest := by
  fun_induction readPieces cs generalizing ps rest with
  | case1 => contradiction
  | case2 rest =>
    obtain ⟨rfl, rfl⟩ := Prod.mk.inj (Option.some.inj h)
    exact ⟨[], .nil, rfl⟩
  | case3 a b c d after ih =>
    simp only [Option.bind_eq_bind, Option.bind_eq_some_iff] at h
    obtain ⟨u, hu, ⟨tail, rest'⟩, hread, heq⟩ := h
    obtain ⟨rfl, rfl⟩ := Prod.mk.inj (Option.some.inj heq)
    obtain ⟨text, htext, rfl⟩ := ih hread
    exact ⟨_, .cons (.unit hu) htext, rfl⟩
  | case4 letter after _ ih =>
    simp only [Option.bind_eq_bind, Option.bind_eq_some_iff] at h
    obtain ⟨c, hc, ⟨tail, rest'⟩, hread, heq⟩ := h
    obtain ⟨rfl, rfl⟩ := Prod.mk.inj (Option.some.inj heq)
    obtain ⟨text, htext, rfl⟩ := ih hread
    exact ⟨_, .cons (.escaped hc) htext, rfl⟩
  | case5 => contradiction
  | case6 c after hquote _ _ hc ih =>
    obtain ⟨⟨tail, rest'⟩, hread, heq⟩ := Option.map_eq_some_iff.mp h
    obtain ⟨rfl, rfl⟩ := Prod.mk.inj heq
    obtain ⟨text, htext, rfl⟩ := ih hread
    simp at hc
    exact ⟨_, .cons (.plain hquote hc.1 hc.2) htext, rfl⟩

theorem eq_of_takeDigits {digits : List Char} (h : takeDigits cs = (digits, rest)) :
    cs = digits ++ rest ∧ ∀ c ∈ digits, isDigit c = true := by
  obtain ⟨rfl, rfl⟩ := Prod.mk.inj h
  exact ⟨List.takeWhile_append_dropWhile.symm, List.all_eq_true.mp List.all_takeWhile⟩

theorem exists_of_readFraction {digits : List Char} (h : readFraction cs = some (digits, rest)) :
    ∃ fs, FractionWritten digits fs ∧ cs = fs ++ rest := by
  unfold readFraction at h
  split at h
  · split at h
    next hds =>
    split at h
    · contradiction
    · next hne =>
      obtain ⟨rfl, rfl⟩ := Prod.mk.inj (Option.some.inj h)
      obtain ⟨rfl, hdigits⟩ := eq_of_takeDigits hds
      exact ⟨_, .present ⟨by simpa using hne, hdigits⟩, rfl⟩
  · obtain ⟨rfl, rfl⟩ := Prod.mk.inj (Option.some.inj h)
    exact ⟨[], .absent, rfl⟩

/-- The digits of an exponent, once its mark and its sign are taken. -/
theorem eq_of_exponentDigits {sign negative : Bool} {after digits : List Char}
    (h : (if (takeDigits after).1.isEmpty then none else some (sign, takeDigits after)) =
      some (negative, digits, rest)) :
    sign = negative ∧ Digits digits ∧ after = digits ++ rest := by
  split at h
  · contradiction
  · next hne =>
    obtain ⟨rfl, htake⟩ := Prod.mk.inj (Option.some.inj h)
    obtain ⟨hafter, hdigits⟩ := eq_of_takeDigits htake
    rw [htake] at hne
    exact ⟨rfl, ⟨by simpa using hne, hdigits⟩, hafter⟩

theorem exists_of_readExponent {negative : Bool} {digits : List Char}
    (h : readExponent cs = some (negative, digits, rest)) :
    ∃ es, ExponentWritten negative digits es ∧ cs = es ++ rest := by
  unfold readExponent at h
  dsimp only at h
  split at h
  · obtain ⟨rfl, hdigits, rfl⟩ := eq_of_exponentDigits h
    exact ⟨_, .minus (.inl rfl) hdigits, rfl⟩
  · obtain ⟨rfl, hdigits, rfl⟩ := eq_of_exponentDigits h
    exact ⟨_, .minus (.inr rfl) hdigits, rfl⟩
  · obtain ⟨rfl, hdigits, rfl⟩ := eq_of_exponentDigits h
    exact ⟨_, .plus (.inl rfl) hdigits, rfl⟩
  · obtain ⟨rfl, hdigits, rfl⟩ := eq_of_exponentDigits h
    exact ⟨_, .plus (.inr rfl) hdigits, rfl⟩
  · obtain ⟨rfl, hdigits, rfl⟩ := eq_of_exponentDigits h
    exact ⟨_, .unsigned (.inl rfl) hdigits, rfl⟩
  · obtain ⟨rfl, hdigits, rfl⟩ := eq_of_exponentDigits h
    exact ⟨_, .unsigned (.inr rfl) hdigits, rfl⟩
  · obtain ⟨rfl, hrest⟩ := Prod.mk.inj (Option.some.inj h)
    obtain ⟨rfl, rfl⟩ := Prod.mk.inj hrest
    exact ⟨[], .absent, rfl⟩

theorem digits_of_isWhole {whole : List Char} (h : isWhole whole = true)
    (hdigits : ∀ c ∈ whole, isDigit c = true) :
    Digits whole ∧ (whole.head? = some '0' → whole = ['0']) := by
  unfold isWhole at h
  split at h
  · exact absurd h Bool.false_ne_true
  · exact absurd h Bool.false_ne_true
  · next hne hzero =>
    refine ⟨⟨hne, hdigits⟩, fun hhead => ?_⟩
    obtain ⟨after, rfl⟩ := List.head?_eq_some_iff.mp hhead
    cases after with
    | nil => rfl
    | cons c after => exact absurd rfl (hzero c after)

theorem exists_of_readNumber {negative : Bool} {n : Number}
    (h : readNumber negative cs = some (n, rest)) :
    ∃ text, n.Written ((if negative then ['-'] else []) ++ text) ∧ cs = text ++ rest := by
  unfold readNumber at h
  split at h
  next whole rest₁ htake =>
  obtain ⟨rfl, hdigits⟩ := eq_of_takeDigits htake
  simp only [Option.bind_eq_bind, Option.bind_eq_some_iff] at h
  obtain ⟨_, hguard, ⟨fraction, rest₂⟩, hfraction, ⟨exponentNegative, exponent, rest₃⟩, hexponent,
    heq⟩ := h
  obtain ⟨rfl, rfl⟩ := Prod.mk.inj (Option.some.inj heq)
  obtain ⟨hwhole, hzero⟩ := digits_of_isWhole ((Option.guard_eq_some' _).mp hguard) hdigits
  obtain ⟨fs, hfs, rfl⟩ := exists_of_readFraction hfraction
  obtain ⟨es, hes, rfl⟩ := exists_of_readExponent hexponent
  refine ⟨whole ++ fs ++ es, ?_, by simp⟩
  have hn : Number.Written ⟨negative, _, _, _, _⟩ _ := .mk hwhole hzero hfs hes
  simpa using hn

/-- Whatever is read with so much fuel is written there. -/
structure Accepts (fuel : Nat) : Prop where
  value {j : Json} {cs rest : List Char} : readValue fuel cs = some (j, rest) →
    ∃ blanks text, Blank blanks ∧ Written j text ∧ cs = blanks ++ (text ++ rest)
  elements {js : List Json} {cs rest : List Char} : readElements fuel cs = some (js, rest) →
    ∃ text, ElementsWritten js text ∧ cs = text ++ rest
  members {ms : List (List Piece × Json)} {cs rest : List Char} :
    readMembers fuel cs = some (ms, rest) → ∃ text, MembersWritten ms text ∧ cs = text ++ rest

namespace Accepts

theorem value_succ (H : Accepts fuel) {j : Json} (h : readValue (fuel + 1) cs = some (j, rest)) :
    ∃ blanks text, Blank blanks ∧ Written j text ∧ cs = blanks ++ (text ++ rest) := by
  obtain ⟨blanks, hblanks, hcs⟩ := exists_blanks cs
  rw [hcs]
  rw [readValue] at h
  suffices htext : ∃ text, Written j text ∧ skipBlanks cs = text ++ rest by
    obtain ⟨text, hj, htext⟩ := htext
    exact ⟨blanks, text, hblanks, hj, congrArg _ htext⟩
  split at h
  case h_1 heq =>
    obtain ⟨rfl, rfl⟩ := Prod.mk.inj (Option.some.inj h)
    exact ⟨_, .null, heq⟩
  case h_2 heq =>
    obtain ⟨rfl, rfl⟩ := Prod.mk.inj (Option.some.inj h)
    exact ⟨_, .yes, heq⟩
  case h_3 heq =>
    obtain ⟨rfl, rfl⟩ := Prod.mk.inj (Option.some.inj h)
    exact ⟨_, .no, heq⟩
  case h_4 heq =>
    obtain ⟨⟨pieces, rest'⟩, hread, hpair⟩ := Option.map_eq_some_iff.mp h
    obtain ⟨rfl, rfl⟩ := Prod.mk.inj hpair
    obtain ⟨text, htext, rfl⟩ := exists_of_readPieces hread
    exact ⟨_, .text htext, by simpa using heq⟩
  case h_5 after heq =>
    obtain ⟨blanks', hblanks', hafter⟩ := exists_blanks after
    split at h
    · next hclose =>
      obtain ⟨rfl, rfl⟩ := Prod.mk.inj (Option.some.inj h)
      rw [hclose] at hafter
      exact ⟨_, .emptyArray hblanks', by rw [heq, hafter]; simp⟩
    · obtain ⟨⟨elements, rest'⟩, hread, hpair⟩ := Option.map_eq_some_iff.mp h
      obtain ⟨rfl, rfl⟩ := Prod.mk.inj hpair
      obtain ⟨text, htext, rfl⟩ := H.elements hread
      exact ⟨_, .array htext, heq⟩
  case h_6 after heq =>
    obtain ⟨blanks', hblanks', hafter⟩ := exists_blanks after
    split at h
    · next hclose =>
      obtain ⟨rfl, rfl⟩ := Prod.mk.inj (Option.some.inj h)
      rw [hclose] at hafter
      exact ⟨_, .emptyObject hblanks', by rw [heq, hafter]; simp⟩
    · obtain ⟨⟨members, rest'⟩, hread, hpair⟩ := Option.map_eq_some_iff.mp h
      obtain ⟨rfl, rfl⟩ := Prod.mk.inj hpair
      obtain ⟨text, htext, rfl⟩ := H.members hread
      exact ⟨_, .object htext, heq⟩
  case h_7 heq =>
    obtain ⟨⟨n, rest'⟩, hread, hpair⟩ := Option.map_eq_some_iff.mp h
    obtain ⟨rfl, rfl⟩ := Prod.mk.inj hpair
    obtain ⟨text, htext, rfl⟩ := exists_of_readNumber hread
    exact ⟨_, .number htext, heq⟩
  case h_8 =>
    obtain ⟨⟨n, rest'⟩, hread, hpair⟩ := Option.map_eq_some_iff.mp h
    obtain ⟨rfl, rfl⟩ := Prod.mk.inj hpair
    obtain ⟨text, htext, heq⟩ := exists_of_readNumber hread
    exact ⟨_, .number htext, heq⟩

theorem elements_succ (H : Accepts fuel) {js : List Json}
    (h : readElements (fuel + 1) cs = some (js, rest)) :
    ∃ text, ElementsWritten js text ∧ cs = text ++ rest := by
  simp only [readElements, Option.bind_eq_bind, Option.bind_eq_some_iff] at h
  obtain ⟨⟨j, rest₁⟩, hread, h⟩ := h
  obtain ⟨before, text, hbefore, hj, rfl⟩ := H.value hread
  obtain ⟨after, hafter, hrest₁⟩ := exists_blanks rest₁
  dsimp only at h
  split at h
  · next hcomma =>
    rw [hcomma] at hrest₁
    obtain ⟨⟨elements, rest₂⟩, hmore, heq⟩ := Option.bind_eq_some_iff.mp h
    obtain ⟨rfl, rfl⟩ := Prod.mk.inj (Option.some.inj heq)
    obtain ⟨texts, htexts, rfl⟩ := H.elements hmore
    exact ⟨_, .more hbefore hj hafter htexts, by rw [hrest₁]; simp⟩
  · next hclose =>
    rw [hclose] at hrest₁
    obtain ⟨rfl, rfl⟩ := Prod.mk.inj (Option.some.inj h)
    exact ⟨_, .last hbefore hj hafter, by rw [hrest₁]; simp⟩
  · contradiction

theorem members_succ (H : Accepts fuel) {ms : List (List Piece × Json)}
    (h : readMembers (fuel + 1) cs = some (ms, rest)) :
    ∃ text, MembersWritten ms text ∧ cs = text ++ rest := by
  rw [readMembers] at h
  obtain ⟨before, hbefore, hcs⟩ := exists_blanks cs
  split at h
  · next hquote =>
    rw [hquote] at hcs
    simp only [Option.bind_eq_bind, Option.bind_eq_some_iff] at h
    obtain ⟨⟨name, rest₁⟩, hname, h⟩ := h
    obtain ⟨text, htext, rfl⟩ := exists_of_readPieces hname
    obtain ⟨between, hbetween, hrest₁⟩ := exists_blanks rest₁
    dsimp only at h
    split at h
    · next hcolon =>
      rw [hcolon] at hrest₁
      obtain ⟨⟨j, rest₂⟩, hread, hnext⟩ := Option.bind_eq_some_iff.mp h
      obtain ⟨blanks, value, hblanks, hj, rfl⟩ := H.value hread
      have hlabel : LabelWritten name _ := .mk hbefore htext hbetween hblanks
      obtain ⟨after, hafter, hrest₂⟩ := exists_blanks rest₂
      split at hnext
      · next hcomma =>
        rw [hcomma] at hrest₂
        obtain ⟨⟨members, rest₃⟩, hmore, heq⟩ := Option.bind_eq_some_iff.mp hnext
        obtain ⟨rfl, rfl⟩ := Prod.mk.inj (Option.some.inj heq)
        obtain ⟨texts, htexts, rfl⟩ := H.members hmore
        exact ⟨_, .more hlabel hj hafter htexts, by rw [hcs, hrest₁, hrest₂]; simp⟩
      · next hclose =>
        rw [hclose] at hrest₂
        obtain ⟨rfl, rfl⟩ := Prod.mk.inj (Option.some.inj hnext)
        exact ⟨_, .last hlabel hj hafter, by rw [hcs, hrest₁, hrest₂]; simp⟩
      · contradiction
    · contradiction
  · contradiction

theorem all (fuel : Nat) : Accepts fuel := by
  induction fuel with
  | zero => exact ⟨nofun, nofun, nofun⟩
  | succ fuel H => exact ⟨H.value_succ, H.elements_succ, H.members_succ⟩

end Accepts

/-- What reads as a value is a text of it. -/
theorem textOf_of_read {j : Json} {s : String} (h : read s = some j) : TextOf j s := by
  rw [read, readChars] at h
  split at h
  · next rest hread =>
    split at h
    · next hend =>
      obtain rfl := Option.some.inj h
      obtain ⟨before, text, hbefore, hj, hs⟩ := (Accepts.all _).value hread
      obtain ⟨after, hafter, hrest⟩ := exists_blanks rest
      rw [List.isEmpty_iff.mp hend, List.append_nil] at hrest
      exact ⟨before, text, after, hbefore, hj, hafter, by rw [hs, hrest, List.append_assoc]⟩
    · contradiction
  · contradiction

/-- Reading takes exactly the texts of a value. -/
theorem read_eq_some_iff {j : Json} {s : String} : read s = some j ↔ TextOf j s :=
  ⟨textOf_of_read, read_of_textOf⟩

end Cordon.Json
