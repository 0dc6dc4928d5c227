import Cordon.Text.Ascii
import Mathlib.Data.List.Induction
/-!
Runs of digits, and numbers read back from theirs.
-/
namespace Cordon.Text

variable {b n k : Nat} {c : Char}

/-- A run of digits that is not empty. -/
def Digits (cs : List Char) : Prop := cs ≠ [] ∧ ∀ c ∈ cs, isDigit c = true

theorem Digits.exists_cons {digits : List Char} (h : Digits digits) :
    ∃ d ds, digits = d :: ds ∧ isDigit d = true := by
  obtain ⟨d, ds, rfl⟩ := List.exists_cons_of_ne_nil h.1
  exact ⟨d, ds, rfl, h.2 d List.mem_cons_self⟩

theorem guard_digits_iff {digits : List Char} :
    (digits.isEmpty || !digits.all isDigit) = false ↔ Digits digits := by
  simp [Digits]

theorem digitValue_digitChar : ∀ k < 10, digitValue k.digitChar = k := by decide

theorem isDigit_digitChar : ∀ k < 10, isDigit k.digitChar = true := by decide

theorem hexValue?_digitChar : ∀ k < 16, hexValue? k.digitChar = some k := by decide

/-- What stands in the digits of a number. -/
theorem mem_toDigits (hb : 1 < b) (h : c ∈ Nat.toDigits b n) : ∃ k < b, c = k.digitChar := by
  induction n using Nat.base_induction b hb with
  | single m hm =>
    rw [Nat.toDigits_of_lt_base hm, List.mem_singleton] at h
    exact ⟨m, hm, h⟩
  | digit m k hk hm ih =>
    rw [← Nat.toDigits_append_toDigits hb hm hk, List.mem_append] at h
    rcases h with h | h
    · exact ih h
    · rw [Nat.toDigits_of_lt_base hk, List.mem_singleton] at h
      exact ⟨k, hk, h⟩

theorem ofDigits_toDigits (n : Nat) : ofDigits (Nat.toDigits 10 n) = n := by
  induction n using Nat.base_induction 10 (by decide) with
  | single m hm =>
    rw [Nat.toDigits_of_lt_base hm, ofDigits, List.foldl_cons, List.foldl_nil,
      digitValue_digitChar m hm, Nat.zero_mul, Nat.zero_add]
  | digit m k hk hm ih =>
    rw [ofDigits] at ih
    rw [← Nat.toDigits_append_toDigits (by decide) hm hk, ofDigits, List.foldl_append, ih,
      Nat.toDigits_of_lt_base hk, List.foldl_cons, List.foldl_nil, digitValue_digitChar k hk,
      Nat.mul_comm]

theorem all_isDigit_toDigits (n : Nat) : (Nat.toDigits 10 n).all isDigit = true := by
  refine List.all_eq_true.mpr fun c hc => ?_
  obtain ⟨k, hk, rfl⟩ := mem_toDigits (by decide) hc
  exact isDigit_digitChar k hk

theorem digits_toDigits (n : Nat) : Digits (Nat.toDigits 10 n) :=
  ⟨Nat.toDigits_ne_nil, List.all_eq_true.mp (all_isDigit_toDigits n)⟩

theorem ofHexDigits?_toDigits (n : Nat) : ofHexDigits? (Nat.toDigits 16 n) = some n := by
  induction n using Nat.base_induction 16 (by decide) with
  | single m hm => simp [Nat.toDigits_of_lt_base hm, ofHexDigits?, hexValue?_digitChar m hm]
  | digit m k hk hm ih =>
    rw [ofHexDigits?] at ih
    rw [← Nat.toDigits_append_toDigits (by decide) hm hk, ofHexDigits?, List.foldlM_append, ih,
      Nat.toDigits_of_lt_base hk]
    simp [hexValue?_digitChar k hk, Nat.mul_comm]

/-- A text with anything but digits in it writes no number. -/
theorem ofHexDigits?_eq_none {cs : List Char} (hc : hexValue? c = none) (h : c ∈ cs) :
    ofHexDigits? cs = none := by
  have from_any (n : Nat) : cs.foldlM (fun n c => (hexValue? c).map (n * 16 + ·)) n = none := by
    induction cs generalizing n with
    | nil => contradiction
    | cons d cs ih =>
      rw [List.foldlM_cons]
      rcases List.mem_cons.mp h with rfl | h
      · rw [hc]
        rfl
      · cases hexValue? d with
        | none => rfl
        | some k => exact ih h (n * 16 + k)
  exact from_any 0

/-- Only zero is written with a leading zero. -/
theorem head?_toDigits (hn : 0 < n) : (Nat.toDigits 10 n).head? ≠ some '0' := by
  induction n using Nat.base_induction 10 (by decide) with
  | single m hm =>
    rw [Nat.toDigits_of_lt_base hm]
    simp
    omega
  | digit m k hk hm ih =>
    obtain ⟨c, cs, hcs⟩ := List.exists_cons_of_ne_nil (Nat.toDigits_ne_nil (n := m) (b := 10))
    rw [← Nat.toDigits_append_toDigits (by decide) hm hk, hcs]
    rw [hcs] at ih
    exact ih hm

/-! ## Digits of the number they write -/

theorem le_nine_of_isDigit (h : isDigit c = true) :
    '0'.toNat ≤ c.toNat ∧ c.toNat ≤ '0'.toNat + 9 := by
  rw [isDigit, Bool.and_eq_true, decide_eq_true_eq, decide_eq_true_eq] at h
  exact h

theorem digitValue_lt (h : isDigit c = true) : digitValue c < 10 := by
  obtain ⟨-, hhigh⟩ := le_nine_of_isDigit h
  rw [digitValue]
  omega

theorem digitChar_digitValue (h : isDigit c = true) : (digitValue c).digitChar = c := by
  have hchar : ∀ k < 10, k.digitChar = Char.ofNat ('0'.toNat + k) := by decide
  rw [hchar _ (digitValue_lt h), digitValue, Nat.add_sub_cancel' (le_nine_of_isDigit h).1,
    Char.ofNat_toNat]

theorem ofDigits_append_singleton (cs : List Char) (c : Char) :
    ofDigits (cs ++ [c]) = 10 * ofDigits cs + digitValue c := by
  rw [ofDigits, List.foldl_append, Nat.mul_comm]
  rfl

/-- Digits are those of the number they write, but for zeros at the head. -/
theorem toDigits_ofDigits {cs : List Char} (h : Digits cs)
    (hzero : cs.length = 1 ∨ cs.head? ≠ some '0') : Nat.toDigits 10 (ofDigits cs) = cs := by
  induction cs using List.reverseRecOn with
  | nil => exact absurd rfl h.1
  | append_singleton cs c ih =>
    have hc : isDigit c = true := h.2 c (List.mem_append_right cs List.mem_cons_self)
    have hlast : Nat.toDigits 10 (digitValue c) = [c] := by
      rw [Nat.toDigits_of_lt_base (digitValue_lt hc), digitChar_digitValue hc]
    rw [ofDigits_append_singleton]
    by_cases hcs : cs = []
    · rw [hcs, ofDigits, List.foldl_nil, Nat.mul_zero, Nat.zero_add, hlast, List.nil_append]
    · have hhead : cs.head? ≠ some '0' := by
        rcases hzero with hlen | hhead
        · rw [List.length_append, List.length_singleton, Nat.add_eq_right] at hlen
          exact absurd (List.length_eq_zero_iff.mp hlen) hcs
        · obtain ⟨d, ds, rfl⟩ := List.exists_cons_of_ne_nil hcs
          exact hhead
      have hfront := ih ⟨hcs, fun d hd => h.2 d (List.mem_append_left [c] hd)⟩ (.inr hhead)
      have hpos : 0 < ofDigits cs := by
        refine Nat.pos_of_ne_zero fun h0 => hhead ?_
        rw [← hfront, h0]
        rfl
      rw [← Nat.toDigits_append_toDigits (by decide) hpos (digitValue_lt hc), hfront, hlast]

end Cordon.Text
