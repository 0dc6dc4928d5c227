import Cordon.Text.CaseFold
/-!
Which characters fold together. Lowering an ASCII letter stays inside the class of the letter, so
that whatever ignores the case of all letters also ignores that of the ASCII letters; and no
character folds to a line feed but the line feed.
-/
namespace Cordon.Text

theorem toNat_toLower (c : Char) :
    c.toLower.toNat = if 65 ≤ c.toNat ∧ c.toNat ≤ 90 then c.toNat + 32 else c.toNat := by
  have hupper : (c.val ≥ 'A'.val ∧ c.val ≤ 'Z'.val) ↔ 65 ≤ c.toNat ∧ c.toNat ≤ 90 := Iff.rfl
  delta Char.toLower
  split
  · next h =>
    have hc := hupper.mp h
    rw [if_pos hc]
    have hval : c.val.toNat = c.toNat := rfl
    simp only [Char.toNat, UInt32.toNat_add] at hc ⊢
    simp
    omega
  · next h => rw [if_neg (mt hupper.mpr h)]

theorem toLower_toLower (c : Char) : c.toLower.toLower = c.toLower := by
  rw [← Char.toNat_inj, toNat_toLower c.toLower, toNat_toLower c, if_neg]
  split <;> omega

theorem foldPoint_of_lt {c : Char} (h : c.toNat < 0x80) : foldPoint c = c.toLower.toNat := if_pos h

/-- Every run of the table leads to a letter. -/
theorem le_target : ∀ r ∈ foldRuns, 0x61 ≤ r.target := by decide +kernel

theorem le_foldPoint {c : Char} (h : 0x80 ≤ c.toNat) : 0x61 ≤ foldPoint c := by
  rw [foldPoint, if_neg (Nat.not_lt.mpr h)]
  split
  · next r hr =>
    exact Nat.le_trans (le_target r (List.mem_of_find?_eq_some hr)) (Nat.le_add_right ..)
  · omega

/-- The class of a line feed is the line feed. -/
theorem eq_newline_of_sameFold {c : Char} (h : SameFold '\n' c) : c = '\n' := by
  have h : foldPoint c = 10 := h.symm
  by_cases hc : c.toNat < 0x80
  · rw [foldPoint_of_lt hc, toNat_toLower] at h
    have hten : c.toNat = 10 := by split at h <;> omega
    exact Char.toNat_inj.mp hten
  · have := le_foldPoint (Nat.not_lt.mp hc)
    omega

theorem foldPoint_toLower (c : Char) : foldPoint c.toLower = foldPoint c := by
  have hlower := toNat_toLower c
  by_cases hc : 65 ≤ c.toNat ∧ c.toNat ≤ 90
  · rw [if_pos hc] at hlower
    rw [foldPoint_of_lt (by omega), foldPoint_of_lt (by omega), toNat_toLower, if_neg (by omega)]
  · rw [if_neg hc] at hlower
    rw [Char.toNat_inj.mp hlower]

/-- The case of ASCII letters is lost in folding. -/
theorem foldPoints_map_toLower (cs : List Char) :
    foldPoints (cs.map Char.toLower) = foldPoints cs := by
  simp [foldPoints, foldPoint_toLower]

end Cordon.Text
