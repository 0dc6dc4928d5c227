import Cordon.Text.Utf8
/-!
Reading undoes writing: each character's bytes are taken up whole, whatever follows them. Strict
reading is undone by writing too, since the ranges of the second bytes leave each character one
spelling. No character but U+0000 writes a zero.
-/
namespace Cordon.Text

namespace Utf8

/-! ## First bytes -/

theorem tailOf_one : ∀ k < 0x80, tailOf (UInt8.ofNat k) = some (0, 0x80, 0xBF) ∧
    leadBits (UInt8.ofNat k) = k := by decide +kernel

theorem tailOf_two : ∀ k < 0x20, 2 ≤ k → tailOf (UInt8.ofNat (k + 0xC0)) = some (1, 0x80, 0xBF) ∧
    leadBits (UInt8.ofNat (k + 0xC0)) = k := by decide +kernel

/-- The range of the second byte keeps out what two bytes can write and the surrogates. -/
theorem tailOf_three : ∀ k < 0x10, tailOf (UInt8.ofNat (k + 0xE0)) =
      some (2, if k = 0 then 0xA0 else 0x80, if k = 13 then 0x9F else 0xBF) ∧
    leadBits (UInt8.ofNat (k + 0xE0)) = k := by decide +kernel

/-- The range of the second byte keeps out what three bytes can write and what is above U+10FFFF. -/
theorem tailOf_four : ∀ k < 5, tailOf (UInt8.ofNat (k + 0xF0)) =
      some (3, if k = 0 then 0x90 else 0x80, if k = 4 then 0x8F else 0xBF) ∧
    leadBits (UInt8.ofNat (k + 0xF0)) = k := by decide +kernel

/-! ## Characters -/

variable {lo hi b : UInt8} {k n count point : Nat} {bytes : List UInt8} {c : Char}

theorem takeTail_cons (hlo : lo.toNat ≤ k + 0x80) (hhi : k + 0x80 ≤ hi.toNat) (hk : k < 0x40) :
    takeTail (count + 1) lo hi point (UInt8.ofNat (k + 0x80) :: bytes) =
      takeTail count 0x80 0xBF (point * 64 + k) bytes := by
  have hnat : (UInt8.ofNat (k + 0x80)).toNat = k + 0x80 :=
    UInt8.toNat_ofNat_of_lt' (Nat.lt_of_lt_of_le (Nat.add_lt_add_right hk 0x80) (by decide))
  rw [takeTail, if_pos, hnat, Nat.add_sub_cancel]
  rw [UInt8.le_iff_toNat_le, UInt8.le_iff_toNat_le, hnat]
  exact ⟨hlo, hhi⟩

theorem takeTail_last (hk : k < 0x40) (hpoint : point * 64 + k = n) :
    takeTail 1 0x80 0xBF point (UInt8.ofNat (k + 0x80) :: bytes) =
      (some (Char.ofNat n), bytes) := by
  rw [takeTail_cons (by simp) (by simp; omega) hk, takeTail, hpoint]

theorem scan_cons (h : tailOf b = some (count, lo, hi)) (hpoint : leadBits b = point) :
    scan (b :: bytes) =
      (takeTail count lo hi point bytes).1 :: scan (takeTail count lo hi point bytes).2 := by
  rw [scan, h, hpoint]

theorem toNat_valid (c : Char) : c.toNat < 0xD800 ∨ 0xDFFF < c.toNat ∧ c.toNat < 0x110000 := c.valid

/-- The bytes of a character read as that character. -/
theorem scan_utf8EncodeChar (c : Char) (bytes : List UInt8) :
    scan (String.utf8EncodeChar c ++ bytes) = some c :: scan bytes := by
  have hvalid := toNat_valid c
  have hc : Char.ofNat c.toNat = c := Char.ofNat_toNat c
  have hval : c.val.toNat = c.toNat := rfl
  rw [String.utf8EncodeChar, hval]
  generalize c.toNat = n at hvalid hc
  subst hc
  split
  · next h =>
    obtain ⟨htail, hlead⟩ := tailOf_one n (by omega)
    exact scan_cons htail hlead
  · split
    · next h =>
      obtain ⟨htail, hlead⟩ := tailOf_two (n / 64 % 0x20) (by omega) (by omega)
      rw [List.cons_append, scan_cons htail hlead, List.cons_append,
        takeTail_last (n := n) (by omega) (by omega)]
      rfl
    · split
      · next h =>
        obtain ⟨htail, hlead⟩ := tailOf_three (n / 4096 % 0x10) (by omega)
        rw [List.cons_append, scan_cons htail hlead, List.cons_append,
          takeTail_cons (by split <;> simp; omega) (by split <;> simp <;> omega) (by omega),
          List.cons_append, takeTail_last (n := n) (by omega) (by omega)]
        rfl
      · next h =>
        obtain ⟨htail, hlead⟩ := tailOf_four (n / 262144 % 8) (by omega)
        rw [List.cons_append, scan_cons htail hlead, List.cons_append,
          takeTail_cons (by split <;> simp; omega) (by split <;> simp <;> omega) (by omega),
          List.cons_append, takeTail_cons (by simp) (by simp; omega) (by omega),
          List.cons_append, takeTail_last (n := n) (by omega) (by omega)]
        rfl

theorem scan_flatMap (cs : List Char) : scan (cs.flatMap String.utf8EncodeChar) = cs.map some := by
  induction cs with
  | nil => rw [List.flatMap_nil, scan, List.map_nil]
  | cons c cs ih => rw [List.flatMap_cons, scan_utf8EncodeChar, ih, List.map_cons]

/-! ## What reads as a character -/

/-- The first bytes that begin a sequence. -/
theorem lt_of_tailOf_isSome : ∀ n < 256, (tailOf (UInt8.ofNat n)).isSome →
    n < 0x80 ∨ 0xC2 ≤ n ∧ n < 0xF5 := by decide +kernel

theorem takeTail_eq_some (hlo : 0x80 ≤ lo.toNat) (hhi : hi.toNat ≤ 0xBF)
    (h : (takeTail (count + 1) lo hi point bytes).1 = some c) :
    ∃ k < 0x40, ∃ tail, bytes = UInt8.ofNat (k + 0x80) :: tail ∧
      lo.toNat ≤ k + 0x80 ∧ k + 0x80 ≤ hi.toNat ∧
      takeTail (count + 1) lo hi point bytes = takeTail count 0x80 0xBF (point * 64 + k) tail := by
  cases bytes with
  | nil => contradiction
  | cons b tail =>
    rw [takeTail] at h
    split at h
    · next hb =>
      rw [UInt8.le_iff_toNat_le, UInt8.le_iff_toNat_le] at hb
      have hk : b.toNat - 0x80 + 0x80 = b.toNat := by omega
      have heq : UInt8.ofNat (b.toNat - 0x80 + 0x80) = b := by rw [hk, UInt8.ofNat_toNat]
      refine ⟨b.toNat - 0x80, by omega, tail, by rw [heq], by omega, by omega, ?_⟩
      rw [takeTail, if_pos]
      rwa [UInt8.le_iff_toNat_le, UInt8.le_iff_toNat_le]
    · contradiction

theorem utf8EncodeChar_ofNat (h : n.isValidChar) : String.utf8EncodeChar (Char.ofNat n) =
    if n ≤ 0x7F then [UInt8.ofNat n]
    else if n ≤ 0x7FF then [UInt8.ofNat (n / 64 % 0x20 + 0xC0), UInt8.ofNat (n % 0x40 + 0x80)]
    else if n ≤ 0xFFFF then [UInt8.ofNat (n / 4096 % 0x10 + 0xE0),
      UInt8.ofNat (n / 64 % 0x40 + 0x80), UInt8.ofNat (n % 0x40 + 0x80)]
    else [UInt8.ofNat (n / 262144 % 8 + 0xF0), UInt8.ofNat (n / 4096 % 0x40 + 0x80),
      UInt8.ofNat (n / 64 % 0x40 + 0x80), UInt8.ofNat (n % 0x40 + 0x80)] := by
  have hn : (Char.ofNat n).val.toNat = n := by
    rw [Char.ofNat, dif_pos h]
    rfl
  rw [String.utf8EncodeChar, hn]

section Points

variable {k₁ k₂ k₃ : Nat}

theorem utf8EncodeChar_two (hk : 2 ≤ k) (hk' : k < 0x20) (h₁ : k₁ < 0x40) :
    String.utf8EncodeChar (Char.ofNat (k * 64 + k₁)) =
      [UInt8.ofNat (k + 0xC0), UInt8.ofNat (k₁ + 0x80)] := by
  have e₀ : (k * 64 + k₁) / 64 % 0x20 = k := by omega
  have e₁ : (k * 64 + k₁) % 0x40 = k₁ := by omega
  rw [utf8EncodeChar_ofNat (.inl (by omega)), if_neg (by omega), if_pos (by omega), e₀, e₁]

theorem utf8EncodeChar_three (hk : k < 0x10) (h₁ : k₁ < 0x40) (h₂ : k₂ < 0x40)
    (hlo : k = 0 → 0x20 ≤ k₁) (hhi : k = 13 → k₁ < 0x20) :
    String.utf8EncodeChar (Char.ofNat ((k * 64 + k₁) * 64 + k₂)) =
      [UInt8.ofNat (k + 0xE0), UInt8.ofNat (k₁ + 0x80), UInt8.ofNat (k₂ + 0x80)] := by
  have hvalid : ((k * 64 + k₁) * 64 + k₂).isValidChar := by
    unfold Nat.isValidChar
    omega
  have e₀ : ((k * 64 + k₁) * 64 + k₂) / 4096 % 0x10 = k := by omega
  have e₁ : ((k * 64 + k₁) * 64 + k₂) / 64 % 0x40 = k₁ := by omega
  have e₂ : ((k * 64 + k₁) * 64 + k₂) % 0x40 = k₂ := by omega
  rw [utf8EncodeChar_ofNat hvalid, if_neg (by omega), if_neg (by omega), if_pos (by omega), e₀, e₁,
    e₂]

theorem utf8EncodeChar_four (hk : k < 5) (h₁ : k₁ < 0x40) (h₂ : k₂ < 0x40) (h₃ : k₃ < 0x40)
    (hlo : k = 0 → 0x10 ≤ k₁) (hhi : k = 4 → k₁ < 0x10) :
    String.utf8EncodeChar (Char.ofNat (((k * 64 + k₁) * 64 + k₂) * 64 + k₃)) =
      [UInt8.ofNat (k + 0xF0), UInt8.ofNat (k₁ + 0x80), UInt8.ofNat (k₂ + 0x80),
        UInt8.ofNat (k₃ + 0x80)] := by
  have hvalid : (((k * 64 + k₁) * 64 + k₂) * 64 + k₃).isValidChar := by
    unfold Nat.isValidChar
    omega
  have e₀ : (((k * 64 + k₁) * 64 + k₂) * 64 + k₃) / 262144 % 8 = k := by omega
  have e₁ : (((k * 64 + k₁) * 64 + k₂) * 64 + k₃) / 4096 % 0x40 = k₁ := by omega
  have e₂ : (((k * 64 + k₁) * 64 + k₂) * 64 + k₃) / 64 % 0x40 = k₂ := by omega
  have e₃ : (((k * 64 + k₁) * 64 + k₂) * 64 + k₃) % 0x40 = k₃ := by omega
  rw [utf8EncodeChar_ofNat hvalid, if_neg (by omega), if_neg (by omega), if_neg (by omega), e₀, e₁,
    e₂, e₃]

end Points

/-- A first byte that begins a sequence, by the length of the sequence. -/
theorem tailOf_cases {range : Nat × UInt8 × UInt8} (h : tailOf b = some range) :
    (∃ k < 0x80, b = UInt8.ofNat k) ∨ (∃ k < 0x20, 2 ≤ k ∧ b = UInt8.ofNat (k + 0xC0)) ∨
      (∃ k < 0x10, b = UInt8.ofNat (k + 0xE0)) ∨ ∃ k < 5, b = UInt8.ofNat (k + 0xF0) := by
  have hb : UInt8.ofNat b.toNat = b := UInt8.ofNat_toNat
  have hlt : b.toNat < 256 := b.toNat_lt
  generalize b.toNat = n at hb hlt
  subst hb
  have hn := lt_of_tailOf_isSome n hlt (by rw [h]; rfl)
  by_cases hone : n < 0x80
  · exact .inl ⟨n, hone, rfl⟩
  by_cases htwo : n < 0xE0
  · obtain ⟨k, rfl⟩ := Nat.exists_eq_add_of_le' (show 0xC0 ≤ n by omega)
    exact .inr (.inl ⟨k, by omega, by omega, rfl⟩)
  by_cases hthree : n < 0xF0
  · obtain ⟨k, rfl⟩ := Nat.exists_eq_add_of_le' (show 0xE0 ≤ n by omega)
    exact .inr (.inr (.inl ⟨k, by omega, rfl⟩))
  · obtain ⟨k, rfl⟩ := Nat.exists_eq_add_of_le' (show 0xF0 ≤ n by omega)
    exact .inr (.inr (.inr ⟨k, by omega, rfl⟩))

variable {cs : List (Option Char)}

theorem takeTail_last_eq_some (h : (takeTail 1 0x80 0xBF point bytes).1 = some c) :
    ∃ k < 0x40, ∃ tail, bytes = UInt8.ofNat (k + 0x80) :: tail ∧ c = Char.ofNat (point * 64 + k) ∧
      (takeTail 1 0x80 0xBF point bytes).2 = tail := by
  obtain ⟨k, hk, tail, rfl, -, -, htake⟩ := takeTail_eq_some (by simp) (by simp) h
  rw [htake, takeTail] at h ⊢
  exact ⟨k, hk, tail, rfl, (Option.some.inj h).symm, rfl⟩

theorem scan_cons_eq (htail : tailOf b = some (count, lo, hi)) (hpoint : leadBits b = point)
    (h : scan (b :: bytes) = some c :: cs) : (takeTail count lo hi point bytes).1 = some c ∧
      scan (takeTail count lo hi point bytes).2 = cs := by
  rw [scan_cons htail hpoint] at h
  exact List.cons.inj h

/-- What reads as a character is that character's bytes. -/
theorem eq_append_of_scan (h : scan bytes = some c :: cs) :
    ∃ rest, bytes = String.utf8EncodeChar c ++ rest ∧ scan rest = cs := by
  cases bytes with
  | nil =>
    rw [scan] at h
    contradiction
  | cons b bytes =>
    cases htail : tailOf b with
    | none =>
      rw [scan, htail] at h
      injection h with hnone
      contradiction
    | some range =>
      rcases tailOf_cases htail with ⟨k, hk, rfl⟩ | ⟨k, hk, hk', rfl⟩ | ⟨k, hk, rfl⟩ | ⟨k, hk, rfl⟩
      · obtain ⟨hc, hcs⟩ := scan_cons_eq (tailOf_one k hk).1 (tailOf_one k hk).2 h
        rw [takeTail] at hc hcs
        obtain rfl := Option.some.inj hc
        refine ⟨bytes, ?_, hcs⟩
        rw [utf8EncodeChar_ofNat (.inl (by omega)), if_pos (by omega)]
        rfl
      · obtain ⟨hc, hcs⟩ := scan_cons_eq (tailOf_two k hk hk').1 (tailOf_two k hk hk').2 h
        obtain ⟨k₁, hk₁, rest, rfl, rfl, hrest⟩ := takeTail_last_eq_some hc
        refine ⟨rest, ?_, hrest ▸ hcs⟩
        rw [utf8EncodeChar_two hk' hk hk₁]
        rfl
      · obtain ⟨hc, hcs⟩ := scan_cons_eq (tailOf_three k hk).1 (tailOf_three k hk).2 h
        obtain ⟨k₁, hk₁, tail, rfl, hlo, hhi, htake⟩ :=
          takeTail_eq_some (by split <;> simp) (by split <;> simp) hc
        rw [htake] at hc hcs
        obtain ⟨k₂, hk₂, rest, rfl, rfl, hrest⟩ := takeTail_last_eq_some hc
        refine ⟨rest, ?_, hrest ▸ hcs⟩
        rw [utf8EncodeChar_three hk hk₁ hk₂]
        · rfl
        · rintro rfl
          simpa using hlo
        · rintro rfl
          simpa [Nat.lt_succ_iff] using hhi
      · obtain ⟨hc, hcs⟩ := scan_cons_eq (tailOf_four k hk).1 (tailOf_four k hk).2 h
        obtain ⟨k₁, hk₁, tail, rfl, hlo, hhi, htake₁⟩ :=
          takeTail_eq_some (by split <;> simp) (by split <;> simp) hc
        rw [htake₁] at hc hcs
        obtain ⟨k₂, hk₂, tail, rfl, -, -, htake₂⟩ := takeTail_eq_some (by simp) (by simp) hc
        rw [htake₂] at hc hcs
        obtain ⟨k₃, hk₃, rest, rfl, rfl, hrest⟩ := takeTail_last_eq_some hc
        refine ⟨rest, ?_, hrest ▸ hcs⟩
        rw [utf8EncodeChar_four hk hk₁ hk₂ hk₃]
        · rfl
        · rintro rfl
          simpa using hlo
        · rintro rfl
          simpa [Nat.lt_succ_iff] using hhi

/-- Bytes that read as characters throughout are those of the characters. -/
theorem eq_flatMap_of_scan {cs : List Char} (h : scan bytes = cs.map some) :
    bytes = cs.flatMap String.utf8EncodeChar := by
  induction cs generalizing bytes with
  | nil =>
    cases bytes with
    | nil => rfl
    | cons b bytes =>
      rw [scan] at h
      split at h <;> contradiction
  | cons c cs ih =>
    obtain ⟨rest, rfl, hrest⟩ := eq_append_of_scan h
    rw [ih hrest, List.flatMap_cons]

theorem eq_zero_of_mem (h : 0 ∈ String.utf8EncodeChar c) : c.toNat = 0 := by
  have hval : c.val.toNat = c.toNat := rfl
  have hvalid := toNat_valid c
  have byte {k : Nat} (hk : k < 256) (h : 0 = UInt8.ofNat k) : k = 0 := by
    have := congrArg UInt8.toNat h
    rw [UInt8.toNat_ofNat_of_lt' hk] at this
    exact this.symm
  rw [String.utf8EncodeChar, hval] at h
  split at h
  · exact byte (by omega) (List.mem_singleton.mp h)
  -- all bytes of a longer sequence are above 0x7F
  · split at h
    · simp only [List.mem_cons, List.not_mem_nil, or_false] at h
      rcases h with h | h
      all_goals have := byte (by omega) h
      all_goals omega
    · split at h
      · simp only [List.mem_cons, List.not_mem_nil, or_false] at h
        rcases h with h | h | h
        all_goals have := byte (by omega) h
        all_goals omega
      · simp only [List.mem_cons, List.not_mem_nil, or_false] at h
        rcases h with h | h | h | h
        all_goals have := byte (by omega) h
        all_goals omega

end Utf8

theorem mapM_id_eq_some_iff {l : List (Option Char)} {cs : List Char} :
    l.mapM id = some cs ↔ l = cs.map some := by
  induction l generalizing cs with
  | nil => cases cs <;> simp
  | cons c? l ih =>
    rw [List.mapM_cons, Option.bind_eq_bind, Option.bind_eq_some_iff]
    simp only [id, Option.bind_eq_bind, Option.bind_eq_some_iff, ih, Option.pure_def,
      Option.some.injEq]
    constructor
    · rintro ⟨c, rfl, cs, rfl, rfl⟩
      rfl
    · intro h
      cases cs with
      | nil => contradiction
      | cons c cs =>
        obtain ⟨rfl, rfl⟩ := List.cons.inj h
        exact ⟨c, rfl, cs, rfl, rfl⟩

/-- What a strict reader takes is what is written, and it reads as it was. -/
theorem ofUtf8?_eq_some_iff {bytes : List UInt8} {s : String} :
    ofUtf8? bytes = some s ↔ bytes = utf8 s := by
  rw [ofUtf8?, utf8, Option.map_eq_some_iff]
  constructor
  · rintro ⟨cs, hcs, rfl⟩
    rw [String.toList_ofList]
    exact Utf8.eq_flatMap_of_scan (mapM_id_eq_some_iff.mp hcs)
  · rintro rfl
    exact ⟨s.toList, mapM_id_eq_some_iff.mpr (Utf8.scan_flatMap _), String.ofList_toList⟩

theorem zero_not_mem_utf8 {s : String} (h : '\x00' ∉ s.toList) : 0 ∉ utf8 s := by
  intro hmem
  obtain ⟨c, hc, hzero⟩ := List.mem_flatMap.mp hmem
  have hnul : c = '\x00' := Char.toNat_inj.mp (Utf8.eq_zero_of_mem hzero)
  exact h (hnul ▸ hc)

end Cordon.Text
