import Cordon.Proofs.Address.Text
/-!
What is written where an address is read. An IPv4 address is written in one way only; an IPv6 address
is written with digits, dots and at least two colons. So neither an address alone nor one with a port
is taken for something else.
-/
namespace Cordon

open Text

namespace Address

variable {bits : BitVec 128} {short : BitVec 32} {n : Nat} {cs : List Char} {gs os : List Nat}

/-! ## IPv4 -/

theorem readOctet_eq_some (h : readOctet cs = some n) : n < 256 ∧ Nat.toDigits 10 n = cs := by
  rw [readOctet] at h
  split at h
  · contradiction
  · next hdigits =>
    split at h
    · contradiction
    · next hzero =>
      obtain ⟨hn, h⟩ : ofDigits cs < 256 ∧ ofDigits cs = n := by simpa using h
      refine ⟨h ▸ hn, ?_⟩
      have hcs : Digits cs := by
        rw [← guard_digits_iff]
        simp only [Bool.or_eq_true, not_or, Bool.not_eq_true] at hdigits
        rw [hdigits.1.1, hdigits.2, Bool.or_false]
      have hone : cs.length = 1 ∨ cs.head? ≠ some '0' := by
        have := List.length_pos_of_ne_nil hcs.1
        simp only [Bool.and_eq_true, decide_eq_true_eq, beq_iff_eq, not_and] at hzero
        rcases Nat.lt_or_ge 1 cs.length with hlen | hlen
        · exact .inr (hzero hlen)
        · exact .inl (by omega)
      rw [← h, toDigits_ofDigits hcs hone]

theorem octets_of_parts {parts : List (List Char)}
    (h : List.Forall₂ (fun part o => readOctet part = some o) parts os) :
    (∀ o ∈ os, o < 256) ∧ os.map (Nat.toDigits 10) = parts := by
  induction h with
  | nil => exact ⟨nofun, rfl⟩
  | cons ho _ ih =>
    obtain ⟨hlt, hdigits⟩ := readOctet_eq_some ho
    exact ⟨List.forall_mem_cons.mpr ⟨hlt, ih.1⟩, by rw [List.map_cons, hdigits, ih.2]⟩

theorem octets_ofParts (hlen : os.length = 4) (h : ∀ o ∈ os, o < 256) :
    octets (BitVec.ofNat 32 (ofParts 256 os)) = os := by
  match os, hlen with
  | [a, b, c, d], _ =>
    simp only [List.forall_mem_cons] at h
    obtain ⟨ha, hb, hc, hd, -⟩ := h
    simp only [octets, List.map_cons, List.map_nil, ofParts, List.foldl_cons, List.foldl_nil,
      BitVec.extractLsb'_toNat, BitVec.toNat_ofNat, Nat.shiftRight_eq_div_pow, List.cons.injEq,
      and_true]
    omega

/-- An IPv4 address is written in its canonical text. -/
theorem toList_v4Text_of_readV4 (h : readV4 cs = some short) : (v4Text short).toList = cs := by
  obtain ⟨os, hos, rfl⟩ := Option.map_eq_some_iff.mp h
  rw [readOctets] at hos
  split at hos
  · next hlen =>
    have hparts := forall₂_of_mapM hos
    obtain ⟨hlt, hdigits⟩ := octets_of_parts hparts
    rw [toList_v4Text, octets_ofParts (hparts.length_eq ▸ hlen) hlt, hdigits, joinWith_splitAt]
  · contradiction

/-! ## IPv6 -/

/-- The characters that addresses are written with. -/
def isAddressChar (c : Char) : Bool := c == ':' || c == '.' || (hexValue? c).isSome

theorem isAddressChar_of_isDigit {c : Char} (h : isDigit c = true) : isAddressChar c = true := by
  simp [isAddressChar, hexValue?, h]

theorem isAddressChar_of_readGroup (h : readGroup cs = some n) :
    ∀ c ∈ cs, isAddressChar c = true := by
  intro c hc
  rw [readGroup] at h
  split at h
  · contradiction
  · cases hvalue : hexValue? c with
    | none => rw [ofHexDigits?_eq_none hvalue hc] at h; contradiction
    | some k => simp [isAddressChar, hvalue]

theorem isAddressChar_of_readOctets (h : readOctets cs = some os) :
    ∀ c ∈ cs, isAddressChar c = true := by
  intro c hc
  by_cases hdot : c = '.'
  · rw [hdot]
    rfl
  · cases hdigit : isDigit c with
    | true => exact isAddressChar_of_isDigit hdigit
    | false => rw [readOctets_eq_none hc hdot hdigit] at h; contradiction

/-- Every part is written with the characters of addresses, and the last one may count for two. -/
theorem readGroups_eq_some {dotted : Bool} {parts : List (List Char)}
    (h : readGroups dotted parts = some gs) :
    gs.length ≤ parts.length + 1 ∧ ∀ part ∈ parts, ∀ c ∈ part, isAddressChar c = true := by
  fun_induction readGroups dotted parts generalizing gs with
  | case1 =>
    obtain rfl := Option.some.inj h
    exact ⟨Nat.zero_le _, nofun⟩
  | case2 last g hg =>
    obtain rfl := Option.some.inj h
    refine ⟨Nat.le_succ _, fun part hpart => ?_⟩
    exact List.mem_singleton.mp hpart ▸ isAddressChar_of_readGroup hg
  | case3 last os hos hdotted hgroup =>
    obtain rfl := Option.some.inj h
    refine ⟨Nat.le_refl _, fun part hpart => ?_⟩
    exact List.mem_singleton.mp hpart ▸ isAddressChar_of_readOctets hos
  | case4 => contradiction
  | case5 part parts hne ih =>
    obtain ⟨g, hg, h⟩ := Option.bind_eq_some_iff.mp h
    obtain ⟨rest, hrest, h⟩ := Option.bind_eq_some_iff.mp h
    obtain rfl := Option.some.inj h
    obtain ⟨hlen, hparts⟩ := ih hrest
    refine ⟨Nat.succ_le_succ hlen, fun piece hpiece => ?_⟩
    rcases List.mem_cons.mp hpiece with rfl | hpiece
    · exact isAddressChar_of_readGroup hg
    · exact hparts piece hpiece

theorem isAddressChar_of_splitAt (h : ∀ part ∈ splitAt ':' cs, ∀ c ∈ part, isAddressChar c = true) :
    ∀ c ∈ cs, isAddressChar c = true := by
  intro c hc
  rw [← joinWith_splitAt ':' cs] at hc
  rcases mem_joinWith hc with rfl | ⟨part, hpart, hc⟩
  · rfl
  · exact h part hpart c hc

theorem isAddressChar_of_readSide {dotted : Bool} (h : readSide dotted cs = some gs) :
    ∀ c ∈ cs, isAddressChar c = true := by
  rw [readSide] at h
  split at h
  · next hempty =>
    intro c hc
    rw [List.isEmpty_iff.mp hempty] at hc
    exact absurd hc List.not_mem_nil
  · exact isAddressChar_of_splitAt (readGroups_eq_some h).2

/-- An IPv6 address is written with colons, at least two of them, and with digits and dots. -/
theorem readV6_eq_some (h : readV6 cs = some bits) :
    1 < cs.count ':' ∧ ∀ c ∈ cs, isAddressChar c = true := by
  rw [readV6] at h
  split at h
  · obtain ⟨gs, hread, h⟩ := Option.bind_eq_some_iff.mp h
    obtain ⟨_, hguard, -⟩ := Option.bind_eq_some_iff.mp h
    obtain ⟨hlen, hchars⟩ := readGroups_eq_some hread
    have hgroups : gs.length = 8 := by
      by_contra hne
      rw [guard, if_neg hne] at hguard
      contradiction
    rw [hgroups, length_splitAt] at hlen
    exact ⟨by omega, isAddressChar_of_splitAt hchars⟩
  · next left right hcut =>
    obtain ⟨ls, hls, h⟩ := Option.bind_eq_some_iff.mp h
    obtain ⟨rs, hrs, -⟩ := Option.bind_eq_some_iff.mp h
    obtain rfl := eq_append_of_cutAt hcut
    constructor
    · rw [List.count_append, List.count_append]
      exact Nat.lt_of_lt_of_le (Nat.lt_of_lt_of_le Nat.one_lt_two (Nat.le_add_left 2 _))
        (Nat.le_add_right _ _)
    · intro c hc
      rcases List.mem_append.mp hc with hc | hc
      · rcases List.mem_append.mp hc with hc | hc
        · exact isAddressChar_of_readSide hls c hc
        · obtain rfl : c = ':' := by simpa using hc
          rfl
      · exact isAddressChar_of_readSide hrs c hc

theorem readV6_of_read {s : String} (h : read s = some (.v6 bits)) :
    readV6 s.toList = some bits := by
  rw [read, readChars] at h
  split at h
  · cases h
  · obtain ⟨other, hread, heq⟩ := Option.map_eq_some_iff.mp h
    rw [hread, Address.v6.inj heq]

end Address
end Cordon
