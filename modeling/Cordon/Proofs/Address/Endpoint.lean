import Cordon.Proofs.Address.Literal
/-!
Which texts read as an address with a port. What follows the last colon has to be a port, and what
stands before it an IPv4 address, or an IPv6 address in brackets; so a text that names no port, or
one that is none, is not taken for an address with a port.
-/
namespace Cordon.Endpoint

open Text
open Address (readV4 readV6)

variable {bits : BitVec 128} {n : Nat} {cs host port v : List Char}

/-! ## Ports -/

/-- A decimal number that a port can have; zeros at its head are no harm. -/
def IsPort (cs : List Char) : Prop := Digits cs ∧ ofDigits cs < 65536

theorem isPort_toDigits (h : n < 65536) : IsPort (Nat.toDigits 10 n) :=
  ⟨digits_toDigits n, (ofDigits_toDigits n).symm ▸ h⟩

theorem IsPort.colon_not_mem (h : IsPort port) : ':' ∉ port := fun hmem =>
  absurd (h.1.2 ':' hmem) (by decide)

theorem IsPort.toNat_ofNat (h : IsPort port) :
    (UInt16.ofNat (ofDigits port)).toNat = ofDigits port := UInt16.toNat_ofNat_of_lt h.2

theorem readPort_of_isPort (h : IsPort port) :
    readPort port = some (UInt16.ofNat (ofDigits port)) := by
  have hdigits := guard_digits_iff.mpr h.1
  rw [readPort, readBelow, hdigits, if_neg Bool.false_ne_true, if_pos h.2, Option.map_some]

theorem readPort_of_not_isPort (h : ¬ IsPort port) : readPort port = none := by
  rw [readPort, readBelow]
  split
  · rfl
  · next hdigits =>
    rw [Bool.not_eq_true, guard_digits_iff] at hdigits
    rw [if_neg fun hlt => h ⟨hdigits, hlt⟩, Option.map_none]

/-! ## Addresses -/

theorem readV6_of_colon_not_mem (h : ':' ∉ cs) : readV6 cs = none := by
  refine Option.eq_none_iff_forall_ne_some.mpr fun bits hbits => ?_
  have hcount := (Address.readV6_eq_some hbits).1
  rw [List.count_eq_zero.mpr h] at hcount
  contradiction

theorem readScoped_of_colon_not_mem (h : ':' ∉ cs) : readScoped cs = none := by
  rw [readScoped]
  split
  · exact readV6_of_colon_not_mem h
  · next address scope hcut =>
    rw [eq_append_of_cutAt hcut] at h
    have haddress : ':' ∉ address := fun hmem =>
      h (List.mem_append_left _ (List.mem_append_left _ hmem))
    rw [readV6_of_colon_not_mem haddress]
    cases readBelow UInt32.size scope <;> rfl

theorem not_mem_of_readV6 (h : readV6 v = some bits) {c : Char}
    (hc : Address.isAddressChar c = false) : c ∉ v := fun hmem => by
  rw [(Address.readV6_eq_some h).2 c hmem] at hc
  contradiction

/-- An address on its own names no scope. -/
theorem readScoped_of_readV6 (h : readV6 v = some bits) : readScoped v = some bits := by
  rw [readScoped, cutAt_of_not_mem (not_mem_of_readV6 h (by decide)), h]

/-! ## Addresses with a port -/

theorem readChars_of_colon_not_mem (h : ':' ∉ cs) : readChars cs = none := by
  rw [readChars, cutLast_of_not_mem h]
  rfl

theorem readChars_of_not_isPort (hcolon : ':' ∉ port) (h : ¬ IsPort port) (host : List Char) :
    readChars (host ++ ':' :: port) = none := by
  rw [readChars, cutLast_append hcolon, Option.bind_eq_bind, Option.bind_some]
  dsimp only
  rw [readPort_of_not_isPort h]
  rfl

theorem readV4_of_bracket_mem (h : '[' ∈ host) : readV4 host = none := by
  rw [readV4, Address.readOctets_eq_none h (by decide) (by decide), Option.map_none]

/-- Without another colon, what stands before the port is an IPv4 address. -/
theorem readChars_of_isPort (h : IsPort port) (hhost : ':' ∉ host) :
    readChars (host ++ ':' :: port) =
      (readV4 host).map fun short => ⟨.v4 short, UInt16.ofNat (ofDigits port)⟩ := by
  rw [readChars, cutLast_append h.colon_not_mem, Option.bind_eq_bind, Option.bind_some]
  dsimp only
  rw [readPort_of_isPort h, Option.bind_eq_bind, Option.bind_some]
  split
  · next inner =>
    have hinner : ':' ∉ inner.dropLast := fun hmem =>
      hhost (List.mem_cons_of_mem _ (List.dropLast_subset _ hmem))
    rw [readScoped_of_colon_not_mem hinner, readV4_of_bracket_mem List.mem_cons_self]
    cases (guard (inner.getLast? = some ']') : Option Unit) <;> rfl
  · exact Option.map_eq_bind.symm

/-- An IPv6 address stands in brackets before the port. -/
theorem readChars_bracketed (h : IsPort port) (hv : readV6 v = some bits) :
    readChars ('[' :: (v ++ [']']) ++ ':' :: port) =
      some ⟨.v6 bits, UInt16.ofNat (ofDigits port)⟩ := by
  have hguard : (guard ((v ++ [']']).getLast? = some ']') : Option Unit) = some () :=
    if_pos List.getLast?_concat
  rw [readChars, cutLast_append h.colon_not_mem, Option.bind_eq_bind, Option.bind_some]
  dsimp only
  rw [readPort_of_isPort h, Option.bind_eq_bind, Option.bind_some]
  change (guard ((v ++ [']']).getLast? = some ']') >>= fun _ => readScoped (v ++ [']']).dropLast >>=
    fun bits => some (⟨.v6 bits, UInt16.ofNat (ofDigits port)⟩ : Endpoint)) = _
  rw [hguard, List.dropLast_concat, readScoped_of_readV6 hv]
  rfl

/-- With another colon, what stands before the port begins with a bracket. -/
theorem readChars_of_colon_mem (hcolon : ':' ∉ port) (hhost : ':' ∈ host)
    (hbracket : '[' ∉ host) : readChars (host ++ ':' :: port) = none := by
  rw [readChars, cutLast_append hcolon, Option.bind_eq_bind, Option.bind_some]
  dsimp only
  cases readPort port with
  | none => rfl
  | some port =>
    rw [Option.bind_eq_bind, Option.bind_some]
    split
    · exact absurd List.mem_cons_self hbracket
    · rw [Address.readV4_of_colon hhost]
      rfl

end Cordon.Endpoint
