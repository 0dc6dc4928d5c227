import Mathlib.Algebra.Group.Nat.Defs
import Mathlib.Data.List.Induction
import Cordon.Hook.Preload
/-!
Socket addresses, by what they hold. A complete one of either family of the internet protocol holds
one endpoint, whatever stands in the parts of it that nobody reads; all others hold none. A look-up
finds the addresses that its results hold, in their order.
-/
namespace Cordon.Preload

/-! ## Numbers in bytes -/

variable {bytes : List UInt8} {count n : Nat}

theorem bigEndian_concat (bytes : List UInt8) (b : UInt8) :
    bigEndian (bytes ++ [b]) = bigEndian bytes * 256 + b.toNat := by
  rw [bigEndian, List.map_append, Address.ofParts, List.foldl_append]
  rfl

theorem bigEndian_lt (bytes : List UInt8) : bigEndian bytes < 256 ^ bytes.length := by
  induction bytes using List.reverseRecOn with
  | nil => exact Nat.one_pos
  | append_singleton bytes b ih =>
    have hb := b.toNat_lt
    rw [bigEndian_concat, List.length_append, List.length_singleton, Nat.pow_succ]
    omega

@[simp] theorem length_bigEndianBytes (count n : Nat) :
    (bigEndianBytes count n).length = count := by
  induction count generalizing n with
  | zero => rfl
  | succ count ih => rw [bigEndianBytes, List.length_append, ih, List.length_singleton]

theorem bigEndian_bigEndianBytes (h : n < 256 ^ count) :
    bigEndian (bigEndianBytes count n) = n := by
  induction count generalizing n with
  | zero => exact (Nat.lt_one_iff.mp h).symm
  | succ count ih =>
    rw [Nat.pow_succ] at h
    have hn : (UInt8.ofNat n).toNat = n % 256 := UInt8.toNat_ofNat'
    rw [bigEndianBytes, bigEndian_concat, ih (Nat.div_lt_of_lt_mul (by omega)), hn,
      Nat.div_add_mod']

theorem bigEndianBytes_bigEndian (bytes : List UInt8) :
    bigEndianBytes bytes.length (bigEndian bytes) = bytes := by
  induction bytes using List.reverseRecOn with
  | nil => rfl
  | append_singleton bytes b ih =>
    have hb := b.toNat_lt
    have hdiv : (bigEndian bytes * 256 + b.toNat) / 256 = bigEndian bytes := by omega
    have hmod : UInt8.ofNat (bigEndian bytes * 256 + b.toNat) = b := by
      apply UInt8.toNat_inj.mp
      rw [UInt8.toNat_ofNat']
      omega
    rw [List.length_append, List.length_singleton, bigEndian_concat, bigEndianBytes, hdiv, ih, hmod]

/-- The bytes of a number are the ones that make it up. -/
theorem bigEndian_eq_iff (h : n < 256 ^ count) (hlen : bytes.length = count) :
    bigEndian bytes = n ↔ bytes = bigEndianBytes count n := by
  constructor
  · rintro rfl
    rw [← hlen, bigEndianBytes_bigEndian]
  · rintro rfl
    exact bigEndian_bigEndianBytes h

/-! ## Endpoints -/

namespace SocketAddress

/-- A socket address holds an endpoint: its family is first, least significant byte first, then the
port and the address, most significant byte first, with the flow label between them in the longer
family. The whole of it, 16 bytes or 28, is there and is said to be there. -/
inductive Holds : SocketAddress → Endpoint → Prop
  | v4 {bits : BitVec 32} {port : UInt16} {rest : List UInt8} {length : Nat} :
    8 ≤ rest.length → 16 ≤ length →
    Holds ⟨some ([2, 0] ++ (bigEndianBytes 2 port.toNat ++
      (bigEndianBytes 4 bits.toNat ++ rest))), length⟩ ⟨.v4 bits, port⟩
  | v6 {bits : BitVec 128} {port : UInt16} {flow rest : List UInt8} {length : Nat} :
    flow.length = 4 → 4 ≤ rest.length → 28 ≤ length →
    Holds ⟨some ([10, 0] ++ (bigEndianBytes 2 port.toNat ++
      (flow ++ (bigEndianBytes 16 bits.toNat ++ rest)))), length⟩ ⟨.v6 bits, port⟩

variable {a : SocketAddress} {e : Endpoint}

/-- What is read of the bytes behind a family and a port. -/
theorem readSocketAddress_append {family port : List UInt8} (hfamily : family.length = 2)
    (hport : port.length = 2) (rest : List UInt8) (length : Nat) :
    readSocketAddress (family ++ (port ++ rest)) length =
      if bigEndian family.reverse = 2 ∧ 16 ≤ length then
        some ⟨.v4 (.ofNat 32 (bigEndian (rest.take 4))), .ofNat (bigEndian port)⟩
      else if bigEndian family.reverse = 10 ∧ 28 ≤ length then
        some ⟨.v6 (.ofNat 128 (bigEndian ((rest.drop 4).take 16))), .ofNat (bigEndian port)⟩
      else none := by
  have hdrop (k : Nat) : (family ++ (port ++ rest)).drop (k + 4) = rest.drop k := by
    rw [Nat.add_comm, ← List.drop_drop, ← List.append_assoc, List.drop_left']
    rw [List.length_append, hfamily, hport]
  rw [readSocketAddress, List.take_left' hfamily, List.drop_left' hfamily, List.take_left' hport,
    hdrop 4, hdrop 0, List.drop_zero]

theorem bigEndianBytes_port {port : List UInt8} (h : port.length = 2) :
    bigEndianBytes 2 (UInt16.ofNat (bigEndian port)).toNat = port := by
  have hlt := bigEndian_lt port
  rw [h] at hlt
  rw [UInt16.toNat_ofNat_of_lt' hlt, ← h, bigEndianBytes_bigEndian]

theorem bigEndianBytes_bits {width : Nat} (h : bytes.length = count) (hwidth : 256 ^ count = 2 ^ width) :
    bigEndianBytes count (BitVec.ofNat width (bigEndian bytes)).toNat = bytes := by
  have hlt := bigEndian_lt bytes
  rw [h, hwidth] at hlt
  rw [BitVec.toNat_ofNat, Nat.mod_eq_of_lt hlt, ← h, bigEndianBytes_bigEndian]

theorem exists_append_of_le (h : count ≤ bytes.length) :
    ∃ front rest, front.length = count ∧ bytes = front ++ rest :=
  ⟨bytes.take count, bytes.drop count, List.length_take_of_le h, (List.take_append_drop ..).symm⟩

theorem family_eq {family : List UInt8} (hlen : family.length = 2) (hn : n < 256 ^ 2)
    (h : bigEndian family.reverse = n) : family = (bigEndianBytes 2 n).reverse :=
  List.reverse_eq_iff.mp ((bigEndian_eq_iff hn (List.length_reverse.trans hlen)).mp h)

/-- What is read of bytes is held by them, however much is said to be there. -/
theorem holds_of_readSocketAddress {length : Nat}
    (h : readSocketAddress bytes (min length bytes.length) = some e) :
    Holds ⟨some bytes, length⟩ e := by
  have hcomplete : 16 ≤ length ∧ 16 ≤ bytes.length := by
    rw [readSocketAddress] at h
    split at h
    · omega
    · split at h
      · omega
      · contradiction
  obtain ⟨family, rest, hfamily, rfl⟩ := exists_append_of_le (show 2 ≤ bytes.length by omega)
  rw [List.length_append] at hcomplete
  obtain ⟨port, rest, hport, rfl⟩ := exists_append_of_le (show 2 ≤ rest.length by omega)
  rw [List.length_append] at hcomplete
  rw [readSocketAddress_append hfamily hport, List.length_append, List.length_append] at h
  split at h
  · next hv4 =>
    obtain ⟨bits, rest, hbits, rfl⟩ := exists_append_of_le (show 4 ≤ rest.length by omega)
    obtain rfl := family_eq hfamily (by decide) hv4.1
    rw [List.length_append] at hv4
    rw [List.take_left' hbits] at h
    obtain rfl := Option.some.inj h
    have holds := @Holds.v4 (.ofNat 32 (bigEndian bits)) (.ofNat (bigEndian port)) rest length
      (by omega) (by omega)
    rwa [bigEndianBytes_port hport, bigEndianBytes_bits hbits rfl] at holds
  · split at h
    · next hv6 =>
      obtain ⟨flow, rest, hflow, rfl⟩ := exists_append_of_le (show 4 ≤ rest.length by omega)
      rw [List.length_append] at hv6
      obtain ⟨bits, rest, hbits, rfl⟩ := exists_append_of_le (show 16 ≤ rest.length by omega)
      obtain rfl := family_eq hfamily (by decide) hv6.1
      rw [List.length_append] at hv6
      rw [List.drop_left' hflow, List.take_left' hbits] at h
      obtain rfl := Option.some.inj h
      have holds := @Holds.v6 (.ofNat 128 (bigEndian bits)) (.ofNat (bigEndian port)) flow rest
        length hflow (by omega) (by omega)
      rwa [bigEndianBytes_port hport, bigEndianBytes_bits hbits rfl] at holds
    · contradiction

/-- A socket address reads as the endpoint that it holds, and as none if it holds none. -/
theorem read?_eq_some_iff : a.read? = some e ↔ a.Holds e := by
  constructor
  · intro h
    obtain ⟨bytes, hbytes, h⟩ := Option.bind_eq_some_iff.mp h
    obtain ⟨_, length⟩ := a
    obtain rfl := hbytes
    exact holds_of_readSocketAddress h
  · intro h
    cases h with
    | @v4 bits port rest length hrest hlength =>
      rw [read?, Option.bind_some, readSocketAddress_append rfl (length_bigEndianBytes ..),
        if_pos ⟨rfl, by simp; omega⟩, List.take_left' (length_bigEndianBytes ..),
        bigEndian_bigEndianBytes bits.isLt, bigEndian_bigEndianBytes port.toNat_lt,
        UInt16.ofNat_toNat, BitVec.ofNat_toNat, BitVec.setWidth_eq]
    | @v6 bits port flow rest length hflow hrest hlength =>
      rw [read?, Option.bind_some, readSocketAddress_append rfl (length_bigEndianBytes ..),
        if_neg (by simp [bigEndian, Address.ofParts]), if_pos ⟨rfl, by simp; omega⟩,
        List.drop_left' hflow, List.take_left' (length_bigEndianBytes ..),
        bigEndian_bigEndianBytes bits.isLt, bigEndian_bigEndianBytes port.toNat_lt,
        UInt16.ofNat_toNat, BitVec.ofNat_toNat, BitVec.setWidth_eq]

example : (SocketAddress.mk
    (some [2, 0, 1, 187, 93, 184, 216, 34, 0, 0, 0, 0, 0, 0, 0, 0]) 16).read? =
      some ⟨.v4 0x5DB8D822#32, 443⟩ := by decide

theorem read?_eq_none_iff : a.read? = none ↔ ∀ e, ¬ a.Holds e := by
  simp only [Option.eq_none_iff_forall_ne_some, ne_eq, read?_eq_some_iff]

theorem holds_ofEndpoint (e : Endpoint) : (ofEndpoint e).Holds e := by
  obtain ⟨bits | bits, port⟩ := e
  · exact .v4 (Nat.le_refl 8) (Nat.le_refl 16)
  · exact .v6 rfl (Nat.le_refl 4) (Nat.le_refl 28)

end SocketAddress

/-! ## What a look-up finds -/

/-- The addresses that a list of socket addresses holds, in order; those that hold none are passed
over. -/
inductive Finds : List SocketAddress → List Address → Prop
  | nil : Finds [] []
  | held {a : SocketAddress} {e : Endpoint} : a.Holds e → Finds results found →
    Finds (a :: results) (e.address :: found)
  | other {a : SocketAddress} : (∀ e, ¬ a.Holds e) → Finds results found →
    Finds (a :: results) found

theorem finds_iff {answer : LookupAnswer} {found : List Address} :
    Finds answer.results found ↔ answer.addresses = found := by
  obtain ⟨status, results⟩ := answer
  rw [LookupAnswer.addresses]
  dsimp only
  constructor
  · intro h
    induction h with
    | nil => rfl
    | held ha _ ih =>
      rw [List.filterMap_cons, SocketAddress.read?_eq_some_iff.mpr ha, ← ih]
      rfl
    | other ha _ ih =>
      rw [List.filterMap_cons, SocketAddress.read?_eq_none_iff.mpr ha, ← ih]
      rfl
  · rintro rfl
    induction results with
    | nil => exact .nil
    | cons a results ih =>
      rw [List.filterMap_cons]
      cases ha : a.read? with
      | none => exact .other (SocketAddress.read?_eq_none_iff.mp ha) ih
      | some e => exact .held (SocketAddress.read?_eq_some_iff.mp ha) ih

end Cordon.Preload
