import Cordon.Proofs.Address.History
import Cordon.Proofs.Address.Text
import Mathlib.Data.List.Forall2
/-!
The two spellings of an IPv4 address. They have one canonical form, which no other address shares;
so a book keeps them under one entry, and tells apart whatever is not the same address.
-/
namespace Cordon

namespace Address

/-- The second address is the first one, or the spelling of it in IPv6. -/
inductive Respells : Address → Address → Prop
  | same (a : Address) : Respells a a
  | mapped (short : BitVec 32) : Respells (.v4 short) (mapped short)

/-- The second text is the first one, or spells the IPv4 address that the first one spells in
IPv6. -/
inductive RespellsText : String → String → Prop
  | same (text : String) : RespellsText text text
  | mapped {text : String} {short : BitVec 32} : read text = some (.v4 short) →
    RespellsText text (mapped short).text

variable {a a' : Address} {bits : BitVec 128} {short : BitVec 32} {text text' : String}

theorem v6_eq_mapped (h : unmapped? bits = some short) : Address.v6 bits = mapped short := by
  rw [unmapped?] at h
  split at h
  · next hmark =>
    obtain rfl := Option.some.inj h
    have hparts : bits.extractLsb' 32 96 ++ bits.extractLsb' 0 32 = bits :=
      (BitVec.extractLsb'_append_extractLsb'_eq_extractLsb' rfl).trans BitVec.extractLsb'_eq_self
    rw [mapped, ← hmark, hparts]
  · contradiction

theorem Respells.canonical_eq (h : Respells a a') : a'.canonical = a.canonical := by
  cases h with
  | same => rfl
  | mapped short => rw [canonical_mapped, canonical_v4]

/-- The canonical form of an address is a spelling of it. -/
theorem respells_canonical (a : Address) : Respells a.canonical a := by
  cases a with
  | v4 short => exact .same _
  | v6 bits =>
    cases h : unmapped? bits with
    | none =>
      rw [canonical, h]
      exact .same _
    | some short =>
      rw [v6_eq_mapped h, canonical_mapped]
      exact .mapped short

/-- Two addresses have one canonical form only if one of them spells the other. -/
theorem canonical_eq_iff : a'.canonical = a.canonical ↔ Respells a a' ∨ Respells a' a := by
  constructor
  · intro h
    have ha := respells_canonical a
    have ha' := respells_canonical a'
    rw [h] at ha'
    generalize a.canonical = c at ha ha'
    cases ha with
    | same => exact .inl ha'
    | mapped short =>
      cases ha' with
      | same => exact .inr (.mapped short)
      | mapped => exact .inl (.same _)
  · rintro (h | h)
    · exact h.canonical_eq
    · exact h.canonical_eq.symm

theorem RespellsText.eq_or (h : RespellsText text text') :
    text' = text ∨ (read text).isSome = true ∧ (read text').isSome = true := by
  cases h with
  | same => exact .inl rfl
  | mapped h => exact .inr ⟨by rw [h]; rfl, by rw [read_text]; rfl⟩

end Address

namespace AddressBook

variable {b : AddressBook} {host : String} {a a' : Address} {addresses addresses' : List Address}

theorem isRecordable_of_read (h : (Address.read host).isSome = true) :
    isRecordable host = false := by
  rw [isRecordable, ← Option.not_isSome, h, Bool.not_true, Bool.and_false]

theorem remember_canonical (host : String) (b : AddressBook) (a : Address) :
    b.remember host a.canonical = b.remember host a := by
  rw [remember, remember, Address.canonical_canonical, hostnames_canonical]

/-- A book is the same however the addresses of a recording are spelled. -/
theorem foldl_remember_respelled (h : List.Forall₂ Address.Respells addresses addresses')
    (host : String) (b : AddressBook) :
    addresses'.foldl (remember host) b = addresses.foldl (remember host) b := by
  induction h generalizing b with
  | nil => rfl
  | cons ha _ ih =>
    rw [List.foldl_cons, List.foldl_cons, ← remember_canonical, ha.canonical_eq,
      remember_canonical, ih]

theorem record_respelled {host' : String} (hhost : Address.RespellsText host host')
    (h : List.Forall₂ Address.Respells addresses addresses') (b : AddressBook) :
    b.record host' addresses' = b.record host addresses := by
  rcases hhost.eq_or with rfl | ⟨hread, hread'⟩
  · rw [record, record, foldl_remember_respelled h]
  · rw [record, record, isRecordable_of_read hread, isRecordable_of_read hread',
      if_neg Bool.false_ne_true, if_neg Bool.false_ne_true]

theorem record_empty (h : isRecordable host = true) (a : Address) :
    ({} : AddressBook).record host [a] = ({} : AddressBook).remember host a := by
  have hroom : ¬ capacity ≤ ({} : AddressBook).size := by
    rw [size, Std.HashMap.size_empty]
    decide
  rw [record, if_pos h, makeRoom, if_neg hroom]
  rfl

/-- Books tell addresses apart that have different canonical forms, and no others. -/
theorem hostnames_eq_iff :
    (∀ b : AddressBook, b.hostnames a' = b.hostnames a) ↔ a'.canonical = a.canonical := by
  constructor
  · intro h
    have hbook := h (({} : AddressBook).remember "" a)
    rw [hostnames_remember, hostnames_remember, if_pos rfl] at hbook
    by_cases heq : a.canonical = a'.canonical
    · exact heq.symm
    · rw [if_neg heq] at hbook
      exact nomatch Std.HashMap.getD_empty.symm.trans hbook
  · exact fun h b => hostnames_of_canonical_eq h

end AddressBook
end Cordon
