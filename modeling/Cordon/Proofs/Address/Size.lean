import Cordon.Proofs.Address.History
import Mathlib.Data.Finset.Card
import Mathlib.Data.Finset.Dedup
/-!
How many addresses the book holds after any history of recordings: as many as were found since it
was last emptied. A recording makes room before it begins and not again, so that one that finds
several addresses at once can leave more of them in the book than its capacity.
-/
namespace Cordon.AddressBook

variable {b : AddressBook} {host : String} {a : Address} {r : Recording}
  {history : List Recording} {s : Finset Address}

/-- The addresses that a recording is kept for. -/
def found (r : Recording) : Finset Address :=
  if isRecordable r.host then (r.addresses.map Address.canonical).toFinset else ∅

/-- The addresses that were found since the book was last emptied. -/
def foundSince (history : List Recording) : Finset Address :=
  (sinceEmptied history).foldr (fun r s => found r ∪ s) ∅

/-- The addresses of a book. -/
structure Knows (b : AddressBook) (s : Finset Address) : Prop where
  mem_iff : ∀ a, a ∈ b.entries ↔ a ∈ s
  size_eq : b.size = s.card

namespace Knows

theorem empty : Knows {} ∅ where
  mem_iff a := iff_of_false Std.HashMap.not_mem_empty (Finset.notMem_empty a)
  size_eq := Std.HashMap.size_empty

theorem remember (h : Knows b s) (host : String) (a : Address) :
    Knows (b.remember host a) (insert a.canonical s) where
  mem_iff x := by
    rw [AddressBook.remember, Std.HashMap.mem_insert, Finset.mem_insert, h.mem_iff, beq_iff_eq,
      eq_comm]
  size_eq := by
    rw [size, AddressBook.remember, Std.HashMap.size_insert]
    by_cases ha : a.canonical ∈ s
    · rw [if_pos ((h.mem_iff _).mpr ha), Finset.insert_eq_of_mem ha]
      exact h.size_eq
    · rw [if_neg (mt (h.mem_iff _).mp ha), Finset.card_insert_of_notMem ha]
      exact congrArg (· + 1) h.size_eq

theorem foldl (h : Knows b s) (host : String) (addresses : List Address) :
    Knows (addresses.foldl (AddressBook.remember host) b)
      ((addresses.map Address.canonical).toFinset ∪ s) := by
  induction addresses generalizing b s with
  | nil => simpa using h
  | cons a addresses ih =>
    have := ih (h.remember host a)
    rwa [Finset.union_insert, ← Finset.insert_union, ← List.toFinset_cons] at this

theorem record (h : Knows b s) (r : Recording) : Knows (b.record r.host r.addresses)
    (found r ∪ if empties r b then ∅ else s) := by
  rw [found]
  cases hr : isRecordable r.host with
  | false =>
    rw [record_of_not_isRecordable hr, empties, hr]
    simpa using h
  | true =>
    rw [record_of_isRecordable hr, if_pos rfl]
    split
    · exact empty.foldl ..
    · exact h.foldl ..

theorem record_of_room (h : Knows b s) (hr : isRecordable host = true) (hroom : b.size < capacity)
    (addresses : List Address) : Knows (b.record host addresses)
      ((addresses.map Address.canonical).toFinset ∪ s) := by
  rw [AddressBook.record, if_pos hr, makeRoom, if_neg (Nat.not_le.mpr hroom)]
  exact h.foldl host addresses

end Knows

theorem foundSince_cons (r : Recording) (earlier : List Recording) :
    foundSince (r :: earlier) =
      found r ∪ if empties r (ofHistory earlier) then ∅ else foundSince earlier := by
  rw [foundSince, sinceEmptied]
  split
  · rfl
  · rfl

theorem knows_ofHistory (history : List Recording) :
    Knows (ofHistory history) (foundSince history) := by
  induction history with
  | nil => exact .empty
  | cons r earlier ih =>
    rw [foundSince_cons]
    exact ih.record r

/-- A recording adds to a book that has room for one address at least. -/
theorem card_kept_lt (hr : isRecordable r.host = true) (h : Knows b s) :
    (if empties r b then ∅ else s).card < capacity := by
  rw [empties, hr, Bool.true_and]
  split
  · decide
  · next hsize =>
    rw [← h.size_eq]
    simpa using hsize

/-- A book is as large as the set of addresses that were found since it was last emptied. Where no
recording finds more than `n` addresses, it is larger than its capacity by less than `n`; so the
capacity is kept to if each recording finds one address only. -/
theorem size_ofHistory {n : Nat} (h : ∀ r ∈ history, (found r).card ≤ n) :
    (ofHistory history).size = (foundSince history).card ∧
      (ofHistory history).size < capacity + n := by
  refine ⟨(knows_ofHistory history).size_eq, ?_⟩
  induction history with
  | nil => exact Nat.add_pos_left (by decide) n
  | cons r earlier ih =>
    cases hr : isRecordable r.host with
    | false =>
      rw [ofHistory_cons, record_of_not_isRecordable hr]
      exact ih fun r hmem => h r (List.mem_cons_of_mem _ hmem)
    | true =>
      rw [(knows_ofHistory _).size_eq, foundSince_cons]
      have hfound := h r List.mem_cons_self
      have hkept := card_kept_lt hr (knows_ofHistory earlier)
      have hunion := Finset.card_union_le (found r)
        (if empties r (ofHistory earlier) then ∅ else foundSince earlier)
      omega

/-! ### A book that is larger than its capacity -/

/-- The addresses from 10.0.0.0 on. -/
def nth (i : Nat) : Address := .v4 (BitVec.ofNat 32 (0x0A000000 + i))

/-- As many recordings as `n`, each of the next address. -/
def singles : Nat → List Recording
  | 0 => []
  | n + 1 => ⟨"db.test", [nth n]⟩ :: singles n

/-- A recording of two addresses meets a book that has room for one. -/
def overfull : List Recording := ⟨"db.test", [nth 16384, nth 16383]⟩ :: singles 16383

theorem isRecordable_name : isRecordable "db.test" = true := by decide

theorem canonical_nth (i : Nat) : (nth i).canonical = nth i := rfl

theorem card_image_nth {n : Nat} (h : n ≤ 0x1000000) : ((Finset.range n).image nth).card = n := by
  rw [Finset.card_image_of_injOn, Finset.card_range]
  intro i hi j hj hij
  have hi := Finset.mem_range.mp hi
  have hj := Finset.mem_range.mp hj
  have heq := congrArg BitVec.toNat (Address.v4.inj hij)
  rw [BitVec.toNat_ofNat, BitVec.toNat_ofNat] at heq
  omega

theorem knows_singles {n : Nat} (h : n ≤ capacity) :
    Knows (ofHistory (singles n)) ((Finset.range n).image nth) := by
  induction n with
  | zero => exact .empty
  | succ n ih =>
    have ih := ih (Nat.le_of_succ_le h)
    have hroom : (ofHistory (singles n)).size < capacity := by
      rw [ih.size_eq]
      exact Nat.lt_of_le_of_lt Finset.card_image_le (by rwa [Finset.card_range])
    have hrecord := ih.record_of_room isRecordable_name hroom [nth n]
    rw [List.map_singleton, canonical_nth, List.toFinset_cons, List.toFinset_nil,
      Finset.insert_union, Finset.empty_union, ← Finset.image_insert,
      ← Finset.range_add_one] at hrecord
    rw [singles, ofHistory_cons]
    exact hrecord

theorem size_overfull : (ofHistory overfull).size = 16385 := by
  have hsingles := knows_singles (n := 16383) (by decide)
  have hroom : (ofHistory (singles 16383)).size < capacity := by
    rw [hsingles.size_eq, card_image_nth (by decide)]
    decide
  have hrecord := hsingles.record_of_room isRecordable_name hroom [nth 16384, nth 16383]
  rw [List.map_cons, List.map_singleton, canonical_nth, canonical_nth, List.toFinset_cons,
    List.toFinset_cons, List.toFinset_nil, Finset.insert_union, Finset.insert_union,
    Finset.empty_union, ← Finset.image_insert, ← Finset.range_add_one, ← Finset.image_insert,
    ← Finset.range_add_one] at hrecord
  rw [overfull, ofHistory_cons, hrecord.size_eq, card_image_nth (by decide)]

theorem card_found_le (r : Recording) : (found r).card ≤ r.addresses.length := by
  rw [found]
  split
  · exact (List.toFinset_card_le _).trans_eq (List.length_map ..)
  · exact Nat.zero_le _

theorem length_addresses_of_mem_singles {n : Nat} (h : r ∈ singles n) :
    r.addresses.length = 1 := by
  induction n with
  | zero => contradiction
  | succ n ih =>
    rcases List.mem_cons.mp h with rfl | h
    · rfl
    · exact ih h

theorem size_ofHistory_overfull : (∀ r ∈ overfull, (found r).card ≤ 2) ∧
    (ofHistory overfull).size = 16385 ∧ (ofHistory overfull).size < capacity + 2 := by
  have h : ∀ r ∈ overfull, (found r).card ≤ 2 := fun r hr => by
    refine (card_found_le r).trans ?_
    rcases List.mem_cons.mp hr with rfl | hr
    · exact le_refl 2
    · exact (length_addresses_of_mem_singles hr).trans_le (by decide)
  exact ⟨h, size_overfull, (size_ofHistory h).2⟩

/-- A single recording can take a book beyond its capacity. -/
theorem size_not_le_capacity : ¬ ∀ history, (ofHistory history).size ≤ capacity := by
  intro h
  have hsize := h overfull
  rw [size_overfull] at hsize
  exact absurd hsize (by decide)

end Cordon.AddressBook
