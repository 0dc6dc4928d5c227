import Cordon.Proofs.Address.Book
import Cordon.Proofs.Text.Distinct
/-!
The book after any history of recordings. What it holds for an address is what was recorded for it
since the book was last emptied: the latest eight hosts, each once and in its newest spelling. That
is so though a recording sees no more than the eight names that are kept, because a name that was
pushed out could only have gone further back.
-/
namespace Cordon

open Text

/-- A call that records which addresses a host was resolved to. -/
structure Recording where
  host : String
  addresses : List Address

namespace AddressBook

variable {b : AddressBook} {host name : String} {hosts : List String} {addresses : List Address}
  {a : Address} {r : Recording} {history : List Recording}

/-- The book after a history of recordings, of which the newest comes first. -/
def ofHistory (history : List Recording) : AddressBook :=
  history.foldr (fun r b => b.record r.host r.addresses) {}

/-- Whether a recording empties the book that it meets. -/
def empties (r : Recording) (b : AddressBook) : Bool := isRecordable r.host && capacity ≤ b.size

/-- The recordings from the last one on that emptied the book, that one included. -/
def sinceEmptied : List Recording → List Recording
  | [] => []
  | r :: earlier => if empties r (ofHistory earlier) then [r] else r :: sinceEmptied earlier

/-! ## Names -/

/-- Whether a recording is kept for an address, whichever spelling of it was found. -/
def isFor (a : Address) (r : Recording) : Bool :=
  isRecordable r.host && r.addresses.any (·.canonical = a.canonical)

/-- The hosts that were recorded for an address since the book was last emptied. -/
def hostsSince (history : List Recording) (a : Address) : List String :=
  ((sinceEmptied history).filter (isFor a)).map (·.host)

/-- The first names of a list, each once. -/
def latest (hosts : List String) : List String :=
  (hosts.eraseDupsBy eqIgnoreAsciiCase).take namesPerAddress

/-- Where a filter drops at most one element, a piece that is one longer has enough to filter. -/
theorem take_filter_take {α : Type} {keep : α → Bool} {l : List α}
    (h : l.Pairwise fun x y => keep x = true ∨ keep y = true) (n : Nat) :
    ((l.take (n + 1)).filter keep).take n = (l.filter keep).take n := by
  induction l generalizing n with
  | nil => rfl
  | cons x l ih =>
    obtain ⟨hx, hl⟩ := List.pairwise_cons.mp h
    rw [List.take_succ_cons]
    by_cases hkeep : keep x = true
    · rw [List.filter_cons_of_pos hkeep, List.filter_cons_of_pos hkeep]
      cases n with
      | zero => rfl
      | succ n => rw [List.take_succ_cons, List.take_succ_cons, ih hl]
    · have hall : ∀ y ∈ l, keep y = true := fun y hy => (hx y hy).resolve_left hkeep
      rw [List.filter_cons_of_neg hkeep, List.filter_cons_of_neg hkeep,
        List.filter_eq_self.mpr hall,
        List.filter_eq_self.mpr fun y hy => hall y (List.mem_of_mem_take hy), List.take_take,
        Nat.min_self]

/-- A name that is promoted again is found in its place. -/
theorem promote_promote (host : String) (names : List String) :
    promote host (promote host names) = promote host names := by
  rw [promote_eq_cons host names, promote_eq_cons, List.filter_cons_of_neg, List.filter_eq_self.mpr,
    List.take_take, Nat.min_self]
  · exact fun name hname => (List.mem_filter.mp (List.mem_of_mem_take hname)).2
  · rw [eqIgnoreAsciiCase_iff.mpr rfl, Bool.not_true]
    exact Bool.false_ne_true

/-- A name that is promoted has no use for the names that were pushed out before. -/
theorem promote_latest (host : String) (hosts : List String) :
    promote host (latest hosts) = latest (host :: hosts) := by
  have hkey (x y : String) : eqIgnoreAsciiCase x y = true ↔ asciiKey x = asciiKey y :=
    eqIgnoreAsciiCase_iff
  rw [promote_eq_cons, latest, latest, eraseDupsBy_cons hkey]
  refine congrArg _ (take_filter_take ((pairwise_eraseDupsBy hkey hosts).imp fun {x y} hxy => ?_)
    (namesPerAddress - 1))
  -- Of two distinct names only one can be a spelling of the promoted one.
  cases hx : eqIgnoreAsciiCase x host with
  | false => exact .inl rfl
  | true =>
    cases hy : eqIgnoreAsciiCase y host with
    | false => exact .inr rfl
    | true =>
      rw [Bool.eq_false_iff, ne_eq, hkey, (hkey x host).mp hx, (hkey y host).mp hy] at hxy
      exact absurd rfl hxy

theorem hostnames_of_canonical_eq {x : Address} (h : x.canonical = a.canonical) :
    b.hostnames x = b.hostnames a := by
  rw [hostnames, hostnames, h]

/-- An address that is found more than once is kept no other way than one that is found once. -/
theorem hostnames_foldl_remember (host : String) (addresses : List Address) (b : AddressBook)
    (a : Address) : (addresses.foldl (remember host) b).hostnames a =
      if addresses.any (·.canonical = a.canonical) then promote host (b.hostnames a)
      else b.hostnames a := by
  induction addresses generalizing b with
  | nil => rfl
  | cons x addresses ih =>
    rw [List.foldl_cons, ih, hostnames_remember, List.any_cons]
    by_cases hx : x.canonical = a.canonical
    · rw [if_pos hx, hostnames_of_canonical_eq hx, promote_promote, ite_self, decide_eq_true hx,
        Bool.true_or, if_pos rfl]
    · rw [if_neg hx, decide_eq_false hx, Bool.false_or]

theorem ofHistory_cons (r : Recording) (earlier : List Recording) :
    ofHistory (r :: earlier) = (ofHistory earlier).record r.host r.addresses :=
  rfl

/-- A recording that is kept begins with an empty book where it meets a full one. -/
theorem record_of_isRecordable (h : isRecordable r.host = true) (b : AddressBook) :
    b.record r.host r.addresses =
      r.addresses.foldl (remember r.host) (if empties r b then {} else b) := by
  rw [record, if_pos h, makeRoom, empties, h, Bool.true_and]
  simp only [decide_eq_true_eq]

theorem record_of_not_isRecordable (h : isRecordable r.host = false) (b : AddressBook) :
    b.record r.host r.addresses = b := by
  rw [record, h, if_neg Bool.false_ne_true]

theorem hostsSince_cons (r : Recording) (earlier : List Recording) (a : Address) :
    hostsSince (r :: earlier) a = (if isFor a r then [r.host] else []) ++
      if empties r (ofHistory earlier) then [] else hostsSince earlier a := by
  have hhead (rest : List Recording) : ((r :: rest).filter (isFor a)).map (·.host) =
      (if isFor a r then [r.host] else []) ++ (rest.filter (isFor a)).map (·.host) := by
    rw [List.filter_cons]
    split
    · rfl
    · rfl
  rw [hostsSince, sinceEmptied]
  split
  · exact hhead []
  · exact hhead (sinceEmptied earlier)

theorem hostnames_eq_latest (history : List Recording) (a : Address) :
    (ofHistory history).hostnames a = latest (hostsSince history a) := by
  induction history with
  | nil => exact Std.HashMap.getD_empty
  | cons r earlier ih =>
    rw [ofHistory_cons, hostsSince_cons]
    cases hr : isRecordable r.host with
    | false =>
      rw [record_of_not_isRecordable hr, ih, isFor, empties, hr]
      rfl
    | true =>
      have hkept : (if empties r (ofHistory earlier) then {} else ofHistory earlier).hostnames a =
          latest (if empties r (ofHistory earlier) then [] else hostsSince earlier a) := by
        split
        · exact Std.HashMap.getD_empty
        · exact ih
      rw [record_of_isRecordable hr, hostnames_foldl_remember, hkept, promote_latest, isFor, hr,
        Bool.true_and]
      split
      · rfl
      · rfl

/-- Hosts that are not worth recording leave no trace. -/
theorem isRecordable_of_mem_hostsSince (h : name ∈ hostsSince history a) :
    isRecordable name = true := by
  obtain ⟨r, hr, rfl⟩ := List.mem_map.mp h
  have hfor := (List.mem_filter.mp hr).2
  rw [isFor, Bool.and_eq_true] at hfor
  exact hfor.1

/-- The names of an address are the hosts that were recorded for it since the book was last emptied,
the newest first and at most eight of them, each once and in its newest spelling. Whatever is
recorded, none of them is empty or an address, and no two are spellings of one name. -/
theorem hostnames_ofHistory (history : List Recording) (a : Address) :
    let names := (ofHistory history).hostnames a
    names = ((hostsSince history a).eraseDupsBy eqIgnoreAsciiCase).take 8 ∧
    names.head? = (hostsSince history a).head? ∧
    names.length ≤ 8 ∧
    names.Pairwise (fun x y => eqIgnoreAsciiCase x y = false) ∧
    ∀ name ∈ names, name ≠ "" ∧ Address.read name = none := by
  intro names
  have hkey (x y : String) : eqIgnoreAsciiCase x y = true ↔ asciiKey x = asciiKey y :=
    eqIgnoreAsciiCase_iff
  have hnames : names = latest (hostsSince history a) := hostnames_eq_latest history a
  refine ⟨hnames, ?_, hnames ▸ List.length_take_le .., ?_, fun name hname => ?_⟩
  · rw [hnames, latest]
    cases hostsSince history a with
    | nil => rfl
    | cons host hosts =>
      rw [eraseDupsBy_cons hkey]
      rfl
  · rw [hnames]
    exact (pairwise_eraseDupsBy hkey _).sublist (List.take_sublist ..)
  · rw [hnames] at hname
    have h := isRecordable_of_mem_hostsSince
      (mem_of_mem_eraseDupsBy hkey (List.mem_of_mem_take hname))
    simpa [isRecordable] using h

end AddressBook
end Cordon
