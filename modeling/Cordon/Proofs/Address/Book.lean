import Cordon.AddressBook
/-!
What a recording leaves in the book for the addresses that it was made for: the name stands first in
its new spelling, and no other spelling of it stands behind. Neither the emptying of a full book nor
the names that an address had before make a difference to that.
-/
namespace Cordon.AddressBook

open Text

variable {b : AddressBook} {host name : String} {names : List String} {addresses : List Address}
  {a : Address}

theorem promote_eq_cons (host : String) (names : List String) : promote host names =
    host :: (names.filter fun name => !eqIgnoreAsciiCase name host).take (namesPerAddress - 1) :=
  List.take_succ_cons

theorem mem_promote (h : name ∈ promote host names) :
    name = host ∨ eqIgnoreAsciiCase name host = false := by
  rw [promote_eq_cons] at h
  rcases List.mem_cons.mp h with h | h
  · exact .inl h
  · have h := (List.mem_filter.mp (List.mem_of_mem_take h)).2
    exact .inr (by simpa using h)

/-- The name stands first for an address. -/
def Promoted (b : AddressBook) (host : String) (a : Address) : Prop :=
  ∃ names, b.hostnames a = promote host names

theorem Promoted.remember (h : b.Promoted host a) (x : Address) :
    (b.remember host x).Promoted host a := by
  rw [Promoted, hostnames_remember]
  split
  · exact ⟨_, rfl⟩
  · exact h

theorem promoted_remember (b : AddressBook) (host : String) (a : Address) :
    (b.remember host a).Promoted host a := by
  rw [Promoted, hostnames_remember, if_pos rfl]
  exact ⟨_, rfl⟩

theorem Promoted.foldl (h : b.Promoted host a) (addresses : List Address) :
    (addresses.foldl (AddressBook.remember host) b).Promoted host a := by
  induction addresses generalizing b with
  | nil => exact h
  | cons x addresses ih => exact ih (h.remember x)

theorem promoted_foldl (h : a ∈ addresses) (b : AddressBook) :
    (addresses.foldl (AddressBook.remember host) b).Promoted host a := by
  induction addresses generalizing b with
  | nil => contradiction
  | cons x addresses ih =>
    rcases List.mem_cons.mp h with rfl | h
    · exact (promoted_remember b host a).foldl addresses
    · exact ih h _

/-- A recording survives for every address that it was made for. -/
theorem promoted_record (hhost : host ≠ "") (hliteral : Address.read host = none)
    (h : a ∈ addresses) (b : AddressBook) : (b.record host addresses).Promoted host a := by
  rw [record, if_pos (by simp [isRecordable, hhost, hliteral])]
  exact promoted_foldl h b.makeRoom

theorem Promoted.mem (h : b.Promoted host a) : host ∈ b.hostnames a := by
  obtain ⟨names, h⟩ := h
  rw [h, promote_eq_cons]
  exact List.mem_cons_self

theorem Promoted.eq_or (h : b.Promoted host a) (hname : name ∈ b.hostnames a) :
    name = host ∨ eqIgnoreAsciiCase name host = false := by
  obtain ⟨names, h⟩ := h
  exact mem_promote (h ▸ hname)

end Cordon.AddressBook
