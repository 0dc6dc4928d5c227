import Mathlib.Data.List.DropRight
/-!
What is left of a sequence when a class of elements is dropped at both ends, said without the way in
which it is done: the part between two runs of the class that neither begins nor ends with it.
-/
namespace Cordon.Text

variable {α : Type} {p : α → Bool} {cs front inner : List α}

/-- `inner` is `cs` less the run of the class at either end. -/
structure Strips (p : α → Bool) (cs inner : List α) : Prop where
  within : ∃ front back, cs = front ++ inner ++ back ∧ ∀ c ∈ front ++ back, p c = true
  head : ∀ c ∈ inner.head?, p c = false
  last : ∀ c ∈ inner.getLast?, p c = false

theorem dropWhile_of_head (h : ∀ c ∈ cs.head?, p c = false) : cs.dropWhile p = cs := by
  cases cs with
  | nil => rfl
  | cons c cs => rw [List.dropWhile_cons_of_neg (by simp [h c rfl])]

theorem not_head_dropWhile : ∀ c ∈ (cs.dropWhile p).head?, p c = false := by
  induction cs with
  | nil => exact nofun
  | cons d cs ih =>
    rw [List.dropWhile_cons]
    split
    · exact ih
    · next hd =>
      rintro c ⟨⟩
      exact Bool.eq_false_iff.mpr hd

theorem strips_dropWhile (p : α → Bool) (cs : List α) :
    Strips p cs ((cs.dropWhile p).rdropWhile p) := by
  have hparts : (cs.dropWhile p).rdropWhile p ++ (cs.dropWhile p).rtakeWhile p =
      cs.dropWhile p := List.rdropWhile_append_rtakeWhile
  constructor
  · refine ⟨cs.takeWhile p, (cs.dropWhile p).rtakeWhile p, ?_, ?_⟩
    · rw [List.append_assoc, hparts, List.takeWhile_append_dropWhile]
    · intro c hc
      rcases List.mem_append.mp hc with hc | hc
      · exact List.mem_takeWhile_imp hc
      · exact List.mem_rtakeWhile_imp hc
  · intro c hc
    apply @not_head_dropWhile α p cs
    rw [← hparts, List.head?_append, hc]
    rfl
  · rw [List.rdropWhile, List.getLast?_reverse]
    exact not_head_dropWhile

/-- What is left is determined. -/
theorem strips_iff : Strips p cs inner ↔ (cs.dropWhile p).rdropWhile p = inner := by
  constructor
  · rintro ⟨⟨front, back, rfl, hends⟩, hhead, hlast⟩
    have hfront : ∀ c ∈ front, p c = true := fun c hc => hends c (List.mem_append_left _ hc)
    have hback : ∀ c ∈ back.reverse, p c = true := fun c hc =>
      hends c (List.mem_append_right _ (List.mem_reverse.mp hc))
    rw [List.append_assoc, List.dropWhile_append_of_pos hfront]
    cases inner with
    | nil =>
      rw [List.nil_append,
        List.dropWhile_eq_nil_iff.mpr fun c hc => hback c (List.mem_reverse.mpr hc)]
      rfl
    | cons d inner =>
      have hstart : (d :: inner ++ back).dropWhile p = d :: inner ++ back :=
        dropWhile_of_head hhead
      rw [hstart, List.rdropWhile, List.reverse_append, List.dropWhile_append_of_pos hback,
        dropWhile_of_head, List.reverse_reverse]
      rwa [List.head?_reverse]
  · rintro rfl
    exact strips_dropWhile p cs

/-- Where the class does not occur, nothing is dropped. -/
theorem strips_self (h : ∀ c ∈ cs, p c = false) : Strips p cs cs where
  within := ⟨[], [], by simp, nofun⟩
  head c hc := h c (List.mem_of_mem_head? hc)
  last c hc := h c (List.mem_of_getLast? hc)

end Cordon.Text
