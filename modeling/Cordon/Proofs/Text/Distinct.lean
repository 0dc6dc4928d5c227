/-!
What is left of a list when every repetition of an earlier element is removed, where elements count
as the same that agree on a key, such as texts that differ in the case of letters only.
-/
namespace Cordon.Text

variable {α κ : Type} {r : α → α → Bool} {key : α → κ} (hr : ∀ a b, r a b = true ↔ key a = key b)

include hr

/-- Removing repetitions commutes with a filter that keeps or drops all elements of one key. -/
theorem eraseDupsBy_filter {keep : α → Bool}
    (hkeep : ∀ a b, key a = key b → keep a = keep b) (l : List α) :
    (l.filter keep).eraseDupsBy r = (l.eraseDupsBy r).filter keep := by
  match l with
  | [] => rfl
  | a :: l =>
    have hrest := eraseDupsBy_filter hkeep (l.filter fun b => decide (r b a = false))
    rw [List.filter_filter] at hrest
    rw [List.eraseDupsBy_cons]
    cases ha : keep a with
    | true =>
      rw [List.filter_cons_of_pos ha, List.filter_cons_of_pos ha, List.eraseDupsBy_cons, ← hrest,
        List.filter_filter]
      congr 2
      exact List.filter_congr fun b _ => Bool.and_comm ..
    | false =>
      rw [List.filter_cons_of_neg (by simp [ha]), List.filter_cons_of_neg (by simp [ha]), ← hrest]
      congr 1
      refine List.filter_congr fun b _ => ?_
      cases hb : keep b with
      | false => rfl
      | true =>
        have hba : r b a = false := by
          rw [Bool.eq_false_iff]
          intro h
          rw [hkeep b a ((hr b a).mp h), ha] at hb
          contradiction
        simp [hba]
termination_by l.length
decreasing_by exact Nat.lt_succ_of_le (List.length_filter_le ..)

theorem eraseDupsBy_cons (a : α) (l : List α) :
    (a :: l).eraseDupsBy r = a :: (l.eraseDupsBy r).filter fun b => !r b a := by
  rw [List.eraseDupsBy_cons, ← eraseDupsBy_filter hr]
  · congr 2
    exact List.filter_congr fun b _ => by cases r b a <;> rfl
  · intro b c h
    rw [Bool.eq_iff_iff, Bool.not_eq_true', Bool.not_eq_true', Bool.eq_false_iff, Bool.eq_false_iff,
      ne_eq, ne_eq, hr, hr, h]

theorem pairwise_eraseDupsBy (l : List α) :
    (l.eraseDupsBy r).Pairwise fun a b => r a b = false := by
  induction l with
  | nil => exact .nil
  | cons a l ih =>
    rw [eraseDupsBy_cons hr, List.pairwise_cons]
    refine ⟨fun b hb => ?_, ih.filter _⟩
    have hba := (List.mem_filter.mp hb).2
    rw [Bool.not_eq_true', Bool.eq_false_iff, ne_eq, hr] at hba
    rw [Bool.eq_false_iff, ne_eq, hr]
    exact Ne.symm hba

theorem mem_of_mem_eraseDupsBy {a : α} {l : List α}
    (h : a ∈ l.eraseDupsBy r) : a ∈ l := by
  induction l with
  | nil => exact h
  | cons b l ih =>
    rw [eraseDupsBy_cons hr] at h
    rcases List.mem_cons.mp h with rfl | h
    · exact List.mem_cons_self
    · exact List.mem_cons_of_mem _ (ih (List.mem_filter.mp h).1)

omit hr

theorem length_eraseDups_le [BEq α] [LawfulBEq α] (l : List α) : l.eraseDups.length ≤ l.length := by
  induction l with
  | nil => exact Nat.le_refl _
  | cons a l ih =>
    have hkey : ∀ b c : α, (b == c) = true ↔ id b = id c := fun _ _ => beq_iff_eq
    have hcons : (a :: l).eraseDups = a :: l.eraseDups.filter fun b => !b == a :=
      eraseDupsBy_cons hkey a l
    rw [hcons, List.length_cons, List.length_cons]
    exact Nat.succ_le_succ (Nat.le_trans (List.length_filter_le ..) ih)

/-- Nothing is removed from a list without repetitions, and from no other list. -/
theorem length_eraseDups_eq_iff [BEq α] [LawfulBEq α] {l : List α} :
    l.eraseDups.length = l.length ↔ l.Nodup := by
  induction l with
  | nil => exact iff_of_true rfl .nil
  | cons a l ih =>
    rw [List.eraseDups_cons, List.length_cons, List.length_cons, Nat.succ_inj, List.nodup_cons, ← ih]
    constructor
    · intro h
      have hall : (l.filter fun b => !b == a) = l := by
        refine List.filter_eq_self.mpr (List.length_filter_eq_length_iff.mp ?_)
        exact Nat.le_antisymm (List.length_filter_le ..) (h ▸ length_eraseDups_le _)
      refine ⟨fun ha => ?_, by rwa [hall] at h⟩
      simpa using List.filter_eq_self.mp hall a ha
    · rintro ⟨ha, h⟩
      have hall : (l.filter fun b => !b == a) = l := by
        refine List.filter_eq_self.mpr fun b hb => ?_
        rw [Bool.not_eq_true', beq_eq_false_iff_ne]
        rintro rfl
        exact ha hb
      rwa [hall]

end Cordon.Text
