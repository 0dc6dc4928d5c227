import Cordon.Proofs.Policy.Merge
/-!
The text over which a policy cannot be built. It is the first that is no pattern: a policy can be
built from texts that are all patterns and from no others.
-/
namespace Cordon.Policy

variable {texts xs ys : List String} {text : String} {p : Pattern} {r r' : Pattern.Rejection}
  {d : Draft}

/-- Every text is a pattern. -/
def AllParse (texts : List String) : Prop := ∀ text ∈ texts, ∃ p, Pattern.parse text = .ok p

theorem AllParse.not_error (H : AllParse texts) (htext : text ∈ texts) :
    Pattern.parse text ≠ .error r := by
  intro herror
  obtain ⟨p, hp⟩ := H text htext
  rw [herror] at hp
  contradiction

theorem firstRejection_cons_of_ok (h : Pattern.parse text = .ok p) :
    FirstRejection (text :: texts) r ↔ FirstRejection texts r := by
  constructor
  · rintro (herror | ⟨-, H⟩)
    · rw [h] at herror
      contradiction
    · exact H
  · exact .later h

theorem firstRejection_cons_of_error (h : Pattern.parse text = .error r') :
    FirstRejection (text :: texts) r ↔ r' = r := by
  constructor
  · rintro (herror | ⟨hok, -⟩)
    · exact Except.error.inj (h.symm.trans herror)
    · rw [h] at hok
      contradiction
  · rintro rfl
    exact .here h

theorem FirstRejection.not_allParse (H : FirstRejection texts r) : ¬ AllParse texts := by
  intro hall
  induction H with
  | here herror => exact hall.not_error List.mem_cons_self herror
  | later _ _ ih => exact ih fun text htext => hall text (List.mem_cons_of_mem _ htext)

theorem allParse_or_firstRejection (texts : List String) :
    AllParse texts ∨ ∃ r, FirstRejection texts r := by
  induction texts with
  | nil => exact .inl nofun
  | cons text texts ih =>
    cases hparse : Pattern.parse text with
    | error r => exact .inr ⟨r, .here hparse⟩
    | ok p =>
      rcases ih with hall | ⟨r, H⟩
      · refine .inl fun other hother => ?_
        rcases List.mem_cons.mp hother with rfl | hother
        · exact ⟨p, hparse⟩
        · exact hall other hother
      · exact .inr ⟨r, .later hparse H⟩

/-- The texts in front of the first that is no pattern are patterns. -/
theorem firstRejection_append : FirstRejection (xs ++ ys) r ↔
    FirstRejection xs r ∨ AllParse xs ∧ FirstRejection ys r := by
  induction xs with
  | nil =>
    constructor
    · exact fun H => .inr ⟨nofun, H⟩
    · rintro (H | ⟨-, H⟩)
      · cases H
      · exact H
  | cons x xs ih =>
    rw [List.cons_append]
    cases hparse : Pattern.parse x with
    | error r' =>
      rw [firstRejection_cons_of_error hparse, firstRejection_cons_of_error hparse]
      refine (or_iff_left ?_).symm
      rintro ⟨hall, -⟩
      exact (FirstRejection.here hparse).not_allParse hall
    | ok p =>
      have hall : AllParse (x :: xs) ↔ AllParse xs :=
        List.forall_mem_cons.trans (and_iff_right ⟨p, hparse⟩)
      rw [firstRejection_cons_of_ok hparse, firstRejection_cons_of_ok hparse, ih, hall]

theorem firstRejection_iff : FirstRejection texts r ↔ ∃ before text after,
    texts = before ++ text :: after ∧ AllParse before ∧ Pattern.parse text = .error r := by
  constructor
  · intro H
    induction H with
    | here herror => exact ⟨[], _, _, rfl, nofun, herror⟩
    | @later text _ _ p hparse _ ih =>
      obtain ⟨before, first, after, rfl, hall, herror⟩ := ih
      refine ⟨text :: before, first, after, rfl, ?_, herror⟩
      exact List.forall_mem_cons.mpr ⟨⟨p, hparse⟩, hall⟩
  · rintro ⟨before, text, after, rfl, hall, herror⟩
    exact firstRejection_append.mpr (.inr ⟨hall, .here herror⟩)

theorem exists_firstRejection_iff :
    (∃ r, FirstRejection texts r) ↔ ∃ text ∈ texts, ∃ r, Pattern.parse text = .error r := by
  constructor
  · rintro ⟨r, H⟩
    obtain ⟨before, text, after, rfl, -, herror⟩ := firstRejection_iff.mp H
    exact ⟨text, List.mem_append_right _ List.mem_cons_self, r, herror⟩
  · rintro ⟨text, htext, r, herror⟩
    exact (allParse_or_firstRejection texts).resolve_left fun hall => hall.not_error htext herror

/-- A policy can be built if all texts are patterns. -/
theorem exists_build_iff : (∃ c, build d = .ok c) ↔ AllParse (d.allowed ++ d.blocked) := by
  constructor
  · rintro ⟨c, hc⟩
    refine (allParse_or_firstRejection _).resolve_right ?_
    rintro ⟨r, H⟩
    rw [build_eq_error_iff.mpr H] at hc
    contradiction
  · intro hall
    cases hbuild : build d with
    | ok c => exact ⟨c, rfl⟩
    | error r => exact absurd hall (build_eq_error_iff.mp hbuild).not_allParse

end Cordon.Policy
