import Cordon.Proofs.Pattern.Parsing
/-!
Equal policies cannot be told apart. Two spellings of a pattern that differ in the case of ASCII
letters are one pattern: they match the same hosts, in any such spelling of these as well, and what
is merged from equal policies is equal. The matcher joins more than that, since it folds letters of
every script; it never separates what equality joins.
-/
namespace Cordon

open Text

namespace Pattern

variable {p q : Pattern} {host host' : String}

theorem equivalence_beq : Equivalence fun p q : Pattern => (p == q) = true where
  refl _ := beq_iff.mpr rfl
  symm h := beq_iff.mpr (beq_iff.mp h).symm
  trans h h' := beq_iff.mpr ((beq_iff.mp h).trans (beq_iff.mp h'))

/-- Of a host the matcher sees no more than its lowered spelling. -/
theorem isMatch_eq_asciiKey (p : Pattern) (host : String) : p.isMatch host =
    (p.isMatchAll || (!(asciiKey host).isEmpty && !(asciiKey host).contains '\n' &&
      fits (p.pieces.map foldPoints) (foldPoints (asciiKey host)))) := by
  have hempty : decide (host ≠ "") = !(asciiKey host).isEmpty := by
    rw [Bool.eq_iff_iff, decide_eq_true_iff, Bool.not_eq_true', asciiKey, List.isEmpty_map,
      List.isEmpty_eq_false_iff, ne_eq, ne_eq, String.toList_eq_nil_iff]
  have hnewline : host.toList.contains '\n' = (asciiKey host).contains '\n' := by
    rw [Bool.eq_iff_iff, List.contains_iff_mem, List.contains_iff_mem, asciiKey, List.mem_map]
    constructor
    · intro h
      exact ⟨'\n', h, rfl⟩
    · rintro ⟨c, hc, hlower⟩
      rwa [(toLower_eq_iff (by decide)).mp hlower] at hc
  rw [isMatch, hempty, hnewline, asciiKey, foldPoints_map_toLower]

/-- Equal patterns match hosts that differ in the case of ASCII letters alike. -/
theorem isMatch_congr (h : (p == q) = true) (hhost : asciiKey host = asciiKey host') :
    p.isMatch host = q.isMatch host' := by
  rw [isMatch_of_beq h, isMatch_eq_asciiKey, isMatch_eq_asciiKey, hhost]

end Pattern

namespace Policy

variable {c d c' d' : Policy} {ps qs : List Pattern} {p q : Pattern} {host host' : String}

/-! ## Lists of patterns -/

/-- The patterns of two lists are equal one by one. -/
def Alike (ps qs : List Pattern) : Prop := List.Forall₂ (fun p q => (p == q) = true) ps qs

theorem beq_iff_alike : (ps == qs) = true ↔ Alike ps qs := by
  rw [Alike]
  induction ps generalizing qs with
  | nil => cases qs <;> simp
  | cons p ps ih =>
    cases qs with
    | nil => simp
    | cons q qs => rw [List.cons_beq_cons, Bool.and_eq_true, List.forall₂_cons, ih]

theorem Alike.any_isMatch (H : Alike ps qs) (hhost : asciiKey host = asciiKey host') :
    ps.any (·.isMatch host) = qs.any (·.isMatch host') := by
  induction H with
  | nil => rfl
  | cons h _ ih => rw [List.any_cons, List.any_cons, Pattern.isMatch_congr h hhost, ih]

theorem Alike.any_beq (H : Alike ps qs) (h : (p == q) = true) :
    ps.any (· == p) = qs.any (· == q) := by
  induction H with
  | nil => rfl
  | cons hhead _ ih => rw [List.any_cons, List.any_cons, Pattern.beq_congr hhead h, ih]

/-- A pattern is a repetition in both lists or in neither. -/
theorem Alike.pushUnique (H : Alike ps qs) (h : (p == q) = true) :
    Alike (pushUnique ps p) (pushUnique qs q) := by
  rw [Policy.pushUnique, Policy.pushUnique, H.any_beq h]
  split
  · exact H
  · exact List.rel_append H (.cons h .nil)

theorem Alike.foldl_pushUnique {rs ss : List Pattern} (H : Alike ps qs) (h : Alike rs ss) :
    Alike (rs.foldl Policy.pushUnique ps) (ss.foldl Policy.pushUnique qs) := by
  induction h generalizing ps qs with
  | nil => exact H
  | cons h _ ih => exact ih (H.pushUnique h)

/-! ## Policies -/

theorem beq_iff : (c == d) = true ↔
    Alike c.allowed d.allowed ∧ Alike c.blocked d.blocked ∧ c.generation = d.generation := by
  rw [← beq_iff_alike, ← beq_iff_alike, ← beq_iff_eq (a := c.generation), ← and_assoc,
    ← Bool.and_eq_true, ← Bool.and_eq_true]
  rfl

theorem isExplicitlyBlocked_congr (h : (c == d) = true) (hhost : asciiKey host = asciiKey host') :
    c.isExplicitlyBlocked host = d.isExplicitlyBlocked host' :=
  (beq_iff.mp h).2.1.any_isMatch hhost

theorem isListedAsAllowed_congr (h : (c == d) = true) (hhost : asciiKey host = asciiKey host') :
    c.isListedAsAllowed host = d.isListedAsAllowed host' :=
  (beq_iff.mp h).1.any_isMatch hhost

theorem merge_congr (h : (c == d) = true) (h' : (c' == d') = true) :
    (c.merge c' == d.merge d') = true := by
  obtain ⟨hallowed, hblocked, -⟩ := beq_iff.mp h
  obtain ⟨hallowed', hblocked', -⟩ := beq_iff.mp h'
  exact beq_iff.mpr
    ⟨hallowed.foldl_pushUnique hallowed', hblocked.foldl_pushUnique hblocked', rfl⟩

/-- Equality of patterns is an equivalence that everything a pattern is used for respects: equal
patterns match hosts alike that are spelled alike up to the case of ASCII letters, equal policies
have one verdict on such hosts, and policies merged from equal ones are equal. -/
theorem beq_congruence :
    Equivalence (fun p q : Pattern => (p == q) = true) ∧
    (∀ p q : Pattern, (p == q) = true → p.isMatchAll = q.isMatchAll ∧
      ∀ host host', eqIgnoreAsciiCase host host' = true → p.isMatch host = q.isMatch host') ∧
    (∀ c d : Policy, (c == d) = true → ∀ host host', eqIgnoreAsciiCase host host' = true →
      c.isExplicitlyBlocked host = d.isExplicitlyBlocked host' ∧
      c.isListedAsAllowed host = d.isListedAsAllowed host' ∧
      c.isAllowed host = d.isAllowed host') ∧
    (∀ c d c' d' : Policy, (c == d) = true → (c' == d') = true →
      (c.merge c' == d.merge d') = true) := by
  refine ⟨Pattern.equivalence_beq, ?_, ?_, fun c d c' d' => merge_congr⟩
  · intro p q h
    refine ⟨Pattern.isMatchAll_of_beq h, ?_⟩
    intro host host' hhost
    exact Pattern.isMatch_congr h (eqIgnoreAsciiCase_iff.mp hhost)
  · intro c d h host host' hhost
    have hkey := eqIgnoreAsciiCase_iff.mp hhost
    have hblocked := isExplicitlyBlocked_congr h hkey
    have hallowed := isListedAsAllowed_congr h hkey
    exact ⟨hblocked, hallowed, by rw [isAllowed, isAllowed, hblocked, hallowed]⟩

/-- The patterns differ in the case of ASCII letters, and so do the hosts. The Kelvin sign in these is
a letter of the patterns to the matcher alone. -/
theorem beq_congruence_respelled : ∃ c d,
    build ⟨["*.KIOSK"], ["evil.*"]⟩ = .ok c ∧ build ⟨["*.kiosk"], ["EVIL.*"]⟩ = .ok d ∧
    (c == d) = true ∧ c.isAllowed "a.\u212Aiosk" = true ∧ d.isAllowed "A.\u212AIOSK" = true ∧
    (c.merge d == d.merge c) = true := by
  let c : Policy :=
    ⟨[⟨"*.KIOSK", Pattern.valid_iff.mpr ⟨by decide, rfl⟩⟩],
      [⟨"evil.*", Pattern.valid_iff.mpr ⟨by decide, rfl⟩⟩], 0⟩
  let d : Policy :=
    ⟨[⟨"*.kiosk", Pattern.valid_iff.mpr ⟨by decide, rfl⟩⟩],
      [⟨"EVIL.*", Pattern.valid_iff.mpr ⟨by decide, rfl⟩⟩], 0⟩
  have h : (c == d) = true := by decide
  have h' : (d == c) = true := by decide
  have hallowed : c.isAllowed "a.\u212Aiosk" = true := by decide +kernel
  obtain ⟨-, -, verdicts, merged⟩ := beq_congruence
  have hsame := (verdicts c d h "a.\u212Aiosk" "A.\u212AIOSK" (by decide)).2.2
  exact ⟨c, d, rfl, rfl, h, hallowed, hsame.symm.trans hallowed, merged c d d c h h'⟩

end Policy
end Cordon
