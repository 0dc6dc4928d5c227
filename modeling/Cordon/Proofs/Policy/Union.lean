import Cordon.Policy
import Cordon.Proofs.Pattern.Matching
/-!
What a policy that is put together from texts allows and blocks: whatever one of the texts matches.
That repeated patterns are dropped on the way changes nothing, since a dropped pattern is spelled
like one that stays, up to the case of ASCII letters.
-/
namespace Cordon

open Text

/-- A computation in two parts succeeds if both do. -/
theorem exists_of_bind_eq_ok {ε α β : Type} {x : Except ε α} {f : α → Except ε β} {b : β}
    (h : (x >>= f) = .ok b) : ∃ a, x = .ok a ∧ f a = .ok b := by
  cases x with
  | error e => exact absurd h nofun
  | ok a => exact ⟨a, rfl, h⟩

/-- It fails in one of them. -/
theorem bind_eq_error_iff {ε α β : Type} {x : Except ε α} {f : α → Except ε β} {e : ε} :
    (x >>= f) = .error e ↔ x = .error e ∨ ∃ a, x = .ok a ∧ f a = .error e := by
  cases x with
  | error e' =>
    constructor
    · intro h
      exact .inl (congrArg Except.error (Except.error.inj h))
    · rintro (h | ⟨a, ha, -⟩)
      · exact congrArg Except.error (Except.error.inj h)
      · contradiction
  | ok a =>
    constructor
    · exact fun h => .inr ⟨a, rfl, h⟩
    · rintro (h | ⟨_, ⟨⟩, h⟩)
      · contradiction
      · exact h

namespace Pattern

variable {p q : Pattern} {host : String}

theorem toLower_eq_iff {c d : Char} (hd : d.toNat < 65) : c.toLower = d ↔ c = d := by
  rw [← Char.toNat_inj, ← Char.toNat_inj, toNat_toLower]
  split <;> omega

/-- Splitting at a character without case commutes with lowering. -/
theorem splitAt_map_toLower {sep : Char} (hsep : sep.toNat < 65) (cs : List Char) :
    splitAt sep (cs.map Char.toLower) = (splitAt sep cs).map (List.map Char.toLower) := by
  induction cs with
  | nil => rfl
  | cons c cs ih =>
    have hc : (c.toLower == sep) = (c == sep) := by
      rw [Bool.eq_iff_iff, beq_iff_eq, beq_iff_eq, toLower_eq_iff hsep]
    rw [List.map_cons, splitAt, splitAt, hc, ih]
    split
    · rfl
    · cases splitAt sep cs <;> rfl

theorem isMatchAll_iff_asciiKey : p.isMatchAll = true ↔ asciiKey p.source = ['*'] := by
  rw [isMatchAll, beq_iff_eq, asciiKey, ← String.toList_inj, List.map_eq_singleton_iff]
  constructor
  · intro h
    exact ⟨'*', h, rfl⟩
  · rintro ⟨c, hc, hstar⟩
    rw [(toLower_eq_iff (by decide)).mp hstar] at hc
    exact hc

/-- What the matcher looks for, as it depends on the lowered spelling only. -/
theorem map_foldPoints_pieces (p : Pattern) :
    p.pieces.map foldPoints = (splitAt '*' (asciiKey p.source)).map foldPoints := by
  rw [asciiKey, splitAt_map_toLower (by decide), List.map_map, pieces]
  exact List.map_congr_left fun piece _ => (foldPoints_map_toLower piece).symm

/-- Equal patterns equal the same patterns. -/
theorem beq_congr {p' q' : Pattern} (h : (p == q) = true) (h' : (p' == q') = true) :
    (p == p') = (q == q') := by
  rw [Bool.eq_iff_iff, beq_iff, beq_iff, beq_iff.mp h, beq_iff.mp h']

theorem isMatchAll_of_beq (h : (p == q) = true) : p.isMatchAll = q.isMatchAll := by
  rw [Bool.eq_iff_iff, isMatchAll_iff_asciiKey, isMatchAll_iff_asciiKey, beq_iff.mp h]

/-- Equal patterns match the same hosts. -/
theorem isMatch_of_beq (h : (p == q) = true) (host : String) : p.isMatch host = q.isMatch host := by
  rw [isMatch, isMatch, isMatchAll_of_beq h, map_foldPoints_pieces p, map_foldPoints_pieces q,
    beq_iff.mp h]

theorem trim_star : trim "*" = "*" := rfl

/-- A text that is a pattern matches as that pattern does. -/
theorem isMatchText_of_parse {text : String} (h : parse text = .ok p) (host : String) :
    isMatchText text host = p.isMatch host := by
  rw [isMatchText, h]
  by_cases htext : text = "*"
  · have hall : p.isMatchAll = true := by
      rw [isMatchAll, source_of_parse h, htext, trim_star, beq_self_eq_true]
    simp [isMatch, htext, hall]
  · simp [htext]

end Pattern

namespace Policy

variable {ps qs : List Pattern} {p : Pattern} {texts : List String} {host : String}

theorem any_pushUnique : (pushUnique ps p).any (·.isMatch host) =
    (ps.any (·.isMatch host) || p.isMatch host) := by
  rw [pushUnique]
  split
  · next h =>
    obtain ⟨q, hq, hqp⟩ := List.any_eq_true.mp h
    cases hp : p.isMatch host with
    | false => rw [Bool.or_false]
    | true =>
      rw [Bool.or_true]
      exact List.any_eq_true.mpr ⟨q, hq, (Pattern.isMatch_of_beq hqp host).trans hp⟩
  · simp

theorem any_foldl_pushUnique : (qs.foldl pushUnique ps).any (·.isMatch host) =
    (ps.any (·.isMatch host) || qs.any (·.isMatch host)) := by
  induction qs generalizing ps with
  | nil => simp
  | cons q qs ih => rw [List.foldl_cons, ih, any_pushUnique, List.any_cons, Bool.or_assoc]

theorem isExplicitlyBlocked_merge (c d : Policy) (host : String) :
    (c.merge d).isExplicitlyBlocked host =
      (c.isExplicitlyBlocked host || d.isExplicitlyBlocked host) :=
  any_foldl_pushUnique

theorem isListedAsAllowed_merge (c d : Policy) (host : String) :
    (c.merge d).isListedAsAllowed host =
      (c.isListedAsAllowed host || d.isListedAsAllowed host) :=
  any_foldl_pushUnique

/-- A compilation that has begun with `ps` ends with what `ps` and the texts match. -/
theorem any_compile_from
    (h : texts.foldlM (fun ps text => (Pattern.parse text).map (pushUnique ps)) ps = .ok qs) :
    qs.any (·.isMatch host) =
      (ps.any (·.isMatch host) || texts.any (Pattern.isMatchText · host)) := by
  induction texts generalizing ps with
  | nil =>
    obtain rfl := Except.ok.inj h
    simp
  | cons text texts ih =>
    rw [List.foldlM_cons] at h
    obtain ⟨next, hnext, h⟩ := exists_of_bind_eq_ok h
    cases hparse : Pattern.parse text with
    | error rejection =>
      rw [hparse] at hnext
      exact absurd hnext nofun
    | ok p =>
      rw [hparse] at hnext
      obtain rfl := Except.ok.inj hnext
      rw [ih h, any_pushUnique, List.any_cons, Pattern.isMatchText_of_parse hparse, Bool.or_assoc]

theorem any_compile (h : compile texts = .ok ps) (host : String) :
    ps.any (·.isMatch host) = texts.any (Pattern.isMatchText · host) := by
  simpa using any_compile_from h

theorem build_eq_ok_iff {d : Draft} {c : Policy} : build d = .ok c ↔
    compile d.allowed = .ok c.allowed ∧ compile d.blocked = .ok c.blocked ∧ c.generation = 0 := by
  constructor
  · intro h
    obtain ⟨allowed, hallowed, h⟩ := exists_of_bind_eq_ok h
    obtain ⟨blocked, hblocked, h⟩ := exists_of_bind_eq_ok h
    obtain rfl := Except.ok.inj h
    exact ⟨hallowed, hblocked, rfl⟩
  · rintro ⟨hallowed, hblocked, hgeneration⟩
    rw [build, hallowed, hblocked]
    change Except.ok { c with generation := 0 } = Except.ok c
    rw [← hgeneration]

theorem isExplicitlyBlocked_of_build {d : Draft} {c : Policy} (h : build d = .ok c)
    (host : String) :
    c.isExplicitlyBlocked host = d.blocked.any (Pattern.isMatchText · host) :=
  any_compile (build_eq_ok_iff.mp h).2.1 host

theorem isListedAsAllowed_of_build {d : Draft} {c : Policy} (h : build d = .ok c)
    (host : String) :
    c.isListedAsAllowed host = d.allowed.any (Pattern.isMatchText · host) :=
  any_compile (build_eq_ok_iff.mp h).1 host

variable {c : Policy} {cs : List Policy} {drafts : List Draft}

theorem isExplicitlyBlocked_foldl_merge (c : Policy) (cs : List Policy) (host : String) :
    (cs.foldl merge c).isExplicitlyBlocked host =
      (c :: cs).any (·.isExplicitlyBlocked host) := by
  induction cs generalizing c with
  | nil => simp
  | cons d cs ih =>
    rw [List.foldl_cons, ih, List.any_cons, isExplicitlyBlocked_merge, List.any_cons,
      List.any_cons, Bool.or_assoc]

theorem isListedAsAllowed_foldl_merge (c : Policy) (cs : List Policy) (host : String) :
    (cs.foldl merge c).isListedAsAllowed host = (c :: cs).any (·.isListedAsAllowed host) := by
  induction cs generalizing c with
  | nil => simp
  | cons d cs ih =>
    rw [List.foldl_cons, ih, List.any_cons, isListedAsAllowed_merge, List.any_cons,
      List.any_cons, Bool.or_assoc]

/-- What holds of a built policy as of its draft holds of some policy if of some draft. -/
theorem any_of_forall₂_build {f : Policy → Bool} {g : Draft → Bool}
    (hfg : ∀ d c, build d = .ok c → f c = g d)
    (h : List.Forall₂ (fun d c => build d = .ok c) drafts cs) : cs.any f = drafts.any g := by
  induction h with
  | nil => rfl
  | cons hd _ ih => rw [List.any_cons, List.any_cons, hfg _ _ hd, ih]

/-- Policies that are built from texts and merged one after the other block and list as allowed what
some text of some of them matches, in whatever order they are merged. What is trimmed off a text or
dropped as a repetition on the way never changes a verdict. -/
theorem verdicts_foldl_merge (h : List.Forall₂ (fun d c => build d = .ok c) drafts (c :: cs))
    (host : String) :
    ((cs.foldl merge c).isExplicitlyBlocked host = true ↔
      ∃ d ∈ drafts, ∃ text ∈ d.blocked, Pattern.isMatchText text host = true) ∧
    ((cs.foldl merge c).isListedAsAllowed host = true ↔
      ∃ d ∈ drafts, ∃ text ∈ d.allowed, Pattern.isMatchText text host = true) ∧
    ((cs.foldl merge c).isAllowed host = true ↔
      (∃ d ∈ drafts, ∃ text ∈ d.allowed, Pattern.isMatchText text host = true) ∧
      ¬ ∃ d ∈ drafts, ∃ text ∈ d.blocked, Pattern.isMatchText text host = true) ∧
    (∀ c' cs', (c' :: cs').Perm (c :: cs) →
      (cs'.foldl merge c').isExplicitlyBlocked host =
        (cs.foldl merge c).isExplicitlyBlocked host ∧
      (cs'.foldl merge c').isListedAsAllowed host = (cs.foldl merge c).isListedAsAllowed host ∧
      (cs'.foldl merge c').isAllowed host = (cs.foldl merge c).isAllowed host) := by
  have hblocked : (cs.foldl merge c).isExplicitlyBlocked host = true ↔
      ∃ d ∈ drafts, ∃ text ∈ d.blocked, Pattern.isMatchText text host = true := by
    rw [isExplicitlyBlocked_foldl_merge,
      any_of_forall₂_build (fun _ _ hd => isExplicitlyBlocked_of_build hd host) h]
    simp only [List.any_eq_true]
  have hallowed : (cs.foldl merge c).isListedAsAllowed host = true ↔
      ∃ d ∈ drafts, ∃ text ∈ d.allowed, Pattern.isMatchText text host = true := by
    rw [isListedAsAllowed_foldl_merge,
      any_of_forall₂_build (fun _ _ hd => isListedAsAllowed_of_build hd host) h]
    simp only [List.any_eq_true]
  refine ⟨hblocked, hallowed, ?_, fun c' cs' hperm => ?_⟩
  · rw [isAllowed, Bool.and_eq_true, Bool.not_eq_true', ← Bool.not_eq_true, hblocked, hallowed,
      and_comm]
  · have hb : (cs'.foldl merge c').isExplicitlyBlocked host =
        (cs.foldl merge c).isExplicitlyBlocked host := by
      rw [isExplicitlyBlocked_foldl_merge, isExplicitlyBlocked_foldl_merge, hperm.any_eq]
    have ha : (cs'.foldl merge c').isListedAsAllowed host =
        (cs.foldl merge c).isListedAsAllowed host := by
      rw [isListedAsAllowed_foldl_merge, isListedAsAllowed_foldl_merge, hperm.any_eq]
    exact ⟨hb, ha, by rw [isAllowed, isAllowed, hb, ha]⟩

/-- The second draft spells a pattern of the first one in capitals, which is dropped in merging; a
letter outside ASCII that folds to one of its letters is matched all the same. -/
theorem verdicts_foldl_merge_respelled : ∃ c d,
    List.Forall₂ (fun d c => build d = .ok c)
      [⟨[" *.kiosk "], []⟩, ⟨["*.KIOSK"], ["evil.*"]⟩] [c, d] ∧
    (c.merge d).allowed.length = 1 ∧ (c.merge d).isAllowed "a.\u212Aiosk" = true ∧
    (d.merge c).isAllowed "a.\u212Aiosk" = true := by
  have build : List.Forall₂ (fun d c => build d = .ok c)
      [⟨[" *.kiosk "], []⟩, ⟨["*.KIOSK"], ["evil.*"]⟩] _ := .cons rfl (.cons rfl .nil)
  have verdicts := verdicts_foldl_merge build "a.\u212Aiosk"
  have hallowed := verdicts.2.2.1.mpr
    ⟨⟨_, List.mem_cons_self, _, List.mem_cons_self, by decide +kernel⟩, by decide +kernel⟩
  exact ⟨_, _, build, rfl, hallowed, (verdicts.2.2.2 _ _ (.swap ..)).2.2.trans hallowed⟩

end Policy
end Cordon
