import Cordon.Proofs.Policy.Union
import Cordon.Proofs.Text.Distinct
/-!
Policies as sets of patterns that remember how they came about. Whether texts are drafted together
and built at once or built one after the other and merged, the policy is the same to the letter: it
lists each pattern once, in the spelling and at the place in which it came first.
-/
namespace Cordon

open Text

namespace Policy

variable {ps qs rs : List Pattern} {p q : Pattern} {texts : List String}

/-! ## Lists of patterns -/

theorem any_beq_congr (h : (p == q) = true) (ps : List Pattern) :
    ps.any (· == p) = ps.any (· == q) :=
  List.any_congr rfl fun _ => Pattern.beq_congr (Pattern.beq_iff.mpr rfl) h

theorem any_beq_pushUnique (ps : List Pattern) (p q : Pattern) :
    (pushUnique ps p).any (· == q) = (ps.any (· == q) || p == q) := by
  rw [pushUnique]
  split
  · next hp =>
    cases hpq : p == q with
    | false => rw [Bool.or_false]
    | true => rw [Bool.or_true, ← any_beq_congr hpq, hp]
  · rw [List.any_append, List.any_cons, List.any_nil, Bool.or_false]

theorem any_beq_foldl_pushUnique (ps qs : List Pattern) (p : Pattern) :
    (qs.foldl pushUnique ps).any (· == p) = (ps.any (· == p) || qs.any (· == p)) := by
  induction qs generalizing ps with
  | nil => rw [List.foldl_nil, List.any_nil, Bool.or_false]
  | cons q qs ih => rw [List.foldl_cons, ih, any_beq_pushUnique, List.any_cons, Bool.or_assoc]

theorem foldl_pushUnique_pushUnique (ps qs : List Pattern) (q : Pattern) :
    (pushUnique qs q).foldl pushUnique ps = pushUnique (qs.foldl pushUnique ps) q := by
  rw [pushUnique]
  split
  · next hq => rw [pushUnique, if_pos (by rw [any_beq_foldl_pushUnique, hq, Bool.or_true])]
  · rw [List.foldl_append]
    rfl

/-- Patterns may be collected before they are added. -/
theorem foldl_foldl_pushUnique (ps qs rs : List Pattern) :
    (rs.foldl pushUnique qs).foldl pushUnique ps =
      rs.foldl pushUnique (qs.foldl pushUnique ps) := by
  induction rs generalizing qs with
  | nil => rfl
  | cons r rs ih => rw [List.foldl_cons, ih, foldl_pushUnique_pushUnique, List.foldl_cons]

theorem foldl_pushUnique_of_any (h : ∀ q ∈ qs, ps.any (· == q) = true) :
    qs.foldl pushUnique ps = ps := by
  induction qs with
  | nil => rfl
  | cons q qs ih =>
    rw [List.foldl_cons, pushUnique, if_pos (h q List.mem_cons_self)]
    exact ih fun r hr => h r (List.mem_cons_of_mem _ hr)

theorem foldl_pushUnique_self (ps : List Pattern) : ps.foldl pushUnique ps = ps :=
  foldl_pushUnique_of_any fun q hq => List.any_eq_true.mpr ⟨q, hq, Pattern.beq_iff.mpr rfl⟩

/-- What is added to a list are the patterns that are new to it, without repetitions. -/
theorem foldl_pushUnique_eq (ps qs : List Pattern) :
    qs.foldl pushUnique ps = ps ++ (qs.filter fun q => !ps.any (· == q)).eraseDups := by
  induction qs generalizing ps with
  | nil => simp
  | cons q qs ih =>
    rw [List.foldl_cons, ih, pushUnique]
    cases hq : ps.any (· == q) with
    | true => rw [if_pos rfl, List.filter_cons_of_neg (by simp [hq])]
    | false =>
      rw [if_neg Bool.false_ne_true, List.filter_cons_of_pos (by simp [hq]), List.eraseDups_cons,
        List.append_assoc, List.filter_filter]
      refine congrArg (fun l => ps ++ q :: l.eraseDups) (List.filter_congr fun r _ => ?_)
      have hsymm : (r == q) = (q == r) := by
        rw [Bool.eq_iff_iff, Pattern.beq_iff, Pattern.beq_iff, eq_comm]
      rw [List.any_append, List.any_cons, List.any_nil, Bool.or_false, Bool.not_or, Bool.and_comm,
        hsymm]

theorem foldl_pushUnique_nil (qs : List Pattern) : qs.foldl pushUnique [] = qs.eraseDups := by
  have hnew : qs.filter (fun q => !([] : List Pattern).any (· == q)) = qs :=
    List.filter_eq_self.mpr fun _ _ => rfl
  rw [foldl_pushUnique_eq, List.nil_append, hnew]

theorem pairwise_eraseDups (ps : List Pattern) :
    ps.eraseDups.Pairwise fun p q => (p == q) = false :=
  pairwise_eraseDupsBy (r := (· == ·)) (fun _ _ => Pattern.beq_iff) ps

/-! ## Merging -/

theorem merge_assoc (a b c : Policy) : (a.merge b).merge c = a.merge (b.merge c) := by
  rw [merge, merge, merge, merge, foldl_foldl_pushUnique, foldl_foldl_pushUnique]

/-- Nothing is new to a policy in itself. -/
theorem merge_self {c : Policy} (h : c.generation = 0) : c.merge c = c := by
  rw [merge, foldl_pushUnique_self, foldl_pushUnique_self, ← h]

theorem merge_blockAll {c : Policy} (h : c.generation = 0) : c.merge blockAll = c := by
  rw [merge, ← h]
  rfl

/-! ## Building -/

/-- The patterns that texts are, one for each. -/
def ReadAs (texts : List String) (ps : List Pattern) : Prop :=
  List.Forall₂ (fun text p => Pattern.parse text = .ok p) texts ps

/-- The patterns that texts are, each once, in the spelling and at the place in which it comes
first. -/
structure ListsOnce (texts : List String) (ps : List Pattern) : Prop where
  distinct : ps.Pairwise fun p q => (p == q) = false
  first : ∃ all, ReadAs texts all ∧ ps = all.eraseDups

theorem foldlM_eq_map (texts : List String) (ps : List Pattern) :
    texts.foldlM (fun ps text => (Pattern.parse text).map (pushUnique ps)) ps =
      (texts.mapM Pattern.parse).map (·.foldl pushUnique ps) := by
  induction texts generalizing ps with
  | nil => rfl
  | cons text texts ih =>
    rw [List.foldlM_cons, List.mapM_cons]
    cases Pattern.parse text with
    | error rejection => rfl
    | ok p =>
      refine (ih (pushUnique ps p)).trans ?_
      cases texts.mapM Pattern.parse with
      | error rejection => rfl
      | ok qs => rfl

theorem compile_eq_map (texts : List String) :
    compile texts = (texts.mapM Pattern.parse).map List.eraseDups := by
  rw [compile, foldlM_eq_map]
  refine congrArg (Except.map · _) (funext foldl_pushUnique_nil)

/-- Texts are compiled in one go or in two. -/
theorem compile_append (xs ys : List String) : compile (xs ++ ys) = do
    let ps ← compile xs
    let qs ← compile ys
    return qs.foldl pushUnique ps := by
  rw [compile, List.foldlM_append]
  refine congrArg (compile xs >>= ·) (funext fun ps => ?_)
  rw [foldlM_eq_map, compile, foldlM_eq_map]
  cases ys.mapM Pattern.parse with
  | error rejection => rfl
  | ok qs => exact congrArg Except.ok (foldl_foldl_pushUnique ps [] qs).symm

theorem mapM_eq_ok_iff {all : List Pattern} :
    texts.mapM Pattern.parse = .ok all ↔ ReadAs texts all := by
  rw [ReadAs]
  induction texts generalizing all with
  | nil =>
    rw [List.forall₂_nil_left_iff]
    exact ⟨fun h => (Except.ok.inj h).symm, fun h => h ▸ rfl⟩
  | cons text texts ih =>
    rw [List.mapM_cons, List.forall₂_cons_left_iff]
    constructor
    · intro h
      obtain ⟨p, hp, h⟩ := exists_of_bind_eq_ok h
      obtain ⟨ps, hps, h⟩ := exists_of_bind_eq_ok h
      exact ⟨p, ps, hp, ih.mp hps, (Except.ok.inj h).symm⟩
    · rintro ⟨p, ps, hp, hps, rfl⟩
      rw [hp, ih.mpr hps]
      rfl

theorem listsOnce_of_compile (h : compile texts = .ok ps) : ListsOnce texts ps := by
  rw [compile_eq_map] at h
  cases hall : texts.mapM Pattern.parse with
  | error rejection =>
    rw [hall] at h
    exact absurd h nofun
  | ok all =>
    rw [hall] at h
    obtain rfl := Except.ok.inj h
    exact ⟨pairwise_eraseDups all, all, mapM_eq_ok_iff.mp hall, rfl⟩

/-- The texts of one draft and then of another. -/
def Draft.append (d e : Draft) : Draft := ⟨d.allowed ++ e.allowed, d.blocked ++ e.blocked⟩

theorem compile_append_eq_ok_iff {xs ys : List String} : compile (xs ++ ys) = .ok rs ↔
    ∃ ps qs, compile xs = .ok ps ∧ compile ys = .ok qs ∧ rs = qs.foldl pushUnique ps := by
  rw [compile_append]
  constructor
  · intro h
    obtain ⟨ps, hps, h⟩ := exists_of_bind_eq_ok h
    obtain ⟨qs, hqs, h⟩ := exists_of_bind_eq_ok h
    exact ⟨ps, qs, hps, hqs, (Except.ok.inj h).symm⟩
  · rintro ⟨ps, qs, hps, hqs, rfl⟩
    rw [hps, hqs]
    rfl

/-- Two drafts can be built together as they can be built and then merged. -/
theorem build_append {d e : Draft} {c : Policy} : build (d.append e) = .ok c ↔
    ∃ a b, build d = .ok a ∧ build e = .ok b ∧ c = a.merge b := by
  rw [build_eq_ok_iff, Draft.append, compile_append_eq_ok_iff, compile_append_eq_ok_iff]
  constructor
  · rintro ⟨⟨ps, qs, hps, hqs, hallowed⟩, ⟨ps', qs', hps', hqs', hblocked⟩, hgeneration⟩
    refine ⟨⟨ps, ps', 0⟩, ⟨qs, qs', 0⟩, build_eq_ok_iff.mpr ⟨hps, hps', rfl⟩,
      build_eq_ok_iff.mpr ⟨hqs, hqs', rfl⟩, ?_⟩
    rw [merge, ← hallowed, ← hblocked, ← hgeneration]
  · rintro ⟨a, b, ha, hb, rfl⟩
    obtain ⟨haa, hab, -⟩ := build_eq_ok_iff.mp ha
    obtain ⟨hba, hbb, -⟩ := build_eq_ok_iff.mp hb
    exact ⟨⟨_, _, haa, hba, rfl⟩, ⟨_, _, hab, hbb, rfl⟩, rfl⟩

/-! ## Texts that are no patterns -/

/-- The rejection of the first of the texts that is no pattern. -/
inductive FirstRejection : List String → Pattern.Rejection → Prop
  | here {text : String} {texts : List String} {r : Pattern.Rejection} :
    Pattern.parse text = .error r → FirstRejection (text :: texts) r
  | later {text : String} {texts : List String} {r : Pattern.Rejection} {p : Pattern} :
    Pattern.parse text = .ok p → FirstRejection texts r → FirstRejection (text :: texts) r

variable {r : Pattern.Rejection}

theorem mapM_eq_error_iff : texts.mapM Pattern.parse = .error r ↔ FirstRejection texts r := by
  induction texts with
  | nil => exact ⟨nofun, nofun⟩
  | cons text texts ih =>
    rw [List.mapM_cons]
    constructor
    · intro h
      cases hparse : Pattern.parse text with
      | error rejection =>
        rw [hparse] at h
        obtain rfl := Except.error.inj h
        exact .here hparse
      | ok p =>
        cases hrest : texts.mapM Pattern.parse with
        | error rejection =>
          rw [hparse, hrest] at h
          obtain rfl := Except.error.inj h
          exact .later hparse (ih.mp hrest)
        | ok ps =>
          rw [hparse, hrest] at h
          exact absurd h nofun
    · rintro (hparse | ⟨hparse, hrest⟩)
      · rw [hparse]
        rfl
      · rw [hparse, ih.mpr hrest]
        rfl

/-- The allowed texts are read first. -/
theorem build_eq_error_iff {d : Draft} :
    build d = .error r ↔ FirstRejection (d.allowed ++ d.blocked) r := by
  have hsame (e : Pattern.Rejection) : (.error e : Except Pattern.Rejection Policy) = .error r ↔
      (.error e : Except Pattern.Rejection (List Pattern)) = .error r := by
    rw [Except.error.injEq, Except.error.injEq]
  rw [← mapM_eq_error_iff, List.mapM_append, build, compile_eq_map, compile_eq_map]
  cases d.allowed.mapM Pattern.parse with
  | error rejection => exact hsame rejection
  | ok ps =>
    cases d.blocked.mapM Pattern.parse with
    | error rejection => exact hsame rejection
    | ok qs =>
      refine iff_of_false (fun h => ?_) (fun h => ?_)
      · cases h
      · cases h

/-! ## Policies in the making -/

namespace Draft

/-- What can be added to a draft at a time. -/
inductive Addition where
  | allow (text : String)
  | allowAll
  | allowHosts (texts : List String)
  | block (text : String)
  | blockHosts (texts : List String)

def add (d : Draft) : Addition → Draft
  | .allow text => d.allow text
  | .allowAll => d.allowAll
  | .allowHosts texts => d.allowHosts texts
  | .block text => d.block text
  | .blockHosts texts => d.blockHosts texts

def ofAdditions (additions : List Addition) : Draft := additions.foldl add {}

theorem add_append (d e : Draft) (x : Addition) : (d.append e).add x = d.append (e.add x) := by
  cases x <;> simp [add, append, allow, allowAll, allowHosts, block, blockHosts]

theorem foldl_add_append (d e : Draft) (xs : List Addition) :
    xs.foldl add (d.append e) = d.append (xs.foldl add e) := by
  induction xs generalizing e with
  | nil => rfl
  | cons x xs ih => rw [List.foldl_cons, add_append, ih, List.foldl_cons]

theorem ofAdditions_append (xs ys : List Addition) :
    ofAdditions (xs ++ ys) = (ofAdditions xs).append (ofAdditions ys) := by
  have hnil (d : Draft) : d.append {} = d := by rw [append, List.append_nil, List.append_nil]
  rw [ofAdditions, List.foldl_append, ← hnil (xs.foldl add {}), foldl_add_append]
  rfl

end Draft

/-- How a policy is put together: it is built from a draft, or merged from two. -/
inductive Recipe where
  | build (additions : List Draft.Addition)
  | merge (x y : Recipe)

namespace Recipe

def policy : Recipe → Except Pattern.Rejection Policy
  | build additions => Policy.build (.ofAdditions additions)
  | merge x y => do return (← x.policy).merge (← y.policy)

/-- All texts that go into a policy, the ones of the first part first. -/
def draft : Recipe → Draft
  | build additions => .ofAdditions additions
  | merge x y => x.draft.append y.draft

/-- A policy is put together in whatever steps as it is built in one. -/
theorem policy_eq_ok_iff {x : Recipe} {c : Policy} :
    x.policy = .ok c ↔ Policy.build x.draft = .ok c := by
  induction x generalizing c with
  | build additions => exact Iff.rfl
  | merge x y ihx ihy =>
    rw [policy, draft, build_append]
    constructor
    · intro h
      obtain ⟨a, ha, h⟩ := exists_of_bind_eq_ok h
      obtain ⟨b, hb, h⟩ := exists_of_bind_eq_ok h
      exact ⟨a, b, ihx.mp ha, ihy.mp hb, (Except.ok.inj h).symm⟩
    · rintro ⟨a, b, ha, hb, rfl⟩
      rw [ihx.mpr ha, ihy.mpr hb]
      rfl

end Recipe

theorem blockAll_merge {d : Draft} {c : Policy} (h : build d = .ok c) : blockAll.merge c = c := by
  have hempty : build {} = .ok blockAll := rfl
  have hd : build (Draft.append {} d) = .ok (blockAll.merge c) :=
    build_append.mpr ⟨blockAll, c, hempty, h, rfl⟩
  exact Except.ok.inj (hd.symm.trans h)

/-- Policies are sets of patterns in a canonical form. Whatever is built and merged lists each
pattern once, in the spelling and at the place in which it came first among all texts. Building
together is building apart and merging; so merging is associative, adds nothing where a policy is
merged with itself, and has the empty policy for its unit. What cannot be built is rejected for the
first text that is no pattern. -/
theorem merge_canonical :
    (∀ (x : Recipe) c, x.policy = .ok c →
      ListsOnce x.draft.allowed c.allowed ∧ ListsOnce x.draft.blocked c.blocked ∧
        c.merge c = c ∧ c.merge blockAll = c ∧ blockAll.merge c = c) ∧
    (∀ c d : Policy, (c.merge d).generation = 0) ∧
    (∀ xs ys c, build (.ofAdditions (xs ++ ys)) = .ok c ↔
      ∃ a b, build (.ofAdditions xs) = .ok a ∧ build (.ofAdditions ys) = .ok b ∧ c = a.merge b) ∧
    (∀ a b c : Policy, (a.merge b).merge c = a.merge (b.merge c)) ∧
    (∀ (d : Draft) r, build d = .error r ↔ FirstRejection (d.allowed ++ d.blocked) r) := by
  refine ⟨fun x c h => ?_, fun _ _ => rfl, fun xs ys c => ?_, merge_assoc,
    fun _ _ => build_eq_error_iff⟩
  · have hbuild := Recipe.policy_eq_ok_iff.mp h
    obtain ⟨hallowed, hblocked, hgeneration⟩ := build_eq_ok_iff.mp hbuild
    exact ⟨listsOnce_of_compile hallowed, listsOnce_of_compile hblocked, merge_self hgeneration,
      merge_blockAll hgeneration, blockAll_merge hbuild⟩
  · rw [Draft.ofAdditions_append, build_append]

/-- Of two spellings the first one stays, within a draft and across drafts. -/
theorem merge_canonical_respelled : ∃ c,
    (Recipe.merge (.build [.allow " Db.test ", .blockHosts ["ADS.*", "ads.*"]])
      (.build [.allowHosts ["db.TEST"], .allowAll])).policy = .ok c ∧
    c.allowed.map (·.source) = ["Db.test", "*"] ∧ c.blocked.map (·.source) = ["ADS.*"] ∧
    c.merge c = c := by
  have hpolicy : (Recipe.merge (.build [.allow " Db.test ", .blockHosts ["ADS.*", "ads.*"]])
      (.build [.allowHosts ["db.TEST"], .allowAll])).policy = .ok _ := rfl
  exact ⟨_, hpolicy, by decide +kernel, by decide +kernel,
    (merge_canonical.1 _ _ hpolicy).2.2.1⟩

end Policy
end Cordon
