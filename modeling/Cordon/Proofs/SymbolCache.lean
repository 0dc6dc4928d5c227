import Cordon.SymbolCache
import Mathlib.Data.List.Basic
/-!
Which calls of a cache look up, over any history of calls. The clock may go back between calls, and a
look-up may find something at any time; the cache itself remembers no more than what was found, and
when the latest look-up failed. That is enough to keep the look-ups apart and to end them.
-/
namespace Cordon.SymbolCache

variable {α : Type}

/-- A call at some time, with what a look-up would give then. -/
structure Call (α : Type) where
  time : Nat
  outcome : Option α

/-- The cache after a history of calls, of which the newest comes first. -/
def ofHistory (history : List (Call α)) : SymbolCache α :=
  history.foldr (fun x c => c.call x.time x.outcome) {}

/-- The calls of a history that looked up. -/
def lookups : List (Call α) → List (Call α)
  | [] => []
  | x :: earlier =>
    if (ofHistory earlier).looksUp x.time then x :: lookups earlier else lookups earlier

variable {c : SymbolCache α} {x : Call α} {made : List (Call α)}

/-! ## What the cache remembers -/

/-- The cache remembers of the look-ups that were made what the first of them found and, as long as
none found anything, when the latest was. -/
structure Remembers (c : SymbolCache α) (made : List (Call α)) : Prop where
  found : c.found = made.reverse.findSome? Call.outcome
  lastMiss : c.found = none → c.lastMiss = made.head?.map Call.time

namespace Remembers

theorem found_eq_none_iff (h : Remembers c made) :
    c.found = none ↔ ∀ y ∈ made, y.outcome = none := by
  rw [h.found, List.findSome?_eq_none_iff]
  simp only [List.mem_reverse]

/-- A call looks up if no look-up has found anything and the latest is long enough ago. -/
theorem looksUp_iff (h : Remembers c made) (now : Nat) :
    c.looksUp now = true ↔ (∀ y ∈ made, y.outcome = none) ∧
      ∀ y ∈ made.head?, y.time + retryInterval ≤ now := by
  rw [looksUp, Bool.and_eq_true, Option.isNone_iff_eq_none, ← h.found_eq_none_iff]
  refine and_congr_right fun hnone => ?_
  rw [h.lastMiss hnone]
  cases made.head? with
  | none => exact iff_of_true rfl nofun
  | some y =>
    -- A time before the last failure is no time after it, which is less than the interval.
    have hpos : 0 < retryInterval := by decide
    simp only [Option.map_some, decide_eq_true_eq, Option.mem_def, Option.some.injEq,
      forall_eq']
    omega

theorem empty : Remembers ({} : SymbolCache α) [] where
  found := rfl
  lastMiss _ := rfl

theorem call (h : Remembers c made) (x : Call α) : Remembers (c.call x.time x.outcome)
    (if c.looksUp x.time then x :: made else made) := by
  unfold SymbolCache.call
  split
  · next hlooks =>
    have hnone := h.found_eq_none_iff.mpr ((h.looksUp_iff x.time).mp hlooks).1
    have hfirst : (x :: made).reverse.findSome? Call.outcome = x.outcome := by
      rw [List.reverse_cons, List.findSome?_append, ← h.found, hnone]
      cases hx : x.outcome with
      | none => simp [hx]
      | some a => simp [hx]
    cases hx : x.outcome with
    | none => exact ⟨by rw [hfirst, hx]; exact hnone, fun _ => rfl⟩
    | some a => exact ⟨by rw [hfirst, hx], nofun⟩
  · exact h

end Remembers

theorem remembers_ofHistory (history : List (Call α)) :
    Remembers (ofHistory history) (lookups history) := by
  induction history with
  | nil => exact .empty
  | cons x earlier ih => exact ih.call x

/-! ## How far the look-ups are apart -/

/-- Each look-up comes the interval or more after every earlier one. -/
def Spaced (made : List (Call α)) : Prop :=
  made.Pairwise fun later earlier => earlier.time + retryInterval ≤ later.time

theorem Spaced.cons (h : Spaced made) (hx : ∀ y ∈ made.head?, y.time + retryInterval ≤ x.time) :
    Spaced (x :: made) := by
  refine List.pairwise_cons.mpr ⟨fun y hy => ?_, h⟩
  cases made with
  | nil => contradiction
  | cons latest made =>
    have hlatest := hx latest rfl
    rcases List.mem_cons.mp hy with rfl | hy
    · exact hlatest
    · have := (List.pairwise_cons.mp h).1 y hy
      omega

theorem spaced_lookups (history : List (Call α)) : Spaced (lookups history) := by
  induction history with
  | nil => exact List.Pairwise.nil
  | cons x earlier ih =>
    rw [lookups]
    split
    · next hlooks => exact ih.cons (((remembers_ofHistory earlier).looksUp_iff x.time).mp hlooks).2
    · exact ih

/-- The latest of some look-ups comes as many intervals after their start as there are others. -/
theorem Spaced.add_mul_le {start : Nat} (h : Spaced (x :: made))
    (hstart : ∀ y ∈ x :: made, start ≤ y.time) :
    start + retryInterval * made.length ≤ x.time := by
  induction made generalizing x with
  | nil => exact hstart x List.mem_cons_self
  | cons y made ih =>
    obtain ⟨hx, hy⟩ := List.pairwise_cons.mp h
    have hlatest := hx y List.mem_cons_self
    have hrest := ih hy fun z hz => hstart z (List.mem_cons_of_mem _ hz)
    rw [List.length_cons, Nat.mul_succ]
    omega

theorem Spaced.length_le {start length : Nat} (h : Spaced made)
    (hwindow : ∀ y ∈ made, start ≤ y.time ∧ y.time ≤ start + length) :
    made.length ≤ length / retryInterval + 1 := by
  cases made with
  | nil => exact Nat.zero_le _
  | cons x made =>
    have hfirst := h.add_mul_le fun y hy => (hwindow y hy).1
    have hlast := (hwindow x List.mem_cons_self).2
    refine Nat.succ_le_succ ((Nat.le_div_iff_mul_le (by decide)).mpr ?_)
    rw [Nat.mul_comm]
    omega

/-- Of the look-ups that were made, only the latest can have found anything. -/
theorem outcome_of_mem_tail_lookups (history : List (Call α)) :
    ∀ y ∈ (lookups history).tail, y.outcome = none := by
  induction history with
  | nil => exact nofun
  | cons x earlier ih =>
    rw [lookups]
    split
    · next hlooks => exact (((remembers_ofHistory earlier).looksUp_iff x.time).mp hlooks).1
    · exact ih

/-! ## Histories -/

/-- A call looks up just if no look-up before it found anything and the latest, if there was one, is
half a second ago or more; it gives what the first look-up found that found anything, be that its
own. So look-ups are half a second apart or more even where the clock goes back, any stretch of time
holds no more of them than that leaves room for, and none comes after one that found something. -/
theorem lookups_ofHistory (x : Call α) (earlier : List (Call α)) :
    ((ofHistory earlier).looksUp x.time = true ↔ (∀ y ∈ lookups earlier, y.outcome = none) ∧
      ∀ y ∈ (lookups earlier).head?, y.time + retryInterval ≤ x.time) ∧
    ((ofHistory earlier).call x.time x.outcome).found =
      (lookups (x :: earlier)).reverse.findSome? Call.outcome ∧
    (lookups (x :: earlier)).Pairwise (fun later earlier =>
      earlier.time + retryInterval ≤ later.time) ∧
    (∀ start length, (lookups (x :: earlier)).countP (fun y =>
      start ≤ y.time ∧ y.time ≤ start + length) ≤ length / retryInterval + 1) ∧
    ∀ y ∈ (lookups (x :: earlier)).tail, y.outcome = none := by
  have hspaced := spaced_lookups (x :: earlier)
  refine ⟨(remembers_ofHistory earlier).looksUp_iff x.time, (remembers_ofHistory (x :: earlier)).found,
    hspaced, fun start length => ?_, outcome_of_mem_tail_lookups (x :: earlier)⟩
  rw [List.countP_eq_length_filter]
  have hwindow : ∀ y ∈ (lookups (x :: earlier)).filter
      (fun y => start ≤ y.time ∧ y.time ≤ start + length),
      start ≤ y.time ∧ y.time ≤ start + length := fun y hy => by
    simpa using (List.mem_filter.mp hy).2
  exact Spaced.length_le (hspaced.filter _) hwindow

/-- The second call meets a clock that went back and is not let through, and the last one comes after
something was found. -/
example : (lookups ([⟨3000000000, some 2⟩, ⟨1500000000, some 1⟩, ⟨200000000, some 0⟩,
    ⟨1000000000, none⟩] : List (Call Nat))).map Call.time = [1500000000, 1000000000] := by
  decide

end Cordon.SymbolCache
