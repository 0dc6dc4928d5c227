import Cordon.Proofs.Store.Overlap
/-!
What a read is given while other threads set and clear the store.
-/
namespace Cordon.Interleaving

open Stores

variable {log recent older during before : List Event} {x y : Process} {w : Stores} {s : StoreId}
  {t : Thread} {u : ThreadId} {p q : Policy} {request : Request} {rest : Rest}
  {result : Option Policy}

namespace Traced

/-- What a read is given was set by a call that started after all the clearings that had ended when
the read started. -/
theorem read_since (H : Traced s log x) (few : clears s log < UInt64.size)
    (htask : x.task u = some ⟨t, s, request, rest⟩) (hread : request.isWrite = false)
    (hstep : rest.step s t x.stores = (.ends (some p), w)) :
    ∃ recent t' q older, log = recent ++ .starts t' s (.set q) :: older ∧ p = stamp s older q ∧
      clears s (since u log) ≤ clears s older := by
  obtain ⟨hstamped, hgen⟩ | hfresh := H.read_origin htask hread hstep
  · obtain ⟨recent, t', q, older, hlog, hp, holder⟩ :=
      hstamped.since few (clears_since_le u) hgen
    exact ⟨recent, t', q, older, hlog, hp, Nat.le_of_eq holder.symm⟩
  · obtain ⟨recent, t', q, older, hlog, hp, hrecent⟩ := hfresh
    have holder : clears s log = clears s older := by
      rw [hlog, clears_append, clears_starts, hrecent, Nat.zero_add]
    exact ⟨recent, t', q, older, hlog, hp, holder ▸ clears_since_le u⟩

/-- What a call has set is not given to a read if a clearing has ended between the end of that call
and the start of the read: it would bear the number of clearings of both times. -/
theorem read_ne_set (H : Traced s log x) (few : clears s log < UInt64.size)
    (htask : x.task u = some ⟨t, s, request, rest⟩) (hread : request.isWrite = false)
    (hstep : rest.step s t x.stores = (.ends result, w)) {t' : Thread} {set : Option Policy}
    (hlog : log = recent ++ .ends t' s (.set q) set :: older)
    (hcleared : clears s older < clears s (since u log)) : result ≠ set := by
  rintro rfl
  obtain ⟨p, rfl, ⟨_, _, q₁, older₁, hlog₁, hp₁, -⟩, -⟩ := H.ended recent t' q result older hlog
  obtain ⟨_, _, q₂, older₂, hlog₂, hp₂, hsince⟩ := H.read_since few htask hread hstep
  have holder₁ : clears s older₁ ≤ clears s older := by
    rw [hlog₁, clears_append, clears_starts]
    exact Nat.le_add_left ..
  have holder₂ : clears s older₂ ≤ clears s log := by
    rw [hlog₂, clears_append, clears_starts]
    exact Nat.le_add_left ..
  have hgen := congrArg Policy.generation (hp₁.symm.trans hp₂)
  have heq : clears s older₁ = clears s older₂ := ofNat_inj (by omega) (by omega) hgen
  omega

/-- A thread that the harness does not own is given something while a policy is active. -/
theorem read_isSome (H : Traced s log x) (htask : x.task u = some ⟨t, s, request, rest⟩)
    (hread : request.isWrite = false) (hstep : rest.step s t x.stores = (.ends result, w))
    (hharness : (x.stores.store s).harness t = false) (hactive : Active s recent log) :
    result.isSome = true := by
  obtain ⟨-, -, hfits⟩ := H.task u _ htask rfl
  cases hfits with
  | fill | publish | empty | advance => cases hread
  | look =>
    rw [Rest.step] at hstep
    split at hstep
    · split at hstep
      · cases hstep
        rfl
      · cases hstep
    · cases hstep
  | classify =>
    rw [Rest.step, hharness] at hstep
    cases hstep
  | share =>
    obtain ⟨hfallback, -⟩ := Prod.mk.inj hstep
    rw [← Progress.ends.inj hfallback]
    exact (H.active recent hactive).1

/-- While there is a clearing between any two calls that set the store, a read is given what was set
last, from the end of the call that set it to the start of the next clearing. -/
theorem read_active (H : Traced s log x) (few : clears s log < UInt64.size)
    (htask : x.task u = some ⟨t, s, request, rest⟩) (hread : request.isWrite = false)
    (hstep : rest.step s t x.stores = (.ends result, w))
    (hharness : (x.stores.store s).harness t = false) (hspaced : Spaced s log)
    {t' : Thread} {set : Option Policy}
    (hlog : log = recent ++ .ends t' s (.set q) set :: older)
    (hclear : ∀ t'', .starts t'' s .clear ∉ recent)
    (hsince : clears s older ≤ clears s (since u log)) :
    result = set ∧ ∃ n, set = some { q with generation := n } := by
  have hactive : Active s recent log := ⟨⟨t', q, set, older, hlog⟩, hclear⟩
  obtain ⟨p, rfl⟩ := Option.isSome_iff_exists.mp
    (H.read_isSome htask hread hstep hharness hactive)
  obtain ⟨c, rfl, hc, hq⟩ := H.ended recent t' q set older hlog
  have hrecent := (H.active recent hactive).2
  have hc : Fresh s c log := by
    rw [hlog]
    exact (hc.cons rfl).append hrecent
  have hnow : clears s (since u log) = clears s log := by
    refine Nat.le_antisymm (clears_since_le u) (Nat.le_trans (Nat.le_of_eq ?_) hsince)
    rw [hlog, clears_append, hrecent, Nat.zero_add]
    exact clears_cons
  have hp : Fresh s p log := by
    obtain ⟨hstamped, hgen⟩ | hfresh := H.read_origin htask hread hstep
    · exact hstamped.fresh few (hnow ▸ hgen)
    · exact hfresh
  exact ⟨congrArg some (hp.unique hc hspaced), c.generation, congrArg some hq⟩

end Traced

/-- What a thread is given that reads a store while others set, clear and read it and take views of it
over. It is nothing that had been set when the latest clearing ended before the read started. A thread
that the harness does not own is given just what was set last, if that call ended before the read
started, no clearing has started since, and the store is cleared between any two calls that set it.
Whatever a thread is given was set by a call that started before the read ended, and after all the
clearings that had ended when the read started. The bound is there because the generation is a number
of 64 bits. -/
theorem read_while_written (run : Reaches (during ++ .starts t s request :: before) x)
    (step : Step x [.ends t s request result] y) (hread : request.isWrite = false)
    (hduring : ∀ t' s' request', .starts t' s' request' ∈ during → t'.id ≠ t.id)
    (few : clears s (during ++ .starts t s request :: before) < UInt64.size) :
    (∀ recent u r older, before = recent ++ .ends u s .clear r :: older →
      ∀ u' q, .ends u' s (.set q) result ∉ older) ∧
    ((x.stores.store s).harness t = false → Spaced s (during ++ .starts t s request :: before) →
      ∀ recent u q r older, before = recent ++ .ends u s (.set q) r :: older →
      (∀ u', .starts u' s .clear ∉ during ++ .starts t s request :: recent) →
      result = r ∧ ∃ n, r = some { q with generation := n }) ∧
    ∀ p, result = some p → ∃ recent u q older,
      during ++ .starts t s request :: before = recent ++ .starts u s (.set q) :: older ∧
      p = stamp s older q ∧
      ∀ between, before = between ++ .starts u s (.set q) :: older →
      ∀ u' r, .ends u' s .clear r ∉ between := by
  have H := run.traced s
  cases step with
  | ends htask hstep =>
  obtain ⟨rfl, -, -⟩ := H.task _ _ htask rfl
  have hsince : since t.id (during ++ .starts t s request :: before) = before := since_during hduring
  refine ⟨fun recent u r older hbefore u' q hmem => ?_,
    fun hharness hspaced recent u q r older hbefore hclear => ?_, fun p hp => ?_⟩
  · obtain ⟨mid, oldest, rfl⟩ := List.append_of_mem hmem
    have hlog : during ++ .starts t s request :: before =
        (during ++ .starts t s request :: (recent ++ .ends u s .clear r :: mid)) ++
          .ends u' s (.set q) result :: oldest := by
      simp [hbefore]
    refine H.read_ne_set few htask hread hstep hlog ?_ rfl
    rw [hsince, hbefore]
    simp only [clears_append, clears_cons, Event.endsClear, decide_true, if_true]
    omega
  · have hlog : during ++ .starts t s request :: before =
        (during ++ .starts t s request :: recent) ++ .ends u s (.set q) r :: older := by
      simp [hbefore]
    refine H.read_active few htask hread hstep hharness hspaced hlog hclear ?_
    rw [hsince, hbefore, clears_append, clears_cons]
    omega
  · subst hp
    obtain ⟨recent, u, q, older, hlog, rfl, hafter⟩ := H.read_since few htask hread hstep
    refine ⟨recent, u, q, older, hlog, rfl, fun between hbetween => ?_⟩
    rw [hsince, hbetween, clears_append, clears_starts] at hafter
    have hzero : clears s between = 0 := by omega
    exact clears_eq_zero hzero

/-- A test of a thread, the newest event first, and the start of its clearing, in which another
thread starts to read. -/
def firstTest : List Event :=
  [.starts ⟨3, none⟩ 1 .get, .starts ⟨1, none⟩ 1 .clear,
    .ends ⟨1, none⟩ 1 .snapshot (some .blockAll), .starts ⟨1, none⟩ 1 .snapshot,
    .ends ⟨1, none⟩ 1 (.set .blockAll) (some .blockAll), .starts ⟨1, none⟩ 1 (.set .blockAll)]

/-- The test is cleared, and the next one is set up. -/
def secondTest : List Event :=
  [.ends ⟨1, none⟩ 1 (.set .blockAll) (some ⟨[], [], 1⟩), .starts ⟨1, none⟩ 1 (.set .blockAll)] ++
    .ends ⟨1, none⟩ 1 .clear none :: firstTest

/-- A thread that has taken over the view of the first test reads while the second one runs. The
other reader ends in between. -/
def twoReads : List Event :=
  [.ends ⟨3, none⟩ 1 .get (some ⟨[], [], 1⟩)] ++ .starts ⟨2, none⟩ 1 .get :: secondTest

theorem reaches_twoReads : ∃ x y, Reaches twoReads x ∧
    (x.stores.store 1).harness ⟨2, none⟩ = false ∧
    Step x [.ends ⟨2, none⟩ 1 .get (some ⟨[], [], 1⟩)] y := by
  have free {x : Process} {request : Request} (h : request.isWrite = false)
      (hwrite : request.isWrite = true) : x.Unwritten 1 := by
    rw [h] at hwrite
    contradiction
  have run := Reaches.start.step (.create (Classifier.names ["harness-"]))
  -- the first test, and a thread that takes its view over
  have run := run.step
    (.starts rfl rfl (fun _ _ _ h => by cases h) : Step _ [.starts ⟨1, none⟩ 1 (.set .blockAll)] _)
  have run := (run.step (.goes (u := 1) rfl rfl)).step (.ends (u := 1) rfl rfl)
  have run := run.step
    (.starts rfl rfl (free rfl) : Step _ [.starts ⟨1, none⟩ 1 .snapshot] _)
  have run := run.step (.ends (u := 1) rfl rfl)
  have run := run.step (.attach (t := ⟨2, none⟩) List.mem_cons_self rfl)
  -- the clearing, while the other reader starts
  have run := run.step
    (.starts rfl rfl (fun _ u task h => by
      by_cases hu : u = 1 <;>
        simp [Process.setTask, Process.onStores, Process.keep, hu] at h) :
      Step _ [.starts ⟨1, none⟩ 1 .clear] _)
  have run := run.step (.goes (u := 1) rfl rfl)
  have run := run.step (.starts rfl rfl (free rfl) : Step _ [.starts ⟨3, none⟩ 1 .get] _)
  have run := run.step (.ends (u := 1) rfl rfl)
  -- the second test, while that reader is still inside its call
  have run := run.step
    (.starts rfl rfl (fun _ u task h _ => by
      by_cases hu : u = 1
      · simp [Process.setTask, Process.onStores, Process.keep, hu] at h
      · by_cases hu' : u = 3
        · simp only [Process.setTask, Process.onStores, Process.keep, hu', Nat.reduceEqDiff,
            if_true, if_false, Option.some.injEq] at h
          rw [← h]
          rfl
        · simp [Process.setTask, Process.onStores, Process.keep, hu, hu'] at h) :
      Step _ [.starts ⟨1, none⟩ 1 (.set .blockAll)] _)
  have run := (run.step (.goes (u := 1) rfl rfl)).step (.ends (u := 1) rfl rfl)
  have run := run.step (.starts rfl rfl (free rfl) : Step _ [.starts ⟨2, none⟩ 1 .get] _)
  have run := ((run.step (.goes (u := 3) rfl rfl)).step (.goes (u := 3) rfl rfl)).step
    (.ends (u := 3) rfl rfl)
  have run := (run.step (.goes (u := 2) rfl rfl)).step (.goes (u := 2) rfl rfl)
  exact ⟨_, _, run, rfl, .ends (u := 2) rfl rfl⟩

theorem spaced_twoReads : Spaced 1 twoReads := by
  intro recent t q between t' q' older h
  -- only the second of the two calls that set the store has another one before it
  have hbetween : between ++ .starts t' 1 (.set q') :: older =
      .ends ⟨1, none⟩ 1 .clear none :: firstTest := by
    simp only [twoReads, secondTest, firstTest, List.cons_append, List.nil_append,
      List.cons_eq_append_iff, List.cons.injEq, reduceCtorEq, false_and, and_false,
      Event.starts.injEq, Request.set.injEq, true_and, List.append_eq_nil_iff, List.nil_eq,
      exists_const, or_self, or_false, false_or] at h
    obtain ⟨_, -, _, -, _, -, -, -, h⟩ := h
    exact h
  cases between with
  | nil => cases (List.cons.inj hbetween).1
  | cons event between =>
    obtain ⟨rfl, -⟩ := List.cons.inj hbetween
    exact ⟨⟨1, none⟩, none, List.mem_cons_self⟩

/-- The thread is not given the view that it had taken over of the first test, but what the second
test has set. -/
theorem read_while_written_second : ∃ x y result, Reaches twoReads x ∧
    Step x [.ends ⟨2, none⟩ 1 .get result] y ∧
    (∀ u q, .ends u 1 (.set q) result ∉ firstTest) ∧ result = some ⟨[], [], 1⟩ ∧
    ∃ recent u q older, twoReads = recent ++ .starts u 1 (.set q) :: older ∧
      ∀ between, secondTest = between ++ .starts u 1 (.set q) :: older →
      ∀ u' r, .ends u' 1 .clear r ∉ between := by
  obtain ⟨x, y, run, hharness, step⟩ := reaches_twoReads
  have hduring (t' : Thread) (s' : StoreId) (request' : Request) (hmem : .starts t' s' request' ∈
      [Event.ends ⟨3, none⟩ 1 .get (some ⟨[], [], 1⟩)]) : t'.id ≠ 2 := by
    cases List.mem_singleton.mp hmem
  have hclear (u : Thread) : .starts u 1 .clear ∉
      [Event.ends ⟨3, none⟩ 1 .get (some ⟨[], [], 1⟩), .starts ⟨2, none⟩ 1 .get] := by
    simp
  obtain ⟨hold, hset, hany⟩ := read_while_written run step rfl hduring (by decide)
  obtain ⟨recent, u, q, older, hlog, -, hnone⟩ := hany _ rfl
  exact ⟨x, y, _, run, step, hold _ _ _ _ rfl,
    (hset hharness spaced_twoReads [] _ _ _ _ rfl hclear).1, recent, u, q, older, hlog, hnone⟩

end Cordon.Interleaving
