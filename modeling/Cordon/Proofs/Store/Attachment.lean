import Cordon.Proofs.Store.Freshness
import Cordon.Proofs.Store.Reads
/-!
What becomes of a thread that takes over a view which is no longer current. The view is never
served, but it takes the place of the thread's own slot; a thread whose slot was current is left with
what all threads share.
-/
namespace Cordon.Stores

variable {w : Stores} {s : StoreId} {p : Policy} {past : List Op} {x : Held}

/-- What a store serves to a thread that has no current slot. -/
def shared (w : Stores) (s : StoreId) (t : Thread) : Option Policy :=
  if (w.store s).harness t then none else (w.store s).fallback

/-- The thread's slot, if it is current. -/
def current? (w : Stores) (s : StoreId) (t : Thread) : Option Policy :=
  (w.slot? s t.id).filter (·.generation = w.generation s)

/-- A read serves the slot while that is current, and else what is shared. -/
theorem get_eq_or (w : Stores) (s : StoreId) (t : Thread) :
    (w.get s t).1 = (w.current? s t).or (w.shared s t) :=
  get_fst w s t

theorem get_attach_of_ne (hs : w.live s = true) (hp : p.generation ≠ w.generation s) (t : Thread) :
    ((w.attach ⟨s, some p⟩ t).get s t).1 = w.shared s t := by
  have hstale : (some p).filter (·.generation = w.generation s) = none := by simp [hp]
  rw [get_fst, sight_attach ⟨s, some p⟩ hs t, if_pos rfl, Sight.attach, Sight.fill, Sight.get]
  dsimp only
  rw [if_pos rfl]
  exact congrArg (Option.or · (w.shared s t)) hstale

/-- A current slot of a reachable store was set since its latest clearing. -/
theorem Run.current?_eq_some (run : Run past x) (few : clears s past < UInt64.size) {t : Thread}
    (h : x.stores.current? s t = some p) :
    ∃ q, SetSinceClear s q past ∧ p = { q with generation := p.generation } := by
  have hget : (x.stores.get s t).1 = some p := by rw [get_eq_or, h, Option.some_or]
  exact (run.traced.since_clear few hget).2

/-- The fallback is there once anything is set, and was set since the latest clearing. -/
theorem Run.fallback_of_set (run : Run past x) {q : Policy} (h : SetSinceClear s q past) :
    ∃ q', SetSinceClear s q' past ∧
      (x.stores.store s).fallback = some { q' with generation := x.stores.generation s } := by
  obtain ⟨q', hq'⟩ := Option.isSome_iff_exists.mp h.latest_isSome
  refine ⟨q', setSinceClear_of_latest hq', ?_⟩
  rw [run.traced.fallback, hq', run.traced.generation]
  rfl

/-- A thread that takes over a view which is not current is served what it shares with all threads:
nothing if the harness owns it, and else the fallback. That is what it was served before, unless its
slot was current and holds something else. So nothing changes for a thread whose slot was not current;
nor for one that the harness does not own while a single policy has been set since the latest
clearing. The bound is there because the generation is a number of 64 bits. -/
theorem get_attach_stale (run : Run past x) (hs : x.stores.live s = true)
    (hp : p.generation ≠ x.stores.generation s) (t : Thread) :
    ((x.stores.attach ⟨s, some p⟩ t).get s t).1 = x.stores.shared s t ∧
    (((x.stores.attach ⟨s, some p⟩ t).get s t).1 = (x.stores.get s t).1 ↔
      x.stores.current? s t = none ∨ x.stores.current? s t = x.stores.shared s t) ∧
    ((x.stores.store s).harness t = false → clears s past < UInt64.size →
      (∀ q q', SetSinceClear s q past → SetSinceClear s q' past → q = q') →
      ((x.stores.attach ⟨s, some p⟩ t).get s t).1 = (x.stores.get s t).1) := by
  have hafter := get_attach_of_ne hs hp t
  have hiff : ((x.stores.attach ⟨s, some p⟩ t).get s t).1 = (x.stores.get s t).1 ↔
      x.stores.current? s t = none ∨ x.stores.current? s t = x.stores.shared s t := by
    rw [hafter, get_eq_or]
    cases x.stores.current? s t with
    | none => simp
    | some q => simp [eq_comm]
  refine ⟨hafter, hiff, fun hharness few hone => hiff.mpr ?_⟩
  cases hcurrent : x.stores.current? s t with
  | none => exact .inl rfl
  | some p₀ =>
    obtain ⟨q, hset, hq⟩ := run.current?_eq_some few hcurrent
    obtain ⟨q', hset', hfallback⟩ := run.fallback_of_set hset
    have hgeneration : p₀.generation = x.stores.generation s := by
      simpa using (Option.filter_eq_some_iff.mp hcurrent).2
    refine .inr ?_
    rw [shared, hharness, if_neg Bool.false_ne_true, hfallback, hone q' q hset' hset, hq,
      hgeneration]

/-- The operations of two tests, the newest first. A thread of the harness was given the view of the
second test, which is live. -/
def secondTest : List Op :=
  [.attach ⟨1, some ⟨[], [], 1⟩⟩ ⟨2, some "harness-resolver"⟩, .snapshot 1 ⟨1, none⟩,
    .set 1 ⟨1, none⟩ .blockAll, .clear 1 ⟨1, none⟩, .snapshot 1 ⟨1, none⟩,
    .set 1 ⟨1, none⟩ .blockAll, .create (Classifier.names ["harness-"])]

/-- What comes of the two tests. -/
def afterSecondTest : Held := secondTest.foldr (fun op x => op.apply x) {}

theorem run_secondTest : Run secondTest afterSecondTest :=
  ((((((Run.start.step (.create (Classifier.names ["harness-"])) trivial).step
    (.set 1 ⟨1, none⟩ .blockAll) rfl).step (.snapshot 1 ⟨1, none⟩) rfl).step
    (.clear 1 ⟨1, none⟩) rfl).step (.set 1 ⟨1, none⟩ .blockAll) rfl).step
    (.snapshot 1 ⟨1, none⟩) rfl).step (.attach ⟨1, some ⟨[], [], 1⟩⟩ ⟨2, some "harness-resolver"⟩)
    List.mem_cons_self

theorem setSinceClear_secondTest {q : Policy} (h : SetSinceClear 1 q secondTest) :
    q = .blockAll := by
  obtain ⟨_, hop⟩ | ⟨-, h⟩ := h.inv
  · contradiction
  obtain ⟨_, hop⟩ | ⟨-, h⟩ := h.inv
  · contradiction
  obtain ⟨_, hop⟩ | ⟨-, h⟩ := h.inv
  · exact (Op.set.inj hop).2.2.symm
  obtain ⟨_, hop⟩ | ⟨hclear, -⟩ := h.inv
  · contradiction
  · contradiction

/-- The thread of the harness takes over the view of the first test and is served nothing any more;
the thread of the test loses its slot too, and is served the same as before. -/
theorem get_attach_stale_harness :
    ⟨1, some .blockAll⟩ ∈ afterSecondTest.snapshots ∧
    ((afterSecondTest.stores.attach ⟨1, some .blockAll⟩ ⟨2, some "harness-resolver"⟩).get 1
      ⟨2, some "harness-resolver"⟩).1 = none ∧
    (afterSecondTest.stores.current? 1 ⟨1, none⟩).isSome = true ∧
    ((afterSecondTest.stores.attach ⟨1, some .blockAll⟩ ⟨1, none⟩).get 1 ⟨1, none⟩).1 =
      (afterSecondTest.stores.get 1 ⟨1, none⟩).1 := by
  have hstale : Policy.blockAll.generation ≠ afterSecondTest.stores.generation 1 := by decide
  have harness := get_attach_stale run_secondTest rfl hstale ⟨2, some "harness-resolver"⟩
  have test := get_attach_stale run_secondTest rfl hstale ⟨1, none⟩
  exact ⟨List.mem_cons_of_mem _ List.mem_cons_self, harness.1, rfl,
    test.2.2 rfl (by decide) fun q q' hq hq' =>
      (setSinceClear_secondTest hq).trans (setSinceClear_secondTest hq').symm⟩

/-- Taking over a view that is no longer current may change what a thread is served: a thread of the
harness loses the current view that it was given. -/
theorem attach_stale_not_neutral : ¬ ∀ past x, Run past x → ∀ s p t, x.stores.live s = true →
    ⟨s, some p⟩ ∈ x.snapshots → p.generation < x.stores.generation s →
    ((x.stores.attach ⟨s, some p⟩ t).get s t).1 = (x.stores.get s t).1 := by
  intro neutral
  have lost := neutral _ _ run_secondTest 1 .blockAll ⟨2, some "harness-resolver"⟩ rfl
    (List.mem_cons_of_mem _ List.mem_cons_self) (by decide)
  exact nomatch (lost : none = some _)

end Cordon.Stores
