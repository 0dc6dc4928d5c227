import Cordon.Proofs.Engine.Judgement
import Cordon.Proofs.Lifecycle.Run
import Cordon.Proofs.Policy.Union
import Cordon.Proofs.Store.Freshness
/-!
Every answer that any thread gets during a run of tests is the verdict on the live test. A run of
tests is a run of the store underneath, in which nothing is set since the latest clearing but the
policy of the live test.
-/
namespace Cordon.Lifecycle

open Stores

variable {l : Lifecycle} {harness : Classifier} {events : List Event} {b : Bench} {past : List Op}
  {x : Held} {a : Annotations} {policy : Policy}

/-! ## Resolution -/

/-- The policy that a test with these annotations activates, if any. -/
def activated (l : Lifecycle) (a : Annotations) : Option Policy :=
  match l.resolve a with
  | .ok policy => policy
  | .error _ => none

/-- What a bench keeps of the events that led there, told by the operations on the stores that they
came to. -/
structure Tracked (l : Lifecycle) (harness : Classifier) (events : List Event) (b : Bench)
    (past : List Op) : Prop where
  run : Run past b.held
  live : b.held.stores.live l.store = true
  harness : (b.held.stores.store l.store).harness = harness
  clears : clears l.store past = closed events
  /-- A test whose annotations do not resolve is never live. -/
  resolved : ∀ a, b.live = some a → ∃ policy?, l.resolve a = .ok policy?
  latest : latest l.store past = b.live.bind l.activated
  /-- Nothing but the policy of the live test is set between two clearings. -/
  only : ∀ q, SetSinceClear l.store q past → b.live.bind l.activated = some q

namespace Tracked

theorem start (run : Run past x) (hstore : x.stores.next = l.store) (harness : Classifier) :
    Tracked l harness [] ⟨(Op.create harness).apply x, none⟩ (.create harness :: past) := by
  obtain ⟨-, hclears, hlatest⟩ := run.traced.unmade l.store (Nat.le_of_eq hstore)
  refine ⟨run.step _ trivial, ?_, ?_, hclears, nofun, hlatest, fun q h => ?_⟩
  · simp [Op.apply, create, hstore]
  · simp [Op.apply, create, setStore, hstore]
  · have hsome := h.latest_isSome
    rw [latest_cons rfl, hlatest] at hsome
    contradiction

/-- An event that leaves the store itself alone. -/
theorem uses (H : Tracked l harness events b past) {event : Event} (hevent : event.isCloses = false)
    (op : Op) (hop : op.Possible b.held) (halters : op.alters l.store = false) :
    Tracked l harness (event :: events) { b with held := op.apply b.held } (op :: past) where
  run := H.run.step op hop
  live := live_apply H.live halters
  harness := by rw [store_apply (H.run.traced.lt_next H.live) halters, H.harness]
  clears := by
    rw [clears_cons, isClear_of_alters halters, H.clears, closed, closed, List.countP_cons, hevent]
  resolved := H.resolved
  latest := (latest_cons halters).trans H.latest
  only q h := H.only q (h.of_cons halters)

theorem opens (H : Tracked l harness events b past) (hlive : b.live = none) (t : Thread)
    (a : Annotations) : ∃ ops, Tracked l harness (.opens t a :: events)
      ((Event.opens t a).apply l b) (ops ++ past) := by
  have hlatest := H.latest
  have honly := H.only
  rw [hlive] at hlatest honly
  rw [Event.apply, beforeTest]
  cases hresolve : l.resolve a with
  | error rejection =>
    exact ⟨[], H.run, H.live, H.harness, H.clears, nofun, hlatest, honly⟩
  | ok policy? =>
    have hactivated : l.activated a = policy? := by rw [activated, hresolve]
    have hresolved : ∀ a', some a = some a' → ∃ policy?, l.resolve a' = .ok policy? := by
      rintro _ ⟨⟩
      exact ⟨_, hresolve⟩
    cases policy? with
    | none =>
      refine ⟨[], H.run, H.live, H.harness, H.clears, hresolved, ?_, ?_⟩
      · rw [Option.bind_some, hactivated]
        exact hlatest
      · intro q h
        exact absurd (honly q h) nofun
    | some policy =>
      refine ⟨[.set l.store t policy], H.run.step _ H.live, ?_, ?_, ?_, hresolved, ?_, ?_⟩
      · exact (congrFun (live_set ..) l.store).trans H.live
      · exact (congrArg Store.harness ((store_set ..).trans (if_pos rfl))).trans H.harness
      · exact H.clears
      · rw [Option.bind_some, hactivated, List.singleton_append, Stores.latest, if_pos rfl]
      · intro q h
        rcases h.inv with ⟨t', hset⟩ | ⟨-, h⟩
        · obtain ⟨-, -, rfl⟩ := Op.set.inj hset
          exact hactivated
        · exact absurd (honly q h) nofun

theorem closes (H : Tracked l harness events b past) (t : Thread) :
    Tracked l harness (.closes t :: events) ((Event.closes t).apply l b)
      (.clear l.store t :: past) where
  run := H.run.step _ H.live
  live := H.live
  harness := (congrArg Store.harness ((store_clear ..).trans (if_pos rfl))).trans H.harness
  clears := by
    rw [clears_cons, H.clears, closed, closed, List.countP_cons]
    simp [Op.isClear, Event.isCloses]
  resolved := nofun
  latest := if_pos rfl
  only q h := by
    rcases h.inv with ⟨t', hset⟩ | ⟨hclear, -⟩
    · contradiction
    · simp [Op.isClear] at hclear

/-- What a thread that the harness does not own is served: the policy of the live test, if it has
one. -/
theorem get (H : Tracked l harness events b past) (few : closed events < UInt64.size) {t : Thread}
    (ht : harness t = false) : ∃ generation, (b.held.stores.get l.store t).1 =
      (b.live.bind l.activated).map fun q => { q with generation } := by
  have few : Stores.clears l.store past < UInt64.size := H.clears ▸ few
  cases hget : (b.held.stores.get l.store t).1 with
  | some p =>
    obtain ⟨-, q, hset, hp⟩ := H.run.traced.since_clear few hget
    refine ⟨p.generation, ?_⟩
    rw [H.only q hset, Option.map_some, ← hp]
  | none =>
    refine ⟨0, ?_⟩
    -- a live policy is also the fallback, which such a thread takes at the latest
    cases hactivated : b.live.bind l.activated with
    | none => rfl
    | some q =>
      have hsome : (Stores.latest l.store past).isSome = true := by
        rw [H.latest, hactivated]
        rfl
      have := H.run.traced.get_isSome (H.harness ▸ ht) hsome
      rw [hget] at this
      contradiction

end Tracked

end Cordon.Lifecycle
