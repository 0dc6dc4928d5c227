import Cordon.Hook.Managed
import Cordon.Hook.Native
import Cordon.Proofs.Bridge.Answers
/-!
What the hooks have in common: a call that is live asks the engine that it resolves, and passes
where there is none or where that has no active policy. A call that is not live passes.
-/
namespace Cordon

variable {ε : Type} {m : Embedder ε} {w w' : World ε} {t : Thread} {b : Bridge} {d : Decision}

namespace Resolver

variable {r : Resolver} {unresolved : List Event} {question : Bridge → Act ε Decision}

/-- What a resolution gives. -/
def bridge? (w : World ε) : Resolver → Option Bridge
  | fixed b => some b
  | dynamic =>
    match w.registered with
    | some b => some (.direct b)
    | none =>
      (w.symbols.call w.clock (if w.exported then some () else none)).found.map fun _ => .exported

/-- A resolution does no more than keep what it found. -/
theorem run_resolve (r : Resolver) (w : World ε) :
    ∃ symbols, r.resolve.run w = (.ok (r.bridge? w), { w with symbols }) := by
  cases r with
  | fixed b => exact ⟨w.symbols, rfl⟩
  | dynamic =>
    rcases Option.eq_none_or_eq_some w.registered with hw | ⟨b, hw⟩
    · exact ⟨_, by simp only [resolve, Act.run_ofStep, bridge?, hw]; rfl⟩
    · refine ⟨w.symbols, ?_⟩
      change dynamic.resolve.run w = (.ok (dynamic.bridge? w), w)
      simp only [resolve, Act.run_ofStep, bridge?, hw]

theorem bridge?_of_resolve {b? : Option Bridge} (h : (r.resolve.run w).1 = .ok b?) :
    r.bridge? w = b? := by
  obtain ⟨symbols, hresolve⟩ := r.run_resolve w
  rw [hresolve] at h
  exact Except.ok.inj h

/-- A resolution that leads to a decision engine leads there as long as that is registered. -/
theorem bridge?_eq_of_registered (hb : r.bridge? w = some b)
    {e : Engine} (he : b.backend? w = some (.engine e)) (hw : w'.registered = w.registered) :
    r.bridge? w' = some b := by
  cases r with
  | fixed b => exact hb
  | dynamic =>
    rw [bridge?] at hb ⊢
    rw [hw]
    cases hreg : w.registered with
    | some registered =>
      rw [hreg] at hb
      exact hb
    | none =>
      rw [hreg] at hb
      obtain ⟨-, -, rfl⟩ := Option.map_eq_some_iff.mp hb
      rw [Bridge.backend?, hreg] at he
      contradiction

/-- Asks the engine that the resolver leads to, if that has an active policy; without an engine,
`unresolved` is counted. -/
def asked (m : Embedder ε) (t : Thread) (r : Resolver) (unresolved : List Event)
    (question : Bridge → Act ε Decision) : Act ε Decision := do
  match ← r.resolve with
  | none =>
    Act.modify fun w => { w with events := unresolved ++ w.events }
    return .allow
  | some bridge => if ← bridge.isActive m t then question bridge else return .allow

/-- Where a block comes from. -/
theorem asked_block_iff {attempt : BlockedAttempt} :
    ((r.asked m t unresolved question).run w).1 = .ok (.block attempt) ↔ ∃ b w₁ w₂,
      r.resolve.run w = (.ok (some b), w₁) ∧ (b.isActive m t).run w₁ = (.ok true, w₂) ∧
      ((question b).run w₂).1 = .ok (.block attempt) := by
  constructor
  · intro h
    obtain ⟨bridge, w₁, hresolve, h⟩ := Act.run_bind_eq_ok (Prod.ext h rfl)
    cases bridge with
    | none =>
      obtain ⟨-, w₂, -, h⟩ := Act.run_bind_eq_ok h
      exact nomatch congrArg Prod.fst h
    | some b =>
      obtain ⟨active, w₂, hactive, h⟩ := Act.run_bind_eq_ok h
      cases active with
      | false => exact nomatch congrArg Prod.fst h
      | true => exact ⟨b, w₁, w₂, hresolve, hactive, congrArg Prod.fst h⟩
  · rintro ⟨b, w₁, w₂, hresolve, hactive, h⟩
    rw [asked, Act.run_bind_ok hresolve]
    dsimp only
    rw [Act.run_bind_ok hactive]
    exact h

/-- An engine is asked the question if it says that it is active. -/
theorem run_asked (unresolved : List Event) (question : Bridge → Act ε Decision)
    (hw : w.Alike w') (hb : r.bridge? w' = some b) {active : Bool} {counted : List Event}
    (hactive : Act.Answers w (b.isActive m t) active [])
    (hd : active = true → Act.Answers w (question b) d counted) :
    ∃ w'', (r.asked m t unresolved question).run w' = (.ok (if active then d else .allow), w'') ∧
      w.Alike w'' ∧ w''.events = (if active then counted else []) ++ w'.events := by
  obtain ⟨symbols, hresolve⟩ := r.run_resolve w'
  rw [hb] at hresolve
  rw [asked, Act.run_bind_ok hresolve]
  cases active with
  | true => exact hactive.bind (hd rfl) _ (hw.symbols symbols)
  | false => exact hactive.bind (.pure Decision.allow) _ (hw.symbols symbols)

theorem run_asked_none (m : Embedder ε) (t : Thread) (unresolved : List Event)
    (question : Bridge → Act ε Decision) (hb : r.bridge? w = none) : ∃ symbols,
      (r.asked m t unresolved question).run w =
        (.ok .allow, { w with symbols, events := unresolved ++ w.events }) := by
  obtain ⟨symbols, hresolve⟩ := r.run_resolve w
  rw [hb] at hresolve
  rw [asked, Act.run_bind_ok hresolve]
  exact ⟨symbols, rfl⟩

end Resolver

namespace NativeHook

variable {i : TableId} {entry : NativeEntry} {question : Bridge → Act ε Decision}

theorem run_isHooked (hstate : (w.table i).state entry = .hooked) :
    (isHooked i entry).run w = (.ok true, w) := by
  rw [isHooked, Act.run_ofStep, hstate]

theorem run_guarded (hstate : (w.table i).state entry = .hooked) (hin : w.inHook t.id = false) :
    (guarded m t i entry question).run w =
      (((w.table i).resolver.asked m t [.passthrough entry .noEngine] question).bracket
        (·.setInHook t.id true) (·.setInHook t.id false)).run w := by
  rw [guarded, Act.run_bind_ok (run_isHooked hstate), if_pos rfl, once,
    Act.run_bind_ok (Act.run_read _ w), hin]
  rfl

/-- What a guard counts that passes a call without asking. -/
def skipped (w : World ε) (i : TableId) (entry : NativeEntry) : List Event :=
  match (w.table i).state entry with
  | .unhookable => [.passthrough entry .unhookable]
  | _ => []

theorem run_guarded_of_not_hooked (hstate : (w.table i).state entry ≠ .hooked) :
    (guarded m t i entry question).run w =
      (.ok .allow, { w with events := skipped w i entry ++ w.events }) := by
  have hhooked : (isHooked i entry).run w =
      (.ok false, { w with events := skipped w i entry ++ w.events }) := by
    rw [isHooked, Act.run_ofStep, skipped]
    cases h : (w.table i).state entry with
    | hooked => exact absurd h hstate
    | _ => rfl
  exact Act.run_bind_ok hhooked _

theorem run_guarded_of_inside (hin : w.inHook t.id = true) :
    (guarded m t i entry question).run w =
      (.ok .allow, { w with events := skipped w i entry ++ w.events }) := by
  by_cases hstate : (w.table i).state entry = .hooked
  · rw [guarded, Act.run_bind_ok (run_isHooked hstate), if_pos rfl, once,
      Act.run_bind_ok (Act.run_read _ w), hin, skipped, hstate]
    rfl
  · exact run_guarded_of_not_hooked hstate

end NativeHook

end Cordon
