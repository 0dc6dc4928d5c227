import Cordon.Proofs.Hook.Effects
/-!
Which engine a hook call comes to. A dynamic hook asks what is registered when it runs; a look-up
by name leads through the exported functions to the same registration, so that nothing that was
found earlier outlives it. A fixed hook asks its own engine, and what is registered makes no
difference to an engine that does not look.
-/
namespace Cordon

variable {ε α β : Type} {m : Embedder ε} {w w' : World ε} {t : Thread} {b : Backend}

/-! ## Changes of the registration -/

inductive Change where
  | register (b : Backend)
  | unregister

namespace Change

/-- What is registered afterwards. -/
def backend? : Change → Option Backend
  | register b => some b
  | unregister => none

def apply (w : World ε) (c : Change) : World ε := { w with registered := c.backend? }

end Change

/-- What the last of some changes leaves registered; without any it is what was there. -/
def World.registeredAfter (w : World ε) (changes : List Change) : Option Backend :=
  (changes.getLast?.map Change.backend?).getD w.registered

/-- The functions that are exported, with their arguments as they come from another image. -/
inductive EntryPoint where
  | isActive
  | check (host : ForeignText) (port : Int) (caller : ForeignText)
  | checkConnection (address hostnames : ForeignText) (port : Int) (caller : ForeignText)
  | isExplicitlyBlocked (host : ForeignText)

/-- Calls an exported function and tells whether its answer is other than 0. -/
def EntryPoint.run (m : Embedder ε) (t : Thread) : EntryPoint → Act ε Bool
  | isActive => Exported.isActive m t
  | check host port caller => Option.isSome <$> Exported.check m t host port caller
  | checkConnection address hostnames port caller =>
    Option.isSome <$> Exported.checkConnection m t address hostnames port caller
  | isExplicitlyBlocked host => Exported.isExplicitlyBlocked m t host

theorem EntryPoint.within_run {r : World ε → World ε → Prop} (H : World.Patient r)
    (hm : m.Within r) (t : Thread) (x : EntryPoint) : Act.Within r (x.run m t) := by
  cases x with
  | isActive => exact Exported.within_isActive H hm t
  | check host port caller => exact (Exported.within_check H hm t host port caller).map H _
  | checkConnection address hostnames port caller =>
    exact (Exported.within_checkConnection H hm t address hostnames port caller).map H _
  | isExplicitlyBlocked host => exact Exported.within_isExplicitlyBlocked H hm t host

theorem World.tolerant_registered :
    World.Tolerant fun w w' : World ε => w'.registered = w.registered where
  refl _ := rfl
  trans h h' := h'.trans h
  get _ _ _ := rfl
  decide _ _ _ _ _ _ := rfl
  decideConnection _ _ _ _ _ _ _ := rfl
  symbols _ _ := rfl
  setInHook _ _ _ := rfl
  count _ _ := rfl

/-! ## Without a registration -/

section Unregistered

variable (hw : w.registered = none)
include hw

theorem Exported.run_ask_none (fallback : α) (question : Backend → Act ε α) :
    (ask fallback question).run w = (.ok fallback, w) := by
  rw [ask, Act.run_bind_ok (Act.run_read _ w), hw]
  rfl

theorem EntryPoint.run_of_unregistered (m : Embedder ε) (t : Thread) (x : EntryPoint) :
    (x.run m t).run w = (.ok false, w) := by
  cases x with
  | isActive => exact Exported.run_ask_none hw false _
  | check host port caller =>
    rw [run, Exported.check]
    split
    · exact Act.run_map_ok (Exported.run_ask_none hw none _) _
    · rfl
  | checkConnection address hostnames port caller =>
    rw [run, Exported.checkConnection]
    split
    · exact Act.run_map_ok (Exported.run_ask_none hw none _) _
    · rfl
  | isExplicitlyBlocked host =>
    rw [run, Exported.isExplicitlyBlocked]
    split
    · exact Exported.run_ask_none hw false _
    · rfl

/-- What a dynamic resolution finds by name says that nothing is active. -/
theorem Resolver.run_asked_of_unregistered (m : Embedder ε) (t : Thread)
    (unresolved : List Event) (question : Bridge → Act ε Decision) :
    ∃ w', (dynamic.asked m t unresolved question).run w = (.ok .allow, w') := by
  cases hb : dynamic.bridge? w with
  | none =>
    obtain ⟨symbols, hasked⟩ := run_asked_none m t unresolved question hb
    exact ⟨_, hasked⟩
  | some bridge =>
    obtain ⟨symbols, hresolve⟩ := dynamic.run_resolve w
    rw [hb] at hresolve
    rw [bridge?, hw] at hb
    obtain ⟨-, -, rfl⟩ := Option.map_eq_some_iff.mp hb
    refine ⟨{ w with symbols }, ?_⟩
    have hactive : (Bridge.exported.isActive m t).run { w with symbols } =
        (.ok false, { w with symbols }) :=
      Exported.run_ask_none (w := { w with symbols }) hw false _
    rw [asked, Act.run_bind_ok hresolve]
    exact Act.run_bind_ok hactive _

theorem HookCall.run_of_unregistered (m : Embedder ε) (t : Thread) {c : HookCall}
    (hc : c.resolver w = .dynamic) : ∃ w', (c.run m t).run w = (.ok .allow, w') := by
  cases hlive : c.isLive w t with
  | false => exact run_of_not_live hlive
  | true =>
    have henter : (c.enter w t).registered = none := by
      cases c with
      | _ => exact hw
    obtain ⟨w', hasked⟩ := Resolver.run_asked_of_unregistered henter m t c.unresolved
      (c.question m t ·)
    rw [run_of_live hlive, hc]
    exact ⟨_, Act.run_bracket_ok hasked _⟩

end Unregistered

/-! ## With one -/

namespace HookCall

/-- What an engine says of a call: its answer to the question if it has an active policy. -/
def verdict (m : Embedder ε) (t : Thread) (bridge : Bridge) (c : HookCall) : Act ε Decision :=
  Act.bracket (c.enter · t) (c.leave · t) do
    if ← bridge.isActive m t then c.question m t bridge else return .allow

theorem run_of_fixed {bridge : Bridge} {c : HookCall} (hc : c.resolver w = .fixed bridge)
    (h : c.isLive w t = true) : (c.run m t).run w = (c.verdict m t bridge).run w := by
  rw [run_of_live h, hc]
  rfl

theorem run_of_registered {c : HookCall} (hw : w.registered = some b)
    (hc : c.resolver w = .dynamic) (h : c.isLive w t = true) :
    (c.run m t).run w = (c.verdict m t (.direct b)).run w := by
  have hresolve : Resolver.dynamic.resolve.run (c.enter w t) =
      (.ok (some (.direct b)), c.enter w t) := by
    simp only [Resolver.resolve, Act.run_ofStep, c.registered_enter, hw]
  rw [run_of_live h, hc, verdict, Act.bracket, Act.bracket, ExceptT.run_mk, ExceptT.run_mk,
    Resolver.asked, Act.run_bind_ok hresolve]

end HookCall

/-! ## Engines that do not look at the registration -/

/-- The action comes to the same whatever is registered, and leaves it. -/
def Act.IgnoresRegistration (x : Act ε α) : Prop := ∀ w registered,
  x.run { w with registered } = ((x.run w).1, { (x.run w).2 with registered })

/-- An engine whose answers do not depend on what is registered. -/
structure Backend.IgnoresRegistration (m : Embedder ε) (b : Backend) : Prop where
  isActive : ∀ t, (b.isActive m t).IgnoresRegistration
  check : ∀ t host port caller, (b.check m t host port caller).IgnoresRegistration
  checkConnection : ∀ t address names port caller,
    (b.checkConnection m t address names port caller).IgnoresRegistration

namespace Act.IgnoresRegistration

variable {x : Act ε α}

theorem pure (a : α) : IgnoresRegistration (Pure.pure a : Act ε α) := fun _ _ => rfl

theorem read {f : World ε → α} (h : ∀ w registered, f { w with registered } = f w) :
    IgnoresRegistration (Act.read f) := by
  intro w registered
  rw [run_read, h]
  rfl

theorem bind {f : α → Act ε β} (hx : x.IgnoresRegistration)
    (hf : ∀ a, (f a).IgnoresRegistration) : (x >>= f).IgnoresRegistration := by
  intro w registered
  have hxw := hx w registered
  rcases h : x.run w with ⟨fault | a, w'⟩
  all_goals rw [h] at hxw
  · rw [run_bind_error hxw, run_bind_error h]
  · rw [run_bind_ok hxw, run_bind_ok h]
    exact hf a w' registered

theorem bracket (hx : x.IgnoresRegistration) {before after : World ε → World ε}
    (hbefore : ∀ w registered, before { w with registered } = { before w with registered })
    (hafter : ∀ w registered, after { w with registered } = { after w with registered }) :
    (x.bracket before after).IgnoresRegistration := by
  intro w registered
  simp only [Act.bracket, ExceptT.run_mk]
  rw [hbefore, hx]
  exact congrArg (Prod.mk _) (hafter _ registered)

end Act.IgnoresRegistration

theorem Backend.ignoresRegistration_engine (m : Embedder ε) (e : Engine) :
    (Backend.engine e).IgnoresRegistration m where
  isActive _ _ _ := rfl
  check _ _ _ _ _ _ := rfl
  checkConnection _ _ _ _ _ _ _ := rfl

namespace HookCall

theorem ignoresRegistration_verdict (hb : b.IgnoresRegistration m) (t : Thread) (c : HookCall) :
    (c.verdict m t (.direct b)).IgnoresRegistration := by
  refine Act.IgnoresRegistration.bracket ((hb.isActive t).bind fun active => ?_) ?_ ?_
  · cases active with
    | false => exact .pure _
    | true =>
      cases c with
      | lookup i host caller => exact hb.check t host _ caller
      | connect i target caller =>
        exact (Act.IgnoresRegistration.read fun _ _ => rfl).bind fun names =>
          hb.checkConnection t _ names _ caller
      | prologue hooks entry host => exact hb.check t host _ _
  · intro w registered
    cases c <;> rfl
  · intro w registered
    cases c <;> rfl

theorem run_withRegistered (hb : b.IgnoresRegistration m) {c : HookCall}
    (hc : c.resolver w = .fixed (.direct b)) (t : Thread) (registered : Option Backend) :
    (c.run m t).run { w with registered } =
      (((c.run m t).run w).1, { ((c.run m t).run w).2 with registered }) := by
  have hlive : c.isLive { w with registered } t = c.isLive w t := by cases c <;> rfl
  cases h : c.isLive w t with
  | false =>
    rw [run_eq_of_not_live (hlive.trans h), run_eq_of_not_live h]
    cases c <;> rfl
  | true =>
    have hc' : c.resolver { w with registered } = .fixed (.direct b) := by
      cases c <;> exact hc
    rw [run_of_fixed hc' (hlive.trans h), run_of_fixed hc h]
    exact ignoresRegistration_verdict hb t c w registered

end HookCall

/-! ## Runs -/

namespace Registration

/-- The worlds that come about while engines are registered and unregistered, with those changes,
oldest first. Hooks and exported functions run in between; the changes that engines of the embedding
program make meanwhile count with the others. Everything else in the world may change, so that the
exported functions may be found by name at any time, or not. -/
inductive Run (m : Embedder ε) : List Change → World ε → Prop
  | start {w : World ε} : w.registered = none → Run m [] w
  | change {w : World ε} : Run m changes w → (c : Change) → Run m (changes ++ [c]) (c.apply w)
  | hook {w : World ε} : Run m changes w → (t : Thread) → (c : HookCall) →
    ((c.run m t).run w).2.registered = w.registeredAfter meanwhile →
    Run m (changes ++ meanwhile) ((c.run m t).run w).2
  | entry {w : World ε} : Run m changes w → (t : Thread) → (x : EntryPoint) →
    ((x.run m t).run w).2.registered = w.registeredAfter meanwhile →
    Run m (changes ++ meanwhile) ((x.run m t).run w).2
  | other {w w' : World ε} : Run m changes w → w'.registered = w.registered → Run m changes w'

variable {changes : List Change}

/-- Nothing but the last change counts. -/
theorem Run.registered (run : Run m changes w) :
    w.registered = changes.getLast?.bind Change.backend? := by
  have registeredAfter_eq {w w' : World ε} {changes : List Change} (meanwhile : List Change)
      (hw : w.registered = changes.getLast?.bind Change.backend?)
      (h : w'.registered = w.registeredAfter meanwhile) :
      w'.registered = (changes ++ meanwhile).getLast?.bind Change.backend? := by
    rw [h, World.registeredAfter, hw, List.getLast?_append]
    cases meanwhile.getLast? <;> rfl
  induction run with
  | start hw => exact hw
  | change run c ih => exact registeredAfter_eq [c] ih rfl
  | hook run t c h ih => exact registeredAfter_eq _ ih h
  | entry run t x h ih => exact registeredAfter_eq _ ih h
  | other run h ih => exact h.trans ih

theorem registered_eq_none (run : Run m changes w)
    (h : ∀ b, changes.getLast? ≠ some (.register b)) : w.registered = none := by
  rw [run.registered]
  rcases hlast : changes.getLast? with - | (b | -)
  · rfl
  · exact absurd hlast (h b)
  · rfl

/-- The registration governs every dynamic hook. A call takes the verdict of the engine that was
registered last, unless that was unregistered; then every dynamic hook lets everything pass and every
exported function answers 0, whatever was found by name before. A fixed hook asks its own engine:
with one that does not look at the registration, as no decision engine does, registering and
unregistering change neither what it answers nor what it does. -/
theorem registration_governs (run : Run m changes w) (t : Thread) :
    (∀ b, changes.getLast? = some (.register b) → ∀ c : HookCall, c.resolver w = .dynamic →
      (c.isLive w t = true → (c.run m t).run w = (c.verdict m t (.direct b)).run w) ∧
      (c.isLive w t = false → ((c.run m t).run w).1 = .ok .allow)) ∧
    ((∀ b, changes.getLast? ≠ some (.register b)) →
      (∀ c : HookCall, c.resolver w = .dynamic → ((c.run m t).run w).1 = .ok .allow) ∧
      ∀ x : EntryPoint, (x.run m t).run w = (.ok false, w)) ∧
    (∀ b, b.IgnoresRegistration m → ∀ c : HookCall, c.resolver w = .fixed (.direct b) →
      ∀ change : Change, (c.run m t).run (change.apply w) =
        (((c.run m t).run w).1, change.apply ((c.run m t).run w).2)) ∧
    (∀ e, (Backend.engine e).IgnoresRegistration m) ∧
    ((m.Within fun w w' => w'.registered = w.registered) →
      (∀ c : HookCall, Run m changes ((c.run m t).run w).2) ∧
      ∀ x : EntryPoint, Run m changes ((x.run m t).run w).2) := by
  have hregistered := run.registered
  refine ⟨fun b hb c hc => ⟨fun hlive => ?_, fun hlive => ?_⟩, fun hnone => ⟨fun c hc => ?_,
    fun x => ?_⟩, fun b hb c hc change => ?_, fun e => Backend.ignoresRegistration_engine m e,
    fun hm => ⟨fun c => ?_, fun x => ?_⟩⟩
  · rw [hb] at hregistered
    exact HookCall.run_of_registered hregistered hc hlive
  · obtain ⟨w', hallow⟩ := HookCall.run_of_not_live (m := m) hlive
    exact congrArg Prod.fst hallow
  · obtain ⟨w', hallow⟩ := HookCall.run_of_unregistered (registered_eq_none run hnone) m t hc
    exact congrArg Prod.fst hallow
  · exact x.run_of_unregistered (registered_eq_none run hnone) m t
  · exact HookCall.run_withRegistered hb hc t change.backend?
  · exact run.other (c.within_run World.tolerant_registered hm t w)
  · exact run.other (x.within_run World.tolerant_registered.toPatient hm t w)

/-- An engine that was found by name before it was registered is not asked after it is
unregistered. -/
theorem registration_governs_found : ∃ w w' : World Unit,
    Run .passing [.register (.engine { store := 1 })] w ∧ w.symbols.found = some () ∧
      ((NativeHook.guardLookup .passing ⟨1, none⟩ 0 "db.test" "driver").run w).1 =
        .ok (.block ⟨"db.test", -1, "driver", ""⟩) ∧
      Run .passing [.register (.engine { store := 1 }), .unregister] w' ∧
      w'.symbols.found = some () ∧
      ((NativeHook.guardLookup .passing ⟨1, none⟩ 0 "db.test" "driver").run w').1 = .ok .allow ∧
      ((EntryPoint.check (.ofBytes [97]) 80 (.ofBytes [98])).run .passing ⟨1, none⟩).run w' =
        (.ok false, w') := by
  let c : HookCall := .lookup 0 "db.test" "driver"
  let w₀ : World Unit :=
    { stores := .activated .blockAll, exported := true
      table := fun _ => { state := fun _ => .hooked }, embedding := () }
  have hquiet : Embedder.Within (fun w w' : World Unit => w'.registered = w.registered) .passing :=
    ⟨fun _ _ _ => rfl, fun _ _ _ _ _ _ => rfl, fun _ _ _ _ _ _ _ => rfl, fun _ _ _ _ => rfl⟩
  have start : Run .passing [] w₀ := .start rfl
  have found := ((registration_governs start ⟨1, none⟩).2.2.2.2 hquiet).1 c
  have registered := found.change (.register (.engine { store := 1 }))
  obtain ⟨hblock, -, -, -, -⟩ := registration_governs registered ⟨1, none⟩
  have unregistered := registered.change .unregister
  obtain ⟨-, hnone, -, -, -⟩ := registration_governs unregistered ⟨1, none⟩
  have hlast : ∀ b, ([.register (.engine { store := 1 }), .unregister] : List Change).getLast? ≠
      some (.register b) := nofun
  exact ⟨_, _, registered, rfl,
    (congrArg Prod.fst ((hblock (.engine { store := 1 }) rfl c rfl).1 rfl)).trans rfl,
    unregistered, rfl, (hnone hlast).1 c rfl, (hnone hlast).2 _⟩

/-- A hook that is fixed to the exported functions does follow the registration. -/
theorem fixed_exported_not_unaffected : ¬ ∀ (w : World Unit) (t : Thread) (c : HookCall) (b : Bridge)
    (change : Change), c.resolver w = .fixed b →
      ((c.run .passing t).run (change.apply w)).1 = ((c.run .passing t).run w).1 := by
  intro h
  let w : World Unit :=
    { stores := .activated .blockAll
      table := fun _ => { resolver := .fixed .exported, state := fun _ => .hooked }, embedding := () }
  let w' : World Unit := Change.apply w (.register (.engine { store := 1 }))
  let c : HookCall := .lookup 0 "db.test" "driver"
  have hpass : ((c.run .passing ⟨1, none⟩).run w).1 = .ok .allow := rfl
  have hleads : Bridge.exported.backend? w' = some (.engine { store := 1 }) := rfl
  obtain ⟨d, counted, hd, hblocked⟩ := Bridge.exported.answers_check_engine .passing hleads ⟨1, none⟩
    "db.test" nameResolutionPort "driver" fun _ => ⟨by decide, by decide⟩
  obtain ⟨w'', hrun, -⟩ := HookCall.run_of_own (c := c) (w := w')
    (Stores.reachable_activated _).tidy rfl (Bridge.isOwn_of_engine hleads) hd rfl
  have hsame := h w ⟨1, none⟩ c .exported (.register (.engine { store := 1 })) rfl
  rw [hpass] at hsame
  obtain rfl := Except.ok.inj ((congrArg Prod.fst hrun).symm.trans hsame)
  exact nomatch hblocked

end Registration

end Cordon
