import Cordon.Proofs.Hook.Strictness
/-!
What a hook call may change. A relation between the world before and the world after that allows
everything that hooks and decision engines do on their own allows a whole hook call as well, as soon
as it allows what the engines of the embedding program do.
-/
namespace Cordon

variable {ε α β : Type} {r : World ε → World ε → Prop} {m : Embedder ε} {t : Thread}

/-- The relation allows what decision engines do when they are asked, and what a hook does around
that. -/
structure World.Patient (r : World ε → World ε → Prop) : Prop where
  refl : ∀ w, r w w
  trans : ∀ {w w' w''}, r w w' → r w' w'' → r w w''
  get : ∀ w s t, r w { w with stores := (w.stores.get s t).2 }
  decide : ∀ w e t host port caller, r w (w.decide e t host port caller w.callStack).2
  decideConnection : ∀ w e t address names port caller,
    r w (w.decideConnection e t address names port caller).2
  symbols : ∀ w symbols, r w { w with symbols }
  setInHook : ∀ w t inside, r w (w.setInHook t inside)

/-- The relation allows as well that a hook counts what it passes on its own. -/
structure World.Tolerant (r : World ε → World ε → Prop) : Prop extends World.Patient r where
  count : ∀ w e, r w (w.count e)

theorem World.Tolerant.countAll (H : World.Tolerant r) (w : World ε) (events : List Event) :
    r w { w with events := events ++ w.events } := by
  induction events with
  | nil => exact H.refl w
  | cons e events ih => exact H.trans ih (H.count _ e)

/-- However the action ends, it leads to a world that the relation allows. -/
def Act.Within (r : World ε → World ε → Prop) (x : Act ε α) : Prop := ∀ w, r w (x.run w).2

/-- The engines of the embedding program do nothing else. -/
structure Embedder.Within (r : World ε → World ε → Prop) (m : Embedder ε) : Prop where
  isActive : ∀ i t, Act.Within r (m.isActive i t)
  check : ∀ i t host port caller, Act.Within r (m.check i t host port caller)
  checkConnection : ∀ i t address names port caller,
    Act.Within r (m.checkConnection i t address names port caller)
  isExplicitlyBlocked : ∀ i t host, Act.Within r (m.isExplicitlyBlocked i t host)

namespace Act.Within

variable {x : Act ε α}

theorem step {f : World ε → α × World ε} (h : ∀ w, r w (f w).2) : Within r (ofStep f) := h

theorem bind (H : World.Patient r) {f : α → Act ε β} (hx : Within r x)
    (hf : ∀ a, Within r (f a)) : Within r (x >>= f) := by
  intro w
  have hxw := hx w
  rcases h : x.run w with ⟨fault | a, w'⟩
  all_goals rw [h] at hxw
  · rw [run_bind_error h]
    exact hxw
  · rw [run_bind_ok h]
    exact H.trans hxw (hf a w')

theorem pure (H : World.Patient r) (a : α) : Within r (Pure.pure a) := H.refl

theorem read (H : World.Patient r) (f : World ε → α) : Within r (Act.read f) := H.refl

theorem map (H : World.Patient r) (hx : Within r x) (f : α → β) : Within r (f <$> x) := by
  rw [map_eq_pure_bind]
  exact hx.bind H fun a => pure H (f a)

theorem orElse (hx : Within r x) (fallback : α) : Within r (x.orElse fallback) := by
  intro w
  have hxw := hx w
  rw [Act.orElse, ExceptT.run_mk]
  rcases h : x.run w with ⟨fault | a, w'⟩
  all_goals
    rw [h] at hxw
    exact hxw

end Act.Within

open Act (Within)

/-! ## Engines and bridges -/

namespace Backend

theorem within_isActive (H : World.Patient r) (hm : m.Within r) (b : Backend) (t : Thread) :
    Within r (b.isActive m t) := by
  cases b with
  | engine e => exact .step fun w => H.get w e.store t
  | embedded i => exact hm.isActive i t

theorem within_check (H : World.Patient r) (hm : m.Within r) (b : Backend) (t : Thread)
    (host : String) (port : Int) (caller : String) :
    Within r (b.check m t host port caller) := by
  cases b with
  | engine e => exact .step fun w => H.decide w e t host port caller
  | embedded i => exact hm.check i t host port caller

theorem within_checkConnection (H : World.Patient r) (hm : m.Within r) (b : Backend) (t : Thread)
    (address : Address) (names : List String) (port : UInt16) (caller : String) :
    Within r (b.checkConnection m t address names port caller) := by
  cases b with
  | engine e => exact .step fun w => H.decideConnection w e t address names port caller
  | embedded i => exact hm.checkConnection i t address names port caller

theorem within_isExplicitlyBlocked (H : World.Patient r) (hm : m.Within r) (b : Backend)
    (t : Thread) (host : String) : Within r (b.isExplicitlyBlocked m t host) := by
  cases b with
  | engine e => exact .step fun w => H.get w e.store t
  | embedded i => exact hm.isExplicitlyBlocked i t host

end Backend

namespace Exported

theorem within_ask (H : World.Patient r) (fallback : α) {question : Backend → Act ε α}
    (h : ∀ b, Within r (question b)) : Within r (ask fallback question) := by
  refine (Within.read H _).bind H fun b => ?_
  cases b with
  | some b => exact (h b).orElse fallback
  | none => exact .pure H fallback

theorem within_isActive (H : World.Patient r) (hm : m.Within r) (t : Thread) :
    Within r (isActive m t) :=
  within_ask H false fun b => b.within_isActive H hm t

theorem within_check (H : World.Patient r) (hm : m.Within r) (t : Thread) (host : ForeignText)
    (port : Int) (caller : ForeignText) : Within r (check m t host port caller) := by
  rw [check]
  split
  · exact within_ask H none fun b => (b.within_check H hm t _ port _).map H verdict
  · exact .pure H _

theorem within_checkConnection (H : World.Patient r) (hm : m.Within r) (t : Thread)
    (address names : ForeignText) (port : Int) (caller : ForeignText) :
    Within r (checkConnection m t address names port caller) := by
  rw [checkConnection]
  split
  · exact within_ask H none fun b => (b.within_checkConnection H hm t _ _ _ _).map H verdict
  · exact .pure H _

theorem within_isExplicitlyBlocked (H : World.Patient r) (hm : m.Within r) (t : Thread)
    (host : ForeignText) : Within r (isExplicitlyBlocked m t host) := by
  rw [isExplicitlyBlocked]
  split
  · exact within_ask H false fun b => b.within_isExplicitlyBlocked H hm t _
  · exact .pure H _

end Exported

namespace Foreign

theorem within_check (H : World.Patient r) (hm : m.Within r) (t : Thread) (host : String)
    (port : Int) (caller : String) : Within r (check m t host port caller) := by
  rw [check]
  split
  · exact (Exported.within_check H hm t _ port _).map H _
  · exact .pure H _

theorem within_isExplicitlyBlocked (H : World.Patient r) (hm : m.Within r) (t : Thread)
    (host : String) : Within r (isExplicitlyBlocked m t host) := by
  rw [isExplicitlyBlocked]
  split
  · exact Exported.within_isExplicitlyBlocked H hm t _
  · exact .pure H _

theorem within_firstBlocked (H : World.Patient r) (hm : m.Within r) (t : Thread)
    (names : List String) : Within r (firstBlocked m t names) := by
  induction names with
  | nil => exact .pure H none
  | cons name names ih =>
    refine (within_isExplicitlyBlocked H hm t name).bind H fun blocked => ?_
    cases blocked with
    | true => exact .pure H _
    | false => exact ih

theorem within_checkConnection (H : World.Patient r) (hm : m.Within r) (t : Thread)
    (address : Address) (names : List String) (port : UInt16) (caller : String) :
    Within r (checkConnection m t address names port caller) := by
  rw [checkConnection]
  split
  · exact .pure H _
  · refine (Exported.within_checkConnection H hm t _ _ _ _).bind H fun verdict => ?_
    split
    · exact .pure H _
    · exact (within_firstBlocked H hm t names).bind H fun blocked => .pure H _

end Foreign

namespace Bridge

theorem within_isActive (H : World.Patient r) (hm : m.Within r) (b : Bridge) (t : Thread) :
    Within r (b.isActive m t) := by
  cases b with
  | direct b => exact b.within_isActive H hm t
  | exported => exact Exported.within_isActive H hm t

theorem within_check (H : World.Patient r) (hm : m.Within r) (b : Bridge) (t : Thread)
    (host : String) (port : Int) (caller : String) :
    Within r (b.check m t host port caller) := by
  cases b with
  | direct b => exact b.within_check H hm t host port caller
  | exported => exact Foreign.within_check H hm t host port caller

theorem within_checkConnection (H : World.Patient r) (hm : m.Within r) (b : Bridge) (t : Thread)
    (address : Address) (names : List String) (port : UInt16) (caller : String) :
    Within r (b.checkConnection m t address names port caller) := by
  cases b with
  | direct b => exact b.within_checkConnection H hm t address names port caller
  | exported => exact Foreign.within_checkConnection H hm t address names port caller

theorem within_isExplicitlyBlocked (H : World.Patient r) (hm : m.Within r) (b : Bridge)
    (t : Thread) (host : String) : Within r (b.isExplicitlyBlocked m t host) := by
  cases b with
  | direct b => exact b.within_isExplicitlyBlocked H hm t host
  | exported => exact Foreign.within_isExplicitlyBlocked H hm t host

end Bridge

/-! ## Hooks -/

namespace HookCall

theorem within_question (H : World.Patient r) (hm : m.Within r) (c : HookCall) (b : Bridge) :
    Within r (c.question m t b) := by
  cases c with
  | lookup i host caller => exact b.within_check H hm t host _ caller
  | connect i target caller =>
    exact (Within.read H _).bind H fun names => b.within_checkConnection H hm t _ names _ caller
  | prologue hooks entry host => exact b.within_check H hm t host _ _

theorem enters (H : World.Patient r) (t : Thread) (c : HookCall) (w : World ε) :
    r w (c.enter w t) := by
  cases c with
  | prologue hooks entry host => exact H.refl w
  | _ => exact H.setInHook w _ _

theorem leaves (H : World.Patient r) (t : Thread) (c : HookCall) (w : World ε) :
    r w (c.leave w t) := by
  cases c with
  | prologue hooks entry host => exact H.refl w
  | _ => exact H.setInHook w _ _

/-- A hook that resolves an engine counts nothing on its own. -/
theorem within_run_of_resolved (H : World.Patient r) (hm : m.Within r) {c : HookCall} {b : Bridge}
    {w : World ε} (hlive : c.isLive w t = true) (hb : (c.resolver w).bridge? w = some b) :
    r w ((c.run m t).run w).2 := by
  obtain ⟨symbols, hresolve⟩ := (c.resolver w).run_resolve (c.enter w t)
  rw [c.bridge?_enter, hb] at hresolve
  have hasked : r (c.enter w t) (((c.resolver w).asked m t c.unresolved
      (c.question m t ·)).run (c.enter w t)).2 := by
    rw [Resolver.asked, Act.run_bind_ok hresolve]
    refine H.trans (H.symbols _ symbols) ((b.within_isActive H hm t).bind H (fun active => ?_) _)
    cases active with
    | true => exact c.within_question H hm b
    | false => exact .pure H _
  rw [run_of_live hlive]
  exact H.trans (H.trans (c.enters H t w) hasked) (c.leaves H t _)

theorem within_run (H : World.Tolerant r) (hm : m.Within r) (t : Thread) (c : HookCall) :
    Within r (c.run m t) := by
  intro w
  cases hlive : c.isLive w t with
  | false =>
    rw [run_eq_of_not_live hlive]
    exact H.countAll w _
  | true =>
    cases hb : (c.resolver w).bridge? w with
    | some b => exact within_run_of_resolved H.toPatient hm hlive hb
    | none =>
      obtain ⟨symbols, hrun⟩ := run_eq_of_unresolved (m := m) hb hlive
      have hcount := H.countAll { c.enter w t with symbols } c.unresolved
      rw [events_enter] at hcount
      rw [hrun]
      exact H.trans (H.trans (c.enters H.toPatient t w)
        (H.trans (H.symbols _ symbols) hcount)) (c.leaves H.toPatient t _)

end HookCall

end Cordon
