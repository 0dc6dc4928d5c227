import Cordon.Proofs.Hook.Registration
/-!
Which engine comes to a decision when a bridge, an exported function or a hook is asked, and what is
counted then: the outcome of the decision for the caller, which is blocked just if the answer is a
block. A native hook that goes straight to the function behind it counts why.
-/
namespace Cordon

variable {ε α β : Type} {w : World ε} {t : Thread} {b : Bridge} {e : Engine} {tag : String}
  {e? : Option Engine}

/-! ## Decisions -/

/-- What is counted of a decision, if there was one. -/
def decisionEvents (caller : String) (outcome? : Option Outcome) : List Event :=
  (outcome?.map (Event.decision · caller)).toList

/-- The outcome is that of a decision of the engine, which blocks or not; without an engine there is
none and nothing is blocked. -/
structure World.Decided (w : World ε) (t : Thread) (engine? : Option Engine) (blocked : Bool)
    (outcome? : Option Outcome) : Prop where
  reached : outcome?.isSome = engine?.isSome
  blocked_iff : outcome? = some .blocked ↔ blocked = true
  unconfigured : outcome? = some .noConfiguration → ∀ e ∈ engine?, (w.stores.get e.store t).1 = none

theorem World.decided_none (w : World ε) (t : Thread) : w.Decided t none false none :=
  ⟨rfl, iff_of_false nofun nofun, nofun⟩

theorem World.Decided.eq_none {blocked : Bool} {outcome? : Option Outcome}
    (h : w.Decided t none blocked outcome?) : blocked = false ∧ outcome? = none := by
  cases outcome? with
  | none =>
    refine ⟨Bool.eq_false_iff.mpr fun hblocked => ?_, rfl⟩
    exact nomatch h.blocked_iff.mpr hblocked
  | some outcome => exact nomatch h.reached

theorem Judgement.Faithful.decided {j : Judgement}
    (h : j.Faithful (w.stores.get e.store t).1) :
    w.Decided t (some e) j.decision.isBlocked (some j.outcome) where
  reached := rfl
  blocked_iff := Option.some_inj.trans h.blocked
  unconfigured hj _ he := Option.some.inj he ▸ h.unconfigured.mp (Option.some.inj hj)

namespace Act

variable {x : Act ε α} {blocks : α → Bool}

/-- The action comes to a decision of the engine, which it counts, or to none if there is no engine,
and answers accordingly. -/
def Decides (w : World ε) (t : Thread) (engine? : Option Engine) (caller : String)
    (blocks : α → Bool) (x : Act ε α) : Prop :=
  ∃ a outcome?, Answers w x a (decisionEvents caller outcome?) ∧
    w.Decided t engine? (blocks a) outcome?

namespace Decides

theorem nothing {a : α} (h : Answers w x a []) (ha : blocks a = false) :
    Decides w t none tag blocks x :=
  ⟨a, none, h, ha ▸ w.decided_none t⟩

theorem judgement {a : α} {j : Judgement} (h : Answers w x a [.decision j.outcome tag])
    (hj : j.Faithful (w.stores.get e.store t).1) (ha : blocks a = j.decision.isBlocked) :
    Decides w t (some e) tag blocks x :=
  ⟨a, some j.outcome, h, ha ▸ hj.decided⟩

theorem map {f : α → β} {blocks' : β → Bool} (h : Decides w t e? tag blocks x)
    (hf : ∀ a, blocks' (f a) = blocks a) : Decides w t e? tag blocks' (f <$> x) := by
  obtain ⟨a, outcome?, hx, hdecided⟩ := h
  exact ⟨f a, outcome?, hx.map f, (hf a).symm ▸ hdecided⟩

theorem run (h : Decides w t e? tag blocks x) (tidy : w.stores.Tidy) :
    ∃ a outcome? w', x.run w = (.ok a, w') ∧ w'.stores.Tidy ∧
      w'.events = decisionEvents tag outcome? ++ w.events ∧
      w.Decided t e? (blocks a) outcome? := by
  obtain ⟨a, outcome?, hx, hdecided⟩ := h
  obtain ⟨w', hrun, hw, hevents⟩ := hx.run tidy
  exact ⟨a, outcome?, w', hrun, hw.tidy, hevents, hdecided⟩

end Decides

end Act

open Act (Answers Decides)

/-! ## Bridges -/

/-- The decision engine that a backend is. -/
def Backend.engine? : Backend → Option Engine
  | engine e => some e
  | embedded _ => none

theorem Foreign.isBlocked_decision (host : String) (port : Int) (caller : String) (d : Decision) :
    (decision host port caller (Exported.verdict d)).isBlocked = d.isBlocked := by
  cases d <;> rfl

theorem Exported.isSome_verdict (d : Decision) : (verdict d).isSome = d.isBlocked := by
  cases d <;> rfl

namespace Bridge

/-- Whether these texts can be sent through the bridge. -/
def carries (texts : List String) : Bridge → Bool
  | direct _ => true
  | exported => texts.all fun s => (ForeignText.ofString? s).isSome

/-- The engine that decides on what these texts say. -/
def engine? (w : World ε) (texts : List String) (b : Bridge) : Option Engine :=
  if b.carries texts then (b.backend? w).bind Backend.engine? else none

/-- Whether the bridge leads to an engine with an active policy. -/
def active (w : World ε) (t : Thread) (b : Bridge) : Bool :=
  ((b.backend? w).bind Backend.engine?).any fun e => (w.stores.get e.store t).1.isSome

theorem engine?_of_none (h : b.backend? w = none) (texts : List String) :
    b.engine? w texts = none := by
  rw [engine?, h]
  exact ite_self _

theorem engine?_exported (hw : w.registered = some (.engine e)) (texts : List String) :
    exported.engine? w texts =
      if texts.all fun s => (ForeignText.ofString? s).isSome then some e else none := by
  rw [engine?, backend?, hw]
  rfl

/-- While a policy is active, no decision is counted as made without one. -/
theorem ne_noConfiguration_of_active {texts : List String} {blocked : Bool}
    {outcome? : Option Outcome} (h : w.Decided t (b.engine? w texts) blocked outcome?)
    (hactive : b.active w t = true) : outcome? ≠ some .noConfiguration := by
  intro houtcome
  have hreached := h.reached
  rw [houtcome] at hreached
  obtain ⟨e, he⟩ := Option.isSome_iff_exists.mp hreached.symm
  have hpolicy := h.unconfigured houtcome e he
  rw [engine?] at he
  split at he
  · rw [active, he, Option.any_some, hpolicy] at hactive
    contradiction
  · contradiction

variable (own : b.IsOwn w)
include own

theorem answers_active (m : Embedder ε) (t : Thread) :
    Answers w (b.isActive m t) (b.active w t) [] := by
  rcases own.backend?_cases with ⟨e, h⟩ | h
  · rw [active, h]
    exact answers_isActive m h t
  · rw [active, h]
    exact answers_isActive_none m h t

theorem decides_check (m : Embedder ε) (t : Thread) (host : String) (port : Int)
    (caller : String) : Decides w t (b.engine? w [host, caller]) caller Decision.isBlocked
      (b.check m t host port caller) := by
  rcases own.backend?_cases with ⟨e, h⟩ | h
  · rcases eq_of_backend?_eq_engine h with rfl | ⟨rfl, hw⟩
    · exact .judgement (Backend.answers_check m e t host port caller) (e.faithful_decide ..) rfl
    · have hcheck := Foreign.answers_check m hw t host port caller
      rw [engine?_exported hw]
      by_cases hcross : (ForeignText.ofString? host).isSome ∧ (ForeignText.ofString? caller).isSome
      · rw [if_pos hcross, if_pos hcross] at hcheck
        rw [if_pos (by simpa using hcross)]
        exact .judgement hcheck (e.faithful_decide ..) (Foreign.isBlocked_decision ..)
      · rw [if_neg hcross, if_neg hcross] at hcheck
        rw [if_neg (by simpa using hcross)]
        exact .nothing hcheck rfl
  · rw [engine?_of_none h]
    exact .nothing (answers_check_none m h t host port caller) rfl

theorem decides_checkConnection (m : Embedder ε) (t : Thread) (address : Address)
    (names : List String) (port : UInt16) (caller : String) :
    Decides w t (b.engine? w [caller]) caller Decision.isBlocked
      (b.checkConnection m t address names port caller) := by
  rcases own.backend?_cases with ⟨e, h⟩ | h
  · rcases eq_of_backend?_eq_engine h with rfl | ⟨rfl, hw⟩
    · exact .judgement (Backend.answers_checkConnection m e t address names port caller)
        (e.faithful_decideConnection ..) rfl
    · have hcheck := Foreign.answers_checkConnection m hw t address names port caller
      rw [engine?_exported hw]
      by_cases hcross : (ForeignText.ofString? caller).isSome = true
      · rw [if_pos hcross, if_pos hcross] at hcheck
        rw [if_pos (by simpa using hcross)]
        -- the name that is asked for afterwards changes what the block reports, not that it is one
        refine .judgement hcheck (e.faithful_decideConnection ..) ?_
        rw [Decision.isBlocked_mapAttempt, Foreign.isBlocked_decision]
      · rw [if_neg hcross, if_neg hcross] at hcheck
        rw [if_neg (by simpa using hcross)]
        exact .nothing hcheck rfl
  · rw [engine?_of_none h]
    exact .nothing (answers_checkConnection_none m h t address names port caller) rfl

end Bridge

/-! ## Exported functions -/

namespace EntryPoint

def caller : EntryPoint → String
  | check _ _ caller | checkConnection _ _ _ caller => caller.read.getD ""
  | _ => ""

/-- Whether a function decides on an attempt, so that an answer other than 0 is a block. -/
def decides : EntryPoint → Bool
  | check .. | checkConnection .. => true
  | _ => false

/-- Whether an engine is asked for a decision on the arguments. -/
def asks : EntryPoint → Bool
  | check host _ caller => host.read.isSome && caller.read.isSome
  | checkConnection address _ port caller =>
    (address.read.bind Address.read).isSome && (Exported.portOf? port).isSome && caller.read.isSome
  | _ => false

def engine? (w : World ε) (x : EntryPoint) : Option Engine :=
  if x.asks then w.registered.bind Backend.engine? else none

end EntryPoint

theorem Exported.decides_answer {x : Act ε ForeignVerdict}
    (h : Decides w t e? tag Option.isSome x) :
    Decides w t e? tag id ((true && ·) <$> Option.isSome <$> x) := by
  obtain ⟨verdict, outcome?, hx, hdecided⟩ := h
  exact ⟨_, outcome?, (hx.map _).map _, hdecided⟩

section Exported

variable (own : Bridge.exported.IsOwn w)
include own

theorem Exported.decides_ask {question : Backend → Act ε Decision}
    (h : ∀ e, w.registered = some (.engine e) →
      Decides w t (some e) tag Decision.isBlocked (question (.engine e))) :
    Decides w t (w.registered.bind Backend.engine?) tag Option.isSome
      (ask none fun b => verdict <$> question b) := by
  rcases own.backend?_cases with ⟨e, hw⟩ | hw
  · change w.registered = _ at hw
    obtain ⟨d, outcome?, hd, hdecided⟩ := h e hw
    rw [hw]
    exact ⟨verdict d, outcome?, answers_ask hw (hd.map _), isSome_verdict d ▸ hdecided⟩
  · change w.registered = _ at hw
    rw [hw]
    exact .nothing (answers_ask_none hw) rfl

theorem Exported.answers_isExplicitlyBlocked (m : Embedder ε) (t : Thread) (host : ForeignText) :
    ∃ a, Answers w (isExplicitlyBlocked m t host) a [] := by
  rw [isExplicitlyBlocked]
  cases host.read with
  | none => exact ⟨false, .pure _⟩
  | some host =>
    rcases own.backend?_cases with ⟨e, hw⟩ | hw
    · exact ⟨_, answers_ask hw (Backend.answers_isExplicitlyBlocked m e t host)⟩
    · exact ⟨_, answers_ask_none hw⟩

/-- An exported function decides on what it can read. -/
theorem EntryPoint.decides_run (m : Embedder ε) (t : Thread) (x : EntryPoint) :
    Decides w t (x.engine? w) x.caller id ((x.decides && ·) <$> x.run m t) := by
  cases x with
  | isActive => exact .nothing ((Bridge.answers_active own m t).map _) rfl
  | isExplicitlyBlocked host =>
    obtain ⟨a, h⟩ := Exported.answers_isExplicitlyBlocked own m t host
    exact .nothing (h.map _) rfl
  | check host port caller =>
    refine Exported.decides_answer ?_
    rw [engine?, asks, Exported.check, EntryPoint.caller]
    cases host.read with
    | none => exact .nothing (.pure _) rfl
    | some host =>
      cases caller.read with
      | none => exact .nothing (.pure _) rfl
      | some caller =>
        exact Exported.decides_ask own fun e _ =>
          .judgement (Backend.answers_check m e t host port caller) (e.faithful_decide ..) rfl
  | checkConnection address hostnames port caller =>
    refine Exported.decides_answer ?_
    rw [engine?, asks, Exported.checkConnection, EntryPoint.caller]
    cases address.read.bind Address.read with
    | none => exact .nothing (.pure _) rfl
    | some address =>
      cases Exported.portOf? port with
      | none => exact .nothing (.pure _) rfl
      | some port =>
        cases caller.read with
        | none => exact .nothing (.pure _) rfl
        | some caller =>
          exact Exported.decides_ask own fun e _ =>
            .judgement (Backend.answers_checkConnection m e t address _ port caller)
              (e.faithful_decideConnection ..) rfl

end Exported

/-! ## Hooks -/

/-- What is counted of a call that went straight to the function behind the hook. -/
def passEvents (passed? : Option (NativeEntry × PassReason)) : List Event :=
  (passed?.map fun p => Event.passthrough p.1 p.2).toList

/-- Why a native call goes straight to the function behind the hook. -/
def NativeHook.passed? (w : World ε) (t : Thread) (i : TableId) (entry : NativeEntry) :
    Option (NativeEntry × PassReason) :=
  match (w.table i).state entry with
  | .unhookable => some (entry, .unhookable)
  | .hooked =>
    if !w.inHook t.id && (((w.table i).resolver.bridge? w).isNone) then some (entry, .noEngine)
    else none
  | .unbound => none

theorem NativeHook.skipped_eq {i : TableId} {entry : NativeEntry}
    (h : (w.table i).state entry = .hooked → w.inHook t.id = true) :
    skipped w i entry = passEvents (passed? w t i entry) := by
  rw [skipped, passed?]
  cases hstate : (w.table i).state entry with
  | hooked => rw [h hstate]; rfl
  | _ => rfl

namespace HookCall

variable {c : HookCall}

def caller : HookCall → String
  | lookup _ _ caller | connect _ _ caller => caller
  | prologue _ entry _ => entry.callerTag

/-- The texts that an engine is sent. -/
def texts : HookCall → List String
  | lookup _ host caller => [host, caller]
  | connect _ _ caller => [caller]
  | prologue _ entry host => [host, entry.callerTag]

/-- The engine that decides on a call. -/
def engine? (w : World ε) (t : Thread) (c : HookCall) : Option Engine :=
  if c.isLive w t then
    ((c.resolver w).bridge? w).bind fun b => if b.active w t then b.engine? w c.texts else none
  else none

def passed? (w : World ε) (t : Thread) : HookCall → Option (NativeEntry × PassReason)
  | lookup i host _ => if host = "" then none else NativeHook.passed? w t i .getaddrinfo
  | connect i .. => NativeHook.passed? w t i .connect
  | prologue .. => none

theorem skipped_eq (h : c.isLive w t = false) : c.skipped w = passEvents (c.passed? w t) := by
  cases c with
  | lookup i host caller =>
    rw [skipped, passed?]
    split
    · rfl
    · next hhost =>
      refine NativeHook.skipped_eq fun hstate => ?_
      simpa [isLive, hhost, hstate] using h
  | connect i target caller =>
    refine NativeHook.skipped_eq fun hstate => ?_
    simpa [isLive, hstate] using h
  | prologue hooks entry host => rfl

theorem passed?_of_live (h : c.isLive w t = true) : passEvents (c.passed? w t) =
    if ((c.resolver w).bridge? w).isNone then c.unresolved else [] := by
  cases c with
  | lookup i host caller =>
    obtain ⟨⟨hhost, hstate⟩, hin⟩ : (host ≠ "" ∧ (w.table i).state .getaddrinfo = .hooked) ∧
        w.inHook t.id = false := by simpa [isLive] using h
    rw [passed?, if_neg hhost, NativeHook.passed?, hstate, hin, resolver]
    cases (w.table i).resolver.bridge? w <;> rfl
  | connect i target caller =>
    obtain ⟨hstate, hin⟩ : (w.table i).state .connect = .hooked ∧ w.inHook t.id = false := by
      simpa [isLive] using h
    rw [passed?, NativeHook.passed?, hstate, hin, resolver]
    cases (w.table i).resolver.bridge? w <;> rfl
  | prologue hooks entry host => exact (ite_self _).symm

/-- On a call that goes straight to the function no engine decides. -/
theorem engine?_of_passed? {p : NativeEntry × PassReason} (h : c.passed? w t = some p) :
    c.engine? w t = none := by
  rw [engine?]
  split
  · next hlive =>
    have hpassed := passed?_of_live hlive
    rw [h] at hpassed
    cases hb : (c.resolver w).bridge? w with
    | none => rfl
    | some b =>
      rw [hb] at hpassed
      exact nomatch hpassed
  · rfl

theorem decides_question (own : b.IsOwn w) (m : Embedder ε) (t : Thread) (c : HookCall) :
    Decides w t (b.engine? w c.texts) c.caller Decision.isBlocked (c.question m t b) := by
  cases c with
  | lookup i host caller => exact b.decides_check own m t host nameResolutionPort caller
  | connect i target caller =>
    obtain ⟨d, outcome?, hd, hdecided⟩ := b.decides_checkConnection own m t
      target.address.canonical ((w.table i).book.hostnames target.address.canonical) target.port
      caller
    refine ⟨d, outcome?, Answers.bind (.read fun w' hw => ?_) hd, hdecided⟩
    rw [hw.table]
  | prologue hooks entry host =>
    exact b.decides_check own m t host nameResolutionPort entry.callerTag

/-- The call comes to no engine of the embedding program. -/
def IsOwn (w : World ε) (t : Thread) (c : HookCall) : Prop :=
  c.isLive w t = true → ∀ b, (c.resolver w).bridge? w = some b → b.IsOwn w

theorem isOwn_of_not_live (h : c.isLive w t = false) : c.IsOwn w t :=
  fun hlive => absurd (h.symm.trans hlive) Bool.false_ne_true

theorem isOwn_of_unresolved (h : (c.resolver w).bridge? w = none) : c.IsOwn w t :=
  fun _ _ hb => nomatch h.symm.trans hb

theorem isOwn_of_registered (hc : c.resolver w = .dynamic)
    (hw : w.registered = some (.engine e)) : c.IsOwn w t := by
  intro _ b hb
  rw [hc, Resolver.bridge?, hw] at hb
  obtain rfl := Option.some.inj hb
  exact Bridge.isOwn_of_engine rfl

/-- A hook counts the decision that it comes to, or why it went straight to the function, or
nothing; and it comes to a decision only under an active policy. -/
theorem counts (tidy : w.stores.Tidy) (own : c.IsOwn w t) (m : Embedder ε) :
    ∃ d outcome? w', (c.run m t).run w = (.ok d, w') ∧ w'.stores.Tidy ∧
      w'.events = decisionEvents c.caller outcome? ++ passEvents (c.passed? w t) ++ w.events ∧
      w.Decided t (c.engine? w t) d.isBlocked outcome? ∧ outcome? ≠ some .noConfiguration := by
  cases hlive : c.isLive w t with
  | false =>
    rw [engine?, hlive, if_neg Bool.false_ne_true, ← skipped_eq hlive]
    exact ⟨_, none, _, run_eq_of_not_live hlive, tidy, rfl, w.decided_none t, nofun⟩
  | true =>
    rw [engine?, if_pos hlive, passed?_of_live hlive]
    cases hb : (c.resolver w).bridge? w with
    | none =>
      obtain ⟨symbols, hrun⟩ := run_eq_of_unresolved (m := m) hb hlive
      refine ⟨_, none, _, hrun, ?_, ?_, w.decided_none t, nofun⟩
      · rw [stores_leave]
        exact (c.alike_enter tidy).tidy
      · rw [events_leave]
        rfl
    | some b =>
      have hown := own hlive b hb
      obtain ⟨d, outcome?, hd, hdecided⟩ := decides_question hown m t c
      obtain ⟨w', hrun, hw, hevents⟩ := run_of_answers tidy hb (b.answers_active hown m t)
        (fun _ => hd) hlive
      rw [← events_leave c w' t] at hevents
      have htidy : (c.leave w' t).stores.Tidy := stores_leave c w' t ▸ hw.tidy
      rw [Option.isNone_some, if_neg Bool.false_ne_true]
      simp only [List.append_nil, Option.bind_some]
      cases hactive : b.active w t with
      | false =>
        rw [hactive] at hrun hevents
        exact ⟨_, none, _, hrun, htidy, hevents, w.decided_none t, nofun⟩
      | true =>
        rw [hactive] at hrun hevents
        exact ⟨_, outcome?, _, hrun, htidy, hevents, hdecided,
          Bridge.ne_noConfiguration_of_active hdecided hactive⟩

end HookCall

end Cordon
