import Cordon.Proofs.Hook.Asked
/-!
The hooks of both layers are exactly as strict as the engine that they resolve. A call that is live
decides as that engine does when it is asked on the spot; the probe for an active policy, which
spares most calls the question, never changes what is decided. A call that is not live passes, as
does one that resolves no engine.
-/
namespace Cordon

variable {ε : Type} {m : Embedder ε} {w w' : World ε} {t : Thread}

/-- A call that a hook stands before: a native entry point of a table, or a managed resolution. -/
inductive HookCall where
  | lookup (i : TableId) (host caller : String)
  | connect (i : TableId) (target : Endpoint) (caller : String)
  | prologue (hooks : ManagedHooks) (entry : ManagedEntry) (host : String)

namespace HookCall

def run (m : Embedder ε) (t : Thread) : HookCall → Act ε Decision
  | lookup i host caller => NativeHook.guardLookup m t i host caller
  | connect i target caller => NativeHook.guardConnect m t i target caller
  | prologue hooks entry host => hooks.prologue m t entry host

def resolver (w : World ε) : HookCall → Resolver
  | lookup i .. | connect i .. => (w.table i).resolver
  | prologue hooks .. => hooks.resolver

/-- Whether the hook does not pass the call without asking: its entry point is hooked and the thread
is not inside another native hook, or its switch is on. The empty host is never asked about. -/
def isLive (w : World ε) (t : Thread) : HookCall → Bool
  | lookup i host _ => host ≠ "" && (w.table i).state .getaddrinfo = .hooked && !w.inHook t.id
  | connect i .. => (w.table i).state .connect = .hooked && !w.inHook t.id
  | prologue hooks _ host => host ≠ "" && hooks.installed

/-- What the hook asks, put to the engine directly. A connection is judged by the canonical form of
its address and the names that are recorded for that. -/
def question (m : Embedder ε) (t : Thread) (b : Bridge) : HookCall → Act ε Decision
  | lookup _ host caller => b.check m t host nameResolutionPort caller
  | connect i target caller => do
    let hostnames ← Act.read fun w => (w.table i).book.hostnames target.address.canonical
    b.checkConnection m t target.address.canonical hostnames target.port caller
  | prologue _ entry host => b.check m t host nameResolutionPort entry.callerTag

/-- The world as the hook finds it when it asks. -/
def enter (w : World ε) (t : Thread) : HookCall → World ε
  | lookup .. | connect .. => w.setInHook t.id true
  | prologue .. => w

def leave (w : World ε) (t : Thread) : HookCall → World ε
  | lookup .. | connect .. => w.setInHook t.id false
  | prologue .. => w

/-- What the hook counts where there is no engine to ask. -/
def unresolved : HookCall → List Event
  | lookup .. => [.passthrough .getaddrinfo .noEngine]
  | connect .. => [.passthrough .connect .noEngine]
  | prologue .. => []

variable {c : HookCall} {b : Bridge} {d : Decision}

theorem alike_enter (h : w.stores.Tidy) (c : HookCall) : w.Alike (c.enter w t) := by
  cases c with
  | prologue hooks entry host => exact .refl h
  | _ => exact (World.Alike.refl h).setInHook _ _

theorem bridge?_enter (c : HookCall) (r : Resolver) : r.bridge? (c.enter w t) = r.bridge? w := by
  cases r with
  | fixed b => rfl
  | dynamic => cases c <;> rfl

theorem events_enter (c : HookCall) : (c.enter w t).events = w.events := by
  cases c <;> rfl

theorem registered_enter (c : HookCall) : (c.enter w t).registered = w.registered := by
  cases c <;> rfl

theorem stores_leave (c : HookCall) (w : World ε) (t : Thread) :
    (c.leave w t).stores = w.stores := by
  cases c <;> rfl

theorem events_leave (c : HookCall) (w : World ε) (t : Thread) :
    (c.leave w t).events = w.events := by
  cases c <;> rfl

theorem run_of_live (h : c.isLive w t = true) : (c.run m t).run w =
    (((c.resolver w).asked m t c.unresolved (c.question m t ·)).bracket (c.enter · t)
      (c.leave · t)).run w := by
  cases c with
  | lookup i host caller =>
    obtain ⟨⟨hhost, hstate⟩, hin⟩ : (host ≠ "" ∧ (w.table i).state .getaddrinfo = .hooked) ∧
        w.inHook t.id = false := by simpa [isLive] using h
    rw [run, NativeHook.guardLookup, if_neg hhost]
    exact NativeHook.run_guarded hstate hin
  | connect i target caller =>
    obtain ⟨hstate, hin⟩ : (w.table i).state .connect = .hooked ∧ w.inHook t.id = false := by
      simpa [isLive] using h
    exact NativeHook.run_guarded hstate hin
  | prologue hooks entry host =>
    obtain ⟨hhost, hinstalled⟩ : host ≠ "" ∧ hooks.installed = true := by simpa [isLive] using h
    rw [run, ManagedHooks.prologue, if_neg (by simp [hhost, hinstalled])]
    rfl

/-- What a call counts that is not live. -/
def skipped (w : World ε) : HookCall → List Event
  | lookup i host _ => if host = "" then [] else NativeHook.skipped w i .getaddrinfo
  | connect i .. => NativeHook.skipped w i .connect
  | prologue .. => []

theorem run_eq_of_not_live (h : c.isLive w t = false) :
    (c.run m t).run w = (.ok .allow, { w with events := c.skipped w ++ w.events }) := by
  cases c with
  | lookup i host caller =>
    rw [run, NativeHook.guardLookup, skipped]
    split
    · rfl
    · next hhost =>
      cases hin : w.inHook t.id with
      | true => exact NativeHook.run_guarded_of_inside hin
      | false =>
        exact NativeHook.run_guarded_of_not_hooked (by simpa [isLive, hhost, hin] using h)
  | connect i target caller =>
    cases hin : w.inHook t.id with
    | true => exact NativeHook.run_guarded_of_inside hin
    | false => exact NativeHook.run_guarded_of_not_hooked (by simpa [isLive, hin] using h)
  | prologue hooks entry host =>
    rw [run, ManagedHooks.prologue, if_pos]
    · rfl
    · simpa [isLive, Decidable.or_iff_not_imp_left] using h

theorem run_of_not_live (h : c.isLive w t = false) :
    ∃ w', (c.run m t).run w = (.ok .allow, w') :=
  ⟨_, run_eq_of_not_live h⟩

/-- An engine of this process answers the question of a hook, and lets it pass while nothing is
active. -/
theorem answers_question (m : Embedder ε) (own : b.IsOwn w) (t : Thread)
    (c : HookCall) : ∃ active d counted, Act.Answers w (b.isActive m t) active [] ∧
      Act.Answers w (c.question m t b) d counted ∧ (active = false → d = .allow) := by
  cases c with
  | lookup i host caller => exact own.answers_check m t host nameResolutionPort caller
  | connect i target caller =>
    obtain ⟨active, d, counted, hactive, hd, hallow⟩ := own.answers_checkConnection m t
      target.address.canonical ((w.table i).book.hostnames target.address.canonical) target.port
      caller
    refine ⟨active, d, counted, hactive, Act.Answers.bind (.read fun w' hw => ?_) hd, hallow⟩
    rw [hw.table]
  | prologue hooks entry host =>
    exact own.answers_check m t host nameResolutionPort entry.callerTag

/-- A live call asks the engine that it resolves. -/
theorem run_of_answers (tidy : w.stores.Tidy) (hb : (c.resolver w).bridge? w = some b)
    {active : Bool} {counted : List Event} (hactive : Act.Answers w (b.isActive m t) active [])
    (hd : active = true → Act.Answers w (c.question m t b) d counted)
    (h : c.isLive w t = true) :
    ∃ w', (c.run m t).run w = (.ok (if active then d else .allow), c.leave w' t) ∧ w.Alike w' ∧
      w'.events = (if active then counted else []) ++ w.events := by
  rw [← c.bridge?_enter (t := t)] at hb
  obtain ⟨w', hasked, hw, hevents⟩ := Resolver.run_asked c.unresolved (c.question m t ·)
    (alike_enter tidy c) hb hactive hd
  rw [events_enter] at hevents
  exact ⟨w', (run_of_live h).trans (Act.run_bracket_ok hasked _), hw, hevents⟩

/-- A live call decides what its engine decides. -/
theorem run_of_own (tidy : w.stores.Tidy) (hb : (c.resolver w).bridge? w = some b)
    (own : b.IsOwn w) {counted : List Event} (hd : Act.Answers w (c.question m t b) d counted)
    (h : c.isLive w t = true) :
    ∃ w', (c.run m t).run w = (.ok d, c.leave w' t) ∧ w.Alike w' := by
  obtain ⟨active, d', counted', hactive, hd', hallow⟩ := answers_question m own t c
  obtain ⟨w₁, hrun, -⟩ := hd.run tidy
  obtain ⟨w₂, hrun', -⟩ := hd'.run tidy
  obtain rfl : d = d' := Except.ok.inj (Prod.mk.inj (hrun.symm.trans hrun')).1
  obtain ⟨w', hrun, hw, -⟩ := run_of_answers tidy hb hactive (fun _ => hd) h
  refine ⟨w', hrun.trans ?_, hw⟩
  cases active with
  | true => rfl
  | false => rw [hallow rfl]; rfl

theorem run_eq_of_unresolved (hb : (c.resolver w).bridge? w = none) (h : c.isLive w t = true) :
    ∃ symbols, (c.run m t).run w = (.ok .allow,
      c.leave { c.enter w t with symbols, events := c.unresolved ++ w.events } t) := by
  rw [← c.bridge?_enter (t := t)] at hb
  obtain ⟨symbols, hasked⟩ := Resolver.run_asked_none m t c.unresolved (c.question m t ·) hb
  rw [events_enter] at hasked
  exact ⟨symbols, (run_of_live h).trans (Act.run_bracket_ok hasked _)⟩

theorem run_of_unresolved (hb : (c.resolver w).bridge? w = none) :
    ∃ w', (c.run m t).run w = (.ok .allow, w') := by
  cases h : c.isLive w t with
  | false => exact run_of_not_live h
  | true =>
    obtain ⟨symbols, hrun⟩ := run_eq_of_unresolved (m := m) hb h
    exact ⟨_, hrun⟩

/-! ## Both layers -/

/-- Where a block comes from, whatever the engine. -/
theorem run_block_iff {attempt : BlockedAttempt} :
    ((c.run m t).run w).1 = .ok (.block attempt) ↔ c.isLive w t = true ∧ ∃ b w₁ w₂,
      (c.resolver w).resolve.run (c.enter w t) = (.ok (some b), w₁) ∧
      (b.isActive m t).run w₁ = (.ok true, w₂) ∧
      ((c.question m t b).run w₂).1 = .ok (.block attempt) := by
  cases hlive : c.isLive w t with
  | false =>
    obtain ⟨w₁, hallow⟩ := run_of_not_live (m := m) hlive
    rw [hallow]
    exact ⟨nofun, nofun⟩
  | true =>
    rw [run_of_live hlive]
    exact Resolver.asked_block_iff.trans (and_iff_right rfl).symm

theorem run_eq_question (tidy : w.stores.Tidy) (m : Embedder ε) (t : Thread)
    (hb : (c.resolver w).bridge? w = some b) (own : b.IsOwn w) :
    ∃ d, ((c.question m t b).run w).1 = .ok d ∧
      ((c.run m t).run w).1 = .ok (if c.isLive w t then d else .allow) := by
  obtain ⟨-, d, counted, -, hd, -⟩ := answers_question m own t c
  obtain ⟨w₁, hrun, -⟩ := hd.run tidy
  refine ⟨d, congrArg Prod.fst hrun, ?_⟩
  cases hlive : c.isLive w t with
  | false =>
    obtain ⟨w₂, hallow⟩ := run_of_not_live (m := m) hlive
    exact congrArg Prod.fst hallow
  | true =>
    obtain ⟨w₂, hrun, -⟩ := run_of_own tidy hb own hd hlive
    exact congrArg Prod.fst hrun

theorem run_lookup_prologue (tidy : w.stores.Tidy) (m : Embedder ε) (t : Thread) {i : TableId}
    {host caller : String} {hooks : ManagedHooks} {entry : ManagedEntry}
    (hlookup : (lookup i host caller).isLive w t = true)
    (hprologue : (prologue hooks entry host).isLive w t = true)
    (hi : (w.table i).resolver.bridge? w = some b) (hhooks : hooks.resolver.bridge? w = some b)
    (own : b.IsOwn w) (hcaller : b = .exported → '\x00' ∉ caller.toList) : ∃ stack?,
      ((NativeHook.guardLookup m t i host caller).run w).1 =
        .ok (.ofStack? host (-1) caller stack?) ∧
      ((hooks.prologue m t entry host).run w).1 =
        .ok (.ofStack? host (-1) entry.callerTag stack?) := by
  obtain ⟨stack?, hd⟩ := own.answers_check_stack m t host nameResolutionPort
  have htag : '\x00' ∉ entry.callerTag.toList := by cases entry <;> decide
  obtain ⟨counted, hd₁⟩ := hd caller hcaller
  obtain ⟨counted', hd₂⟩ := hd entry.callerTag fun _ => htag
  obtain ⟨w₁, h₁, -⟩ := run_of_own (c := lookup i host caller) tidy hi own hd₁ hlookup
  obtain ⟨w₂, h₂, -⟩ := run_of_own (c := prologue hooks entry host) tidy hhooks own hd₂ hprologue
  exact ⟨stack?, congrArg Prod.fst h₁, congrArg Prod.fst h₂⟩

/-- Both layers are exactly as strict as the engine that they resolve, and pass otherwise. Whatever
the engine, a call is blocked just if it is live and the engine that it resolves, found active, then
answers with that block. A decision engine of this process, reached directly or through the exported
functions, may as well be asked without the hook: a live call decides the same. So a look-up and a
managed resolution of one host under one engine differ in nothing but the caller's tag. -/
theorem as_strict_as_engine (m : Embedder ε) (reach : w.stores.Reachable) (t : Thread) :
    (∀ (c : HookCall) attempt, ((c.run m t).run w).1 = .ok (.block attempt) ↔
      c.isLive w t = true ∧ ∃ b w₁ w₂,
        (c.resolver w).resolve.run (c.enter w t) = (.ok (some b), w₁) ∧
        (b.isActive m t).run w₁ = (.ok true, w₂) ∧
        ((c.question m t b).run w₂).1 = .ok (.block attempt)) ∧
    (∀ (c : HookCall) b, ((c.resolver w).resolve.run w).1 = .ok (some b) → b.IsOwn w →
      ∃ d, ((c.question m t b).run w).1 = .ok d ∧
        ((c.run m t).run w).1 = .ok (if c.isLive w t then d else .allow)) ∧
    (∀ c : HookCall, ((c.resolver w).resolve.run w).1 = .ok none →
      ((c.run m t).run w).1 = .ok .allow) ∧
    (∀ i host caller hooks entry b, (lookup i host caller).isLive w t = true →
      (prologue hooks entry host).isLive w t = true →
      ((w.table i).resolver.resolve.run w).1 = .ok (some b) →
      (hooks.resolver.resolve.run w).1 = .ok (some b) → b.IsOwn w →
      (b = .exported → '\x00' ∉ caller.toList) → ∃ stack?,
        ((NativeHook.guardLookup m t i host caller).run w).1 =
          .ok (.ofStack? host (-1) caller stack?) ∧
        ((hooks.prologue m t entry host).run w).1 =
          .ok (.ofStack? host (-1) entry.callerTag stack?)) ∧
    (∀ i caller (hooks : ManagedHooks) entry,
      ((NativeHook.guardLookup m t i "" caller).run w).1 = .ok .allow ∧
      ((hooks.prologue m t entry "").run w).1 = .ok .allow) := by
  have tidy := reach.tidy
  refine ⟨fun c attempt => run_block_iff, fun c b hb own => ?_, fun c hb => ?_, ?_, ?_⟩
  · exact run_eq_question tidy m t (Resolver.bridge?_of_resolve hb) own
  · obtain ⟨w₁, hallow⟩ := run_of_unresolved (Resolver.bridge?_of_resolve hb)
    exact congrArg Prod.fst hallow
  · intro i host caller hooks entry b hlookup hprologue hi hhooks own hcaller
    exact run_lookup_prologue tidy m t hlookup hprologue (Resolver.bridge?_of_resolve hi)
      (Resolver.bridge?_of_resolve hhooks) own hcaller
  · intro i caller hooks entry
    have hlookup : (lookup i "" caller).isLive w t = false := rfl
    have hprologue : (prologue hooks entry "").isLive w t = false := rfl
    obtain ⟨w₁, h₁⟩ := run_of_not_live (m := m) hlookup
    obtain ⟨w₂, h₂⟩ := run_of_not_live (m := m) hprologue
    exact ⟨congrArg Prod.fst h₁, congrArg Prod.fst h₂⟩

/-- Both layers block a host under the policy that blocks everything. -/
theorem as_strict_as_engine_blocked : ∃ (w : World Unit) (stack? : Option String),
    w.stores.Reachable ∧ stack? = some "" ∧
      ((NativeHook.guardLookup .passing ⟨1, none⟩ 0 "db.test" "native-dns").run w).1 =
        .ok (.ofStack? "db.test" (-1) "native-dns" stack?) ∧
      ((({ installed := true } : ManagedHooks).prologue .passing ⟨1, none⟩ .standard
        "db.test").run w).1 = .ok (.ofStack? "db.test" (-1) "std-resolve" stack?) := by
  let w : World Unit :=
    { stores := .activated .blockAll, registered := some (.engine { store := 1 })
      table := fun _ => { state := fun _ => .hooked }, embedding := () }
  have reach : w.stores.Reachable := Stores.reachable_activated _
  obtain ⟨stack?, hlookup, hprologue⟩ := (as_strict_as_engine .passing reach ⟨1, none⟩).2.2.2.1 0
    "db.test" "native-dns" { installed := true } .standard (.direct (.engine { store := 1 }))
    (by decide) (by decide) rfl rfl (fun _ => nofun) nofun
  have hblock : Decision.block ⟨"db.test", -1, "native-dns", ""⟩ =
      .ofStack? "db.test" (-1) "native-dns" stack? := Except.ok.inj (Eq.trans rfl hlookup)
  refine ⟨w, stack?, reach, ?_, hlookup, hprologue⟩
  cases stack? with
  | none => contradiction
  | some stack => exact congrArg some (BlockedAttempt.mk.inj (Decision.block.inj hblock)).2.2.2.symm

end HookCall

end Cordon
