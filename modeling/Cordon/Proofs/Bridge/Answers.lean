import Cordon.Proofs.Bridge.Foreign
import Cordon.Proofs.Store.Reads
/-!
What a decision engine is asked shows to nobody who asks it afterwards: asking counts, and may drop
stale slots, but leaves everything in sight that an answer depends on. So whatever is put together
from such questions answers the same wherever the process is not told apart by them.
-/
namespace Cordon

variable {ε α β : Type} {w w' w'' : World ε} {s : StoreId} {t : Thread}

/-- An embedding program whose engines let everything pass. -/
def Embedder.passing : Embedder ε where
  isActive _ _ := return false
  check _ _ _ _ _ := return .allow
  checkConnection _ _ _ _ _ _ := return .allow
  isExplicitlyBlocked _ _ _ := return false

/-- `w'` is not told apart from `w` by anybody who asks a decision engine. -/
structure World.Alike (w w' : World ε) : Prop where
  tidy : w'.stores.Tidy
  sight : ∀ s, w'.stores.sight s = w.stores.sight s
  frames : w'.frames = w.frames
  registered : w'.registered = w.registered
  table : w'.table = w.table

namespace World.Alike

theorem refl (h : w.stores.Tidy) : w.Alike w := ⟨h, fun _ => rfl, rfl, rfl, rfl⟩

theorem get_fst (h : w.Alike w') (s : StoreId) (t : Thread) :
    (w'.stores.get s t).1 = (w.stores.get s t).1 := by
  rw [Stores.get_fst, Stores.get_fst, h.sight]

theorem callStack_eq (h : w.Alike w') : w'.callStack = w.callStack :=
  congrArg CallStack.uncaptured h.frames

theorem get (h : w.Alike w') (s : StoreId) (t : Thread) :
    w.Alike { w' with stores := (w'.stores.get s t).2 } where
  tidy := h.tidy.get s t
  sight s' := (Stores.sight_get h.tidy s s' t).trans (h.sight s')
  frames := h.frames
  registered := h.registered
  table := h.table

theorem decide_eq (h : w.Alike w') (e : Engine) (t : Thread) (host : String) (port : Int)
    (caller : String) : (w'.decide e t host port caller w'.callStack).1 =
      (e.decide w.stores t host port caller w.callStack).1 := by
  change e.judge t w'.callStack (w'.stores.get e.store t).1 _ = _
  rw [h.callStack_eq, h.get_fst]
  rfl

theorem decideConnection_eq (h : w.Alike w') (e : Engine) (t : Thread) (address : Address)
    (names : List String) (port : UInt16) (caller : String) :
    (w'.decideConnection e t address names port caller).1 =
      (e.decideConnection w.stores t address names port caller w.callStack).1 := by
  change e.judge t w'.callStack (w'.stores.get e.store t).1 _ = _
  rw [h.callStack_eq, h.get_fst]
  rfl

theorem count (h : w.Alike w') (e : Event) : w.Alike (w'.count e) :=
  ⟨h.tidy, h.sight, h.frames, h.registered, h.table⟩

theorem setInHook (h : w.Alike w') (t : ThreadId) (inside : Bool) :
    w.Alike (w'.setInHook t inside) :=
  ⟨h.tidy, h.sight, h.frames, h.registered, h.table⟩

theorem symbols (h : w.Alike w') (symbols : SymbolCache Unit) :
    w.Alike { w' with symbols } :=
  ⟨h.tidy, h.sight, h.frames, h.registered, h.table⟩

end World.Alike

namespace Act

variable {x : Act ε α} {a : α} {b : β}

/-- The action answers `a` and counts the events `counted` in every world that is not told apart
from `w`, and is not told apart itself. -/
def Answers (w : World ε) (x : Act ε α) (a : α) (counted : List Event) : Prop :=
  ∀ w', w.Alike w' →
    ∃ w'', x.run w' = (.ok a, w'') ∧ w.Alike w'' ∧ w''.events = counted ++ w'.events

namespace Answers

variable {counted more : List Event}

theorem run (h : Answers w x a counted) (tidy : w.stores.Tidy) :
    ∃ w', x.run w = (.ok a, w') ∧ w.Alike w' ∧ w'.events = counted ++ w.events :=
  h w (.refl tidy)

theorem pure (a : α) : Answers w (Pure.pure a) a [] := fun w' hw => ⟨w', rfl, hw, rfl⟩

theorem read {f : World ε → α} (h : ∀ w', w.Alike w' → f w' = a) :
    Answers w (Act.read f) a [] :=
  fun w' hw => ⟨w', congrArg (fun a => (Except.ok a, w')) (h w' hw), hw, rfl⟩

theorem step {f : World ε → α × World ε} (ha : ∀ w', w.Alike w' → (f w').1 = a)
    (hf : ∀ w', w.Alike w' → w.Alike (f w').2)
    (hcounted : ∀ w', w.Alike w' → (f w').2.events = counted ++ w'.events) :
    Answers w (ofStep f) a counted :=
  fun w' hw => ⟨(f w').2, congrArg (fun a => (Except.ok a, (f w').2)) (ha w' hw), hf w' hw,
    hcounted w' hw⟩

theorem append {f : α → Act ε β} (hx : Answers w x a counted) (hf : Answers w (f a) b more) :
    Answers w (x >>= f) b (more ++ counted) := by
  intro w₀ hw
  obtain ⟨w₁, hx, hw, hcounted⟩ := hx w₀ hw
  obtain ⟨w₂, hf, hw, hmore⟩ := hf w₁ hw
  exact ⟨w₂, (run_bind_ok hx f).trans hf, hw, by rw [hmore, hcounted, List.append_assoc]⟩

/-- Only the second of two actions counts. -/
theorem bind {f : α → Act ε β} (hx : Answers w x a []) (hf : Answers w (f a) b counted) :
    Answers w (x >>= f) b counted := by
  have h := hx.append hf
  rwa [List.append_nil] at h

/-- Only the first of two actions counts. -/
theorem bind_quiet {f : α → Act ε β} (hx : Answers w x a counted) (hf : Answers w (f a) b []) :
    Answers w (x >>= f) b counted :=
  hx.append hf

theorem map (hx : Answers w x a counted) (f : α → β) : Answers w (f <$> x) (f a) counted := by
  intro w₀ hw
  obtain ⟨w₁, hx, hw⟩ := hx w₀ hw
  exact ⟨w₁, run_map_ok hx f, hw⟩

theorem orElse (hx : Answers w x a counted) (fallback : α) :
    Answers w (x.orElse fallback) a counted := by
  intro w₀ hw
  obtain ⟨w₁, hx, hw⟩ := hx w₀ hw
  exact ⟨w₁, run_orElse_ok hx fallback, hw⟩

end Answers

end Act

open Act

/-! ## The decision engine -/

namespace Backend

variable {m : Embedder ε} {e : Engine}

theorem answers_isActive (m : Embedder ε) (e : Engine) (t : Thread) :
    Answers w ((engine e).isActive m t) (w.stores.get e.store t).1.isSome [] := by
  rw [isActive]
  exact .step (fun _ hw => congrArg Option.isSome (hw.get_fst e.store t))
    (fun _ hw => hw.get e.store t) fun _ _ => rfl

theorem answers_isExplicitlyBlocked (m : Embedder ε) (e : Engine) (t : Thread) (host : String) :
    Answers w ((engine e).isExplicitlyBlocked m t host)
      ((w.stores.get e.store t).1.any (·.isExplicitlyBlocked host)) [] := by
  rw [isExplicitlyBlocked]
  exact .step (fun _ hw => congrArg (Option.any _) (hw.get_fst e.store t))
    (fun _ hw => hw.get e.store t) fun _ _ => rfl

theorem answers_check (m : Embedder ε) (e : Engine) (t : Thread) (host : String) (port : Int)
    (caller : String) : Answers w ((engine e).check m t host port caller)
      (e.decide w.stores t host port caller w.callStack).1.decision
      [.decision (e.decide w.stores t host port caller w.callStack).1.outcome caller] := by
  rw [check]
  exact .step (fun _ hw => congrArg Judgement.decision (hw.decide_eq e t host port caller))
    (fun _ hw => (hw.get e.store t).count _)
    fun w' hw => congrArg (fun j : Judgement => Event.decision j.outcome caller :: w'.events)
      (hw.decide_eq e t host port caller)

theorem answers_checkConnection (m : Embedder ε) (e : Engine) (t : Thread) (address : Address)
    (names : List String) (port : UInt16) (caller : String) :
    Answers w ((engine e).checkConnection m t address names port caller)
      (e.decideConnection w.stores t address names port caller w.callStack).1.decision
      [.decision (e.decideConnection w.stores t address names port caller w.callStack).1.outcome
        caller] := by
  rw [checkConnection]
  exact .step (fun _ hw => congrArg Judgement.decision
      (hw.decideConnection_eq e t address names port caller))
    (fun _ hw => (hw.get e.store t).count _)
    fun w' hw => congrArg (fun j : Judgement => Event.decision j.outcome caller :: w'.events)
      (hw.decideConnection_eq e t address names port caller)

end Backend

/-! ## The exported functions -/

section Exported

variable {m : Embedder ε} {e : Engine} {b : Backend} {a fallback : α}
  {question : Backend → Act ε α}

theorem Exported.answers_ask {counted : List Event} (hw : w.registered = some b)
    (h : Answers w (question b) a counted) : Answers w (ask fallback question) a counted := by
  refine Answers.bind (a := some b) (.read fun _ hw' => hw'.registered.trans hw) ?_
  exact h.orElse fallback

theorem Exported.answers_ask_none (hw : w.registered = none) :
    Answers w (ask fallback question) fallback [] :=
  Answers.bind (a := none) (.read fun _ hw' => hw'.registered.trans hw) (.pure _)

namespace Foreign

theorem answers_isExplicitlyBlocked (m : Embedder ε) (hw : w.registered = some (.engine e))
    (t : Thread) (host : String) : Answers w (isExplicitlyBlocked m t host)
      ((ForeignText.ofString? host).isSome &&
        (w.stores.get e.store t).1.any (·.isExplicitlyBlocked host)) [] := by
  rw [isExplicitlyBlocked]
  cases h : ForeignText.ofString? host with
  | none => exact .pure _
  | some bytes =>
    obtain rfl := ForeignText.eq_utf8_of_ofString? h
    simp only [Exported.isExplicitlyBlocked, ForeignText.read_utf8]
    exact Exported.answers_ask hw (Backend.answers_isExplicitlyBlocked m e t host)

/-- The first name that the other side says is blocked; a name with a zero in it is not sent. -/
def blockedName? (policy? : Option Policy) (names : List String) : Option String :=
  names.find? fun name =>
    (ForeignText.ofString? name).isSome && policy?.any (·.isExplicitlyBlocked name)

theorem answers_firstBlocked (m : Embedder ε) (hw : w.registered = some (.engine e)) (t : Thread)
    (names : List String) : Answers w (firstBlocked m t names)
      (blockedName? (w.stores.get e.store t).1 names) [] := by
  induction names with
  | nil => exact .pure _
  | cons name names ih =>
    refine (answers_isExplicitlyBlocked m hw t name).bind ?_
    rw [blockedName?, List.find?_cons]
    cases (ForeignText.ofString? name).isSome &&
        (w.stores.get e.store t).1.any (·.isExplicitlyBlocked name) with
    | true => exact .pure _
    | false => exact ih

theorem answers_check (m : Embedder ε) (hw : w.registered = some (.engine e)) (t : Thread)
    (host : String) (port : Int) (caller : String) : Answers w (check m t host port caller)
      (if (ForeignText.ofString? host).isSome ∧ (ForeignText.ofString? caller).isSome then
        decision host port caller
          (Exported.verdict (e.decide w.stores t host port caller w.callStack).1.decision)
      else .allow)
      (if (ForeignText.ofString? host).isSome ∧ (ForeignText.ofString? caller).isSome then
        [.decision (e.decide w.stores t host port caller w.callStack).1.outcome caller]
      else []) := by
  rw [check]
  cases hhost : ForeignText.ofString? host with
  | none => exact .pure _
  | some h =>
    cases hcaller : ForeignText.ofString? caller with
    | none => exact .pure _
    | some c =>
      obtain rfl := ForeignText.eq_utf8_of_ofString? hhost
      obtain rfl := ForeignText.eq_utf8_of_ofString? hcaller
      simp only [Exported.check, ForeignText.read_utf8]
      exact (Exported.answers_ask hw ((Backend.answers_check m e t host port caller).map _)).map _

theorem answers_checkConnection (m : Embedder ε) (hw : w.registered = some (.engine e)) (t : Thread)
    (address : Address) (names : List String) (port : UInt16) (caller : String) :
    Answers w (checkConnection m t address names port caller)
      (if (ForeignText.ofString? caller).isSome then
        (decision address.text port.toNat caller (Exported.verdict
          (e.decideConnection w.stores t address (heard names) port caller
            w.callStack).1.decision)).mapAttempt fun b =>
          let name? := (blockedName? (w.stores.get e.store t).1 names).or names.head?
          { b with host := name?.getD b.host }
      else .allow)
      (if (ForeignText.ofString? caller).isSome then
        [.decision (e.decideConnection w.stores t address (heard names) port caller
          w.callStack).1.outcome caller]
      else []) := by
  rw [checkConnection]
  cases hcaller : ForeignText.ofString? caller with
  | none => exact .pure _
  | some c =>
    obtain rfl := ForeignText.eq_utf8_of_ofString? hcaller
    rw [Option.isSome_some, if_pos rfl, if_pos rfl]
    have hverdict : Answers w (Exported.checkConnection m t (some (Text.utf8 address.text))
        (namesText names) port.toNat (some (Text.utf8 caller)))
        (Exported.verdict (e.decideConnection w.stores t address (heard names) port caller
          w.callStack).1.decision)
        [.decision (e.decideConnection w.stores t address (heard names) port caller
          w.callStack).1.outcome caller] := by
      simp only [Exported.checkConnection, ForeignText.read_utf8, Option.bind_some,
        Address.read_text, Exported.portOf?_toNat]
      exact Exported.answers_ask hw
        ((Backend.answers_checkConnection m e t address (heard names) port caller).map _)
    refine hverdict.bind_quiet ?_
    cases decision address.text port.toNat caller (Exported.verdict
      (e.decideConnection w.stores t address (heard names) port caller
        w.callStack).1.decision) with
    | allow => exact .pure _
    | block b => exact (answers_firstBlocked m hw t names).bind (.pure _)

end Foreign

end Exported

/-! ## Bridges -/

namespace Bridge

variable {m : Embedder ε} {e : Engine} {b : Bridge}

/-- What a bridge leads to. -/
def backend? (w : World ε) : Bridge → Option Backend
  | direct b => some b
  | exported => w.registered

/-- The bridge leads to no engine of the embedding program. -/
def IsOwn (w : World ε) (b : Bridge) : Prop := ∀ i, b.backend? w ≠ some (.embedded i)

theorem eq_of_backend?_eq_engine (h : b.backend? w = some (.engine e)) :
    b = .direct (.engine e) ∨ b = .exported ∧ w.registered = some (.engine e) := by
  cases b with
  | direct b =>
    obtain rfl := Option.some.inj h
    exact .inl rfl
  | exported => exact .inr ⟨rfl, h⟩

theorem eq_of_backend?_eq_none (h : b.backend? w = none) : b = .exported ∧ w.registered = none := by
  cases b with
  | direct b => contradiction
  | exported => exact ⟨rfl, h⟩

theorem IsOwn.backend?_cases (own : b.IsOwn w) :
    (∃ e, b.backend? w = some (.engine e)) ∨ b.backend? w = none := by
  cases h : b.backend? w with
  | none => exact .inr rfl
  | some backend =>
    cases backend with
    | engine e => exact .inl ⟨e, rfl⟩
    | embedded i => exact absurd h (own i)

theorem answers_isActive (m : Embedder ε) (h : b.backend? w = some (.engine e)) (t : Thread) :
    Answers w (b.isActive m t) (w.stores.get e.store t).1.isSome [] := by
  rcases eq_of_backend?_eq_engine h with rfl | ⟨rfl, hw⟩
  · exact Backend.answers_isActive m e t
  · exact Exported.answers_ask hw (Backend.answers_isActive m e t)

theorem answers_isActive_none (m : Embedder ε) (h : b.backend? w = none) (t : Thread) :
    Answers w (b.isActive m t) false [] := by
  obtain ⟨rfl, hw⟩ := eq_of_backend?_eq_none h
  exact Exported.answers_ask_none hw

theorem answers_check_none (m : Embedder ε) (h : b.backend? w = none) (t : Thread) (host : String)
    (port : Int) (caller : String) : Answers w (b.check m t host port caller) .allow [] := by
  obtain ⟨rfl, hw⟩ := eq_of_backend?_eq_none h
  change Answers w (Foreign.check m t host port caller) _ _
  rw [Foreign.check]
  split
  · refine Answers.map (a := none) ?_ _
    rw [Exported.check]
    split
    · exact Exported.answers_ask_none hw
    · exact .pure _
  · exact .pure _

theorem answers_checkConnection_none (m : Embedder ε) (h : b.backend? w = none) (t : Thread)
    (address : Address) (names : List String) (port : UInt16) (caller : String) :
    Answers w (b.checkConnection m t address names port caller) .allow [] := by
  obtain ⟨rfl, hw⟩ := eq_of_backend?_eq_none h
  change Answers w (Foreign.checkConnection m t address names port caller) _ _
  rw [Foreign.checkConnection]
  split
  · exact .pure _
  · refine Answers.bind (a := none) ?_ (.pure _)
    rw [Exported.checkConnection]
    split
    · exact Exported.answers_ask_none hw
    · exact .pure _

theorem backend?_eq_of_registered (b : Bridge) (he : b.backend? w = some (.engine e))
    (hw : w'.registered = w.registered) : b.backend? w' = some (.engine e) := by
  cases b with
  | direct b => exact he
  | exported => exact hw.trans he

theorem isOwn_of_engine (he : b.backend? w = some (.engine e)) : b.IsOwn w := by
  intro i h
  rw [he] at h
  exact nomatch h

/-- Texts without zeros are judged on the other side as they are here. -/
theorem answers_check_engine (m : Embedder ε) (he : b.backend? w = some (.engine e)) (t : Thread)
    (host : String) (port : Int) (caller : String)
    (hcross : b = .exported → '\x00' ∉ host.toList ∧ '\x00' ∉ caller.toList) :
    ∃ d counted, Answers w (b.check m t host port caller) d counted ∧ d.isBlocked =
      (e.decide w.stores t host port caller w.callStack).1.decision.isBlocked := by
  rcases eq_of_backend?_eq_engine he with rfl | ⟨rfl, hw⟩
  · exact ⟨_, _, Backend.answers_check m e t host port caller, rfl⟩
  · obtain ⟨hhost, hcaller⟩ := hcross rfl
    have hcheck := Foreign.answers_check m hw t host port caller
    rw [ForeignText.ofString?_of_nul_not_mem hhost, ForeignText.ofString?_of_nul_not_mem hcaller,
      if_pos ⟨rfl, rfl⟩] at hcheck
    refine ⟨_, _, hcheck, ?_⟩
    cases (e.decide w.stores t host port caller w.callStack).1.decision with
    | allow => rfl
    | block attempt => rfl

/-- A bridge that says that nothing is active passes what it is asked, if engines do and if it does
without one. -/
theorem IsOwn.answers (m : Embedder ε) (own : b.IsOwn w) (t : Thread) {question : Act ε Decision}
    (hengine : ∀ e, b.backend? w = some (.engine e) → ∃ d counted, Answers w question d counted ∧
      ((w.stores.get e.store t).1 = none → d = .allow))
    (hnone : b.backend? w = none → Answers w question .allow []) : ∃ active d counted,
      Answers w (b.isActive m t) active [] ∧ Answers w question d counted ∧
      (active = false → d = .allow) := by
  rcases own.backend?_cases with ⟨e, h⟩ | h
  · obtain ⟨d, counted, hd, hallow⟩ := hengine e h
    exact ⟨_, d, counted, Bridge.answers_isActive m h t, hd, fun hactive =>
      hallow (by simpa using hactive)⟩
  · exact ⟨false, .allow, [], answers_isActive_none m h t, hnone h, fun _ => rfl⟩

theorem IsOwn.answers_check (m : Embedder ε) (own : b.IsOwn w) (t : Thread) (host : String)
    (port : Int) (caller : String) : ∃ active d counted, Answers w (b.isActive m t) active [] ∧
      Answers w (b.check m t host port caller) d counted ∧ (active = false → d = .allow) := by
  refine own.answers m t (fun e h => ?_) fun h => answers_check_none m h t host port caller
  rcases eq_of_backend?_eq_engine h with rfl | ⟨rfl, hw⟩
  · exact ⟨_, _, Backend.answers_check m e t host port caller, fun hnone =>
      Engine.decision_decide_of_none hnone ..⟩
  · refine ⟨_, _, Foreign.answers_check m hw t host port caller, fun hnone => ?_⟩
    rw [Engine.decision_decide_of_none hnone]
    exact ite_self _

theorem IsOwn.answers_checkConnection (m : Embedder ε) (own : b.IsOwn w) (t : Thread)
    (address : Address) (names : List String) (port : UInt16) (caller : String) :
    ∃ active d counted, Answers w (b.isActive m t) active [] ∧
      Answers w (b.checkConnection m t address names port caller) d counted ∧
      (active = false → d = .allow) := by
  refine own.answers m t (fun e h => ?_) fun h =>
    answers_checkConnection_none m h t address names port caller
  rcases eq_of_backend?_eq_engine h with rfl | ⟨rfl, hw⟩
  · exact ⟨_, _, Backend.answers_checkConnection m e t address names port caller, fun hnone =>
      Engine.decision_decideConnection_of_none hnone ..⟩
  · refine ⟨_, _, Foreign.answers_checkConnection m hw t address names port caller, fun hnone => ?_⟩
    rw [Engine.decision_decideConnection_of_none hnone]
    exact ite_self _

/-- The caller's tag makes no difference to the answer about a host but for its own place there. -/
theorem IsOwn.answers_check_stack (m : Embedder ε) (own : b.IsOwn w) (t : Thread) (host : String)
    (port : Int) : ∃ stack? : Option String,
      ∀ caller, (b = .exported → '\x00' ∉ caller.toList) → ∃ counted,
        Answers w (b.check m t host port caller) (.ofStack? host port caller stack?) counted := by
  rcases own.backend?_cases with ⟨e, h⟩ | h
  · obtain ⟨stack?, hd⟩ := e.exists_decide_ofStack? w.stores t host port w.callStack
    rcases eq_of_backend?_eq_engine h with rfl | ⟨rfl, hw⟩
    · refine ⟨stack?, fun caller _ => ?_⟩
      rw [← hd]
      exact ⟨_, Backend.answers_check m e t host port caller⟩
    · by_cases hhost : (ForeignText.ofString? host).isSome = true
      · -- the stack goes through the caller's buffer
        refine ⟨stack?.map fun stack => readBuffer (writeBuffer stack stackBufferSize),
          fun caller hcaller => ?_⟩
        have hcheck := Foreign.answers_check m hw t host port caller
        rw [ForeignText.ofString?_of_nul_not_mem (hcaller rfl), if_pos ⟨hhost, rfl⟩, hd] at hcheck
        cases stack? with
        | none => exact ⟨_, hcheck⟩
        | some stack => exact ⟨_, hcheck⟩
      · refine ⟨none, fun caller _ => ?_⟩
        have hcheck := Foreign.answers_check m hw t host port caller
        rw [if_neg fun h => hhost h.1] at hcheck
        exact ⟨_, hcheck⟩
  · exact ⟨none, fun caller _ => ⟨_, answers_check_none m h t host port caller⟩⟩

end Bridge

end Cordon
