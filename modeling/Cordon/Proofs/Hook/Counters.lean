import Cordon.Proofs.Hook.Decided
/-!
What is counted over a run. Every call that brings an engine to a decision adds one to one counter,
and every native call that goes straight to the function behind the hook adds one to another;
nothing else adds anything. So the counters tell of a run how many decisions were reached, how many
of them were blocks, and how many calls were not guarded.
-/
namespace Cordon

variable {ε : Type} {m : Embedder ε} {w w' w'' : World ε} {t : Thread} {b : Bridge} {e : Engine}

open Act (Answers Decides)

/-! ## Calls -/

/-- A call that may come to an engine. An engine itself is a direct bridge; it may also be asked
with a stack that the caller supplies. -/
inductive Query where
  | decide (e : Engine) (host : String) (port : Int) (caller : String) (stack : CallStack)
  | check (b : Bridge) (host : String) (port : Int) (caller : String)
  | checkConnection (b : Bridge) (address : Address) (hostnames : List String) (port : UInt16)
    (caller : String)
  | isActive (b : Bridge)
  | isExplicitlyBlocked (b : Bridge) (host : String)
  | entry (x : EntryPoint)
  | hook (c : HookCall)

namespace Query

/-- Makes the call and tells whether the answer is a block. -/
def run (m : Embedder ε) (t : Thread) : Query → Act ε Bool
  | decide e host port caller stack => .ofStep fun w =>
    let (j, w) := w.decide e t host port caller stack
    (j.decision.isBlocked, w)
  | check b host port caller => Decision.isBlocked <$> b.check m t host port caller
  | checkConnection b address hostnames port caller =>
    Decision.isBlocked <$> b.checkConnection m t address hostnames port caller
  | isActive b => (fun _ => false) <$> b.isActive m t
  | isExplicitlyBlocked b host => (fun _ => false) <$> b.isExplicitlyBlocked m t host
  | entry x => (x.decides && ·) <$> x.run m t
  | hook c => Decision.isBlocked <$> c.run m t

def caller : Query → String
  | decide _ _ _ caller _ | check _ _ _ caller | checkConnection _ _ _ _ caller => caller
  | isActive _ | isExplicitlyBlocked .. => ""
  | entry x => x.caller
  | hook c => c.caller

/-- The engine that comes to a decision. -/
def engine? (w : World ε) (t : Thread) : Query → Option Engine
  | decide e .. => some e
  | check b host _ caller => b.engine? w [host, caller]
  | checkConnection b _ _ _ caller => b.engine? w [caller]
  | isActive _ | isExplicitlyBlocked .. => none
  | entry x => x.engine? w
  | hook c => c.engine? w t

/-- Why the call goes straight to the function behind a native hook. -/
def passed? (w : World ε) (t : Thread) : Query → Option (NativeEntry × PassReason)
  | hook c => c.passed? w t
  | _ => none

/-- The call comes to no engine of the embedding program. -/
def IsOwn (w : World ε) (t : Thread) : Query → Prop
  | decide .. => True
  | check b .. | checkConnection b .. | isActive b | isExplicitlyBlocked b _ => b.IsOwn w
  | entry _ => Bridge.exported.IsOwn w
  | hook c => c.IsOwn w t

end Query

theorem Bridge.answers_isExplicitlyBlocked (own : b.IsOwn w) (m : Embedder ε) (t : Thread)
    (host : String) : ∃ a, Answers w (b.isExplicitlyBlocked m t host) a [] := by
  rcases own.backend?_cases with ⟨e, h⟩ | h
  · rcases eq_of_backend?_eq_engine h with rfl | ⟨rfl, hw⟩
    · exact ⟨_, Backend.answers_isExplicitlyBlocked m e t host⟩
    · exact ⟨_, Foreign.answers_isExplicitlyBlocked m hw t host⟩
  · obtain ⟨rfl, -⟩ := eq_of_backend?_eq_none h
    change ∃ a, Answers w (Foreign.isExplicitlyBlocked m t host) a []
    rw [Foreign.isExplicitlyBlocked]
    cases ForeignText.ofString? host with
    | none => exact ⟨false, .pure _⟩
    | some bytes => exact Exported.answers_isExplicitlyBlocked own m t (some bytes)

theorem Engine.decides_decide (m : Embedder ε) (e : Engine) (t : Thread) (host : String)
    (port : Int) (caller : String) (stack : CallStack) :
    Decides w t (some e) caller id ((Query.decide e host port caller stack).run m t) := by
  have hjudged (w' : World ε) (hw : w.Alike w') : (w'.decide e t host port caller stack).1 =
      (e.decide w.stores t host port caller stack).1 := by
    change e.judge t stack (w'.stores.get e.store t).1 _ = _
    rw [hw.get_fst]
    rfl
  refine .judgement ?_ (e.faithful_decide w.stores t host port caller stack) rfl
  rw [Query.run]
  exact .step (fun w' hw => congrArg (·.decision.isBlocked) (hjudged w' hw))
    (fun _ hw => (hw.get e.store t).count _)
    fun w' hw => congrArg (fun j : Judgement => Event.decision j.outcome caller :: w'.events)
      (hjudged w' hw)

namespace Query

variable {q : Query}

theorem engine?_of_passed? {p : NativeEntry × PassReason} (h : q.passed? w t = some p) :
    q.engine? w t = none := by
  cases q with
  | hook c => exact HookCall.engine?_of_passed? h
  | _ => exact nomatch h

theorem passed?_of_engine? (h : q.engine? w t = some e) : q.passed? w t = none := by
  cases hpassed : q.passed? w t with
  | none => rfl
  | some p => exact nomatch h.symm.trans (engine?_of_passed? hpassed)

/-- Without a hook in front, a call comes straight to its engine. -/
theorem decides_run (own : q.IsOwn w t) (hq : ∀ c, q ≠ .hook c) (m : Embedder ε) :
    Decides w t (q.engine? w t) q.caller id (q.run m t) := by
  cases q with
  | decide e host port caller stack => exact e.decides_decide m t host port caller stack
  | check b host port caller => exact (b.decides_check own m t host port caller).map fun _ => rfl
  | checkConnection b address hostnames port caller =>
    exact (b.decides_checkConnection own m t address hostnames port caller).map fun _ => rfl
  | isActive b => exact .nothing ((b.answers_active own m t).map _) rfl
  | isExplicitlyBlocked b host =>
    obtain ⟨a, h⟩ := b.answers_isExplicitlyBlocked own m t host
    exact .nothing (h.map _) rfl
  | entry x => exact x.decides_run own m t
  | hook c => exact absurd rfl (hq c)

/-- What a call counts, and when. -/
theorem counts (tidy : w.stores.Tidy) (own : q.IsOwn w t) (m : Embedder ε) :
    ∃ blocked outcome? w', (q.run m t).run w = (.ok blocked, w') ∧ w'.stores.Tidy ∧
      w'.events = decisionEvents q.caller outcome? ++ passEvents (q.passed? w t) ++ w.events ∧
      w.Decided t (q.engine? w t) blocked outcome? ∧
      ∀ c, q = .hook c → outcome? ≠ some .noConfiguration := by
  cases q with
  | hook c =>
    obtain ⟨d, outcome?, w', hrun, htidy, hevents, hdecided, hconfigured⟩ := c.counts tidy own m
    exact ⟨_, outcome?, w', Act.run_map_ok hrun _, htidy, hevents, hdecided,
      fun _ _ => hconfigured⟩
  | _ =>
    obtain ⟨blocked, outcome?, w', hrun, htidy, hevents, hdecided⟩ :=
      (decides_run own nofun m).run tidy
    refine ⟨blocked, outcome?, w', hrun, htidy, ?_, hdecided, nofun⟩
    rw [hevents]
    exact congrArg (· ++ w.events) (List.append_nil _).symm

end Query

/-! ## Runs -/

/-- All decisions that were counted for a caller. -/
def World.decisions (w : World ε) (caller : String) : Nat :=
  w.counted (.decision .allowed caller) + w.counted (.decision .blocked caller) +
    w.counted (.decision .exempt caller) + w.counted (.decision .noConfiguration caller)

namespace Counting

/-- What can be told of a call without looking at the counters. -/
structure Told where
  caller : String
  /-- Whether an engine came to a decision. -/
  reached : Bool
  blocked : Bool
  passed? : Option (NativeEntry × PassReason)

def told (w : World ε) (t : Thread) (q : Query) (blocked : Bool) : Told :=
  ⟨q.caller, (q.engine? w t).isSome, blocked, q.passed? w t⟩

/-- The calls, oldest first and one after another, lead from the one world to the other. In between,
operations run on the stores, and everything else in the world may change but what was counted:
tables are installed and bound, engines registered and unregistered. -/
inductive Leads (m : Embedder ε) (w : World ε) : List Told → World ε → Prop
  | refl : Leads m w [] w
  | query {log : List Told} {w' w'' : World ε} {blocked : Bool} : Leads m w log w' →
    (t : Thread) → (q : Query) → q.IsOwn w' t → (q.run m t).run w' = (.ok blocked, w'') →
    Leads m w (log ++ [told w' t q blocked]) w''
  | stores {log : List Told} {w' : World ε} : Leads m w log w' → (op : Stores.Op) →
    Leads m w log { w' with stores := (op.apply ⟨w'.stores, []⟩).stores }
  | other {log : List Told} {w' w'' : World ε} : Leads m w log w' → w''.stores = w'.stores →
    w''.events = w'.events → Leads m w log w''

variable {log more : List Told}

namespace Leads

theorem trans (h : Leads m w log w') (h' : Leads m w' more w'') :
    Leads m w (log ++ more) w'' := by
  induction h' with
  | refl =>
    rw [List.append_nil]
    exact h
  | query _ t q own hrun ih =>
    rw [← List.append_assoc]
    exact ih.query t q own hrun
  | stores _ op ih => exact ih.stores op
  | other _ hstores hevents ih => exact ih.other hstores hevents

/-- What decision engines do when they are asked is done by calls. -/
theorem patient (m : Embedder ε) :
    World.Patient fun w w' : World ε => ∃ log, Leads m w log w' where
  refl w := ⟨[], .refl⟩
  trans := by
    rintro w w' w'' ⟨log, h⟩ ⟨more, h'⟩
    exact ⟨log ++ more, h.trans h'⟩
  get w s t := ⟨_, Leads.refl.stores (.get s t)⟩
  decide w e t host port caller :=
    ⟨_, Leads.refl.query t (.decide e host port caller w.callStack) trivial rfl⟩
  decideConnection w e t address hostnames port caller :=
    ⟨_, Leads.refl.query t (.checkConnection (.direct (.engine e)) address hostnames port caller)
      (Bridge.isOwn_of_engine rfl) rfl⟩
  symbols w symbols := ⟨[], Leads.refl.other rfl rfl⟩
  setInHook w t inside := ⟨[], Leads.refl.other rfl rfl⟩

variable (hm : m.Within fun w w' => ∃ log, Leads m w log w')
include hm

theorem hook (t : Thread) (c : HookCall) (w : World ε) :
    ∃ log, Leads m w log ((c.run m t).run w).2 := by
  cases hlive : c.isLive w t with
  | false =>
    have hrun := HookCall.run_eq_of_not_live (m := m) hlive
    rw [hrun]
    exact ⟨_, Leads.refl.query t (.hook c) (HookCall.isOwn_of_not_live hlive)
      (Act.run_map_ok hrun _)⟩
  | true =>
    cases hb : (c.resolver w).bridge? w with
    | some b => exact HookCall.within_run_of_resolved (patient m) hm hlive hb
    | none =>
      obtain ⟨symbols, hrun⟩ := HookCall.run_eq_of_unresolved (m := m) hb hlive
      rw [hrun]
      exact ⟨_, Leads.refl.query t (.hook c) (HookCall.isOwn_of_unresolved hb)
        (Act.run_map_ok hrun _)⟩

/-- A call that comes to an engine of the embedding program is no more than the calls that this
engine makes. -/
theorem within_run (t : Thread) (q : Query) :
    Act.Within (fun w w' => ∃ log, Leads m w log w') (q.run m t) := by
  have H := patient m
  cases q with
  | decide e host port caller stack =>
    exact fun w => ⟨_, Leads.refl.query t (.decide e host port caller stack) trivial rfl⟩
  | check b host port caller => exact (b.within_check H hm t host port caller).map H _
  | checkConnection b address hostnames port caller =>
    exact (b.within_checkConnection H hm t address hostnames port caller).map H _
  | isActive b => exact (b.within_isActive H hm t).map H _
  | isExplicitlyBlocked b host => exact (b.within_isExplicitlyBlocked H hm t host).map H _
  | entry x => exact (x.within_run H hm t).map H _
  | hook c => exact Act.Within.map H (hook hm t c) _

end Leads

/-! ## Totals -/

theorem count_decisionEvents (outcome? : Option Outcome) (outcome : Outcome)
    (caller caller' : String) : (decisionEvents caller outcome?).count (.decision outcome caller') =
      if outcome? = some outcome ∧ caller = caller' then 1 else 0 := by
  cases outcome? with
  | none => rfl
  | some outcome' => simp [decisionEvents, List.count_singleton]

theorem sum_count_decisionEvents (outcome? : Option Outcome) (caller caller' : String) :
    (decisionEvents caller outcome?).count (.decision .allowed caller') +
      (decisionEvents caller outcome?).count (.decision .blocked caller') +
      (decisionEvents caller outcome?).count (.decision .exempt caller') +
      (decisionEvents caller outcome?).count (.decision .noConfiguration caller') =
      if outcome?.isSome && caller = caller' then 1 else 0 := by
  simp only [count_decisionEvents]
  cases outcome? with
  | none => rfl
  | some outcome => cases outcome <;> simp

theorem count_decisionEvents_passthrough (outcome? : Option Outcome) (caller : String)
    (entry : NativeEntry) (reason : PassReason) :
    (decisionEvents caller outcome?).count (.passthrough entry reason) = 0 := by
  cases outcome? with
  | none => rfl
  | some outcome => rfl

theorem count_passEvents (passed? : Option (NativeEntry × PassReason)) (entry : NativeEntry)
    (reason : PassReason) : (passEvents passed?).count (.passthrough entry reason) =
      if passed? = some (entry, reason) then 1 else 0 := by
  cases passed? with
  | none => rfl
  | some p => simp [passEvents, List.count_singleton, Prod.ext_iff]

theorem count_passEvents_decision (passed? : Option (NativeEntry × PassReason))
    (outcome : Outcome) (caller : String) :
    (passEvents passed?).count (.decision outcome caller) = 0 := by
  cases passed? with
  | none => rfl
  | some p => rfl

/-- The counters agree with what is told of the calls. -/
structure Tallied (log : List Told) (w : World ε) : Prop where
  tidy : w.stores.Tidy
  blocked : ∀ caller, w.counted (.decision .blocked caller) =
    log.countP fun x => x.blocked && x.caller = caller
  decisions : ∀ caller, w.decisions caller = log.countP fun x => x.reached && x.caller = caller
  passed : ∀ entry reason, w.counted (.passthrough entry reason) =
    log.countP fun x => x.passed? = some (entry, reason)

theorem Tallied.query {q : Query} {blocked : Bool} (h : Tallied log w) (own : q.IsOwn w t)
    (hrun : (q.run m t).run w = (.ok blocked, w')) : Tallied (log ++ [told w t q blocked]) w' := by
  obtain ⟨blocked', outcome?, w'', hrun', htidy, hevents, hdecided, -⟩ := q.counts h.tidy own m
  obtain ⟨hblocked, rfl⟩ := Prod.mk.inj (hrun.symm.trans hrun')
  obtain rfl := Except.ok.inj hblocked
  have hcounted (x : Event) : w'.counted x =
      (decisionEvents q.caller outcome?).count x + (passEvents (q.passed? w t)).count x +
        w.counted x := by
    rw [World.counted, hevents, List.count_append, List.count_append]
    rfl
  refine ⟨htidy, fun caller => ?_, fun caller => ?_, fun entry reason => ?_⟩
  · rw [hcounted, count_decisionEvents, count_passEvents_decision, h.blocked, List.countP_append,
      List.countP_singleton, Nat.add_zero, Nat.add_comm]
    have hiff : outcome? = some .blocked ∧ q.caller = caller ↔
        (blocked && decide (q.caller = caller)) = true := by simp [hdecided.blocked_iff]
    exact congrArg _ (ite_congr (propext hiff) (fun _ => rfl) fun _ => rfl)
  · have hreached : (outcome?.isSome && decide (q.caller = caller)) =
        ((told w t q blocked).reached && decide ((told w t q blocked).caller = caller)) := by
      rw [hdecided.reached]
      rfl
    rw [List.countP_append, List.countP_singleton, ← h.decisions, ← hreached,
      ← sum_count_decisionEvents]
    simp only [World.decisions, hcounted, count_passEvents_decision]
    omega
  · rw [hcounted, count_decisionEvents_passthrough, count_passEvents, h.passed, List.countP_append,
      List.countP_singleton, Nat.zero_add, Nat.add_comm]
    exact congrArg _ (ite_congr decide_eq_true_eq.symm (fun _ => rfl) fun _ => rfl)

theorem Leads.tallied (h : Leads m w log w') (hevents : w.events = []) (tidy : w.stores.Tidy) :
    Tallied log w' := by
  induction h with
  | refl =>
    have hzero (x : Event) : w.counted x = 0 := by
      rw [World.counted, hevents]
      rfl
    refine ⟨tidy, fun caller => hzero _, fun caller => ?_, fun entry reason => hzero _⟩
    rw [World.decisions, hzero, hzero, hzero, hzero]
    rfl
  | query _ t q own hrun ih => exact ih.query own hrun
  | stores _ op ih => exact ⟨ih.tidy.apply op, ih.blocked, ih.decisions, ih.passed⟩
  | other _ hstores hevents ih =>
    have hcounted (x : Event) : World.counted _ x = World.counted _ x :=
      congrArg (List.count x) hevents
    refine ⟨hstores ▸ ih.tidy, fun caller => (hcounted _).trans (ih.blocked caller),
      fun caller => ?_, fun entry reason => (hcounted _).trans (ih.passed entry reason)⟩
    rw [← ih.decisions, World.decisions, World.decisions, hcounted, hcounted, hcounted, hcounted]

/-- The worlds that calls lead to from a start at which nothing has been counted and there are no
stores yet. -/
def Run (m : Embedder ε) (log : List Told) (w : World ε) : Prop :=
  ∃ w₀ : World ε, w₀.events = [] ∧ w₀.stores = {} ∧ Leads m w₀ log w

theorem Run.tallied (run : Run m log w) : Tallied log w := by
  obtain ⟨w₀, hevents, hstores, h⟩ := run
  refine h.tallied hevents ?_
  rw [hstores]
  exact fun _ => List.nodup_nil

namespace Run

theorem leads (run : Run m log w) (h : Leads m w more w') : Run m (log ++ more) w' := by
  obtain ⟨w₀, hevents, hstores, h₀⟩ := run
  exact ⟨w₀, hevents, hstores, h₀.trans h⟩

theorem query {blocked : Bool} (run : Run m log w) (t : Thread) (q : Query) (own : q.IsOwn w t)
    (hrun : (q.run m t).run w = (.ok blocked, w')) : Run m (log ++ [told w t q blocked]) w' :=
  run.leads (Leads.refl.query t q own hrun)

theorem other (run : Run m log w) (hstores : w'.stores = w.stores)
    (hevents : w'.events = w.events) : Run m log w' := by
  have h := run.leads (Leads.refl.other hstores hevents)
  rwa [List.append_nil] at h

theorem stores (run : Run m log w) (op : Stores.Op) :
    Run m log { w with stores := (op.apply ⟨w.stores, []⟩).stores } := by
  have h := run.leads (Leads.refl.stores op)
  rwa [List.append_nil] at h

end Run

/-- Counters account for every decision. A call that comes to no engine of the embedding program
returns and adds one to one counter at most. If an engine comes to a decision, that is the counter
of its outcome and the call's caller; the outcome is blocked just if the answer is a block, and for a
hook it is never that there was no policy. If a native call is unhookable, or is hooked, not nested
and without an engine, it is the counter of that reason. No other call adds anything, and none
blocks. So the counters tell how many blocks were returned to a caller, how many decisions were
reached for it, and how many calls went straight to the function. An engine of the embedding program
comes to no decision that is counted: a call that leads there makes the run longer by the calls of
ours that this engine makes in turn. -/
theorem counters_account (run : Run m log w) :
    (∀ t (q : Query), q.IsOwn w t → ∃ blocked w', (q.run m t).run w = (.ok blocked, w') ∧
      Run m (log ++ [told w t q blocked]) w' ∧
      (∀ e, q.engine? w t = some e → ∃ outcome,
        w'.events = .decision outcome q.caller :: w.events ∧
        (outcome = .blocked ↔ blocked = true) ∧ ∀ c, q = .hook c → outcome ≠ .noConfiguration) ∧
      (∀ entry reason, q.passed? w t = some (entry, reason) →
        blocked = false ∧ w'.events = .passthrough entry reason :: w.events) ∧
      (q.engine? w t = none → q.passed? w t = none → blocked = false ∧ w'.events = w.events)) ∧
    (∀ caller, w.counted (.decision .blocked caller) =
      log.countP fun x => x.blocked && x.caller = caller) ∧
    (∀ caller, w.decisions caller = log.countP fun x => x.reached && x.caller = caller) ∧
    (∀ entry reason, w.counted (.passthrough entry reason) =
      log.countP fun x => x.passed? = some (entry, reason)) ∧
    ((m.Within fun w w' => ∃ log, Leads m w log w') → ∀ t (q : Query), ∃ more,
      Run m (log ++ more) ((q.run m t).run w).2) := by
  have tallied := run.tallied
  refine ⟨fun t q own => ?_, tallied.blocked, tallied.decisions, tallied.passed, fun hm t q => ?_⟩
  · obtain ⟨blocked, outcome?, w', hrun, -, hevents, hdecided, hconfigured⟩ :=
      q.counts tallied.tidy own m
    refine ⟨blocked, w', hrun, run.query t q own hrun, fun e he => ?_,
      fun entry reason hpassed => ?_, fun he hpassed => ?_⟩
    · have hpassed := Query.passed?_of_engine? he
      obtain ⟨outcome, rfl⟩ := Option.isSome_iff_exists.mp
        (hdecided.reached.trans (congrArg Option.isSome he))
      rw [hpassed] at hevents
      refine ⟨outcome, hevents, ?_, fun c hc h => hconfigured c hc (congrArg some h)⟩
      rw [← hdecided.blocked_iff, Option.some_inj]
    · rw [Query.engine?_of_passed? hpassed] at hdecided
      obtain ⟨rfl, rfl⟩ := hdecided.eq_none
      rw [hpassed] at hevents
      exact ⟨rfl, hevents⟩
    · rw [he] at hdecided
      obtain ⟨rfl, rfl⟩ := hdecided.eq_none
      rw [hpassed] at hevents
      exact ⟨rfl, hevents⟩
  · obtain ⟨more, h⟩ := Leads.within_run hm t q w
    exact ⟨more, run.leads h⟩

/-- A look-up without an engine and a connection that was bound too early go straight to the
function. Once an engine is registered, it decides without a policy when it is asked itself, but not
for a hook; under a policy the look-up is blocked. -/
theorem counters_account_mixed : ∃ (log : List Told) (w : World Unit), Run .passing log w ∧
    log.length = 5 ∧ w.counted (.decision .blocked "driver") = 1 ∧ w.decisions "driver" = 2 ∧
    w.counted (.passthrough .getaddrinfo .noEngine) = 1 ∧
    w.counted (.passthrough .connect .unhookable) = 1 := by
  let t : Thread := ⟨1, none⟩
  let e : Engine := { store := 1 }
  let lookup : Query := .hook (.lookup 0 "db.test" "driver")
  let connect : Query := .hook (.connect 0 ⟨.v4 0x0A000001#32, 5432⟩ "driver")
  let check : Query := .check (.direct (.engine e)) "db.test" 80 "driver"
  let table : NativeTable :=
    ((({} : NativeTable).bind .connect 4096).2.install.2.bind .getaddrinfo 8192).2
  let w₁ : World Unit := { table := fun _ => table, embedding := () }
  let w₂ : World Unit := { w₁ with events := [.passthrough .getaddrinfo .noEngine] }
  let w₃ : World Unit := { w₂.count (.passthrough .connect .unhookable) with
    stores := (({} : Stores).create .noHarness).2, registered := some (.engine e) }
  let w₄ : World Unit := w₃.count (.decision .noConfiguration "driver")
  let w₅ : World Unit := { w₄ with stores := .activated .blockAll }
  have start : Run .passing [] w₁ := ⟨w₁, rfl, rfl, .refl⟩
  have early : Run .passing [told w₁ t lookup false] w₂ :=
    (start.query t lookup (HookCall.isOwn_of_unresolved rfl) rfl).other rfl rfl
  have bound : Run .passing [told w₁ t lookup false, told w₂ t connect false] w₃ :=
    ((early.query t connect (HookCall.isOwn_of_not_live rfl) rfl).stores
      (.create .noHarness)).other rfl rfl
  have asked : Run .passing [told w₁ t lookup false, told w₂ t connect false,
      told w₃ t check false] w₄ :=
    (bound.query t check (Bridge.isOwn_of_engine rfl) rfl).other rfl rfl
  have active : Run .passing [told w₁ t lookup false, told w₂ t connect false,
      told w₃ t check false, told w₄ t lookup false] w₅ :=
    ((asked.query t lookup (HookCall.isOwn_of_registered rfl rfl) rfl).stores
      (.set 1 t .blockAll)).other rfl rfl
  have run := active.query t lookup (HookCall.isOwn_of_registered rfl rfl) rfl
  obtain ⟨-, hblocked, hdecisions, hpassed, -⟩ := counters_account run
  exact ⟨_, _, run, rfl, hblocked "driver", hdecisions "driver", hpassed .getaddrinfo .noEngine,
    hpassed .connect .unhookable⟩

end Counting

end Cordon
