import Cordon.Hook.Offline
import Cordon.Proofs.Hook.BindOrder
import Cordon.Proofs.Hook.Recorded
import Cordon.Proofs.Hook.SocketAddress
/-!
The functions in front of the C library over whole runs. The first call of one binds its entry
point, so that an installation before it decides whether this call and all later ones are guarded. A
guarded call is refused just if its guard blocks, and else comes to the function behind it once,
unchanged; what a look-up found is kept if that function succeeded. Which calls are guarded, and
what is kept, is said of the bytes that a program hands over and gets back.
-/
namespace Cordon

open NativeTable (Call FirstBind decided)

variable {ε α : Type} {m : Embedder ε} {w w' : World ε} {i : TableId} {e : NativeEntry}
  {t : Thread} {a : Nat}

theorem World.setTable_self (w : World ε) (i : TableId) : w.setTable i (w.table i) = w := by
  have htable : (fun i' => if i' = i then w.table i else w.table i') = w.table := by
    funext i'
    split
    · next h => rw [h]
    · rfl
  rw [setTable, htable]

namespace Preload

variable {lib : Library ε}

/-! ## Binding -/

/-- The world in which an entry point has been bound to what the library has, unless it was bound
before. -/
def bound (lib : Library ε) (i : TableId) (e : NativeEntry) (w : World ε) : World ε :=
  w.setTable i ((w.table i).bind e (lib.symbol e)).2

@[simp] theorem table_bound (lib : Library ε) (i : TableId) (e : NativeEntry) (w : World ε) :
    (bound lib i e w).table i = ((w.table i).bind e (lib.symbol e)).2 :=
  if_pos rfl

theorem run_original (found : lib.symbol e ≠ 0)
    (h : (w.table i).address e = 0 ↔ (w.table i).state e = .unbound) :
    (original lib i e).run w =
      (.ok (((bound lib i e w).table i).function? e), bound lib i e w) := by
  rw [original, Act.run_ofStep, table_bound]
  by_cases hstate : (w.table i).state e = .unbound
  · obtain ⟨-, -, haddress⟩ := NativeTable.bind_of_unbound hstate (lib.symbol e)
    have hfunction : ((w.table i).bind e (lib.symbol e)).2.function? e = some (lib.symbol e) := by
      rw [NativeTable.function?, haddress, if_neg found]
    have hnone : (w.table i).function? e = none := if_pos (h.mpr hstate)
    simp only [hnone, found, if_false, hfunction, Option.getD_some]
    rfl
  · have hsome : (w.table i).function? e = some ((w.table i).address e) :=
      if_neg fun h' => hstate (h.mp h')
    rw [bound, NativeTable.bind_of_bound hstate, World.setTable_self]
    simp only [hsome]

/-! ## Guarding -/

/-- A connection asks its guard about the endpoint that its address holds. -/
def ConnectCall.Asks (i : TableId) (call : ConnectCall) (c : HookCall) : Prop :=
  ∃ target, call.address.Holds target ∧ c = .connect i target "native-connect"

/-- A look-up asks its guard about the text that its node writes. -/
def LookupCall.Asks (i : TableId) (call : LookupCall) (c : HookCall) : Prop :=
  ∃ host, call.node = some (Text.utf8 host) ∧ c = .lookup i host "native-dns"

def ConnectCall.guard? (i : TableId) (call : ConnectCall) : Option HookCall :=
  call.address.read?.map fun target => .connect i target NativeEntry.connect.callerTag

def LookupCall.guard? (i : TableId) (call : LookupCall) : Option HookCall :=
  call.node.read.map fun host => .lookup i host NativeEntry.getaddrinfo.callerTag

theorem ConnectCall.guard?_eq_some_iff {call : ConnectCall} {c : HookCall} :
    call.guard? i = some c ↔ call.Asks i c := by
  rw [guard?, Option.map_eq_some_iff]
  constructor
  · rintro ⟨target, h, rfl⟩
    exact ⟨target, SocketAddress.read?_eq_some_iff.mp h, rfl⟩
  · rintro ⟨target, h, rfl⟩
    exact ⟨target, SocketAddress.read?_eq_some_iff.mpr h, rfl⟩

theorem LookupCall.guard?_eq_some_iff {call : LookupCall} {c : HookCall} :
    call.guard? i = some c ↔ call.Asks i c := by
  rw [guard?, Option.map_eq_some_iff]
  constructor
  · rintro ⟨host, h, rfl⟩
    exact ⟨host, ForeignText.read_eq_some_iff.mp h, rfl⟩
  · rintro ⟨host, h, rfl⟩
    exact ⟨host, ForeignText.read_eq_some_iff.mpr h, rfl⟩

/-- How a call comes out, told by the guard that it asks: refused if that blocks, and else what the
function behind it gives, whether the guard lets it pass or breaks off, or none is asked. -/
structure Guarded (m : Embedder ε) (t : Thread) (asks : HookCall → Prop) (w : World ε)
    (refused : α) (real : Act ε α) (r : Except Fault α × World ε) : Prop where
  blocked : ∀ c, asks c → ∀ b w', (c.run m t).run w = (.ok (.block b), w') → r = (.ok refused, w')
  passed : ∀ c, asks c → (∀ b, ((c.run m t).run w).1 ≠ .ok (.block b)) →
    r = real.run ((c.run m t).run w).2
  unguarded : (∀ c, ¬ asks c) → r = real.run w

/-- How a call comes out whose guard is never live: as what the function behind it gives, with no
more done than the guard counts. -/
structure Skipped (asks : HookCall → Prop) (w : World ε) (real : Act ε α)
    (r : Except Fault α × World ε) : Prop where
  counted : ∀ c, asks c → r = real.run { w with events := c.skipped w ++ w.events }
  unguarded : (∀ c, ¬ asks c) → r = real.run w

variable {asks : HookCall → Prop} {guard? : Option HookCall} {refused : α} {real : Nat → Act ε α}

theorem run_verdict_of_block {guard : Act ε Decision} {b : BlockedAttempt}
    (h : guard.run w = (.ok (.block b), w')) :
    (verdict (some guard)).run w = (.ok (.block b), w') :=
  Act.run_orElse_ok h _

theorem run_verdict_of_pass {guard : Act ε Decision}
    (h : ∀ b, (guard.run w).1 ≠ .ok (.block b)) :
    (verdict (some guard)).run w = (.ok .allow, (guard.run w).2) := by
  rw [verdict, Act.orElse, ExceptT.run_mk]
  rcases hrun : guard.run w with ⟨fault | decision, w'⟩
  · rfl
  · cases decision with
    | allow => rfl
    | block b => exact absurd (congrArg Prod.fst hrun) (h b)

theorem guard?_eq_none (hasks : ∀ c, guard? = some c ↔ asks c) (h : ∀ c, ¬ asks c) :
    guard? = none :=
  Option.eq_none_iff_forall_ne_some.mpr fun c hc => h c ((hasks c).mp hc)

section Through

variable (found : lib.symbol e ≠ 0)
  (h : (w.table i).address e = 0 ↔ (w.table i).state e = .unbound)
  (ha : ((bound lib i e w).table i).function? e = some a)
  (hasks : ∀ c, guard? = some c ↔ asks c)
include found h ha hasks

theorem guarded_through (missing : α) : Guarded m t asks (bound lib i e w) refused (real a)
    ((through lib i e (guard?.map (·.run m t)) missing refused real).run w) := by
  have horiginal := run_original found h
  rw [ha] at horiginal
  rw [through, Act.run_bind_ok horiginal]
  constructor
  · intro c hc b w' hblock
    rw [(hasks c).mpr hc]
    exact Act.run_bind_ok (run_verdict_of_block hblock) _
  · intro c hc hpass
    rw [(hasks c).mpr hc]
    exact Act.run_bind_ok (run_verdict_of_pass hpass) _
  · intro hnone
    rw [guard?_eq_none hasks hnone]
    exact Act.run_bind_ok (Act.run_pure _ _) _

theorem skipped_through (missing : α)
    (hstate : ((bound lib i e w).table i).state e ≠ .hooked)
    (hentry : ∀ c, asks c → c.entry? = some (i, e)) :
    Skipped asks (bound lib i e w) (real a)
      ((through lib i e (guard?.map (·.run m t)) missing refused real).run w) := by
  have guarded : Guarded m t asks (bound lib i e w) refused (real a) _ :=
    guarded_through found h ha hasks missing
  refine ⟨fun c hc => ?_, guarded.unguarded⟩
  have hrun := HookCall.run_eq_of_not_live (m := m)
    (HookCall.isLive_of_not_hooked (t := t) (hentry c hc) hstate)
  have hpass := guarded.passed c hc fun b => by rw [hrun]; nofun
  rw [hpass, hrun]

end Through

/-- A guarded call is refused or goes on, after what a guard may do. -/
theorem Guarded.cases {real : Act ε α} {r : Except Fault α × World ε}
    (guarded : Guarded m t asks w refused real r) {may : World ε → World ε → Prop}
    (H : World.Tolerant may) (hm : m.Within may) :
    ∃ w', may w w' ∧ (r = (.ok refused, w') ∨ r = real.run w') := by
  by_cases hasks : ∃ c, asks c
  · obtain ⟨c, hc⟩ := hasks
    refine ⟨((c.run m t).run w).2, c.within_run H hm t w, ?_⟩
    rcases hrun : (c.run m t).run w with ⟨fault | ⟨- | b⟩, w'⟩
    · refine .inr (hrun ▸ guarded.passed c hc fun b => ?_)
      rw [hrun]
      nofun
    · refine .inr (hrun ▸ guarded.passed c hc fun b => ?_)
      rw [hrun]
      nofun
    · exact .inl (guarded.blocked c hc b w' hrun)
  · exact ⟨w, H.refl w, .inr (guarded.unguarded fun c hc => hasks ⟨c, hc⟩)⟩

/-! ## What is kept -/

/-- A look-up leaves something to be kept if it succeeded, there was a place for its results, and
its node is a text: that text, with the addresses that the results hold. -/
def LookupCall.Keeps (call : LookupCall) (r : Except Fault LookupAnswer) (host : String)
    (found : List Address) : Prop :=
  ∃ answer, r = .ok answer ∧ answer.status = 0 ∧ call.takesResults = true ∧
    call.node = some (Text.utf8 host) ∧ Finds answer.results found

def LookupCall.kept? (call : LookupCall) :
    Except Fault LookupAnswer → Option (String × List Address)
  | .ok answer =>
    if answer.status = 0 && call.takesResults then call.node.read.map (·, answer.addresses)
    else none
  | .error _ => none

theorem LookupCall.kept?_eq_some_iff {call : LookupCall} {r : Except Fault LookupAnswer}
    {host : String} {found : List Address} :
    call.kept? r = some (host, found) ↔ call.Keeps r host found := by
  cases r with
  | error fault => exact ⟨nofun, nofun⟩
  | ok answer =>
    rw [kept?, Option.ite_none_right_eq_some, Bool.and_eq_true, decide_eq_true_iff,
      Option.map_eq_some_iff]
    constructor
    · rintro ⟨⟨hstatus, hplace⟩, host', hread, hkept⟩
      obtain ⟨rfl, hfound⟩ := Prod.mk.inj hkept
      exact ⟨answer, rfl, hstatus, hplace, ForeignText.read_eq_some_iff.mp hread,
        finds_iff.mpr hfound⟩
    · rintro ⟨answer', hanswer, hstatus, hplace, hnode, hfinds⟩
      obtain rfl := Except.ok.inj hanswer
      exact ⟨⟨hstatus, hplace⟩, host, ForeignText.read_eq_some_iff.mpr hnode,
        congrArg _ (finds_iff.mp hfinds)⟩

theorem LookupCall.kept?_eq_none {call : LookupCall} {r : Except Fault LookupAnswer}
    (h : ∀ host found, ¬ call.Keeps r host found) : call.kept? r = none :=
  Option.eq_none_iff_forall_ne_some.mpr fun (host, found) hkept =>
    h host found (kept?_eq_some_iff.mp hkept)

/-- The call on the table that keeps it. -/
def LookupCall.records (call : LookupCall) (r : Except Fault LookupAnswer) : List Call :=
  (call.kept? r).toList.map fun (host, addresses) => .record host addresses

section Keeps

variable {call : LookupCall} {host : String} {addresses : List Address}

theorem LookupCall.records_of_keeps {r : Except Fault LookupAnswer}
    (h : call.Keeps r host addresses) : call.records r = [.record host addresses] := by
  rw [records, kept?_eq_some_iff.mpr h]
  rfl

theorem LookupCall.records_of_not_keeps {r : Except Fault LookupAnswer}
    (h : ∀ host addresses, ¬ call.Keeps r host addresses) : call.records r = [] := by
  rw [records, kept?_eq_none h]
  rfl

end Keeps

theorem run_lookUp (lib : Library ε) (i : TableId) (call : LookupCall) (a : Nat) (w : World ε) :
    (lookUp lib i call a).run w =
      let r := (lib.getaddrinfo a call).run w
      (r.1, r.2.setTable i ((r.2.table i).after (call.records r.1))) := by
  rcases h : (lib.getaddrinfo a call).run w with ⟨fault | answer, w'⟩
  · rw [lookUp, Act.run_bind_error h]
    exact congrArg (Prod.mk _) (World.setTable_self w' i).symm
  · rw [lookUp, Act.run_bind_ok h]
    dsimp only [LookupCall.records, LookupCall.kept?]
    cases answer.status = 0 && call.takesResults with
    | false => exact congrArg (Prod.mk _) (World.setTable_self w' i).symm
    | true =>
      cases call.node.read with
      | none => exact congrArg (Prod.mk _) (World.setTable_self w' i).symm
      | some host => rfl

/-- What a look-up leaves to be kept goes into the book of the table. -/
theorem run_lookUp_of_keeps {call : LookupCall} {host : String} {addresses : List Address}
    (h : call.Keeps ((lib.getaddrinfo a call).run w).1 host addresses) :
    (lookUp lib i call a).run w =
      let r := (lib.getaddrinfo a call).run w
      (r.1, r.2.setTable i
        { r.2.table i with book := (r.2.table i).book.record host addresses }) := by
  rw [run_lookUp]
  dsimp only
  rw [LookupCall.records_of_keeps h]
  rfl

theorem run_lookUp_of_not_keeps {call : LookupCall}
    (h : ∀ host addresses, ¬ call.Keeps ((lib.getaddrinfo a call).run w).1 host addresses) :
    (lookUp lib i call a).run w = (lib.getaddrinfo a call).run w := by
  rw [run_lookUp]
  dsimp only
  rw [LookupCall.records_of_not_keeps h]
  exact congrArg (Prod.mk _) (World.setTable_self _ i)

/-- A library that reaches no network finds a numeric name at the address that it is. -/
theorem LookupCall.keeps_offline {call : LookupCall} {host : String} {address : Address}
    (hplace : call.takesResults = true) (hnode : call.node = some (Text.utf8 host))
    (h : Address.readNumeric host = some address) (a : Nat) (w : World ε) :
    call.Keeps ((Library.offline.getaddrinfo a call).run w).1 host [address] := by
  have hfound : (call.node.read.map LookupAnswer.numeric).getD .unknown =
      ⟨0, [.ofEndpoint ⟨address, 0⟩]⟩ := by
    rw [hnode, ForeignText.read_utf8, Option.map_some, Option.getD_some, LookupAnswer.numeric, h]
  exact ⟨_, congrArg Except.ok hfound, rfl, hplace, hnode,
    .held (SocketAddress.holds_ofEndpoint ⟨address, 0⟩) .nil⟩

/-! ## Runs -/

/-- The binding that a function in front makes on its first call. -/
def binding (lib : Library ε) (e : NativeEntry) : Call := .bind e (lib.symbol e)

/-- The worlds that come about while a table is installed and programs call the functions in front,
with the calls on the table that this comes to. Calls that engines or the library make on the
table meanwhile count with the others. Everything else in the world may change in between. -/
inductive Run (m : Embedder ε) (lib : Library ε) (i : TableId) : List Call → World ε → Prop
  | start {w : World ε} : (w.table i).IsNew → Run m lib i [] w
  | install {w : World ε} : Run m lib i calls w →
    Run m lib i (calls ++ [.install]) (w.setTable i (w.table i).install.2)
  | connect {w : World ε} : Run m lib i calls w → (t : Thread) → (call : ConnectCall) →
    w.Leads i (binding lib .connect :: meanwhile) ((connect m lib t i call).run w).2 →
    Run m lib i (calls ++ binding lib .connect :: meanwhile) ((connect m lib t i call).run w).2
  | getaddrinfo {w : World ε} : Run m lib i calls w → (t : Thread) → (call : LookupCall) →
    w.Leads i (binding lib .getaddrinfo :: meanwhile) ((getaddrinfo m lib t i call).run w).2 →
    Run m lib i (calls ++ binding lib .getaddrinfo :: meanwhile)
      ((getaddrinfo m lib t i call).run w).2
  | other {w w' : World ε} : Run m lib i calls w → w'.table i = w.table i → Run m lib i calls w'

variable {calls before : List Call}

theorem Run.leads (run : Run m lib i calls w) :
    ∃ w₀ : World ε, (w₀.table i).IsNew ∧ w₀.Leads i calls w := by
  induction run with
  | start new => exact ⟨_, new, .of_table rfl⟩
  | install run ih =>
    obtain ⟨w₀, new, h⟩ := ih
    exact ⟨w₀, new, h.trans (.call (c := .install) trivial _)⟩
  | connect run t call hcall ih =>
    obtain ⟨w₀, new, h⟩ := ih
    exact ⟨w₀, new, h.trans hcall⟩
  | getaddrinfo run t call hcall ih =>
    obtain ⟨w₀, new, h⟩ := ih
    exact ⟨w₀, new, h.trans hcall⟩
  | other run hw ih =>
    obtain ⟨w₀, new, h⟩ := ih
    exact ⟨w₀, new, h.possible, hw.trans h.table⟩

/-- How a function in front behaves after the calls so far. It is decided by whether the table was
installed before its first call, this one if there was none yet: if so, its guard is asked in the
world where the function is bound, and decides; if not, the function behind it is called with no
more done than a guard counts that is never live. -/
structure Interposed (m : Embedder ε) (lib : Library ε) (i : TableId) (calls : List Call)
    (w : World ε) (t : Thread) (e : NativeEntry) (asks : HookCall → Prop) (refused : α)
    (real : Nat → Act ε α) (r : Except Fault α × World ε) : Prop where
  installed : ∀ before a, FirstBind e (calls ++ [binding lib e]) before a → .install ∈ before →
    ((bound lib i e w).table i).state e = .hooked ∧
    Guarded m t asks (bound lib i e w) refused (real a) r
  uninstalled : ∀ before a, FirstBind e (calls ++ [binding lib e]) before a → .install ∉ before →
    Skipped asks (bound lib i e w) (real a) r

section Bound

variable (run : Run m lib i calls w) (found : lib.symbol e ≠ 0)
include run

theorem Run.address_eq (e : NativeEntry) :
    (w.table i).address e = 0 ↔ (w.table i).state e = .unbound := by
  obtain ⟨w₀, new, hleads⟩ := run.leads
  rw [hleads.table]
  exact new.address_after hleads.possible e

include found

/-- The first binding has decided when the function behind an entry point is called. -/
theorem Run.bound_of_firstBind (hfirst : FirstBind e (calls ++ [binding lib e]) before a) :
    ((bound lib i e w).table i).state e = decided before ∧
      ((bound lib i e w).table i).function? e = some a := by
  obtain ⟨w₀, new, hleads⟩ := run.leads
  have hbound : w₀.Leads i (calls ++ [binding lib e]) (bound lib i e w) :=
    hleads.trans (.call (c := binding lib e) found w)
  obtain ⟨hstate, haddress⟩ := new.after_firstBind hfirst
  have ha : a ≠ 0 := hbound.possible _ hfirst.mem
  rw [NativeTable.function?, hbound.table, haddress, if_neg ha]
  exact ⟨hstate, rfl⟩

theorem Run.interposed (t : Thread) (hasks : ∀ c, guard? = some c ↔ asks c)
    (hentry : ∀ c, asks c → c.entry? = some (i, e)) (missing refused : α) (real : Nat → Act ε α) :
    Interposed m lib i calls w t e asks refused real
      ((through lib i e (guard?.map (·.run m t)) missing refused real).run w) where
  installed before a hfirst hinstall := by
    obtain ⟨hstate, ha⟩ := run.bound_of_firstBind found hfirst
    exact ⟨hstate.trans (NativeTable.decided_eq_hooked_iff.mpr hinstall),
      guarded_through found (run.address_eq e) ha hasks missing⟩
  uninstalled before a hfirst hinstall := by
    obtain ⟨hstate, ha⟩ := run.bound_of_firstBind found hfirst
    refine skipped_through found (run.address_eq e) ha hasks missing ?_ hentry
    rw [hstate]
    exact mt NativeTable.decided_eq_hooked_iff.mp hinstall

/-- Whether the table was installed or not, a call is refused or comes to the function behind it, in
a world that differs from the bound one by what a guard may do. -/
theorem Run.through_cases {may : World ε → World ε → Prop} (H : World.Tolerant may)
    (hm : m.Within may) (t : Thread) (hasks : ∀ c, guard? = some c ↔ asks c) (missing refused : α)
    (real : Nat → Act ε α) : ∃ a w', may (bound lib i e w) w' ∧
      ((through lib i e (guard?.map (·.run m t)) missing refused real).run w = (.ok refused, w') ∨
        (through lib i e (guard?.map (·.run m t)) missing refused real).run w =
          (real a).run w') := by
  have hany : (calls ++ [binding lib e]).any (·.binds e) = true := by
    simp [binding, Call.binds]
  obtain ⟨before, a, hfirst⟩ := FirstBind.exists_of_any hany
  have guarded : Guarded m t asks (bound lib i e w) refused (real a) _ :=
    guarded_through found (run.address_eq e) (run.bound_of_firstBind found hfirst).2 hasks missing
  obtain ⟨w', hw', h⟩ := guarded.cases H hm
  exact ⟨a, w', hw', h⟩

end Bound

theorem connect_eq (m : Embedder ε) (lib : Library ε) (t : Thread) (i : TableId)
    (call : ConnectCall) : connect m lib t i call =
      through lib i .connect ((call.guard? i).map (·.run m t)) .missing .denied
        (lib.connect · call) := by
  rw [connect, ConnectCall.guard?, Option.map_map]
  rfl

theorem getaddrinfo_eq (m : Embedder ε) (lib : Library ε) (t : Thread) (i : TableId)
    (call : LookupCall) : getaddrinfo m lib t i call =
      through lib i .getaddrinfo ((call.guard? i).map (·.run m t)) .failed .failed
        (lookUp lib i call) := by
  rw [getaddrinfo, LookupCall.guard?, Option.map_map]
  rfl

theorem ConnectCall.Asks.entry?_eq {call : ConnectCall} {c : HookCall} (h : call.Asks i c) :
    c.entry? = some (i, .connect) := by
  obtain ⟨target, -, rfl⟩ := h
  rfl

theorem LookupCall.Asks.entry?_eq {call : LookupCall} {c : HookCall} (h : call.Asks i c) :
    c.entry? = some (i, .getaddrinfo) := by
  obtain ⟨host, -, rfl⟩ := h
  rfl

/-! ## The address book -/

/-- Neither the engines of the embedding program nor the library make calls on the table. -/
structure Quiet (m : Embedder ε) (lib : Library ε) (i : TableId) : Prop where
  engines : m.Within fun w w' => w'.table i = w.table i
  connect : ∀ a call, Act.Within (fun w w' => w'.table i = w.table i) (lib.connect a call)
  getaddrinfo : ∀ a call, Act.Within (fun w w' => w'.table i = w.table i) (lib.getaddrinfo a call)

section Quiet

variable (found : ∀ e, lib.symbol e ≠ 0) (run : Run m lib i calls w) (quiet : Quiet m lib i)
include found run quiet

theorem leads_connect (t : Thread) (call : ConnectCall) :
    w.Leads i [binding lib .connect] ((connect m lib t i call).run w).2 := by
  obtain ⟨a, w', hw', h⟩ := run.through_cases (found .connect) (World.tolerant_table i)
    quiet.engines t (fun _ => ConnectCall.guard?_eq_some_iff) .missing .denied (lib.connect · call)
  refine ⟨fun c hc => List.mem_singleton.mp hc ▸ found .connect, ?_⟩
  rw [connect_eq]
  rw [table_bound] at hw'
  rcases h with h | h
  · rw [h]
    exact hw'
  · rw [h]
    exact (quiet.connect a call w').trans hw'

theorem leads_getaddrinfo (t : Thread) (call : LookupCall) :
    w.Leads i (binding lib .getaddrinfo :: call.records ((getaddrinfo m lib t i call).run w).1)
      ((getaddrinfo m lib t i call).run w).2 := by
  obtain ⟨a, w', hw', h⟩ := run.through_cases (found .getaddrinfo) (World.tolerant_table i)
    quiet.engines t (fun _ => LookupCall.guard?_eq_some_iff) .failed .failed (lookUp lib i call)
  refine ⟨fun c hc => ?_, ?_⟩
  · rcases List.mem_cons.mp hc with rfl | hc
    · exact found .getaddrinfo
    · obtain ⟨record, -, rfl⟩ := List.mem_map.mp hc
      trivial
  · rw [getaddrinfo_eq]
    rw [table_bound] at hw'
    rcases h with h | h
    · rw [h]
      exact hw'
    · rw [h, run_lookUp]
      have hreal := quiet.getaddrinfo a call w'
      refine (if_pos rfl).trans ?_
      rw [hreal, hw']
      rfl

theorem keeps_connect (t : Thread) (call : ConnectCall) :
    let r := (connect m lib t i call).run w
    Run m lib i (calls ++ [binding lib .connect]) r.2 ∧
      (r.2.table i).book = (w.table i).book := by
  have hleads := leads_connect found run quiet t call
  refine ⟨run.connect t call hleads, ?_⟩
  rw [hleads.table]
  exact NativeTable.book_bind ..

theorem keeps_getaddrinfo (t : Thread) (call : LookupCall) :
    let r := (getaddrinfo m lib t i call).run w
    (∀ host addresses, call.Keeps r.1 host addresses →
      Run m lib i (calls ++ [binding lib .getaddrinfo, .record host addresses]) r.2 ∧
      (r.2.table i).book = (w.table i).book.record host addresses) ∧
    ((∀ host addresses, ¬ call.Keeps r.1 host addresses) →
      Run m lib i (calls ++ [binding lib .getaddrinfo]) r.2 ∧
      (r.2.table i).book = (w.table i).book) := by
  have hleads := leads_getaddrinfo found run quiet t call
  have hbind := NativeTable.book_bind (w.table i) .getaddrinfo (lib.symbol .getaddrinfo)
  constructor
  · intro host addresses hkeeps
    rw [LookupCall.records_of_keeps hkeeps] at hleads
    refine ⟨run.getaddrinfo t call hleads, ?_⟩
    rw [hleads.table]
    exact congrArg (·.record host addresses) hbind
  · intro hkeeps
    rw [LookupCall.records_of_not_keeps hkeeps] at hleads
    refine ⟨run.getaddrinfo t call hleads, ?_⟩
    rw [hleads.table]
    exact hbind

end Quiet

/-- The first call of a function in front decides for the rest of a run. If the table was installed
before it, each call is refused just if its guard blocks, without coming to the function behind, and
every other call comes to that function once, unchanged, and answers with what it answers; if not,
every call does. A connection asks its guard if its socket address is a complete one of the internet
protocol, about the endpoint that it holds, and is refused with the error that permission is denied;
a look-up asks if its node is a text, and is refused as one that fails for good. What a look-up that
comes to the function behind it leaves to be kept goes into the address book, and nothing else
changes that, as long as neither engines nor the library make calls on the table. -/
theorem first_call_decides (found : ∀ e, lib.symbol e ≠ 0) (run : Run m lib i calls w)
    (t : Thread) :
    (∀ call : ConnectCall, Interposed m lib i calls w t .connect (call.Asks i) ⟨-1, some 13⟩
      (lib.connect · call) ((connect m lib t i call).run w)) ∧
    (∀ call : LookupCall, Interposed m lib i calls w t .getaddrinfo (call.Asks i) ⟨-4, []⟩
      (lookUp lib i call) ((getaddrinfo m lib t i call).run w)) ∧
    (∀ (call : LookupCall) a w', let r := (lib.getaddrinfo a call).run w'
      (∀ host addresses, call.Keeps r.1 host addresses → (lookUp lib i call a).run w' =
        (r.1, r.2.setTable i
          { r.2.table i with book := (r.2.table i).book.record host addresses })) ∧
      ((∀ host addresses, ¬ call.Keeps r.1 host addresses) → (lookUp lib i call a).run w' = r)) ∧
    (Quiet m lib i →
      (∀ call : ConnectCall, let r := (connect m lib t i call).run w
        Run m lib i (calls ++ [binding lib .connect]) r.2 ∧
        (r.2.table i).book = (w.table i).book) ∧
      (∀ call : LookupCall, let r := (getaddrinfo m lib t i call).run w
        (∀ host addresses, call.Keeps r.1 host addresses →
          Run m lib i (calls ++ [binding lib .getaddrinfo, .record host addresses]) r.2 ∧
          (r.2.table i).book = (w.table i).book.record host addresses) ∧
        ((∀ host addresses, ¬ call.Keeps r.1 host addresses) →
          Run m lib i (calls ++ [binding lib .getaddrinfo]) r.2 ∧
          (r.2.table i).book = (w.table i).book)) ∧
      (w.table i).install.2.book = (w.table i).book) := by
  refine ⟨fun call => ?_, fun call => ?_,
    fun call a w' => ⟨fun _ _ => run_lookUp_of_keeps, run_lookUp_of_not_keeps⟩,
    fun quiet => ⟨keeps_connect found run quiet t, keeps_getaddrinfo found run quiet t,
      (w.table i).book_install⟩⟩
  · rw [connect_eq]
    exact run.interposed (found .connect) t (fun _ => ConnectCall.guard?_eq_some_iff)
      (fun _ => ConnectCall.Asks.entry?_eq) _ _ _
  · rw [getaddrinfo_eq]
    exact run.interposed (found .getaddrinfo) t (fun _ => LookupCall.guard?_eq_some_iff)
      (fun _ => LookupCall.Asks.entry?_eq) _ _ _

/-- Under a policy that blocks everything, connections pass if the first came before the
installation, and look-ups are refused if none did. Under one that allows a single name, a look-up
after the installation finds that and keeps it, and a connection to another address is refused. -/
theorem first_call_decides_late_install :
    let lib : Library Unit := .offline
    let lookup : LookupCall := { node := some (Text.utf8 "127.1") }
    let call : ConnectCall := ⟨3, .ofEndpoint ⟨.v4 0x0A000001#32, 5432⟩⟩
    (∃ w, Run .passing lib 0 [binding lib .connect, .install] w ∧
      ((connect .passing lib ⟨1, none⟩ 0 call).run w).1 = .ok ⟨-1, some 9⟩ ∧
      ((getaddrinfo .passing lib ⟨1, none⟩ 0 lookup).run w).1 = .ok ⟨-4, []⟩ ∧
      (((getaddrinfo .passing lib ⟨1, none⟩ 0 lookup).run w).2.table 0).book =
        (w.table 0).book) ∧
    ∃ w, Run .passing lib 0
        [.install, binding lib .getaddrinfo, .record "127.1" [.v4 0x7F000001#32]] w ∧
      (w.table 0).book = AddressBook.record {} "127.1" [.v4 0x7F000001#32] ∧
      ((connect .passing lib ⟨1, none⟩ 0 call).run w).1 = .ok ⟨-1, some 13⟩ := by
  intro lib lookup call
  have found : ∀ e, lib.symbol e ≠ 0 := fun _ => Nat.one_ne_zero
  have quiet : Quiet .passing lib 0 := by
    refine ⟨⟨?_, ?_, ?_, ?_⟩, ?_, ?_⟩ <;> intros <;> exact fun _ => rfl
  have holds : call.address.Holds ⟨.v4 0x0A000001#32, 5432⟩ :=
    SocketAddress.holds_ofEndpoint ⟨.v4 0x0A000001#32, 5432⟩
  let w₀ (policy : Policy) : World Unit :=
    { stores := .activated policy, registered := some (.engine { store := 1 }), embedding := () }
  have start (policy : Policy) : Run .passing lib 0 [] (w₀ policy) :=
    .start ⟨rfl, fun _ => rfl, fun _ => rfl⟩
  constructor
  · have hstart := first_call_decides found (start .blockAll) ⟨1, none⟩
    have run := ((hstart.2.2.2 quiet).1 call).1.install
    obtain ⟨hconnect, hlookup, -, hbook⟩ := first_call_decides found run ⟨1, none⟩
    have hpass := ((hconnect call).uninstalled [] 1 ⟨⟨_, rfl⟩, nofun⟩ List.not_mem_nil).counted _
      ⟨_, holds, rfl⟩
    obtain ⟨-, guarded⟩ := (hlookup lookup).installed [binding lib .connect, .install] 1
      ⟨⟨[], rfl⟩, by decide⟩ (by simp)
    have hrefused := guarded.blocked _ ⟨"127.1", rfl, rfl⟩ ⟨"127.1", -1, "native-dns", ""⟩ _ rfl
    refine ⟨_, run, congrArg Prod.fst hpass, congrArg Prod.fst hrefused,
      (((hbook quiet).2.1 lookup).2 ?_).2⟩
    rintro host addresses ⟨answer, hanswer, hstatus, -⟩
    rw [hrefused] at hanswer
    obtain rfl := Except.ok.inj hanswer
    contradiction
  · let policy : Policy := { allowed := [⟨"127.1", by decide, fun c hc => by
      have hall : "127.1".toList.all (fun c => !Text.isSpace c && c != '/') = true := by decide
      simpa using List.all_eq_true.mp hall c hc⟩] }
    -- the book does not compute: this is all that the guard of the connection sees of the world
    obtain ⟨w, run, hbook, tidy, ready⟩ : ∃ w, Run .passing lib 0
          [.install, binding lib .getaddrinfo, .record "127.1" [.v4 0x7F000001#32]] w ∧
        (w.table 0).book = AddressBook.record {} "127.1" [.v4 0x7F000001#32] ∧ w.stores.Tidy ∧
        (((bound lib 0 .connect w).table 0).state .connect = .hooked →
          NativeHook.Ready (bound lib 0 .connect w) ⟨1, none⟩ 0 (.direct (.engine { store := 1 }))
            { store := 1 } policy) := by
      obtain ⟨-, hlookup, hkept, hbook⟩ :=
        first_call_decides found (start policy).install ⟨1, none⟩
      obtain ⟨-, guarded⟩ := (hlookup lookup).installed [.install] 1 ⟨⟨[], rfl⟩, by decide⟩
        (by simp)
      have hpass := guarded.passed _ ⟨"127.1", rfl, rfl⟩ fun _ => nofun
      have hkeeps (w : World Unit) :
          lookup.Keeps ((lib.getaddrinfo 1 lookup).run w).1 "127.1" [.v4 0x7F000001#32] :=
        LookupCall.keeps_offline rfl rfl rfl 1 w
      rw [(hkept lookup 1 _).1 _ _ (hkeeps _)] at hpass
      obtain ⟨run, hrecorded⟩ := ((hbook quiet).2.1 lookup).1 "127.1" [.v4 0x7F000001#32]
        (by rw [hpass]; exact hkeeps _)
      rw [hpass] at run hrecorded
      refine ⟨_, run, hrecorded, (Stores.reachable_activated policy).tidy.get 1 ⟨1, none⟩,
        fun hstate => ⟨fun e => ?_, rfl, rfl, rfl, rfl, rfl⟩⟩
      cases e with
      | connect => exact hstate
      | getaddrinfo => rfl
    obtain ⟨hstate, guarded⟩ := ((first_call_decides found run ⟨1, none⟩).1 call).installed
      [.install, binding lib .getaddrinfo, .record "127.1" [.v4 0x7F000001#32]] 1
      ⟨⟨[], rfl⟩, by decide⟩ (by simp)
    obtain ⟨d, hrun, hblocked⟩ := (ready hstate).connect_isBlocked .passing tidy
      ⟨.v4 0x0A000001#32, 5432⟩ "native-connect" nofun
    have hnames : ((bound lib 0 .connect w).table 0).book.hostnames (.v4 0x0A000001#32) = [] := by
      rw [table_bound, NativeTable.book_bind, hbook, AddressBook.record, if_pos (by decide),
        List.foldl_cons, List.foldl_nil, AddressBook.hostnames_remember, if_neg (by decide)]
      exact Std.HashMap.getD_empty
    rw [hnames] at hblocked
    cases d with
    | allow => contradiction
    | block attempt =>
      have hrefused := guarded.blocked _ ⟨_, holds, rfl⟩ attempt _ (Prod.ext hrun rfl)
      exact ⟨w, run, hbook, congrArg Prod.fst hrefused⟩

end Preload

end Cordon
