import Cordon.Proofs.Hook.Effects
/-!
The first binding of an entry point decides for good whether it is hooked. What a table holds is
told by the calls that were made on it, oldest first: an entry point is hooked if an installation
came before its first binding, and the report of the first installation foretells all later
bindings.
-/
namespace Cordon

variable {ε : Type} {m : Embedder ε} {i : TableId} {w w' : World ε} {x : NativeTable}
  {e : NativeEntry} {a : Nat}

namespace NativeTable

/-! ## Calls on a table -/

inductive Call where
  | install
  | bind (e : NativeEntry) (address : Nat)
  | record (host : String) (addresses : List Address)

namespace Call

def apply (x : NativeTable) : Call → NativeTable
  | install => x.install.2
  | bind e address => (x.bind e address).2
  | record host addresses => { x with book := x.book.record host addresses }

/-- A function has an address. -/
def Possible : Call → Prop
  | bind _ address => address ≠ 0
  | _ => True

def isInstall : Call → Bool
  | install => true
  | _ => false

def binds (e : NativeEntry) : Call → Bool
  | bind e' _ => e' = e
  | _ => false

end Call

def after (x : NativeTable) (calls : List Call) : NativeTable := calls.foldl Call.apply x

variable {c : Call} {calls before more : List Call}

@[simp] theorem after_nil (x : NativeTable) : x.after [] = x := rfl

@[simp] theorem after_cons (x : NativeTable) (c : Call) (calls : List Call) :
    x.after (c :: calls) = (c.apply x).after calls := rfl

theorem after_append (x : NativeTable) (calls more : List Call) :
    x.after (calls ++ more) = (x.after calls).after more :=
  List.foldl_append

/-- Nothing is installed and nothing bound. -/
structure IsNew (x : NativeTable) : Prop where
  installed : x.installed = none
  state : ∀ e, x.state e = .unbound
  address : ∀ e, x.address e = 0

/-! ## What one call does -/

theorem bind_of_unbound (h : x.state e = .unbound) (address : Nat) :
    (x.bind e address).1 = (if x.isInstalled then .hooked else .unhookable) ∧
      (x.bind e address).2.state e = (x.bind e address).1 ∧
      (x.bind e address).2.address e = address := by
  rw [bind, h]
  exact ⟨rfl, if_pos rfl, if_pos rfl⟩

theorem bind_of_bound (h : x.state e ≠ .unbound) (address : Nat) :
    x.bind e address = (x.state e, x) := by
  rw [bind]
  split
  · contradiction
  · rfl

/-- A binding answers with the state that it leaves. -/
theorem state_bind (x : NativeTable) (e : NativeEntry) (address : Nat) :
    (x.bind e address).2.state e = (x.bind e address).1 := by
  by_cases h : x.state e = .unbound
  · exact (bind_of_unbound h address).2.1
  · rw [bind_of_bound h]

theorem bind_of_ne {e' : NativeEntry} (h : e ≠ e') (address : Nat) :
    (x.bind e' address).2.state e = x.state e ∧
      (x.bind e' address).2.address e = x.address e := by
  rw [bind]
  split
  · exact ⟨if_neg h, if_neg h⟩
  · exact ⟨rfl, rfl⟩

theorem installed_bind (x : NativeTable) (e : NativeEntry) (address : Nat) :
    (x.bind e address).2.installed = x.installed := by
  rw [bind]
  split <;> rfl

theorem book_bind (x : NativeTable) (e : NativeEntry) (address : Nat) :
    (x.bind e address).2.book = x.book := by
  rw [bind]
  split <;> rfl

theorem book_install (x : NativeTable) : x.install.2.book = x.book := by
  rw [install]
  split <;> rfl

theorem install_of_some {report : InstallReport} (h : x.installed = some report) :
    x.install = (report, x) := by
  rw [install, h]

theorem state_install (x : NativeTable) : x.install.2.state = x.state := by
  rw [install]
  split <;> rfl

theorem address_install (x : NativeTable) : x.install.2.address = x.address := by
  rw [install]
  split <;> rfl

theorem installed_install (x : NativeTable) : x.install.2.installed = some x.install.1 := by
  rw [install]
  split
  · assumption
  · rfl

/-- What is not bound by a call stays as it is. -/
theorem apply_of_not_binds (h : c.binds e = false) (x : NativeTable) :
    (c.apply x).state e = x.state e ∧ (c.apply x).address e = x.address e := by
  cases c with
  | install => exact ⟨congrFun x.state_install e, congrFun x.address_install e⟩
  | bind e' address => exact bind_of_ne (fun he => by simp [Call.binds, he] at h) address
  | record host addresses => exact ⟨rfl, rfl⟩

/-- Nor does anything change for an entry point that is bound. -/
theorem apply_of_bound (h : x.state e ≠ .unbound) (c : Call) :
    (c.apply x).state e = x.state e ∧ (c.apply x).address e = x.address e := by
  cases hc : c.binds e with
  | false => exact apply_of_not_binds hc x
  | true =>
    cases c with
    | bind e' address =>
      obtain rfl : e' = e := by simpa [Call.binds] using hc
      rw [Call.apply, bind_of_bound h]
      exact ⟨rfl, rfl⟩
    | _ => contradiction

theorem apply_ne_unhookable (hx : x.isInstalled = true) (h : x.state e = .unbound) (c : Call) :
    (c.apply x).state e ≠ .unhookable := by
  cases hc : c.binds e with
  | false =>
    rw [(apply_of_not_binds hc x).1, h]
    nofun
  | true =>
    cases c with
    | bind e' address =>
      obtain rfl : e' = e := by simpa [Call.binds] using hc
      rw [Call.apply, state_bind, (bind_of_unbound h address).1, hx]
      nofun
    | _ => contradiction

theorem installed_apply_of_not_isInstall (h : c.isInstall = false) (x : NativeTable) :
    (c.apply x).installed = x.installed := by
  cases c with
  | install => contradiction
  | bind e address => exact x.installed_bind e address
  | record host addresses => rfl

theorem installed_apply_of_some {report : InstallReport} (h : x.installed = some report)
    (c : Call) : (c.apply x).installed = some report := by
  cases hc : c.isInstall with
  | false => rw [installed_apply_of_not_isInstall hc, h]
  | true =>
    cases c with
    | install => rw [Call.apply, install_of_some h, h]
    | _ => contradiction

/-! ## What a row of calls does -/

theorem after_of_not_binds (h : ∀ c ∈ calls, c.binds e = false) (x : NativeTable) :
    (x.after calls).state e = x.state e ∧ (x.after calls).address e = x.address e := by
  induction calls generalizing x with
  | nil => exact ⟨rfl, rfl⟩
  | cons c calls ih =>
    obtain ⟨hstate, haddress⟩ := ih (fun c hc => h c (List.mem_cons_of_mem _ hc)) (c.apply x)
    obtain ⟨hstate', haddress'⟩ := apply_of_not_binds (h c List.mem_cons_self) x
    exact ⟨hstate.trans hstate', haddress.trans haddress'⟩

theorem after_of_bound (h : x.state e ≠ .unbound) (calls : List Call) :
    (x.after calls).state e = x.state e ∧ (x.after calls).address e = x.address e := by
  induction calls generalizing x with
  | nil => exact ⟨rfl, rfl⟩
  | cons c calls ih =>
    obtain ⟨hstate, haddress⟩ := apply_of_bound h c
    obtain ⟨hstate', haddress'⟩ := ih (x := c.apply x) (by rwa [hstate])
    exact ⟨hstate'.trans hstate, haddress'.trans haddress⟩

theorem installed_after_of_not_isInstall (h : ∀ c ∈ calls, c.isInstall = false)
    (x : NativeTable) : (x.after calls).installed = x.installed := by
  induction calls generalizing x with
  | nil => rfl
  | cons c calls ih =>
    exact (ih (fun c hc => h c (List.mem_cons_of_mem _ hc)) _).trans
      (installed_apply_of_not_isInstall (h c List.mem_cons_self) x)

theorem installed_after_of_some {report : InstallReport} (h : x.installed = some report)
    (calls : List Call) : (x.after calls).installed = some report := by
  induction calls generalizing x with
  | nil => exact h
  | cons c calls ih => exact ih (installed_apply_of_some h c)

theorem isInstalled_after (x : NativeTable) (calls : List Call) :
    (x.after calls).isInstalled = (x.isInstalled || calls.any (·.isInstall)) := by
  induction calls generalizing x with
  | nil => exact (Bool.or_false _).symm
  | cons c calls ih =>
    rw [after_cons, ih, List.any_cons, ← Bool.or_assoc]
    congr 1
    cases hc : c.isInstall with
    | false =>
      rw [isInstalled, installed_apply_of_not_isInstall hc, Bool.or_false]
      rfl
    | true =>
      cases c with
      | install =>
        rw [Bool.or_true]
        exact congrArg Option.isSome x.installed_install
      | _ => contradiction

/-- Once a table is installed, nothing becomes unhookable any more. -/
theorem after_ne_unhookable (hx : x.isInstalled = true) (h : x.state e ≠ .unhookable)
    (calls : List Call) : (x.after calls).state e ≠ .unhookable := by
  induction calls generalizing x with
  | nil => exact h
  | cons c calls ih =>
    refine ih ?_ ?_
    · have hinstalled := x.isInstalled_after [c]
      rw [hx] at hinstalled
      exact hinstalled
    · by_cases hunbound : x.state e = .unbound
      · exact apply_ne_unhookable hx hunbound c
      · rwa [(apply_of_bound hunbound c).1]

/-! ## The first binding and the first installation -/

/-- The first of the calls to bind an entry point binds it to `a`, after the calls `before`. -/
def FirstBind (e : NativeEntry) (calls before : List Call) (a : Nat) : Prop :=
  (∃ rest, calls = before ++ .bind e a :: rest) ∧ ∀ c ∈ before, c.binds e = false

/-- The first installation comes after the calls `before`. -/
def FirstInstall (calls before : List Call) : Prop :=
  (∃ rest, calls = before ++ .install :: rest) ∧ ∀ c ∈ before, c.isInstall = false

/-- The state of an entry point that is first bound after the calls `before`. -/
def decided (before : List Call) : BindState :=
  if before.any (·.isInstall) then .hooked else .unhookable

/-- The report of an installation after the calls `before`. -/
def reportOn (before : List Call) : InstallReport where
  pending := NativeEntry.all.filter fun e => !before.any (·.binds e)
  unhookable := NativeEntry.all.filter fun e => before.any (·.binds e)

theorem decided_ne_unbound (before : List Call) : decided before ≠ .unbound := by
  rw [decided]
  split <;> nofun

theorem decided_eq_hooked_iff : decided before = .hooked ↔ .install ∈ before := by
  have hany : before.any (·.isInstall) = true ↔ .install ∈ before := by
    rw [List.any_eq_true]
    constructor
    · rintro ⟨c, hc, hinstall⟩
      cases c with
      | install => exact hc
      | _ => contradiction
    · exact fun h => ⟨_, h, rfl⟩
  rw [decided, ← hany]
  split
  · exact iff_of_true rfl ‹_›
  · exact iff_of_false nofun ‹_›

theorem FirstBind.mem (h : FirstBind e calls before a) : .bind e a ∈ calls := by
  obtain ⟨⟨rest, rfl⟩, -⟩ := h
  exact List.mem_append_right _ List.mem_cons_self

theorem FirstBind.append (h : FirstBind e calls before a) (more : List Call) :
    FirstBind e (calls ++ more) before a := by
  obtain ⟨⟨rest, rfl⟩, hbefore⟩ := h
  exact ⟨⟨rest ++ more, List.append_assoc ..⟩, hbefore⟩

theorem FirstInstall.append (h : FirstInstall calls before) (more : List Call) :
    FirstInstall (calls ++ more) before := by
  obtain ⟨⟨rest, rfl⟩, hbefore⟩ := h
  exact ⟨⟨rest ++ more, List.append_assoc ..⟩, hbefore⟩

theorem FirstBind.exists_of_any (h : calls.any (·.binds e) = true) :
    ∃ before a, FirstBind e calls before a := by
  induction calls with
  | nil => contradiction
  | cons c calls ih =>
    cases hc : c.binds e with
    | true =>
      cases c with
      | bind e' address =>
        obtain rfl : e' = e := by simpa [Call.binds] using hc
        exact ⟨[], address, ⟨calls, rfl⟩, nofun⟩
      | _ => contradiction
    | false =>
      rw [List.any_cons, hc] at h
      obtain ⟨before, a, ⟨rest, rfl⟩, hbefore⟩ := ih h
      refine ⟨c :: before, a, ⟨rest, rfl⟩, fun c' hc' => ?_⟩
      rcases List.mem_cons.mp hc' with rfl | hc'
      · exact hc
      · exact hbefore c' hc'

namespace IsNew

theorem bind_after (new : x.IsNew) (h : ∀ c ∈ before, c.binds e = false) (a : Nat) :
    ((x.after before).bind e a).1 = decided before := by
  have hstate : (x.after before).state e = .unbound :=
    (after_of_not_binds h x).1.trans (new.state e)
  rw [(bind_of_unbound hstate a).1, isInstalled_after, isInstalled, new.installed]
  rfl

/-- The first binding decides, whatever comes after it. -/
theorem after_firstBind (new : x.IsNew) (h : FirstBind e calls before a) :
    (x.after calls).state e = decided before ∧ (x.after calls).address e = a := by
  obtain ⟨⟨rest, rfl⟩, hbefore⟩ := h
  have hunbound : (x.after before).state e = .unbound :=
    (after_of_not_binds hbefore x).1.trans (new.state e)
  obtain ⟨-, hstate, haddress⟩ := bind_of_unbound hunbound a
  rw [new.bind_after hbefore] at hstate
  obtain ⟨hstate', haddress'⟩ := after_of_bound (x := ((x.after before).bind e a).2)
    (by rw [hstate]; exact decided_ne_unbound before) rest
  rw [after_append, after_cons]
  exact ⟨hstate'.trans hstate, haddress'.trans haddress⟩

theorem state_after (new : x.IsNew) (e : NativeEntry) (calls : List Call) :
    (x.after calls).state e = .unbound ↔ calls.any (·.binds e) = false := by
  cases h : calls.any (·.binds e) with
  | false =>
    refine iff_of_true ?_ rfl
    exact (after_of_not_binds (by simpa using h) x).1.trans (new.state e)
  | true =>
    obtain ⟨before, a, hfirst⟩ := FirstBind.exists_of_any h
    rw [(new.after_firstBind hfirst).1]
    exact iff_of_false (decided_ne_unbound before) Bool.noConfusion

/-- A function has an address just if its entry point is bound. -/
theorem address_after (new : x.IsNew) (possible : ∀ c ∈ calls, c.Possible) (e : NativeEntry) :
    (x.after calls).address e = 0 ↔ (x.after calls).state e = .unbound := by
  rw [new.state_after]
  cases h : calls.any (·.binds e) with
  | false =>
    refine iff_of_true ?_ rfl
    exact (after_of_not_binds (by simpa using h) x).2.trans (new.address e)
  | true =>
    obtain ⟨before, a, hfirst⟩ := FirstBind.exists_of_any h
    rw [(new.after_firstBind hfirst).2]
    exact iff_of_false (possible (.bind e a) hfirst.mem) Bool.noConfusion

theorem install_after (new : x.IsNew) (h : ∀ c ∈ before, c.isInstall = false) :
    (x.after before).install.1 = reportOn before := by
  have hpending (e : NativeEntry) :
      decide ((x.after before).state e = .unbound) = !before.any (·.binds e) := by
    rw [Bool.eq_iff_iff, decide_eq_true_iff, new.state_after, Bool.not_eq_true']
  rw [install, installed_after_of_not_isInstall h, new.installed]
  simp only [hpending, Bool.not_not]
  rfl

/-- The first installation reports, whatever comes after it. -/
theorem installed_after_firstInstall (new : x.IsNew) (h : FirstInstall calls before) :
    (x.after calls).installed = some (reportOn before) := by
  obtain ⟨⟨rest, rfl⟩, hbefore⟩ := h
  rw [after_append, after_cons]
  refine installed_after_of_some ?_ rest
  rw [Call.apply, installed_install, new.install_after hbefore]

theorem state_of_unhookable (new : x.IsNew) (h : FirstInstall calls before)
    (he : e ∈ (reportOn before).unhookable) : (x.after calls).state e = .unhookable := by
  obtain ⟨⟨rest, rfl⟩, hbefore⟩ := h
  obtain ⟨first, a, hfirst⟩ := FirstBind.exists_of_any (List.mem_filter.mp he).2
  have hdecided : decided first = .unhookable := by
    obtain ⟨⟨between, rfl⟩, -⟩ := hfirst
    rw [decided, if_neg]
    simpa using fun c hc => hbefore c (List.mem_append_left _ hc)
  rw [(new.after_firstBind (hfirst.append _)).1, hdecided]

theorem state_of_pending (new : x.IsNew) (h : FirstInstall calls before)
    (he : e ∈ (reportOn before).pending) : (x.after calls).state e ≠ .unhookable := by
  obtain ⟨⟨rest, rfl⟩, -⟩ := h
  have hunbound : (x.after before).state e = .unbound :=
    (new.state_after e before).mpr (by simpa using (List.mem_filter.mp he).2)
  rw [after_append, after_cons]
  refine after_ne_unhookable ?_ ?_ rest
  · exact congrArg Option.isSome (installed_install _)
  · rw [Call.apply, state_install, hunbound]
    nofun

end IsNew

end NativeTable

open NativeTable (Call)

/-! ## Runs -/

/-- The calls lead from the one world to the other, as far as the table is concerned. -/
structure World.Leads (i : TableId) (w : World ε) (calls : List Call) (w' : World ε) : Prop where
  possible : ∀ c ∈ calls, c.Possible
  table : w'.table i = (w.table i).after calls

namespace World.Leads

theorem of_table (h : w'.table i = w.table i) : w.Leads i [] w' := ⟨nofun, h⟩

theorem trans {w'' : World ε} {calls more : List Call} (h : w.Leads i calls w')
    (h' : w'.Leads i more w'') : w.Leads i (calls ++ more) w'' where
  possible c hc := (List.mem_append.mp hc).elim (h.possible c) (h'.possible c)
  table := by rw [h'.table, h.table, NativeTable.after_append]

theorem call {c : Call} (h : c.Possible) (w : World ε) :
    w.Leads i [c] (w.setTable i (c.apply (w.table i))) where
  possible _ hc := List.mem_singleton.mp hc ▸ h
  table := if_pos rfl

/-- Hooks and decision engines make no call on a table. -/
theorem tolerant (i : TableId) :
    World.Tolerant fun w w' : World ε => ∃ calls, w.Leads i calls w' where
  refl _ := ⟨[], .of_table rfl⟩
  trans := by
    rintro w w' w'' ⟨calls, h⟩ ⟨more, h'⟩
    exact ⟨calls ++ more, h.trans h'⟩
  get _ _ _ := ⟨[], .of_table rfl⟩
  decide _ _ _ _ _ _ := ⟨[], .of_table rfl⟩
  decideConnection _ _ _ _ _ _ _ := ⟨[], .of_table rfl⟩
  symbols _ _ := ⟨[], .of_table rfl⟩
  setInHook _ _ _ := ⟨[], .of_table rfl⟩
  count _ _ := ⟨[], .of_table rfl⟩

end World.Leads

theorem World.tolerant_table (i : TableId) :
    World.Tolerant fun w w' : World ε => w'.table i = w.table i where
  refl _ := rfl
  trans h h' := h'.trans h
  get _ _ _ := rfl
  decide _ _ _ _ _ _ := rfl
  decideConnection _ _ _ _ _ _ _ := rfl
  symbols _ _ := rfl
  setInHook _ _ _ := rfl
  count _ _ := rfl

/-- The table and the native entry point that a call goes through. -/
def HookCall.entry? : HookCall → Option (TableId × NativeEntry)
  | lookup i .. => some (i, .getaddrinfo)
  | connect i .. => some (i, .connect)
  | prologue .. => none

theorem HookCall.isLive_of_not_hooked {c : HookCall} {t : Thread} (hc : c.entry? = some (i, e))
    (h : (w.table i).state e ≠ .hooked) : c.isLive w t = false := by
  cases c with
  | lookup i' host caller =>
    obtain ⟨rfl, rfl⟩ := Prod.mk.inj (Option.some.inj hc)
    simp [isLive, h]
  | connect i' target caller =>
    obtain ⟨rfl, rfl⟩ := Prod.mk.inj (Option.some.inj hc)
    simp [isLive, h]
  | prologue hooks entry host => contradiction

namespace NativeTable

/-- The worlds that come about while calls are made on a table, with those calls. Guards run in
between, on any thread and through any hook; the calls that engines of the embedding program make
meanwhile count with the others. Everything else in the world may change. -/
inductive Run (m : Embedder ε) (i : TableId) : List Call → World ε → Prop
  | start {w : World ε} : (w.table i).IsNew → Run m i [] w
  | call {w : World ε} : Run m i calls w → (c : Call) → c.Possible →
    Run m i (calls ++ [c]) (w.setTable i (c.apply (w.table i)))
  | guard {w : World ε} : Run m i calls w → (t : Thread) → (c : HookCall) →
    w.Leads i meanwhile ((c.run m t).run w).2 → Run m i (calls ++ meanwhile) ((c.run m t).run w).2
  | other {w w' : World ε} : Run m i calls w → w'.table i = w.table i → Run m i calls w'

variable {calls before : List Call}

/-- A run is known by its calls. -/
theorem Run.leads (run : Run m i calls w) :
    ∃ w₀ : World ε, (w₀.table i).IsNew ∧ w₀.Leads i calls w := by
  induction run with
  | start new => exact ⟨_, new, .of_table rfl⟩
  | call run c hc ih =>
    obtain ⟨w₀, new, h⟩ := ih
    exact ⟨w₀, new, h.trans (.call hc _)⟩
  | guard run t c hmeanwhile ih =>
    obtain ⟨w₀, new, h⟩ := ih
    exact ⟨w₀, new, h.trans hmeanwhile⟩
  | other run hw ih =>
    obtain ⟨w₀, new, h⟩ := ih
    exact ⟨w₀, new, h.possible, hw.trans h.table⟩

/-- The first binding of an entry point decides for good. It stays unbound until then; from then on it
is hooked if an installation came before, else unhookable, and its function is the one that it was
bound to; every binding answers with that state. Every installation answers with the report of the
first, which lists the entry points by whether they were bound before it: no call through one that it
calls unhookable is ever blocked, and none that it calls pending becomes unhookable. Guard calls
make such runs longer and change nothing of this, as long as the engines of the embedding program
change the table by calls; if they leave it alone, no call is added. -/
theorem bind_order (run : Run m i calls w) :
    (∀ e, (∀ c ∈ calls, c.binds e = false) →
      (w.table i).state e = .unbound ∧ (w.table i).function? e = none) ∧
    (∀ e before a, FirstBind e calls before a →
      (w.table i).state e = decided before ∧ (w.table i).function? e = some a) ∧
    (∀ e address before a, FirstBind e (calls ++ [.bind e address]) before a →
      ((w.table i).bind e address).1 = decided before) ∧
    (∀ before, FirstInstall (calls ++ [.install]) before →
      (w.table i).install.1 = reportOn before) ∧
    (∀ before, FirstInstall calls before →
      (∀ e ∈ (reportOn before).unhookable, ∀ t (c : HookCall), c.entry? = some (i, e) →
        ((c.run m t).run w).1 = .ok .allow) ∧
      ∀ e ∈ (reportOn before).pending, (w.table i).state e ≠ .unhookable) ∧
    ((m.Within fun w w' => ∃ meanwhile, w.Leads i meanwhile w') → ∀ t (c : HookCall), ∃ meanwhile,
      Run m i (calls ++ meanwhile) ((c.run m t).run w).2) ∧
    ((m.Within fun w w' => w'.table i = w.table i) → ∀ t (c : HookCall),
      Run m i calls ((c.run m t).run w).2) := by
  obtain ⟨w₀, new, hleads⟩ := run.leads
  have htable := hleads.table
  refine ⟨fun e h => ?_, fun e before a h => ?_, fun e address before a h => ?_, fun before h => ?_,
    fun before h => ⟨fun e he t c hc => ?_, fun e he => ?_⟩, fun hm t c => ?_, fun hm t c => ?_⟩
  · obtain ⟨hstate, haddress⟩ := after_of_not_binds h (w₀.table i)
    rw [htable, function?, hstate, haddress, new.state, new.address]
    exact ⟨rfl, rfl⟩
  · obtain ⟨hstate, haddress⟩ := new.after_firstBind h
    have ha : a ≠ 0 := hleads.possible (.bind e a) h.mem
    rw [htable, function?, haddress, if_neg ha]
    exact ⟨hstate, rfl⟩
  · obtain ⟨hstate, -⟩ := new.after_firstBind h
    rw [after_append, ← htable] at hstate
    exact ((w.table i).state_bind e address).symm.trans hstate
  · have hreport := new.installed_after_firstInstall h
    rw [after_append, ← htable] at hreport
    exact Option.some.inj ((w.table i).installed_install.symm.trans hreport)
  · have hstate : (w.table i).state e ≠ .hooked := by
      rw [htable, new.state_of_unhookable h he]
      nofun
    obtain ⟨w', hallow⟩ := HookCall.run_of_not_live (m := m)
      (HookCall.isLive_of_not_hooked (t := t) hc hstate)
    exact congrArg Prod.fst hallow
  · rw [htable]
    exact new.state_of_pending h he
  · obtain ⟨meanwhile, h⟩ := c.within_run (World.Leads.tolerant i) hm t w
    exact ⟨meanwhile, run.guard t c h⟩
  · exact run.other (c.within_run (World.tolerant_table i) hm t w)

/-- One entry point is bound before the installation and one after it, with guard calls in between
that the engine would block. -/
theorem bind_order_mixed : ∃ w : World Unit,
    Run .passing 0 [.bind .connect 4096, .install, .bind .getaddrinfo 8192, .bind .connect 1] w ∧
      ((w.table 0).state .connect = .unhookable ∧ (w.table 0).function? .connect = some 4096) ∧
      ((w.table 0).state .getaddrinfo = .hooked ∧ (w.table 0).function? .getaddrinfo = some 8192) ∧
      (w.table 0).install.1 = ⟨[.getaddrinfo], [.connect]⟩ ∧
      ((NativeHook.guardConnect .passing ⟨1, none⟩ 0 ⟨.v4 0x0A000001#32, 5432⟩ "driver").run w).1 =
        .ok .allow ∧
      ((NativeHook.guardLookup .passing ⟨1, none⟩ 0 "db.test" "driver").run w).1 =
        .ok (.block ⟨"db.test", -1, "driver", ""⟩) := by
  have hquiet : Embedder.Within (fun w w' : World Unit => w'.table 0 = w.table 0) .passing :=
    ⟨fun _ _ _ => rfl, fun _ _ _ _ _ _ => rfl, fun _ _ _ _ _ _ _ => rfl, fun _ _ _ _ => rfl⟩
  let w₀ : World Unit :=
    { stores := .activated .blockAll, registered := some (.engine { store := 1 }), embedding := () }
  have early : Run .passing 0 [.bind .connect 4096] _ :=
    (Run.start (w := w₀) ⟨rfl, fun _ => rfl, fun _ => rfl⟩).call (.bind .connect 4096) nofun
  have guarded := (bind_order early).2.2.2.2.2.2 hquiet ⟨1, none⟩
    (.connect 0 ⟨.v4 0x0A000001#32, 5432⟩ "driver")
  have late := (guarded.call .install trivial).call (.bind .getaddrinfo 8192) nofun
  have run := ((bind_order late).2.2.2.2.2.2 hquiet ⟨1, none⟩
    (.lookup 0 "db.test" "driver")).call (.bind .connect 1) nofun
  obtain ⟨-, hfirst, -, hreport, hpass, -, -⟩ := bind_order run
  have hinstall : FirstInstall
      [.bind .connect 4096, .install, .bind .getaddrinfo 8192, .bind .connect 1]
      [.bind .connect 4096] := ⟨⟨_, rfl⟩, by decide⟩
  refine ⟨_, run, hfirst .connect [] 4096 ⟨⟨_, rfl⟩, nofun⟩,
    hfirst .getaddrinfo [.bind .connect 4096, .install] 8192 ⟨⟨_, rfl⟩, by decide⟩,
    hreport [.bind .connect 4096] (hinstall.append _),
    (hpass _ hinstall).1 .connect (by decide) ⟨1, none⟩
      (.connect 0 ⟨.v4 0x0A000001#32, 5432⟩ "driver") rfl, rfl⟩

end NativeTable

end Cordon
