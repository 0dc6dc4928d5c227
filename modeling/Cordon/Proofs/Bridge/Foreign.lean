import Cordon.Bridge.Exported
import Cordon.Proofs.Act
import Cordon.Proofs.Address.Text
import Cordon.Proofs.Engine.Judgement
import Cordon.Proofs.Text.Utf8
/-!
Asking an engine through the exported functions gives the answer that the engine gives. Every
argument arrives as it was sent, but for empty names, which engines leave out themselves; the stack
of a block is cut to the caller's buffer, and the name that it reports is found anew on the caller's
side.
-/
namespace Cordon

open Text

namespace Decision

/-- What is left of a decision when its stack is put aside. -/
def withoutStack (d : Decision) : Decision := d.mapAttempt fun b => { b with stack := "" }

/-- What is left of a decision when its host is put aside. -/
def withoutHost (d : Decision) : Decision := d.mapAttempt fun b => { b with host := "" }

end Decision

/-! ## Crossing -/

namespace ForeignText

variable {s : String} {names : List String}

theorem ofString?_of_nul_not_mem (h : '\x00' ∉ s.toList) : ofString? s = some (utf8 s) :=
  if_neg (by simpa using zero_not_mem_utf8 h)

theorem eq_utf8_of_ofString? {bytes : List UInt8} (h : ofString? s = some bytes) :
    bytes = utf8 s := by
  rw [ofString?] at h
  split at h
  · contradiction
  · exact (Option.some.inj h).symm

theorem read_eq_some_iff {f : ForeignText} : f.read = some s ↔ f = some (utf8 s) := by
  cases f with
  | none => exact ⟨nofun, nofun⟩
  | some bytes => exact ofUtf8?_eq_some_iff.trans Option.some_inj.symm

theorem read_utf8 (s : String) : read (some (utf8 s)) = some s := read_eq_some_iff.mpr rfl

/-- A list of names arrives without the empty ones. -/
theorem splitNames_joinNames (hne : names ≠ []) (h : ∀ name ∈ names, nameSeparator ∉ name.toList) :
    splitNames (joinNames names) = names.filter (· ≠ "") := by
  have hpieces : ∀ piece ∈ names.map String.toList, nameSeparator ∉ piece := by
    intro piece hpiece
    obtain ⟨name, hname, rfl⟩ := List.mem_map.mp hpiece
    exact h name hname
  rw [splitNames, joinNames, String.toList_ofList, splitAt_joinWith (by simpa using hne) hpieces,
    List.map_map]
  congr 1
  exact (List.map_congr_left fun name _ => String.ofList_toList).trans (List.map_id names)

theorem nul_not_mem_joinNames (h : ∀ name ∈ names, '\x00' ∉ name.toList) :
    '\x00' ∉ (joinNames names).toList := by
  rw [joinNames, String.toList_ofList]
  intro hmem
  rcases mem_joinWith hmem with hsep | ⟨piece, hpiece, hnul⟩
  · exact absurd hsep (by decide)
  · obtain ⟨name, hname, rfl⟩ := List.mem_map.mp hpiece
    exact h name hname hnul

end ForeignText

namespace Foreign

/-- The names that the other side hears of a connection. -/
def heard (names : List String) : List String :=
  ((namesText names).read.map ForeignText.splitNames).getD []

/-- What the other side makes of the names of a connection. -/
theorem read_namesText {names : List String}
    (h : ∀ name ∈ names, '\x00' ∉ name.toList ∧ ForeignText.nameSeparator ∉ name.toList) :
    ((namesText names).read.map ForeignText.splitNames).getD [] = names.filter (· ≠ "") := by
  cases names with
  | nil => rfl
  | cons name names =>
    have hnul := ForeignText.nul_not_mem_joinNames fun name hname => (h name hname).1
    rw [namesText, List.isEmpty_cons, if_neg Bool.false_ne_true,
      ForeignText.ofString?_of_nul_not_mem hnul, ForeignText.read_utf8, Option.map_some,
      Option.getD_some,
      ForeignText.splitNames_joinNames (List.cons_ne_nil _ _) fun name hname => (h name hname).2]

end Foreign

namespace Exported

theorem portOf?_toNat (port : UInt16) : portOf? port.toNat = some port := by
  have hlt := port.toNat_lt
  rw [portOf?, if_pos (by omega), Int.toNat_natCast, UInt16.ofNat_toNat]

end Exported

/-! ## Asking -/

section Asking

variable {ε : Type} {m : Embedder ε} {w w' : World ε} {b : Backend} {t : Thread} {d : Decision}
  {host caller : String} {port : Int} {address : Address} {names : List String}
  {connectionPort : UInt16}

theorem Exported.run_ask {α : Type} {a fallback : α} {question : Backend → Act ε α}
    (hw : w.registered = some b) (h : (question b).run w = (.ok a, w')) :
    (ask fallback question).run w = (.ok a, w') := by
  rw [ask, Act.run_bind_ok (Act.run_read _ w), hw]
  exact Act.run_orElse_ok h fallback

theorem Exported.returns_ask {α : Type} (fallback : α) (question : Backend → Act ε α) :
    Act.Returns (ask fallback question) := by
  refine (Act.returns_read _).bind fun b => ?_
  cases b with
  | some b => exact Act.returns_orElse _ _
  | none => exact Act.returns_pure _

/-- The caller's side finds a blocked name or none, but does not break off. -/
theorem Foreign.returns_firstBlocked (m : Embedder ε) (t : Thread) (names : List String) :
    Act.Returns (firstBlocked m t names) := by
  have returns_isExplicitlyBlocked (name : String) :
      Act.Returns (isExplicitlyBlocked m t name) := by
    rw [isExplicitlyBlocked]
    split
    · rw [Exported.isExplicitlyBlocked]
      split
      · exact Exported.returns_ask _ _
      · exact Act.returns_pure _
    · exact Act.returns_pure _
  induction names with
  | nil => exact Act.returns_pure _
  | cons name names ih =>
    refine (returns_isExplicitlyBlocked name).bind fun blocked => ?_
    cases blocked with
    | true => exact Act.returns_pure _
    | false => exact ih

/-- The answer about a host is that of the registered engine, as the caller's side words it. -/
theorem Foreign.run_check (hw : w.registered = some b) (hhost : '\x00' ∉ host.toList)
    (hcaller : '\x00' ∉ caller.toList) (h : (b.check m t host port caller).run w = (.ok d, w')) :
    (check m t host port caller).run w =
      (.ok (decision host port caller (Exported.verdict d)), w') := by
  rw [check, ForeignText.ofString?_of_nul_not_mem hhost,
    ForeignText.ofString?_of_nul_not_mem hcaller]
  refine Act.run_map_ok ?_ _
  rw [Exported.check, ForeignText.read_utf8, ForeignText.read_utf8]
  exact Exported.run_ask hw (Act.run_map_ok h _)

theorem Exported.run_checkConnection (hw : w.registered = some b)
    (h : (b.checkConnection m t address (Foreign.heard names) connectionPort caller).run w =
      (.ok d, w')) :
    (checkConnection m t (some (utf8 address.text)) (Foreign.namesText names) connectionPort.toNat
      (some (utf8 caller))).run w = (.ok (verdict d), w') := by
  rw [checkConnection, ForeignText.read_utf8, ForeignText.read_utf8, Option.bind_some,
    Address.read_text, portOf?_toNat]
  exact run_ask hw (Act.run_map_ok h _)

/-- The answer about a connection is that of the registered engine to the names that it hears, but
for the host that a block reports. -/
theorem Foreign.run_checkConnection_heard (hw : w.registered = some b)
    (hcaller : '\x00' ∉ caller.toList)
    (h : (b.checkConnection m t address (heard names) connectionPort caller).run w =
      (.ok d, w')) :
    ∃ d' w'', (checkConnection m t address names connectionPort caller).run w = (.ok d', w'') ∧
      d'.withoutHost =
        (decision address.text connectionPort.toNat caller (Exported.verdict d)).withoutHost := by
  have hverdict := Exported.run_checkConnection hw h
  rw [checkConnection, ForeignText.ofString?_of_nul_not_mem hcaller]
  dsimp only
  rw [Act.run_bind_ok hverdict]
  cases decision address.text connectionPort.toNat caller (Exported.verdict d) with
  | allow => exact ⟨.allow, w', rfl, rfl⟩
  | block attempt =>
    -- whatever name is found is put aside with the host
    obtain ⟨blocked, w'', hblocked⟩ := returns_firstBlocked m t names w'
    dsimp only
    rw [Act.run_bind_ok hblocked]
    exact ⟨_, w'', rfl, rfl⟩

/-- Names that cross are heard but for the empty ones. -/
theorem Foreign.run_checkConnection (hw : w.registered = some b) (hcaller : '\x00' ∉ caller.toList)
    (hnames : ∀ name ∈ names, '\x00' ∉ name.toList ∧ ForeignText.nameSeparator ∉ name.toList)
    (h : (b.checkConnection m t address (names.filter (· ≠ "")) connectionPort caller).run w =
      (.ok d, w')) :
    ∃ d' w'', (checkConnection m t address names connectionPort caller).run w = (.ok d', w'') ∧
      d'.withoutHost =
        (decision address.text connectionPort.toNat caller (Exported.verdict d)).withoutHost := by
  rw [← read_namesText hnames] at h
  exact run_checkConnection_heard hw hcaller h

end Asking

/-! ## The decision engine -/

namespace Bridge

variable {ε : Type} {w : World ε} {e : Engine}

/-- How a registered engine answers when it is asked directly. -/
theorem run_check_engine (m : Embedder ε) (e : Engine) (t : Thread) (host : String) (port : Int)
    (caller : String) (w : World ε) : ∃ w', ((Backend.engine e).check m t host port caller).run w =
      (.ok (e.decide w.stores t host port caller w.callStack).1.decision, w') :=
  ⟨_, rfl⟩

theorem run_checkConnection_engine (m : Embedder ε) (e : Engine) (t : Thread) (address : Address)
    (names : List String) (port : UInt16) (caller : String) (w : World ε) :
    ∃ w', ((Backend.engine e).checkConnection m t address names port caller).run w =
      (.ok (e.decideConnection w.stores t address names port caller w.callStack).1.decision, w') :=
  ⟨_, rfl⟩

/-- Whatever engine is registered decides through the exported functions as it does when it is asked
directly, and is said to have blocked the same attempt. Which name a blocked connection is reported
under is left open here. -/
theorem exported_agrees (m : Embedder ε) (hw : w.registered = some (.engine e)) (t : Thread) :
    (∀ host port caller, '\x00' ∉ host.toList → '\x00' ∉ caller.toList → ∃ mine theirs,
      (((direct (.engine e)).check m t host port caller).run w).1 = .ok mine ∧
      ((exported.check m t host port caller).run w).1 = .ok theirs ∧
      theirs.withoutStack = mine.withoutStack) ∧
    (∀ address names port caller, '\x00' ∉ caller.toList →
      (∀ name ∈ names, '\x00' ∉ name.toList ∧ '\n' ∉ name.toList) → ∃ mine theirs,
      (((direct (.engine e)).checkConnection m t address names port caller).run w).1 = .ok mine ∧
      ((exported.checkConnection m t address names port caller).run w).1 = .ok theirs ∧
      theirs.withoutHost.withoutStack = mine.withoutHost.withoutStack) := by
  constructor
  · intro host port caller hhost hcaller
    obtain ⟨w', hmine⟩ := run_check_engine m e t host port caller w
    have htheirs := Foreign.run_check hw hhost hcaller hmine
    refine ⟨_, _, congrArg Prod.fst hmine, congrArg Prod.fst htheirs, ?_⟩
    rcases e.decision_decide w.stores t host port caller w.callStack with h | ⟨snippet, h⟩
    all_goals
      rw [h]
      rfl
  · intro address names port caller hcaller hnames
    obtain ⟨w₁, hmine⟩ := run_checkConnection_engine m e t address names port caller w
    obtain ⟨w₂, hfiltered⟩ :=
      run_checkConnection_engine m e t address (names.filter (· ≠ "")) port caller w
    rw [Engine.decideConnection_filter] at hfiltered
    obtain ⟨theirs, w₃, htheirs, hhost⟩ := Foreign.run_checkConnection hw hcaller hnames hfiltered
    refine ⟨_, _, congrArg Prod.fst hmine, congrArg Prod.fst htheirs, ?_⟩
    rw [hhost]
    rcases e.decision_decideConnection w.stores t address names port caller w.callStack with
      h | ⟨name, snippet, h⟩
    all_goals
      rw [h]
      rfl

/-- Repeated and empty names, and the address among the names, make no difference to the answer. -/
theorem exported_agrees_odd_names : ∃ (w : World Unit) (theirs : Decision),
    w.registered = some (.engine { store := 1 }) ∧
      ((exported.checkConnection ⟨fun _ _ => pure true, fun _ _ _ _ _ => pure .allow,
        fun _ _ _ _ _ _ => pure .allow, fun _ _ _ => pure false⟩ ⟨1, none⟩ (.v4 0x0A000001#32)
        ["", "10.0.0.1", "db.test", "", "db.test"] 5432 "driver").run w).1 = .ok theirs ∧
      theirs.withoutHost.withoutStack = .block ⟨"", 5432, "driver", ""⟩ := by
  let stores := (((({} : Stores).create .noHarness).2).set 1 ⟨1, none⟩ .blockAll).2
  let w : World Unit := { stores, registered := some (.engine { store := 1 }), embedding := () }
  obtain ⟨mine, theirs, hmine, htheirs, h⟩ := (exported_agrees (w := w) (e := { store := 1 }) _ rfl
    ⟨1, none⟩).2 (.v4 0x0A000001#32) ["", "10.0.0.1", "db.test", "", "db.test"] 5432 "driver"
    (by decide) (by decide)
  obtain rfl := Except.ok.inj hmine
  exact ⟨w, theirs, rfl, htheirs, h⟩

end Bridge
end Cordon
