import Cordon.Proofs.Bridge.Answers
/-!
The name that a blocked connection is reported under. The caller's side of the exported functions
finds it anew in the names as they were given, where the engine has left out empty names and the
address itself; so the two name the same unless a name of those kinds is among them.
-/
namespace Cordon

open Engine (reported namesFor)

variable {ε : Type} {w : World ε} {e : Engine} {names : List String}

namespace Foreign

theorem heard_eq_filter (h : ∀ name ∈ names, '\x00' ∉ name.toList ∧ '\n' ∉ name.toList) :
    heard names = names.filter (· ≠ "") :=
  read_namesText h

theorem blockedName?_eq_find? (h : ∀ name ∈ names, '\x00' ∉ name.toList)
    (policy? : Option Policy) :
    blockedName? policy? names =
      names.find? fun name => policy?.any (·.isExplicitlyBlocked name) := by
  rw [blockedName?]
  induction names with
  | nil => rfl
  | cons name names ih =>
    have hname := ForeignText.ofString?_of_nul_not_mem (h name List.mem_cons_self)
    rw [List.find?_cons, List.find?_cons, ih fun name hmem => h name (List.mem_cons_of_mem _ hmem),
      hname, Option.isSome_some, Bool.true_and]

/-- A block that came through the exported functions differs from the engine's own in its stack,
which is cut to the buffer, and in the name that it is reported under. -/
theorem answers_checkConnection_reported (m : Embedder ε) (hw : w.registered = some (.engine e))
    (t : Thread) (address : Address) (names : List String) (port : UInt16) (caller : String)
    (hcaller : '\x00' ∉ caller.toList)
    (hnames : ∀ name ∈ names, '\x00' ∉ name.toList ∧ '\n' ∉ name.toList) :
    Act.Answers w (checkConnection m t address names port caller)
      ((e.decideConnection w.stores t address names port caller
        w.callStack).1.decision.mapAttempt fun b =>
          ⟨reported (w.stores.get e.store t).1 address.text names, port.toNat, caller,
            readBuffer (writeBuffer b.stack stackBufferSize)⟩)
      [.decision (e.decideConnection w.stores t address names port caller
        w.callStack).1.outcome caller] := by
  have h := answers_checkConnection m hw t address names port caller
  rw [ForeignText.ofString?_of_nul_not_mem hcaller, Option.isSome_some, if_pos rfl,
    if_pos rfl, heard_eq_filter hnames, Engine.decideConnection_filter,
    blockedName?_eq_find? fun name hname => (hnames name hname).1] at h
  rcases e.decision_decideConnection w.stores t address names port caller w.callStack with
    hd | ⟨name, snippet, hd⟩
  all_goals
    rw [hd] at h ⊢
    exact h

end Foreign

namespace Bridge

/-- Names that cross are judged on the other side as they are here. -/
theorem answers_checkConnection_engine (m : Embedder ε) {b : Bridge}
    (he : b.backend? w = some (.engine e)) (t : Thread) (address : Address)
    (names : List String) (port : UInt16) (caller : String)
    (hcross : b = .exported → '\x00' ∉ caller.toList ∧
      ∀ name ∈ names, '\x00' ∉ name.toList ∧ '\n' ∉ name.toList) :
    ∃ d counted, Act.Answers w (b.checkConnection m t address names port caller) d counted ∧
      d.isBlocked = (e.decideConnection w.stores t address names port caller
        w.callStack).1.decision.isBlocked := by
  rcases eq_of_backend?_eq_engine he with rfl | ⟨rfl, hw⟩
  · exact ⟨_, _, Backend.answers_checkConnection m e t address names port caller, rfl⟩
  · obtain ⟨hcaller, hnames⟩ := hcross rfl
    exact ⟨_, _, Foreign.answers_checkConnection_reported m hw t address names port caller hcaller
      hnames, Decision.isBlocked_mapAttempt ..⟩

/-- A connection that is blocked is reported under the first of its names that is explicitly
blocked, else under the first, else under its address; the engine itself looks for it among the
names that are neither empty nor the address. Where no name is either, the block that comes through
the exported functions is the engine's own but for the stack. -/
theorem exported_reports (m : Embedder ε) (hw : w.registered = some (.engine e))
    (reach : w.stores.Reachable) (t : Thread) (address : Address) (names : List String)
    (port : UInt16) (caller : String) (hcaller : '\x00' ∉ caller.toList)
    (hnames : ∀ name ∈ names, '\x00' ∉ name.toList ∧ '\n' ∉ name.toList) : ∃ mine theirs,
      (((direct (.engine e)).checkConnection m t address names port caller).run w).1 = .ok mine ∧
      ((exported.checkConnection m t address names port caller).run w).1 = .ok theirs ∧
      theirs.isBlocked = mine.isBlocked ∧
      (∀ b, mine = .block b → b.host =
        reported (w.stores.get e.store t).1 address.text (namesFor address.text names)) ∧
      (∀ b, theirs = .block b → b.host =
        reported (w.stores.get e.store t).1 address.text names) ∧
      ((∀ name ∈ names, name ≠ "" ∧ name ≠ address.text) →
        theirs.withoutStack = mine.withoutStack) := by
  obtain ⟨w₁, hmine, -⟩ := (Backend.answers_checkConnection m e t address names port caller).run
    reach.tidy
  obtain ⟨w₂, htheirs, -⟩ := (Foreign.answers_checkConnection_reported m hw t address names port
    caller hcaller hnames).run reach.tidy
  refine ⟨_, _, congrArg Prod.fst hmine, congrArg Prod.fst htheirs, ?_⟩
  rcases e.decision_decideConnection_eq w.stores t address names port caller w.callStack with
    hd | ⟨snippet, hd⟩
  · rw [hd]
    exact ⟨rfl, nofun, nofun, fun _ => rfl⟩
  · rw [hd]
    refine ⟨rfl, fun b hb => ?_, fun b hb => ?_, fun hplain => ?_⟩
    · rw [← Decision.block.inj hb]
    · rw [← Decision.block.inj hb]
    · have hnamesFor : namesFor address.text names = names :=
        List.filter_eq_self.mpr fun name hname => by simpa using hplain name hname
      rw [hnamesFor]
      rfl

theorem exported_reports_plain_name : ∃ (w : World Unit) (theirs : Decision),
    w.registered = some (.engine { store := 1 }) ∧ w.stores.Reachable ∧
      ((exported.checkConnection .passing ⟨1, none⟩ (.v4 0x0A000001#32) ["db.test"] 5432
        "driver").run w).1 = .ok theirs ∧
      theirs.withoutStack = .block ⟨"db.test", 5432, "driver", ""⟩ := by
  let w : World Unit :=
    { stores := .activated .blockAll, registered := some (.engine { store := 1 }), embedding := () }
  obtain ⟨mine, theirs, hmine, htheirs, -, -, -, h⟩ := exported_reports (w := w) .passing rfl
    (Stores.reachable_activated _) ⟨1, none⟩ (.v4 0x0A000001#32) ["db.test"] 5432 "driver"
    (by decide) (by decide)
  obtain rfl := Except.ok.inj hmine
  exact ⟨w, theirs, rfl, Stores.reachable_activated _, htheirs, h (by decide)⟩

/-- The name in a report is not always the one that the engine reports: an empty name is, where
nothing is explicitly blocked. -/
theorem exported_reports_empty_name :
    ¬ ∀ (w : World Unit) (e : Engine) (m : Embedder Unit) (t : Thread) (address : Address)
      (names : List String) (port : UInt16) (caller : String) (mine theirs : BlockedAttempt),
      w.registered = some (.engine e) → w.stores.Reachable → '\x00' ∉ caller.toList →
      (∀ name ∈ names, '\x00' ∉ name.toList ∧ '\n' ∉ name.toList) →
      (((direct (.engine e)).checkConnection m t address names port caller).run w).1 =
        .ok (.block mine) →
      ((exported.checkConnection m t address names port caller).run w).1 = .ok (.block theirs) →
      theirs.host = mine.host := by
  intro claim
  let w : World Unit :=
    { stores := .activated .blockAll, registered := some (.engine { store := 1 }), embedding := () }
  obtain ⟨w', htheirs, -⟩ := (Foreign.answers_checkConnection_reported (w := w)
    (e := { store := 1 }) .passing rfl ⟨1, none⟩ (.v4 0x0A000001#32) ["", "db.test"] 5432 "driver"
    (by decide) (by decide)).run (Stores.reachable_activated _).tidy
  have h := claim w { store := 1 } .passing ⟨1, none⟩ (.v4 0x0A000001#32) ["", "db.test"] 5432
    "driver" _ _ rfl (Stores.reachable_activated _) (by decide) (by decide) rfl
    (congrArg Prod.fst htheirs)
  exact absurd h (by decide)

end Bridge
end Cordon
