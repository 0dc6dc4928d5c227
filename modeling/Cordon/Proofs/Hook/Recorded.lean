import Cordon.Proofs.Address.Book
import Cordon.Proofs.Bridge.Reported
import Cordon.Proofs.Hook.Strictness
/-!
A look-up that passes is kept by the connection that follows. The name that was looked up stands in
the book for every address that was found, so that the connection is admitted by it, unless the
address, or another name that is recorded for it, is explicitly blocked.
-/
namespace Cordon

open Text
open Engine (admits namesFor)

variable {ε : Type} {w w' : World ε} {t : Thread} {b : Bridge} {e : Engine}

/-- The world with a look-up in the book of a table. -/
def World.recorded (w : World ε) (i : TableId) (host : String) (addresses : List Address) :
    World ε :=
  w.setTable i { w.table i with book := (w.table i).book.record host addresses }

@[simp] theorem World.table_recorded (w : World ε) (i : TableId) (host : String)
    (addresses : List Address) : (w.recorded i host addresses).table i =
      { w.table i with book := (w.table i).book.record host addresses } :=
  if_pos rfl

namespace NativeHook

/-- Both entry points of a table are live on a thread, under an engine with an active policy that
exempts nothing there. -/
structure Ready (w : World ε) (t : Thread) (i : TableId) (b : Bridge) (e : Engine)
    (policy : Policy) : Prop where
  hooked : ∀ entry, (w.table i).state entry = .hooked
  outside : w.inHook t.id = false
  resolves : ((w.table i).resolver.resolve.run w).1 = .ok (some b)
  leads : b.backend? w = some (.engine e)
  active : (w.stores.get e.store t).1 = some policy
  unexempt : (e.exemption.judge t w.frames).exempt = false

namespace Ready

variable {m : Embedder ε} {i : TableId} {policy : Policy} {host caller : String}

/-- Nothing that stays in sight, and no recording, changes that. -/
theorem recorded (ready : Ready w t i b e policy) (hw : w.Alike w')
    (houtside : w'.inHook t.id = false) (host : String) (addresses : List Address) :
    Ready (w'.recorded i host addresses) t i b e policy where
  hooked entry := by
    rw [World.table_recorded, hw.table]
    exact ready.hooked entry
  outside := houtside
  resolves := by
    rw [World.table_recorded, hw.table]
    have hb : (w.table i).resolver.bridge? (w'.recorded i host addresses) = some b :=
      Resolver.bridge?_eq_of_registered (Resolver.bridge?_of_resolve ready.resolves) ready.leads
        hw.registered
    obtain ⟨symbols, hresolve⟩ := (w.table i).resolver.run_resolve (w'.recorded i host addresses)
    rw [hresolve, hb]
  leads := b.backend?_eq_of_registered ready.leads hw.registered
  active := (hw.get_fst e.store t).trans ready.active
  unexempt := hw.frames ▸ ready.unexempt

/-- A look-up that passes is of an allowed host, and leaves everything in sight as it was. -/
theorem lookup_allow (ready : Ready w t i b e policy) (tidy : w.stores.Tidy) (hhost : host ≠ "")
    (hcross : b = .exported → '\x00' ∉ host.toList ∧ '\x00' ∉ caller.toList)
    (h : (guardLookup m t i host caller).run w = (.ok .allow, w')) :
    policy.isAllowed host = true ∧ w.Alike w' ∧ w'.inHook t.id = false := by
  have hlive : (HookCall.lookup i host caller).isLive w t = true := by
    simp [HookCall.isLive, hhost, ready.hooked, ready.outside]
  obtain ⟨d, counted, hd, hblocked⟩ := b.answers_check_engine m ready.leads t host nameResolutionPort caller
    hcross
  obtain ⟨w₁, hrun, hw⟩ := HookCall.run_of_own (c := .lookup i host caller) tidy
    (Resolver.bridge?_of_resolve ready.resolves) (Bridge.isOwn_of_engine ready.leads) hd hlive
  obtain ⟨hd, rfl⟩ := Prod.mk.inj (h.symm.trans hrun)
  obtain rfl := Except.ok.inj hd
  rw [Engine.isBlocked_decide ready.active ready.unexempt] at hblocked
  refine ⟨?_, hw.setInHook _ _, ?_⟩
  · simpa [Decision.isBlocked] using hblocked.symm
  · simp [HookCall.leave, World.setInHook]

/-- A connection is judged by the names in the book. -/
theorem connect_isBlocked (ready : Ready w t i b e policy) (m : Embedder ε) (tidy : w.stores.Tidy)
    (target : Endpoint) (caller : String) (hcross : b = .exported → '\x00' ∉ caller.toList ∧
      ∀ name ∈ (w.table i).book.hostnames target.address,
        '\x00' ∉ name.toList ∧ '\n' ∉ name.toList) :
    ∃ d, ((guardConnect m t i target caller).run w).1 = .ok d ∧ d.isBlocked =
      !admits policy (target.address.canonical.text :: namesFor target.address.canonical.text
        ((w.table i).book.hostnames target.address)) := by
  have hlive : (HookCall.connect i target caller).isLive w t = true := by
    simp [HookCall.isLive, ready.hooked, ready.outside]
  obtain ⟨d, counted, hd, hblocked⟩ := b.answers_checkConnection_engine m ready.leads t
    target.address.canonical ((w.table i).book.hostnames target.address) target.port caller hcross
  have hquestion : Act.Answers w ((HookCall.connect i target caller).question m t b) d counted := by
    refine Act.Answers.bind (.read fun w' hw => ?_) hd
    rw [hw.table, AddressBook.hostnames_canonical]
  obtain ⟨w₁, hrun, -⟩ := HookCall.run_of_own (c := .connect i target caller) tidy
    (Resolver.bridge?_of_resolve ready.resolves) (Bridge.isOwn_of_engine ready.leads) hquestion
    hlive
  refine ⟨d, congrArg Prod.fst hrun, ?_⟩
  rw [hblocked, Engine.isBlocked_decideConnection ready.active ready.unexempt]

end Ready

/-- Look-up and connection agree. After a look-up that passed and was recorded, a connection to any
of the addresses is blocked only if the address or another name that is recorded for it is
explicitly blocked. Over the exported functions this is said of texts that can cross. -/
theorem connect_after_lookup (m : Embedder ε) (reach : w.stores.Reachable) {i : TableId}
    {policy : Policy} (ready : Ready w t i b e policy) {host caller : String} (hhost : host ≠ "")
    (hliteral : Address.read host = none)
    (hlookup : (guardLookup m t i host caller).run w = (.ok .allow, w'))
    {addresses : List Address} {a : Address} (ha : a ∈ addresses) (port : UInt16)
    (connectCaller : String) :
    let names := ((w'.recorded i host addresses).table i).book.hostnames a
    (b = .exported → '\x00' ∉ caller.toList ∧ '\x00' ∉ connectCaller.toList ∧
      ∀ name ∈ names, '\x00' ∉ name.toList ∧ '\n' ∉ name.toList) →
    ∃ d, ((guardConnect m t i ⟨a, port⟩ connectCaller).run (w'.recorded i host addresses)).1 =
        .ok d ∧
      (d.isBlocked = true ↔ policy.isExplicitlyBlocked a.canonical.text = true ∨
        ∃ name ∈ names, eqIgnoreAsciiCase name host = false ∧
          policy.isExplicitlyBlocked name = true) := by
  intro names hcross
  have hpromoted : ((w'.recorded i host addresses).table i).book.Promoted host a := by
    rw [World.table_recorded]
    exact AddressBook.promoted_record hhost hliteral ha _
  obtain ⟨hallowed, hw, houtside⟩ := ready.lookup_allow reach.tidy hhost
    (fun h => ⟨((hcross h).2.2 host hpromoted.mem).1, (hcross h).1⟩) hlookup
  obtain ⟨d, hrun, hblocked⟩ := (ready.recorded hw houtside host addresses).connect_isBlocked m
    hw.tidy ⟨a, port⟩ connectCaller fun h => (hcross h).2
  refine ⟨d, hrun, ?_⟩
  rw [hblocked, Bool.not_eq_true']
  refine Engine.admits_eq_false_iff hallowed hhost ?_ hpromoted.mem fun name => hpromoted.eq_or
  rintro rfl
  rw [Address.read_text] at hliteral
  contradiction

/-- An address that has had its share of names is reached by the name that was just looked up, the
only one that is allowed. -/
theorem connect_after_lookup_crowded :
    ∃ w w' : World Unit, w.stores.Reachable ∧
      ((w.table 0).book.hostnames (.v4 0x0A000001#32)).length = 8 ∧
      (guardLookup .passing ⟨1, none⟩ 0 "db.test" "native-dns").run w = (.ok .allow, w') ∧
      ((guardConnect .passing ⟨1, none⟩ 0 ⟨.v4 0x0A000001#32, 5432⟩ "native-connect").run
        (w'.recorded 0 "db.test" [.v4 0x0A000001#32])).1 = .ok .allow := by
  let policy : Policy := { allowed := [⟨"db.test", by decide, fun c hc => by
    have hall : "db.test".toList.all (fun c => !isSpace c && c != '/') = true := by decide
    simpa using List.all_eq_true.mp hall c hc⟩] }
  let book : AddressBook :=
    ⟨.insert {} (.v4 0x0A000001#32) ["a", "b", "c", "d", "e", "f", "g", "h"]⟩
  let w : World Unit :=
    { stores := .activated policy, registered := some (.engine { store := 1 })
      table := fun _ => { state := fun _ => .hooked, book }, embedding := () }
  obtain ⟨w', hlookup⟩ : ∃ w', (guardLookup .passing ⟨1, none⟩ 0 "db.test" "native-dns").run w =
      (.ok .allow, w') := ⟨_, rfl⟩
  have hmem : Address.v4 0x0A000001#32 ∈ [Address.v4 0x0A000001#32] := List.mem_cons_self
  have ready : Ready w ⟨1, none⟩ 0 (.direct (.engine { store := 1 })) { store := 1 } policy :=
    ⟨fun _ => rfl, rfl, rfl, rfl, rfl, rfl⟩
  obtain ⟨d, hrun, hblocked⟩ := connect_after_lookup .passing (Stores.reachable_activated policy)
    ready (by decide) (by decide) hlookup hmem 5432 "native-connect" nofun
  refine ⟨w, w', Stores.reachable_activated policy, ?_, hlookup, ?_⟩
  · change (book.hostnames (.v4 0x0A000001#32)).length = 8
    have hnames : book.hostnames (.v4 0x0A000001#32) = ["a", "b", "c", "d", "e", "f", "g", "h"] :=
      Std.HashMap.getD_insert_self
    rw [hnames]
    rfl
  · cases d with
    | allow => exact hrun
    | block attempt =>
      rcases hblocked.mp rfl with h | ⟨name, -, -, h⟩
      all_goals exact absurd h Bool.false_ne_true

end NativeHook
end Cordon
