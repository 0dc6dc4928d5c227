import Cordon.Proofs.Address.Spelling
import Cordon.Proofs.Hook.Recorded
import Cordon.Proofs.Store.Log
/-!
Runs on native tables in which IPv4 addresses are spelled in either way. Whatever is recorded, asked
of a book or connected to, and whatever else goes on meanwhile, the spelling of an address makes no
difference to any answer nor to what is left in the world.
-/
namespace Cordon

open Address (Respells RespellsText)

variable {ε : Type} {m : Embedder ε}

/-- A world with every snapshot taken so far. -/
structure Scene (ε : Type) where
  world : World ε
  snapshots : List Snapshot := []

/-- What is done to native tables, and around them. -/
inductive TableCall (ε : Type) where
  | record (i : TableId) (host : String) (addresses : List Address)
  | hostnames (i : TableId) (a : Address)
  | size (i : TableId)
  | connect (i : TableId) (t : Thread) (target : Endpoint) (caller : String)
  | counted (e : Event)
  | store (call : Stores.Call)
  /-- Anything else that goes on in the process. -/
  | other (f : World ε → World ε)

inductive TableAnswer where
  | done
  | names (names : List String)
  | number (n : Nat)
  /-- An engine of the embedding program may have broken off. -/
  | decision (d : Except Fault Decision)
  | store (answer : Stores.Answer)

namespace Scene

/-- The stores of a scene with its snapshots. -/
def held (x : Scene ε) : Stores.Held := ⟨x.world.stores, x.snapshots⟩

def withHeld (x : Scene ε) (h : Stores.Held) : Scene ε :=
  ⟨{ x.world with stores := h.stores }, h.snapshots⟩

end Scene

namespace TableCall

def run (m : Embedder ε) (x : Scene ε) : TableCall ε → TableAnswer × Scene ε
  | record i host addresses => (.done, { x with world := x.world.recorded i host addresses })
  | hostnames i a => (.names ((x.world.table i).book.hostnames a), x)
  | size i => (.number (x.world.table i).book.size, x)
  | connect i t target caller =>
    let (d, world) := (NativeHook.guardConnect m t i target caller).run x.world
    (.decision d, { x with world })
  | counted e => (.number (x.world.counted e), x)
  | store call => (.store (call.answer x.held), x.withHeld (call.apply x.held))
  | other f => (.done, { x with world := f x.world })

/-- Makes the calls one after the other. -/
def runAll (m : Embedder ε) (x : Scene ε) : List (TableCall ε) → List TableAnswer × Scene ε
  | [] => ([], x)
  | call :: calls =>
    let (answer, x) := call.run m x
    let (answers, x) := runAll m x calls
    (answer :: answers, x)

/-- The second call is the first one with any of its IPv4 addresses spelled in IPv6. -/
inductive Respelled : TableCall ε → TableCall ε → Prop
  | same (call : TableCall ε) : Respelled call call
  | record (i : TableId) : RespellsText host host' → List.Forall₂ Respells addresses addresses' →
    Respelled (.record i host addresses) (.record i host' addresses')
  | hostnames (i : TableId) : Respells a a' → Respelled (.hostnames i a) (.hostnames i a')
  | connect (i : TableId) (t : Thread) (port : UInt16) (caller : String) : Respells a a' →
    Respelled (.connect i t ⟨a, port⟩ caller) (.connect i t ⟨a', port⟩ caller)

variable {a a' : Address} {call call' : TableCall ε} {calls calls' : List (TableCall ε)}

theorem guardConnect_respelled (h : Respells a a') (m : Embedder ε) (t : Thread) (i : TableId)
    (port : UInt16) (caller : String) :
    NativeHook.guardConnect m t i ⟨a', port⟩ caller =
      NativeHook.guardConnect m t i ⟨a, port⟩ caller := by
  rw [NativeHook.guardConnect, NativeHook.guardConnect]
  dsimp only
  rw [h.canonical_eq]

theorem recorded_respelled {host host' : String} {addresses addresses' : List Address}
    (hhost : RespellsText host host') (h : List.Forall₂ Respells addresses addresses')
    (w : World ε) (i : TableId) :
    w.recorded i host' addresses' = w.recorded i host addresses := by
  rw [World.recorded, World.recorded, AddressBook.record_respelled hhost h]

/-- A call that is respelled gives the same answer and leaves the same scene. -/
theorem Respelled.run_eq (h : Respelled call call') (m : Embedder ε) (x : Scene ε) :
    call'.run m x = call.run m x := by
  cases h with
  | same => rfl
  | record i hhost haddresses =>
    rw [run, run, recorded_respelled hhost haddresses]
  | hostnames i ha => rw [run, run, AddressBook.hostnames_of_canonical_eq ha.canonical_eq]
  | connect i t port caller ha => rw [run, run, guardConnect_respelled ha]

/-- The spelling of IPv4 addresses makes no difference. Where in any of the calls of a run, on any
tables and with whatever goes on in between, IPv4 addresses are spelled in IPv6, every answer stays
the same, sizes, names, decisions and counters among them, and the run ends in the same scene. No
other addresses are taken for the same: to every book two addresses are alike just if they are equal
or one spells the other. -/
theorem runAll_respelled (h : List.Forall₂ Respelled calls calls') (m : Embedder ε)
    (x : Scene ε) :
    runAll m x calls' = runAll m x calls ∧
    ∀ a a' : Address, (∀ b : AddressBook, b.hostnames a' = b.hostnames a) ↔
      Respells a a' ∨ Respells a' a := by
  refine ⟨?_, fun a a' => AddressBook.hostnames_eq_iff.trans Address.canonical_eq_iff⟩
  induction h generalizing x with
  | nil => rfl
  | cons hcall _ ih =>
    rw [runAll, runAll, hcall.run_eq]
    dsimp only
    rw [ih]

/-- A name is recorded for an IPv4 address in its IPv6 spelling, and is what a block of a connection
to the address reports, whose target is spelled in either way. -/
theorem runAll_respelled_name : ∃ x : Scene Unit,
    (runAll .passing x [.record 0 "db.test" [.mapped 0x0A000001#32],
      .hostnames 0 (.v4 0x0A000001#32), .size 0,
      .connect 0 ⟨1, none⟩ ⟨.mapped 0x0A000001#32, 5432⟩ "driver",
      .counted (.decision .blocked "driver")]).1 =
    [.done, .names ["db.test"], .number 1,
      .decision (.ok (.block ⟨"db.test", 5432, "driver", ""⟩)), .number 1] := by
  let a : Address := .v4 0x0A000001#32
  let x : Scene Unit := ⟨{
    stores := .activated .blockAll, registered := some (.engine { store := 1 })
    table := fun _ => { state := fun _ => .hooked }, embedding := () }, []⟩
  have hsame := (runAll_respelled (.cons (.record 0 (.same "db.test")
    (.cons (.mapped 0x0A000001#32) .nil)) (.cons (.same (.hostnames 0 a)) (.cons (.same (.size 0))
    (.cons (.connect 0 ⟨1, none⟩ 5432 "driver" (.mapped 0x0A000001#32))
    (.cons (.same (.counted (.decision .blocked "driver"))) .nil))))) .passing x).1
  let w : World Unit := x.world.recorded 0 "db.test" [a]
  have hbook : (w.table 0).book = ({} : AddressBook).remember "db.test" a := by
    have hhost : AddressBook.isRecordable "db.test" = true := by decide
    rw [World.table_recorded]
    exact AddressBook.record_empty hhost a
  have hnames : (w.table 0).book.hostnames a = ["db.test"] := by
    rw [hbook, AddressBook.hostnames_remember, if_pos rfl]
    exact congrArg (AddressBook.promote "db.test") Std.HashMap.getD_empty
  have hsize : (w.table 0).book.size = 1 := by
    rw [hbook, AddressBook.size, AddressBook.remember, Std.HashMap.size_insert,
      if_neg Std.HashMap.not_mem_empty, Std.HashMap.size_empty]
  let r := (NativeHook.guardConnect .passing ⟨1, none⟩ 0 ⟨a, 5432⟩ "driver").run w
  have hjudged {names : List String} (h : (w.table 0).book.hostnames a = names) :
      let j := w.decideConnection { store := 1 } ⟨1, none⟩ a names 5432 "driver"
      r.1 = .ok j.1.decision ∧ r.2.events = j.2.events := by
    subst h
    exact ⟨rfl, rfl⟩
  obtain ⟨hdecision, hevents⟩ := hjudged hnames
  have hcounted : r.2.counted (.decision .blocked "driver") = 1 := by
    rw [World.counted, hevents]
    decide
  refine ⟨x, (congrArg Prod.fst hsame).trans ?_⟩
  change [TableAnswer.done, .names ((w.table 0).book.hostnames a),
    .number (w.table 0).book.size, .decision r.1,
    .number (r.2.counted (.decision .blocked "driver"))] = _
  rw [hnames, hsize, hdecision, hcounted]
  rfl

end TableCall
end Cordon
