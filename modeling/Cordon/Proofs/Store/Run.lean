import Cordon.Store
/-!
Runs of the operations on the stores of a process, by any threads and in any order. A run is known
by the operations done so far, the newest first, and the state that they lead to; snapshots are kept
from when they are taken on and may be attached at any later time, also after their store has ended.
-/
namespace Cordon.Stores

/-- The stores of a process with every snapshot taken so far. -/
structure Held where
  stores : Stores := {}
  snapshots : List Snapshot := []

inductive Op where
  | create (harness : Classifier)
  | set (s : StoreId) (t : Thread) (p : Policy)
  | clear (s : StoreId) (t : Thread)
  | get (s : StoreId) (t : Thread)
  | snapshot (s : StoreId) (t : Thread)
  | attach (snap : Snapshot) (t : Thread)
  /-- Starts `child` with the view of `t`. A child that takes the view over later is a `snapshot`
  now and an `attach` then. -/
  | inherit (s : StoreId) (t child : Thread)
  | drop (s : StoreId) (t : Thread)

namespace Op

/-- Whether a state allows an operation: a store must have been made and not have ended, a snapshot
must have been taken. -/
def Possible (x : Held) : Op → Prop
  | create _ => True
  | set s .. | clear s _ | get s _ | snapshot s _ | inherit s .. | drop s _ =>
    x.stores.live s = true
  | attach snap _ => snap ∈ x.snapshots

def apply (x : Held) : Op → Held
  | create harness => { x with stores := (x.stores.create harness).2 }
  | set s t p => { x with stores := (x.stores.set s t p).2 }
  | clear s t => { x with stores := x.stores.clear s t }
  | get s t => { x with stores := (x.stores.get s t).2 }
  | snapshot s t =>
    let (snap, w) := x.stores.snapshot s t
    ⟨w, snap :: x.snapshots⟩
  | attach snap t => { x with stores := x.stores.attach snap t }
  | inherit s t child =>
    let (snap, w) := x.stores.inherit s t child
    ⟨w, snap :: x.snapshots⟩
  | drop s t => { x with stores := x.stores.drop s t }

def isClear (s : StoreId) : Op → Bool
  | clear s' _ => s' = s
  | _ => false

/-- Whether an operation acts on the store itself, beyond some thread's view of it. -/
def alters (s : StoreId) : Op → Bool
  | set s' .. | clear s' _ | drop s' _ => s' = s
  | _ => false

end Op

/-- The states that a process can reach, with the operations that led there. -/
inductive Run : List Op → Held → Prop
  | start : Run [] {}
  | step : Run past x → (op : Op) → op.Possible x → Run (op :: past) (op.apply x)

/-- How often a store has been cleared. -/
def clears (s : StoreId) (past : List Op) : Nat := past.countP (Op.isClear s)

/-- The policy that was set last, if the store has not been cleared since. -/
def latest (s : StoreId) : List Op → Option Policy
  | [] => none
  | .set s' _ p :: past => if s' = s then some p else latest s past
  | .clear s' _ :: past => if s' = s then none else latest s past
  | _ :: past => latest s past

/-- `p` was set on the store after its latest clearing. -/
def SetSinceClear (s : StoreId) (p : Policy) (past : List Op) : Prop :=
  ∃ recent t older, past = recent ++ Op.set s t p :: older ∧ ∀ t', Op.clear s t' ∉ recent

/-- `p` is what a `set` on the store made of the policy that it was given, with the generation that
the store had then. -/
def Stamped (s : StoreId) (p : Policy) (past : List Op) : Prop :=
  ∃ recent t q older, past = recent ++ Op.set s t q :: older ∧
    p = { q with generation := UInt64.ofNat (clears s older) }

end Cordon.Stores
