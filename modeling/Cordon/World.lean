import Cordon.Counter
import Cordon.Lifecycle
import Cordon.NativeTable
import Cordon.SymbolCache
/-!
What the threads of one process share, and the actions on it. The embedding program has a state of its
own there, of type `ε`, on which its engines work.
-/
namespace Cordon

abbrev TableId := Nat

structure World (ε : Type) where
  stores : Stores := {}
  /-- What was counted so far, the newest first. -/
  events : List Event := []
  /-- The frames that a capture of the calling thread's stack gives. -/
  frames : List String := []
  registered : Option Backend := none
  /-- Whether the exported functions of this process can be found by name. -/
  exported : Bool := false
  /-- The time in nanoseconds. -/
  clock : Nat := 0
  symbols : SymbolCache Unit := {}
  /-- Whether a thread is inside a native hook. -/
  inHook : ThreadId → Bool := fun _ => false
  nextTable : TableId := 0
  table : TableId → NativeTable := fun _ => {}
  embedding : ε

/-- An engine of the embedding program broke off a call. -/
inductive Fault where
  | brokenOff
  deriving DecidableEq

/-- Actions change the world and may break off; what they changed by then stays changed. -/
abbrev Act (ε : Type) := ExceptT Fault (StateM (World ε))

/-- How the engines of the embedding program answer, each known by its number. -/
structure Embedder (ε : Type) where
  isActive : Nat → Thread → Act ε Bool
  check : Nat → Thread → (host : String) → (port : Int) → (caller : String) → Act ε Decision
  checkConnection : Nat → Thread → Address → (hostnames : List String) → (port : UInt16) →
    (caller : String) → Act ε Decision
  isExplicitlyBlocked : Nat → Thread → (host : String) → Act ε Bool

namespace World

variable {ε : Type}

def count (w : World ε) (e : Event) : World ε := { w with events := e :: w.events }

/-- How often an event was counted. -/
def counted (w : World ε) (e : Event) : Nat := w.events.count e

def setTable (w : World ε) (i : TableId) (x : NativeTable) : World ε :=
  { w with table := fun i' => if i' = i then x else w.table i' }

def setInHook (w : World ε) (t : ThreadId) (inside : Bool) : World ε :=
  { w with inHook := fun t' => if t' = t then inside else w.inHook t' }

def newTable (w : World ε) (x : NativeTable) : TableId × World ε :=
  (w.nextTable, { (w.setTable w.nextTable x) with nextTable := w.nextTable + 1 })

/-- Runs an operation on the stores. -/
def onStores {α : Type} (f : Stores → α × Stores) (w : World ε) : α × World ε :=
  let (a, stores) := f w.stores
  (a, { w with stores })

/-- Takes a judgement and counts it for its caller. -/
def judged (caller : String) (f : Stores → Judgement × Stores) (w : World ε) : Judgement × World ε :=
  let (j, w) := w.onStores f
  (j, w.count (.decision j.outcome caller))

/-- The stack of the calling thread, not captured yet. -/
def callStack (w : World ε) : CallStack := .uncaptured w.frames

def decide (e : Engine) (t : Thread) (host : String) (port : Int) (caller : String)
    (stack : CallStack) (w : World ε) : Judgement × World ε :=
  w.judged caller fun stores => e.decide stores t host port caller stack

def decideConnection (e : Engine) (t : Thread) (address : Address) (hostnames : List String)
    (port : UInt16) (caller : String) (w : World ε) : Judgement × World ε :=
  w.judged caller fun stores =>
    e.decideConnection stores t address hostnames port caller w.callStack

end World

namespace Act

variable {ε α : Type}

/-- An action that cannot break off. -/
def ofStep (f : World ε → α × World ε) : Act ε α := ExceptT.mk fun w =>
  let (a, w) := f w
  (.ok a, w)

def modify (f : World ε → World ε) : Act ε Unit := ofStep fun w => ((), f w)

def read (f : World ε → α) : Act ε α := ofStep fun w => (f w, w)

/-- Answers `fallback` if the action breaks off. -/
def orElse (action : Act ε α) (fallback : α) : Act ε α := ExceptT.mk fun w =>
  match action.run w with
  | (.ok a, w) => (.ok a, w)
  | (.error _, w) => (.ok fallback, w)

/-- Runs the action with `before` done to the world, and `after` however it ends. -/
def bracket (before after : World ε → World ε) (action : Act ε α) : Act ε α := ExceptT.mk fun w =>
  let (r, w) := action.run (before w)
  (r, after w)

end Act

namespace Backend

variable {ε : Type} (m : Embedder ε)

def isActive (b : Backend) (t : Thread) : Act ε Bool :=
  match b with
  | .engine e => .ofStep fun w => w.onStores fun stores => stores.isActive e.store t
  | .embedded i => m.isActive i t

def check (b : Backend) (t : Thread) (host : String) (port : Int) (caller : String) :
    Act ε Decision :=
  match b with
  | .engine e => .ofStep fun w =>
    let (j, w) := w.decide e t host port caller w.callStack
    (j.decision, w)
  | .embedded i => m.check i t host port caller

def checkConnection (b : Backend) (t : Thread) (address : Address) (hostnames : List String)
    (port : UInt16) (caller : String) : Act ε Decision :=
  match b with
  | .engine e => .ofStep fun w =>
    let (j, w) := w.decideConnection e t address hostnames port caller
    (j.decision, w)
  | .embedded i => m.checkConnection i t address hostnames port caller

def isExplicitlyBlocked (b : Backend) (t : Thread) (host : String) : Act ε Bool :=
  match b with
  | .engine e => .ofStep fun w => w.onStores fun stores => e.isExplicitlyBlocked stores t host
  | .embedded i => m.isExplicitlyBlocked i t host

end Backend
end Cordon
