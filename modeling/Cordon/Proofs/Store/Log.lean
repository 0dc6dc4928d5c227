import Cordon.Proofs.Store.Run
/-!
Runs as their callers know them: each call with what it gave back, the newest first. A log is
thinned to one store by leaving out every call on other stores, and as many plain reads as one
likes; the store is then the first one made, so that it has another identity.
-/
namespace Cordon.Stores

inductive Call where
  | op (op : Op)
  | isActive (s : StoreId) (t : Thread)
  | generation (s : StoreId)

inductive Answer where
  | done
  | made (s : StoreId)
  | policy (p : Option Policy)
  | active (answer : Bool)
  | generation (n : UInt64)
  | view (snap : Snapshot)

/-- A call with what it gave back. -/
abbrev Entry := Call × Answer

/-- The store that an operation is on; what it makes is told by its answer. -/
def Op.store? : Op → Option StoreId
  | create _ => none
  | set s .. | clear s _ | get s _ | snapshot s _ | inherit s .. | drop s _ => some s
  | attach snap _ => some snap.store

/-- The operation on the first store made. -/
def Op.alone : Op → Op
  | create harness => create harness
  | set _ t p => set 1 t p
  | clear _ t => clear 1 t
  | get _ t => get 1 t
  | snapshot _ t => snapshot 1 t
  | attach snap t => attach { snap with store := 1 } t
  | inherit _ t child => inherit 1 t child
  | drop _ t => drop 1 t

namespace Call

def Possible (x : Held) : Call → Prop
  | op o => o.Possible x
  | isActive s _ | generation s => x.stores.live s = true

def apply (x : Held) : Call → Held
  | op o => o.apply x
  | isActive s t => { x with stores := (x.stores.isActive s t).2 }
  | generation _ => x

def answer (x : Held) : Call → Answer
  | op (.create harness) => .made (x.stores.create harness).1
  | op (.set s t p) => .policy (some (x.stores.set s t p).1)
  | op (.get s t) => .policy (x.stores.get s t).1
  | op (.snapshot s t) => .view (x.stores.snapshot s t).1
  | op _ => .done
  | isActive s t => .active (x.stores.isActive s t).1
  | generation s => .generation (x.stores.generation s)

/-- The operations that a call comes to. -/
def ops : Call → List Op
  | op o => [o]
  | isActive s t => [.get s t]
  | generation _ => []

/-- A plain read takes nothing along. -/
def isRead : Call → Bool
  | op (.get ..) | isActive .. => true
  | _ => false

def store? : Call → Option StoreId
  | op o => o.store?
  | isActive s _ | generation s => some s

def alone : Call → Call
  | op o => op o.alone
  | isActive _ t => isActive 1 t
  | generation _ => generation 1

end Call

def Answer.alone : Answer → Answer
  | made _ => made 1
  | view snap => view { snap with store := 1 }
  | answer => answer

/-- Whether a call was on a store, its making included. -/
def Entry.isOn (s : StoreId) : Entry → Bool
  | (.op (.create _), .made s') => s' = s
  | (call, _) => call.store? = some s

/-- The states that a process can reach, with the log that its callers have by then. -/
inductive Logged : List Entry → Held → Prop
  | start : Logged [] {}
  | step : Logged log x → (call : Call) → call.Possible x →
    Logged ((call, call.answer x) :: log) (call.apply x)

def opsOf (log : List Entry) : List Op := log.flatMap (·.1.ops)

/-- What is left of a log when only the calls on one store stay, less some of the plain reads. -/
inductive Thinned (s : StoreId) : List Entry → List Entry → Prop
  | nil : Thinned s [] []
  | foreign : Entry.isOn s (call, answer) = false → Thinned s log rest →
    Thinned s ((call, answer) :: log) rest
  | read {call : Call} {answer : Answer} : call.isRead = true → Thinned s log rest →
    Thinned s ((call, answer) :: log) rest
  | keep : Entry.isOn s (call, answer) = true → Thinned s log rest →
    Thinned s ((call, answer) :: log) ((call.alone, answer.alone) :: rest)

end Cordon.Stores
