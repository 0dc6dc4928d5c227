import Cordon.Policy
import Cordon.Thread
/-!
Stores of active policies. A store keeps the policy that was activated last as a fallback for every
thread, one slot for each thread, and a generation that rises with each clearing. Clearing touches
only the calling thread's slot; the slots of other threads, and snapshots of them, stop counting
because their generation is no longer the store's.

All stores share one list of slots for each thread. The operations are sequences of the atomic steps
at the head of the module, in the order in which other threads may observe them.
-/
namespace Cordon

/-- The number by which a store is known. Numbers rise with each store that is made and are
unbounded here; a counter of 64 bits gives the same ones to the first 2^64 - 1 stores of a
process. -/
abbrev StoreId := Nat

/-- The part of a store that all threads share. -/
structure Store where
  generation : UInt64 := 0
  fallback : Option Policy := none
  /-- Tells the threads that never take the fallback. -/
  harness : Classifier := Classifier.noHarness

abbrev Slot := StoreId × Policy

/-- All stores of a process with the slots of its threads. -/
structure Stores where
  /-- The identity of the next store; identities are not used again. -/
  next : StoreId := 1
  store : StoreId → Store := fun _ => {}
  live : StoreId → Bool := fun _ => false
  slots : ThreadId → List Slot := fun _ => []

/-- A thread's view of a store, taken for another thread. -/
structure Snapshot where
  store : StoreId
  policy : Option Policy

namespace Stores

/-! ## Steps -/

def setStore (w : Stores) (s : StoreId) (x : Store) : Stores :=
  { w with store := fun s' => if s' = s then x else w.store s' }

def setSlots (w : Stores) (t : ThreadId) (slots : List Slot) : Stores :=
  { w with slots := fun t' => if t' = t then slots else w.slots t' }

def generation (w : Stores) (s : StoreId) : UInt64 := (w.store s).generation

/-- The policy in the thread's slot, current or not. -/
def slot? (w : Stores) (s : StoreId) (t : ThreadId) : Option Policy :=
  ((w.slots t).find? (·.1 = s)).map (·.2)

/-- Replaces the entry of store `s`, or adds one at the end. -/
def putEntry (s : StoreId) (p : Policy) : List Slot → List Slot
  | [] => [(s, p)]
  | entry :: rest => if entry.1 = s then (s, p) :: rest else entry :: putEntry s p rest

/-- Fills the thread's slot and drops the thread's entries of stores that are gone. Nothing is
written for a store that is gone itself. -/
def writeSlot (w : Stores) (s : StoreId) (t : ThreadId) (p : Policy) : Stores :=
  if w.live s then w.setSlots t (putEntry s p ((w.slots t).filter fun entry => w.live entry.1))
  else w

def removeSlot (w : Stores) (s : StoreId) (t : ThreadId) : Stores :=
  w.setSlots t ((w.slots t).filter (·.1 ≠ s))

/-- Drops the thread's slot unless it is of the given generation. -/
def dropStale (w : Stores) (s : StoreId) (t : ThreadId) (current : UInt64) : Stores :=
  w.setSlots t ((w.slots t).filter fun entry => entry.1 ≠ s || entry.2.generation = current)

def writeFallback (w : Stores) (s : StoreId) (p : Option Policy) : Stores :=
  w.setStore s { w.store s with fallback := p }

def advance (w : Stores) (s : StoreId) : Stores :=
  w.setStore s { w.store s with generation := w.generation s + 1 }

/-! ## Operations -/

def create (w : Stores) (harness : Classifier) : StoreId × Stores :=
  let s := w.next
  (s, { (w.setStore s { harness }) with
        next := s + 1
        live := fun s' => s' = s || w.live s' })

/-- Activates a policy on the calling thread and as the fallback. -/
def set (w : Stores) (s : StoreId) (t : Thread) (p : Policy) : Policy × Stores :=
  let stamped := { p with generation := w.generation s }
  (stamped, (w.writeSlot s t.id stamped).writeFallback s (some stamped))

/-- Deactivates what is active, on every thread. -/
def clear (w : Stores) (s : StoreId) (t : Thread) : Stores :=
  ((w.removeSlot s t.id).writeFallback s none).advance s

/-- The policy that applies to the calling thread: its slot if that is current, else the fallback,
which harness threads do not take. A stale slot is dropped on the way. -/
def get (w : Stores) (s : StoreId) (t : Thread) : Option Policy × Stores :=
  let current := w.generation s
  let shared := if (w.store s).harness t then none else (w.store s).fallback
  match w.slot? s t.id with
  | some p => if p.generation = current then (some p, w) else (shared, w.dropStale s t.id current)
  | none => (shared, w)

def isActive (w : Stores) (s : StoreId) (t : Thread) : Bool × Stores :=
  let (p, w) := w.get s t
  (p.isSome, w)

def snapshot (w : Stores) (s : StoreId) (t : Thread) : Snapshot × Stores :=
  let (policy, w) := w.get s t
  (⟨s, policy⟩, w)

/-- Puts the captured policy into the calling thread's slot. It obeys the rule of generations as any
other slot does. -/
def attach (w : Stores) (snap : Snapshot) (t : Thread) : Stores :=
  match snap.policy with
  | some p => w.writeSlot snap.store t.id p
  | none => w

/-- Starts the thread `child` with the view that `t` has of the store. -/
def inherit (w : Stores) (s : StoreId) (t child : Thread) : Snapshot × Stores :=
  let (snap, w) := w.snapshot s t
  (snap, w.attach snap child)

/-- Ends a store and frees the calling thread's slot; the slots of other threads go with the next
slot that is written there. -/
def drop (w : Stores) (s : StoreId) (t : Thread) : Stores :=
  { w with live := fun s' => s' ≠ s && w.live s' }.removeSlot s t.id

/-! ## Views -/

@[simp] theorem store_setSlots (w : Stores) (t : ThreadId) (l : List Slot) :
    (w.setSlots t l).store = w.store := rfl

@[simp] theorem slots_setSlots_self (w : Stores) (t : ThreadId) (l : List Slot) :
    (w.setSlots t l).slots t = l := by
  simp [setSlots]

@[simp] theorem slots_setSlots_ne (w : Stores) {t t' : ThreadId} (l : List Slot) (h : t' ≠ t) :
    (w.setSlots t l).slots t' = w.slots t' := by
  simp [setSlots, h]

@[simp] theorem store_setStore_self (w : Stores) (s : StoreId) (x : Store) :
    (w.setStore s x).store s = x := by
  simp [setStore]

@[simp] theorem store_setStore_ne (w : Stores) {s s' : StoreId} (x : Store) (h : s' ≠ s) :
    (w.setStore s x).store s' = w.store s' := by
  simp [setStore, h]

@[simp] theorem slots_setStore (w : Stores) (s : StoreId) (x : Store) :
    (w.setStore s x).slots = w.slots := rfl

@[simp] theorem live_setStore (w : Stores) (s : StoreId) (x : Store) :
    (w.setStore s x).live = w.live := rfl

@[simp] theorem live_setSlots (w : Stores) (t : ThreadId) (l : List Slot) :
    (w.setSlots t l).live = w.live := rfl

@[simp] theorem next_setSlots (w : Stores) (t : ThreadId) (l : List Slot) :
    (w.setSlots t l).next = w.next := rfl

@[simp] theorem next_setStore (w : Stores) (s : StoreId) (x : Store) :
    (w.setStore s x).next = w.next := rfl

@[simp] theorem store_writeSlot (w : Stores) (s : StoreId) (t : ThreadId) (p : Policy) :
    (w.writeSlot s t p).store = w.store := by
  rw [writeSlot]; split <;> rfl

@[simp] theorem live_writeSlot (w : Stores) (s : StoreId) (t : ThreadId) (p : Policy) :
    (w.writeSlot s t p).live = w.live := by
  rw [writeSlot]; split <;> rfl

@[simp] theorem next_writeSlot (w : Stores) (s : StoreId) (t : ThreadId) (p : Policy) :
    (w.writeSlot s t p).next = w.next := by
  rw [writeSlot]; split <;> rfl

/-- Reading leaves everything that other threads see as it was. -/
@[simp] theorem store_get (w : Stores) (s : StoreId) (t : Thread) :
    (w.get s t).2.store = w.store := by
  rw [get]
  split
  · split <;> rfl
  · rfl

@[simp] theorem live_get (w : Stores) (s : StoreId) (t : Thread) :
    (w.get s t).2.live = w.live := by
  rw [get]
  split
  · split <;> rfl
  · rfl

@[simp] theorem next_get (w : Stores) (s : StoreId) (t : Thread) :
    (w.get s t).2.next = w.next := by
  rw [get]
  split
  · split <;> rfl
  · rfl

@[simp] theorem store_attach (w : Stores) (snap : Snapshot) (t : Thread) :
    (w.attach snap t).store = w.store := by
  rw [attach]; split <;> simp

@[simp] theorem live_attach (w : Stores) (snap : Snapshot) (t : Thread) :
    (w.attach snap t).live = w.live := by
  rw [attach]; split <;> simp

@[simp] theorem next_attach (w : Stores) (snap : Snapshot) (t : Thread) :
    (w.attach snap t).next = w.next := by
  rw [attach]; split <;> simp

@[simp] theorem inherit_snd (w : Stores) (s : StoreId) (t child : Thread) :
    (w.inherit s t child).2 = (w.snapshot s t).2.attach (w.snapshot s t).1 child := rfl

@[simp] theorem live_set (w : Stores) (s : StoreId) (t : Thread) (p : Policy) :
    (w.set s t p).2.live = w.live := by
  simp [set, writeFallback]

@[simp] theorem next_set (w : Stores) (s : StoreId) (t : Thread) (p : Policy) :
    (w.set s t p).2.next = w.next := by
  simp [set, writeFallback]

@[simp] theorem live_clear (w : Stores) (s : StoreId) (t : Thread) :
    (w.clear s t).live = w.live := rfl

@[simp] theorem next_clear (w : Stores) (s : StoreId) (t : Thread) :
    (w.clear s t).next = w.next := rfl

/-- What a store holds after a policy is set. -/
theorem store_set (w : Stores) (s : StoreId) (t : Thread) (p : Policy) (s' : StoreId) :
    (w.set s t p).2.store s' =
      if s' = s then { w.store s with fallback := some { p with generation := w.generation s } }
      else w.store s' := by
  simp [set, writeFallback, setStore]

/-- What a store holds after a clearing. -/
theorem store_clear (w : Stores) (s : StoreId) (t : Thread) (s' : StoreId) :
    (w.clear s t).store s' =
      if s' = s then { w.store s with generation := w.generation s + 1, fallback := none }
      else w.store s' := by
  by_cases h : s' = s <;> simp [clear, advance, writeFallback, removeSlot, setStore, generation, h]

end Stores
end Cordon
