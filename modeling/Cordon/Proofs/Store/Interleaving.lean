import Cordon.Proofs.Store.Run
/-!
Calls on stores that overlap. A call is a sequence of atomic steps, and between two of them any other
thread may take steps of its own; all threads see the steps of all threads in one order. A call starts
with its first step and ends with its last one.

Whoever sets and clears a store does so for one test at a time, so that such calls on one store do not
overlap. All other calls may overlap with everything.
-/
namespace Cordon.Interleaving

open Stores

/-! ## Steps of a call -/

/-- A call that takes several steps. -/
inductive Request where
  | set (p : Policy)
  | clear
  | get
  | snapshot

/-- Whether a call changes what the threads share. -/
def Request.isWrite : Request → Bool
  | set _ | clear => true
  | get | snapshot => false

/-- What is still to be done of a call. -/
inductive Rest where
  /-- The policy goes into the thread's slot, and becomes the fallback after that. -/
  | fill (p : Policy)
  | publish (p : Policy)
  /-- The fallback is emptied, and the generation advances after that. -/
  | empty
  | advance
  /-- The thread's slot is served if it is of the generation that was read. -/
  | look (current : UInt64)
  | classify
  | share

/-- What a step makes of a call. -/
inductive Progress where
  | goes (rest : Rest)
  | ends (result : Option Policy)

/-- The first step of a call. -/
def Request.begin (s : StoreId) (t : Thread) (w : Stores) : Request → Rest × Stores
  | set p => (.fill { p with generation := w.generation s }, w)
  | clear => (.empty, w.removeSlot s t.id)
  | get | snapshot => (.look (w.generation s), w)

/-- The next step of a call. Dropping a stale slot is no step of its own, since a thread's slots are
seen by nobody else. -/
def Rest.step (s : StoreId) (t : Thread) (w : Stores) : Rest → Progress × Stores
  | fill p => (.goes (.publish p), w.writeSlot s t.id p)
  | publish p => (.ends (some p), w.writeFallback s (some p))
  | empty => (.goes .advance, w.writeFallback s none)
  | advance => (.ends none, w.advance s)
  | look current =>
    match w.slot? s t.id with
    | some p =>
      if p.generation = current then (.ends (some p), w)
      else (.goes .classify, w.dropStale s t.id current)
    | none => (.goes .classify, w)
  | classify => if (w.store s).harness t then (.ends none, w) else (.goes .share, w)
  | share => (.ends (w.store s).fallback, w)

/-- The call comes to its end while no other thread takes a step. -/
inductive Rest.Finishes (s : StoreId) (t : Thread) : Stores → Rest → Option Policy × Stores → Prop
  | ends : rest.step s t w = (.ends result, w') → Finishes s t w rest (result, w')
  | goes : rest.step s t w = (.goes rest', w') → Finishes s t w' rest' final →
    Finishes s t w rest final

/-- What a call comes to as one operation. -/
def Request.operation (s : StoreId) (t : Thread) (w : Stores) : Request → Option Policy × Stores
  | set p => (some (w.set s t p).1, (w.set s t p).2)
  | clear => (none, w.clear s t)
  | get | snapshot => w.get s t

theorem finishes_look (s : StoreId) (t : Thread) (w : Stores) :
    (Rest.look (w.generation s)).Finishes s t w (w.get s t) := by
  -- a slot that is not served leaves the same way to the shared part, whether it was there or not
  have hshared {w' : Stores} (hstore : w'.store = w.store) : Rest.classify.Finishes s t w'
      (if (w.store s).harness t then none else (w.store s).fallback, w') := by
    cases hharness : (w.store s).harness t with
    | true => exact .ends (by simp [Rest.step, hstore, hharness])
    | false =>
      have hclassify : Rest.classify.step s t w' = (.goes .share, w') := by
        simp [Rest.step, hstore, hharness]
      exact .goes hclassify (.ends (by simp [Rest.step, hstore]))
  rw [Stores.get]
  cases hslot : w.slot? s t.id with
  | none => exact .goes (by simp [Rest.step, hslot]) (hshared rfl)
  | some p =>
    by_cases hgen : p.generation = w.generation s
    · simp only [if_pos hgen]
      exact .ends (by simp [Rest.step, hslot, hgen])
    · simp only [if_neg hgen]
      exact .goes (by simp [Rest.step, hslot, hgen]) (hshared rfl)

/-- A call whose steps no other thread comes between is the operation of the stores. -/
theorem finishes_operation (s : StoreId) (t : Thread) (w : Stores) (request : Request) :
    (request.begin s t w).1.Finishes s t (request.begin s t w).2 (request.operation s t w) := by
  cases request with
  | set p => exact .goes rfl (.ends rfl)
  | clear => exact .goes rfl (.ends rfl)
  | get => exact finishes_look s t w
  | snapshot => exact finishes_look s t w

/-! ## Processes -/

/-- A call that a thread is inside. -/
structure Task where
  thread : Thread
  store : StoreId
  request : Request
  rest : Rest

structure Process extends Held where
  task : ThreadId → Option Task := fun _ => none

inductive Event where
  | starts (t : Thread) (s : StoreId) (request : Request)
  | ends (t : Thread) (s : StoreId) (request : Request) (result : Option Policy)

namespace Process

def onStores (x : Process) (w : Stores) : Process := { x with stores := w }

def setTask (x : Process) (u : ThreadId) (task? : Option Task) : Process :=
  { x with task := fun u' => if u' = u then task? else x.task u' }

/-- A view is kept once it is taken. -/
def keep (x : Process) (s : StoreId) (request : Request) (result : Option Policy) : Process :=
  match request with
  | .snapshot => { x with snapshots := ⟨s, result⟩ :: x.snapshots }
  | _ => x

/-- No thread is inside a call that writes the store. -/
def Unwritten (x : Process) (s : StoreId) : Prop :=
  ∀ u task, x.task u = some task → task.store = s → task.request.isWrite = false

variable {x : Process} {u u' : ThreadId} {task task' : Task} {task? : Option Task}

theorem task_setTask (h : (x.setTask u task?).task u' = some task) :
    u' = u ∧ task? = some task ∨ u' ≠ u ∧ x.task u' = some task := by
  by_cases hu : u' = u
  · exact .inl ⟨hu, by simpa [setTask, hu] using h⟩
  · exact .inr ⟨hu, by simpa [setTask, hu] using h⟩

theorem setTask_setTask (x : Process) (u : ThreadId) (first second : Option Task) :
    (x.setTask u first).setTask u second = x.setTask u second := by
  rw [setTask, setTask, setTask]
  congr 1
  funext u'
  by_cases hu : u' = u
  · simp [hu]
  · simp [hu]

end Process

/-- A step of some thread with the events that it is. What takes one step only is no event. -/
inductive Step : Process → List Event → Process → Prop
  | create (harness : Classifier) : Step x [] (x.onStores (x.stores.create harness).2)
  | attach : snap ∈ x.snapshots → x.task t.id = none → Step x [] (x.onStores (x.stores.attach snap t))
  /-- A store ends when nobody can call it any more. -/
  | drop : x.stores.live s = true → x.task t.id = none →
    (∀ u task, x.task u = some task → task.store ≠ s) → Step x [] (x.onStores (x.stores.drop s t))
  | starts : x.stores.live s = true → x.task t.id = none →
    (request.isWrite = true → x.Unwritten s) →
    Step x [.starts t s request] ((x.onStores (request.begin s t x.stores).2).setTask t.id
      (some ⟨t, s, request, (request.begin s t x.stores).1⟩))
  | goes : x.task u = some ⟨t, s, request, rest⟩ → rest.step s t x.stores = (.goes rest', w) →
    Step x [] ((x.onStores w).setTask u (some ⟨t, s, request, rest'⟩))
  | ends : x.task u = some ⟨t, s, request, rest⟩ → rest.step s t x.stores = (.ends result, w) →
    Step x [.ends t s request result] (((x.onStores w).setTask u none).keep s request result)

/-- The processes that can come about, with the log of the calls, the newest event first. -/
inductive Reaches : List Event → Process → Prop
  | start : Reaches [] {}
  | step : Reaches log x → Step x events y → Reaches (events ++ log) y

/-! ## Logs -/

/-- Whether an event is the end of a clearing of the store. -/
def Event.endsClear (s : StoreId) : Event → Bool
  | ends _ s' .clear _ => s' = s
  | _ => false

/-- How many clearings of a store have ended. -/
def clears (s : StoreId) (log : List Event) : Nat := log.countP (Event.endsClear s)

/-- What a call that starts after `older` makes of the policy that it is given to set. -/
def stamp (s : StoreId) (older : List Event) (q : Policy) : Policy :=
  { q with generation := UInt64.ofNat (clears s older) }

/-- Whenever the store is set, it has been cleared since it was set before: at most one call that sets
it comes between two that clear it. -/
def Spaced (s : StoreId) (log : List Event) : Prop :=
  ∀ recent t q between t' q' older,
    log = recent ++ .starts t s (.set q) :: (between ++ .starts t' s (.set q') :: older) →
    ∃ u result, .ends u s .clear result ∈ between

end Cordon.Interleaving
