import Cordon.Engine
import Cordon.Lifecycle
import Cordon.Proofs.Store.Run
/-!
Runs of tests that do not overlap, one after the other over one store, while any threads take views
of the store, pass them on and ask engines. What such a run may answer is said without stores and
threads, from the texts of the defaults and of the live test alone.
-/
namespace Cordon.Lifecycle

/-- The stores of a process, and what the live test says of itself. -/
structure Bench where
  held : Stores.Held
  live : Option Annotations := none

inductive Event where
  /-- Opens the scope of a test; if a text is no pattern, no scope comes of it. -/
  | opens (t : Thread) (a : Annotations)
  /-- Ends the scope of the live test, whose body may have panicked. -/
  | closes (t : Thread)
  | asks (e : Engine) (t : Thread) (host : String) (port : Int) (caller : String)
    (stack : CallStack)
  | uses (op : Stores.Op)

namespace Event

/-- Whether an event may happen: scopes do not overlap, and only they act on the store itself. The
lifecycle keeps its store from ending. -/
def Possible (l : Lifecycle) (b : Bench) : Event → Prop
  | opens _ _ => b.live = none
  | closes _ => b.live.isSome = true
  | asks e .. => b.held.stores.live e.store = true
  | uses op => op.Possible b.held ∧ op.alters l.store = false

def apply (l : Lifecycle) (b : Bench) : Event → Bench
  | opens t a =>
    match l.beforeTest b.held.stores t a with
    | (.ok _, w) => ⟨{ b.held with stores := w }, some a⟩
    | (.error _, w) => ⟨{ b.held with stores := w }, none⟩
  | closes t => ⟨{ b.held with stores := l.afterTest b.held.stores t }, none⟩
  | asks e t host port caller stack =>
    { b with held := { b.held with stores := (e.decide b.held.stores t host port caller stack).2 } }
  | uses op => { b with held := op.apply b.held }

def isCloses : Event → Bool
  | closes _ => true
  | _ => false

end Event

/-- The benches that come about over a new store with the given classifier, with the events that led
there, the newest first. -/
inductive Reaches (l : Lifecycle) (harness : Classifier) : List Event → Bench → Prop
  | start : Stores.Run past x → x.stores.next = l.store →
    Reaches l harness [] ⟨(Stores.Op.create harness).apply x, none⟩
  | step : Reaches l harness events b → (event : Event) → event.Possible l b →
    Reaches l harness (event :: events) (event.apply l b)

/-- How many scopes have been closed. -/
def closed (events : List Event) : Nat := events.countP Event.isCloses

/-- The answer to an attempt while the given test is live, if any is. -/
def verdict (l : Lifecycle) (live : Option Annotations) (exempt : Bool) (attempt : BlockedAttempt) :
    Decision :=
  match live with
  | none => .allow
  | some a =>
    let guarded := a.blockNetworkRequests || l.defaults.applyToAllTests
    let blocked := l.defaults.blockedHosts ++ a.blockedHosts
    let allowed := l.defaults.allowedHosts ++ a.allowedHosts
    if a.allowNetworkRequests || !guarded || exempt then .allow
    else if blocked.any (Pattern.isMatchText · attempt.host) then .block attempt
    else if allowed.any (Pattern.isMatchText · attempt.host) then .allow
    else .block attempt

end Cordon.Lifecycle
