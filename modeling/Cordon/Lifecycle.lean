import Cordon.Settings
import Cordon.Store
/-!
Activation for one test at a time. A test that opts out runs unguarded; a test that asks to be guarded,
or every test if the defaults say so, runs under the defaults and its own annotations together.
-/
namespace Cordon

/-- What a test says about its use of the network. -/
structure Annotations where
  blockNetworkRequests : Bool := false
  /-- Outweighs everything else. -/
  allowNetworkRequests : Bool := false
  allowedHosts : List String := []
  blockedHosts : List String := []
  deriving DecidableEq

namespace Annotations

def blocking : Annotations := { blockNetworkRequests := true }

def allowing : Annotations := { allowNetworkRequests := true }

def withAllowedHosts (a : Annotations) (hosts : List String) : Annotations :=
  { a with allowedHosts := a.allowedHosts ++ hosts }

def withBlockedHosts (a : Annotations) (hosts : List String) : Annotations :=
  { a with blockedHosts := a.blockedHosts ++ hosts }

def draft (a : Annotations) : Policy.Draft := ⟨a.allowedHosts, a.blockedHosts⟩

end Annotations

structure Lifecycle where
  store : StoreId
  defaults : Defaults

namespace Lifecycle

/-- Whether a test with these annotations runs guarded. -/
def guards (l : Lifecycle) (a : Annotations) : Bool :=
  !a.allowNetworkRequests && (a.blockNetworkRequests || l.defaults.applyToAllTests)

/-- The policy that a test runs under; the defaults are read before the annotations. -/
def resolve (l : Lifecycle) (a : Annotations) : Except Pattern.Rejection (Option Policy) :=
  if l.guards a then do
    let defaults ← Policy.build l.defaults.draft
    let own ← Policy.build a.draft
    return some (defaults.merge own)
  else return none

/-- Activates the policy of a test on the calling thread and as the fallback of the store. -/
def beforeTest (l : Lifecycle) (w : Stores) (t : Thread) (a : Annotations) :
    Except Pattern.Rejection (Option Policy) × Stores :=
  match l.resolve a with
  | .error rejection => (.error rejection, w)
  | .ok none => (.ok none, w)
  | .ok (some policy) =>
    let (active, w) := w.set l.store t policy
    (.ok (some active), w)

/-- Ends whatever is active, on every thread. A scope ends so as well, however its test came to an
end and whether it was guarded or not. -/
def afterTest (l : Lifecycle) (w : Stores) (t : Thread) : Stores := w.clear l.store t

end Lifecycle

/-- A test that was opened, with the policy that it runs under if it runs guarded. -/
structure Scope where
  lifecycle : Lifecycle
  policy : Option Policy

namespace Scope

def isGuarded (s : Scope) : Bool := s.policy.isSome

/-- Ends the test, on whichever thread. -/
def close (s : Scope) (w : Stores) (t : Thread) : Stores := s.lifecycle.afterTest w t

end Scope

/-- Begins a test. Where its texts make no policy there is no scope, and so nothing that could be
closed. -/
def Lifecycle.openScope (l : Lifecycle) (w : Stores) (t : Thread) (a : Annotations) :
    Except Pattern.Rejection Scope × Stores :=
  let (opened, w) := l.beforeTest w t a
  (opened.map (⟨l, ·⟩), w)

end Cordon
