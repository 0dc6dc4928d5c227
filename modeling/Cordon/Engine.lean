import Cordon.Address
import Cordon.Attempt
import Cordon.Exemption
import Cordon.Settings
import Cordon.Store
/-!
The decision engine, to which every hook comes in the end. An attempt is decided in this order: without
an active policy it passes; an exempt one passes; a blocked pattern blocks it; an allowed pattern lets
it pass; what is left is blocked.
-/
namespace Cordon

/-- How a decision came about, as it is counted. -/
inductive Outcome where
  | allowed
  | blocked
  | exempt
  | noConfiguration
  deriving DecidableEq

structure Engine where
  store : StoreId
  exemption : Exemption := Exemption.none
  /-- How many frames a block reports. -/
  stackDepth : Nat := 12

/-- A decision with everything that can be told of it afterwards. -/
structure Judgement where
  decision : Decision
  outcome : Outcome
  /-- The stack as the decision left it. -/
  stack : CallStack

namespace Engine

def withStackDepth (e : Engine) (depth : Nat) : Engine := { e with stackDepth := max 1 depth }

/-- An exemption by markers and one by threads, each only if its list names any. -/
def settingsExemption (x : EngineSettings) : List Exemption :=
  (if x.exemptStackMarkers.isEmpty then [] else [Exemption.markers x.exemptStackMarkers]) ++
    if x.harnessThreadPrefixes.isEmpty then []
    else [Exemption.threads (Classifier.names x.harnessThreadPrefixes)]

def ofSettings (store : StoreId) (x : EngineSettings) : Engine :=
  let exemptions := settingsExemption x
  let engine := ({ store } : Engine).withStackDepth x.stackSnippetDepth
  if exemptions.isEmpty then engine else { engine with exemption := .any exemptions }

/-- A block looks at the frames to report them. -/
def blocked (e : Engine) (stack : CallStack) (host : String) (port : Int) (caller : String) :
    Judgement :=
  ⟨.block ⟨host, port, caller, stack.snippet e.stackDepth⟩, .blocked, stack.afterLook true⟩

/-- What is the same for every kind of attempt; `decide` goes on where a policy applies. -/
def judge (e : Engine) (t : Thread) (stack : CallStack) (policy : Option Policy)
    (decide : Policy → CallStack → Judgement) : Judgement :=
  match policy with
  | none => ⟨.allow, .noConfiguration, stack⟩
  | some policy =>
    let ruling := e.exemption.judge t stack.frames
    let stack := stack.afterLook ruling.looked
    if ruling.exempt then ⟨.allow, .exempt, stack⟩ else decide policy stack

/-- Decides on a host under a policy. -/
def judgeHost (e : Engine) (host : String) (port : Int) (caller : String) (policy : Policy)
    (stack : CallStack) : Judgement :=
  if policy.isExplicitlyBlocked host then e.blocked stack host port caller
  else if policy.isListedAsAllowed host then ⟨.allow, .allowed, stack⟩
  else e.blocked stack host port caller

/-- The names by which a connection is judged beside its address. -/
def namesFor (address : String) (hostnames : List String) : List String :=
  hostnames.filter fun name => name ≠ "" && name ≠ address

/-- Decides on a connection. A block on the address or on any name wins; without one, the connection
passes if the address or any name is allowed. -/
def judgeAddress (e : Engine) (address : String) (hostnames : List String) (port : UInt16)
    (caller : String) (policy : Policy) (stack : CallStack) : Judgement :=
  let names := namesFor address hostnames
  let block host := e.blocked stack host port.toNat caller
  let first := names.head?.getD address
  match names.find? policy.isExplicitlyBlocked with
  | some name => block name
  | none =>
    if policy.isExplicitlyBlocked address then block first
    else if policy.isListedAsAllowed address || names.any policy.isListedAsAllowed then
      ⟨.allow, .allowed, stack⟩
    else block first

/-- Decides on an attempt to reach a host with the policy that applies to the calling thread. -/
def decide (e : Engine) (w : Stores) (t : Thread) (host : String) (port : Int) (caller : String)
    (stack : CallStack) : Judgement × Stores :=
  let (policy, w) := w.get e.store t
  (e.judge t stack policy (e.judgeHost host port caller), w)

/-- Decides on a connection to an address that was resolved from the given names. -/
def decideConnection (e : Engine) (w : Stores) (t : Thread) (address : Address)
    (hostnames : List String) (port : UInt16) (caller : String) (stack : CallStack) :
    Judgement × Stores :=
  let (policy, w) := w.get e.store t
  (e.judge t stack policy (e.judgeAddress address.text hostnames port caller), w)

/-- Whether the policy that applies to the calling thread blocks a host by a pattern. -/
def isExplicitlyBlocked (e : Engine) (w : Stores) (t : Thread) (host : String) : Bool × Stores :=
  let (policy, w) := w.get e.store t
  (policy.any (·.isExplicitlyBlocked host), w)

end Engine
end Cordon
