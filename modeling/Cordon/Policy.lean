import Cordon.Pattern
/-!
The hosts that one test may and may not reach. A blocked pattern outweighs every allowed one, and a
policy that allows nothing blocks everything.
-/
namespace Cordon

structure Policy where
  allowed : List Pattern := []
  blocked : List Pattern := []
  /-- The generation of the store under which the policy was activated; 0 before that. -/
  generation : UInt64 := 0

namespace Policy

def blockAll : Policy := {}

instance : BEq Policy :=
  ⟨fun a b => a.allowed == b.allowed && a.blocked == b.blocked && a.generation == b.generation⟩

def isExplicitlyBlocked (c : Policy) (host : String) : Bool := c.blocked.any (·.isMatch host)

/-- Whether an allowed pattern matches, whatever is blocked. -/
def isListedAsAllowed (c : Policy) (host : String) : Bool := c.allowed.any (·.isMatch host)

def isAllowed (c : Policy) (host : String) : Bool :=
  !c.isExplicitlyBlocked host && c.isListedAsAllowed host

/-- Of equal patterns the first spelling stays. -/
def pushUnique (ps : List Pattern) (p : Pattern) : List Pattern :=
  if ps.any (· == p) then ps else ps ++ [p]

/-- The patterns of both. -/
def merge (c d : Policy) : Policy where
  allowed := d.allowed.foldl pushUnique c.allowed
  blocked := d.blocked.foldl pushUnique c.blocked
  generation := 0

/-- Texts that are to become the patterns of a policy. -/
structure Draft where
  allowed : List String := []
  blocked : List String := []

namespace Draft

def allow (d : Draft) (text : String) : Draft := { d with allowed := d.allowed ++ [text] }

def allowAll (d : Draft) : Draft := d.allow "*"

def allowHosts (d : Draft) (texts : List String) : Draft :=
  { d with allowed := d.allowed ++ texts }

def block (d : Draft) (text : String) : Draft := { d with blocked := d.blocked ++ [text] }

def blockHosts (d : Draft) (texts : List String) : Draft :=
  { d with blocked := d.blocked ++ texts }

end Draft

/-- Stops at the first text that is no pattern. -/
def compile (texts : List String) : Except Pattern.Rejection (List Pattern) :=
  texts.foldlM (fun ps text => (Pattern.parse text).map (pushUnique ps)) []

/-- The allowed texts are read first. -/
def build (d : Draft) : Except Pattern.Rejection Policy := do
  let allowed ← compile d.allowed
  let blocked ← compile d.blocked
  return { allowed, blocked }

end Policy
end Cordon
