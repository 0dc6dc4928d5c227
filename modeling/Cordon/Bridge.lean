import Cordon.Engine
/-!
How a hook comes to an engine. An engine is registered with the process, be it the decision engine or
one that the embedding program brings along; other images of the process reach whatever is registered
through exported functions.
-/
namespace Cordon

/-- An engine that can be registered. -/
inductive Backend where
  | engine (e : Engine)
  /-- An engine of the embedding program, under the number by which that program knows it. -/
  | embedded (id : Nat)

/-- An engine as a hook sees it. -/
inductive Bridge where
  | direct (b : Backend)
  /-- Whatever is registered, through the exported functions. -/
  | exported

/-- Where a hook takes its engine from. -/
inductive Resolver where
  /-- What is registered when the hook runs, else what the exported functions lead to. -/
  | dynamic
  | fixed (b : Bridge)

def Resolver.describe : Resolver → String
  | .dynamic => "Dynamic"
  | .fixed _ => "Fixed(..)"

/-- The store that a backend of this process keeps alive. -/
def Backend.store? : Backend → Option StoreId
  | .engine e => some e.store
  | .embedded _ => none

end Cordon
