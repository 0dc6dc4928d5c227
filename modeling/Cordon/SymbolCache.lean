/-!
A look-up by name whose success is kept for good and whose failure is kept for half a second, so that
what is loaded later is still found.
-/
namespace Cordon

structure SymbolCache (α : Type) where
  found : Option α := none
  /-- When the last look-up failed, in nanoseconds. -/
  lastMiss : Option Nat := none

namespace SymbolCache

/-- The least time in nanoseconds between a failed look-up and the next. -/
def retryInterval : Nat := 500 * 1000000

variable {α : Type}

/-- Whether a call at time `now` looks up. A time before the last failure counts as no time after
it. -/
def looksUp (c : SymbolCache α) (now : Nat) : Bool :=
  c.found.isNone &&
    match c.lastMiss with
    | some miss => retryInterval ≤ now - miss
    | none => true

/-- The cache after a call at time `now`, where a look-up would give `found`. -/
def call (c : SymbolCache α) (now : Nat) (found : Option α) : SymbolCache α :=
  if c.looksUp now then
    match found with
    | some x => { c with found := some x }
    | none => { c with lastMiss := some now }
  else c

end SymbolCache
end Cordon
