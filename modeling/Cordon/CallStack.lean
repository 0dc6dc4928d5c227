import Cordon.Text.Split
/-!
Call stacks of attempts. Capturing a stack costs far more than a decision, so that a stack may be left
uncaptured until something looks at its frames; `captured` says whether that has happened.
-/
namespace Cordon

open Text

structure CallStack where
  /-- The frames, innermost first: the captured ones, or those that a capture would give. -/
  frames : List String
  captured : Bool

namespace CallStack

def ofFrames (frames : List String) : CallStack := ⟨frames, true⟩

/-- A stack whose frames are captured once they are looked at. -/
def uncaptured (frames : List String) : CallStack := ⟨frames, false⟩

/-- The stack after its frames have been looked at, if `looked` says that they were. -/
def afterLook (looked : Bool) (s : CallStack) : CallStack := { s with captured := s.captured || looked }

/-- Whether a frame holds `marker`. -/
def contains (s : CallStack) (marker : String) : Bool :=
  s.frames.any fun frame => occursIn marker.toList frame.toList

/-- At most `depth` frames, one a line, and how many more there are. -/
def snippetLines (frames : List String) (depth : Nat) : List String :=
  (frames.take depth).map ("    at " ++ ·) ++
    if depth < frames.length then ["    ... " ++ toString (frames.length - depth) ++ " more"] else []

def snippet (s : CallStack) (depth : Nat) : String :=
  "\n".intercalate (snippetLines s.frames depth)

end CallStack
end Cordon
