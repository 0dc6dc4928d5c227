import Cordon.CallStack
import Cordon.Thread
/-!
Exemptions of the harness's own traffic. The destinations of such traffic are not known in advance, so
that an exemption looks at who is calling, by the stack or by the thread, and never at the host.
-/
namespace Cordon

/-- The verdict of an exemption, and whether it looked at the frames of the stack. -/
structure Ruling where
  exempt : Bool
  looked : Bool
  deriving DecidableEq

/-- Judges an attempt by its thread and by the frames of its stack. -/
structure Exemption where
  judge : Thread → List String → Ruling

namespace Exemption

def none : Exemption := ⟨fun _ _ => ⟨false, false⟩⟩

/-- Exempts stacks in which a frame holds one of the markers. The empty marker would be in every
frame and is left out; without a marker no frame is looked at. -/
def markers (texts : List String) : Exemption where
  judge _ frames :=
    let marks := texts.filter (· ≠ "")
    ⟨marks.any (CallStack.ofFrames frames).contains, !marks.isEmpty⟩

/-- Exempts the threads of a classifier. -/
def threads (harness : Classifier) : Exemption := ⟨fun t _ => ⟨harness t, false⟩⟩

/-- Exempts by the frames alone. -/
def byFrames (test : List String → Bool) : Exemption := ⟨fun _ frames => ⟨test frames, true⟩⟩

/-- Asks one after the other until one exempts. -/
def any (exemptions : List Exemption) : Exemption where
  judge t frames :=
    exemptions.foldl
      (fun ruling e =>
        if ruling.exempt then ruling
        else
          let next := e.judge t frames
          ⟨next.exempt, ruling.looked || next.looked⟩)
      ⟨false, false⟩

end Exemption
end Cordon
