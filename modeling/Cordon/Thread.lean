import Cordon.Text.Quoted
/-!
Threads, and which of them belong to the harness rather than to a test. Telling them apart is a
matter of judgement, so that a classifier is supplied from outside; names that start with agreed
words are the usual one.
-/
namespace Cordon

open Text

abbrev ThreadId := Nat

structure Thread where
  id : ThreadId
  name : Option String := none
  deriving DecidableEq

/-- Whether a thread belongs to the harness. -/
abbrev Classifier := Thread → Bool

namespace Classifier

def noHarness : Classifier := fun _ => false

/-- Threads whose name starts with one of the words; a thread without a name is no harness thread,
since code under test starts such threads. The empty word starts every name and is left out. -/
def names (starts : List String) : Classifier := fun t =>
  match t.name with
  | some name => (starts.filter (· ≠ "")).any fun start => start.toList.isPrefixOf name.toList
  | none => false

/-- The words as they take effect. -/
def describeNames (starts : List String) : String := quoteList (starts.filter (· ≠ ""))

theorem names_iff {starts : List String} {t : Thread} :
    names starts t = true ↔
      ∃ name ∈ t.name, ∃ start ∈ starts, start ≠ "" ∧ start.toList <+: name.toList := by
  cases h : t.name with
  | none => simp [names, h]
  | some name =>
    simp only [names, h, List.any_eq_true, List.mem_filter, decide_eq_true_eq,
      List.isPrefixOf_iff_prefix, Option.mem_some, exists_eq_left']
    exact exists_congr fun start => and_assoc

end Classifier
end Cordon
