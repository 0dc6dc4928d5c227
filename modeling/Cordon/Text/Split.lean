/-!
Sequences cut at separators and at the first occurrence of a word.
-/
namespace Cordon.Text

variable {α : Type} [BEq α]

/-- Splits at every `sep`; there is always one piece more than separators. -/
def splitAt (sep : α) : List α → List (List α)
  | [] => [[]]
  | c :: cs =>
    if c == sep then [] :: splitAt sep cs
    else match splitAt sep cs with
      | [] => [[c]]
      | piece :: pieces => (c :: piece) :: pieces

/-- Cuts at the first occurrence of `word`, which is in neither part. -/
def cutAt (word : List α) : List α → Option (List α × List α)
  | [] => if word.isEmpty then some ([], []) else none
  | c :: cs =>
    if word.isPrefixOf (c :: cs) then some ([], (c :: cs).drop word.length)
    else (cutAt word cs).map fun parts => (c :: parts.1, parts.2)

/-- Whether `word` occurs in `text`; the empty word occurs in every text. -/
def occursIn (word text : List α) : Bool := (cutAt word text).isSome

/-- Cuts at the last `sep`. -/
def cutLast (sep : α) (cs : List α) : Option (List α × List α) :=
  (cutAt [sep] cs.reverse).map fun parts => (parts.2.reverse, parts.1.reverse)

/-- Pieces joined with `sep` between them. -/
def joinWith (sep : α) : List (List α) → List α
  | [] => []
  | [piece] => piece
  | piece :: pieces => piece ++ sep :: joinWith sep pieces

@[simp] theorem splitAt_ne_nil (sep : α) (cs : List α) : splitAt sep cs ≠ [] := by
  cases cs with
  | nil => simp [splitAt]
  | cons c cs =>
    rw [splitAt]
    split
    · simp
    · split <;> simp

/-- Splitting loses nothing. -/
theorem joinWith_splitAt [LawfulBEq α] (sep : α) (cs : List α) :
    joinWith sep (splitAt sep cs) = cs := by
  induction cs with
  | nil => rfl
  | cons c cs ih =>
    rw [splitAt]
    split
    · next h =>
      cases hs : splitAt sep cs with
      | nil => exact absurd hs (splitAt_ne_nil sep cs)
      | cons piece pieces => rw [hs] at ih; simp [joinWith, ih, eq_of_beq h]
    · split
      · next hs => exact absurd hs (splitAt_ne_nil sep cs)
      · next piece pieces hs =>
        rw [hs] at ih
        cases pieces with
        | nil => simpa [joinWith] using ih
        | cons => simpa [joinWith] using ih

end Cordon.Text
