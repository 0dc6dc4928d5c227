/-!
White space in texts of any script, and its removal from both ends.
-/
namespace Cordon.Text

/-- The Unicode property White_Space. -/
def isSpace (c : Char) : Bool :=
  let n := c.toNat
  (9 ≤ n && n ≤ 13) || n == 0x20 || n == 0x85 || n == 0xA0 || n == 0x1680 ||
    (0x2000 ≤ n && n ≤ 0x200A) || n == 0x2028 || n == 0x2029 || n == 0x202F || n == 0x205F ||
    n == 0x3000

def dropSpaces (cs : List Char) : List Char := cs.dropWhile isSpace

/-- `cs` without the white space at either end. -/
def trimSpaces (cs : List Char) : List Char :=
  (dropSpaces (dropSpaces cs).reverse).reverse

def trim (s : String) : String := .ofList (trimSpaces s.toList)

theorem dropSpaces_eq_self {cs : List Char} (h : ∀ c ∈ cs, isSpace c = false) :
    dropSpaces cs = cs := by
  cases cs with
  | nil => rfl
  | cons c cs => simp [dropSpaces, h c (by simp)]

theorem trimSpaces_eq_self {cs : List Char} (h : ∀ c ∈ cs, isSpace c = false) :
    trimSpaces cs = cs := by
  have hr : ∀ c ∈ cs.reverse, isSpace c = false := fun c hc => h c (by simpa using hc)
  rw [trimSpaces, dropSpaces_eq_self h, dropSpaces_eq_self hr, List.reverse_reverse]

end Cordon.Text
