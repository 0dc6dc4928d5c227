/-!
Texts as bytes in UTF-8. Reading goes through the characters that the bytes hold and the sequences
that break off; a strict reader refuses the latter, a lossy one puts a replacement character in the
place of each.
-/
namespace Cordon.Text

def utf8 (s : String) : List UInt8 := s.toList.flatMap String.utf8EncodeChar

def replacement : Char := '\uFFFD'

namespace Utf8

/-- How many bytes follow a first byte, and the range of the next one. -/
def tailOf (b : UInt8) : Option (Nat × UInt8 × UInt8) :=
  if b < 0x80 then some (0, 0x80, 0xBF)
  else if b < 0xC2 then none
  else if b < 0xE0 then some (1, 0x80, 0xBF)
  else if b = 0xE0 then some (2, 0xA0, 0xBF)
  else if b = 0xED then some (2, 0x80, 0x9F)
  else if b < 0xF0 then some (2, 0x80, 0xBF)
  else if b = 0xF0 then some (3, 0x90, 0xBF)
  else if b < 0xF4 then some (3, 0x80, 0xBF)
  else if b = 0xF4 then some (3, 0x80, 0x8F)
  else none

/-- The bits of a first byte that belong to the code point. -/
def leadBits (b : UInt8) : Nat :=
  if b < 0x80 then b.toNat
  else if b < 0xE0 then b.toNat - 0xC0
  else if b < 0xF0 then b.toNat - 0xE0
  else b.toNat - 0xF0

/-- Takes the bytes that follow a first byte as far as they are there. -/
def takeTail : (count : Nat) → (lo hi : UInt8) → (point : Nat) → List UInt8 →
    Option Char × List UInt8
  | 0, _, _, point, bytes => (some (Char.ofNat point), bytes)
  | _ + 1, _, _, _, [] => (none, [])
  | count + 1, lo, hi, point, b :: bytes =>
    if lo ≤ b ∧ b ≤ hi then takeTail count 0x80 0xBF (point * 64 + (b.toNat - 0x80)) bytes
    else (none, b :: bytes)

theorem takeTail_length (count : Nat) (lo hi : UInt8) (point : Nat) (bytes : List UInt8) :
    (takeTail count lo hi point bytes).2.length ≤ bytes.length := by
  induction count generalizing lo hi point bytes with
  | zero => exact Nat.le_refl _
  | succ count ih =>
    cases bytes with
    | nil => exact Nat.le_refl _
    | cons b bytes =>
      rw [takeTail]
      split
      · exact Nat.le_succ_of_le (ih ..)
      · exact Nat.le_refl _

/-- The characters in order; `none` stands for a sequence that breaks off. -/
def scan : List UInt8 → List (Option Char)
  | [] => []
  | b :: bytes =>
    match tailOf b with
    | none => none :: scan bytes
    | some (count, lo, hi) =>
      let next := takeTail count lo hi (leadBits b) bytes
      next.1 :: scan next.2
termination_by bytes => bytes.length
decreasing_by
  · exact Nat.lt_succ_self _
  · exact Nat.lt_succ_of_le (takeTail_length ..)

end Utf8

/-- Reads a text; bytes that are not UTF-8 have none. -/
def ofUtf8? (bytes : List UInt8) : Option String :=
  ((Utf8.scan bytes).mapM id).map String.ofList

def ofUtf8Lossy (bytes : List UInt8) : String :=
  .ofList ((Utf8.scan bytes).map (·.getD replacement))

end Cordon.Text
