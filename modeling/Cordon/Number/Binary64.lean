/-!
Binary floating-point numbers of 64 bits as exact values: a significand below 2^53 times a power of
two that is not below 2^(-1074). Every rounding goes to the nearest such value, and to the even
significand where two are equally near.
-/
namespace Cordon

inductive Binary64 where
  | nan
  | infinite (negative : Bool)
  /-- `significand * 2 ^ exponent`, where the significand is full unless the exponent is least. -/
  | finite (negative : Bool) (significand : Nat) (exponent : Int)
  deriving DecidableEq

namespace Binary64

def leastExponent : Int := -1074

/-- The least full significand. -/
def leastFull : Nat := 0x10000000000000

/-- The exponent of the largest numbers. -/
def greatestExponent : Int := 971

def zero (negative : Bool) : Binary64 := .finite negative 0 leastExponent

/-- Numerator and denominator of `n / d * 2 ^ (-e)`. -/
def scaled (n d : Nat) (e : Int) : Nat × Nat :=
  if 0 ≤ e then (n, d * Nat.pow 2 e.toNat) else (n * Nat.pow 2 (-e).toNat, d)

/-- The quotient rounded to the nearest whole number, a half to the even one. -/
def divideToEven (n d : Nat) : Nat :=
  let q := n / d
  let r := n % d
  if d < 2 * r ∨ (d = 2 * r ∧ q % 2 = 1) then q + 1 else q

/-- The exponent at which `n / d` has a full significand, or the least one. -/
def exponentFor (n d : Nat) : Int :=
  let e : Int := (Nat.log2 n : Int) - Nat.log2 d - 52
  let (a, b) := scaled n d e
  max leastExponent (if a / b < leastFull then e - 1 else e)

/-- The number nearest to `n / d`. -/
def ofRatio (negative : Bool) (n d : Nat) : Binary64 :=
  if n = 0 then zero negative
  else
    let e := exponentFor n d
    let (a, b) := scaled n d e
    let s := divideToEven a b
    let (s, e) := if s = 2 * leastFull then (leastFull, e + 1) else (s, e)
    if greatestExponent < e then .infinite negative else .finite negative s e

/-- How many decimal digits a number has. -/
def digitCount (n : Nat) : Nat := (Nat.toDigits 10 n).length

/-- The number nearest to `digits * 10 ^ exponent`. Far outside the range of the numbers the power is
not worked out. -/
def ofDecimal (negative : Bool) (digits : Nat) (exponent : Int) : Binary64 :=
  if digits = 0 then zero negative
  else
    let magnitude := exponent + digitCount digits
    if 400 < magnitude then .infinite negative
    else if magnitude < -400 then zero negative
    else if 0 ≤ exponent then ofRatio negative (digits * Nat.pow 10 exponent.toNat) 1
    else ofRatio negative digits (Nat.pow 10 (-exponent).toNat)

/-- The absolute value of a finite number as numerator and denominator. -/
def ratio (significand : Nat) (exponent : Int) : Nat × Nat := scaled significand 1 (-exponent)

def isZero : Binary64 → Bool
  | .finite _ 0 _ => true
  | _ => false

/-- The nearest whole number, a half away from zero, brought into the range from 0 to `limit`. What is
no number counts as 0. -/
def roundClamped (limit : Nat) : Binary64 → Nat
  | .nan => 0
  | .infinite negative => if negative then 0 else limit
  | .finite negative s e =>
    let (n, d) := ratio s e
    if negative then 0 else min limit ((2 * n + d) / (2 * d))

/-! ## Text -/

/-- The numbers that round to `significand * 2 ^ exponent`, as a closed or open interval between two
ratios over a common denominator. -/
structure Interval where
  low : Nat
  high : Nat
  denominator : Nat
  closed : Bool

/-- Half the way to either neighbour; below a power of two the lower neighbour is half as far. -/
def interval (s : Nat) (e : Int) : Interval :=
  let (n, d) := ratio s e
  let quarter := n / s
  let below := if s = leastFull ∧ leastExponent < e then quarter else 2 * quarter
  ⟨4 * n - below, 4 * n + 2 * quarter, 4 * d, s % 2 == 0⟩

def Interval.contains (i : Interval) (n d : Nat) : Bool :=
  if i.closed then i.low * d ≤ n * i.denominator && n * i.denominator ≤ i.high * d
  else i.low * d < n * i.denominator && n * i.denominator < i.high * d

/-- Decimal digits and the power of ten of the last of them. -/
structure Digits where
  digits : Nat
  exponent : Int

def Digits.ratio (x : Digits) : Nat × Nat :=
  if 0 ≤ x.exponent then (x.digits * Nat.pow 10 x.exponent.toNat, 1)
  else (x.digits, Nat.pow 10 (-x.exponent).toNat)

/-- The whole part of `n / d` in units of `10 ^ e`. -/
def unitsOf (n d : Nat) (e : Int) : Nat :=
  if 0 ≤ e then n / (d * Nat.pow 10 e.toNat) else n * Nat.pow 10 (-e).toNat / d

/-- The power of ten of the first digit of `n / d`. -/
def firstPower (n d : Nat) : Int :=
  let guess : Int := (digitCount n : Int) - digitCount d
  if unitsOf n d guess = 0 then guess - 1 else guess

/-- Of the two neighbours of `n / d` in units of `10 ^ e` those that the interval holds, the nearer
one first; of two equally near ones the greater. -/
def candidate (i : Interval) (n d : Nat) (e : Int) : Option Digits :=
  let down : Digits := ⟨unitsOf n d e, e⟩
  let up : Digits := ⟨unitsOf n d e + 1, e⟩
  let middle := Digits.ratio ⟨2 * down.digits + 1, e⟩
  let nearer := if n * 2 * middle.2 < middle.1 * d then [down, up] else [up, down]
  nearer.find? fun x => x.digits ≠ 0 && i.contains x.ratio.1 x.ratio.2

/-- The fewest digits that read back as the number, and of those the nearest to it; seventeen digits
are always enough. The search starts one power above the first digit, where a single 1 may do. -/
def shortest (s : Nat) (e : Int) : Digits :=
  let (n, d) := ratio s e
  let i := interval s e
  let first := firstPower n d
  ((List.range 18).findSome? fun k : Nat => candidate i n d (first + 1 - k)).getD ⟨unitsOf n d 0, 0⟩

/-- Digits with a point where it belongs and zeros up to it, never with an exponent. -/
def positional (x : Digits) : List Char :=
  let digits := Nat.toDigits 10 x.digits
  if 0 ≤ x.exponent then digits ++ List.replicate x.exponent.toNat '0'
  else
    let places := (-x.exponent).toNat
    let padded := List.replicate (places + 1 - digits.length) '0' ++ digits
    padded.take (padded.length - places) ++ '.' :: padded.drop (padded.length - places)

def sign (negative : Bool) : List Char := if negative then ['-'] else []

/-- The text of a number: the fewest digits that read back as it, without an exponent, and no point
in a whole number. -/
def text : Binary64 → String
  | .nan => "NaN"
  | .infinite negative => .ofList (sign negative ++ "inf".toList)
  | .finite negative 0 _ => .ofList (sign negative ++ ['0'])
  | .finite negative s e => .ofList (sign negative ++ positional (shortest s e))

end Binary64
end Cordon
