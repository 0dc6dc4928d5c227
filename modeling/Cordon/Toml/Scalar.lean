import Cordon.Document
/-!
Numbers and dates in TOML.
-/
namespace Cordon.Toml

open Text

/-- Digits of one kind with single underscores between them, taken without the underscores. -/
def spaced? (isDigit : Char → Bool) : List Char → Option (List Char)
  | [] => none
  | [c] => if isDigit c then some [c] else none
  | c :: '_' :: rest => if isDigit c then (spaced? isDigit rest).map (c :: ·) else none
  | c :: rest => if isDigit c then (spaced? isDigit rest).map (c :: ·) else none

/-- Splits off a sign; the flag tells a minus. -/
def signed : List Char → Bool × List Char
  | '-' :: rest => (true, rest)
  | '+' :: rest => (false, rest)
  | cs => (false, cs)

/-- A decimal whole number without a zero before other digits. -/
def wholeDigits? (cs : List Char) : Option (List Char) :=
  match spaced? isDigit cs with
  | some ('0' :: _ :: _) => none
  | digits => digits

/-- Digits in another base. -/
def based? (base : Nat) (cs : List Char) : Option Int := do
  let digits ← spaced? (fun c => (hexValue? c).any (· < base)) cs
  Document.wholeInRange? (digits.foldl (fun n c => n * base + (hexValue? c).getD 0) 0 : Nat)

def whole? (cs : List Char) : Option Int :=
  match cs with
  | '0' :: 'x' :: digits => based? 16 digits
  | '0' :: 'o' :: digits => based? 8 digits
  | '0' :: 'b' :: digits => based? 2 digits
  | cs => do
    let (negative, cs) := signed cs
    let n := ofDigits (← wholeDigits? cs)
    Document.wholeInRange? (if negative then -(n : Int) else n)

/-- The exponent behind its letter. -/
def exponent? (cs : List Char) : Option Int := do
  let (negative, cs) := signed cs
  let n := ofDigits (← spaced? isDigit cs)
  return if negative then -(n : Int) else n

def isExponentMark (c : Char) : Bool := c == 'e' || c == 'E'

/-- A number with a fraction, an exponent or both; what is too large for the largest number is
none. -/
def decimal? (cs : List Char) : Option Binary64 := do
  let (negative, cs) := signed cs
  if cs = ['i', 'n', 'f'] then return .infinite negative
  if cs = ['n', 'a', 'n'] then return .nan
  let mantissa := cs.takeWhile (!isExponentMark ·)
  let mark := cs.dropWhile (!isExponentMark ·)
  let exponent ← if mark.isEmpty then some 0 else exponent? mark.tail
  let whole := mantissa.takeWhile (· ≠ '.')
  let point := mantissa.dropWhile (· ≠ '.')
  guard (!(mark.isEmpty && point.isEmpty))
  let wholeDigits ← wholeDigits? whole
  let fraction ← if point.isEmpty then some [] else spaced? isDigit point.tail
  let x := Binary64.ofDecimal negative (ofDigits (wholeDigits ++ fraction))
    (exponent - fraction.length)
  guard (x ≠ .infinite false)
  return x

/-! ## Dates and times -/

/-- A number of exactly `count` digits. -/
def fixed? (count : Nat) (cs : List Char) : Option Nat :=
  if cs.length = count && cs.all isDigit then some (ofDigits cs) else none

def isLeapYear (y : Nat) : Bool := y % 4 == 0 && (y % 100 != 0 || y % 400 == 0)

def daysIn (year month : Nat) : Nat :=
  if month = 2 then if isLeapYear year then 29 else 28
  else if [4, 6, 9, 11].contains month then 30
  else 31

/-- `n` in at least `width` digits. -/
def padded (width n : Nat) : List Char :=
  let digits := Nat.toDigits 10 n
  List.replicate (width - digits.length) '0' ++ digits

/-- A date as it is written, if there is such a day. -/
def date? (cs : List Char) : Option (List Char) := do
  match cs with
  | [y1, y2, y3, y4, '-', m1, m2, '-', d1, d2] =>
    let year ← fixed? 4 [y1, y2, y3, y4]
    let month ← fixed? 2 [m1, m2]
    let day ← fixed? 2 [d1, d2]
    guard (1 ≤ month && month ≤ 12 && 1 ≤ day && day ≤ daysIn year month)
    return cs
  | _ => none

/-- The fraction of a second in at most nine digits, without zeros at its end. -/
def fraction? (cs : List Char) : Option (List Char) :=
  match cs with
  | [] => some []
  | '.' :: digits =>
    if digits.isEmpty || !digits.all isDigit then none
    else
      let kept := ((digits.take 9).reverse.dropWhile (· = '0')).reverse
      some (if kept.isEmpty then [] else '.' :: kept)
  | _ => none

def time? (cs : List Char) : Option (List Char) := do
  match cs with
  | h1 :: h2 :: ':' :: m1 :: m2 :: ':' :: s1 :: s2 :: rest =>
    let hour ← fixed? 2 [h1, h2]
    let minute ← fixed? 2 [m1, m2]
    let second ← fixed? 2 [s1, s2]
    guard (hour ≤ 23 && minute ≤ 59 && second ≤ 60)
    let fraction ← fraction? rest
    return cs.take 8 ++ fraction
  | _ => none

/-- The offset of a time; none of minus zero. -/
def offset? (cs : List Char) : Option (List Char) := do
  match cs with
  | ['Z'] | ['z'] => return ['Z']
  | [sign, h1, h2, ':', m1, m2] =>
    guard (sign = '+' || sign = '-')
    let hour ← fixed? 2 [h1, h2]
    let minute ← fixed? 2 [m1, m2]
    guard (hour ≤ 23 && minute ≤ 59)
    let sign := if hour = 0 && minute = 0 then '+' else sign
    return sign :: padded 2 hour ++ ':' :: padded 2 minute
  | _ => none

def isOffsetMark (c : Char) : Bool := c == 'Z' || c == 'z' || c == '+' || c == '-'

def timeWithOffset? (cs : List Char) : Option (List Char) := do
  let time ← time? (cs.takeWhile (!isOffsetMark ·))
  let mark := cs.dropWhile (!isOffsetMark ·)
  let offset ← if mark.isEmpty then some [] else offset? mark
  return time ++ offset

/-- A date, a time, or both with an offset if there is one, in the one form in which they are
written out. -/
def dateTime? (cs : List Char) : Option (List Char) :=
  match time? cs with
  | some time => some time
  | none =>
    match cs.drop 10 with
    | [] => date? cs
    | mark :: time => do
      guard (mark = 'T' || mark = 't' || mark = ' ')
      let date ← date? (cs.take 10)
      let time ← timeWithOffset? time
      return date ++ 'T' :: time

/-- A value that is written in one run of characters. -/
def scalar? (cs : List Char) : Option Document :=
  if cs = "true".toList then some (.bool true)
  else if cs = "false".toList then some (.bool false)
  else match whole? cs with
    | some n => some (.whole n)
    | none =>
      match decimal? cs with
      | some x => some (.decimal x)
      | none => (dateTime? cs).map fun text => .text (.ofList text)

end Cordon.Toml
