import Cordon.Text.Ascii
import Cordon.Text.Split
/-!
Addresses of the internet protocol in both versions, their canonical form and their text. An IPv4
address may also be spelled as an IPv6 address, which is the same address to every hook.
-/
namespace Cordon

open Text

inductive Address where
  | v4 (bits : BitVec 32)
  | v6 (bits : BitVec 128)
  deriving DecidableEq, Hashable

namespace Address

/-- The 96 bits that make an IPv6 address spell an IPv4 one. -/
def mappedMark : BitVec 96 := 0xFFFF#96

/-- An IPv4 address spelled in IPv6. -/
def mapped (bits : BitVec 32) : Address := .v6 (mappedMark ++ bits)

/-- The IPv4 address that an IPv6 address spells. -/
def unmapped? (bits : BitVec 128) : Option (BitVec 32) :=
  if bits.extractLsb' 32 96 = mappedMark then some (bits.extractLsb' 0 32) else none

/-- The one spelling by which an address is known. -/
def canonical : Address → Address
  | .v4 bits => .v4 bits
  | .v6 bits =>
    match unmapped? bits with
    | some short => .v4 short
    | none => .v6 bits

theorem unmapped?_mapped (bits : BitVec 32) : unmapped? (mappedMark ++ bits) = some bits := by
  have high : (mappedMark ++ bits).extractLsb' 32 96 = mappedMark :=
    BitVec.extractLsb'_append_eq_left
  have low : (mappedMark ++ bits).extractLsb' 0 32 = bits := BitVec.extractLsb'_append_eq_right
  rw [unmapped?, high, low, if_pos rfl]

@[simp] theorem canonical_v4 (bits : BitVec 32) : canonical (.v4 bits) = .v4 bits := rfl

@[simp] theorem canonical_mapped (bits : BitVec 32) : canonical (mapped bits) = .v4 bits := by
  simp [mapped, canonical, unmapped?_mapped]

@[simp] theorem canonical_canonical (a : Address) : a.canonical.canonical = a.canonical := by
  cases a with
  | v4 bits => rfl
  | v6 bits =>
    cases h : unmapped? bits with
    | some short => simp [canonical, h]
    | none => simp [canonical, h]

/-- The eight groups of sixteen bits, most significant first. -/
def groups (bits : BitVec 128) : List Nat :=
  [7, 6, 5, 4, 3, 2, 1, 0].map fun i => (bits.extractLsb' (16 * i) 16).toNat

/-- The four octets, most significant first. -/
def octets (bits : BitVec 32) : List Nat :=
  [3, 2, 1, 0].map fun i => (bits.extractLsb' (8 * i) 8).toNat

/-- The number that digits in the given base write, most significant first. -/
def ofParts (base : Nat) (parts : List Nat) : Nat := parts.foldl (fun n p => n * base + p) 0

/-! ## Text -/

def v4Text (bits : BitVec 32) : String := ".".intercalate ((octets bits).map toString)

/-- The length of the run of zeros at the head of a list. -/
def zerosAhead : List Nat → Nat
  | 0 :: gs => zerosAhead gs + 1
  | _ => 0

/-- Start and length of the first of the longest runs of zeros. -/
def longestZeros (gs : List Nat) : Nat × Nat :=
  (List.range gs.length).foldl
    (fun best i =>
      let n := zerosAhead (gs.drop i)
      if best.2 < n then (i, n) else best)
    (0, 0)

def groupsText (gs : List Nat) : String :=
  ":".intercalate (gs.map fun g => .ofList (Nat.toDigits 16 g))

/-- Two or more zero groups in a row are left out once, where the run is longest; the end of an
address that spells an IPv4 one is written with dots. -/
def v6Text (bits : BitVec 128) : String :=
  match unmapped? bits with
  | some short => "::ffff:" ++ v4Text short
  | none =>
    let gs := groups bits
    let run := longestZeros gs
    if run.2 > 1 then groupsText (gs.take run.1) ++ "::" ++ groupsText (gs.drop (run.1 + run.2))
    else groupsText gs

def text : Address → String
  | .v4 bits => v4Text bits
  | .v6 bits => v6Text bits

/-! ## Reading -/

/-- A number from 0 to 255 in decimal, without a leading zero. -/
def readOctet (cs : List Char) : Option Nat :=
  if cs.isEmpty || 3 < cs.length || !cs.all isDigit then none
  else if 1 < cs.length && cs.head? == some '0' then none
  else
    let n := ofDigits cs
    if n < 256 then some n else none

def readOctets (cs : List Char) : Option (List Nat) :=
  let parts := splitAt '.' cs
  if parts.length = 4 then parts.mapM readOctet else none

def readV4 (cs : List Char) : Option (BitVec 32) :=
  (readOctets cs).map fun os => BitVec.ofNat 32 (ofParts 256 os)

/-- One to four hexadecimal digits. -/
def readGroup (cs : List Char) : Option Nat :=
  if cs.isEmpty || 4 < cs.length then none else ofHexDigits? cs

/-- Groups separated by colons; where `dotted` allows it the last may be an IPv4 address, which
counts for two. -/
def readGroups (dotted : Bool) : List (List Char) → Option (List Nat)
  | [] => some []
  | [last] =>
    match readGroup last, dotted, readOctets last with
    | some g, _, _ => some [g]
    | none, true, some os => some [ofParts 256 (os.take 2), ofParts 256 (os.drop 2)]
    | none, _, _ => none
  | part :: parts => do
    let g ← readGroup part
    let gs ← readGroups dotted parts
    return g :: gs

/-- The groups on one side of a double colon, where there may be none. -/
def readSide (dotted : Bool) (cs : List Char) : Option (List Nat) :=
  if cs.isEmpty then some [] else readGroups dotted (splitAt ':' cs)

def readV6 (cs : List Char) : Option (BitVec 128) := do
  let gs ← match cutAt [':', ':'] cs with
    | none => do
      let gs ← readGroups true (splitAt ':' cs)
      guard (gs.length = 8)
      pure gs
    | some (left, right) => do
      let ls ← readSide false left
      let rs ← readSide true right
      guard (ls.length + rs.length ≤ 7)
      pure (ls ++ List.replicate (8 - ls.length - rs.length) 0 ++ rs)
  return BitVec.ofNat 128 (ofParts 65536 gs)

def readChars (cs : List Char) : Option Address :=
  match readV4 cs with
  | some bits => some (.v4 bits)
  | none => (readV6 cs).map .v6

/-- Reads an address in either version; nothing may surround it. -/
def read (s : String) : Option Address := readChars s.toList

end Address

/-- An address and a port on it. -/
structure Endpoint where
  address : Address
  port : UInt16
  deriving DecidableEq

namespace Endpoint

def text (e : Endpoint) : String :=
  match e.address with
  | .v4 bits => Address.v4Text bits ++ ":" ++ toString e.port.toNat
  | .v6 bits => "[" ++ Address.v6Text bits ++ "]:" ++ toString e.port.toNat

/-- A decimal number below `bound`; leading zeros are no harm. -/
def readBelow (bound : Nat) (cs : List Char) : Option Nat :=
  if cs.isEmpty || !cs.all isDigit then none
  else
    let n := ofDigits cs
    if n < bound then some n else none

def readPort (cs : List Char) : Option UInt16 := (readBelow 65536 cs).map UInt16.ofNat

/-- Inside brackets an address may name its scope by a number, which is dropped. -/
def readScoped (cs : List Char) : Option (BitVec 128) :=
  match cutAt ['%'] cs with
  | none => Address.readV6 cs
  | some (address, scope) => do
    let _ ← readBelow UInt32.size scope
    Address.readV6 address

/-- Reads `a.b.c.d:port` and `[v6]:port`. -/
def readChars (cs : List Char) : Option Endpoint := do
  let (host, port) ← cutLast ':' cs
  let port ← readPort port
  match host with
  | '[' :: inner =>
    guard (inner.getLast? = some ']')
    let bits ← readScoped inner.dropLast
    return ⟨.v6 bits, port⟩
  | _ =>
    let bits ← Address.readV4 host
    return ⟨.v4 bits, port⟩

def read (s : String) : Option Endpoint := readChars s.toList

end Endpoint
end Cordon
