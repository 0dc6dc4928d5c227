import Cordon.Document
/-!
Settings sources laid over one another. Each source gives values at paths; tables are merged key by
key, and any other value replaces what was there. Keys are known by their lower-case form.
-/
namespace Cordon.Layer

open Text

/-- Lower case as far as it can make a name of ASCII letters: these, and the Kelvin sign. -/
def lowerName (s : String) : String :=
  .ofList (s.toList.map fun c => if c = '\u212A' then 'k' else c.toLower)

abbrev Entries := List (String × Document)

/-- Replaces the entry of a key, or adds one at the end. -/
def putEntry (key : String) (d : Document) : Entries → Entries
  | [] => [(key, d)]
  | entry :: rest => if entry.1 = key then (key, d) :: rest else entry :: putEntry key d rest

/-- The entries of a table; any other value gives way to an empty one. -/
def entriesOf : Document → Entries
  | .table entries => entries
  | _ => []

mutual

/-- Gives a value to a key of `target`. A table goes into the table that is there. -/
def setKey (key : String) : (value : Document) → (target : Document) → Document
  | .table incoming, target =>
    let entries := entriesOf target
    let inner := (entries.lookup (lowerName key)).getD (.table [])
    .table (putEntry (lowerName key) (setKeys incoming inner) entries)
  | value, target => .table (putEntry (lowerName key) value (entriesOf target))

def setKeys : (incoming : List (String × Document)) → (target : Document) → Document
  | [], target => target
  | (key, value) :: rest, target => setKeys rest (setKey key value target)

end

/-! ## Paths -/

inductive Step where
  | child (key : String)
  | index (i : Int)

/-- A key at the root and the steps from there. -/
structure Path where
  root : String
  steps : List Step

def isKeyChar (c : Char) : Bool := c.isAlphanum || c == ' ' || c == '_' || c == '-'

/-- A whole number in brackets, read behind the opening one. -/
def readIndex (cs : List Char) : Option (Int × List Char) := do
  let (negative, cs) := match cs with
    | '-' :: rest => (true, rest)
    | cs => (false, cs)
  let digits := cs.takeWhile isDigit
  guard (!digits.isEmpty)
  match cs.drop digits.length with
  | ']' :: rest =>
    let n : Nat := ofDigits digits
    return (if negative then -(n : Int) else n, rest)
  | _ => none

def readSteps : (fuel : Nat) → List Char → Option (List Step)
  | _, [] => some []
  | 0, _ => none
  | fuel + 1, '.' :: cs =>
    let key := cs.takeWhile isKeyChar
    if key.isEmpty then none
    else (readSteps fuel (cs.drop key.length)).map (.child (.ofList key) :: ·)
  | fuel + 1, '[' :: cs => do
    let (i, rest) ← readIndex cs
    let steps ← readSteps fuel rest
    return .index i :: steps
  | _ + 1, _ => none

/-- Reads a path; a text that is none is a single key. -/
def readPath (text : String) : Path :=
  let cs := text.toList
  let root := cs.takeWhile isKeyChar
  if root.isEmpty then ⟨text, []⟩
  else
    match readSteps (cs.length + 1) (cs.drop root.length) with
    | some steps => ⟨.ofList root, steps⟩
    | none => ⟨text, []⟩

/-- The elements of a list; any other value gives way to an empty one. -/
def elementsOf : Document → List Document
  | .list elements => elements
  | _ => []

/-- Changes the element at a position, counted from the end if it is negative; a list that is too short
is filled up. -/
def changeElement (i : Int) (change : Document → Document) (elements : List Document) :
    List Document :=
  let n := if 0 ≤ i then i.toNat else elements.length - i.natAbs
  let filled := elements ++ List.replicate (n + 1 - elements.length) .null
  filled.modify n change

/-- Changes what a path leads to, making tables and lists on the way. -/
def changeAt : List Step → (Document → Document) → Document → Document
  | [], change, d => change d
  | .child key :: steps, change, d =>
    let entries := entriesOf d
    .table (putEntry key (changeAt steps change ((entries.lookup key).getD .null)) entries)
  | .index i :: steps, change, d =>
    .list (changeElement i (changeAt steps change) (elementsOf d))

/-- Gives a value to a path. -/
def setPath (path : Path) (value : Document) (target : Document) : Document :=
  match path.steps.getLast? with
  | none => setKey path.root value target
  | some last =>
    changeAt (.child path.root :: path.steps.dropLast)
      (fun parent =>
        match last with
        | .child key => setKey key value parent
        | .index i => .list (changeElement i (fun _ => value) (elementsOf parent)))
      target

/-- Lays a source over what is there. -/
def overlay (source : Entries) (target : Document) : Document :=
  source.foldl (fun d entry => setPath (readPath entry.1) entry.2 d) target

end Cordon.Layer
