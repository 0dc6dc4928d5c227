import Cordon.Document
/-!
Tables while they are being read. A table comes into being by a header of its own, on the way to
another table, or through a dotted key; a header opens no table twice, and a dotted key extends only
what dotted keys began. Values, inline tables among them, are closed once they are written.
-/
namespace Cordon.Toml

inductive Origin where
  /-- Named only on the way to another table; a header may still open it. -/
  | passing
  | header
  | dotted
  deriving DecidableEq

inductive Node where
  | value (d : Document)
  | table (origin : Origin) (entries : List (String × Node))
  /-- The tables of an array, the last of which is open. -/
  | tables (elements : List (List (String × Node)))

abbrev Entries := List (String × Node)

/-- Replaces the entry of a key, or adds one at the end. -/
def putEntry (key : String) (node : Node) : Entries → Entries
  | [] => [(key, node)]
  | entry :: rest => if entry.1 = key then (key, node) :: rest else entry :: putEntry key node rest

/-- Changes the table that a path leads to, with its origin, making tables on the way where there are
none. -/
def changeAt (dotted : Bool) : (path : List String) → (Origin → Entries → Option Entries) →
    Origin → Entries → Option Entries
  | [], change, origin, entries => change origin entries
  | key :: path, change, _, entries =>
    match entries.lookup key with
    | none => do
      let origin := if dotted then .dotted else .passing
      let inner ← changeAt dotted path change origin []
      return putEntry key (.table origin inner) entries
    | some (.value _) => none
    | some (.tables elements) => do
      let last ← elements.getLast?
      let inner ← changeAt dotted path change .header last
      return putEntry key (.tables (elements.dropLast ++ [inner])) entries
    | some (.table origin inner) =>
      if dotted && origin = .header then none
      else do
        let inner ← changeAt dotted path change origin inner
        return putEntry key (.table origin inner) entries

/-- Opens the table of a header. -/
def openTable (path : List String) (entries : Entries) : Option Entries := do
  let key ← path.getLast?
  changeAt false path.dropLast
    (fun _ parent =>
      match parent.lookup key with
      | none => some (putEntry key (.table .header []) parent)
      | some (.table .passing inner) => some (putEntry key (.table .header inner) parent)
      | some _ => none)
    .header entries

/-- Opens one more table of an array of tables. -/
def openElement (path : List String) (entries : Entries) : Option Entries := do
  let key ← path.getLast?
  changeAt false path.dropLast
    (fun _ parent =>
      match parent.lookup key with
      | none => some (putEntry key (.tables [[]]) parent)
      | some (.tables elements) => some (putEntry key (.tables (elements ++ [[]])) parent)
      | some _ => none)
    .header entries

/-- Gives a value to a key, which may be dotted, in the table that is open. -/
def assign (key : List String) (d : Document) (origin : Origin) (entries : Entries) :
    Option Entries := do
  let last ← key.getLast?
  let isDotted := 1 < key.length
  changeAt true key.dropLast
    (fun origin parent =>
      if isDotted != (origin == .dotted) then none
      else if (parent.lookup last).isSome then none
      else some (parent ++ [(last, .value d)]))
    origin entries

mutual

def Node.document : Node → Document
  | .value d => d
  | .table _ entries => .table (entriesDocument entries)
  | .tables elements => .list (elementsDocument elements)

def entriesDocument : List (String × Node) → List (String × Document)
  | [] => []
  | (key, node) :: rest => (key, node.document) :: entriesDocument rest

def elementsDocument : List (List (String × Node)) → List Document
  | [] => []
  | entries :: rest => .table (entriesDocument entries) :: elementsDocument rest

end

end Cordon.Toml
