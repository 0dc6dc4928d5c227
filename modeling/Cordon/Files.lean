import Cordon.Text.Split
/-!
Files by their paths, as far as settings and the look-up of libraries need them.
-/
namespace Cordon

open Text

inductive FileEntry where
  | folder
  /-- A file with its text, unless its bytes are no text. -/
  | file (text : Option String)

/-- What there is at a path. -/
abbrev Files := String → Option FileEntry

namespace Files

def pathExists (files : Files) (path : String) : Bool := (files path).isSome

/-- The last part of a path. -/
def fileName (path : String) : List Char :=
  (splitAt '/' path.toList).getLastD []

/-- What follows the last dot of the last part, unless the part starts with that dot. -/
def extension? (path : String) : Option String :=
  match cutLast '.' (fileName path) with
  | some (stem, extension) => if stem.isEmpty then none else some (.ofList extension)
  | none => none

/-- A path up to the end of its last part that is a name; a path that ends in two dots has none. -/
def named? (path : String) : Option String :=
  let matters (part : List Char) : Bool := !part.isEmpty && part ≠ ['.']
  match (splitAt '/' path.toList).reverse.dropWhile (!matters ·) with
  | [] | ['.', '.'] :: _ => none
  | parts => some (.ofList (joinWith '/' parts.reverse))

/-! ## Files in a folder -/

/-- The parts of a path that matter: neither empty nor a single dot. -/
def parts (path : String) : List String :=
  ((splitAt '/' path.toList).map String.ofList).filter fun part => part ≠ "" && part ≠ "."

/-- Whether a path can only be a folder's. -/
def endsOpen (path : String) : Bool :=
  match (splitAt '/' path.toList).getLast? with
  | some last => last.isEmpty || last = ['.']
  | none => false

/-- Texts by the parts of their paths. -/
abbrev Folder := List (List String × String)

/-- Follows the parts of a path from the folder `base`; `isOpen` tells that the path ends like a
folder's. -/
def follow (folder : Folder) (isOpen : Bool) : List String → (base : List String) → Option FileEntry
  | [], _ => some .folder
  | ".." :: rest, base =>
    if base.isEmpty then if rest.isEmpty then some .folder else none
    else follow folder isOpen rest base.dropLast
  | part :: rest, base =>
    let here := base ++ [part]
    match folder.lookup here with
    | some text => if rest.isEmpty && !isOpen then some (.file (some text)) else none
    | none =>
      if folder.any fun entry => here.isPrefixOf entry.1 then follow folder isOpen rest here else none

/-- The files of a working folder that holds the given texts and nothing else. -/
def ofTexts (texts : List (String × String)) : Files := fun path =>
  let folder := texts.map fun entry => (parts entry.1, entry.2)
  if path = "" then none
  else if path.toList.head? = some '/' then if (parts path).isEmpty then some .folder else none
  else follow folder (endsOpen path) (parts path) []

end Files
end Cordon
