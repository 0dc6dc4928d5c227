import Cordon.Toml.Scalar
import Cordon.Toml.Table
/-!
Documents in TOML. A document is a sequence of lines, each of which opens a table, opens one more table
of an array, gives a value to a key, or does nothing.
-/
namespace Cordon.Toml

open Text

/-! ## Blanks and lines -/

def isBlank (c : Char) : Bool := c == ' ' || c == '\t'

def skipBlanks (cs : List Char) : List Char := cs.dropWhile isBlank

/-- Whether a character may stand in a comment or a text as it is. -/
def isPlain (c : Char) : Bool := c == '\t' || (0x20 ≤ c.toNat && c.toNat ≠ 0x7F)

/-- Takes a line feed, with a carriage return before it or without. -/
def newline? : List Char → Option (List Char)
  | '\n' :: rest => some rest
  | '\r' :: '\n' :: rest => some rest
  | _ => none

/-- Skips blanks and a comment. -/
def skipComment (cs : List Char) : List Char :=
  match skipBlanks cs with
  | '#' :: rest => rest.dropWhile isPlain
  | rest => rest

/-- Ends a line. -/
def endOfLine? (cs : List Char) : Option (List Char) :=
  match skipComment cs with
  | [] => some []
  | rest => newline? rest

/-- Skips blanks, comments and line ends. -/
def skipLines : (fuel : Nat) → List Char → List Char
  | 0, cs => cs
  | fuel + 1, cs =>
    let rest := skipComment cs
    match newline? rest with
    | some rest => skipLines fuel rest
    | none => rest

/-! ## Texts -/

/-- The character of an escape behind its backslash, and what follows. -/
def escape? : List Char → Option (Char × List Char)
  | 'b' :: rest => some ('\x08', rest)
  | 't' :: rest => some ('\t', rest)
  | 'n' :: rest => some ('\n', rest)
  | 'f' :: rest => some ('\x0c', rest)
  | 'r' :: rest => some ('\r', rest)
  | '"' :: rest => some ('"', rest)
  | '\\' :: rest => some ('\\', rest)
  | 'u' :: rest => point? 4 rest
  | 'U' :: rest => point? 8 rest
  | _ => none
where
  /-- A character by the hexadecimal digits of its number. -/
  point? (count : Nat) (cs : List Char) : Option (Char × List Char) := do
    let digits := cs.take count
    guard (digits.length = count)
    let n ← ofHexDigits? digits
    if n.isValidChar then return (Char.ofNat n, cs.drop count) else none

/-- Reads a text on one line, up to and with its closing quote. -/
def readBasic : (fuel : Nat) → List Char → Option (List Char × List Char)
  | 0, _ => none
  | _ + 1, '"' :: rest => some ([], rest)
  | fuel + 1, '\\' :: rest => do
    let (c, rest) ← escape? rest
    let (text, rest) ← readBasic fuel rest
    return (c :: text, rest)
  | fuel + 1, c :: rest =>
    if isPlain c then (readBasic fuel rest).map fun (text, rest) => (c :: text, rest) else none
  | _ + 1, [] => none

/-- Reads a text without escapes on one line, up to and with its closing quote. -/
def readLiteral (cs : List Char) : Option (List Char × List Char) :=
  let text := cs.takeWhile fun c => isPlain c && c ≠ '\x27'
  match cs.drop text.length with
  | '\x27' :: rest => some (text, rest)
  | _ => none

/-- Takes three quotes that end a text, and up to two quotes before them that belong to it. -/
def closing? (quote : Char) (cs : List Char) : Option (List Char × List Char) :=
  let quotes := min 5 (cs.takeWhile (· = quote)).length
  if 3 ≤ quotes then some (List.replicate (quotes - 3) quote, cs.drop quotes) else none

/-- What is left behind a backslash at the end of a line: all white space up to the next text. -/
def continued? (cs : List Char) : Option (List Char) :=
  match newline? (skipBlanks cs) with
  | some rest => some (rest.dropWhile fun c => isBlank c || c == '\n' || c == '\r')
  | none => none

/-- Reads a text of several lines, up to and with its closing quotes. Line ends become line feeds. -/
def readLong (quote : Char) (escapes : Bool) : (fuel : Nat) → List Char →
    Option (List Char × List Char)
  | 0, _ => none
  | fuel + 1, cs =>
    match closing? quote cs with
    | some closed => some closed
    | none =>
      match newline? cs with
      | some rest => (readLong quote escapes fuel rest).map fun (text, rest) => ('\n' :: text, rest)
      | none =>
        match cs with
        | [] => none
        | c :: rest =>
          if escapes && c = '\\' then
            match continued? rest with
            | some rest => readLong quote escapes fuel rest
            | none => do
              let (c, rest) ← escape? rest
              let (text, rest) ← readLong quote escapes fuel rest
              return (c :: text, rest)
          else if isPlain c then
            (readLong quote escapes fuel rest).map fun (text, rest) => (c :: text, rest)
          else none

/-- A line end right behind the opening quotes is no part of the text. -/
def dropFirstNewline (cs : List Char) : List Char := (newline? cs).getD cs

/-- Reads a text of any of the four kinds. -/
def readText (cs : List Char) : Option (List Char × List Char) :=
  let fuel := cs.length + 1
  match cs with
  | '"' :: '"' :: '"' :: rest => readLong '"' true fuel (dropFirstNewline rest)
  | '\x27' :: '\x27' :: '\x27' :: rest => readLong '\x27' false fuel (dropFirstNewline rest)
  | '"' :: rest => readBasic fuel rest
  | '\x27' :: rest => readLiteral rest
  | _ => none

/-! ## Keys -/

def isBare (c : Char) : Bool := c.isAlphanum || c == '_' || c == '-'

def readSimpleKey (cs : List Char) : Option (String × List Char) :=
  let bare := cs.takeWhile isBare
  if !bare.isEmpty then some (.ofList bare, cs.drop bare.length)
  else
    match cs with
    | '"' :: rest => (readBasic (cs.length + 1) rest).map fun (text, rest) => (.ofList text, rest)
    | '\x27' :: rest => (readLiteral rest).map fun (text, rest) => (.ofList text, rest)
    | _ => none

/-- How deep tables and arrays may be nested, and how many parts a key may have. -/
def depthLimit : Nat := 80

def readKeyParts : (fuel : Nat) → List Char → Option (List String × List Char)
  | 0, _ => none
  | fuel + 1, cs => do
    let (key, rest) ← readSimpleKey (skipBlanks cs)
    match skipBlanks rest with
    | '.' :: rest =>
      let (keys, rest) ← readKeyParts fuel rest
      return (key :: keys, rest)
    | rest => return ([key], rest)

/-- Reads a key with the blanks around it. -/
def readKey (cs : List Char) : Option (List String × List Char) := do
  let (keys, rest) ← readKeyParts (cs.length + 1) cs
  guard (keys.length < depthLimit)
  return (keys, rest)

/-! ## Values -/

/-- Whether a character may stand in a number, a date or a word. -/
def isScalarChar (c : Char) : Bool :=
  c.isAlphanum || c == '_' || c == '+' || c == '-' || c == '.' || c == ':'

/-- Takes the run of characters that one scalar is written in; between a date and a time there may be
a space. -/
def takeScalar (cs : List Char) : List Char × List Char :=
  let first := cs.takeWhile isScalarChar
  match cs.drop first.length with
  | ' ' :: c :: rest =>
    if (date? first).isSome && isDigit c then
      let second := (c :: rest).takeWhile isScalarChar
      (first ++ ' ' :: second, (c :: rest).drop second.length)
    else (first, ' ' :: c :: rest)
  | rest => (first, rest)

mutual

/-- Reads a value inside `depth` arrays and inline tables. -/
def readValue : (fuel depth : Nat) → List Char → Option (Document × List Char)
  | 0, _, _ => none
  | fuel + 1, depth, cs =>
    match cs with
    | '"' :: _ | '\x27' :: _ => (readText cs).map fun (text, rest) => (.text (.ofList text), rest)
    | '[' :: rest =>
      if depth + 1 < depthLimit then
        (readElements fuel (depth + 1) rest).map fun (elements, rest) => (.list elements, rest)
      else none
    | '\x7b' :: rest =>
      if depth + 1 < depthLimit then
        match skipBlanks rest with
        | '\x7d' :: rest => some (.table [], rest)
        | _ => (readInline fuel (depth + 1) [] rest).map fun (entries, rest) =>
          (.table (entriesDocument entries), rest)
      else none
    | _ =>
      let (run, rest) := takeScalar cs
      (scalar? run).map fun d => (d, rest)

/-- Reads the elements of an array up to and with its closing bracket; a comma may end them. -/
def readElements : (fuel depth : Nat) → List Char → Option (List Document × List Char)
  | 0, _, _ => none
  | fuel + 1, depth, cs =>
    match skipLines (cs.length + 1) cs with
    | ']' :: rest => some ([], rest)
    | cs => do
      let (element, rest) ← readValue fuel depth cs
      match skipLines (rest.length + 1) rest with
      | ',' :: rest =>
        let (elements, rest) ← readElements fuel depth rest
        return (element :: elements, rest)
      | ']' :: rest => return ([element], rest)
      | _ => none

/-- Reads the entries of an inline table, which stays on its line, up to and with its closing
brace. -/
def readInline : (fuel depth : Nat) → Entries → List Char → Option (Entries × List Char)
  | 0, _, _, _ => none
  | fuel + 1, depth, entries, cs => do
    let (key, rest) ← readKey cs
    match rest with
    | '=' :: rest =>
      let (value, rest) ← readValue fuel depth (skipBlanks rest)
      let entries ← assign key value .header entries
      match skipBlanks rest with
      | ',' :: rest => readInline fuel depth entries rest
      | '\x7d' :: rest => return (entries, rest)
      | _ => none
    | _ => none

end

/-! ## Documents -/

/-- What is read so far: the tables, and the path of the one that is open. -/
structure Reading where
  entries : Entries := []
  current : List String := []

/-- Reads the header of a table or of an element of an array of tables, behind its brackets. -/
def readHeader (cs : List Char) : Option (List String × List Char) := do
  match ← readKey cs with
  | (path, ']' :: rest) => return (path, rest)
  | _ => none

def readAssignment (cs : List Char) (x : Reading) : Option (Reading × List Char) := do
  match ← readKey cs with
  | (key, '=' :: rest) =>
    let cs := skipBlanks rest
    let (value, rest) ← readValue (2 * cs.length + 2) 0 cs
    let entries ← changeAt false x.current (assign key value) .header x.entries
    return ({ x with entries }, rest)
  | _ => none

/-- Reads one line that is not empty, up to its end. -/
def readLine (cs : List Char) (x : Reading) : Option (Reading × List Char) :=
  match cs with
  | '[' :: '[' :: rest => do
    match ← readHeader rest with
    | (path, ']' :: rest) => return (⟨← openElement path x.entries, path⟩, rest)
    | _ => none
  | '[' :: rest => do
    let (path, rest) ← readHeader rest
    return (⟨← openTable path x.entries, path⟩, rest)
  | _ => readAssignment cs x

def readLines : (fuel : Nat) → List Char → Reading → Option Reading
  | 0, _, _ => none
  | fuel + 1, cs, x =>
    match skipLines (cs.length + 1) cs with
    | [] => some x
    | cs => do
      let (x, rest) ← readLine cs x
      let rest ← endOfLine? rest
      readLines fuel rest x

/-- Reads a document; it is a table. -/
def read (text : String) : Option (List (String × Document)) :=
  let cs := text.toList
  (readLines (cs.length + 1) cs {}).map fun x => entriesDocument x.entries

end Cordon.Toml
