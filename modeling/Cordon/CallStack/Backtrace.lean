import Cordon.Text.Ascii
import Cordon.Text.Space
import Cordon.Text.Split
/-!
Symbols of a rendered backtrace, and the frames at its inner end that belong to the guard itself.
-/
namespace Cordon.Backtrace

open Text

/-- A line without the carriage return at its end. -/
def withoutReturn (line : List Char) : List Char :=
  if line.getLast? = some '\r' then line.dropLast else line

/-- The lines of a text; what follows the last line feed is a line unless it is empty. -/
def lines (text : List Char) : List (List Char) :=
  let pieces := splitAt '\n' text
  let last := pieces.getLastD []
  (pieces.dropLast.map withoutReturn) ++ if last.isEmpty then [] else [last]

/-- The symbol of a line `index: symbol`. -/
def symbolOf? (line : List Char) : Option String :=
  match cutAt [':', ' '] (dropSpaces line) with
  | some (index, symbol) =>
    if !index.isEmpty && index.all isDigit then some (.ofList (trimSpaces symbol)) else none
  | none => none

/-- The symbols in order; other lines, such as those that locate a frame, hold none. -/
def symbols (rendered : String) : List String := (lines rendered.toList).filterMap symbolOf?

def internalStarts : List String :=
  ["std::backtrace", "<std::backtrace", "airgap_engine::engine::", "airgap_engine::interception::",
    "airgap_engine::context::", "<airgap_engine::"]

def glueStarts : List String :=
  ["core::", "<core::", "std::", "<std::", "alloc::", "<alloc::", "once_cell::", "<once_cell::",
    "parking_lot::", "<parking_lot::"]

def startsWithAny (starts : List String) (symbol : String) : Bool :=
  starts.any fun start => start.toList.isPrefixOf symbol.toList

/-- Frames of the capture and of the guard. Tests live under the guard's own paths and are not its
frames. -/
def isInternal (symbol : String) : Bool :=
  !occursIn "::tests::".toList symbol.toList && startsWithAny internalStarts symbol

/-- Library frames that may stand between internal ones. -/
def isGlue (symbol : String) : Bool := startsWithAny glueStarts symbol

/-- How many frames at the inner end to leave out: up to the last internal one before the first frame
that is neither internal nor glue. -/
def innerLength : List String → Nat
  | [] => 0
  | symbol :: rest =>
    if isInternal symbol then innerLength rest + 1
    else if isGlue symbol then
      match innerLength rest with
      | 0 => 0
      | n + 1 => n + 2
    else 0

def stripInternal (symbols : List String) : List String := symbols.drop (innerLength symbols)

end Cordon.Backtrace
