import Cordon.CallStack.Backtrace
import Cordon.Proofs.Text.Space
import Cordon.Proofs.Text.Split
/-!
Symbols read back from the lines that render a backtrace. A carriage return at the end of a line is
white space, which no symbol keeps at its end, so that the symbols of a text are those of what stands
between its line feeds. A symbol is all that follows the number of its frame, whatever it looks like;
a line that says where a frame is begins with a letter, so that no number stands in front.
-/
namespace Cordon.Backtrace

open Text

/-! ## Rendered backtraces -/

/-- What can stand for a symbol: a text on one line with nothing to trim. It may be empty. -/
structure IsSymbol (symbol : String) : Prop where
  oneLine : '\n' ∉ symbol.toList
  head : ∀ c ∈ symbol.toList.head?, isSpace c = false
  last : ∀ c ∈ symbol.toList.getLast?, isSpace c = false

/-- White space that may stand at the head of a line. -/
def IsIndent (cs : List Char) : Prop := ∀ c ∈ cs, isSpace c = true ∧ c ≠ '\n'

inductive LineEnd
  | feed
  | returnFeed

def LineEnd.chars : LineEnd → List Char
  | feed => ['\n']
  | returnFeed => ['\r', '\n']

/-- A line that says where a frame is. -/
structure Location where
  indent : List Char
  place : String
  ending : LineEnd
  isIndent : IsIndent indent
  oneLine : '\n' ∉ place.toList

def Location.line (l : Location) : List Char := l.indent ++ 'a' :: 't' :: ' ' :: l.place.toList

def Location.render (l : Location) : List Char := l.line ++ l.ending.chars

/-- A frame, its line and the lines that say where it is. -/
structure Frame where
  indent : List Char
  symbol : String
  ending : LineEnd
  locations : List Location
  isIndent : IsIndent indent
  isSymbol : IsSymbol symbol

def Frame.line (f : Frame) (index : Nat) : List Char :=
  f.indent ++ (Nat.toDigits 10 index ++ ':' :: ' ' :: f.symbol.toList)

def Frame.render (f : Frame) (index : Nat) : List Char :=
  f.line index ++ f.ending.chars ++ f.locations.flatMap Location.render

/-- The frames in order, numbered from `first` on. -/
def render (first : Nat) : List Frame → List Char
  | [] => []
  | f :: frames => f.render first ++ render (first + 1) frames

variable {c : Char} {indent digits line : List Char}

/-! ## Line ends -/

theorem symbolOf?_append_return (line : List Char) :
    symbolOf? (line ++ ['\r']) = symbolOf? line := by
  have hdrop : dropSpaces (line ++ ['\r']) =
      if (dropSpaces line).isEmpty then [] else dropSpaces line ++ ['\r'] := List.dropWhile_append
  cases hline : dropSpaces line with
  | nil => rw [symbolOf?, symbolOf?, hdrop, hline, List.isEmpty_nil, if_pos rfl]
  | cons c cs =>
    rw [symbolOf?, symbolOf?, hdrop, hline, List.isEmpty_cons, if_neg Bool.false_ne_true,
      cutAt_concat (by decide) (by decide)]
    cases cutAt [':', ' '] (c :: cs) with
    | none => rfl
    | some parts =>
      have htrim : trimSpaces (parts.2 ++ ['\r']) = trimSpaces parts.2 :=
        trimSpaces_append_spaces (List.forall_mem_singleton.mpr rfl)
      simp only [Option.map_some, htrim]

theorem symbolOf?_withoutReturn (line : List Char) :
    symbolOf? (withoutReturn line) = symbolOf? line := by
  rw [withoutReturn]
  split
  · next hlast =>
    obtain ⟨front, rfl⟩ := List.getLast?_eq_some_iff.mp hlast
    rw [List.dropLast_concat, symbolOf?_append_return]
  · rfl

/-- The symbols of a text are those of what stands between its line feeds. -/
theorem symbols_eq_filterMap (rendered : String) :
    symbols rendered = (splitAt '\n' rendered.toList).filterMap symbolOf? := by
  obtain ⟨front, last, hpieces⟩ :=
    (List.eq_nil_or_concat' (splitAt '\n' rendered.toList)).resolve_left (splitAt_ne_nil _ _)
  have hfront : (front.map withoutReturn).filterMap symbolOf? = front.filterMap symbolOf? := by
    rw [List.filterMap_map]
    exact congrArg (List.filterMap · front) (funext symbolOf?_withoutReturn)
  have hlast : (if last.isEmpty then [] else [last]).filterMap symbolOf? =
      [last].filterMap symbolOf? := by
    cases last <;> rfl
  simp only [symbols, lines, hpieces, List.getLastD_concat, List.dropLast_concat,
    List.filterMap_append, hfront, hlast]

theorem symbols_append_feed (h : '\n' ∉ line) (rest : List Char) :
    symbols (.ofList (line ++ '\n' :: rest)) =
      (symbolOf? line).toList ++ symbols (.ofList rest) := by
  rw [symbols_eq_filterMap, symbols_eq_filterMap, String.toList_ofList, String.toList_ofList,
    splitAt_append h, List.filterMap_cons]
  cases symbolOf? line <;> rfl

/-- A line is read alone, however it ends. -/
theorem symbols_line (h : '\n' ∉ line) (ending : LineEnd) (rest : List Char) :
    symbols (.ofList (line ++ ending.chars ++ rest)) =
      (symbolOf? line).toList ++ symbols (.ofList rest) := by
  cases ending with
  | feed =>
    rw [LineEnd.chars, List.append_assoc]
    exact symbols_append_feed h rest
  | returnFeed =>
    have hreturn : '\n' ∉ line ++ ['\r'] := by simpa using h
    have hline := symbols_append_feed hreturn rest
    rw [symbolOf?_append_return, List.append_assoc] at hline
    rw [LineEnd.chars, List.append_assoc]
    exact hline

/-! ## Lines -/

theorem IsIndent.newline_not_mem (h : IsIndent indent) : '\n' ∉ indent :=
  fun hmem => (h '\n' hmem).2 rfl

theorem IsIndent.dropSpaces_append {rest : List Char} (h : IsIndent indent)
    (hrest : ∀ c ∈ rest.head?, isSpace c = false) : dropSpaces (indent ++ rest) = rest :=
  (run_append (fun c hc => (h c hc).1) hrest).2

/-- What follows the number of a frame is its symbol, also where that looks like a number itself. -/
theorem symbolOf?_numbered (hindent : IsIndent indent) (hdigits : Digits digits)
    (text : List Char) :
    symbolOf? (indent ++ (digits ++ ':' :: ' ' :: text)) = some (.ofList (trimSpaces text)) := by
  have hhead : ∀ c ∈ (digits ++ ':' :: ' ' :: text).head?, isSpace c = false := by
    obtain ⟨d, ds, rfl, hd⟩ := hdigits.exists_cons
    rintro c ⟨⟩
    exact isSpace_of_isDigit hd
  have hcolon : ':' ∉ digits := fun hmem => absurd (hdigits.2 ':' hmem) (by decide)
  have hcut : cutAt [':', ' '] (digits ++ ':' :: ' ' :: text) = some (digits, text) := by
    have hself : cutAt [':', ' '] (':' :: ' ' :: text) = some ([], text) :=
      cutAt_self_append ':' [' '] text
    rw [cutAt_append_of_not_mem hcolon, hself, Option.map_some, List.append_nil]
  have hguard : (!digits.isEmpty && digits.all isDigit) = true := by
    simpa [Digits] using hdigits
  rw [symbolOf?, hindent.dropSpaces_append hhead, hcut]
  simp only [hguard, if_true]

/-- A line that does not begin with a digit holds no symbol. -/
theorem symbolOf?_eq_none (hindent : IsIndent indent) (hspace : isSpace c = false)
    (hdigit : isDigit c = false) (text : List Char) : symbolOf? (indent ++ c :: text) = none := by
  have hhead : ∀ d ∈ (c :: text).head?, isSpace d = false := by
    rintro d ⟨⟩
    exact hspace
  rw [symbolOf?, hindent.dropSpaces_append hhead]
  cases hcut : cutAt [':', ' '] (c :: text) with
  | none => rfl
  | some parts =>
    obtain ⟨index, symbol⟩ := parts
    cases index with
    | nil => rfl
    | cons d index =>
      obtain ⟨rfl, -⟩ := List.cons.inj (eq_append_of_cutAt hcut)
      simp [hdigit]

theorem IsSymbol.trimSpaces_eq {symbol : String} (h : IsSymbol symbol) :
    trimSpaces symbol.toList = symbol.toList :=
  trims_iff.mp ⟨⟨[], [], by simp, nofun⟩, h.head, h.last⟩

theorem Location.newline_not_mem_line (l : Location) : '\n' ∉ l.line := by
  simp [Location.line, l.isIndent.newline_not_mem, l.oneLine]

theorem Location.symbolOf?_line (l : Location) : symbolOf? l.line = none :=
  symbolOf?_eq_none l.isIndent (by decide) (by decide) _

theorem Frame.newline_not_mem_line (f : Frame) (index : Nat) : '\n' ∉ f.line index := by
  have hdigits : '\n' ∉ Nat.toDigits 10 index := fun hmem =>
    absurd ((digits_toDigits index).2 '\n' hmem) (by decide)
  simp [Frame.line, f.isIndent.newline_not_mem, hdigits, f.isSymbol.oneLine]

theorem Frame.symbolOf?_line (f : Frame) (index : Nat) :
    symbolOf? (f.line index) = some f.symbol := by
  rw [Frame.line, symbolOf?_numbered f.isIndent (digits_toDigits index), f.isSymbol.trimSpaces_eq,
    String.ofList_toList]

/-! ## Whole backtraces -/

theorem symbols_locations (locations : List Location) (rest : List Char) :
    symbols (.ofList (locations.flatMap Location.render ++ rest)) = symbols (.ofList rest) := by
  induction locations with
  | nil => rfl
  | cons l locations ih =>
    rw [List.flatMap_cons, List.append_assoc, Location.render,
      symbols_line l.newline_not_mem_line, l.symbolOf?_line, Option.toList_none, List.nil_append, ih]

theorem symbols_frame (f : Frame) (index : Nat) (rest : List Char) :
    symbols (.ofList (f.render index ++ rest)) = f.symbol :: symbols (.ofList rest) := by
  rw [Frame.render, List.append_assoc, symbols_line (f.newline_not_mem_line index),
    f.symbolOf?_line, symbols_locations, Option.toList_some, List.singleton_append]

/-- Reading undoes rendering. Every symbol comes back once and as it was, in the order of the frames,
whatever the lines between them say and however each line ends. -/
theorem symbols_render (first : Nat) (frames : List Frame) :
    symbols (.ofList (render first frames)) = frames.map Frame.symbol := by
  induction frames generalizing first with
  | nil => rfl
  | cons f frames ih => rw [render, symbols_frame, ih, List.map_cons]

/-- An empty symbol, one that begins with a number of its own, and a place that does. -/
example : render 9
    [⟨[' '], "", .returnFeed, [⟨['\t'], "3: a", .feed, by simp [IsIndent, isSpace], by decide⟩],
      by simp [IsIndent, isSpace], ⟨by decide, nofun, nofun⟩⟩,
     ⟨[], "4: b", .feed, [], nofun, ⟨by decide, by simp [isSpace], by simp [isSpace]⟩⟩] =
      " 9: \r\n\tat 3: a\n10: 4: b\n".toList ∧
    symbols " 9: \r\n\tat 3: a\n10: 4: b\n" = ["", "4: b"] := by
  decide +kernel

end Cordon.Backtrace
