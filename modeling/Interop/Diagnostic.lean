import Interop.Span
import Interop.Text.Blank
import Interop.Text.Width

/-!
This module contains reports that point at a place in a document: the message, the line in question
and an arrow from a label to the marked part of the line.
-/

namespace Interop

structure SourceLine where
  /-- The characters before the line. -/
  offset : Nat
  /-- The number of characters, with those that end the line. -/
  length : Nat
  /-- The characters up to the last one that is not blank. -/
  shown : List Char
  deriving DecidableEq, Repr

namespace SourceLine

def endsLine (c : Char) : Bool :=
  ['\n', '\r', '\x0b', '\x0c', '\u0085', '\u2028', '\u2029'].contains c

/--
The lines of a text with the characters that end them. A carriage return and the line feed behind it
end one line.
-/
def split : List Char → List (List Char)
  | [] => []
  | '\r' :: '\n' :: cs => ['\r', '\n'] :: split cs
  | c :: cs =>
    if endsLine c then [c] :: split cs
    else
      match split cs with
      | [] => [[c]]
      | line :: lines => (c :: line) :: lines

theorem flatten_split (cs : List Char) : (split cs).flatten = cs := by
  fun_induction split cs with
  | case1 => rfl
  | case2 cs ih => simp [ih]
  | case3 c cs _ _ ih => simp [ih]
  | case4 c cs _ _ h ih => simp_all
  | case5 c cs _ _ line lines h ih => simp_all

def number (offset : Nat) : List (List Char) → List SourceLine
  | [] => []
  | cs :: rest =>
    ⟨offset, cs.length, Text.dropEndWhile Text.isBlank cs⟩ :: number (offset + cs.length) rest

def ofText (text : String) : List SourceLine :=
  number 0 (split text.toList)

/--
How a character shows in column `column` of its line, and in how many columns. A tab leads to the
next column that is a multiple of four.
-/
def cell (column : Nat) (c : Char) : Char × Nat :=
  if c = '\t' then (' ', 4 - column % 4)
  else if Text.isBlank c then (' ', 1)
  else (c, Text.columns c)

def text (line : SourceLine) : String :=
  String.ofList <| line.shown.zipIdx.flatMap fun (c, column) =>
    match cell column c with
    | (c, width) => if c = ' ' then List.replicate width c else [c]

def width (line : SourceLine) (column : Nat) : Nat :=
  match line.shown[column]? with
  | some c => (cell column c).2
  | none => 1

/--
A line of marks under the first `size` columns: the mark of a column stands once, and its tail fills
the place that the character above takes besides.
-/
def marks (line : SourceLine) (size : Nat) (mark : Nat → Char × Char) : String :=
  String.ofList <| (List.range size).flatMap fun column =>
    match line.width column with
    | 0 => []
    | rest + 1 => (mark column).1 :: List.replicate rest (mark column).2

def holds (line : SourceLine) (s : Span) : Bool :=
  line.offset ≤ s.start && s.stop ≤ line.offset + line.length

end SourceLine

structure Diagnostic where
  source : String
  span : Span
  message : String
  label : String
  deriving DecidableEq, Repr

namespace Diagnostic

/--
The line of a position, with the number of lines before it. The position after the last character
belongs to the last line.
-/
def locate (position : Nat) (lines : List SourceLine) : Option (Nat × SourceLine) :=
  match lines.getLast? with
  | some last =>
    if last.offset + last.length < position then none
    else
      (lines.zipIdx.takeWhile (·.1.offset ≤ position)).getLast?.map fun (line, before) =>
        (before, line)
  | none => none

def window (s : Span) (lines : List SourceLine) : List (Nat × SourceLine) :=
  let first := (locate s.start lines).elim 0 (·.1)
  let last := (locate (max (s.stop - 1) s.start) lines).elim lines.length (·.1 + 1)
  (((lines.zipIdx.take last).drop first).map fun (line, before) => (before, line))

/--
The marks below a line: the marked part is underlined, and an arrow leads from its middle to the
label.
-/
def arrow (d : Diagnostic) (s : Span) (line : SourceLine) : List String :=
  let size := s.stop - line.offset + 2
  let attached := s.middle - line.offset
  let under := line.marks size fun column =>
    match decide (column = attached), s.contains (line.offset + column) with
    | true, true => ('┬', '─')
    | true, false => ('│', ' ')
    | false, true => ('─', '─')
    | false, false => (' ', ' ')
  let below := line.marks size fun column =>
    if column < attached then (' ', ' ')
    else if column = attached then ('╰', '─') else ('─', '─')
  [under, below ++ " " ++ d.label]

def spaces (n : Nat) : String :=
  String.ofList (List.replicate n ' ')

/--
The report about the document `text`, line by line. Spans count characters.
-/
def report (d : Diagnostic) (text : String) : List String :=
  let lines := SourceLine.ofText text
  let s := d.span.clamp text.utf8ByteSize
  let shown := window s lines
  let digits := (toString ((shown.getLast?.elim 0 (·.1)) + 1)).length
  let margin := spaces (digits + 2)
  let place :=
    match locate s.start lines with
    | some (before, line) => s!":{before + 1}:{s.start - line.offset + 1}"
    | none => ":?:?"
  let body :=
    match shown.find? (·.2.holds s) with
    | some (before, line) =>
      let n := toString (before + 1)
      (" " ++ spaces (digits - n.length) ++ n ++ " │ " ++ line.text)
        :: (d.arrow s line).map (margin ++ "│ " ++ ·)
    | none => [margin ++ "│ "]
  ["Error: " ++ d.message, margin ++ "╭─[" ++ d.source ++ place ++ "]", margin ++ "│"] ++ body
    ++ [String.ofList (List.replicate (digits + 2) '─') ++ "╯"]

end Diagnostic

end Interop
