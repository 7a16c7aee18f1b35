import Interop.Yaml.Cursor

/-!
This module contains the reading of block scalars, literal ones and folded ones.
-/

namespace Interop.Yaml.Block

/--
What becomes of the line breaks at the end.
-/
inductive Chomping where
  | strip
  | clip
  | keep
  deriving DecidableEq, Repr

structure Header where
  chomping : Chomping
  /-- The indentation relative to the block around, if it is given. -/
  increment? : Option Nat
  deriving DecidableEq, Repr

def chomping? : Char → Option Chomping
  | '+' => some .keep
  | '-' => some .strip
  | _ => none

/--
A digit from 1 to 9.
-/
def increment? (c : Char) : Option Nat :=
  if '1' ≤ c ∧ c ≤ '9' then some (c.toNat - '0'.toNat) else none

/--
The indicators behind `|` or `>`. A zero stays unread, and is an error then.
-/
def header : List Char → Header × Nat
  | [] => (⟨.clip, none⟩, 0)
  | c :: cs =>
    match chomping? c, increment? c with
    | some k, _ =>
      match cs.head?.bind increment? with
      | some n => (⟨k, some n⟩, 2)
      | none => (⟨k, none⟩, 1)
    | none, some n =>
      match cs.head?.bind chomping? with
      | some k => (⟨k, some n⟩, 2)
      | none => (⟨.clip, some n⟩, 1)
    | none, none => (⟨.clip, none⟩, 0)

/--
What the rest of a line may hold: blanks and a comment.
-/
def skipLineRest (comment : Bool) (s : Spot) : List Char → Option Cursor
  | [] => some ⟨s, []⟩
  | c :: cs =>
    if isBreak c then some ⟨s.newline, cs⟩
    else if comment || isBlank c then skipLineRest comment (s.along 1) cs
    else if c == '#' then skipLineRest true (s.along 1) cs
    else none

structure State where
  /-- What was read, the latest character first. -/
  text : List Char
  /-- The break at the end of the last line, unless it has become text. -/
  last : List Char
  /-- The breaks after it. -/
  more : List Char
  /-- Whether the last line starts with a blank. -/
  blankStart : Bool
  /-- The indentation, once it is known. -/
  indent? : Option Nat
  /-- The widest line start that was seen before the indentation is known. -/
  widest : Nat
  /-- Whether the next character stands in the indentation of its line. -/
  atStart : Bool
  deriving DecidableEq, Repr

namespace State

/--
Whether a column lies in front of the text of its line.
-/
def inIndent (st : State) (column : Nat) : Bool :=
  st.indent?.all (column < ·)

/--
What the breaks before a line of text contribute.
-/
def joint (st : State) (folds : Bool) (blank : Bool) : List Char :=
  if folds && st.last == ['\n'] && !st.blankStart && !blank then
    if st.more.isEmpty then [' '] else st.more
  else st.last ++ st.more

end State

/--
Reads on at the given text. `least` is the least indentation that a block may have.
-/
def readFrom (folds : Bool) (least : Nat) (st : State) (s : Spot) :
    List Char → Option (State × Cursor)
  | [] => some (st, ⟨s, []⟩)
  | c :: cs =>
    if st.atStart then
      if st.inIndent s.column && c == ' ' then readFrom folds least st (s.along 1) cs
      else if st.inIndent s.column && c == '\t' then none
      else
        let widest := max st.widest s.column
        if isBreak c then
          readFrom folds least { st with widest, more := st.more ++ [c] } s.newline cs
        else
          let indent := st.indent?.getD (max widest least)
          let st := { st with widest, indent? := some indent }
          if s.column = indent then
            let text := c :: (st.joint folds (isBlank c)).reverse ++ st.text
            readFrom folds least
              { st with text, last := [], more := [], blankStart := isBlank c, atStart := false }
              (s.along 1) cs
          else some (st, ⟨s, c :: cs⟩)
    else if isBreak c then
      readFrom folds least { st with last := [c], more := [], atStart := true } s.newline cs
    else readFrom folds least { st with text := c :: st.text } (s.along 1) cs

def State.chomped (st : State) : Chomping → List Char
  | .strip => st.text.reverse
  | .clip => st.text.reverse ++ st.last
  | .keep => st.text.reverse ++ st.last ++ st.more

/--
Reads a scalar behind `|` or `>`, in a block that is indented by `indent`; -1 is the indentation of
the document.
-/
def read (folds : Bool) (indent : Int) (c : Cursor) : Option (List Char × Cursor) :=
  let (h, n) := header c.rest
  match skipLineRest false (c.spot.along n) (c.rest.drop n) with
  | none => none
  | some c =>
    let start :=
      { text := [], last := [], more := [], blankStart := false
        indent? := h.increment?.map (indent.toNat + ·), widest := 0, atStart := true : State }
    let least := max 1 (indent + 1).toNat
    (readFrom folds least start c.spot c.rest).map fun (st, c) => (st.chomped h.chomping, c)

end Interop.Yaml.Block
