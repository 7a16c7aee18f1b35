import Interop.Yaml.Cursor

/-!
This module contains the reading of scalars between quotes.
-/

namespace Interop.Yaml.Quoted

/--
What the next character belongs to.
-/
inductive Mode where
  | text
  /-- The character after a single quote: another quote makes one, all else follows the scalar. -/
  | quote
  /-- The character after a backslash. -/
  | escape
  /-- The digits of a character's code; `left` of them are missing. -/
  | code (left value : Nat)
  deriving DecidableEq, Repr

/--
The escapes of one letter.
-/
def simpleEscape? : Char → Option Char
  | '0' => some '\x00'
  | 'a' => some '\x07'
  | 'b' => some '\x08'
  | 't' | '\t' => some '\t'
  | 'n' => some '\n'
  | 'v' => some '\x0b'
  | 'f' => some '\x0c'
  | 'r' => some '\r'
  | 'e' => some '\x1b'
  | ' ' => some ' '
  | '"' => some '"'
  | '/' => some '/'
  | '\\' => some '\\'
  | 'N' => some '\u0085'
  | '_' => some '\u00a0'
  | 'L' => some '\u2028'
  | 'P' => some '\u2029'
  | _ => none

/--
The number of digits after the letter of an escape by code.
-/
def codeLength? : Char → Option Nat
  | 'x' => some 2
  | 'u' => some 4
  | 'U' => some 8
  | _ => none

/--
The character of a code.
-/
def charOf? (code : Nat) : Option Char :=
  if h : code.isValidChar then some (Char.ofNatAux code h) else none

/--
Reads on at the given text, where `gap` was read last and `text` before it, the latest character
first.
-/
def readFrom (single : Bool) (mode : Mode) (text : List Char) (gap : Gap) (s : Spot) :
    List Char → Option (List Char × Cursor)
  | [] => if mode = .quote then some (text.reverse, ⟨s, []⟩) else none
  | c :: cs =>
    match mode with
    | .quote =>
      if c == '\'' then readFrom single .text (c :: text) .empty (s.along 1) cs
      else some (text.reverse, ⟨s, c :: cs⟩)
    | .escape =>
      if isBreak c then readFrom single .text text .escaped s.newline cs
      else
        match simpleEscape? c, codeLength? c with
        | some e, _ => readFrom single .text (e :: text) .empty (s.along 1) cs
        | none, some n => readFrom single (.code n 0) text .empty (s.along 1) cs
        | none, none => none
    | .code left value =>
      match hexValue? c with
      | none => none
      | some digit =>
        let value := value * 16 + digit
        if left ≤ 1 then
          match charOf? value with
          | none => none
          | some e => readFrom single .text (e :: text) .empty (s.along 1) cs
        else readFrom single (.code (left - 1) value) text .empty (s.along 1) cs
    | .text =>
      if isBreak c then readFrom single .text text (gap.newline c) s.newline cs
      else if isBlank c then readFrom single .text text (gap.blank c) (s.along 1) cs
      else if s.column == 0 && atMarker (c :: cs) then none
      else
        let text := gap.folded.reverse ++ text
        if single && c == '\'' then readFrom single .quote text .empty (s.along 1) cs
        else if !single && c == '"' then some (text.reverse, ⟨s.along 1, cs⟩)
        else if !single && c == '\\' then readFrom single .escape text .empty (s.along 1) cs
        else readFrom single .text (c :: text) .empty (s.along 1) cs

/--
Reads a scalar behind its opening quote.
-/
def read (single : Bool) (c : Cursor) : Option (List Char × Cursor) :=
  readFrom single .text [] .empty c.spot c.rest

end Interop.Yaml.Quoted
