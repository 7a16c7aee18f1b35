import Interop.Yaml.Cursor

/-!
This module contains the reading of plain scalars.
-/

namespace Interop.Yaml.Plain

/--
What was read, whether a line break follows it, and where the text goes on.
-/
structure Reading where
  text : List Char
  broken : Bool
  cursor : Cursor
  deriving DecidableEq, Repr

/--
The characters that end a plain scalar in a flow collection.
-/
def isFlowEnd (c : Char) : Bool :=
  c == ',' || c == '[' || c == ']' || c == '\x7b' || c == '\x7d'

/--
Whether a colon in a flow collection stands before one of the characters that may not follow it.
-/
def isStrayColon (c : Char) (cs : List Char) : Bool :=
  c == ':' && (cs.head?.any fun n => n == '?' || isFlowEnd n)

/--
Reads on at `cs`, where `gap` was read last and `text` before it, the latest character first. A
line that is not indented to `indent` ends the scalar outside of flow collections.
-/
def readFrom (inFlow : Bool) (indent : Nat) (text : List Char) (gap : Gap) (s : Spot) :
    List Char → Option Reading
  | [] => some ⟨text.reverse, gap.isBroken, ⟨s, []⟩⟩
  | c :: cs =>
    let stop := some ⟨text.reverse, gap.isBroken, ⟨s, c :: cs⟩⟩
    if isBreak c then readFrom inFlow indent text (gap.newline c) s.newline cs
    else if isBlank c then
      if gap.isBroken && decide (s.column < indent) && c == '\t' then none
      else readFrom inFlow indent text (gap.blank c) (s.along 1) cs
    else if gap != .empty
        && (!inFlow && decide (s.column < indent) || s.column == 0 && atMarker (c :: cs)
          || c == '#') then
      stop
    else if inFlow && isStrayColon c cs then none
    else if c == ':' && atGap cs || inFlow && isFlowEnd c then stop
    else readFrom inFlow indent (c :: gap.folded.reverse ++ text) .empty (s.along 1) cs

def read (inFlow : Bool) (indent : Nat) (c : Cursor) : Option Reading :=
  readFrom inFlow indent [] .empty c.spot c.rest

end Interop.Yaml.Plain
