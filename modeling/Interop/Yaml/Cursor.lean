/-!
This module contains places in a YAML text and the classes of its characters. All line breaks of the
text are read as one character each.
-/

namespace Interop.Yaml

structure Spot where
  index : Nat
  line : Nat
  column : Nat
  deriving DecidableEq, Repr

namespace Spot

def start : Spot := ⟨0, 0, 0⟩

/--
The spot `n` characters further on the same line.
-/
def along (s : Spot) (n : Nat) : Spot :=
  { s with index := s.index + n, column := s.column + n }

/--
The spot after a line break.
-/
def newline (s : Spot) : Spot :=
  ⟨s.index + 1, s.line + 1, 0⟩

end Spot

structure Cursor where
  spot : Spot
  rest : List Char
  deriving DecidableEq, Repr

/--
The characters that a text may hold.
-/
def isAllowed (c : Char) : Bool :=
  c == '\t' || c == '\n' || c == '\r' || (0x20 ≤ c.toNat && c.toNat ≤ 0x7E) || c.toNat == 0x85
    || (0xA0 ≤ c.toNat && c.toNat ≤ 0xD7FF) || (0xE000 ≤ c.toNat && c.toNat ≤ 0xFFFD)
    || 0x10000 ≤ c.toNat

/--
The text with a line feed for every line break but the line and paragraph separators.
-/
def unifyBreaks : List Char → List Char
  | [] => []
  | '\r' :: '\n' :: cs => '\n' :: unifyBreaks cs
  | c :: cs => (if c == '\r' || c.toNat == 0x85 then '\n' else c) :: unifyBreaks cs

def isBlank (c : Char) : Bool :=
  c == ' ' || c == '\t'

def isBreak (c : Char) : Bool :=
  c == '\n' || c.toNat == 0x2028 || c.toNat == 0x2029

/--
Whether a text starts with a blank or a break, or ends.
-/
def atGap : List Char → Bool
  | [] => true
  | c :: _ => isBlank c || isBreak c

/--
The characters of anchors and tag handles.
-/
def isWordChar (c : Char) : Bool :=
  c.isAlphanum || c == '_' || c == '-'

/--
Whether a line starts with the marker `---` or `...`.
-/
def atMarker : List Char → Bool
  | '-' :: '-' :: '-' :: cs => atGap cs
  | '.' :: '.' :: '.' :: cs => atGap cs
  | _ => false

def hexValue? (c : Char) : Option Nat :=
  if c.isDigit then some (c.toNat - '0'.toNat)
  else if 'a' ≤ c ∧ c ≤ 'f' then some (c.toNat - 'a'.toNat + 10)
  else if 'A' ≤ c ∧ c ≤ 'F' then some (c.toNat - 'A'.toNat + 10)
  else none

/--
A stretch of blanks and line breaks inside a scalar that may go on after it.
-/
structure Gap where
  blanks : List Char
  /-- The first break, if a break was read. An escaped break leaves no character. -/
  first? : Option (Option Char)
  /-- The breaks after the first one. -/
  more : List Char
  deriving DecidableEq, Repr

namespace Gap

def empty : Gap := ⟨[], none, []⟩

def isBroken (g : Gap) : Bool :=
  g.first?.isSome

def blank (g : Gap) (c : Char) : Gap :=
  if g.isBroken then g else { g with blanks := g.blanks ++ [c] }

def newline (g : Gap) (c : Char) : Gap :=
  if g.isBroken then { g with more := g.more ++ [c] } else ⟨[], some (some c), []⟩

/--
A gap that starts with an escaped break.
-/
def escaped : Gap := ⟨[], some none, []⟩

/--
The text for a gap: a single line feed becomes a space, of several the first is left out.
-/
def folded (g : Gap) : List Char :=
  match g.first? with
  | none => g.blanks
  | some (some '\n') => if g.more.isEmpty then [' '] else g.more
  | some first? => first?.toList ++ g.more

end Gap

end Interop.Yaml
