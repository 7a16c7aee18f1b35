import Interop.Yaml.Lexeme.Block
import Interop.Yaml.Lexeme.Plain
import Interop.Yaml.Lexeme.Quoted
import Interop.Yaml.Lexeme.Tag

/-!
This module contains the division of a YAML text into tokens. Keys show only by the colon behind
them, so a place where a key may stand is remembered, and the tokens that open a mapping are put
there when the colon is met.
-/

namespace Interop.Yaml

/--
A place at which a key may stand.
-/
structure KeyPlace where
  /-- Whether nothing but a key can stand there. -/
  required : Bool
  /-- The number of tokens in front of it. -/
  number : Nat
  spot : Spot
  deriving DecidableEq, Repr

structure Scanner where
  cursor : Cursor
  /-- The tokens so far, the latest first. -/
  tokens : List Token := []
  count : Nat := 0
  /-- The key that may be open in the current collection. -/
  key? : Option KeyPlace := none
  /-- The keys that may be open in the flow collections around, innermost first. -/
  outerKeys : List (Option KeyPlace) := []
  /-- The indentation of the current block, -1 before the first one. -/
  indent : Int := -1
  /-- The indentations of the blocks around, innermost first. -/
  outer : List Int := []
  /-- Whether a key may stand at the cursor. -/
  keyAllowed : Bool := true
  ended : Bool := false
  deriving DecidableEq, Repr

namespace Scanner

def inFlow (s : Scanner) : Bool :=
  !s.outerKeys.isEmpty

def emit (t : Token) (s : Scanner) : Scanner :=
  { s with tokens := t :: s.tokens, count := s.count + 1 }

/--
Puts a token behind the first `number` ones.
-/
def insert (number : Nat) (t : Token) (s : Scanner) : Scanner :=
  { s with
    tokens := s.tokens.take (s.count - number) ++ t :: s.tokens.drop (s.count - number)
    count := s.count + 1 }

def along (n : Nat) (s : Scanner) : Scanner :=
  { s with cursor := ⟨s.cursor.spot.along n, s.cursor.rest.drop n⟩ }

def moveTo (c : Cursor) (s : Scanner) : Scanner :=
  { s with cursor := c }

def past (t : Taken α) (s : Scanner) : Scanner :=
  { s with cursor := ⟨s.cursor.spot.along t.length, t.rest⟩ }

def allowKey (allowed : Bool) (s : Scanner) : Scanner :=
  { s with keyAllowed := allowed }

/--
Moves over blanks, line breaks and comments. A tab may not stand where a block may start.
-/
def skipGap (inFlow allowed comment : Bool) (s : Spot) : List Char → Bool × Cursor
  | [] => (allowed, ⟨s, []⟩)
  | c :: cs =>
    if isBreak c then skipGap inFlow (allowed || !inFlow) false s.newline cs
    else if comment then skipGap inFlow allowed true (s.along 1) cs
    else if c == ' ' || c == '\t' && (inFlow || !allowed) then
      skipGap inFlow allowed false (s.along 1) cs
    else if c == '#' then skipGap inFlow allowed true (s.along 1) cs
    else (allowed, ⟨s, c :: cs⟩)

def toNext (s : Scanner) : Scanner :=
  let (allowed, cursor) := skipGap s.inFlow s.keyAllowed false s.cursor.spot s.cursor.rest
  { s with keyAllowed := allowed, cursor }

/--
The longest distance between the start of a key and its colon.
-/
def keyLimit : Nat := 1024

/--
A key place that is given up, because the line has ended or the distance has grown too large.
-/
def expire (here : Spot) (key? : Option KeyPlace) : Option (Option KeyPlace) :=
  match key? with
  | none => some none
  | some k =>
    if k.spot.line < here.line ∨ k.spot.index + keyLimit < here.index then
      if k.required then none else some none
    else some (some k)

def expireKeys (s : Scanner) : Option Scanner := do
  let key? ← expire s.cursor.spot s.key?
  let outerKeys ← s.outerKeys.mapM (expire s.cursor.spot)
  return { s with key?, outerKeys }

/--
Gives the open key up.
-/
def dropKey (s : Scanner) : Option Scanner :=
  if s.key?.any (·.required) then none else some { s with key? := none }

/--
Remembers the cursor as a place of a key.
-/
def saveKey (s : Scanner) : Option Scanner :=
  if s.keyAllowed then
    let required := !s.inFlow && s.indent == s.cursor.spot.column
    s.dropKey.map fun s => { s with key? := some ⟨required, s.count, s.cursor.spot⟩ }
  else some s

/--
Opens a block that is indented by `column`, unless it is open. Its first token goes behind `number`
tokens.
-/
def roll (column number : Nat) (t : Token) (s : Scanner) : Scanner :=
  if s.inFlow || decide ((column : Int) ≤ s.indent) then s
  else { s.insert number t with indent := column, outer := s.indent :: s.outer }

/--
Closes the blocks that are indented by more than `column`.
-/
def unroll (column : Int) (s : Scanner) : Scanner :=
  if s.inFlow then s else go s.outer s
where
  go (outer : List Int) (s : Scanner) : Scanner :=
    match outer with
    | [] => s
    | indent :: outer =>
      if column < s.indent then go outer { s.emit .blockEnd with indent, outer } else s

def openFlow (t : Token) (s : Scanner) : Option Scanner :=
  s.saveKey.map fun s =>
    { s with key? := none, outerKeys := s.key? :: s.outerKeys }.allowKey true |>.along 1 |>.emit t

def closeFlow (t : Token) (s : Scanner) : Option Scanner :=
  s.dropKey.map fun s =>
    let s :=
      match s.outerKeys with
      | [] => s
      | key? :: outerKeys => { s with key?, outerKeys }
    s.allowKey false |>.along 1 |>.emit t

def flowEntry (s : Scanner) : Option Scanner :=
  s.dropKey.map fun s => s.allowKey true |>.along 1 |>.emit .flowEntry

/--
Opens a block of the cursor's column where one may stand.
-/
def openBlock (t : Token) (s : Scanner) : Option Scanner :=
  if s.inFlow then some s
  else if s.keyAllowed then some (s.roll s.cursor.spot.column s.count t)
  else none

def blockEntry (s : Scanner) : Option Scanner := do
  let s ← s.openBlock .blockSequenceStart
  let s ← s.dropKey
  return s.allowKey true |>.along 1 |>.emit .blockEntry

def explicitKey (s : Scanner) : Option Scanner := do
  let s ← s.openBlock .blockMappingStart
  let s ← s.dropKey
  return s.allowKey (!s.inFlow) |>.along 1 |>.emit .key

def mappingValue (s : Scanner) : Option Scanner :=
  match s.key? with
  | some k =>
    let s := s.insert k.number .key |>.roll k.spot.column k.number .blockMappingStart
    some ({ s with key? := none }.allowKey false |>.along 1 |>.emit .value)
  | none =>
    (s.openBlock .blockMappingStart).map fun s =>
      s.allowKey (!s.inFlow) |>.along 1 |>.emit .value

/--
A token that belongs to no block.
-/
def leaveBlocks (s : Scanner) : Option Scanner :=
  (s.unroll (-1)).dropKey.map (·.allowKey false)

def endStream (s : Scanner) : Option Scanner :=
  s.leaveBlocks.map fun s => { s.emit .streamEnd with ended := true }

def marker (t : Token) (s : Scanner) : Option Scanner :=
  s.leaveBlocks.map fun s => s.along 3 |>.emit t

def directive (s : Scanner) : Option Scanner := do
  let s ← s.leaveBlocks
  let s := s.along 1
  let t ← Directive.read s.cursor.rest
  let s := s.past t
  let cursor ← Block.skipLineRest false s.cursor.spot s.cursor.rest
  return s.moveTo cursor |>.emit t.value

/--
A token at which a key may start and behind which none may.
-/
def startNode (s : Scanner) : Option Scanner :=
  s.saveKey.map (·.allowKey false)

def reference (token : String → Token) (s : Scanner) : Option Scanner := do
  let s ← s.startNode
  let s := s.along 1
  let t ← Anchor.read s.cursor.rest
  return s.past t |>.emit (token t.value)

def tag (s : Scanner) : Option Scanner := do
  let s ← s.startNode
  let t ← TagText.read s.cursor.rest
  if TagText.mayEnd s.inFlow t.rest then
    return s.past t |>.emit (.tag t.value.1 t.value.2)
  else none

def blockScalar (folds : Bool) (s : Scanner) : Option Scanner := do
  let s ← s.dropKey
  let s := s.allowKey true |>.along 1
  let (text, cursor) ← Block.read folds s.indent s.cursor
  return s.moveTo cursor |>.emit (.scalar (String.ofList text) false)

def quotedScalar (single : Bool) (s : Scanner) : Option Scanner := do
  let s ← s.startNode
  let s := s.along 1
  let (text, cursor) ← Quoted.read single s.cursor
  return s.moveTo cursor |>.emit (.scalar (String.ofList text) false)

def plainScalar (s : Scanner) : Option Scanner := do
  let s ← s.startNode
  let r ← Plain.read s.inFlow (s.indent + 1).toNat s.cursor
  let s := if r.broken then s.allowKey true else s
  return s.moveTo r.cursor |>.emit (.scalar (String.ofList r.text) true)

/--
Whether a plain scalar may start with a character that is followed by `cs`.
-/
def startsPlain (inFlow : Bool) (c : Char) (cs : List Char) : Bool :=
  if c == '-' then !(cs.head?.any isBlank)
  else if c == '?' || c == ':' then !inFlow && !atGap cs
  else !(isBlank c || isBreak c || ",[]\x7b\x7d#&*!|>'\"%@`".toList.contains c)

/--
The token at the cursor.
-/
def token (s : Scanner) : Option Scanner :=
  let atMargin := s.cursor.spot.column == 0
  match s.cursor.rest with
  | [] => s.endStream
  | c :: cs =>
    if atMargin && c == '%' then s.directive
    else if atMargin && atMarker (c :: cs) then
      s.marker (if c == '-' then .documentStart else .documentEnd)
    else
      match c with
      | '[' => s.openFlow .flowSequenceStart
      | '\x7b' => s.openFlow .flowMappingStart
      | ']' => s.closeFlow .flowSequenceEnd
      | '\x7d' => s.closeFlow .flowMappingEnd
      | ',' => s.flowEntry
      | '*' => s.reference .aliasOf
      | '&' => s.reference .anchor
      | '!' => s.tag
      | '\'' => s.quotedScalar true
      | '"' => s.quotedScalar false
      | _ =>
        if c == '-' && atGap cs then s.blockEntry
        else if c == '?' && (s.inFlow || atGap cs) then s.explicitKey
        else if c == ':' && (s.inFlow || atGap cs) then s.mappingValue
        else if c == '|' && !s.inFlow then s.blockScalar false
        else if c == '>' && !s.inFlow then s.blockScalar true
        else if startsPlain s.inFlow c cs then s.plainScalar
        else none

def next (s : Scanner) : Option Scanner := do
  let s ← s.toNext.expireKeys
  (s.unroll s.cursor.spot.column).token

/--
Reads tokens to the end of a text of `size` characters or to the first place that makes none.
-/
def run (size : Nat) (s : Scanner) : Scanner :=
  match s.next with
  | none => s
  | some s' =>
    if s'.ended then s'
    else if _h : s.cursor.spot.index < size ∧ s.cursor.spot.index < s'.cursor.spot.index then
      run size s'
    else s
termination_by size - s.cursor.spot.index

end Scanner

/--
The tokens of a text. If they do not end with `streamEnd`, something stands behind them that is no
token.
-/
def tokens (text : List Char) : List Token :=
  if text.all isAllowed then
    let cs := unifyBreaks text
    let cursor : Cursor :=
      match cs with
      | '\ufeff' :: rest => ⟨Spot.start.along 1, rest⟩
      | cs => ⟨.start, cs⟩
    (Scanner.run cs.length { cursor }).tokens.reverse
  else []

end Interop.Yaml
