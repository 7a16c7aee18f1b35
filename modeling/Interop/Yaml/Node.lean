import Interop.Yaml.Tokens

/-!
This module contains the nodes of a YAML document and their construction from tokens.
-/

namespace Interop.Yaml

inductive Node where
  | scalar (tag? : Option Tag) (text : String) (plain : Bool)
  | sequence (tag? : Option Tag) (items : List Node)
  | mapping (tag? : Option Tag) (entries : List (Node × Node))
  /-- The node with the anchor of this number. -/
  | aliasOf (anchor : Nat)
  deriving Repr

namespace Node

/--
The node that stands for nothing.
-/
def absent : Node := .scalar none "" true

mutual

/--
The number of scalars and aliases, and of starts and ends of collections.
-/
def size : Node → Nat
  | scalar _ _ _ | aliasOf _ => 1
  | sequence _ items => sizeAll items + 2
  | mapping _ entries => sizeEntries entries + 2

def sizeAll : List Node → Nat
  | [] => 0
  | n :: ns => n.size + sizeAll ns

def sizeEntries : List (Node × Node) → Nat
  | [] => 0
  | (k, v) :: es => k.size + v.size + sizeEntries es

end

end Node

/--
The anchors of a document. An anchor gets the count of the names in use as its number. After a name
was used again two names can have one number, and the node that took it last counts.
-/
structure Anchors where
  /-- The names in use, with the number that each has now. -/
  names : List (String × Nat) := []
  /-- The number that every anchored node took, the latest first. -/
  taken : List Nat := []
  /-- The anchored nodes that are complete, with their places among those that took a number. -/
  nodes : List (Nat × Node) := []
  deriving Repr

namespace Anchors

def number? (a : Anchors) (name : String) : Option Nat :=
  (a.names.find? (·.1 = name)).map (·.2)

/--
Gives a number to the anchor of a node that begins, and tells the node's place.
-/
def take (a : Anchors) (name : String) : Nat × Anchors :=
  let number := a.names.length
  (a.taken.length,
   { a with
     names := (name, number) :: a.names.filter (·.1 ≠ name)
     taken := number :: a.taken })

/--
Notes a node that is complete.
-/
def finish (a : Anchors) (place : Nat) (n : Node) : Anchors :=
  { a with nodes := (place, n) :: a.nodes }

/--
The node with the anchor of this number.
-/
def node? (a : Anchors) (number : Nat) : Option Node :=
  (a.taken.findIdx? (· = number)).bind fun fromLast =>
    (a.nodes.find? (·.1 = a.taken.length - 1 - fromLast)).map (·.2)

end Anchors

/--
What the handles of tags stand for.
-/
abbrev Handles := List (String × Tag)

namespace Handles

/--
The handles that need no directive.
-/
def initial : Handles :=
  [("!", bytesOf "!"), ("!!", bytesOf "tag:yaml.org,2002:")]

def expand? (hs : Handles) (handle : String) (suffix : Tag) : Option Tag :=
  if handle = "" then some suffix
  else (hs.find? (·.1 = handle)).map fun (_, expansion) => expansion ++ suffix

end Handles

namespace Node

/--
The tokens that are left, and the anchors met so far.
-/
structure Remaining where
  tokens : List Token
  anchors : Anchors
  handles : Handles
  deriving Repr

abbrev Reader := StateT Remaining Option

namespace Reader

def peek : Reader Token := do
  match (← get).tokens with
  | t :: _ => return t
  | [] => failure

def skip : Reader Unit :=
  modify fun r => { r with tokens := r.tokens.drop 1 }

/--
Skips a token if it is the next one.
-/
def skipIf (t : Token) : Reader Bool := do
  if (← peek) == t then
    skip
    return true
  else return false

/--
Skips the comma in front of a member of a flow collection. The first member has none.
-/
def separated (first : Bool) : Reader Bool := do
  if first then return true else skipIf .flowEntry

/--
What stands in front of a node: an anchor and a tag, in any order.
-/
def properties : Reader (Option String × Option (String × Tag)) := do
  match ← peek with
  | .anchor name =>
    skip
    match ← peek with
    | .tag handle suffix =>
      skip
      return (some name, some (handle, suffix))
    | _ => return (some name, none)
  | .tag handle suffix =>
    skip
    match ← peek with
    | .anchor name =>
      skip
      return (some name, some (handle, suffix))
    | _ => return (none, some (handle, suffix))
  | _ => return (none, none)

def fullTag (written? : Option (String × Tag)) : Reader (Option Tag) := do
  match written? with
  | none => return none
  | some (handle, suffix) =>
    match (← get).handles.expand? handle suffix with
    | some tag => return some tag
    | none => failure

def beginAnchor (name? : Option String) : Reader (Option Nat) := do
  match name? with
  | none => return none
  | some name =>
    let (place, anchors) := (← get).anchors.take name
    modify fun r => { r with anchors }
    return some place

def finishAnchor (place? : Option Nat) (n : Node) : Reader Node := do
  match place? with
  | none => return n
  | some place =>
    modify fun r => { r with anchors := r.anchors.finish place n }
    return n

mutual

/--
Reads a node. In a block, collections without brackets may stand there; `indentless` allows a
sequence that is not indented. The first argument bounds the depth of the reading.
-/
def node : Nat → (block indentless : Bool) → Reader Node
  | 0, _, _ => failure
  | n + 1, block, indentless => do
    match ← peek with
    | .aliasOf name =>
      skip
      match (← get).anchors.number? name with
      | some number => return .aliasOf number
      | none => failure
    | _ =>
      let (anchor?, written?) ← properties
      let tag? ← fullTag written?
      let place? ← beginAnchor anchor?
      let result ← content n block indentless (anchor?.isSome || written?.isSome) tag?
      finishAnchor place? result

/--
Reads a node behind its properties. A node with properties may have nothing behind them. The tag `!`
says nothing of a scalar that is there.
-/
def content : Nat → (block indentless marked : Bool) → (tag? : Option Tag) → Reader Node
  | 0, _, _, _, _ => failure
  | n + 1, block, indentless, marked, tag? => do
    let t ← peek
    match t with
    | .scalar text plain =>
      skip
      return .scalar (tag?.filter (· ≠ bytesOf "!")) text plain
    | .flowSequenceStart =>
      skip
      return .sequence tag? (← flowItems n true)
    | .flowMappingStart =>
      skip
      return .mapping tag? (← flowEntries n true)
    | _ =>
      if indentless && t == .blockEntry then return .sequence tag? (← indentlessItems n)
      else if block && t == .blockSequenceStart then
        skip
        return .sequence tag? (← blockItems n)
      else if block && t == .blockMappingStart then
        skip
        return .mapping tag? (← blockEntries n)
      else if marked then return .scalar tag? "" true
      else failure

/--
The items of an indented sequence.
-/
def blockItems : Nat → Reader (List Node)
  | 0 => failure
  | n + 1 => do
    let t ← peek
    skip
    if t == .blockEnd then return []
    else if t == .blockEntry then
      let item ← part n true false [.blockEntry, .blockEnd]
      return item :: (← blockItems n)
    else failure

/--
The items of a sequence that is not indented.
-/
def indentlessItems : Nat → Reader (List Node)
  | 0 => failure
  | n + 1 => do
    if ← skipIf .blockEntry then
      let item ← part n true false [.blockEntry, .key, .value, .blockEnd]
      return item :: (← indentlessItems n)
    else return []

/--
The entries of a block mapping.
-/
def blockEntries : Nat → Reader (List (Node × Node))
  | 0 => failure
  | n + 1 => do
    let t ← peek
    skip
    if t == .blockEnd then return []
    else if t == .key then
      let k ← part n true true [.key, .value, .blockEnd]
      let v ← value n true [.key, .value, .blockEnd]
      return (k, v) :: (← blockEntries n)
    else failure

/--
The items of a flow sequence. An item with a key is a mapping of one entry; where the key is absent
the token in its place is passed over.
-/
def flowItems : Nat → (first : Bool) → Reader (List Node)
  | 0, _ => failure
  | n + 1, first => do
    if ← skipIf .flowSequenceEnd then return []
    else if ← separated first then
      if ← skipIf .flowSequenceEnd then return []
      else if ← skipIf .key then
        let ends := [.flowEntry, .flowSequenceEnd]
        let k ←
          if (.value :: ends).contains (← peek) then
            skip
            pure .absent
          else node n false false
        let v ← value n false ends
        return .mapping none [(k, v)] :: (← flowItems n false)
      else
        let item ← node n false false
        return item :: (← flowItems n false)
    else failure

/--
The entries of a flow mapping.
-/
def flowEntries : Nat → (first : Bool) → Reader (List (Node × Node))
  | 0, _ => failure
  | n + 1, first => do
    if ← skipIf .flowMappingEnd then return []
    else if ← separated first then
      if ← skipIf .flowMappingEnd then return []
      else if ← skipIf .key then
        let k ← part n false false [.value, .flowEntry, .flowMappingEnd]
        let v ← value n false [.flowEntry, .flowMappingEnd]
        return (k, v) :: (← flowEntries n false)
      else
        let k ← node n false false
        return (k, .absent) :: (← flowEntries n false)
    else failure

/--
The value of an entry, if there is one.
-/
def value : Nat → (block : Bool) → (ends : List Token) → Reader Node
  | 0, _, _ => failure
  | n + 1, block, ends => do
    if ← skipIf .value then part n block block ends
    else return .absent

/--
A node, or nothing in front of one of the tokens `ends`.
-/
def part : Nat → (block indentless : Bool) → (ends : List Token) → Reader Node
  | 0, _, _, _ => failure
  | n + 1, block, indentless, ends => do
    if ends.contains (← peek) then return .absent
    else node n block indentless

end

end Reader

end Node

structure Document where
  /-- The root, unless the text holds no document at all. -/
  root? : Option Node
  anchors : Anchors
  deriving Repr

namespace Document

/--
The directives in front of a document. Only versions 1.1 and 1.2 are known, and nothing may be said
twice.
-/
def directives (version? : Bool) (declared : Handles) :
    List Token → Option (Handles × List Token)
  | .versionDirective major minor :: ts =>
    if version? || major ≠ 1 || (minor ≠ 1 && minor ≠ 2) then none
    else directives true declared ts
  | .tagDirective handle expansion :: ts =>
    if declared.any (·.1 = handle) then none
    else directives version? ((handle, expansion) :: declared) ts
  | ts => some (declared ++ Handles.initial, ts)

/--
A bound of the depth of reading that no text of these tokens reaches.
-/
def depthFor (ts : List Token) : Nat :=
  8 * ts.length + 8

def run (r : Node.Reader Node) (handles : Handles) (ts : List Token) :
    Option (Document × List Token) :=
  (r { tokens := ts, anchors := {}, handles }).map fun (n, rest) =>
    (⟨some n, rest.anchors⟩, rest.tokens)

/--
Whether a document that starts with `---` has nothing in front of this token.
-/
def isEmptyBefore : Token → Bool
  | .versionDirective _ _ | .tagDirective _ _ | .documentStart | .documentEnd | .streamEnd => true
  | _ => false

/--
Reads the first document up to its end. The result tells whether anything stands behind it.
-/
def ofTokens (ts : List Token) : Option (Document × Bool) :=
  match ts with
  | [] => none
  | .streamEnd :: _ => some (⟨none, {}⟩, false)
  | t :: _ =>
    let body :=
      match t with
      | .versionDirective _ _ | .tagDirective _ _ | .documentStart =>
        (directives false [] ts).bind fun (handles, ts) =>
          match ts with
          | .documentStart :: next :: ts =>
            if isEmptyBefore next then some (Document.mk (some .absent) {}, next :: ts)
            else run (Node.Reader.node (depthFor ts) true false) handles (next :: ts)
          | _ => none
      | _ => run (Node.Reader.node (depthFor ts) true false) Handles.initial ts
    body.bind fun (document, rest) =>
      match rest with
      | [] => none
      | .documentEnd :: rest => some (document, moreBehind rest)
      | rest => some (document, moreBehind rest)
where
  moreBehind (rest : List Token) : Bool :=
    rest.dropWhile (· == .documentEnd) != [.streamEnd]

end Document

/--
What a text holds.
-/
inductive Reading where
  /-- It is no YAML, at least not up to the end of the first document. -/
  | malformed
  /-- The first document, and whether the text goes on behind it. -/
  | document (document : Document) (more : Bool)
  deriving Repr

def Reading.ofText (text : String) : Reading :=
  match Document.ofTokens (tokens text.toList) with
  | none => .malformed
  | some (d, more) => .document d more

end Interop.Yaml
