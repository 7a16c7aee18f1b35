import Interop.Yaml.Node
import Interop.Yaml.Scalar

/-!
This module contains the values of YAML documents, in which aliases are replaced by what they stand
for.
-/

namespace Interop.Yaml

inductive Value where
  | scalar (value : Scalar)
  | sequence (items : List Value)
  | mapping (entries : List (Value × Value))
  | tagged (tag : String) (value : Value)
  deriving Repr

namespace Value

def null : Value := .scalar .null

mutual

/--
Equality as keys of a mapping know it: the order of entries does not matter.
-/
def same : Value → Value → Bool
  | scalar a, scalar b => a.same b
  | sequence as, sequence bs => sameItems as bs
  | mapping as, mapping bs => as.length == bs.length && sameEntries as bs
  | tagged t a, tagged u b => t == u && a.same b
  | _, _ => false

def sameItems : List Value → List Value → Bool
  | [], [] => true
  | a :: as, b :: bs => a.same b && sameItems as bs
  | _, _ => false

def sameEntries : List (Value × Value) → List (Value × Value) → Bool
  | [], _ => true
  | (k, v) :: es, bs => bs.any (fun (l, w) => k.same l && v.same w) && sameEntries es bs

end

mutual

/--
Whether no mapping in the value has a key twice.
-/
def isDistinct : Value → Bool
  | scalar _ => true
  | sequence items => areDistinct items
  | mapping entries => haveDistinctKeys entries
  | tagged _ v => v.isDistinct

def areDistinct : List Value → Bool
  | [] => true
  | v :: vs => v.isDistinct && areDistinct vs

def haveDistinctKeys : List (Value × Value) → Bool
  | [] => true
  | (k, v) :: es =>
    k.isDistinct && v.isDistinct && !es.any (fun (l, _) => k.same l) && haveDistinctKeys es

end

/--
The value without its tags.
-/
def untagged : Value → Value
  | tagged _ v => v.untagged
  | v => v

def mapping? (v : Value) : Option (List (Value × Value)) :=
  match v.untagged with
  | .mapping entries => some entries
  | _ => none

def sequence? (v : Value) : Option (List Value) :=
  match v.untagged with
  | .sequence items => some items
  | _ => none

def text? (v : Value) : Option String :=
  match v.untagged with
  | .scalar (.text s) => some s
  | _ => none

def isText (s : String) : Value → Bool
  | .scalar (.text t) => s == t
  | _ => false

def describe : Value → String
  | scalar s => s.describe
  | sequence _ => "sequence"
  | mapping _ => "map"
  | tagged _ _ => "enum"

end Value

/--
The value of a key in a mapping.
-/
def get? (entries : List (Value × Value)) (key : String) : Option Value :=
  (entries.find? (·.1.isText key)).map (·.2)

/--
The way from the root of a document to a part of it, as messages show it; the root is the empty
text.
-/
abbrev Route := String

namespace Route

def root : Route := ""

def member (r : Route) (key : String) : Route :=
  if r = root then key else r ++ "." ++ key

def item (r : Route) (index : Nat) : Route :=
  (if r = root then "." else r) ++ "[" ++ toString index ++ "]"

/--
The way to the value of a key. Only a scalar that stands there itself has a name.
-/
def ofKey (r : Route) : Node → Route
  | .scalar _ text _ => r.member text
  | _ => r.member "?"

end Route

/--
Why a document cannot be read as what was asked for.
-/
inductive Issue where
  /-- It has no value at all. -/
  | valueless
  /-- Too many aliases had to be followed. -/
  | endless
  /-- A part of it is not what it should be. -/
  | unfit (route : Route) (problem : String)
  deriving DecidableEq, Repr

/--
Reading from a document. The state is the number of aliases followed.
-/
abbrev DocumentReader := ReaderT Document (StateT Nat (Except Issue))

namespace DocumentReader

def fail (i : Issue) : DocumentReader α :=
  throw i

/--
The number of nested collections that are read.
-/
def depthLimit : Nat := 128

def unfit (route : Route) (problem : String) : DocumentReader α :=
  fail (.unfit route problem)

/--
The number of aliases that may be followed.
-/
def aliasLimit (d : Document) : Nat :=
  100 * d.root?.elim 1 Node.size

/--
The node itself, or the one that an alias stands for.
-/
def follow (n : Node) : DocumentReader Node := do
  match n with
  | .aliasOf number =>
    modify (· + 1)
    if aliasLimit (← read) < (← get) then fail .endless
    match (← read).anchors.node? number with
    | some n => return n
    | none => fail .valueless
  | n => return n

end DocumentReader

namespace Node

def tag? : Node → Option Tag
  | scalar t _ _ | sequence t _ | mapping t _ => t
  | aliasOf _ => none

/--
The name of a tag that is the document's own.
-/
def ownTag? (n : Node) : Option String :=
  n.tag?.bind fun tag =>
    match tag with
    | [] => none
    | b :: rest =>
      if b = '!'.toNat.toUInt8 then
        String.fromUTF8? ⟨(if rest.isEmpty then tag else rest).toArray⟩
      else none

end Node

namespace Value

open DocumentReader

/--
What is said of a tag where none is expected.
-/
def tagProblem : String :=
  "untagged and internally tagged enums do not support enum input"

/--
Reads the value of a node that is no alias, without its own tag. Collections have their parts read
by `part?`; none may stand there if there is no such reader.
-/
def ofParts (part? : Option (Route → Node → DocumentReader Value)) (route : Route) (n : Node) :
    DocumentReader Value := do
  match n, part? with
  | .scalar tag? text plain, _ =>
    match Scalar.resolve (if n.ownTag?.isSome then none else tag?) text plain with
    | some s => return .scalar s
    | none => fail .valueless
  | .sequence _ items, some part =>
    let vs ← items.zipIdx.mapM fun (item, i) => part (route.item i) item
    return .sequence vs
  | .mapping _ entries, some part =>
    let vs ← entries.mapM fun (k, v) => do
      let key ← part route k
      let value ← part (route.ofKey k) v
      return (key, value)
    return .mapping vs
  | _, _ => fail .valueless

/--
Reads the value of a node, with its own tag if it has one and tags are expected.
-/
def ofTarget (withTags : Bool) (part? : Option (Route → Node → DocumentReader Value))
    (route : Route) (n : Node) : DocumentReader Value := do
  let n ← follow n
  if n.ownTag?.isSome && !withTags then unfit route tagProblem
  let v ← ofParts part? route n
  return n.ownTag?.elim v (.tagged · v)

/--
Reads the value of a node in which `depth` more collections may be nested.
-/
def ofNode (withTags : Bool) : (depth : Nat) → Route → Node → DocumentReader Value
  | 0 => ofTarget withTags none
  | depth + 1 => ofTarget withTags (some (ofNode withTags depth))

end Value

def Document.extract (d : Document) (r : DocumentReader α) : Except Issue α :=
  ((r.run d).run 0).map (·.1)

/--
The value of a document. A mapping must not have a key twice.
-/
def Document.value (d : Document) : Except Issue Value :=
  match d.root? with
  | none => .ok .null
  | some root =>
    match d.extract (Value.ofNode true DocumentReader.depthLimit Route.root root) with
    | .ok v => if v.isDistinct then .ok v else .error .valueless
    | .error e => .error e

end Interop.Yaml
