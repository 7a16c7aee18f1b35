import Interop.Declaration.Basic
import Interop.Declaration.Schema
import Interop.Files.Path

/-!
This module contains the reading of documents that declare the types of a namespace, and of schemas.
-/

namespace Interop

open Yaml

/--
Why a text is not the document that it should be.
-/
inductive SyntaxFault where
  /-- It is no YAML, or has no value. -/
  | malformed
  /-- More than one document stands in it. -/
  | severalDocuments
  /-- Its aliases lead to too many values. -/
  | endless
  /-- It has a value, a part of which is not what it should be. -/
  | unfit (problem : String)
  deriving DecidableEq, Repr

def SyntaxFault.message : SyntaxFault → String
  | malformed => "malformed document"
  | severalDocuments =>
    "deserializing from YAML containing more than one document is not supported"
  | endless => "repetition limit exceeded"
  | unfit problem => problem

/--
Why a document cannot be used. Documents are named by `source`.
-/
inductive LoadError where
  | unreadable (path : Path)
  | syntactic (source : String) (fault : SyntaxFault)
  | violating (source : String) (violations : List String)
  | invalid (source : String) (fault : DeclarationFault)
  deriving DecidableEq, Repr

def LoadError.message : LoadError → String
  | unreadable path => "failed to read " ++ path.text
  | syntactic source fault => source ++ ": " ++ fault.message
  | violating source violations =>
    source ++ ": schema validation failed (" ++ toString violations.length ++ " violation(s))"
  | invalid source fault =>
    source ++ ": invalid declaration of `" ++ fault.cname ++ "`: " ++ fault.problem

/--
A document as written.
-/
structure DeclarationFile where
  nameSpace : String
  library? : Option String
  declarations : List Declaration
  deriving DecidableEq, Repr

namespace DeclarationFile

open DocumentReader

def complain (route : Route) (n : Node) (expected : String) : DocumentReader α := do
  match n with
  | .scalar tag? text plain =>
    match Scalar.resolve tag? text plain with
    | some s => unfit route s!"invalid type: {s.describe}, expected {expected}"
    | none => fail .valueless
  | .sequence _ _ => unfit route s!"invalid type: sequence, expected {expected}"
  | .mapping _ _ => unfit route s!"invalid type: map, expected {expected}"
  | .aliasOf _ => fail .valueless

/--
The text of a scalar, whatever it means.
-/
def textOf (route : Route) (n : Node) (expected : String) : DocumentReader String := do
  match ← follow n with
  | .scalar _ text _ => return text
  | n => complain route n expected

def text (route : Route) (n : Node) : DocumentReader String :=
  textOf route n "a string"

def textOrNull (route : Route) (n : Node) : DocumentReader (Option String) := do
  match ← follow n with
  | .scalar tag? s plain =>
    if !plain then return some s
    else
      match tag? with
      | none => return if s = "" ∨ (Scalar.null? s).isSome then none else some s
      | some tag =>
        if tag ≠ Scalar.coreTag "null" then return some s
        else if (Scalar.null? s).isSome then return none
        else fail .valueless
  | n => return some (← text route n)

/--
Whether a node is a plain scalar without any text, which stands for an empty collection too.
-/
def isAbsent : Node → Bool
  | .scalar _ text plain => text = "" && plain
  | _ => false

def sequenceOf (route : Route) (n : Node) (item : Route → Node → DocumentReader α) :
    DocumentReader (List α) := do
  match ← follow n with
  | .sequence _ items => items.zipIdx.mapM fun (n, i) => item (route.item i) n
  | n => if isAbsent n then return [] else complain route n "a sequence"

def texts (route : Route) (n : Node) : DocumentReader (List String) :=
  sequenceOf route n text

def fields (route : Route) (n : Node) (expected : String) :
    DocumentReader (List (Node × Node)) := do
  match ← follow n with
  | .mapping _ entries => return entries
  | n => if isAbsent n then return [] else complain route n expected

def record (route : Route) (known : List String)
    (set : α → String → Route → Node → DocumentReader α) (acc : α)
    (seen : List String) : List (Node × Node) → DocumentReader (α × List String)
  | [] => return (acc, seen)
  | (k, v) :: es => do
    let name ← textOf route k "field identifier"
    if !known.contains name then record route known set acc seen es
    else if seen.contains name then unfit route (Decode.duplicateField name)
    else
      let acc ← set acc name (route.ofKey k) v
      record route known set acc (name :: seen) es

/--
The depth that is left for the value of a declaration.
-/
def entryDepth : Nat := depthLimit - 2

def kind (route : Route) (n : Node) : DocumentReader Kind := do
  let name ← textOf route n "variant identifier"
  match Declaration.kindOf? name with
  | some kind => return kind
  | none => unfit route (Decode.unknownVariant name Declaration.kindNames)

/--
The kind and the other fields of a declaration written as a mapping.
-/
def splitEntries (route : Route) (kind? : Option Kind) (content : List (Value × Value)) :
    List (Node × Node) → DocumentReader (Kind × Value)
  | [] => do
    match kind? with
    | some kind => return (kind, .mapping content.reverse)
    | none => unfit route (Decode.missingField "kind")
  | (k, v) :: es => do
    let key ← Value.ofNode false (entryDepth - 1) route k
    if key.isText "kind" then
      if kind?.isSome then unfit route (Decode.duplicateField "kind")
      let kind ← kind (route.ofKey k) v
      splitEntries route (some kind) content es
    else
      let value ← Value.ofNode false (entryDepth - 1) (route.ofKey k) v
      splitEntries route kind? ((key, value) :: content) es

/--
The kind and the content of a declaration: a mapping, or a sequence with the kind in front.
-/
def split (route : Route) (n : Node) : DocumentReader (Kind × Value) := do
  let n ← follow n
  let expected := "internally tagged enum RawType"
  if n.ownTag?.isSome then unfit route s!"invalid type: enum, expected {expected}"
  match n with
  | .mapping _ entries => splitEntries route none [] entries
  | .sequence _ [] => unfit route (Decode.missingField "kind")
  | .sequence _ (first :: rest) =>
    let kind ← kind (route.item 0) first
    let vs ← rest.zipIdx.mapM fun (n, i) =>
      Value.ofNode false (entryDepth - 1) (route.item (i + 1)) n
    return (kind, .sequence vs)
  | n => complain route n expected

def declaration (types : Route) (route : Route) (n : Node) : DocumentReader Declaration := do
  let (kind, content) ← split route n
  match Declaration.decode kind content with
  | .ok d => return d
  | .error problem => unfit types problem

def fieldNames : List String := ["namespace", "library", "types"]

def ofRoot (root? : Option Node) : DocumentReader DeclarationFile := do
  let entries ←
    match root? with
    | none => pure []
    | some root => fields Route.root root "struct RawDocument"
  let (file, seen) ← record Route.root fieldNames set ⟨"", none, []⟩ [] entries
  if seen.contains "namespace" then return file
  else unfit Route.root (Decode.missingField "namespace")
where
  set (file : DeclarationFile) (name : String) (route : Route) (v : Node) :
      DocumentReader DeclarationFile := do
    match name with
    | "namespace" => return { file with nameSpace := ← text route v }
    | "library" => return { file with library? := ← textOrNull route v }
    | _ => return { file with declarations := ← sequenceOf route v (declaration route) }

/--
The descriptors that the document declares. A document without a library is one of the library that
bears the namespace's name.
-/
def descriptors (f : DeclarationFile) : Except DeclarationFault (List Descriptor) :=
  f.declarations.mapM (·.settle f.nameSpace (f.library?.getD f.nameSpace))

end DeclarationFile

namespace Schema

open DocumentReader DeclarationFile

/--
The keys required of every kind. Of a kind that is there twice the last entry counts.
-/
def requirements (route : Route) (n : Node) : DocumentReader (List (String × List String)) := do
  match ← follow n with
  | .mapping _ entries => collect [] entries
  | n => if isAbsent n then return [] else complain route n "a map"
where
  collect (acc : List (String × List String)) :
      List (Node × Node) → DocumentReader (List (String × List String))
    | [] => return acc
    | (k, v) :: es => do
      let kind ← text route k
      let keys ← texts (route.ofKey k) v
      collect ((kind, keys) :: acc.filter (·.1 ≠ kind)) es

def fieldNames : List String := ["document", "kinds", "required"]

def ofRoot (root? : Option Node) : DocumentReader Schema := do
  let entries ←
    match root? with
    | none => pure []
    | some root => fields Route.root root "struct Schema"
  return (← record Route.root fieldNames set .empty [] entries).1
where
  set (s : Schema) (name : String) (route : Route) (v : Node) : DocumentReader Schema := do
    match name with
    | "document" => return { s with document := ← texts route v }
    | "kinds" => return { s with kinds := ← texts route v }
    | _ => return { s with required := ← requirements route v }

end Schema

/--
What an issue says of the whole text. What is unfit is told only of a text that has a value.
-/
def Issue.fault (hasValue : Bool) : Issue → SyntaxFault
  | .valueless => .malformed
  | .endless => .endless
  | .unfit route problem =>
    if hasValue then .unfit (if route = Route.root then problem else route ++ ": " ++ problem)
    else .malformed

def readDocument (text : String) (r : Option Node → DocumentReader α) : Except SyntaxFault α :=
  match Reading.ofText text with
  | .malformed => .error .malformed
  | .document d more =>
    match d.extract (r d.root?) with
    | .ok a => if more then .error .severalDocuments else .ok a
    | .error issue => .error (Issue.fault (!more && d.value.isOk) issue)

def readValue (text : String) : Except SyntaxFault Value :=
  match Reading.ofText text with
  | .malformed => .error .malformed
  | .document d more =>
    match d.value with
    | .ok v => if more then .error .severalDocuments else .ok v
    | .error issue => .error (Issue.fault false issue)

def Schema.ofText (source text : String) : Except LoadError Schema :=
  (readDocument text Schema.ofRoot).mapError (.syntactic source)

/--
The types that a document declares, in order. A document that violates the schema is not read
further.
-/
def parseDocument (source text : String) (schema? : Option Schema) :
    Except LoadError (List Descriptor) := do
  match schema? with
  | none => pure ()
  | some schema =>
    let value ← (readValue text).mapError (.syntactic source)
    let violations := schema.check value
    if !violations.isEmpty then throw (.violating source violations)
  let file ← (readDocument text DeclarationFile.ofRoot).mapError (.syntactic source)
  file.descriptors.mapError (.invalid source)

end Interop
