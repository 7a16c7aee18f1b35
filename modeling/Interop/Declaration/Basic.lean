import Interop.Declaration.Decode
import Interop.Descriptor

/-!
This module contains declarations of types as documents write them, and the descriptors that they
declare. A declaration does not know its namespace and its library; the document does.
-/

namespace Interop

open Yaml (Value)
open Decode

/--
How a declaration writes the length of an array.
-/
inductive LengthText where
  | param (name : String)
  | keyword (word : String)
  deriving DecidableEq, Repr

structure ArrayDeclaration where
  cname : String
  element : String
  length : LengthText
  deriving DecidableEq, Repr

inductive Declaration where
  | simple (type : SimpleType)
  | long (type : LongType)
  | enum (type : EnumType)
  | struct (type : StructType)
  | object (type : ObjectType)
  | array (type : ArrayDeclaration)
  | callback (type : CallbackType)
  deriving DecidableEq, Repr

structure DeclarationFault where
  cname : String
  problem : String
  deriving DecidableEq, Repr

namespace Declaration

def kindNames : List String :=
  ["simple", "long", "enum", "struct", "object", "array", "callback"]

def nameless : Identity := ⟨"", "", "", ""⟩

def emptySignature : Signature := ⟨"void", []⟩

def parameterSpec : RecordSpec Parameter where
  name := "struct RawParam"
  fields := [required "name", required "type", optionalField "scope"]
  initial := ⟨"", "", .call⟩
  set p field v :=
    match field with
    | "name" => return { p with name := ← text v }
    | "type" => return { p with ctype := ← text v }
    | _ => do
      let index ← word ["call", "forever"] v
      return { p with lifetime := if index = 0 then .call else .forever }

def parameters (v : Value) : Result (List Parameter) :=
  list parameterSpec.decode v

def fieldSpec : RecordSpec Field where
  name := "struct RawField"
  fields := [required "name", required "type", optionalField "bits", optionalField "access"]
  initial := ⟨"", "", none, false⟩
  set f field v :=
    match field with
    | "name" => return { f with name := ← text v }
    | "type" => return { f with ctype := ← text v }
    | "bits" => return { f with bits := ← Decode.optional byte v }
    | _ => return { f with hidden := (← word ["public", "private"] v) = 1 }

def memberSpec : RecordSpec EnumMember where
  name := "struct RawMember"
  fields := [required "name", required "value"]
  initial := ⟨"", 0⟩
  set m field v :=
    match field with
    | "name" => return { m with name := ← text v }
    | _ => return { m with value := ← int64 v }

def methodSpec : RecordSpec (Option String × Method) where
  name := "struct RawMethod"
  fields :=
    [optionalField "name", required "cname", optionalField "return", optionalField "params",
     optionalField "static"]
  initial := (none, ⟨"", "", emptySignature, false⟩)
  set := fun (name?, m) field v =>
    match field with
    | "name" => return (← Decode.optional text v, m)
    | "cname" => return (name?, { m with cname := ← text v })
    | "return" => return (name?, { m with signature.returns := ← text v })
    | "params" => return (name?, { m with signature.params := ← parameters v })
    | _ => return (name?, { m with static := ← bool v })

/--
A method without a name bears that of its function.
-/
def method (v : Value) : Result Method := do
  let (name?, m) ← methodSpec.decode v
  return { m with name := name?.getD m.cname }

def virtualMethodSpec : RecordSpec VirtualMethod where
  name := "struct RawVirtual"
  fields := [required "name", optionalField "return", optionalField "params"]
  initial := ⟨"", emptySignature⟩
  set m field v :=
    match field with
    | "name" => return { m with name := ← text v }
    | "return" => return { m with signature.returns := ← text v }
    | _ => return { m with signature.params := ← parameters v }

def simpleSpec : RecordSpec (Option String × SimpleType) where
  name := "struct RawSimple"
  fields :=
    [required "cname", required "managed", optionalField "marshal", optionalField "default"]
  initial := (none, ⟨"", "", none, "", false⟩)
  set := fun (default?, t) field v =>
    match field with
    | "cname" => return (default?, { t with cname := ← text v })
    | "managed" => return (default?, { t with managed := ← text v })
    | "marshal" => return (default?, { t with boundary? := ← Decode.optional text v })
    | _ => return (← Decode.optional text v, t)

def simpleType (v : Value) : Result SimpleType := do
  let (default?, t) ← simpleSpec.decode v
  return { t with defaultValue := default?.getD ("default (" ++ t.managed ++ ")") }

def longSpec : RecordSpec LongType where
  name := "struct RawLong"
  fields := [required "cname", optionalField "unsigned"]
  initial := ⟨"", false⟩
  set t field v :=
    match field with
    | "cname" => return { t with cname := ← text v }
    | _ => return { t with unsigned := ← bool v }

def enumSpec : RecordSpec EnumType where
  name := "struct RawEnum"
  fields :=
    [required "cname", required "name", optionalField "width", optionalField "signed",
     optionalField "flags", optionalField "members", optionalField "abi_check"]
  initial := ⟨nameless, 32, true, false, [], true⟩
  set t field v :=
    match field with
    | "cname" => return { t with identity.cname := ← text v }
    | "name" => return { t with identity.name := ← text v }
    | "width" => return { t with width := ← byte v }
    | "signed" => return { t with signed := ← bool v }
    | "flags" => return { t with flags := ← bool v }
    | "members" => return { t with members := ← list memberSpec.decode v }
    | _ => return { t with abiCheck := ← bool v }

def structSpec : RecordSpec StructType where
  name := "struct RawStruct"
  fields :=
    [required "cname", required "name", optionalField "fields", optionalField "abi_check"]
  initial := ⟨nameless, [], true⟩
  set t field v :=
    match field with
    | "cname" => return { t with identity.cname := ← text v }
    | "name" => return { t with identity.name := ← text v }
    | "fields" => return { t with fields := ← list fieldSpec.decode v }
    | _ => return { t with abiCheck := ← bool v }

def objectSpec : RecordSpec ObjectType where
  name := "struct RawObject"
  fields :=
    [required "cname", required "name", optionalField "parent", optionalField "get_type",
     optionalField "constructors", optionalField "methods", optionalField "virtual_methods"]
  initial := ⟨nameless, none, none, [], [], []⟩
  set t field v :=
    match field with
    | "cname" => return { t with identity.cname := ← text v }
    | "name" => return { t with identity.name := ← text v }
    | "parent" => return { t with parent? := ← Decode.optional text v }
    | "get_type" => return { t with getType? := ← Decode.optional text v }
    | "constructors" => return { t with constructors := ← list method v }
    | "methods" => return { t with methods := ← list method v }
    | _ => return { t with virtualMethods := ← list virtualMethodSpec.decode v }

/--
A mapping with the parameter's name, or a word.
-/
def lengthText (v : Value) : Result LengthText :=
  match v with
  | .scalar (.text word) => .ok (.keyword word)
  | .mapping entries =>
    match (paramSpec.ofEntries "" [] entries) with
    | .ok name => .ok (.param name)
    | .error _ => .error noMatch
  | _ => .error noMatch
where
  noMatch : String := "data did not match any variant of untagged enum RawLength"
  paramSpec : RecordSpec String :=
    { name := "", fields := [required "param"], initial := "", set := fun _ _ v => text v }

def arraySpec : RecordSpec ArrayDeclaration where
  name := "struct RawArray"
  fields := [required "cname", required "element", required "length"]
  initial := ⟨"", "", .keyword ""⟩
  set t field v :=
    match field with
    | "cname" => return { t with cname := ← text v }
    | "element" => return { t with element := ← text v }
    | _ => return { t with length := ← lengthText v }

def callbackSpec : RecordSpec CallbackType where
  name := "struct RawCallback"
  fields :=
    [required "cname", required "name", optionalField "return", optionalField "params"]
  initial := ⟨nameless, emptySignature⟩
  set t field v :=
    match field with
    | "cname" => return { t with identity.cname := ← text v }
    | "name" => return { t with identity.name := ← text v }
    | "return" => return { t with signature.returns := ← text v }
    | _ => return { t with signature.params := ← parameters v }

def decode (kind : Kind) (v : Value) : Result Declaration :=
  match kind with
  | .simple => (simpleType v).map simple
  | .long => (longSpec.decode v).map long
  | .enum => (enumSpec.decode v).map enum
  | .struct => (structSpec.decode v).map struct
  | .object => (objectSpec.decode v).map object
  | .array => (arraySpec.decode v).map array
  | .callback => (callbackSpec.decode v).map callback

def kindOf? (name : String) : Option Kind :=
  [Kind.simple, .long, .enum, .struct, .object, .array, .callback].find? (·.name = name)

def widths : List Nat := [8, 16, 32, 64]

/--
The first bitfield whose width no field can have.
-/
def wrongBitfield? (fields : List Field) : Option Field :=
  fields.find? fun f => f.bits.any fun bits => bits = 0 || 32 < bits

/--
The descriptor that is declared, in its namespace and for its library.
-/
def settle (nameSpace library : String) : Declaration → Except DeclarationFault Descriptor
  | simple t => .ok (.simple t)
  | long t => .ok (.long t)
  | enum t =>
    if t.width ∈ widths then .ok (.enum { t with identity := place t.identity })
    else
      .error ⟨t.identity.cname, s!"unsupported enum width {t.width} (expected 8, 16, 32 or 64)"⟩
  | struct t =>
    match wrongBitfield? t.fields with
    | some f => .error ⟨t.identity.cname, s!"bitfield `{f.name}` must be 1 to 32 bits wide"⟩
    | none => .ok (.struct { t with identity := place t.identity })
  | object t => .ok (.object { t with identity := place t.identity })
  | array t =>
    match t.length with
    | .param name => .ok (.array ⟨t.cname, t.element, .param name⟩)
    | .keyword word =>
      if word = "null_terminated" then .ok (.array ⟨t.cname, t.element, .nullTerminated⟩)
      else
        .error ⟨t.cname,
          "unknown array length policy `" ++ word
            ++ "` (expected `null_terminated` or `\x7b param: <name> \x7d`)"⟩
  | callback t => .ok (.callback { t with identity := place t.identity })
where
  place (i : Identity) : Identity := { i with nameSpace, library }

end Declaration

end Interop
