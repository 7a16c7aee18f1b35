import Interop.Binding.Basic

/-!
This module contains the binding of structures: where each field lies in the managed layout, how it
is exposed, and the source that follows from it.
-/

namespace Interop.Binding

open Source (runtime opening closing indented)

/--
How a field is laid out and exposed.
-/
inductive Storage where
  /-- A public field, the same on both sides. -/
  | plain
  /-- A private raw field behind a property that converts both ways. -/
  | accessor
  /-- A private raw field behind a property that can only be read. -/
  | getter
  /-- A public field with the raw address. -/
  | rawAddress
  /-- A private field that only takes its place. -/
  | hidden
  /-- A member of the packing unit of this number; the first member of a unit holds it. -/
  | bitfield (unit : Nat) (first : Bool)
  deriving DecidableEq, Repr

def Storage.isBitfield : Storage → Bool
  | bitfield _ _ => true
  | _ => false

def Storage.ofUse (field : Field) (use : Use) : Storage :=
  if field.hidden then hidden
  else if use.crossing.isDirect then plain
  else if (use.crossing.accessors? "").isSome then accessor
  else
    match use.type with
    | .object _ | .struct _ => getter
    | .simple t => if t.utf8 && use.depth == 1 then getter else rawAddress
    | _ => rawAddress

structure FieldPlan where
  field : Field
  use : Use
  storage : Storage
  deriving Repr

def unitBits : Nat := 32

/--
The packing unit that is being filled.
-/
structure Packing where
  /-- The number of units so far. -/
  unit : Nat
  /-- The bits taken in the last unit, if the next bitfield may join it. -/
  used? : Option Nat
  deriving DecidableEq, Repr

/--
Places a bitfield of some width: into the unit being filled if it fits, else into a new one.
-/
def Packing.place (p : Packing) (bits : Nat) : Storage × Packing :=
  match p.used? with
  | some used =>
    if used + bits ≤ unitBits then (.bitfield p.unit false, ⟨p.unit, some (used + bits)⟩)
    else (.bitfield (p.unit + 1) true, ⟨p.unit + 1, some bits⟩)
  | none => (.bitfield (p.unit + 1) true, ⟨p.unit + 1, some bits⟩)

def planFields (p : Packing) : List (Field × Use) → List FieldPlan
  | [] => []
  | (field, use) :: rest =>
    match field.bits with
    | some bits =>
      let (storage, p) := p.place bits
      ⟨field, use, storage⟩ :: planFields p rest
    | none => ⟨field, use, .ofUse field use⟩ :: planFields ⟨p.unit, none⟩ rest

def resolveFields (t : Table) (s : StructType) : List Field → Result (List (Field × Use))
  | [] => .ok []
  | f :: fs => do
    let use ← Fault.within s!"field `{f.name}` of `{s.identity.cname}`" (resolve t f.ctype)
    let rest ← resolveFields t s fs
    return (f, use) :: rest

def plan (t : Table) (s : StructType) : Result (List FieldPlan) :=
  (resolveFields t s s.fields).map (planFields ⟨0, none⟩)

structure LayoutMember where
  isPublic : Bool
  type : String
  name : String
  deriving DecidableEq, Repr

def LayoutMember.text (m : LayoutMember) : String :=
  (if m.isPublic then "public " else "private ") ++ m.type ++ " " ++ m.name ++ ";"

namespace FieldPlan

def property (p : FieldPlan) : String :=
  Text.pascalCase p.field.name

def rawName (p : FieldPlan) : String :=
  "_" ++ p.field.name

/--
The name of the managed field that holds this one, if it has a field of its own.
-/
def layoutName? (p : FieldPlan) : Option String :=
  match p.storage with
  | .plain | .rawAddress => some p.property
  | .accessor | .getter | .hidden => some p.rawName
  | .bitfield unit true => some s!"_bitfield{unit}"
  | .bitfield _ false => none

def layoutMember? (p : FieldPlan) : Option LayoutMember :=
  p.layoutName?.map fun name =>
    match p.storage with
    | .plain => ⟨true, p.use.crossing.managed, name⟩
    | .rawAddress => ⟨true, "IntPtr", name⟩
    | .hidden | .accessor => ⟨false, p.use.crossing.boundary, name⟩
    | .getter => ⟨false, "IntPtr", name⟩
    | .bitfield _ _ => ⟨false, "uint", name⟩

def propertyLines (p : FieldPlan) : Source.Lines :=
  let body :=
    match p.storage with
    | .accessor => p.use.crossing.accessors? p.rawName
    | .getter =>
      some ["get " ++ opening, "\treturn " ++ p.use.crossing.fromNative p.rawName ++ ";", closing]
    | _ => none
  match body with
  | some body =>
    ["public " ++ p.use.crossing.managed ++ " " ++ p.property ++ " " ++ opening]
      ++ indented 1 body ++ [closing]
  | none => []

def memberLines (p : FieldPlan) : Source.Lines :=
  match p.layoutMember? with
  | some member => [member.text] ++ p.propertyLines ++ [""]
  | none => []

/--
Whether native code has to read and write the field for managed code.
-/
def needsGlue (p : FieldPlan) : Bool :=
  p.storage.isBitfield && !p.field.hidden

end FieldPlan

def accessorSymbol (s : StructType) (verb field : String) : String :=
  "gapi_" ++ Text.snakeCase s.identity.cname ++ "_" ++ verb ++ "_" ++ field

def bitfieldImports (gluelib : String) (s : StructType) (p : FieldPlan) : List Import :=
  let boundary := p.use.crossing.boundary
  [⟨gluelib, boundary, accessorSymbol s "get" p.field.name, [.address "raw"]⟩,
   ⟨gluelib, "void", accessorSymbol s "set" p.field.name,
    [.address "raw", ⟨false, boundary, "value"⟩]⟩]

def bitfieldGlue (s : StructType) (p : FieldPlan) : List GlueFunction :=
  let subject := s.identity.cname ++ " *s"
  [⟨p.field.ctype, accessorSymbol s "get" p.field.name, [subject],
    "return s->" ++ p.field.name ++ ";"⟩,
   ⟨"void", accessorSymbol s "set" p.field.name, [subject, p.field.ctype ++ " value"],
    "s->" ++ p.field.name ++ " = value;"⟩]

/--
The imports and the property of a bitfield. It is read and written on a native copy of the
structure.
-/
def bitfieldLines (gluelib : String) (s : StructType) (p : FieldPlan) : Source.Lines :=
  let crossing := p.use.crossing
  let copyOut := "IntPtr raw = " ++ runtime ++ ".Marshaller.StructureToPtr (this);"
  let free := runtime ++ ".Marshaller.Free (raw);"
  (bitfieldImports gluelib s p).flatMap (·.lines)
    ++ ["",
        "public " ++ crossing.managed ++ " " ++ p.property ++ " " ++ opening,
        "\tget " ++ opening,
        "\t\t" ++ copyOut,
        "\t\t" ++ crossing.boundary ++ " ret = " ++ accessorSymbol s "get" p.field.name
          ++ " (raw);",
        "\t\t" ++ free,
        "\t\treturn " ++ crossing.fromNative "ret" ++ ";",
        "\t" ++ closing,
        "\tset " ++ opening,
        "\t\t" ++ copyOut,
        "\t\t" ++ accessorSymbol s "set" p.field.name ++ " (raw, " ++ crossing.toNative "value"
          ++ ");",
        "\t\tthis = " ++ s.identity.qualified ++ ".New (raw);",
        "\t\t" ++ free,
        "\t" ++ closing,
        closing,
        ""]

def fieldLines (gluelib : String) (s : StructType) (p : FieldPlan) : Source.Lines :=
  p.memberLines ++ if p.needsGlue then bitfieldLines gluelib s p else []

/--
The members that every managed structure has.
-/
def structMembers (qualified : String) : Source.Lines :=
  ["public static " ++ qualified ++ " Zero = new " ++ qualified ++ " ();",
   "",
   "public static " ++ qualified ++ " New (IntPtr raw)",
   opening,
   "\tif (raw == IntPtr.Zero)",
   "\t\treturn " ++ qualified ++ ".Zero;",
   "\treturn (" ++ qualified ++ ") Marshal.PtrToStructure (raw, typeof (" ++ qualified ++ "));",
   closing]

def structSource (gluelib : String) (s : StructType) (plans : List FieldPlan) : Source.Lines :=
  Source.banner ++ Source.openBoundNamespace s.identity.nameSpace
    ++ ["\t[StructLayout (LayoutKind.Sequential)]",
        "\tpublic partial struct " ++ s.identity.name ++ " " ++ opening, ""]
    ++ indented 2 (plans.flatMap (fieldLines gluelib s))
    ++ indented 2 (structMembers s.identity.qualified)
    ++ ["\t" ++ closing, closing]

def structGlue (s : StructType) (plans : List FieldPlan) : List (List GlueFunction) :=
  (plans.filter (·.needsGlue)).map (bitfieldGlue s)

def structCounts (plans : List FieldPlan) : Counts :=
  { properties := plans.countP fun p =>
      p.needsGlue || p.storage == .accessor || p.storage == .getter
    glueFunctions := 2 * plans.countP (·.needsGlue) }

def bindStruct (t : Table) (gluelib : String) (s : StructType) : Result Emitted := do
  let plans ← plan t s
  let glue := (structGlue s plans).flatMap GlueFunction.lines
  return {
    managed? := some ⟨s.identity.name, Source.text (structSource gluelib s plans)⟩
    glue? := if glue.isEmpty then none else some (Source.text glue)
    counts := structCounts plans }

end Interop.Binding
