import Interop.Binding.Call

/-!
This module contains the binding of objects as classes around a native handle.
-/

namespace Interop.Binding

open Source (runtime opening closing indented)

def baseClass (t : Table) (o : ObjectType) : Result String :=
  match o.parent? with
  | none => .ok (runtime ++ ".NativeObject")
  | some parent =>
    match t.lookup parent with
    | .error e => .error (Fault.of (.symbol e))
    | .ok (.object base) => .ok base.identity.qualified
    | .ok other => .error (Fault.of (.parent o.identity.cname parent other.kind))

/--
The property with the runtime type, and the import that it needs.
-/
def typeProperty (o : ObjectType) : Source.Lines :=
  match o.getType? with
  | none => []
  | some getType =>
    (Import.lines ⟨o.identity.library, "IntPtr", getType, []⟩)
      ++ ["",
          "public static " ++ (if o.parent?.isSome then "new " else "") ++ runtime
            ++ ".GType GType " ++ opening,
          "\tget " ++ opening,
          "\t\treturn new " ++ runtime ++ ".GType (" ++ getType ++ " ());",
          "\t" ++ closing,
          closing,
          ""]

structure Member where
  method : Method
  shape : CallShape
  deriving Repr

def shapeMethods (t : Table) (what : String) : List Method → Result (List Member)
  | [] => .ok []
  | m :: ms => do
    let shape ← Fault.within s!"{what} `{m.cname}`" (CallShape.ofSignature t m.signature)
    let rest ← shapeMethods t what ms
    return ⟨m, shape⟩ :: rest

def shapeVirtuals (t : Table) : List VirtualMethod → Result (List (VirtualMethod × CallShape))
  | [] => .ok []
  | v :: vs => do
    let shape ← Fault.within s!"virtual method `{v.name}`" (CallShape.ofSignature t v.signature)
    let rest ← shapeVirtuals t vs
    return (v, shape) :: rest

/--
The types that a managed constructor takes. The constructor around a raw handle takes an address.
-/
def constructorTypes (m : Member) : String :=
  Source.commaSeparated (m.shape.visible.map (·.use.crossing.managed))

def handleTypes : String := "IntPtr"

/--
The constructors that are written, and those left out because one before them takes the same types;
`taken` holds the types of those before.
-/
def selectConstructors (taken : List String) : List Member → List Member × List Member
  | [] => ([], [])
  | m :: ms =>
    if constructorTypes m ∈ taken then
      let (written, skipped) := selectConstructors taken ms
      (written, m :: skipped)
    else
      let (written, skipped) := selectConstructors (constructorTypes m :: taken) ms
      (m :: written, skipped)

def statementLines (statements : List Statement) : Source.Lines :=
  [opening] ++ indented 1 (statements.map (·.text)) ++ [closing, ""]

def constructorImport (o : ObjectType) (m : Member) : Import :=
  ⟨o.identity.library, "IntPtr", m.method.cname, m.shape.importParams none⟩

def constructorBody (m : Member) : List Statement :=
  m.shape.callBody m.method.cname none (.assign "Raw")

def constructorLines (o : ObjectType) (m : Member) : Source.Lines :=
  (constructorImport o m).lines
    ++ ["",
        "public " ++ o.identity.name ++ " (" ++ m.shape.managedParams ++ ") : base (IntPtr.Zero)"]
    ++ statementLines (constructorBody m)

def methodImport (o : ObjectType) (m : Member) : Import :=
  ⟨o.identity.library, m.shape.boundaryReturn, m.method.cname,
   m.shape.importParams (if m.method.static then none else some (.address "raw"))⟩

def methodBody (m : Member) : List Statement :=
  m.shape.callBody m.method.cname (if m.method.static then none else some "Handle") .giveBack

def methodLines (o : ObjectType) (m : Member) : Source.Lines :=
  (methodImport o m).lines
    ++ ["",
        "public " ++ (if m.method.static then "static " else "") ++ m.shape.managedReturn ++ " "
          ++ Text.pascalCase m.method.name ++ " (" ++ m.shape.managedParams ++ ")"]
    ++ statementLines (methodBody m)

def virtualLines (v : VirtualMethod) (shape : CallShape) : Source.Lines :=
  ["[" ++ runtime ++ ".VirtualMethod (\"" ++ v.name ++ "\")]",
   "protected virtual " ++ shape.managedReturn ++ " On" ++ Text.pascalCase v.name ++ " ("
     ++ shape.managedParams ++ ")"]
    ++ statementLines (shape.returns?.toList.map (.giveBack ·.crossing.defaultValue))

structure ObjectPlan where
  base : String
  constructors : List Member
  skipped : List Member
  methods : List Member
  virtuals : List (VirtualMethod × CallShape)
  deriving Repr

def planObject (t : Table) (o : ObjectType) : Result ObjectPlan := do
  let base ← baseClass t o
  let constructors ← shapeMethods t "constructor" o.constructors
  let methods ← shapeMethods t "method" o.methods
  let virtuals ← shapeVirtuals t o.virtualMethods
  let (written, skipped) := selectConstructors [handleTypes] constructors
  return { base, constructors := written, skipped, methods, virtuals }

def objectSource (o : ObjectType) (p : ObjectPlan) : Source.Lines :=
  Source.banner ++ Source.openBoundNamespace o.identity.nameSpace
    ++ ["\tpublic partial class " ++ o.identity.name ++ " : " ++ p.base ++ " " ++ opening, ""]
    ++ indented 2
      (["public " ++ o.identity.name ++ " (IntPtr raw) : base (raw) " ++ opening ++ closing, ""]
        ++ typeProperty o
        ++ p.constructors.flatMap (constructorLines o)
        ++ p.methods.flatMap (methodLines o)
        ++ p.virtuals.flatMap (fun (v, shape) => virtualLines v shape))
    ++ ["\t" ++ closing, closing]

def objectCounts (o : ObjectType) (p : ObjectPlan) : Counts :=
  { constructors := p.constructors.length
    methods := p.methods.length
    virtualMethods := p.virtuals.length
    properties := if o.getType?.isSome then 1 else 0 }

def bindObject (t : Table) (o : ObjectType) : Result Emitted := do
  let p ← planObject t o
  return {
    managed? := some ⟨o.identity.name, Source.text (objectSource o p)⟩
    counts := objectCounts o p }

end Interop.Binding
