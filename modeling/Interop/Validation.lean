import Interop.Table
import Interop.Text.Distance

/-!
This module contains the validation of descriptors: a type can be generated if every name that can
be reached from it is registered and every type so reached is sound in itself.
-/

namespace Interop

/--
Why a type was excluded.
-/
structure ValidationError where
  /-- The type that was checked. -/
  symbol : String
  /-- The name that is not registered, or the type that is malformed. -/
  missing : String
  /-- The types on the way from `symbol` to `missing`, outermost first. -/
  via : List String
  /-- The closest registered name. -/
  suggestion? : Option String
  /-- What is wrong with `missing`, if it is not its absence. -/
  detail? : Option String
  deriving DecidableEq, Repr

namespace ValidationError

def unresolved (symbol missing : String) : ValidationError :=
  { symbol, missing, via := [], suggestion? := none, detail? := none }

def malformed (symbol detail : String) : ValidationError :=
  { symbol, missing := symbol, via := [], suggestion? := none, detail? := some detail }

def message (e : ValidationError) : String :=
  let fault :=
    match e.detail? with
    | some detail => "`" ++ e.symbol ++ "` is malformed: " ++ detail
    | none => "`" ++ e.symbol ++ "` references unresolved type `" ++ e.missing ++ "`"
  if e.via.isEmpty then fault
  else fault ++ " (via " ++ String.intercalate " -> " e.via ++ ")"

end ValidationError

namespace Validation

/--
The arrays of a signature that are counted by a parameter have that parameter beside them. The
result tells what is wrong with the first one that has not.
-/
def signatureFault? (t : Table) (function : String) (s : Signature) : Option String :=
  let carriers := s.params.map (fun p => (some p.name, p.ctype)) ++ [(none, s.returns)]
  carriers.findSome? fun (carrier, ctype) =>
    match t.get? ctype with
    | some (.array a) =>
      match a.lengthParam? with
      | some length =>
        if s.params.any fun p => p.name = length && some p.name != carrier then none
        else some s!"`{function}` passes array `{a.cname}` without its length parameter `{length}`"
      | none => none
    | _ => none

/--
The arrays among a structure's fields that are counted by a field have that field beside them.
-/
def fieldsFault? (t : Table) (s : StructType) : Option String :=
  s.fields.findSome? fun f =>
    match t.get? f.ctype with
    | some (.array a) =>
      match a.lengthParam? with
      | some length =>
        if s.fields.any (·.name = length) then none
        else some s!"field `{f.name}` is counted by missing field `{length}`"
      | none => none
    | _ => none

/--
An object derives from objects alone. A parent that is not registered is not judged here.
-/
def parentFault? (t : Table) (o : ObjectType) : Option String :=
  match o.parent? with
  | none => none
  | some parent =>
    match t.get? parent with
    | none | some (.object _) => none
    | some other => some s!"parent `{parent}` is a {other.kind.name} and not an object"

/--
What is wrong with a type apart from the names that it refers to.
-/
def structureFault? (t : Table) : Descriptor → Option String
  | .object o =>
    (parentFault? t o).or <|
      (o.functions.findSome? fun m => signatureFault? t m.cname m.signature).or <|
        o.virtualMethods.findSome? fun v => signatureFault? t v.name v.signature
  | .callback c => signatureFault? t c.identity.cname c.signature
  | .struct s => fieldsFault? t s
  | _ => none

/--
Why a type cannot be generated.
-/
structure Failure where
  missing : String
  via : List String
  detail? : Option String
  deriving DecidableEq, Repr

/--
The failure as seen from a type that depends on `name`.
-/
def Failure.through (f : Failure) (name : String) : Failure :=
  if f.missing = name ∧ f.via = [] then f else { f with via := name :: f.via }

/--
What earlier checks and the check under way have found out.
-/
structure Knowledge where
  /-- The types that are known to fail. -/
  failed : List (String × Failure)
  /-- The types that are known to be valid. -/
  valid : List String
  /-- The types found valid on the way, if the check under way succeeds. -/
  explored : List String
  /-- The names met again while they were being checked, the latest first. -/
  revisited : List String
  deriving DecidableEq, Repr

def Knowledge.initial : Knowledge :=
  { failed := [], valid := [], explored := [], revisited := [] }

mutual

/--
Checks the type that `ref` refers to. A name on the `path` from the root counts as valid: the check
that it belongs to is still under way.
-/
def checkName (t : Table) (path : List String) (k : Knowledge) (ref : String) :
    Option Failure × Knowledge :=
  let name := Reference.core ref
  match k.failed.lookup name with
  | some f => (some f, k)
  | none =>
    if name ∈ k.valid ∨ name ∈ k.explored then (none, k)
    else if _hp : name ∈ path then (none, { k with revisited := name :: k.revisited })
    else
      match _h : t.find? name with
      | none => (some ⟨name, [], none⟩, k)
      | some d =>
        match checkType t (name :: path) k d with
        | (some f, k) => (some f, { k with failed := (name, f) :: k.failed })
        | (none, k) => (none, { k with explored := name :: k.explored })
termination_by (t.unseen path, 0)
decreasing_by
  have hn : d.cname = Reference.core ref := Table.cname_of_find? _h
  rw [← hn]
  exact .left _ _ (Table.unseen_cons_lt (Table.mem_of_find? _h) (hn ▸ _hp))

/--
Checks the dependencies of a type, then the type itself.
-/
def checkType (t : Table) (path : List String) (k : Knowledge) (d : Descriptor) :
    Option Failure × Knowledge :=
  match checkAll t path k d.dependencies with
  | (some f, k) => (some f, k)
  | (none, k) => ((structureFault? t d).map fun detail => ⟨d.cname, [], some detail⟩, k)
termination_by (t.unseen path, d.dependencies.length + 2)

/--
Checks references in order up to the first that fails.
-/
def checkAll (t : Table) (path : List String) (k : Knowledge) (refs : List String) :
    Option Failure × Knowledge :=
  match refs with
  | [] => (none, k)
  | ref :: refs =>
    match checkName t path k ref with
    | (some f, k) => (some (f.through (Reference.core ref)), k)
    | (none, k) => checkAll t path k refs
termination_by (t.unseen path, refs.length + 1)

end

/--
What is kept of the types explored under a root: they are valid if the root is, and until then rest
on names that were still being checked.
-/
def Knowledge.settle (k : Knowledge) (outcome : Option Failure) : Knowledge :=
  { k with
    valid := if outcome.isNone then k.explored ++ k.valid else k.valid
    explored := [] }

/--
Checks one type. A type that is not the registered one of its name is checked without being known to
the others.
-/
def check (t : Table) (k : Knowledge) (d : Descriptor) : Option ValidationError × Knowledge :=
  let (outcome, k) :=
    if t.get? d.cname = some d then checkName t [] k d.cname else checkType t [d.cname] k d
  (outcome.map report, k.settle outcome)
where
  report (f : Failure) : ValidationError :=
    { symbol := d.cname
      missing := f.missing
      via := f.via
      suggestion? := if f.detail?.isNone then Text.closest? f.missing t.names else none
      detail? := f.detail? }

def validate (t : Table) (k : Knowledge) (d : Descriptor) : Bool × Knowledge :=
  match check t k d with
  | (e?, k) => (e?.isNone, k)

/--
The valid types in their order, and the errors of the others.
-/
structure Partition where
  valid : List Descriptor
  invalid : List ValidationError
  deriving DecidableEq, Repr

def partition (t : Table) (k : Knowledge) : List Descriptor → Partition × Knowledge
  | [] => (⟨[], []⟩, k)
  | d :: ds =>
    match check t k d with
    | (none, k) =>
      let (p, k) := partition t k ds
      ({ p with valid := d :: p.valid }, k)
    | (some e, k) =>
      let (p, k) := partition t k ds
      ({ p with invalid := e :: p.invalid }, k)

end Validation

end Interop
