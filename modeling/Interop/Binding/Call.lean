import Interop.Binding.Basic

/-!
This module contains the calls across the boundary that a signature allows: which of its parameters
managed code sees, what the imported function takes, and the statements of a member that calls
native code or is called by it.
-/

namespace Interop.Binding

open Source (runtime commaSeparated)

inductive Role where
  | value
  /-- It holds the number of elements of the array at this place. -/
  | lengthOf (array : Nat)
  /-- It receives the number of elements of the returned array. -/
  | returnLength
  deriving DecidableEq, Repr

structure CallParam where
  /-- The name as an identifier of managed code. -/
  name : String
  use : Use
  lifetime : Lifetime
  role : Role
  deriving Repr

/--
A signature whose types are known and whose arrays are paired with their lengths.
-/
structure CallShape where
  params : List CallParam
  returns? : Option Use
  /-- The place of the parameter that receives the number of returned elements. -/
  returnLength? : Option Nat
  deriving Repr

/--
The role of the parameter at place `k`, where `lengths` tells for every parameter which other one
holds its number of elements. Of several arrays with the same length parameter the last one counts,
and a returned array comes before them all.
-/
def roleAt (lengths : List (Option Nat)) (returnLength? : Option Nat) (k : Nat) : Role :=
  if returnLength? = some k then .returnLength
  else
    match (lengths.zipIdx.filter fun (length?, i) => length? = some k ∧ i ≠ k).getLast? with
    | some (_, i) => .lengthOf i
    | none => .value

def resolveParams (t : Table) : List Parameter → Result (List Use)
  | [] => .ok []
  | p :: ps => do
    let use ← Fault.within s!"parameter `{p.name}`" (resolve t p.ctype)
    let uses ← resolveParams t ps
    return use :: uses

def resolveReturn (t : Table) (s : Signature) : Result (Option Use) :=
  if s.returnsVoid then .ok none
  else (Fault.within "return type" (resolve t s.returns)).map some

def CallShape.ofUses (s : Signature) (uses : List Use) (returns? : Option Use) : CallShape :=
  let place (u : Use) := u.lengthParam?.bind s.position?
  let returnLength? := returns?.bind place
  let lengths := uses.map place
  { params := (s.params.zip uses).zipIdx.map fun ((p, use), k) =>
      { name := Text.escapeReserved p.name, use, lifetime := p.lifetime
        role := roleAt lengths returnLength? k }
    returns?
    returnLength? }

def CallShape.ofSignature (t : Table) (s : Signature) : Result CallShape := do
  let uses ← resolveParams t s.params
  let returns? ← resolveReturn t s
  return .ofUses s uses returns?

namespace CallShape

def visible (c : CallShape) : List CallParam :=
  c.params.filter (·.role = .value)

def outParams (c : CallShape) : List CallParam :=
  c.params.filter (·.role = .returnLength)

def managedParams (c : CallShape) : String :=
  commaSeparated (c.visible.map fun p => p.use.crossing.managed ++ " " ++ p.name)

def managedReturn (c : CallShape) : String :=
  c.returns?.elim "void" (·.crossing.managed)

def boundaryReturn (c : CallShape) : String :=
  c.returns?.elim "void" (·.crossing.boundary)

def importParams (c : CallShape) (leading : Option ImportParam) : List ImportParam :=
  leading.toList ++ c.params.map fun p => ⟨p.role = .returnLength, p.use.crossing.boundary, p.name⟩

/--
The parameter that holds the number of elements of the array at a place.
-/
def lengthOf? (c : CallShape) (array : Nat) : Option CallParam :=
  c.params.find? (·.role = .lengthOf array)

def returnLength (c : CallShape) : Option CallParam :=
  c.returnLength?.bind (c.params[·]?)

def nameAt (c : CallShape) (k : Nat) : String :=
  (c.params[k]?).elim "" (·.name)

end CallShape

/--
The native number of elements of the managed array `array`, for the parameter `length`.
-/
def nativeCount (length : CallParam) (array : String) : String :=
  let crossing := length.use.crossing
  crossing.toNative ("(" ++ crossing.managed ++ ") " ++ elementCount array)

def managedValue (use : Use) (x : String) (length? : Option CallParam) : String :=
  match use.type, length? with
  | .array _, some length =>
    use.content.fromNativeCounted x
      ("(int) (" ++ length.use.crossing.fromNative length.name ++ ")")
  | _, _ => use.crossing.fromNative x

inductive Argument where
  /-- An argument that the signature does not mention. -/
  | leading (text : String)
  /-- The value of the parameter at a place. -/
  | passed (param : Nat) (text : String)
  /-- The number of elements of an array, for the parameter at a place. -/
  | counted (param array : Nat) (text : String)
  /-- A variable that the call sets, for the parameter at a place. -/
  | received (param : Nat) (name : String)
  deriving DecidableEq, Repr

def Argument.text : Argument → String
  | leading text | passed _ text | counted _ _ text => text
  | received _ name => "out " ++ name

def argumentList (args : List Argument) : String :=
  commaSeparated (args.map (·.text))

/--
What becomes of the value that a native function returns.
-/
inductive Sink where
  /-- It is converted and returned. -/
  | giveBack
  /-- It is stored as it is. -/
  | assign (target : String)
  deriving DecidableEq, Repr

/--
A statement of a member that calls native code or is called by it.
-/
inductive Statement where
  | wrap (helper holder source : String)
  | keepForever (holder : String)
  | copy (holder value : String)
  | declareLength (type name : String)
  | call (callee : String) (args : List Argument)
  | receive (type callee : String) (args : List Argument)
  | store (target callee : String) (args : List Argument)
  | convert (type value : String)
  | keepAlive (holder : String)
  | free (holder : String)
  | forward (target : String) (args : List String)
  | answer (type target : String) (args : List String)
  | setLength (name value : String)
  | giveBack (value : String)
  deriving DecidableEq, Repr

def Statement.text : Statement → String
  | wrap helper l source => helper ++ " " ++ l ++ " = new " ++ helper ++ " (" ++ source ++ ");"
  | keepForever l => runtime ++ ".CallbackKeeper.Add (" ++ l ++ ");"
  | copy l value => "IntPtr " ++ l ++ " = " ++ value ++ ";"
  | declareLength type name => type ++ " " ++ name ++ ";"
  | call callee args => callee ++ " (" ++ argumentList args ++ ");"
  | receive type callee args =>
    type ++ " raw_ret = " ++ callee ++ " (" ++ argumentList args ++ ");"
  | store target callee args => target ++ " = " ++ callee ++ " (" ++ argumentList args ++ ");"
  | convert type value => type ++ " ret = " ++ value ++ ";"
  | keepAlive l => "GC.KeepAlive (" ++ l ++ ");"
  | free l => runtime ++ ".Marshaller.Free (" ++ l ++ ");"
  | forward target args => target ++ " (" ++ commaSeparated args ++ ");"
  | answer type target args => type ++ " __ret = " ++ target ++ " (" ++ commaSeparated args ++ ");"
  | setLength name value => name ++ " = " ++ value ++ ";"
  | giveBack value => "return " ++ value ++ ";"

def copyLocal (name : String) : String :=
  "native_" ++ Text.bareName name

namespace CallParam

def preparation (p : CallParam) : List Statement :=
  match p.role, p.use.type with
  | .value, .callback type =>
    .wrap type.wrapper (wrapperLocal p.name) p.name
      :: if p.lifetime = .forever then [.keepForever (wrapperLocal p.name)] else []
  | .value, _ =>
    if p.use.crossing.ownsCopy then [.copy (copyLocal p.name) (p.use.crossing.toNative p.name)]
    else []
  | .lengthOf _, _ => []
  | .returnLength, _ => [.declareLength p.use.crossing.boundary p.name]

def passedText (p : CallParam) : String :=
  match p.use.type with
  | .callback _ => p.use.crossing.toNative p.name
  | _ => if p.use.crossing.ownsCopy then copyLocal p.name else p.use.crossing.toNative p.name

def cleanup (p : CallParam) : List Statement :=
  if p.use.isCallback then
    if p.lifetime = .call then [.keepAlive (wrapperLocal p.name)] else []
  else if p.use.crossing.ownsCopy then [.free (copyLocal p.name)]
  else []

end CallParam

namespace CallShape

def argument (c : CallShape) (p : CallParam) (k : Nat) : Argument :=
  match p.role with
  | .value => .passed k p.passedText
  | .lengthOf array => .counted k array (nativeCount p (c.nameAt array))
  | .returnLength => .received k p.name

def arguments (c : CallShape) (leading : Option String) : List Argument :=
  leading.toList.map .leading ++ c.params.zipIdx.map fun (p, k) => c.argument p k

def invocation (c : CallShape) (callee : String) (leading : Option String) (sink : Sink) :
    List Statement :=
  let args := c.arguments leading
  match c.returns?, sink with
  | none, _ => [.call callee args]
  | some returns, .giveBack =>
    [.receive returns.crossing.boundary callee args,
     .convert returns.crossing.managed (managedValue returns "raw_ret" c.returnLength)]
  | some _, .assign target => [.store target callee args]

/--
The body of a managed member that calls the native function `callee`.
-/
def callBody (c : CallShape) (callee : String) (leading : Option String) (sink : Sink) :
    List Statement :=
  c.params.flatMap (·.preparation) ++ c.invocation callee leading sink
    ++ c.visible.flatMap (·.cleanup)
    ++ if c.returns?.isSome && sink == .giveBack then [.giveBack "ret"] else []

def reverseArguments (c : CallShape) : List String :=
  (c.params.zipIdx.filter fun (p, _) => p.role = .value).map fun (p, k) =>
    managedValue p.use p.name (c.lengthOf? k)

/--
The body of a function that native code calls and that calls the managed `target`.
-/
def reverseBody (c : CallShape) (target : String) : List Statement :=
  match c.returns? with
  | none => [.forward target c.reverseArguments]
  | some returns =>
    [.answer returns.crossing.managed target c.reverseArguments]
      ++ c.returnLength.toList.map
          (fun length => .setLength length.name (nativeCount length "__ret"))
      ++ (match returns.type with
          | .callback type =>
            [.wrap type.wrapper "__ret_wrapper" "__ret", .keepForever "__ret_wrapper"]
          | _ => [])
      ++ [.giveBack (returns.crossing.toNative "__ret")]

end CallShape

end Interop.Binding
