import Interop.Table
import Interop.Source
import Interop.Text.Identifier

/-!
This module contains the ways in which a value crosses between native and managed code: the types on
either side and the expressions that carry a value over.
-/

namespace Interop

open Source (runtime)

def SimpleType.boundary (t : SimpleType) : String :=
  t.boundary?.getD t.managed

/--
Whether a scalar needs a cast at the boundary.
-/
def SimpleType.casts (t : SimpleType) : Bool :=
  t.boundary?.any (· != t.managed)

def LongType.managed (t : LongType) : String :=
  if t.unsigned then "ulong" else "long"

def LongType.boundary (t : LongType) : String :=
  if t.unsigned then "UIntPtr" else "IntPtr"

def LongType.defaultValue (t : LongType) : String :=
  if t.unsigned then "0UL" else "0L"

/--
The integer type that holds the enumeration's values.
-/
def EnumType.underlying (t : EnumType) : String :=
  match t.width, t.signed with
  | 8, true => "sbyte"
  | 8, false => "byte"
  | 16, true => "short"
  | 16, false => "ushort"
  | 64, true => "long"
  | 64, false => "ulong"
  | _, true => "int"
  | _, false => "uint"

namespace CallbackType

def helperSpace (t : CallbackType) : String :=
  qualify t.identity.nameSpace "Internal"

def helper (t : CallbackType) (role : String) : String :=
  t.helperSpace ++ "." ++ t.identity.name ++ role

/--
The type of the native functions that stand for a managed delegate.
-/
def nativeDelegate (t : CallbackType) : String :=
  t.helper "Native"

/--
The helper that calls a native function pointer.
-/
def invoker (t : CallbackType) : String :=
  t.helper "Invoker"

/--
The helper that native code calls and that holds a managed delegate.
-/
def wrapper (t : CallbackType) : String :=
  t.helper "Wrapper"

def glueSymbol (t : CallbackType) : String :=
  "gapi_" ++ Text.snakeCase t.identity.cname ++ "_invoke"

end CallbackType

def wrapperLocal (name : String) : String :=
  Text.bareName name ++ "_wrapper"

def elementCount (name : String) : String :=
  "(" ++ name ++ " == null ? 0 : " ++ name ++ ".Length)"

/--
How a value crosses the boundary.
-/
inductive Crossing where
  | simple (type : SimpleType)
  | long (type : LongType)
  | enum (type : EnumType)
  /-- A structure is copied. -/
  | struct (identity : Identity)
  /-- An object crosses as its handle. -/
  | object (identity : Identity)
  | callback (type : CallbackType)
  /-- An array crosses as a buffer of elements that cross by themselves. -/
  | array (length : Length) (element : Crossing)
  /-- A structure behind a pointer is copied from and to native memory. -/
  | structPointer (identity : Identity)
  /-- A text in UTF-8 is copied from and to native memory. -/
  | utf8
  /-- An address that managed code does not look behind. -/
  | address
  deriving DecidableEq, Repr

namespace Crossing

/--
Whether a value crosses as it is.
-/
def isDirect : Crossing → Bool
  | simple t => !t.casts
  | struct _ | address => true
  | _ => false

def managed : Crossing → String
  | simple t => t.managed
  | long t => t.managed
  | enum t => t.identity.qualified
  | struct i | object i | structPointer i => i.qualified
  | callback t => t.identity.qualified
  | array _ e => e.managed ++ "[]"
  | utf8 => "string"
  | address => "IntPtr"

def boundary : Crossing → String
  | simple t => t.boundary
  | long t => t.boundary
  | enum t => t.underlying
  | struct i => i.qualified
  | object _ | callback _ | array _ _ | structPointer _ | utf8 | address => "IntPtr"

def defaultValue : Crossing → String
  | simple t => t.defaultValue
  | long t => t.defaultValue
  | enum t => "(" ++ t.identity.qualified ++ ") 0"
  | struct i | structPointer i => i.qualified ++ ".Zero"
  | object _ | callback _ | array _ _ | utf8 => "null"
  | address => "IntPtr.Zero"

/--
The managed array made from the buffer `x` of `count` elements, each converted by `convert?`.
-/
def arrayFromBuffer (length : Length) (boundary managed : String) (convert? : Option String)
    (x count : String) : String :=
  let raw :=
    match length with
    | .param _ =>
      runtime ++ ".Marshaller.PtrToArray<" ++ boundary ++ "> (" ++ x ++ ", " ++ count ++ ")"
    | .nullTerminated =>
      runtime ++ ".Marshaller.NullTermPtrToArray<" ++ boundary ++ "> (" ++ x ++ ")"
  match convert? with
  | none => raw
  | some convert =>
    "(" ++ x ++ " == IntPtr.Zero ? null : Array.ConvertAll<" ++ boundary ++ ", " ++ managed ++ "> ("
      ++ raw ++ ", e => " ++ convert ++ "))"

/--
The buffer made from the managed array `x`, each element converted by `convert?`.
-/
def bufferFromArray (length : Length) (boundary managed : String) (convert? : Option String)
    (x : String) : String :=
  let converted :=
    match convert? with
    | none => x
    | some convert =>
      "(" ++ x ++ " == null ? null : Array.ConvertAll<" ++ managed ++ ", " ++ boundary ++ "> ("
        ++ x ++ ", e => " ++ convert ++ "))"
  match length with
  | .param _ => runtime ++ ".Marshaller.ArrayToPtr<" ++ boundary ++ "> (" ++ converted ++ ")"
  | .nullTerminated =>
    runtime ++ ".Marshaller.ArrayToNullTermPtr<" ++ boundary ++ "> (" ++ converted ++ ")"

/--
The count of an array's elements where nothing else is known of it than its length parameter.
-/
def impliedCount : Length → String
  | .param name => "(int) " ++ name
  | .nullTerminated => ""

/--
The managed value of the boundary value `x`.
-/
def fromNative : Crossing → String → String
  | simple t, x => if t.casts then "(" ++ t.managed ++ ") " ++ x else x
  | long t, x => "(" ++ t.managed ++ ") " ++ x
  | enum t, x => "(" ++ t.identity.qualified ++ ") " ++ x
  | struct _, x | address, x => x
  | object i, x => runtime ++ ".ObjectManager.GetObject (" ++ x ++ ") as " ++ i.qualified
  | callback t, x => t.invoker ++ ".Wrap (" ++ x ++ ")"
  | array length e, x =>
    arrayFromBuffer length e.boundary e.managed
      (if e.isDirect then none else some (e.fromNative "e")) x (impliedCount length)
  | structPointer i, x => i.qualified ++ ".New (" ++ x ++ ")"
  | utf8, x => runtime ++ ".Marshaller.Utf8PtrToString (" ++ x ++ ")"

/--
The boundary value of the managed value `x`.
-/
def toNative : Crossing → String → String
  | simple t, x => if t.casts then "(" ++ t.boundary ++ ") " ++ x else x
  | long t, x => "new " ++ t.boundary ++ " (" ++ x ++ ")"
  | enum t, x => "(" ++ t.underlying ++ ") " ++ x
  | struct _, x | address, x => x
  | object _, x => x ++ " == null ? IntPtr.Zero : " ++ x ++ ".Handle"
  | callback _, x => wrapperLocal x ++ ".NativeFunctionPointer"
  | array length e, x =>
    bufferFromArray length e.boundary e.managed
      (if e.isDirect then none else some (e.toNative "e")) x
  | structPointer _, x => runtime ++ ".Marshaller.StructureToPtr (" ++ x ++ ")"
  | utf8, x => runtime ++ ".Marshaller.StringToUtf8Ptr (" ++ x ++ ")"

/--
The managed value of the boundary value `x`, where `count` holds the number of elements if the value
is an array.
-/
def fromNativeCounted (c : Crossing) (x count : String) : String :=
  match c with
  | array length e =>
    arrayFromBuffer length e.boundary e.managed
      (if e.isDirect then none else some (e.fromNative "e")) x count
  | c => c.fromNative x

/--
Whether `toNative` allocates native memory, which the caller has to free after the call.
-/
def ownsCopy : Crossing → Bool
  | array _ _ | structPointer _ | utf8 => true
  | _ => false

/--
The body of a property over the raw field `field`, for the values that fit into one.
-/
def accessors? (c : Crossing) (field : String) : Option Source.Lines :=
  match c with
  | simple _ | long _ | enum _ =>
    some
      ["get " ++ Source.opening, "\treturn " ++ c.fromNative field ++ ";", Source.closing,
       "set " ++ Source.opening, "\t" ++ field ++ " = " ++ c.toNative "value" ++ ";",
       Source.closing]
  | _ => none

/--
How a value crosses when a reference to its type has `depth` pointers. Structures behind a pointer
are copied, characters behind a pointer are texts, other scalars behind a pointer stay addresses,
and so does everything behind two.
-/
def behind (c : Crossing) : (depth : Nat) → Crossing
  | 0 => c
  | 1 =>
    match c with
    | object _ | array _ _ | callback _ => c
    | struct i => structPointer i
    | simple t => if t.utf8 then utf8 else address
    | _ => address
  | _ => address

/--
How a value of the type crosses by itself; `element` tells how the elements of an array cross.
-/
def ofDescriptor (element : String → Crossing) : Descriptor → Crossing
  | .simple t => simple t
  | .long t => long t
  | .enum t => enum t
  | .struct t => struct t.identity
  | .object t => object t.identity
  | .callback t => callback t
  | .array t => array t.length (element t.element)

end Crossing

/--
How the elements of an array cross that the reference `ref` names. An element type that is not known
is an address; so is one that leads back to an array of `seen`, in which it lies.
-/
def Table.elementCrossing (t : Table) (seen : List String) (ref : String) : Crossing :=
  match _h : t.get? ref with
  | none => .address
  | some d =>
    if _hs : d.cname ∈ seen then .address
    else
      (Crossing.ofDescriptor (t.elementCrossing (d.cname :: seen)) d).behind (Reference.depth ref)
termination_by t.unseen seen
decreasing_by exact Table.unseen_cons_lt (Table.mem_of_find? _h) _hs

def Table.crossing (t : Table) (d : Descriptor) : Crossing :=
  .ofDescriptor (t.elementCrossing []) d

structure Use where
  type : Descriptor
  depth : Nat
  /-- How a value of the type crosses by itself. -/
  content : Crossing
  deriving Repr

namespace Use

def crossing (u : Use) : Crossing :=
  u.content.behind u.depth

def isCallback (u : Use) : Bool :=
  u.depth ≤ 1 && u.type.kind == .callback

/--
The name of the neighbour that holds the number of elements.
-/
def lengthParam? (u : Use) : Option String :=
  match u.type with
  | .array a => a.lengthParam?
  | _ => none

end Use

def Table.resolve (t : Table) (ref : String) : Except SymbolError Use :=
  (t.lookup ref).map fun d => ⟨d, Reference.depth ref, t.crossing d⟩

end Interop
