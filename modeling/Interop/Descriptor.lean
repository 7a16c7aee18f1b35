/-!
This module contains the descriptors of native types, one kind for every way in which a type can
cross the boundary between native and managed code.
-/

namespace Interop

inductive Kind where
  | simple
  | long
  | object
  | struct
  | enum
  | array
  | callback
  deriving DecidableEq, Repr

def Kind.name : Kind → String
  | simple => "simple"
  | long => "long"
  | object => "object"
  | struct => "struct"
  | enum => "enum"
  | array => "array"
  | callback => "callback"

/--
The names of a type that gets a managed type of its own.
-/
structure Identity where
  /-- The native name, under which the type is registered. -/
  cname : String
  /-- The managed name without its namespace. -/
  name : String
  nameSpace : String
  /-- The native library that imports of this type bind against. -/
  library : String
  deriving DecidableEq, Repr

def qualify (nameSpace name : String) : String :=
  if nameSpace = "" then name else nameSpace ++ "." ++ name

def Identity.qualified (i : Identity) : String :=
  qualify i.nameSpace i.name

/--
How long a callback that was handed to native code has to stay alive.
-/
inductive Lifetime where
  | call
  | forever
  deriving DecidableEq, Repr

structure Parameter where
  name : String
  /-- The type as written, with qualifiers and pointers. -/
  ctype : String
  lifetime : Lifetime
  deriving DecidableEq, Repr

structure Signature where
  returns : String
  params : List Parameter
  deriving DecidableEq, Repr

def Signature.dependencies (s : Signature) : List String :=
  s.returns :: s.params.map (·.ctype)

def Signature.position? (s : Signature) (name : String) : Option Nat :=
  s.params.findIdx? (·.name = name)

/--
A scalar. It crosses as it is, or through a cast if its boundary type differs from its managed one.
-/
structure SimpleType where
  cname : String
  managed : String
  /-- The boundary type, if it is not the managed type. -/
  boundary? : Option String
  defaultValue : String
  /-- Whether a pointer to this type is a text in UTF-8. -/
  utf8 : Bool
  deriving DecidableEq, Repr

/--
An integer as wide as a native `long` or a pointer.
-/
structure LongType where
  cname : String
  unsigned : Bool
  deriving DecidableEq, Repr

structure EnumMember where
  name : String
  value : Int
  deriving DecidableEq, Repr

structure EnumType where
  identity : Identity
  width : Nat
  signed : Bool
  flags : Bool
  members : List EnumMember
  abiCheck : Bool
  deriving DecidableEq, Repr

structure Field where
  name : String
  ctype : String
  /-- The width in bits of a member of a bitfield. -/
  bits : Option Nat
  /-- Whether the field only takes its place in the layout. -/
  hidden : Bool
  deriving DecidableEq, Repr

structure StructType where
  identity : Identity
  fields : List Field
  abiCheck : Bool
  deriving DecidableEq, Repr

structure Method where
  name : String
  cname : String
  signature : Signature
  static : Bool
  deriving DecidableEq, Repr

/--
A function slot of an object's class that derived objects may override.
-/
structure VirtualMethod where
  name : String
  signature : Signature
  deriving DecidableEq, Repr

structure ObjectType where
  identity : Identity
  parent? : Option String
  getType? : Option String
  constructors : List Method
  methods : List Method
  virtualMethods : List VirtualMethod
  deriving DecidableEq, Repr

/--
How the number of elements of a native array is known.
-/
inductive Length where
  /-- A neighbour of the given name holds the number. -/
  | param (name : String)
  /-- A zero element ends the array. -/
  | nullTerminated
  deriving DecidableEq, Repr

structure ArrayType where
  cname : String
  element : String
  length : Length
  deriving DecidableEq, Repr

def ArrayType.lengthParam? (a : ArrayType) : Option String :=
  match a.length with
  | .param name => some name
  | .nullTerminated => none

structure CallbackType where
  identity : Identity
  signature : Signature
  deriving DecidableEq, Repr

inductive Descriptor where
  | simple (type : SimpleType)
  | long (type : LongType)
  | object (type : ObjectType)
  | struct (type : StructType)
  | enum (type : EnumType)
  | array (type : ArrayType)
  | callback (type : CallbackType)
  deriving DecidableEq, Repr

namespace Descriptor

def kind : Descriptor → Kind
  | simple _ => .simple
  | long _ => .long
  | object _ => .object
  | struct _ => .struct
  | enum _ => .enum
  | array _ => .array
  | callback _ => .callback

def cname : Descriptor → String
  | simple t => t.cname
  | long t => t.cname
  | object t => t.identity.cname
  | struct t => t.identity.cname
  | enum t => t.identity.cname
  | array t => t.cname
  | callback t => t.identity.cname

/--
The names of a type that has a managed source of its own.
-/
def identity? : Descriptor → Option Identity
  | object t => some t.identity
  | struct t => some t.identity
  | enum t => some t.identity
  | callback t => some t.identity
  | simple _ | long _ | array _ => none

def abiCheck : Descriptor → Bool
  | struct t => t.abiCheck
  | enum t => t.abiCheck
  | _ => false

/--
Whether the type cannot be bound without native glue code.
-/
def needsGlue : Descriptor → Bool
  | callback _ => true
  | struct t => t.fields.any (·.bits.isSome)
  | _ => false

end Descriptor

end Interop
