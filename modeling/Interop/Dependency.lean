import Interop.Descriptor
import Interop.Reference

/-!
This module contains the references that a descriptor makes to other types.
-/

namespace Interop

def Signature.returnsVoid (s : Signature) : Bool :=
  Reference.isVoid s.returns

/--
What a bound function refers to. A function that returns nothing does not need `void` to be known.
-/
def Method.dependencies (m : Method) : List String :=
  m.signature.params.map (·.ctype)
    ++ if m.signature.returnsVoid then [] else [m.signature.returns]

def ObjectType.functions (o : ObjectType) : List Method :=
  o.constructors ++ o.methods

def ObjectType.dependencies (o : ObjectType) : List String :=
  o.parent?.toList ++ o.functions.flatMap (·.dependencies)
    ++ o.virtualMethods.flatMap (·.signature.dependencies)

/--
Every reference of a descriptor, as written and in the order of writing.
-/
def Descriptor.dependencies : Descriptor → List String
  | simple _ | long _ | enum _ => []
  | struct t => t.fields.map (·.ctype)
  | object t => t.dependencies
  | array t => [t.element]
  | callback t => t.signature.dependencies

end Interop
