import Interop.Binding.Callback
import Interop.Binding.Enum
import Interop.Binding.Object
import Interop.Binding.Probe

/-!
This module contains the binding of a type of any kind.
-/

namespace Interop

open Binding

def defaultGlueLibrary : String := "gapiglue"

namespace Binding

/--
The probe of a type's layout, for the types that have one.
-/
def probe? (t : Table) : Descriptor → Result (Option Probe)
  | .struct s => (plan t s).map fun plans => some (.ofEntries (structEntries s plans))
  | .enum e => .ok (some (.ofEntries (enumEntries e)))
  | _ => .ok none

def sources (t : Table) (gluelib : String) : Descriptor → Result Emitted
  | .struct s => bindStruct t gluelib s
  | .enum e => .ok (bindEnum e)
  | .object o => bindObject t o
  | .callback c => bindCallback t gluelib c
  | .simple _ | .long _ | .array _ => .ok {}

end Binding

/--
Binds one type: everything that it contributes to the output, as text.
-/
def bind (t : Table) (gluelib : String) (d : Descriptor) : Result Emitted := do
  let emitted ← sources t gluelib d
  if d.abiCheck then
    let probe? ← probe? t d
    return { emitted with probe? }
  else return emitted

end Interop
