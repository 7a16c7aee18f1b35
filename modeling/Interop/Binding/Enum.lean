import Interop.Binding.Basic

/-!
This module contains the binding of enumerations.
-/

namespace Interop.Binding

open Source (opening closing)

/--
The managed name of a member. A name without small letters is put into small letters first, so
`DEMO_COLOR_RED` becomes `DemoColorRed` and `dark_red` becomes `DarkRed`.
-/
def memberName (native : String) : String :=
  if native.toList.any (·.isLower) then Text.pascalCase native
  else Text.pascalCase (native.map (·.toLower))

def enumSource (e : EnumType) : Source.Lines :=
  Source.banner ++ Source.openBoundNamespace e.identity.nameSpace
    ++ (if e.flags then ["\t[Flags]"] else [])
    ++ ["\tpublic enum " ++ e.identity.name ++ " : " ++ e.underlying ++ " " ++ opening, ""]
    ++ e.members.map (fun m => "\t\t" ++ memberName m.name ++ " = " ++ toString m.value ++ ",")
    ++ ["\t" ++ closing, closing]

def bindEnum (e : EnumType) : Emitted where
  managed? := some ⟨e.identity.name, Source.text (enumSource e)⟩

end Interop.Binding
