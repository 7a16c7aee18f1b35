import Interop.Binding.Struct

/-!
This module contains the probes of a type's layout. The native and the managed probe print the same
keys, so that a difference of their output shows a difference of layout.
-/

namespace Interop.Binding

/--
One line of output: a key with a number that is computed on each side.
-/
structure ProbeEntry where
  key : String
  native : String
  managed : String
  deriving DecidableEq, Repr

def ProbeEntry.cLine (e : ProbeEntry) : String :=
  "\tprintf (\"\\\"" ++ e.key ++ "\\\": \\\"%zu\\\"\\n\", " ++ e.native ++ ");"

def ProbeEntry.csLine (e : ProbeEntry) : String :=
  "\t\t\tConsole.WriteLine (\"\\\"" ++ e.key ++ "\\\": \\\"\" + " ++ e.managed ++ " + \"\\\"\");"

def Probe.ofEntries (entries : List ProbeEntry) : Probe where
  c := Source.text (entries.map (·.cLine))
  cs := Source.text (entries.map (·.csLine))

def sizeEntry (cname managed : String) : ProbeEntry :=
  ⟨"sizeof(" ++ cname ++ ")", "sizeof (" ++ cname ++ ")", managed⟩

/--
The place of a field. Members of bitfields have none.
-/
def offsetProbe? (s : StructType) (p : FieldPlan) : Option ProbeEntry :=
  if p.storage.isBitfield then none
  else
    p.layoutName?.map fun layout =>
      let cname := s.identity.cname
      ⟨cname ++ "." ++ p.field.name,
       "offsetof (" ++ cname ++ ", " ++ p.field.name ++ ")",
       "Marshal.OffsetOf<" ++ s.identity.qualified ++ "> (\"" ++ layout ++ "\")"⟩

def structEntries (s : StructType) (plans : List FieldPlan) : List ProbeEntry :=
  sizeEntry s.identity.cname ("Marshal.SizeOf<" ++ s.identity.qualified ++ "> ()")
    :: plans.filterMap (offsetProbe? s)

def enumEntries (e : EnumType) : List ProbeEntry :=
  [sizeEntry e.identity.cname
    ("Marshal.SizeOf (System.Enum.GetUnderlyingType (typeof (" ++ e.identity.qualified ++ ")))")]

end Interop.Binding
