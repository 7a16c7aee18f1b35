import Interop.Crossing
import Interop.Fault

/-!
This module contains what binding one type produces, and the parts that bound sources of several
kinds share: imports of native functions and glue functions.
-/

namespace Interop.Binding

open Source (opening closing commaSeparated)

inductive Cause where
  | symbol (error : SymbolError)
  /-- The parent of an object is no object. -/
  | parent (cname base : String) (kind : Kind)
  deriving DecidableEq, Repr

def Cause.message : Cause → String
  | symbol error => error.message
  | parent cname base kind =>
    s!"`{cname}` derives from `{base}`, which is a {kind.name} and not an object"

abbrev Result (α : Type) := Except (Fault Cause) α

def resolve (t : Table) (ref : String) : Result Use :=
  (t.resolve ref).mapError (Fault.of ∘ .symbol)

structure ManagedFile where
  /-- The name of the file without its extension. -/
  name : String
  source : String
  deriving DecidableEq, Repr

/--
The code that prints a type's layout, on the native and on the managed side.
-/
structure Probe where
  c : String
  cs : String
  deriving DecidableEq, Repr

structure Counts where
  constructors : Nat := 0
  methods : Nat := 0
  virtualMethods : Nat := 0
  properties : Nat := 0
  glueFunctions : Nat := 0
  deriving DecidableEq, Repr

/--
What binding one type produces.
-/
structure Emitted where
  managed? : Option ManagedFile := none
  glue? : Option String := none
  probe? : Option Probe := none
  counts : Counts := {}
  deriving DecidableEq, Repr

structure ImportParam where
  out : Bool
  type : String
  name : String
  deriving DecidableEq, Repr

def ImportParam.text (p : ImportParam) : String :=
  (if p.out then "out " else "") ++ p.type ++ " " ++ p.name

def ImportParam.address (name : String) : ImportParam :=
  ⟨false, "IntPtr", name⟩

def paramList (ps : List ImportParam) : String :=
  commaSeparated (ps.map (·.text))

/--
A native function that managed code imports.
-/
structure Import where
  library : String
  returns : String
  symbol : String
  params : List ImportParam
  deriving DecidableEq, Repr

def Import.lines (i : Import) : Source.Lines :=
  [Source.importAttribute i.library,
   "static extern " ++ i.returns ++ " " ++ i.symbol ++ " (" ++ paramList i.params ++ ");"]

structure GlueFunction where
  returns : String
  symbol : String
  params : List String
  statement : String
  deriving DecidableEq, Repr

namespace GlueFunction

def signature (f : GlueFunction) : String :=
  f.symbol ++ " (" ++ commaSeparated f.params ++ ")"

def prototype (f : GlueFunction) : String :=
  f.returns ++ " " ++ f.signature ++ ";"

def definition (f : GlueFunction) : Source.Lines :=
  [f.returns, f.signature, opening, "\t" ++ f.statement, closing, ""]

/--
The text of some glue functions: their prototypes, then their definitions.
-/
def lines (fs : List GlueFunction) : Source.Lines :=
  fs.map prototype ++ [""] ++ fs.flatMap definition

end GlueFunction

end Interop.Binding
