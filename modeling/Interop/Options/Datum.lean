import Interop.Declaration.Decode
import Interop.Options

/-!
This module contains the reading of options from the data of a configuration, in which every key is
the name of a flag.
-/

namespace Interop

/--
What a configuration can hold, by the formats that write one.
-/
inductive Datum where
  | null
  | bool (value : Bool)
  | number
  | text (value : String)
  | list (items : List Datum)
  | table (entries : List (String × Datum))
  deriving Repr, Inhabited

namespace Datum

abbrev Result (α : Type) := Except String α

def describe : Datum → String
  | null => "null"
  | bool b => "boolean `" ++ (if b then "true" else "false") ++ "`"
  | number => "number"
  | text s => "string " ++ Text.quote s
  | list _ => "sequence"
  | table _ => "map"

def mismatch (d : Datum) (expected : String) : Result α :=
  .error ("invalid type: " ++ d.describe ++ ", expected " ++ expected)

/--
A single value of a flag.
-/
def toText (f : Flag) : Datum → Result String
  | text s => .ok s
  | d => d.mismatch (if f.takesPath then "path string" else "a string")

/--
The values of a flag. Null stands for no value where the flag takes a single one.
-/
def toValues (f : Flag) (d : Datum) : Result (List String) :=
  match f.repeats, d with
  | true, list items => items.mapM (toText f)
  | true, d => d.mismatch "a sequence"
  | false, null => .ok []
  | false, d => (toText f d).map ([·])

end Datum

namespace Options

open Datum (Result)

def unknownKey (key : String) : String :=
  "unknown field " ++ Decode.ticked key ++ ", expected "
    ++ Decode.alternatives (Flag.configurable.map (·.name))

/--
Reads the entries of a table in order; the flags in `seen` have been there.
-/
def ofEntries (o : Options) (seen : List Flag) : List (String × Datum) → Result Options
  | [] => .ok o
  | (key, d) :: entries =>
    match Flag.named? key Flag.configurable with
    | none => .error (unknownKey key)
    | some f =>
      if f ∈ seen then .error (Decode.duplicateField key)
      else do
        let values ← d.toValues f
        ofEntries (o.assign values f) (f :: seen) entries

/--
Reads the values of a list, which belong to the flags in order.
-/
def ofItems (o : Options) : List Flag → List Datum → Result Options
  | f :: flags, d :: ds => do
    let values ← d.toValues f
    ofItems (o.assign values f) flags ds
  | _, _ => .ok o

def ofDatum : Datum → Result Options
  | .table entries => ofEntries {} [] entries
  | .list items => do
    let o ← ofItems {} Flag.configurable items
    if Flag.configurable.length < items.length then
      .error s!"invalid length {items.length}, expected fewer elements in array"
    else return o
  | d => d.mismatch "struct GeneratorConfig"

end Options

end Interop
