import Interop.Binding.Basic

/-!
This module contains the counters of a run and their report.
-/

namespace Interop

structure Statistics where
  structs : Nat := 0
  enums : Nat := 0
  objects : Nat := 0
  callbacks : Nat := 0
  members : Binding.Counts := {}
  probes : Nat := 0
  mappers : Nat := 0
  filesWritten : Nat := 0
  excluded : Nat := 0
  dryRun : Bool := false
  deriving DecidableEq, Repr

def Binding.Counts.add (a b : Binding.Counts) : Binding.Counts where
  constructors := a.constructors + b.constructors
  methods := a.methods + b.methods
  virtualMethods := a.virtualMethods + b.virtualMethods
  properties := a.properties + b.properties
  glueFunctions := a.glueFunctions + b.glueFunctions

namespace Statistics

def record (s : Statistics) (kind : Kind) (counts : Binding.Counts) : Statistics :=
  let s := { s with members := s.members.add counts }
  match kind with
  | .struct => { s with structs := s.structs + 1 }
  | .enum => { s with enums := s.enums + 1 }
  | .object => { s with objects := s.objects + 1 }
  | .callback => { s with callbacks := s.callbacks + 1 }
  | .simple | .long | .array => s

/--
The number of types that have a managed source.
-/
def types (s : Statistics) : Nat :=
  s.structs + s.enums + s.objects + s.callbacks

def excludedLabel : String := "excluded"

/--
The counters that are not zero, with their labels.
-/
def lines (s : Statistics) : List (String × Nat) :=
  [("structs", s.structs), ("enums", s.enums), ("objects", s.objects),
   ("callbacks", s.callbacks), ("constructors", s.members.constructors),
   ("methods", s.members.methods), ("virtual methods", s.members.virtualMethods),
   ("properties", s.members.properties), ("glue functions", s.members.glueFunctions),
   ("ABI probes", s.probes), ("object mappers", s.mappers), ("files written", s.filesWritten),
   (excludedLabel, s.excluded)].filter (·.2 ≠ 0)

def labelWidth : Nat := 16

def padded (label : String) : String :=
  label ++ String.ofList (List.replicate (labelWidth - label.length) ' ')

def report (s : Statistics) : Source.Lines :=
  ((if s.dryRun then "checked" else "generated") ++ " " ++ toString s.types ++ " types")
    :: s.lines.map fun (label, count) => "  " ++ padded label ++ " " ++ toString count

end Statistics

end Interop
