import Interop.Dispatch
import Interop.Outputs
import Interop.Statistics

/-!
This module contains the generation of the sources of some valid types. All of them are bound before
the first byte is written; without outputs nothing is written at all.
-/

namespace Interop

inductive GenerationError where
  | binding (cause : Binding.Cause)
  /-- Two types would be written to one file. -/
  | nameClash (first second file : String)
  | output (error : OutputError)
  deriving DecidableEq, Repr

def GenerationError.message : GenerationError → String
  | binding cause => cause.message
  | nameClash first second file =>
    s!"`{first}` and `{second}` would both be generated into {file}.cs"
  | output error => error.message

namespace Generation

abbrev Result (α : Type) := Except (Fault GenerationError) α

structure Bound where
  type : Descriptor
  emitted : Binding.Emitted
  deriving DecidableEq, Repr

def bindOne (t : Table) (gluelib : String) (d : Descriptor) : Result Bound :=
  match bind t gluelib d with
  | .ok emitted => .ok ⟨d, emitted⟩
  | .error fault =>
    Fault.within s!"failed to generate `{d.cname}`" (.error (fault.map .binding))

def bindAll (t : Table) (gluelib : String) : List Descriptor → Result (List Bound)
  | [] => .ok []
  | d :: ds => do
    let b ← bindOne t gluelib d
    let bs ← bindAll t gluelib ds
    return b :: bs

/--
The first two types that share a file name. Files are named without their namespace.
-/
def clash? (owners : List (String × String)) : List Bound → Option GenerationError
  | [] => none
  | b :: bs =>
    match b.emitted.managed? with
    | none => clash? owners bs
    | some file =>
      match owners.find? (·.1 = file.name) with
      | some (_, first) => some (.nameClash first b.type.cname file.name)
      | none => clash? ((file.name, b.type.cname) :: owners) bs

/--
Binds all types and sees that no two of them share a file.
-/
def prepare (t : Table) (gluelib : String) (ds : List Descriptor) : Result (List Bound) := do
  let bounds ← bindAll t gluelib ds
  match clash? [] bounds with
  | none => return bounds
  | some e => .error (Fault.of e)

inductive Artifact where
  | managed (owner? : Option String) (file : Binding.ManagedFile)
  | glue (owner : String) (text : String)
  | probe (probe : Binding.Probe)
  deriving DecidableEq, Repr

def Bound.artifacts (b : Bound) : List Artifact :=
  b.emitted.managed?.toList.map (.managed (some b.type.cname))
    ++ b.emitted.glue?.toList.map (.glue b.type.cname)
    ++ b.emitted.probe?.toList.map .probe

structure Progress where
  outputs : Outputs
  filesWritten : Nat := 0
  probes : Nat := 0
  /-- Whether it was said that glue is dropped. -/
  warned : Bool := false
  log : Log := []
  deriving DecidableEq, Repr

def opened (before after : Outputs) : Log :=
  (after.written.drop before.written.length).map fun path =>
    ⟨.debug, "opened output stream", [.bare "path" path.text]⟩

def Progress.managed (p : Progress) (owner? : Option String) (file : Binding.ManagedFile) :
    Option OutputError × Progress :=
  match p.outputs.writeManaged file.name file.source with
  | (.error e, o) => (some e, { p with outputs := o })
  | (.ok path, o) =>
    let events :=
      ⟨.debug, "wrote managed source", [.bare "path" path.text]⟩
        :: owner?.toList.map fun owner =>
          ⟨.debug, "generated", [.quoted "symbol" owner, .bare "path" path.text]⟩
    (none,
     { p with outputs := o, filesWritten := p.filesWritten + 1, log := p.log ++ events })

def Progress.glue (p : Progress) (owner text : String) : Option OutputError × Progress :=
  if p.outputs.options.hasGlue then
    match p.outputs.appendGlue text with
    | (r, o) =>
      (match r with
        | .ok () => none
        | .error e => some e,
       { p with outputs := o, log := p.log ++ opened p.outputs o })
  else if p.warned then (none, p)
  else
    let event :=
      ⟨.warn, "native glue is required but no glue file is configured; glue code is dropped",
        [.quoted "symbol" owner]⟩
    (none, { p with warned := true, log := p.log ++ [event] })

def Progress.probe (p : Progress) (probe : Binding.Probe) : Option OutputError × Progress :=
  if p.outputs.options.hasProbes then
    match p.outputs.appendProbe probe with
    | (.error e, o) => (some e, { p with outputs := o, log := p.log ++ opened p.outputs o })
    | (.ok (), o) =>
      (none,
       { p with outputs := o, probes := p.probes + 1, log := p.log ++ opened p.outputs o })
  else (none, p)

def Progress.deliver (p : Progress) : Artifact → Option OutputError × Progress
  | .managed owner? file => p.managed owner? file
  | .glue owner text => p.glue owner text
  | .probe probe => p.probe probe

/--
Writes artifacts in order up to the first that is not taken.
-/
def Progress.deliverAll (p : Progress) : List Artifact → Option OutputError × Progress
  | [] => (none, p)
  | a :: as =>
    match p.deliver a with
    | (some e, p) => (some e, p)
    | (none, p) => p.deliverAll as

def Progress.note (p : Progress) (events : Log) : Progress :=
  { p with log := p.log ++ events }

/--
The counters that do not depend on what is written.
-/
def tally (t : Table) (bounds : List Bound) : Statistics :=
  { bounds.foldl (fun (s : Statistics) b => s.record b.type.kind b.emitted.counts) {} with
    mappers := (t.mappers (bounds.map (·.type))).length }

def binds (t : Table) (gluelib : String) (d : Descriptor) : Bool :=
  (bindOne t gluelib d).isOk

def bindingEvents (t : Table) (d : Descriptor) : Log :=
  match d with
  | .object o =>
    match Binding.planObject t o with
    | .ok plan =>
      plan.skipped.map fun m =>
        ⟨.debug, "skipping constructor with a clashing managed signature",
          [.bare "constructor" m.method.cname]⟩
    | .error _ => []
  | _ => []

def finished (s : Statistics) : Event :=
  ⟨.info, "generation finished", [.count "types" s.types, .flag "dry_run" s.dryRun]⟩

structure Outcome where
  result : Result Statistics
  outputs? : Option Outputs
  log : Log
  deriving Repr

end Generation

open Generation

def generate (t : Table) (outputs? : Option Outputs) (ds : List Descriptor) : Outcome :=
  let gluelib := outputs?.elim defaultGlueLibrary (·.options.glueLibrary)
  let bindingLog := (ds.takeWhile (binds t gluelib)).flatMap (bindingEvents t)
  match prepare t gluelib ds with
  | .error fault => ⟨.error fault, outputs?, bindingLog⟩
  | .ok bounds =>
    let tallied := tally t bounds
    match outputs? with
    | none =>
      let s := { tallied with dryRun := true }
      ⟨.ok s, none, bindingLog ++ t.mapperEvents ds ++ [finished s]⟩
    | some outputs =>
      match Progress.deliverAll { outputs, log := bindingLog } (bounds.flatMap (·.artifacts)) with
      | (some e, p) => ⟨.error (Fault.of (.output e)), some p.outputs, p.log⟩
      | (none, p) =>
        let mapped := (t.mappers ds).map (Artifact.managed none)
        match (p.note (t.mapperEvents ds)).deliverAll mapped with
        | (some e, p) => ⟨.error (Fault.of (.output e)), some p.outputs, p.log⟩
        | (none, p) =>
          let s := { tallied with filesWritten := p.filesWritten, probes := p.probes }
          ⟨.ok s, some p.outputs, p.log ++ [finished s]⟩

end Interop
