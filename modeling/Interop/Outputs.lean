import Interop.Binding
import Interop.Files.Stream

/-!
This module contains the outputs of a run: one file for every managed source, and three files that
many types share. Shared files are opened when they are first needed, get their headers then, and
their footers when the outputs are closed.
-/

namespace Interop

open Source (opening closing)

structure OutputOptions where
  dir? : Option Path := none
  assemblyName? : Option String := none
  glueFile? : Option Path := none
  glueIncludes : List String := []
  glueLibrary? : Option String := none
  probeCFile? : Option Path := none
  probeCsFile? : Option Path := none
  probeCsUsings : List String := []
  deriving DecidableEq, Repr

namespace OutputOptions

/--
Whether one of the options is given that ask for output. Those for probes do not.
-/
def wantsOutput (o : OutputOptions) : Bool :=
  o.dir?.isSome || o.assemblyName?.isSome || o.glueFile?.isSome || !o.glueIncludes.isEmpty
    || o.glueLibrary?.isSome

def dir (o : OutputOptions) : Path :=
  o.dir?.getD ⟨"."⟩

def glueLibrary (o : OutputOptions) : String :=
  o.glueLibrary?.getD defaultGlueLibrary

def hasGlue (o : OutputOptions) : Bool :=
  o.glueFile?.isSome

def hasProbes (o : OutputOptions) : Bool :=
  o.probeCFile?.isSome && o.probeCsFile?.isSome

def banner (o : OutputOptions) (what : String) : String :=
  what ++ o.assemblyName?.elim "" (" for " ++ ·) ++ ". Generated by gapigen, do not edit."

def includes (o : OutputOptions) : Source.Lines :=
  o.glueIncludes.map fun i => "#include <" ++ i ++ ">"

def glueHeader (o : OutputOptions) : String :=
  Source.text (["/* " ++ o.banner "Native glue" ++ " */", ""] ++ o.includes ++ [""])

def probeCHeader (o : OutputOptions) : String :=
  Source.text
    (["/* " ++ o.banner "ABI checker" ++ " */", "", "#include <stddef.h>", "#include <stdio.h>"]
      ++ o.includes
      ++ ["", "int", "main (int argc, char *argv[])", opening])

def probeCFooter : String :=
  Source.text ["\treturn 0;", closing]

/--
The namespaces that the managed probe uses, each once.
-/
def usings (o : OutputOptions) : List String :=
  (["System", "System.Runtime.InteropServices"] ++ o.probeCsUsings).eraseDups

def probeCsHeader (o : OutputOptions) : String :=
  Source.text
    (["// " ++ o.banner "ABI checker", ""]
      ++ o.usings.map (fun u => "using " ++ u ++ ";")
      ++ ["", "namespace AbiTester " ++ opening, "\tclass SandboxTester " ++ opening, "",
          "\t\tstatic int Main (string[] args)", "\t\t" ++ opening])

def probeCsFooter : String :=
  Source.text ["\t\t\treturn 0;", "\t\t" ++ closing, "\t" ++ closing, closing]

end OutputOptions

inductive OutputError where
  | create (path : Path)
  | write (path : Path)
  | flush (path : Path)
  /-- This run has written the file already. -/
  | taken (path : Path)
  | closed
  | noGlueFile
  | noProbeFiles
  deriving DecidableEq, Repr

namespace OutputError

def message : OutputError → String
  | create path => "failed to create " ++ path.text
  | write path => "failed to write " ++ path.text
  | flush path => "failed to flush " ++ path.text
  | taken path => path.text ++ " was already generated by this run"
  | closed => "output streams are already closed"
  | noGlueFile => "no glue file configured"
  | noProbeFiles => "no ABI checker files configured"

def isRefusal : OutputError → Bool
  | create _ | write _ | flush _ => true
  | _ => false

end OutputError

structure Outputs where
  options : OutputOptions
  disk : Disk
  glue? : Option Stream := none
  probeC? : Option Stream := none
  probeCs? : Option Stream := none
  /-- The files written or opened so far, in order. -/
  written : List Path := []
  closed : Bool := false
  deriving DecidableEq, Repr

def Stream.create (d : Disk) (path : Path) (header : String) : Except OutputError Stream × Disk :=
  match makeParent with
  | .error e => (.error e, d)
  | .ok d =>
    match d.create path with
    | (none, d) => (.error (.create path), d)
    | (some place, d) =>
      match (Stream.start path place).put d (bytesOf header) with
      | (true, s, d) => (.ok s, d)
      | (false, s, d) => (.error (.write path), s.drop d)
where
  makeParent : Except OutputError Disk :=
    match path.parent? with
    | some parent =>
      if parent.text = "" then .ok d
      else
        match d.makeDirectories parent with
        | some d => .ok d
        | none => .error (.create parent)
    | none => .ok d

def Stream.finish (s : Stream) (d : Disk) (footer : String) : Option OutputError × Disk :=
  match s.put d (bytesOf footer) with
  | (false, s, d) => (some (.write s.path), s.drop d)
  | (true, s, d) =>
    match s.flush d with
    | (false, s, d) => (some (.flush s.path), s.drop d)
    | (true, s, d) => (none, s.drop d)

namespace Outputs

def managedPath (o : Outputs) (name : String) : Path :=
  o.options.dir.join ⟨name ++ ".cs"⟩

/--
Writes the managed source of this name, unless this run has written a file of that path.
-/
def writeManaged (o : Outputs) (name source : String) : Except OutputError Path × Outputs :=
  match o.disk.makeDirectories o.options.dir with
  | none => (.error (.create o.options.dir), o)
  | some d =>
    let path := o.managedPath name
    if o.written.any (·.same path) then (.error (.taken path), { o with disk := d })
    else
      match d.create path with
      | (none, d) => (.error (.write path), { o with disk := d })
      | (some place, d) =>
        match d.write place 0 (bytesOf source) with
        | (false, d) => (.error (.write path), { o with disk := d })
        | (true, d) => (.ok path, { o with disk := d, written := o.written ++ [path] })

def add (s : Stream) (d : Disk) (text : String) : Except OutputError Unit × Stream × Disk :=
  match s.put d (bytesOf text) with
  | (true, s, d) => (.ok (), s, d)
  | (false, s, d) => (.error (.write s.path), s, d)

/--
The open stream, which is opened first if need be.
-/
def ensure (o : Outputs) (stream? : Option Stream) (path : Path) (header : String) :
    Except OutputError Stream × Outputs :=
  match stream? with
  | some s => (.ok s, o)
  | none =>
    match Stream.create o.disk path header with
    | (.ok s, d) => (.ok s, { o with disk := d, written := o.written ++ [path] })
    | (.error e, d) => (.error e, { o with disk := d })

def appendGlue (o : Outputs) (text : String) : Except OutputError Unit × Outputs :=
  if o.closed then (.error .closed, o)
  else
    match o.options.glueFile? with
    | none => (.error .noGlueFile, o)
    | some path =>
      match o.ensure o.glue? path o.options.glueHeader with
      | (.error e, o) => (.error e, o)
      | (.ok s, o) =>
        match add s o.disk text with
        | (r, s, d) => (r, { o with disk := d, glue? := some s })

/--
Adds a probe to both probe files. The native one is opened and filled first.
-/
def appendProbe (o : Outputs) (probe : Binding.Probe) : Except OutputError Unit × Outputs :=
  if o.closed then (.error .closed, o)
  else
    match o.options.probeCFile?, o.options.probeCsFile? with
    | some cPath, some csPath =>
      match o.ensure o.probeC? cPath o.options.probeCHeader with
      | (.error e, o) => (.error e, o)
      | (.ok c, o) =>
        let o := { o with probeC? := some c }
        match o.ensure o.probeCs? csPath o.options.probeCsHeader with
        | (.error e, o) => (.error e, o)
        | (.ok cs, o) =>
          let o := { o with probeCs? := some cs }
          match add c o.disk probe.c with
          | (.error e, c, d) => (.error e, { o with disk := d, probeC? := some c })
          | (.ok (), c, d) =>
            match add cs d probe.cs with
            | (r, cs, d) => (r, { o with disk := d, probeC? := some c, probeCs? := some cs })
    | _, _ => (.error .noProbeFiles, o)

/--
Finishes streams in order, all of them whatever happens. The first failure is the result.
-/
def finishAll (d : Disk) : List (Option Stream × String) → Option OutputError × Disk
  | [] => (none, d)
  | (none, _) :: rest => finishAll d rest
  | (some s, footer) :: rest =>
    match s.finish d footer with
    | (e?, d) =>
      match finishAll d rest with
      | (later?, d) => (e?.or later?, d)

/--
Writes the footers of the shared files. Closing again does nothing.
-/
def close (o : Outputs) : Except OutputError Unit × Outputs :=
  if o.closed then (.ok (), o)
  else
    let streams :=
      [(o.glue?, ""), (o.probeC?, OutputOptions.probeCFooter),
       (o.probeCs?, OutputOptions.probeCsFooter)]
    match finishAll o.disk streams with
    | (e?, d) =>
      (e?.elim (.ok ()) .error,
       { o with disk := d, glue? := none, probeC? := none, probeCs? := none, closed := true })

end Outputs

end Interop
