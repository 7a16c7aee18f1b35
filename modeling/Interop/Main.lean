import Interop.Program

/-!
This module contains the command line program. It looks at the files that the options name, runs on
what it saw, and puts what the run changed into the real files.
-/

namespace Interop.Main

/--
Notes what the path names: what can be opened but not read is a directory.
-/
def observe (d : Disk) (p : Path) : IO Disk := do
  match ← (IO.FS.Handle.mk p.text .read).toBaseIO with
  | .error _ => return d
  | .ok handle =>
    match ← handle.readBinToEnd.toBaseIO with
    | .ok content => return d.plant (.file content.data.toList) (d.placeOf p)
    | .error _ => return d.plant .directory (d.placeOf p)

/--
The paths on which a run depends.
-/
def interests (o : Options) : List Path :=
  let documents := o.includes ++ o.generate
  let dir := o.outputs.dir
  let shared := [o.glueFile?, o.probeCFile?, o.probeCsFile?].flatMap (·.toList)
  o.schema?.toList ++ documents ++ o.searchDir?.toList.flatMap (fun dir => documents.map dir.join)
    ++ dir :: dir.parents ++ shared.flatMap (·.parents)

/--
The disk around a working directory, as far as the words of a command line make a run depend on it.
-/
def look (directory : String) (words : List String) : IO Disk := do
  let working := (Path.mk directory).steps.reverse
  let d := Disk.plant { entries := [], working } .directory working
  match Options.ofWords words with
  | .ok o => (interests o).foldlM observe d
  | .error _ => return d

def write (place : Place) (e : Entry) : IO Unit :=
  let path := "/" ++ String.intercalate "/" place.reverse
  match e with
  | .directory => IO.FS.createDirAll path
  | .file content => IO.FS.writeBinFile path ⟨content.toArray⟩
  | .fullDevice => return

/--
Makes the changes between two disks real.
-/
def commit (before after : Disk) : IO Unit :=
  for (place, e) in after.entries.reverse do
    unless before.entries.contains (place, e) do
      write place e

end Interop.Main

open Interop in
def main (words : List String) : IO UInt32 := do
  let level := (← IO.getEnv "GAPIGEN_LOG").elim Log.defaultLevel Log.levelOf
  let disk ← Main.look (toString (← IO.currentDir)) words
  let reply := Program.run false level words disk
  Main.commit disk reply.disk
  (← IO.getStdout).putStr reply.output
  (← IO.getStderr).putStr reply.errors
  return reply.code.toUInt32
