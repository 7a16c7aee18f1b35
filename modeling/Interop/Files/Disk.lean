import Interop.Files.Path
import Interop.Text.Bytes

/-!
This module contains a disk as a run sees it: directories, files and devices by their places, and
the operations on them, each of which the disk may refuse.
-/

namespace Interop

/--
A place on a disk: the names from the entry up to the root.
-/
abbrev Place := List String

inductive Entry where
  | directory
  | file (content : Bytes)
  /-- A device that can be opened and takes no bytes. -/
  | fullDevice
  deriving DecidableEq, Repr

structure Disk where
  /-- The entries below the root, the latest first. -/
  entries : List (Place × Entry)
  working : Place
  /-- Which of the next creations of files are refused. -/
  refusedCreations : List Bool := []
  /-- Which of the next writes are refused. -/
  refusedWrites : List Bool := []
  deriving DecidableEq, Repr

/--
Why a place cannot be reached or made.
-/
inductive Refusal where
  /-- A directory on the way is missing. -/
  | missing
  /-- Something else is in the way. -/
  | other
  deriving DecidableEq, Repr

namespace Disk

/--
A disk without files, on which `/dev/full` is a device that takes no bytes.
-/
def blank : Disk where
  entries :=
    [(["full", "dev"], .fullDevice), (["dev"], .directory), (["work", "run"], .directory),
     (["run"], .directory)]
  working := ["work", "run"]

def entry? (d : Disk) (place : Place) : Option Entry :=
  if place.isEmpty then some .directory else (d.entries.find? (·.1 = place)).map (·.2)

def set (d : Disk) (place : Place) (e : Entry) : Disk :=
  { d with entries := (place, e) :: d.entries.filter (·.1 ≠ place) }

/--
Puts an entry at a place, and directories on the way to it.
-/
def plant (d : Disk) (e : Entry) : Place → Disk
  | [] => d
  | name :: above => (d.plant .directory above).set (name :: above) e

def enter (d : Disk) (place : Place) : List String → Except Refusal Place
  | [] => .ok place
  | step :: steps =>
    if step = "." then d.enter place steps
    else if step = ".." then d.enter place.tail steps
    else
      match d.entry? (step :: place) with
      | none => .error .missing
      | some .directory => d.enter (step :: place) steps
      | some _ => .error .other

def start (d : Disk) (p : Path) : Place :=
  if p.isAbsolute then [] else d.working

/--
The place of a path whose every step but the last is a directory, whether or not it is there.
-/
def placeOf (d : Disk) (p : Path) : Place :=
  p.steps.foldl
    (fun place step =>
      if step = "." then place else if step = ".." then place.tail else step :: place)
    (d.start p)

/--
The place of the directory that holds what `p` names, and the name there.
-/
def holder (d : Disk) (p : Path) : Except Refusal (Place × String) :=
  match p.steps.getLast? with
  | none => .error (if p.text = "" then .missing else .other)
  | some last =>
    (d.enter (d.start p) p.steps.dropLast).map fun place => (place, last)

def lookup (d : Disk) (p : Path) : Option Entry :=
  if p.text = "" then none
  else if p.endsOpen then
    match d.enter (d.start p) p.steps with
    | .ok _ => some .directory
    | .error _ => none
  else
    match d.holder p with
    | .ok (place, name) => d.entry? (name :: place)
    | .error _ => none

def has (d : Disk) (p : Path) : Bool :=
  (d.lookup p).isSome

def isDirectory (d : Disk) (p : Path) : Bool :=
  d.lookup p == some .directory

def read (d : Disk) (p : Path) : Option Bytes :=
  match d.lookup p with
  | some (.file content) => some content
  | _ => none

def makeDirectory (d : Disk) (p : Path) : Except Refusal Disk :=
  match d.holder p with
  | .error e => .error e
  | .ok (place, name) =>
    if name = "." ∨ name = ".." then .error .other
    else
      match d.entry? (name :: place) with
      | some _ => .error .other
      | none => .ok (d.set (name :: place) .directory)

/--
Makes the first of some directories, after the next one if that is missing too. A directory that is
there already is left alone.
-/
def makeFirst (d : Disk) : List Path → Option Disk
  | [] => none
  | p :: above =>
    if p.text = "" then some d
    else
      match d.makeDirectory p with
      | .ok d => some d
      | .error .other => if d.isDirectory p then some d else none
      | .error .missing =>
        match d.makeFirst above with
        | none => none
        | some d =>
          match d.makeDirectory p with
          | .ok d => some d
          | .error _ => if d.isDirectory p then some d else none

/--
Makes a directory and what is missing on the way to it.
-/
def makeDirectories (d : Disk) (p : Path) : Option Disk :=
  d.makeFirst (p :: p.parents)

/--
The place at which a file of this path would be opened for writing.
-/
def target? (d : Disk) (p : Path) : Option Place :=
  if p.endsOpen then none
  else
    match d.holder p with
    | .error _ => none
    | .ok (place, name) =>
      match d.entry? (name :: place) with
      | some .directory => none
      | _ => some (name :: place)

/--
Opens a file for writing, without any content, and tells its place.
-/
def create (d : Disk) (p : Path) : Option Place × Disk :=
  let after := { d with refusedCreations := d.refusedCreations.tail }
  if d.refusedCreations.head? = some true then (none, after)
  else
    match d.target? p with
    | none => (none, after)
    | some place =>
      match d.entry? place with
      | some .fullDevice => (some place, after)
      | _ => (some place, after.set place (.file []))

/--
The content after `bytes` were written from `offset` on.
-/
def overlay (content : Bytes) (offset : Nat) (bytes : Bytes) : Bytes :=
  content.take offset ++ List.replicate (offset - content.length) 0 ++ bytes
    ++ content.drop (offset + bytes.length)

/--
Writes to an open file, and tells whether the disk took the bytes.
-/
def write (d : Disk) (place : Place) (offset : Nat) (bytes : Bytes) : Bool × Disk :=
  if bytes.isEmpty then (true, d)
  else
    let after := { d with refusedWrites := d.refusedWrites.tail }
    if d.refusedWrites.head? = some true then (false, after)
    else
      match d.entry? place with
      | some (.file content) => (true, after.set place (.file (overlay content offset bytes)))
      | _ => (false, after)

/--
The files below the working directory, by their path from there.
-/
def files (d : Disk) : List (String × Bytes) :=
  d.entries.filterMap fun (place, e) =>
    match e with
    | .file content =>
      if d.working.isSuffixOf place then
        let steps := (place.take (place.length - d.working.length)).reverse
        some (String.intercalate "/" steps, content)
      else none
    | _ => none

end Disk

end Interop
