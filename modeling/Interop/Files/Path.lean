import Interop.Text.Pieces

/-!
This module contains paths as they are written, their parts, and their composition.
-/

namespace Interop

structure Path where
  text : String
  deriving DecidableEq, Repr

namespace Path

/--
A part of a path. A path names the same place with and without parts that stay where they are,
except in front.
-/
inductive Part where
  | root
  /-- A leading `.`. -/
  | here
  | up
  | name (name : String)
  deriving DecidableEq, Repr

def isAbsolute (p : Path) : Bool :=
  p.text.toList.head? == some '/'

def pieces (p : Path) : List String :=
  Text.splitAt '/' p.text

/--
The names that lead to the place, `.` and `..` among them.
-/
def steps (p : Path) : List String :=
  p.pieces.filter (· ≠ "")

/--
Whether the path can only name a directory.
-/
def endsOpen (p : Path) : Bool :=
  match p.pieces.getLast? with
  | some last => last == "" || last == "." || last == ".."
  | none => true

def parts (p : Path) : List Part :=
  let inner := (p.pieces.drop 1).flatMap part
  if p.isAbsolute then .root :: inner
  else
    match p.pieces.head? with
    | some "." => .here :: inner
    | some first => part first ++ inner
    | none => inner
where
  part (piece : String) : List Part :=
    if piece = "" ∨ piece = "." then [] else if piece = ".." then [.up] else [.name piece]

/--
Whether two paths have the same parts.
-/
def same (p q : Path) : Bool :=
  p.parts == q.parts

/--
The place of `q` as seen from the directory `p`.
-/
def join (p q : Path) : Path :=
  if q.isAbsolute || p.text == "" then q
  else if p.text.toList.getLast? == some '/' then ⟨p.text ++ q.text⟩
  else ⟨p.text ++ "/" ++ q.text⟩

/--
The path of some pieces, the last one first, and of every piece of them that ends in a part.
-/
def stems (absolute : Bool) : List String → List Path
  | [] => []
  | [first] =>
    if absolute then [⟨"/"⟩] else if first = "" then [⟨""⟩] else [⟨first⟩, ⟨""⟩]
  | last :: rest =>
    if last = "" ∨ last = "." then stems absolute rest
    else ⟨String.intercalate "/" (last :: rest).reverse⟩ :: stems absolute rest

/--
The directories that hold the place, from the nearest up.
-/
def parents (p : Path) : List Path :=
  (stems p.isAbsolute p.pieces.reverse).tail

def parent? (p : Path) : Option Path :=
  p.parents.head?

example : (Path.mk "a//b/").parent? = some ⟨"a"⟩ := by decide +kernel
example : (Path.mk "b").parent? = some ⟨""⟩ := by decide +kernel
example : (Path.mk "/").parent? = none := by decide +kernel

end Path

end Interop
