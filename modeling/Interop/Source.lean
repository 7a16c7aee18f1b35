/-!
This module contains generated source texts: lists of lines, and the frame around every managed
source.
-/

namespace Interop.Source

abbrev Lines := List String

/--
The text of the lines, each with a line break after it.
-/
def text (lines : Lines) : String :=
  String.join (lines.map (· ++ "\n"))

theorem text_cons {line : String} {lines : Lines}
    : text (line :: lines) = line ++ "\n" ++ text lines := by
  unfold text
  rw [List.map_cons, String.join_cons]

def indent (n : Nat) : String :=
  String.ofList (List.replicate n '\t')

/--
The lines with `n` tabs in front; blank lines stay blank.
-/
def indented (n : Nat) (lines : Lines) : Lines :=
  lines.map fun l => if l = "" then l else indent n ++ l

def commaSeparated (items : List String) : String :=
  String.intercalate ", " items

/--
The support library that generated sources call.
-/
def runtime : String := "Gapi.Runtime"

def opening : String := "\x7b"

def closing : String := "\x7d"

def banner : Lines :=
  ["// This file was generated by gapigen.", "// Any changes made will be lost if regenerated.", ""]

def openNamespace (name : String) : Lines :=
  ["namespace " ++ name ++ " " ++ opening, "", "\tusing System;"]

/--
The frame's first half for a namespace that imports native functions.
-/
def openBoundNamespace (name : String) : Lines :=
  openNamespace name ++ ["\tusing System.Runtime.InteropServices;", ""]

/--
The attribute in front of an import from `library`.
-/
def importAttribute (library : String) : String :=
  "[DllImport (\"" ++ library ++ "\", CallingConvention = CallingConvention.Cdecl)]"

end Interop.Source
