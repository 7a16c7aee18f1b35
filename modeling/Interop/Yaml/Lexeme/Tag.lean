import Interop.Yaml.Cursor
import Interop.Yaml.Token

/-!
This module contains the reading of tags, anchors and directives. Every reader takes the text from
some place on and tells how many characters it took.
-/

namespace Interop.Yaml

/--
What was read from a text, and what is left of it.
-/
structure Taken (α : Type) where
  value : α
  length : Nat
  rest : List Char
  deriving Repr

namespace Taken

/--
The longest beginning of a text whose characters satisfy `p`.
-/
def span (p : Char → Bool) (cs : List Char) : Taken (List Char) :=
  let word := cs.takeWhile p
  ⟨word, word.length, cs.dropWhile p⟩

def after (t : Taken α) (n : Nat) : Taken α :=
  { t with length := n + t.length }

end Taken

namespace TagText

def isUriChar (verbatim : Bool) (c : Char) : Bool :=
  isWordChar c || ";/?:@&=+$.%!~*'()".toList.contains c || verbatim && ",[]".toList.contains c

/--
The number of bytes of the character that starts with `byte`.
-/
def width? (byte : Nat) : Option Nat :=
  if byte < 0x80 then some 1
  else if byte / 0x20 = 0x6 then some 2
  else if byte / 0x10 = 0xE then some 3
  else if byte / 0x8 = 0x1E then some 4
  else none

/--
The bytes of an URI, in which `%` starts the code of a byte. The bytes of one character must follow
each other; `pending` of them are missing.
-/
def uri (verbatim : Bool) (pending : Nat) : List Char → Option (Taken Tag)
  | '%' :: a :: b :: cs =>
    match hexValue? a, hexValue? b with
    | some high, some low =>
      let byte := high * 16 + low
      let pending? :=
        if pending = 0 then (width? byte).map (· - 1)
        else if byte / 0x40 = 0x2 then some (pending - 1)
        else none
      pending?.bind fun pending =>
        (uri verbatim pending cs).map fun t =>
          ⟨byte.toUInt8 :: t.value, t.length + 3, t.rest⟩
    | _, _ => none
  | c :: cs =>
    if pending ≠ 0 ∨ c = '%' then none
    else if isUriChar verbatim c then
      (uri verbatim 0 cs).map fun t => ⟨bytesOf c.toString ++ t.value, t.length + 1, t.rest⟩
    else some ⟨[], 0, c :: cs⟩
  | [] => if pending ≠ 0 then none else some ⟨[], 0, []⟩

/--
A handle: `!`, or a word between two of them. A handle that is not closed is a part of a name.
-/
def handle : List Char → Option (Taken String)
  | '!' :: cs =>
    let word := Taken.span isWordChar cs
    match word.rest with
    | '!' :: rest => some ⟨String.ofList ('!' :: word.value ++ ['!']), word.length + 2, rest⟩
    | rest => some ⟨String.ofList ('!' :: word.value), word.length + 1, rest⟩
  | _ => none

/--
A tag: its handle and the rest of its name. A verbatim tag and the tag `!` have an empty handle.
-/
def read : List Char → Option (Taken (String × Tag))
  | '!' :: '<' :: cs =>
    match uri true 0 cs with
    | some ⟨suffix, n, '>' :: rest⟩ =>
      if n = 0 then none else some ⟨("", suffix), n + 3, rest⟩
    | _ => none
  | cs =>
    (handle cs).bind fun h =>
      (uri false 0 h.rest).bind fun u =>
        if h.value.length > 1 ∧ h.value.endsWith "!" then
          if u.length = 0 then none
          else some ((⟨(h.value, u.value), u.length, u.rest⟩ : Taken _).after h.length)
        else
          let suffix := bytesOf (String.ofList (h.value.toList.drop 1)) ++ u.value
          let name := if suffix.isEmpty then ("", bytesOf "!") else ("!", suffix)
          some ((⟨name, u.length, u.rest⟩ : Taken _).after h.length)

/--
Whether a tag may end here. In a flow collection a comma may follow it.
-/
def mayEnd (inFlow : Bool) (cs : List Char) : Bool :=
  atGap cs || inFlow && cs.head? == some ','

end TagText

namespace Anchor

/--
The name of an anchor or an alias.
-/
def read (cs : List Char) : Option (Taken String) :=
  let word := Taken.span isWordChar cs
  if word.length = 0 then none
  else if atGap word.rest || word.rest.head?.any ("?:,]\x7d%@`".toList.contains ·) then
    some ⟨String.ofList word.value, word.length, word.rest⟩
  else none

end Anchor

namespace Directive

/--
A number of at most nine digits.
-/
def number (cs : List Char) : Option (Taken Nat) :=
  let digits := Taken.span (·.isDigit) cs
  if digits.length = 0 ∨ digits.length > 9 then none
  else
    some ⟨digits.value.foldl (fun n c => n * 10 + (c.toNat - '0'.toNat)) 0, digits.length,
      digits.rest⟩

def version (cs : List Char) : Option (Taken Token) :=
  let blanks := Taken.span isBlank cs
  (number blanks.rest).bind fun major =>
    match major.rest with
    | '.' :: rest =>
      (number rest).map fun minor =>
        ⟨.versionDirective major.value minor.value,
         blanks.length + major.length + 1 + minor.length, minor.rest⟩
    | _ => none

def tag (cs : List Char) : Option (Taken Token) :=
  let blanks := Taken.span isBlank cs
  (TagText.handle blanks.rest).bind fun h =>
    if ¬ (h.value = "!" ∨ h.value.length > 1 ∧ h.value.endsWith "!") then none
    else
      let between := Taken.span isBlank h.rest
      if between.length = 0 then none
      else
        (TagText.uri true 0 between.rest).bind fun u =>
          if u.length = 0 ∨ ¬ atGap u.rest then none
          else
            some ⟨.tagDirective h.value u.value,
              blanks.length + h.length + between.length + u.length, u.rest⟩

/--
A directive behind its `%`, up to the end of what it says.
-/
def read (cs : List Char) : Option (Taken Token) :=
  let name := Taken.span isWordChar cs
  if name.length = 0 ∨ ¬ atGap name.rest then none
  else
    match String.ofList name.value with
    | "YAML" => (version name.rest).map (·.after name.length)
    | "TAG" => (tag name.rest).map (·.after name.length)
    | _ => none

end Directive

end Interop.Yaml
