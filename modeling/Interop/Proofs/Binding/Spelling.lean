import Interop.Proofs.Binding.Pairing

/-!
This module contains the names in the expressions that carry a value over the boundary: the locals
that hold the wrappers of callbacks, and the variables that hold numbers of elements. The
expressions are spelled in pieces that keep these names apart from the text around them.
-/

namespace Interop

open Source (runtime)

/--
A piece of the text of an expression.
-/
inductive Piece where
  | plain (text : String)
  /-- The local that holds the wrapper of a callback. -/
  | wrapper (holder : String)
  /-- The variable that holds a number of elements. -/
  | count (name : String)
  deriving DecidableEq, Repr

namespace Piece

def text : Piece → String
  | plain text => text
  | wrapper holder => holder
  | count name => name

def isName : Piece → Bool
  | plain _ => false
  | _ => true

def join (ps : List Piece) : String :=
  String.join (ps.map text)

@[simp]
theorem join_nil : join [] = "" :=
  rfl

@[simp]
theorem join_cons {p : Piece} {ps : List Piece} : join (p :: ps) = p.text ++ join ps := by
  unfold join
  rw [List.map_cons, String.join_cons]

@[simp]
theorem join_append {ps qs : List Piece} : join (ps ++ qs) = join ps ++ join qs := by
  unfold join
  rw [List.map_append, String.join_append]

def commaSeparated : List (List Piece) → List Piece
  | [] => []
  | [item] => item
  | item :: items => item ++ .plain ", " :: commaSeparated items

theorem join_commaSeparated (items : List (List Piece))
    : join (commaSeparated items) = Source.commaSeparated (items.map join) := by
  unfold Source.commaSeparated
  induction items with
  | nil => simp [commaSeparated]
  | cons item items ih =>
    cases items with
    | nil => simp [commaSeparated]
    | cons item' items =>
      rw [List.map_cons, List.map_cons, String.intercalate_cons_cons, ← List.map_cons, ← ih]
      simp [commaSeparated, text, String.append_assoc]

theorem ne_plain {p : Piece} {text : String} (hp : p.isName = true) : p ≠ .plain text := by
  rintro rfl
  cases hp

theorem mem_commaSeparated {p : Piece} (hp : p.isName = true) {items : List (List Piece)}
    : p ∈ commaSeparated items ↔ ∃ item ∈ items, p ∈ item := by
  induction items with
  | nil => simp [commaSeparated]
  | cons item items ih =>
    cases items with
    | nil => simp [commaSeparated]
    | cons item' items =>
      unfold commaSeparated
      simp [ih, ne_plain hp]

end Piece

namespace Crossing

open Piece (ne_plain)

/--
The wrappers that the boundary value of the managed value `x` refers to. Every element of an array
is called `e`.
-/
def wrappers : Crossing → String → List String
  | callback _, x => [wrapperLocal x]
  | array _ e, _ => e.wrappers "e"
  | _, _ => []

def elementWrappers : Crossing → List String
  | array _ e => e.wrappers "e"
  | _ => []

def ownLength? : Crossing → Option String
  | array (.param name) _ => some name
  | _ => none

/--
The variables that the managed value of a boundary value refers to for numbers of elements, where
nothing is known of an array but its type.
-/
def lengths : Crossing → List String
  | array (.param name) e => name :: e.lengths
  | array .nullTerminated e => e.lengths
  | _ => []

def elementLengths : Crossing → List String
  | array _ e => e.lengths
  | _ => []

def impliedCountPieces : Length → List Piece
  | .param name => [.plain "(int) ", .count name]
  | .nullTerminated => []

def arrayFromBufferPieces (length : Length) (boundary managed : String)
    (convert? : Option (List Piece)) (x count : List Piece) : List Piece :=
  let raw :=
    match length with
    | .param _ =>
      .plain (runtime ++ ".Marshaller.PtrToArray<" ++ boundary ++ "> (") :: x
        ++ .plain ", " :: count ++ [.plain ")"]
    | .nullTerminated =>
      .plain (runtime ++ ".Marshaller.NullTermPtrToArray<" ++ boundary ++ "> (") :: x
        ++ [.plain ")"]
  match convert? with
  | none => raw
  | some convert =>
    .plain "(" :: x
      ++ .plain (" == IntPtr.Zero ? null : Array.ConvertAll<" ++ boundary ++ ", " ++ managed
          ++ "> (")
      :: raw ++ .plain ", e => " :: convert ++ [.plain "))"]

def bufferFromArrayPieces (length : Length) (boundary managed : String)
    (convert? : Option (List Piece)) (x : String) : List Piece :=
  let converted :=
    match convert? with
    | none => [.plain x]
    | some convert =>
      .plain ("(" ++ x ++ " == null ? null : Array.ConvertAll<" ++ managed ++ ", " ++ boundary
          ++ "> (" ++ x ++ ", e => ")
        :: convert ++ [.plain "))"]
  match length with
  | .param _ =>
    .plain (runtime ++ ".Marshaller.ArrayToPtr<" ++ boundary ++ "> (") :: converted ++ [.plain ")"]
  | .nullTerminated =>
    .plain (runtime ++ ".Marshaller.ArrayToNullTermPtr<" ++ boundary ++ "> (") :: converted
      ++ [.plain ")"]

def fromNativePieces : Crossing → List Piece → List Piece
  | simple t, x => if t.casts then .plain ("(" ++ t.managed ++ ") ") :: x else x
  | long t, x => .plain ("(" ++ t.managed ++ ") ") :: x
  | enum t, x => .plain ("(" ++ t.identity.qualified ++ ") ") :: x
  | struct _, x | address, x => x
  | object i, x =>
    .plain (runtime ++ ".ObjectManager.GetObject (") :: x ++ [.plain (") as " ++ i.qualified)]
  | callback t, x => .plain (t.invoker ++ ".Wrap (") :: x ++ [.plain ")"]
  | array length e, x =>
    arrayFromBufferPieces length e.boundary e.managed
      (if e.isDirect then none else some (e.fromNativePieces [.plain "e"])) x
      (impliedCountPieces length)
  | structPointer i, x => .plain (i.qualified ++ ".New (") :: x ++ [.plain ")"]
  | utf8, x => .plain (runtime ++ ".Marshaller.Utf8PtrToString (") :: x ++ [.plain ")"]

def fromNativeCountedPieces (c : Crossing) (x count : List Piece) : List Piece :=
  match c with
  | array length e =>
    arrayFromBufferPieces length e.boundary e.managed
      (if e.isDirect then none else some (e.fromNativePieces [.plain "e"])) x count
  | c => c.fromNativePieces x

def toNativePieces : Crossing → String → List Piece
  | callback _, x => [.wrapper (wrapperLocal x), .plain ".NativeFunctionPointer"]
  | array length e, x =>
    bufferFromArrayPieces length e.boundary e.managed
      (if e.isDirect then none else some (e.toNativePieces "e")) x
  | c, x => [.plain (c.toNative x)]

section Text

variable {length : Length} {boundary managed x : String} {convert? : Option (List Piece)}

theorem join_impliedCountPieces : Piece.join (impliedCountPieces length) = impliedCount length := by
  cases length <;> simp [impliedCountPieces, impliedCount, Piece.text]

theorem join_arrayFromBufferPieces (value count : List Piece)
    : Piece.join (arrayFromBufferPieces length boundary managed convert? value count)
        = arrayFromBuffer length boundary managed (convert?.map Piece.join) (Piece.join value)
            (Piece.join count) := by
  unfold arrayFromBufferPieces arrayFromBuffer
  cases length <;> cases convert? <;> simp [Piece.text, String.append_assoc, -String.reduceAppend]

theorem join_bufferFromArrayPieces
    : Piece.join (bufferFromArrayPieces length boundary managed convert? x)
        = bufferFromArray length boundary managed (convert?.map Piece.join) x := by
  unfold bufferFromArrayPieces bufferFromArray
  cases length <;> cases convert? <;> simp [Piece.text, String.append_assoc]

theorem join_fromNativePieces (c : Crossing) (value : List Piece)
    : Piece.join (c.fromNativePieces value) = c.fromNative (Piece.join value) := by
  induction c generalizing value with
  | simple t =>
    unfold fromNativePieces fromNative
    split <;> simp [Piece.text]
  | array length e ih =>
    unfold fromNativePieces fromNative
    rw [join_arrayFromBufferPieces, join_impliedCountPieces]
    split
    . rfl
    . rw [Option.map_some, ih]
      simp [Piece.text]
  | _ => simp [fromNativePieces, fromNative, Piece.text, String.append_assoc]

theorem join_fromNativeCountedPieces (c : Crossing) (value count : List Piece)
    : Piece.join (c.fromNativeCountedPieces value count)
        = c.fromNativeCounted (Piece.join value) (Piece.join count) := by
  cases c with
  | array length e =>
    unfold fromNativeCountedPieces fromNativeCounted
    dsimp only
    rw [join_arrayFromBufferPieces]
    split
    . rfl
    . rw [Option.map_some, join_fromNativePieces]
      simp [Piece.text]
  | _ => exact join_fromNativePieces _ value

theorem join_toNativePieces (c : Crossing) (x : String)
    : Piece.join (c.toNativePieces x) = c.toNative x := by
  induction c generalizing x with
  | callback t => simp [toNativePieces, toNative, Piece.text]
  | array length e ih =>
    unfold toNativePieces toNative
    rw [join_bufferFromArrayPieces]
    split
    . rfl
    . rw [Option.map_some, ih]
  | _ => simp [toNativePieces, Piece.text]

end Text

section Names

variable {p : Piece} (hp : p.isName = true)

theorem wrappers_of_isDirect {c : Crossing} {x : String} (h : c.isDirect = true)
    : c.wrappers x = [] := by
  cases c with
  | callback t => cases h
  | array length e => cases h
  | _ => rfl

theorem lengths_of_isDirect {c : Crossing} (h : c.isDirect = true) : c.lengths = [] := by
  cases c with
  | array length e => cases h
  | _ => rfl

/--
The elements of an array are converted unless they cross as they are, and then there is no name.
-/
theorem mem_converter {e : Crossing} {ps : List Piece} {named : Prop} (hps : p ∈ ps ↔ named)
    (hdirect : e.isDirect = true → ¬ named)
    : (∃ qs ∈ (if e.isDirect then none else some ps), p ∈ qs) ↔ named := by
  cases h : e.isDirect with
  | true => simp [hdirect h]
  | false => simp [hps]

include hp

theorem mem_bufferFromArrayPieces {length : Length} {boundary managed x : String}
    {convert? : Option (List Piece)}
    : p ∈ bufferFromArrayPieces length boundary managed convert? x ↔ ∃ ps ∈ convert?, p ∈ ps := by
  unfold bufferFromArrayPieces
  cases length <;> cases convert? <;> simp [ne_plain hp]

theorem mem_toNativePieces {c : Crossing} {x : String}
    : p ∈ c.toNativePieces x ↔ ∃ holder ∈ c.wrappers x, p = .wrapper holder := by
  induction c generalizing x with
  | callback t => simp [toNativePieces, wrappers, ne_plain hp]
  | array length e ih =>
    unfold toNativePieces wrappers
    rw [mem_bufferFromArrayPieces hp, mem_converter ih]
    intro hdirect
    simp [wrappers_of_isDirect hdirect]
  | _ => simp [toNativePieces, wrappers, ne_plain hp]

theorem mem_arrayFromBufferPieces {length : Length} {boundary managed : String}
    {convert? : Option (List Piece)} {value count : List Piece}
    : p ∈ arrayFromBufferPieces length boundary managed convert? value count
        ↔
      p ∈ value ∨ (length ≠ .nullTerminated ∧ p ∈ count) ∨ ∃ ps ∈ convert?, p ∈ ps := by
  unfold arrayFromBufferPieces
  cases length <;> cases convert? <;> simp [ne_plain hp]

theorem mem_fromNativePieces {c : Crossing} {value : List Piece}
    : p ∈ c.fromNativePieces value ↔ p ∈ value ∨ ∃ name ∈ c.lengths, p = .count name := by
  induction c generalizing value with
  | simple t =>
    unfold fromNativePieces lengths
    split <;> simp [ne_plain hp]
  | array length e ih =>
    unfold fromNativePieces
    rw [mem_arrayFromBufferPieces hp]
    have helement : p ∈ e.fromNativePieces [.plain "e"] ↔ ∃ name ∈ e.lengths, p = .count name := by
      rw [ih]
      simp [ne_plain hp]
    rw [mem_converter helement]
    . cases length <;> simp [lengths, impliedCountPieces, ne_plain hp]
    . intro hdirect
      simp [lengths_of_isDirect hdirect]
  | _ => simp [fromNativePieces, lengths, ne_plain hp]

theorem mem_fromNativeCountedPieces {length : String} {e : Crossing} {value count : List Piece}
    : p ∈ (array (.param length) e).fromNativeCountedPieces value count
        ↔
      p ∈ value ∨ p ∈ count ∨ ∃ name ∈ e.lengths, p = .count name := by
  have helement : p ∈ e.fromNativePieces [.plain "e"] ↔ ∃ name ∈ e.lengths, p = .count name := by
    rw [mem_fromNativePieces hp]
    simp [ne_plain hp]
  unfold fromNativeCountedPieces
  dsimp only
  rw [mem_arrayFromBufferPieces hp, mem_converter helement]
  . simp
  . intro hdirect
    simp [lengths_of_isDirect hdirect]

end Names

theorem mem_lengths {c : Crossing} {name : String}
    : name ∈ c.lengths ↔ c.ownLength? = some name ∨ name ∈ c.elementLengths := by
  cases c with
  | array length e => cases length <;> simp [lengths, ownLength?, elementLengths, eq_comm]
  | _ => simp [lengths, ownLength?, elementLengths]

/--
Behind a pointer a value crosses as it does by itself, or as something that has no names in it.
-/
theorem behind_eq (c : Crossing) (depth : Nat)
    : c.behind depth = c ∨ ∀ x, (c.behind depth).ownLength? = none
        ∧ (c.behind depth).wrappers x = (c.behind depth).elementWrappers := by
  unfold behind
  split
  . exact .inl rfl
  . split
    . exact .inl rfl
    . exact .inl rfl
    . exact .inl rfl
    . exact .inr fun x => ⟨rfl, rfl⟩
    . split <;> exact .inr fun x => ⟨rfl, rfl⟩
    . exact .inr fun x => ⟨rfl, rfl⟩
  . exact .inr fun x => ⟨rfl, rfl⟩

end Crossing

section Uses

variable {t : Table} {ref : String} {use : Use} (huse : t.resolve ref = .ok use)

include huse

theorem content_of_lengthParam? {length : String} (h : use.lengthParam? = some length)
    : ∃ type e, use.type = .array type ∧ use.content = .array (.param length) e := by
  rcases Table.resolve_eq_ok.1 huse with ⟨d, _, rfl⟩
  rcases Binding.lengthParam?_eq_some.1 h with ⟨type, htype, hparam⟩
  obtain rfl : d = .array type := htype
  have hlength : type.length = .param length := by
    unfold ArrayType.lengthParam? at hparam
    split at hparam
    . next hlength => rw [hlength, Option.some.inj hparam]
    . cases hparam
  refine ⟨type, t.elementCrossing [] type.element, rfl, ?_⟩
  rw [← hlength]
  rfl

theorem lengthParam?_of_ownLength? {length : String} (h : use.crossing.ownLength? = some length)
    : use.lengthParam? = some length := by
  rcases Table.resolve_eq_ok.1 huse with ⟨d, _, rfl⟩
  have hcontent : (t.crossing d).ownLength? = some length := by
    rcases (t.useOf ref d).content.behind_eq (t.useOf ref d).depth with hown | hother
    . rw [← h]
      exact congrArg Crossing.ownLength? hown.symm
    . cases (hother "").1.symm.trans h
  cases d with
  | array type =>
    unfold Table.crossing Crossing.ofDescriptor Crossing.ownLength? at hcontent
    rw [Binding.lengthParam?_eq_some]
    refine ⟨type, rfl, ?_⟩
    unfold ArrayType.lengthParam?
    cases hlength : type.length with
    | param name => simpa [hlength] using hcontent
    | nullTerminated => simp [hlength] at hcontent
  | _ => cases hcontent

theorem wrappers_of_callback {type : CallbackType} (h : use.type = .callback type)
    : use.crossing.elementWrappers = []
      ∧ ∀ x, ∀ holder ∈ use.crossing.wrappers x, holder = wrapperLocal x := by
  rcases Table.resolve_eq_ok.1 huse with ⟨d, _, rfl⟩
  obtain rfl : d = .callback type := h
  unfold Use.crossing Crossing.behind
  split
  . exact ⟨rfl, fun x holder hholder => List.mem_singleton.1 hholder⟩
  . exact ⟨rfl, fun x holder hholder => List.mem_singleton.1 hholder⟩
  . exact ⟨rfl, by simp [Crossing.wrappers]⟩

theorem wrappers_of_not_callback {x : String} (h : ∀ type, use.type ≠ .callback type)
    : use.crossing.wrappers x = use.crossing.elementWrappers := by
  rcases Table.resolve_eq_ok.1 huse with ⟨d, _, rfl⟩
  rcases (t.useOf ref d).content.behind_eq (t.useOf ref d).depth with hown | hother
  . unfold Use.crossing
    rw [hown]
    cases d with
    | callback type => exact absurd rfl (h type)
    | _ => rfl
  . exact (hother x).2

end Uses

namespace Binding

/--
The number of elements of the managed array `array`, for the parameter `length`.
-/
def CallParam.countValue (length : CallParam) (array : String) : String :=
  "(" ++ length.use.crossing.managed ++ ") " ++ elementCount array

def nativeCountPieces (length : CallParam) (array : String) : List Piece :=
  length.use.crossing.toNativePieces (length.countValue array)

def managedValuePieces (use : Use) (x : String) (length? : Option CallParam) : List Piece :=
  match use.type, length? with
  | .array _, some length =>
    use.content.fromNativeCountedPieces [.plain x]
      (.plain "(int) (" :: length.use.crossing.fromNativePieces [.count length.name]
        ++ [.plain ")"])
  | _, _ => use.crossing.fromNativePieces [.plain x]

theorem join_nativeCountPieces (length : CallParam) (array : String)
    : Piece.join (nativeCountPieces length array) = nativeCount length array :=
  length.use.crossing.join_toNativePieces _

theorem join_managedValuePieces (use : Use) (x : String) (length? : Option CallParam)
    : Piece.join (managedValuePieces use x length?) = managedValue use x length? := by
  have hplain : Piece.join (use.crossing.fromNativePieces [.plain x])
      = use.crossing.fromNative x := by
    rw [Crossing.join_fromNativePieces]
    simp [Piece.text]
  unfold managedValuePieces managedValue
  cases length? with
  | none => cases use.type <;> exact hplain
  | some length =>
    cases use.type with
    | array type =>
      dsimp only
      rw [Crossing.join_fromNativeCountedPieces]
      simp [Crossing.join_fromNativePieces, Piece.text, String.append_assoc]
    | _ => exact hplain

/--
The numbers of elements that a value is converted with besides its own, where the parameter
`length?` holds that one: those of arrays that lie in the value, and in the number.
-/
def innerLengths (use : Use) : (length? : Option CallParam) → List String
  | some length => length.use.crossing.lengths ++ use.content.elementLengths
  | none => use.crossing.elementLengths

theorem mem_managedValuePieces {p : Piece} (hp : p.isName = true) {use : Use} {x : String}
    {length? : Option CallParam}
    (hlength : ∀ length ∈ length?, ∃ type name e, use.type = .array type
      ∧ use.content = .array (.param name) e)
    : p ∈ managedValuePieces use x length?
        ↔
      (∃ length ∈ length?, p = .count length.name)
        ∨ (length? = none ∧ ∃ name, use.crossing.ownLength? = some name ∧ p = .count name)
        ∨ ∃ name ∈ innerLengths use length?, p = .count name := by
  cases length? with
  | none =>
    have hpieces : managedValuePieces use x none = use.crossing.fromNativePieces [.plain x] := by
      unfold managedValuePieces
      cases use.type <;> rfl
    rw [hpieces, Crossing.mem_fromNativePieces hp]
    simp [Piece.ne_plain hp, Crossing.mem_lengths, innerLengths]
    grind
  | some length =>
    rcases hlength length rfl with ⟨type, name, e, htype, hcontent⟩
    unfold managedValuePieces innerLengths
    rw [htype, hcontent]
    simp only [Crossing.mem_fromNativeCountedPieces hp, Crossing.elementLengths, List.mem_append]
    simp [Piece.ne_plain hp, Crossing.mem_fromNativePieces hp]
    grind

end Binding

end Interop
