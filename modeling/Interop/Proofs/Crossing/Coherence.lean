import Interop.Proofs.Binding.Shape
import Interop.Proofs.Crossing

/-!
This module contains what the two conversions of a value have in common. Both leave every variable
as it is or neither leaves any, and only if the types on both sides are the same; so the text of a
conversion tells whether there is something to convert.
-/

namespace Interop

open Relation

namespace Text

theorem ne_of_length_lt {a x : String} (h : x.toList.length < a.toList.length) : a ≠ x := by
  rintro rfl
  omega

/--
A name is not extended by taking its `@`s away and writing something else behind it.
-/
theorem bareName_append_ne {x back : String} {c : Char} {cs : List Char}
    (hback : back.toList = c :: cs) (hc : c ≠ '@') : bareName x ++ back ≠ x := by
  intro h
  have hlist := congrArg String.toList h
  unfold bareName at hlist
  rw [String.toList_append, String.toList_ofList, hback] at hlist
  cases hbare : x.toList.dropWhile (· == '@') with
  | nil =>
    rw [hbare, List.nil_append] at hlist
    rw [← hlist, List.dropWhile_cons_of_neg (by simpa using hc)] at hbare
    cases hbare
  | cons b bs =>
    -- What is left starts with no `@`, so it starts the name, which then is as long as it is.
    have hb : (b == '@') = false := by
      have := List.head_dropWhile_not (· == '@') (by rw [hbare]; simp)
      simpa [hbare] using this
    rw [hbare, List.cons_append] at hlist
    rw [← hlist, List.dropWhile_cons_of_neg (by simp [hb])] at hbare
    have hlength := congrArg List.length hbare
    simp at hlength

end Text

namespace Crossing

/--
What is to be done with each element of an array, where `convert` is the conversion of one: nothing,
if it leaves the variable `e` as it is.
-/
def converter? (convert : String → String) : Option String :=
  if convert "e" = "e" then none else some (convert "e")

/--
What both conversions of a value have in common.
-/
structure Coherent (c : Crossing) : Prop where
  together : ∀ x, c.fromNative x = x ↔ c.toNative x = x
  /-- One variable tells for all of them. -/
  uniform : ∀ x y, c.fromNative x = x → c.fromNative y = y
  types : ∀ x, c.fromNative x = x → c.managed = c.boundary
  /-- A value that counts as direct needs no conversion in either direction, -/
  direct : c.isDirect = true ↔ ∀ x, c.fromNative x = x ∧ c.toNative x = x
  /-- which can be seen from its types and from one variable. -/
  identity : c.isDirect = true ↔ c.managed = c.boundary ∧ c.fromNative "v" = "v"

/--
How an array is carried over whose elements cross like `e`.
-/
structure Elementwise (length : Length) (e c : Crossing) : Prop where
  fromNative : ∀ x count, c.fromNativeCounted x count
    = arrayFromBuffer length e.boundary e.managed (converter? e.fromNative) x count
  implied : ∀ x, c.fromNative x = c.fromNativeCounted x (impliedCount length)
  toNative : ∀ x, c.toNative x
    = bufferFromArray length e.boundary e.managed (converter? e.toNative) x
  /-- The elements are taken as they are in both directions or in neither, -/
  together : ∀ x count y,
    c.fromNativeCounted x count = arrayFromBuffer length e.boundary e.managed none x count
      ↔ c.toNative y = bufferFromArray length e.boundary e.managed none y
  /-- and only if they have the same type on both sides. -/
  types : ∀ x count,
    c.fromNativeCounted x count = arrayFromBuffer length e.boundary e.managed none x count →
      e.managed = e.boundary

variable {c e : Crossing} {length : Length} {x : String}

theorem boundary_of_isDirect (h : c.isDirect = true) : c.boundary = c.managed := by
  cases c with
  | simple t =>
    simp only [isDirect, SimpleType.casts, boundary, SimpleType.boundary, managed] at h ⊢
    cases hb : t.boundary? with
    | none => rfl
    | some b => simpa [hb] using h
  | struct _ | address => rfl
  | _ => cases h

theorem length_lt_arrayFromBuffer {boundary managed count : String} {convert? : Option String}
    : x.toList.length
        < (arrayFromBuffer length boundary managed convert? x count).toList.length := by
  unfold arrayFromBuffer
  cases length <;> cases convert? <;> simp <;> omega

theorem length_lt_bufferFromArray {boundary managed : String} {convert? : Option String}
    : x.toList.length < (bufferFromArray length boundary managed convert? x).toList.length := by
  unfold bufferFromArray
  cases length <;> cases convert? <;> simp <;> omega

theorem arrayFromBuffer_eq_unconverted_iff {boundary managed count : String}
    {convert? : Option String}
    : arrayFromBuffer length boundary managed convert? x count
          = arrayFromBuffer length boundary managed none x count
        ↔
      convert? = none := by
  cases convert? with
  | none => simp
  | some convert =>
    refine iff_of_false (Text.ne_of_length_lt ?_) (by simp)
    unfold arrayFromBuffer
    cases length <;> simp <;> omega

theorem bufferFromArray_eq_unconverted_iff {boundary managed : String} {convert? : Option String}
    : bufferFromArray length boundary managed convert? x
          = bufferFromArray length boundary managed none x
        ↔
      convert? = none := by
  cases convert? with
  | none => simp
  | some convert =>
    refine iff_of_false (Text.ne_of_length_lt ?_) (by simp)
    unfold bufferFromArray
    cases length <;> simp

theorem fromNative_of_isDirect (h : c.isDirect = true) : c.fromNative x = x := by
  cases c with
  | simple t =>
    have hcasts : t.casts = false := by simpa [isDirect] using h
    simp [fromNative, hcasts]
  | struct | address => rfl
  | _ => cases h

theorem toNative_of_isDirect (h : c.isDirect = true) : c.toNative x = x := by
  cases c with
  | simple t =>
    have hcasts : t.casts = false := by simpa [isDirect] using h
    simp [toNative, hcasts]
  | struct | address => rfl
  | _ => cases h

theorem fromNative_ne (h : c.isDirect = false) : c.fromNative x ≠ x := by
  apply Text.ne_of_length_lt
  cases c with
  | simple t =>
    have hcasts : t.casts = true := by simpa [isDirect] using h
    simp [fromNative, hcasts]
    omega
  | struct | address => cases h
  | array length e =>
    unfold fromNative
    exact length_lt_arrayFromBuffer
  | long | enum | object | callback | structPointer | utf8 =>
    simp [fromNative]
    omega

theorem toNative_ne (h : c.isDirect = false) : c.toNative x ≠ x := by
  cases c with
  | callback t =>
    -- The wrapper goes by the bare name, which may be shorter than the name itself.
    unfold toNative wrapperLocal
    rw [String.append_assoc]
    exact Text.bareName_append_ne (c := '_') rfl (by decide)
  | simple t =>
    have hcasts : t.casts = true := by simpa [isDirect] using h
    apply Text.ne_of_length_lt
    simp [toNative, hcasts]
    omega
  | struct | address => cases h
  | array length e =>
    apply Text.ne_of_length_lt
    unfold toNative
    exact length_lt_bufferFromArray
  | object t =>
    apply Text.ne_of_length_lt
    simp [toNative]
  | long | enum | structPointer | utf8 =>
    apply Text.ne_of_length_lt
    simp [toNative]
    omega

theorem fromNative_eq_iff : c.fromNative x = x ↔ c.isDirect = true := by
  refine ⟨fun h => ?_, fromNative_of_isDirect⟩
  by_contra hdirect
  exact fromNative_ne (Bool.eq_false_iff.2 hdirect) h

theorem toNative_eq_iff : c.toNative x = x ↔ c.isDirect = true := by
  refine ⟨fun h => ?_, toNative_of_isDirect⟩
  by_contra hdirect
  exact toNative_ne (Bool.eq_false_iff.2 hdirect) h

theorem coherent (c : Crossing) : c.Coherent where
  together x := fromNative_eq_iff.trans toNative_eq_iff.symm
  uniform x y h := fromNative_eq_iff.2 (fromNative_eq_iff.1 h)
  types x h := (boundary_of_isDirect (fromNative_eq_iff.1 h)).symm
  direct := by simp [fromNative_eq_iff, toNative_eq_iff]
  identity := by
    rw [fromNative_eq_iff, iff_and_self]
    exact fun h => (boundary_of_isDirect h).symm

theorem converter?_fromNative
    : converter? e.fromNative = if e.isDirect then none else some (e.fromNative "e") := by
  simp only [converter?, fromNative_eq_iff]

theorem converter?_toNative
    : converter? e.toNative = if e.isDirect then none else some (e.toNative "e") := by
  simp only [converter?, toNative_eq_iff]

theorem elementwise (length : Length) (e : Crossing) : Elementwise length e (array length e) := by
  have hfrom (x count : String) : (array length e).fromNativeCounted x count
      = arrayFromBuffer length e.boundary e.managed (converter? e.fromNative) x count := by
    rw [converter?_fromNative]
    rfl
  have hto (x : String) : (array length e).toNative x
      = bufferFromArray length e.boundary e.managed (converter? e.toNative) x := by
    rw [converter?_toNative, toNative]
  have hskips (x count : String)
      : (array length e).fromNativeCounted x count
            = arrayFromBuffer length e.boundary e.managed none x count
          ↔ e.isDirect = true := by
    rw [hfrom, arrayFromBuffer_eq_unconverted_iff, converter?_fromNative]
    simp
  refine ⟨hfrom, ?_, hto, ?_, ?_⟩
  . intro x
    rw [fromNative, fromNativeCounted]
  . intro x count y
    rw [hskips, hto, bufferFromArray_eq_unconverted_iff, converter?_toNative]
    simp
  . intro x count h
    exact (boundary_of_isDirect ((hskips x count).1 h)).symm

end Crossing

namespace Table

variable {t : Table}

/--
As long as no array is met again, the elements of an array cross like any value of their type.
-/
theorem elementCrossing_of_resolve {ref : String} {use : Use}
    (hends : Reference.depth ref ≤ 1 → t.EndsFrom (Reference.core ref))
    (huse : t.resolve ref = .ok use) : t.elementCrossing [] ref = use.crossing := by
  rcases resolve_eq_ok.1 huse with ⟨d, hget, rfl⟩
  have hcrossing : t.elementCrossing [] ref
      = (Crossing.ofDescriptor (t.elementCrossing [d.cname]) d).behind (Reference.depth ref) := by
    rw [elementCrossing]
    split
    . next hnone => cases hget.symm.trans hnone
    . next d' hd' =>
      obtain rfl : d = d' := Option.some.inj (hget.symm.trans hd')
      exact dif_neg List.not_mem_nil
  rw [hcrossing]
  unfold Use.crossing useOf crossing
  cases d with
  | array a =>
    by_cases hdepth : Reference.depth ref ≤ 1
    . have helement : t.elementCrossing [a.cname] a.element = t.elementCrossing [] a.element :=
        elementCrossing_congr ((hends hdepth).element hget) ((Around.nil ref).element hget hdepth)
          (Around.nil _)
      exact congrArg (fun c => (Crossing.array a.length c).behind _) helement
    . have hdepth : 2 ≤ Reference.depth ref := by omega
      rw [behind_of_two_le hdepth, behind_of_two_le hdepth]
  | simple | long | object | struct | enum | callback => rfl

theorem elementCrossing_of_error {ref : String} {error : SymbolError}
    (herror : t.resolve ref = .error error) : t.elementCrossing [] ref = .address := by
  cases hget : t.get? ref with
  | none =>
    unfold elementCrossing
    split
    . rfl
    . next d hd => cases hget.symm.trans hd
  | some d =>
    have huse := resolve_eq_ok.2 ⟨d, hget, rfl⟩
    cases herror.symm.trans huse

end Table

/--
However a type is used, its conversions leave every variable as it is in both directions or in
neither, and if they do, it has the same type on both sides; that is what a direct value is. So an
array converts its elements one by one in both directions or in neither, and elements that it takes
as they are have one type. Unless it is met again among them, its elements cross like any value of
their type.
-/
theorem conversions_coherent (t : Table) (ref : String) (use : Use) (huse : t.resolve ref = .ok use)
    : use.crossing.Coherent
      ∧ ∀ a, use.type = .array a →
          ∃ e, use.content = .array a.length e ∧ e.Coherent
            ∧ Crossing.Elementwise a.length e use.content
            ∧ (t.EndsFrom (Reference.core ref) →
                match t.resolve a.element with
                | .ok element => e = element.crossing
                | .error _ => e = .address) := by
  refine ⟨use.crossing.coherent, ?_⟩
  intro a htype
  rcases Table.resolve_eq_ok.1 huse with ⟨d, hget, rfl⟩
  obtain rfl : d = .array a := htype
  refine ⟨t.elementCrossing [] a.element, rfl, Crossing.coherent _, Crossing.elementwise _ _, ?_⟩
  intro hends
  split
  . next element helement =>
    exact Table.elementCrossing_of_resolve (hends.element hget) helement
  . next error herror => exact Table.elementCrossing_of_error herror

/--
An array of addresses that each lead to an array like the next one.
-/
def ring : ArrayType :=
  ⟨"DemoRing", "DemoLinks**", .nullTerminated⟩

/--
An array of such arrays, counted by a neighbour.
-/
def links : ArrayType :=
  ⟨"DemoLinks", "DemoRing", .param "n"⟩

def ringTable : Table where
  entries := [.array ring, .array links]
  nodup := by decide

theorem endsFrom_links : ringTable.EndsFrom "DemoLinks" := by
  refine (Table.arraysEnd_of_flat ?_).endsFrom _
  rintro a b c ⟨x, hx, hdepth, rfl⟩ ⟨y, hy, hdepth', rfl⟩
  have hx : x = ring ∨ x = links := by simpa [ringTable] using Table.mem_of_find? hx
  rcases hx with rfl | rfl
  . exact absurd hdepth (by decide)
  . have hring : ringTable.find? (Reference.core links.element) = some (.array ring) := by
      decide +kernel
    obtain rfl : y = ring := by simpa [hring, eq_comm] using hy
    exact absurd hdepth' (by decide)

def linksUse : Use :=
  ringTable.useOf "const DemoLinks*" (.array links)

-- The inner arrays take their addresses as they are, the outer one converts the inner ones.
theorem conversions_coherent_links
    : ringTable.resolve "const DemoLinks*" = .ok linksUse
        ∧ linksUse.crossing.Coherent
        ∧ ringTable.EndsFrom (Reference.core "const DemoLinks*")
        ∧ ∃ e, linksUse.content = .array links.length e
            ∧ e = (ringTable.useOf "DemoRing" (.array ring)).crossing
            ∧ Crossing.Elementwise links.length e linksUse.content
            ∧ ¬ e.fromNative "e" = "e" ∧ ¬ e.toNative "e" = "e" := by
  have hget : ringTable.get? "const DemoLinks*" = some (.array links) := by decide +kernel
  have huse : ringTable.resolve "const DemoLinks*" = .ok linksUse :=
    Table.resolve_eq_ok.2 ⟨_, hget, rfl⟩
  have hring : ringTable.resolve links.element = .ok (ringTable.useOf "DemoRing" (.array ring)) :=
    Table.resolve_eq_ok.2 ⟨_, by decide +kernel, rfl⟩
  have hcore : Reference.core "const DemoLinks*" = "DemoLinks" := by decide +kernel
  have hends : ringTable.EndsFrom (Reference.core "const DemoLinks*") := by
    rw [hcore]
    exact endsFrom_links
  rcases conversions_coherent ringTable "const DemoLinks*" linksUse huse with ⟨hcoherent, harray⟩
  rcases harray links rfl with ⟨e, hcontent, helement, helementwise, hsame⟩
  have he := hsame hends
  rw [hring] at he
  have hdirect : e.isDirect = false := by
    rw [he]
    rfl
  exact ⟨huse, hcoherent, hends, e, hcontent, he, helementwise, Crossing.fromNative_ne hdirect,
    Crossing.toNative_ne hdirect⟩

end Interop
