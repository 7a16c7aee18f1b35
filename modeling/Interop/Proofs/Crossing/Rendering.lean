import Interop.Proofs.Crossing.Coherence

/-!
This module contains how far one has to look for the texts of an array's conversions. They are
written by resolving one element after the other, and unless an array is met again, no more of these
resolutions lie within each other than there are arrays.
-/

namespace Interop

open Relation

/--
The types of a value on both sides and its conversions, as they are written.
-/
structure Rendering where
  managed : String
  boundary : String
  fromNative : String → String
  toNative : String → String

def Rendering.array (length : Length) (e : Rendering) : Rendering where
  managed := e.managed ++ "[]"
  boundary := "IntPtr"
  fromNative x :=
    Crossing.arrayFromBuffer length e.boundary e.managed (Crossing.converter? e.fromNative) x
      (Crossing.impliedCount length)
  toNative x :=
    Crossing.bufferFromArray length e.boundary e.managed (Crossing.converter? e.toNative) x

namespace Crossing

def rendering (c : Crossing) : Rendering where
  managed := c.managed
  boundary := c.boundary
  fromNative := c.fromNative
  toNative := c.toNative

theorem rendering_array {length : Length} {e : Crossing}
    : (array length e).rendering = .array length e.rendering := by
  have h := elementwise length e
  unfold rendering Rendering.array
  congr 1
  . funext x
    rw [h.implied, h.fromNative]
  . funext x
    rw [h.toNative]

end Crossing

namespace Table

/--
The arrays of a table by themselves.
-/
def arrays (t : Table) : Table where
  entries := t.entries.filter (·.kind == .array)
  nodup := t.nodup.sublist (List.filter_sublist.map _)

/--
What is written for the elements that `ref` names, if `nesting` resolutions within each other are
enough to find it. Nothing is remembered of the arrays that were met before.
-/
def element? (t : Table) : (nesting : Nat) → (ref : String) → Option Rendering
  | 0, _ => none
  | nesting + 1, ref =>
    match t.get? ref with
    | none => some Crossing.address.rendering
    | some (.array a) =>
      if 2 ≤ Reference.depth ref then some Crossing.address.rendering
      else (t.element? nesting a.element).map (.array a.length)
    | some d => some (t.useOf ref d).crossing.rendering

def render? (t : Table) (nesting : Nat) (a : ArrayType) : Option Rendering :=
  (t.element? nesting a.element).map (.array a.length)

variable {t : Table} {ref : String} {a : ArrayType}

theorem mem_arrays (ha : t.find? a.cname = some (.array a)) : .array a ∈ t.arrays.entries :=
  List.mem_filter.2 ⟨mem_of_find? ha, rfl⟩

theorem useOf_crossing_of_two_le {d : Descriptor} (hdepth : 2 ≤ Reference.depth ref)
    : (t.useOf ref d).crossing = .address :=
  behind_of_two_le hdepth

theorem element?_of_two_le (hdepth : 2 ≤ Reference.depth ref) (nesting : Nat)
    : t.element? (nesting + 1) ref = some Crossing.address.rendering := by
  unfold element?
  split
  . rfl
  . rw [if_pos hdepth]
  . rw [useOf_crossing_of_two_le hdepth]

/--
There are as many resolutions to come as there are arrays that were not met yet, and one more for
elements that are no array.
-/
theorem element?_of_unseen_lt {met : List String} {nesting : Nat}
    (hends : Reference.depth ref ≤ 1 → t.EndsFrom (Reference.core ref)) (hmet : t.Around met ref)
    (hlt : t.arrays.unseen met < nesting)
    : t.element? nesting ref = some (t.elementCrossing [] ref).rendering := by
  induction nesting generalizing met ref with
  | zero => omega
  | succ nesting ih =>
    cases hget : t.get? ref with
    | none =>
      have herror : t.resolve ref = .error (.notFound (Reference.core ref)) := by
        simp [resolve, lookup, hget, Except.map]
      rw [elementCrossing_of_error herror, element?, hget]
    | some d =>
      have huse : t.resolve ref = .ok (t.useOf ref d) := resolve_eq_ok.2 ⟨d, hget, rfl⟩
      rw [elementCrossing_of_resolve hends huse]
      by_cases hdepth : 2 ≤ Reference.depth ref
      . rw [element?_of_two_le hdepth, useOf_crossing_of_two_le hdepth]
      have hdepth : Reference.depth ref ≤ 1 := by omega
      cases d with
      | array a =>
        have hcname : a.cname = Reference.core ref := cname_of_find? hget
        have ha : t.find? a.cname = some (.array a) := by
          rw [hcname]
          exact hget
        have hnew : a.cname ∉ met := by
          rw [hcname]
          exact hmet.core_notMem (hends hdepth) hdepth
        have hless : t.arrays.unseen (a.cname :: met) < t.arrays.unseen met :=
          unseen_cons_lt (mem_arrays ha) hnew
        have helement := ih ((hends hdepth).element hget) (hmet.element hget hdepth) (by omega)
        have hcrossing : (t.useOf ref (.array a)).crossing
            = .array a.length (t.elementCrossing [] a.element) := behind_array hdepth
        simp only [element?, hget]
        rw [if_neg (by omega), helement, hcrossing, Crossing.rendering_array]
        rfl
      | simple | long | object | struct | enum | callback =>
        simp only [element?, hget]

/--
Where some array is met again, one of them is the next.
-/
theorem next_of_not_endsFrom {name : String} (h : ¬ t.EndsFrom name)
    : ∃ a, t.find? name = some (.array a) ∧ Reference.depth a.element ≤ 1
        ∧ ¬ t.EndsFrom (Reference.core a.element) := by
  simp only [EndsFrom, not_forall, not_not] at h
  rcases h with ⟨b, hreach, hcycle⟩
  rcases TransGen.head'_iff.1 (TransGen.trans_right hreach hcycle) with ⟨c, hstep, hrest⟩
  rcases hstep with ⟨a, ha, hdepth, rfl⟩
  exact ⟨a, ha, hdepth, fun hends => hends b hrest hcycle⟩

theorem element?_of_not_endsFrom (h : ¬ t.EndsFrom (Reference.core ref))
    (hdepth : Reference.depth ref ≤ 1) (nesting : Nat) : t.element? nesting ref = none := by
  induction nesting generalizing ref with
  | zero => rfl
  | succ nesting ih =>
    rcases next_of_not_endsFrom h with ⟨a, ha, hdepth', hnext⟩
    have hget : t.get? ref = some (.array a) := ha
    simp only [element?, hget]
    rw [if_neg (by omega), ih hnext hdepth']
    rfl

end Table

/--
If following its elements never meets an array again, what is written for an array is found with as
many resolutions within each other as there are arrays, and more of them change nothing. Otherwise
no number of them is enough. A reference with two pointers or more is never followed.
-/
theorem rendering_terminates (t : Table) (a : ArrayType) (ha : t.find? a.cname = some (.array a))
    : (t.EndsFrom a.cname → ∀ nesting, t.arrays.entries.length ≤ nesting →
          t.render? nesting a = some (t.crossing (.array a)).rendering)
        ∧ (¬ t.EndsFrom a.cname → ∀ nesting, t.render? nesting a = none)
        ∧ ∀ ref, 2 ≤ Reference.depth ref → ∀ nesting,
            t.element? (nesting + 1) ref = some Crossing.address.rendering := by
  refine ⟨?_, ?_, fun ref hdepth nesting => Table.element?_of_two_le hdepth nesting⟩
  . intro hends nesting hle
    have hmet : t.Around [a.cname] a.element := by
      intro b hb hdepth
      obtain rfl := List.mem_singleton.1 hb
      exact .single ⟨a, ha, hdepth, rfl⟩
    have hfirst : t.arrays.unseen [a.cname] < t.arrays.unseen [] :=
      Table.unseen_cons_lt (Table.mem_arrays ha) List.not_mem_nil
    have hall : t.arrays.unseen [] = t.arrays.entries.length := by simp [Table.unseen]
    have helement := Table.element?_of_unseen_lt (hends.element ha) hmet (by omega : _ < nesting)
    rw [Table.render?, helement]
    exact congrArg some Crossing.rendering_array.symm
  . intro hends nesting
    rcases Table.next_of_not_endsFrom hends with ⟨b, hb, hdepth, hnext⟩
    obtain rfl : a = b := by simpa [ha] using hb
    rw [Table.render?, Table.element?_of_not_endsFrom hnext hdepth]
    rfl

-- Each of the two arrays leads to the other one, once behind two pointers.
theorem rendering_terminates_links
    : ringTable.find? "DemoLinks" = some (.array links)
        ∧ ringTable.get? links.element = some (.array ring)
        ∧ ringTable.get? ring.element = some (.array links)
        ∧ ringTable.EndsFrom "DemoLinks"
        ∧ ∀ nesting, 2 ≤ nesting →
            ringTable.render? nesting links
              = some (Crossing.array links.length (.array ring.length .address)).rendering := by
  have hlinks : ringTable.find? "DemoLinks" = some (.array links) := by decide +kernel
  have hring : ringTable.get? links.element = some (.array ring) := by decide +kernel
  have hback : ringTable.get? ring.element = some (.array links) := by decide +kernel
  refine ⟨hlinks, hring, hback, endsFrom_links, ?_⟩
  intro nesting hle
  have hcrossing : ringTable.crossing (.array links)
      = .array links.length (.array ring.length .address) := by decide +kernel
  rw [← hcrossing]
  exact (rendering_terminates ringTable links hlinks).1 endsFrom_links nesting hle

end Interop
