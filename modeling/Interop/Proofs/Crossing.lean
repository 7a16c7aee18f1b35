import Interop.Crossing
import Mathlib.Logic.Relation

/-!
This module contains what becomes of the elements of arrays. Following element types from array to
array comes to an end in every table whose arrays do not lead back to themselves, and there no
element is cut off.
-/

namespace Interop

open Relation

namespace Table

/--
The type registered as `a` is an array whose elements are of type `b`, behind one pointer at most.
-/
def ElementStep (t : Table) (a b : String) : Prop :=
  ∃ x, t.find? a = some (.array x) ∧ Reference.depth x.element ≤ 1 ∧ Reference.core x.element = b

def ArraysEnd (t : Table) : Prop :=
  ∀ a, ¬ TransGen t.ElementStep a a

/--
Following element types from the array `name` on never meets an array again.
-/
def EndsFrom (t : Table) (name : String) : Prop :=
  ∀ a, ReflTransGen t.ElementStep name a → ¬ TransGen t.ElementStep a a

/--
The arrays in `met` are those around the elements that `ref` names.
-/
def Around (t : Table) (met : List String) (ref : String) : Prop :=
  ∀ a ∈ met, Reference.depth ref ≤ 1 → TransGen t.ElementStep a (Reference.core ref)

/--
How the elements named by a reference cross, found by following element types as far as they lead.
-/
inductive ElementCrosses (t : Table) : String → Crossing → Prop where
  | unknown {ref : String} (hget : t.get? ref = none) : ElementCrosses t ref .address
  | behind {ref : String} {d : Descriptor} (hget : t.get? ref = some d)
      (hdepth : 2 ≤ Reference.depth ref) : ElementCrosses t ref .address
  | array {ref : String} {a : ArrayType} {c : Crossing} (hget : t.get? ref = some (.array a))
      (hdepth : Reference.depth ref ≤ 1) (helement : ElementCrosses t a.element c) :
      ElementCrosses t ref (.array a.length c)
  | other {ref : String} {d : Descriptor} (hget : t.get? ref = some d) (hkind : d.kind ≠ .array)
      (element : String → Crossing) :
      ElementCrosses t ref ((Crossing.ofDescriptor element d).behind (Reference.depth ref))

variable {t : Table}

theorem arraysEnd_of_flat (h : ∀ a b c, t.ElementStep a b → ¬ t.ElementStep b c) : t.ArraysEnd := by
  intro a hcycle
  rcases TransGen.head'_iff.1 hcycle with ⟨b, hstep, hrest⟩
  cases hrest using ReflTransGen.head_induction_on with
  | refl => exact h _ _ _ hstep hstep
  | head hnext _ => exact h _ _ _ hstep hnext

theorem behind_of_two_le {c : Crossing} {depth : Nat} (h : 2 ≤ depth)
    : c.behind depth = .address := by
  match depth with
  | n + 2 => rfl

theorem behind_array {length : Length} {c : Crossing} {depth : Nat} (h : depth ≤ 1)
    : (Crossing.array length c).behind depth = .array length c := by
  match depth with
  | 0 => rfl
  | 1 => rfl

theorem EndsFrom.element {name : String} {a : ArrayType} (hends : t.EndsFrom name)
    (ha : t.find? name = some (.array a)) (hdepth : Reference.depth a.element ≤ 1)
    : t.EndsFrom (Reference.core a.element) := by
  intro b hb
  exact hends b (.head ⟨a, ha, hdepth, rfl⟩ hb)

theorem ArraysEnd.endsFrom (hends : t.ArraysEnd) (name : String) : t.EndsFrom name :=
  fun a _ => hends a

namespace Around

variable {met : List String} {ref : String}

theorem nil (ref : String) : t.Around [] ref := by
  simp [Around]

theorem element {a : ArrayType} (h : t.Around met ref) (hget : t.get? ref = some (.array a))
    (hdepth : Reference.depth ref ≤ 1) : t.Around (a.cname :: met) a.element := by
  intro b hb hdepth'
  have hstep : t.ElementStep (Reference.core ref) (Reference.core a.element) :=
    ⟨a, hget, hdepth', rfl⟩
  rcases List.mem_cons.1 hb with rfl | hb
  . have hcname : a.cname = Reference.core ref := cname_of_find? hget
    rw [hcname]
    exact .single hstep
  . exact .tail (h b hb hdepth) hstep

-- To meet one of them again would close a cycle.
theorem core_notMem (h : t.Around met ref) (hends : t.EndsFrom (Reference.core ref))
    (hdepth : Reference.depth ref ≤ 1) : Reference.core ref ∉ met :=
  fun hmem => hends _ .refl (h _ hmem hdepth)

end Around

theorem elementCrossing_crosses (hends : t.ArraysEnd) (seen : List String) (ref : String)
    (hseen : ∀ s ∈ seen, Reference.depth ref ≤ 1 → TransGen t.ElementStep s (Reference.core ref))
    : t.ElementCrosses ref (t.elementCrossing seen ref) := by
  unfold elementCrossing
  split
  . next hget => exact .unknown hget
  . next d hget =>
    have hcname : d.cname = Reference.core ref := cname_of_find? hget
    by_cases hdepth : Reference.depth ref ≤ 1
    . have hnew : d.cname ∉ seen := by
        rw [hcname]
        exact Around.core_notMem hseen (hends.endsFrom _) hdepth
      rw [dif_neg hnew]
      have hlt : t.unseen (d.cname :: seen) < t.unseen seen :=
        unseen_cons_lt (mem_of_find? hget) hnew
      cases d with
      | array a =>
        unfold Crossing.ofDescriptor
        rw [behind_array hdepth]
        apply ElementCrosses.array hget hdepth
        apply elementCrossing_crosses hends
        exact Around.element hseen hget hdepth
      | simple _ | long _ | object _ | struct _ | enum _ | callback _ =>
        apply ElementCrosses.other hget
        simp [Descriptor.kind]
    . have hdepth : 2 ≤ Reference.depth ref := by omega
      have haddress : ElementCrosses t ref .address := .behind hget hdepth
      split
      . exact haddress
      . rw [behind_of_two_le hdepth]
        exact haddress
termination_by t.unseen seen

/--
As long as no array is met again, what was met before makes no difference.
-/
theorem elementCrossing_congr {seen seen' : List String} {ref : String}
    (hends : Reference.depth ref ≤ 1 → t.EndsFrom (Reference.core ref))
    (hseen : t.Around seen ref) (hseen' : t.Around seen' ref)
    : t.elementCrossing seen ref = t.elementCrossing seen' ref := by
  unfold elementCrossing
  split
  . rfl
  . next d hget =>
    have hcname : d.cname = Reference.core ref := cname_of_find? hget
    by_cases hdepth : Reference.depth ref ≤ 1
    . have hnew : d.cname ∉ seen := by
        rw [hcname]
        exact hseen.core_notMem (hends hdepth) hdepth
      have hnew' : d.cname ∉ seen' := by
        rw [hcname]
        exact hseen'.core_notMem (hends hdepth) hdepth
      rw [dif_neg hnew, dif_neg hnew']
      have hlt : t.unseen (d.cname :: seen) < t.unseen seen :=
        unseen_cons_lt (mem_of_find? hget) hnew
      cases d with
      | array a =>
        have helement : t.elementCrossing (a.cname :: seen) a.element
            = t.elementCrossing (a.cname :: seen') a.element :=
          elementCrossing_congr (hends hdepth |>.element hget) (hseen.element hget hdepth)
            (hseen'.element hget hdepth)
        exact congrArg (fun c => (Crossing.array a.length c).behind _) helement
      | simple | long | object | struct | enum | callback => rfl
    . have hdepth : 2 ≤ Reference.depth ref := by omega
      simp only [behind_of_two_le hdepth, dite_eq_ite, ite_self]
termination_by t.unseen seen

end Table

end Interop
