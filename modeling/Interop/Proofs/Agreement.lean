import Interop.Dispatch
import Interop.Proofs.Validity

/-!
This module contains tables that agree on a name and on every name that it leads to. What is looked
up on behalf of a type is looked up there, so the types that are registered besides make no
difference to how a value of it crosses the boundary or from whom it derives.
-/

namespace Interop

open Relation

namespace Table

/--
Both tables give the same answer for `name` and for every name that it leads to.
-/
def Agree (t t' : Table) (name : String) : Prop :=
  ∀ n, ReflTransGen t.Refers name n → t'.find? n = t.find? n

def AgreeOn (t t' : Table) (refs : List String) : Prop :=
  ∀ ref ∈ refs, t.Agree t' (Reference.core ref)

/--
Both tables agree on the types of a signature, except on the return type if nothing is returned.
-/
def AgreeOnSignature (t t' : Table) (s : Signature) : Prop :=
  t.AgreeOn t' (s.params.map (·.ctype))
    ∧ (s.returnsVoid = false → t.Agree t' (Reference.core s.returns))

variable {t t' : Table} {name : String} {d : Descriptor}

theorem Agree.find? (h : t.Agree t' name) : t'.find? name = t.find? name :=
  h name .refl

theorem Agree.get? {ref : String} (h : t.Agree t' (Reference.core ref))
    : t'.get? ref = t.get? ref :=
  h.find?

theorem Agree.dependencies (h : t.Agree t' name) (hd : t.find? name = some d)
    : t.AgreeOn t' d.dependencies := by
  intro ref href n hn
  have hrefers : t.Refers name (Reference.core ref) :=
    ⟨d, hd, Descriptor.mem_references.2 ⟨ref, href, rfl⟩⟩
  exact h n (.head hrefers hn)

theorem AgreeOn.signature {s : Signature} (h : t.AgreeOn t' s.dependencies)
    : t.AgreeOnSignature t' s := by
  unfold AgreeOn Signature.dependencies at h
  rw [List.forall_mem_cons] at h
  exact ⟨h.2, fun _ => h.1⟩

-- A function that returns nothing does not lead to its return type.
theorem AgreeOn.method {m : Method} (h : t.AgreeOn t' m.dependencies)
    : t.AgreeOnSignature t' m.signature := by
  unfold AgreeOn Method.dependencies at h
  rw [List.forall_mem_append] at h
  refine ⟨h.1, ?_⟩
  intro hreturns
  rw [hreturns] at h
  exact h.2 _ List.mem_cons_self

theorem AgreeOn.object {o : ObjectType} (h : t.AgreeOn t' o.dependencies)
    : t.AgreeOn t' o.parent?.toList ∧ (∀ m ∈ o.functions, t.AgreeOnSignature t' m.signature)
      ∧ ∀ v ∈ o.virtualMethods, t.AgreeOn t' v.signature.dependencies := by
  unfold AgreeOn ObjectType.dependencies at h
  rw [List.forall_mem_append, List.forall_mem_append, List.forall_mem_flatMap,
    List.forall_mem_flatMap] at h
  rcases h with ⟨⟨hparent, hfunctions⟩, hvirtuals⟩
  exact ⟨hparent, fun m hm => AgreeOn.method (hfunctions m hm), hvirtuals⟩

theorem Agree.reached {n : String} (h : t.Agree t' name) (hn : ReflTransGen t.Refers name n)
    : t.Agree t' n :=
  fun m hm => h m (hn.trans hm)

theorem Agree.refers_iff {n r : String} (h : t.Agree t' name) (hn : ReflTransGen t.Refers name n)
    : t'.Refers n r ↔ t.Refers n r := by
  unfold Refers
  rw [h n hn]

/--
The same names are reached in both tables.
-/
theorem Agree.reach_iff {n : String} (h : t.Agree t' name)
    : ReflTransGen t'.Refers name n ↔ ReflTransGen t.Refers name n := by
  constructor
  . intro hn
    induction hn with
    | refl => exact .refl
    | tail _ hstep ih => exact ih.tail ((h.refers_iff ih).1 hstep)
  . intro hn
    induction hn with
    | refl => exact .refl
    | tail hway hstep ih => exact ih.tail ((h.refers_iff hway).2 hstep)

theorem Agree.symm (h : t.Agree t' name) : t'.Agree t name := by
  intro n hn
  exact (h n (h.reach_iff.1 hn)).symm

section Elements

variable {seen : List String} {ref : String}

theorem elementCrossing_of_none (hget : t.get? ref = none)
    : t.elementCrossing seen ref = .address := by
  unfold elementCrossing
  split
  . rfl
  . next d hd => simp [hget] at hd

theorem elementCrossing_of_get? (hget : t.get? ref = some d)
    : t.elementCrossing seen ref
        = if d.cname ∈ seen then .address
          else (Crossing.ofDescriptor (t.elementCrossing (d.cname :: seen)) d).behind
            (Reference.depth ref) := by
  rw [elementCrossing]
  split
  . next hnone => simp [hget] at hnone
  . next e he =>
    obtain rfl : d = e := by simpa [hget] using he
    rfl

end Elements

/--
What the elements of an array contribute depends on their type alone.
-/
theorem ofDescriptor_congr {element element' : String → Crossing}
    (h : ∀ ref ∈ d.dependencies, element' ref = element ref)
    : Crossing.ofDescriptor element' d = Crossing.ofDescriptor element d := by
  cases d with
  | array a => exact congrArg (Crossing.array a.length) (h a.element List.mem_cons_self)
  | _ => rfl

-- A type leads to its elements, so the induction that follows them stays where the tables agree.
theorem Agree.elementCrossing (seen : List String) (ref : String)
    (h : t.Agree t' (Reference.core ref))
    : t'.elementCrossing seen ref = t.elementCrossing seen ref := by
  have hget' := h.get?
  cases hget : t.get? ref with
  | none =>
    rw [hget] at hget'
    rw [elementCrossing_of_none hget, elementCrossing_of_none hget']
  | some d =>
    rw [hget] at hget'
    rw [elementCrossing_of_get? hget, elementCrossing_of_get? hget']
    split
    . rfl
    . next hnew =>
      have hlt : t.unseen (d.cname :: seen) < t.unseen seen :=
        unseen_cons_lt (mem_of_find? hget) hnew
      rw [ofDescriptor_congr]
      intro r hr
      exact (h.dependencies hget r hr).elementCrossing (d.cname :: seen) r
termination_by t.unseen seen

theorem Agree.crossing (h : t.Agree t' name) (hd : t.find? name = some d)
    : t'.crossing d = t.crossing d :=
  ofDescriptor_congr fun r hr => (h.dependencies hd r hr).elementCrossing [] r

theorem Agree.lookup {ref : String} (h : t.Agree t' (Reference.core ref))
    : t'.lookup ref = t.lookup ref := by
  unfold Table.lookup
  rw [h.get?]

theorem Agree.resolve {ref : String} (h : t.Agree t' (Reference.core ref))
    : t'.resolve ref = t.resolve ref := by
  unfold Table.resolve
  rw [h.lookup]
  unfold Table.lookup
  cases hd : t.get? ref with
  | none => rfl
  | some d =>
    have hcrossing := h.crossing hd
    simp only [Except.map, hcrossing]

section Ancestors

variable {seen : List String} {parent : String}

theorem climb_of_object {o : ObjectType} (hget : t.get? parent = some (.object o))
    : t.climb seen (some parent)
        = if o.identity.cname ∈ seen then ⟨[], .cycle parent⟩
          else
            { t.climb (o.identity.cname :: seen) o.parent? with
              ancestors := o :: (t.climb (o.identity.cname :: seen) o.parent?).ancestors } := by
  rw [climb]
  dsimp only
  split
  . next o' ho' =>
    obtain rfl : o = o' := by simpa [hget] using ho'
    rfl
  . next hno => exact absurd hget (hno o)

theorem climb_of_not_object (hget : ∀ o, t.get? parent ≠ some (.object o))
    : t.climb seen (some parent) = ⟨[], .unknown parent⟩ := by
  rw [climb]
  dsimp only
  split
  . next o ho => exact absurd ho (hget o)
  . rfl

end Ancestors

theorem AgreeOn.climb (seen : List String) (parent? : Option String)
    (h : t.AgreeOn t' parent?.toList)
    : t'.climb seen parent? = t.climb seen parent? := by
  cases parent? with
  | none =>
    rw [Table.climb, Table.climb]
  | some parent =>
    have hagree := h parent (by simp)
    have hget' := hagree.get?
    by_cases hobject : ∃ o, t.get? parent = some (.object o)
    . rcases hobject with ⟨o, hget⟩
      rw [hget] at hget'
      rw [climb_of_object hget, climb_of_object hget']
      split
      . rfl
      . next hnew =>
        have hlt : t.unseen (o.identity.cname :: seen) < t.unseen seen :=
          unseen_cons_lt (mem_of_find? hget) hnew
        have habove : t.AgreeOn t' o.dependencies := hagree.dependencies hget
        rw [habove.object.1.climb (o.identity.cname :: seen)]
    . rw [climb_of_not_object fun o ho => hobject ⟨o, ho⟩,
        climb_of_not_object fun o ho => hobject ⟨o, hget' ▸ ho⟩]
termination_by t.unseen seen

theorem Agree.dispatchTable {o : ObjectType} (h : t.Agree t' name)
    (ho : t.find? name = some (.object o)) : t'.dispatchTable o = t.dispatchTable o := by
  have hdependencies : t.AgreeOn t' o.dependencies := h.dependencies ho
  have hlineage : t'.lineage o = t.lineage o := hdependencies.object.1.climb _ _
  unfold Table.dispatchTable
  rw [hlineage]

end Table

end Interop
