import Interop.Binding
import Interop.Proofs.Agreement

/-!
This module contains the binding of one type over two tables that agree on what it leads to: both
give the same source, glue and probe, or the same fault.
-/

namespace Interop

namespace Binding

variable {t t' : Table}

theorem resolve_agree {ref : String} (h : t.Agree t' (Reference.core ref))
    : resolve t' ref = resolve t ref := by
  unfold resolve
  rw [h.resolve]

theorem resolveParams_agree {ps : List Parameter} (h : t.AgreeOn t' (ps.map (·.ctype)))
    : resolveParams t' ps = resolveParams t ps := by
  induction ps with
  | nil => rfl
  | cons p ps ih =>
    unfold Table.AgreeOn at h
    rw [List.map_cons, List.forall_mem_cons] at h
    unfold resolveParams
    rw [resolve_agree h.1, ih h.2]

theorem ofSignature_agree {s : Signature} (h : t.AgreeOnSignature t' s)
    : CallShape.ofSignature t' s = CallShape.ofSignature t s := by
  have hreturns : resolveReturn t' s = resolveReturn t s := by
    unfold resolveReturn
    split
    . rfl
    . next hvoid => rw [resolve_agree (h.2 (by simpa using hvoid))]
  unfold CallShape.ofSignature
  rw [resolveParams_agree h.1, hreturns]

theorem shapeMethods_agree (what : String) {ms : List Method}
    (h : ∀ m ∈ ms, t.AgreeOnSignature t' m.signature)
    : shapeMethods t' what ms = shapeMethods t what ms := by
  induction ms with
  | nil => rfl
  | cons m ms ih =>
    rw [List.forall_mem_cons] at h
    unfold shapeMethods
    rw [ofSignature_agree h.1, ih h.2]

theorem shapeVirtuals_agree {vs : List VirtualMethod}
    (h : ∀ v ∈ vs, t.AgreeOn t' v.signature.dependencies)
    : shapeVirtuals t' vs = shapeVirtuals t vs := by
  induction vs with
  | nil => rfl
  | cons v vs ih =>
    rw [List.forall_mem_cons] at h
    unfold shapeVirtuals
    rw [ofSignature_agree h.1.signature, ih h.2]

theorem resolveFields_agree (s : StructType) {fs : List Field}
    (h : t.AgreeOn t' (fs.map (·.ctype))) : resolveFields t' s fs = resolveFields t s fs := by
  induction fs with
  | nil => rfl
  | cons f fs ih =>
    unfold Table.AgreeOn at h
    rw [List.map_cons, List.forall_mem_cons] at h
    unfold resolveFields
    rw [resolve_agree h.1, ih h.2]

theorem plan_agree {s : StructType} (h : t.AgreeOn t' (s.fields.map (·.ctype)))
    : plan t' s = plan t s := by
  unfold plan
  rw [resolveFields_agree s h]

theorem baseClass_agree {o : ObjectType} (h : t.AgreeOn t' o.parent?.toList)
    : baseClass t' o = baseClass t o := by
  unfold baseClass
  cases hp : o.parent? with
  | none => rfl
  | some parent =>
    have hparent : t.Agree t' (Reference.core parent) := h parent (by simp [hp])
    dsimp only
    rw [hparent.lookup]

theorem planObject_agree {o : ObjectType} (h : t.AgreeOn t' o.dependencies)
    : planObject t' o = planObject t o := by
  rcases h.object with ⟨hparent, hfunctions, hvirtuals⟩
  unfold ObjectType.functions at hfunctions
  rw [List.forall_mem_append] at hfunctions
  unfold planObject
  rw [baseClass_agree hparent, shapeMethods_agree _ hfunctions.1,
    shapeMethods_agree _ hfunctions.2, shapeVirtuals_agree hvirtuals]

theorem sources_agree (gluelib : String) {d : Descriptor} (h : t.AgreeOn t' d.dependencies)
    : sources t' gluelib d = sources t gluelib d := by
  cases d with
  | struct s =>
    unfold sources bindStruct
    dsimp only
    rw [plan_agree h]
  | object o =>
    unfold sources bindObject
    dsimp only
    rw [planObject_agree h]
  | callback c =>
    unfold sources bindCallback
    dsimp only
    rw [ofSignature_agree h.signature]
  | simple _ | long _ | enum _ | array _ => rfl

theorem probe?_agree {d : Descriptor} (h : t.AgreeOn t' d.dependencies)
    : probe? t' d = probe? t d := by
  cases d with
  | struct s =>
    unfold probe?
    dsimp only
    rw [plan_agree h]
  | _ => rfl

end Binding

theorem Table.AgreeOn.bind {t t' : Table} {d : Descriptor} (gluelib : String)
    (h : t.AgreeOn t' d.dependencies) : bind t' gluelib d = bind t gluelib d := by
  unfold Interop.bind
  rw [Binding.sources_agree gluelib h, Binding.probe?_agree h]

end Interop
