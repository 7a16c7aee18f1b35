import Interop.Binding
import Interop.Proofs.Validity

/-!
This module contains the types that can be bound: those that refer to registered names alone, and
whose parent, if they have one, is an object.
-/

namespace Interop

def Table.Knows (t : Table) (refs : List String) : Prop :=
  ∀ ref ∈ refs, ∃ d, t.get? ref = some d

namespace Binding

variable {t : Table}

theorem resolve_ok {ref : String} {d : Descriptor} (h : t.get? ref = some d)
    : resolve t ref = .ok ⟨d, Reference.depth ref, t.crossing d⟩ := by
  unfold resolve Table.resolve Table.lookup
  rw [h]
  rfl

theorem resolveParams_ok {ps : List Parameter} (h : t.Knows (ps.map (·.ctype)))
    : ∃ uses, resolveParams t ps = .ok uses := by
  induction ps with
  | nil => exact ⟨[], rfl⟩
  | cons p ps ih =>
    unfold Table.Knows at h
    rw [List.map_cons, List.forall_mem_cons] at h
    rcases h with ⟨⟨d, hd⟩, hrest⟩
    rcases ih hrest with ⟨uses, huses⟩
    unfold resolveParams
    rw [resolve_ok hd, huses]
    exact ⟨_, rfl⟩

theorem resolveReturn_ok {s : Signature} (h : s.returnsVoid = false → t.Knows [s.returns])
    : ∃ returns?, resolveReturn t s = .ok returns? := by
  unfold resolveReturn
  split
  . exact ⟨none, rfl⟩
  . next hreturns =>
    have hknown := h (by simpa using hreturns)
    rcases hknown s.returns List.mem_cons_self with ⟨d, hd⟩
    rw [resolve_ok hd]
    exact ⟨_, rfl⟩

theorem ofSignature_ok {s : Signature} (hparams : t.Knows (s.params.map (·.ctype)))
    (hreturns : s.returnsVoid = false → t.Knows [s.returns])
    : ∃ shape, CallShape.ofSignature t s = .ok shape := by
  rcases resolveParams_ok hparams with ⟨uses, huses⟩
  rcases resolveReturn_ok hreturns with ⟨returns?, hreturns⟩
  unfold CallShape.ofSignature
  rw [huses, hreturns]
  exact ⟨_, rfl⟩

theorem ofSignature_ok_of_dependencies {s : Signature} (h : t.Knows s.dependencies)
    : ∃ shape, CallShape.ofSignature t s = .ok shape := by
  unfold Table.Knows Signature.dependencies at h
  rw [List.forall_mem_cons] at h
  apply ofSignature_ok h.2
  intro _ ref href
  rw [List.mem_singleton.1 href]
  exact h.1

-- A function that returns nothing depends on its parameters alone.
theorem ofSignature_ok_of_method {m : Method} (h : t.Knows m.dependencies)
    : ∃ shape, CallShape.ofSignature t m.signature = .ok shape := by
  unfold Table.Knows Method.dependencies at h
  rw [List.forall_mem_append] at h
  apply ofSignature_ok h.1
  intro hreturns
  simpa [hreturns, Table.Knows] using h.2

theorem shapeMethods_ok (what : String) {ms : List Method}
    (h : t.Knows (ms.flatMap (·.dependencies)))
    : ∃ members, shapeMethods t what ms = .ok members := by
  induction ms with
  | nil => exact ⟨[], rfl⟩
  | cons m ms ih =>
    unfold Table.Knows at h
    rw [List.flatMap_cons, List.forall_mem_append] at h
    rcases ofSignature_ok_of_method h.1 with ⟨shape, hshape⟩
    rcases ih h.2 with ⟨members, hmembers⟩
    unfold shapeMethods
    rw [hshape, hmembers]
    exact ⟨_, rfl⟩

theorem shapeVirtuals_ok {vs : List VirtualMethod}
    (h : t.Knows (vs.flatMap (·.signature.dependencies)))
    : ∃ virtuals, shapeVirtuals t vs = .ok virtuals := by
  induction vs with
  | nil => exact ⟨[], rfl⟩
  | cons v vs ih =>
    unfold Table.Knows at h
    rw [List.flatMap_cons, List.forall_mem_append] at h
    rcases ofSignature_ok_of_dependencies h.1 with ⟨shape, hshape⟩
    rcases ih h.2 with ⟨virtuals, hvirtuals⟩
    unfold shapeVirtuals
    rw [hshape, hvirtuals]
    exact ⟨_, rfl⟩

theorem resolveFields_ok (s : StructType) {fs : List Field} (h : t.Knows (fs.map (·.ctype)))
    : ∃ fields, resolveFields t s fs = .ok fields := by
  induction fs with
  | nil => exact ⟨[], rfl⟩
  | cons f fs ih =>
    unfold Table.Knows at h
    rw [List.map_cons, List.forall_mem_cons] at h
    rcases h with ⟨⟨d, hd⟩, hrest⟩
    rcases ih hrest with ⟨fields, hfields⟩
    unfold resolveFields
    rw [resolve_ok hd, hfields]
    exact ⟨_, rfl⟩

theorem plan_ok {s : StructType} (h : t.Knows (s.fields.map (·.ctype)))
    : ∃ plans, plan t s = .ok plans := by
  rcases resolveFields_ok s h with ⟨fields, hfields⟩
  unfold plan
  rw [hfields]
  exact ⟨_, rfl⟩

theorem baseClass_ok {o : ObjectType} (hknown : t.Knows o.parent?.toList)
    (hparent : Validation.parentFault? t o = none) : ∃ base, baseClass t o = .ok base := by
  unfold baseClass
  unfold Validation.parentFault? at hparent
  cases hp : o.parent? with
  | none => exact ⟨_, rfl⟩
  | some parent =>
    rw [hp] at hknown hparent
    rcases hknown parent (by simp) with ⟨d, hd⟩
    simp only [hd] at hparent
    unfold Table.lookup
    simp only [hd]
    cases d with
    | object base => exact ⟨_, rfl⟩
    | _ => simp at hparent

theorem bindStruct_ok {gluelib : String} {s : StructType} (h : t.Knows (s.fields.map (·.ctype)))
    : ∃ e, bindStruct t gluelib s = .ok e := by
  rcases plan_ok h with ⟨plans, hplans⟩
  unfold bindStruct
  rw [hplans]
  exact ⟨_, rfl⟩

theorem bindObject_ok {o : ObjectType} (h : t.Knows o.dependencies)
    (hparent : Validation.parentFault? t o = none) : ∃ e, bindObject t o = .ok e := by
  unfold Table.Knows ObjectType.dependencies ObjectType.functions at h
  simp only [List.flatMap_append, List.forall_mem_append] at h
  rcases h with ⟨⟨hbase, hconstructors, hmethods⟩, hvirtuals⟩
  rcases baseClass_ok hbase hparent with ⟨base, hbase⟩
  rcases shapeMethods_ok "constructor" hconstructors with ⟨constructors, hconstructors⟩
  rcases shapeMethods_ok "method" hmethods with ⟨methods, hmethods⟩
  rcases shapeVirtuals_ok hvirtuals with ⟨virtuals, hvirtuals⟩
  unfold bindObject planObject
  rw [hbase, hconstructors, hmethods, hvirtuals]
  exact ⟨_, rfl⟩

theorem bindCallback_ok {gluelib : String} {c : CallbackType} (h : t.Knows c.signature.dependencies)
    : ∃ e, bindCallback t gluelib c = .ok e := by
  rcases ofSignature_ok_of_dependencies h with ⟨shape, hshape⟩
  unfold bindCallback
  rw [hshape]
  exact ⟨_, rfl⟩

theorem sources_ok (gluelib : String) {d : Descriptor} (h : t.Knows d.dependencies)
    (hsound : Validation.structureFault? t d = none) : ∃ e, sources t gluelib d = .ok e := by
  cases d with
  | struct s => exact bindStruct_ok h
  | enum e => exact ⟨_, rfl⟩
  | object o =>
    unfold Validation.structureFault? at hsound
    rw [Option.or_eq_none_iff] at hsound
    exact bindObject_ok h hsound.1
  | callback c => exact bindCallback_ok h
  | simple _ | long _ | array _ => exact ⟨_, rfl⟩

theorem probe?_ok {d : Descriptor} (h : t.Knows d.dependencies)
    : ∃ p?, probe? t d = .ok p? := by
  cases d with
  | struct s =>
    rcases plan_ok h with ⟨plans, hplans⟩
    unfold probe?
    simp only [hplans]
    exact ⟨_, rfl⟩
  | _ => exact ⟨_, rfl⟩

end Binding

/--
A well-formed type that refers to registered names alone can be bound.
-/
theorem bind_ok {t : Table} (gluelib : String) {d : Descriptor} (h : t.Knows d.dependencies)
    (hsound : Validation.structureFault? t d = none) : ∃ e, bind t gluelib d = .ok e := by
  rcases Binding.sources_ok gluelib h hsound with ⟨e, he⟩
  rcases Binding.probe?_ok h with ⟨p?, hp⟩
  unfold bind
  rw [he, hp]
  cases d.abiCheck with
  | true => exact ⟨_, rfl⟩
  | false => exact ⟨_, rfl⟩

theorem Table.Valid.bind_ok {t : Table} {d : Descriptor} (gluelib : String) (h : t.Valid d.cname)
    (hd : t.find? d.cname = some d) : ∃ e, bind t gluelib d = .ok e := by
  rcases h d.cname .refl with ⟨e, he, hsound⟩
  have he : d = e := by simpa [hd] using he
  rw [← he] at hsound
  apply Interop.bind_ok gluelib _ hsound
  intro ref href
  have hrefers : t.Refers d.cname (Reference.core ref) :=
    ⟨d, hd, Descriptor.mem_references.2 ⟨ref, href, rfl⟩⟩
  rcases h _ (.single hrefers) with ⟨r, hr, _⟩
  exact ⟨r, hr⟩

end Interop
