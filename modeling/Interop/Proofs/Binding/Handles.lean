import Interop.Declaration.Basic
import Interop.Proofs.Binding.Constructors
import Interop.Proofs.Validation.Verdict

/-!
This module contains what becomes of the handle that the native function of a constructor returns:
it is stored in the new object, except where nothing is declared to be returned.
-/

namespace Interop.Binding

variable {t : Table} {m : Member}

/--
What holds before a mapping is read, and is kept by each of its fields, holds of the record.
-/
theorem ofEntries_preserves {α : Type} {r : Decode.RecordSpec α} {P : α → Prop} {acc a : α}
    {seen : List String} {es : List (Yaml.Value × Yaml.Value)}
    (h : r.ofEntries acc seen es = .ok a) (hacc : P acc)
    (hset : ∀ e ∈ es, ∀ name b b', r.fieldOf e.1 = .ok (some name) → P b →
      r.set b name e.2 = .ok b' → P b')
    : P a := by
  induction es generalizing acc seen with
  | nil =>
    unfold Decode.RecordSpec.ofEntries at h
    split at h
    . cases h
    . rw [← Except.ok.inj h]
      exact hacc
  | cons e es ih =>
    rw [List.forall_mem_cons] at hset
    unfold Decode.RecordSpec.ofEntries at h
    rcases Fault.bind_eq_ok.1 h with ⟨name?, hname, h⟩
    cases name? with
    | none => exact ih h hacc hset.2
    | some name =>
      simp only at h
      split at h
      . cases h
      . rcases Fault.bind_eq_ok.1 h with ⟨acc', hacc', h⟩
        exact ih h (hset.1 name acc acc' hname hacc hacc') hset.2

open Declaration in
theorem methodSpec_set_returns {b b' : Option String × Method} {name : String} {v : Yaml.Value}
    (h : methodSpec.set b name v = .ok b') (hname : name ≠ "return")
    : b'.2.signature.returns = b.2.signature.returns := by
  unfold methodSpec at h
  simp only at h
  split at h
  . rcases Fault.bind_eq_ok.1 h with ⟨_, _, h⟩
    rw [← Except.ok.inj h]
  . rcases Fault.bind_eq_ok.1 h with ⟨_, _, h⟩
    rw [← Except.ok.inj h]
  . exact absurd rfl hname
  . rcases Fault.bind_eq_ok.1 h with ⟨_, _, h⟩
    rw [← Except.ok.inj h]
  . rcases Fault.bind_eq_ok.1 h with ⟨_, _, h⟩
    rw [← Except.ok.inj h]

/--
A function whose declaration leaves out what it returns is one that returns nothing.
-/
theorem returnsVoid_of_unwritten {entries : List (Yaml.Value × Yaml.Value)} {m : Method}
    (h : Declaration.method (.mapping entries) = .ok m)
    (hunwritten : ∀ e ∈ entries, Declaration.methodSpec.fieldOf e.1 ≠ .ok (some "return"))
    : m.signature.returnsVoid = true := by
  unfold Declaration.method at h
  rcases Fault.bind_eq_ok.1 h with ⟨⟨name?, m'⟩, hdecode, h⟩
  have hvoid : m'.signature.returns = "void" := by
    apply ofEntries_preserves (P := fun x => x.2.signature.returns = "void") hdecode rfl
    intro e he name b b' hfield hb hset
    rw [methodSpec_set_returns hset, hb]
    rintro rfl
    exact hunwritten e he hfield
  rw [← Except.ok.inj h]
  unfold Signature.returnsVoid
  rw [hvoid]
  decide

theorem isSome_returns {s : Signature} {c : CallShape} (h : CallShape.ofSignature t s = .ok c)
    : c.returns?.isSome = !s.returnsVoid := by
  unfold CallShape.ofSignature at h
  rcases Fault.bind_eq_ok.1 h with ⟨uses, _, h⟩
  rcases Fault.bind_eq_ok.1 h with ⟨returns?, hreturns, h⟩
  rw [← Except.ok.inj h]
  change returns?.isSome = !s.returnsVoid
  unfold resolveReturn at hreturns
  split at hreturns
  . next hvoid =>
    rw [← Except.ok.inj hreturns, hvoid]
    rfl
  . next hvoid =>
    rw [Bool.eq_false_iff.2 hvoid]
    cases hresolve : Fault.within "return type" (resolve t s.returns) with
    | error fault =>
      rw [hresolve] at hreturns
      cases hreturns
    | ok use =>
      rw [hresolve] at hreturns
      rw [← Except.ok.inj hreturns]
      rfl

/--
The call of a constructor's native function, with what becomes of the handle that it returns.
-/
def constructorCall (m : Member) : Statement :=
  if m.method.signature.returnsVoid then .call m.method.cname (m.shape.arguments none)
  else .store "Raw" m.method.cname (m.shape.arguments none)

theorem constructorBody_eq (h : CallShape.ofSignature t m.method.signature = .ok m.shape)
    : constructorBody m = m.shape.params.flatMap (·.preparation)
        ++ constructorCall m :: m.shape.visible.flatMap (·.cleanup) := by
  have hreturns := isSome_returns h
  unfold constructorBody CallShape.callBody CallShape.invocation constructorCall
  cases hreturn : m.shape.returns? with
  | none =>
    have hvoid : m.method.signature.returnsVoid = true := by simpa [hreturn] using hreturns
    simp [hvoid]
  | some use =>
    have hvoid : m.method.signature.returnsVoid = false := by simpa [hreturn] using hreturns
    simp [hvoid]

/--
The import of a written constructor always returns an address, and the body calls it once. The
address becomes the handle of the new object if and only if something is declared to be returned. A
declaration that leaves out what is returned declares that nothing is, and the new handle is lost.
The class is written with these imports and bodies.
-/
theorem handle_stored_iff (t : Table)
    : (∀ o e, bindObject t o = .ok e →
        ∃ plan, planObject t o = .ok plan
          ∧ e.managed? = some ⟨o.identity.name, Source.text (objectSource o plan)⟩
          ∧ ClassText o plan (objectSource o plan)
          ∧ ∀ m ∈ plan.constructors, m.method ∈ o.constructors
            ∧ (constructorImport o m).returns = "IntPtr"
            ∧ (constructorImport o m).symbol = m.method.cname
            ∧ ∃ before after, constructorBody m = before ++ constructorCall m :: after
              ∧ (∀ st ∈ before ++ after, st.invocation? = none)
              ∧ ((∃ args, .store "Raw" m.method.cname args ∈ constructorBody m)
                  ↔
                m.method.signature.returnsVoid = false))
      ∧ ∀ entries m, Declaration.method (.mapping entries) = .ok m →
        (∀ e ∈ entries, Declaration.methodSpec.fieldOf e.1 ≠ .ok (some "return")) →
        m.signature.returnsVoid = true := by
  constructor
  . intro o e h
    unfold bindObject at h
    rcases Fault.bind_eq_ok.1 h with ⟨plan, hplan, h⟩
    rcases planObject_constructors hplan with ⟨members, hmembers, hselected⟩
    rcases shapeMethods_members hmembers with ⟨hmethods, hshapes⟩
    refine ⟨plan, hplan, by rw [← Except.ok.inj h], objectSource_text o plan, ?_⟩
    intro m hm
    have hmem : m ∈ members := by
      rw [hselected] at hm
      exact mem_of_mem_selectConstructors hm
    have hdeclared : m.method ∈ o.constructors := by
      rw [← hmethods]
      exact List.mem_map_of_mem hmem
    have hbody := constructorBody_eq (hshapes m hmem)
    have hnone : ∀ st ∈ m.shape.params.flatMap (·.preparation)
        ++ m.shape.visible.flatMap (·.cleanup), st.invocation? = none := by
      intro st hst
      simp only [List.mem_append, List.mem_flatMap] at hst
      rcases hst with ⟨q, _, hst⟩ | ⟨q, _, hst⟩
      . exact invocation?_of_mem_preparation hst
      . exact invocation?_of_mem_cleanup hst
    refine ⟨hdeclared, rfl, rfl, _, _, hbody, hnone, ?_⟩
    constructor
    . rintro ⟨args, hstore⟩
      rw [hbody, List.mem_append, List.mem_cons] at hstore
      rcases hstore with hstore | hstore | hstore
      . cases hnone _ (List.mem_append_left _ hstore)
      . unfold constructorCall at hstore
        split at hstore
        . cases hstore
        . next hvoid => exact Bool.eq_false_iff.2 hvoid
      . cases hnone _ (List.mem_append_right _ hstore)
    . intro hvoid
      rw [hbody]
      unfold constructorCall
      rw [hvoid]
      exact ⟨_, List.mem_append_right _ List.mem_cons_self⟩
  . intro entries m h hunwritten
    exact returnsVoid_of_unwritten h hunwritten

theorem handle_stored_iff_lamp
    : (∃ e, bindObject lampTable lamp = .ok e)
        ∧ (∃ args, .store "Raw" "demo_lamp_new" args ∈ constructorBody ⟨createLamp, createShape⟩)
        ∧ ¬ (∃ args, .store "Raw" "demo_lamp_new_blank" args
            ∈ constructorBody ⟨blankLamp, blankShape⟩)
        ∧ Declaration.method (.mapping [(.scalar (.text "name"), .scalar (.text "new_blank")),
            (.scalar (.text "cname"), .scalar (.text "demo_lamp_new_blank"))]) = .ok blankLamp := by
  have hbind : ∃ e, bindObject lampTable lamp = .ok e := by
    unfold bindObject
    rw [planObject_lamp]
    exact ⟨_, rfl⟩
  rcases hbind with ⟨e, he⟩
  rcases (handle_stored_iff lampTable).1 lamp e he with
    ⟨plan, hplan, _, _, hconstructors⟩
  obtain rfl : lampPlan = plan := Except.ok.inj (planObject_lamp.symm.trans hplan)
  rcases hconstructors ⟨createLamp, createShape⟩ List.mem_cons_self with
    ⟨_, _, _, _, _, _, _, hcreate⟩
  rcases hconstructors ⟨blankLamp, blankShape⟩ (List.mem_cons_of_mem _ List.mem_cons_self) with
    ⟨_, _, _, _, _, _, _, hblank⟩
  refine ⟨⟨e, he⟩, hcreate.2 (by decide), ?_, rfl⟩
  intro hstored
  exact absurd (hblank.1 hstored) (by decide)

-- Nothing is declared to be returned, so the new handle is lost.
theorem not_handle_stored
    : ¬ ∀ (t : Table) (o : ObjectType), t.find? o.identity.cname = some (.object o) →
        (Validation.check t .initial (.object o)).1 = none →
        ∀ plan, planObject t o = .ok plan → ∀ m ∈ plan.constructors,
          ∃ args, .store "Raw" m.method.cname args ∈ constructorBody m := by
  intro h
  have hfind : lampTable.find? lamp.identity.cname = some (.object lamp) := by decide +kernel
  have hvalid : lampTable.Valid lamp.identity.cname := by
    apply Table.Complete.valid
    . decide +kernel
    . decide +kernel
  have hcheck : (Validation.check lampTable .initial (.object lamp)).1 = none :=
    (Validation.Knowledge.faithful_initial.check_fst hfind).2 hvalid
  rcases h lampTable lamp hfind hcheck lampPlan planObject_lamp ⟨blankLamp, blankShape⟩
    (List.mem_cons_of_mem _ List.mem_cons_self) with ⟨args, hstored⟩
  have hbody : constructorBody ⟨blankLamp, blankShape⟩ = [.call "demo_lamp_new_blank" []] := rfl
  rw [hbody, List.mem_singleton] at hstored
  cases hstored

end Interop.Binding
