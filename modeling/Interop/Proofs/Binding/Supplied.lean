import Interop.Proofs.Binding.Classes
import Interop.Proofs.Binding.Thunk

/-!
This module contains how the imports of native functions and the calls of them agree. A member that
imports a function calls it once, and gives it one argument for each imported parameter, in order:
the parameter's own value, the number of elements of an array that names the parameter, or a
variable to be set where the import says `out`. The glue function of a callback hands the same
parameters on.
-/

namespace Interop.Binding

/--
The function that a statement calls in native code, and with what.
-/
def Statement.invocation? : Statement → Option (String × List Argument)
  | call callee args | receive _ callee args | store _ callee args => some (callee, args)
  | _ => none

/--
How the parameter at place `k` of a signature is imported and which argument a call has for it,
after the statements `before`.
-/
inductive Supplies (t : Table) (s : Signature) (before : List Statement) (k : Nat) (p : Parameter) :
    ImportParam → Argument → Prop where
  /-- The argument is the boundary value of the parameter. A callback was wrapped before. -/
  | passed {use : Use} (huse : t.resolve p.ctype = .ok use)
      (hwrapped : ∀ type, use.type = .callback type →
        .wrap type.wrapper (wrapperLocal (Text.escapeReserved p.name))
          (Text.escapeReserved p.name) ∈ before) :
      Supplies t s before k p ⟨false, use.crossing.boundary, Text.escapeReserved p.name⟩
        (.passed k (use.crossing.toNative (Text.escapeReserved p.name)))
  /-- The argument is a native copy of the parameter, which was made before. -/
  | copied {use : Use} {name : String} (huse : t.resolve p.ctype = .ok use)
      (hname : name = "native_" ++ Text.bareName (Text.escapeReserved p.name))
      (hcopied : .copy name (use.crossing.toNative (Text.escapeReserved p.name)) ∈ before) :
      Supplies t s before k p ⟨false, use.crossing.boundary, Text.escapeReserved p.name⟩
        (.passed k name)
  /-- The argument is made from an array that names the parameter for its length. -/
  | counted {use arrayUse : Use} {i : Nat} {array : Parameter} {name : String}
      (huse : t.resolve p.ctype = .ok use)
      (harray : s.params[i]? = some array) (harrayUse : t.resolve array.ctype = .ok arrayUse)
      (hlength : arrayUse.lengthParam? = some p.name)
      (hname : name = Text.escapeReserved array.name) :
      Supplies t s before k p ⟨false, use.crossing.boundary, Text.escapeReserved p.name⟩
        (.counted k i (use.crossing.toNative ("(" ++ use.crossing.managed ++ ") "
          ++ ("(" ++ name ++ " == null ? 0 : " ++ name ++ ".Length)"))))
  /-- The call sets a variable of the import's own type, for the returned array. -/
  | received {use returned : Use} (huse : t.resolve p.ctype = .ok use)
      (hreturned : t.resolve s.returns = .ok returned)
      (hlength : returned.lengthParam? = some p.name)
      (hdeclared : .declareLength use.crossing.boundary (Text.escapeReserved p.name) ∈ before) :
      Supplies t s before k p ⟨true, use.crossing.boundary, Text.escapeReserved p.name⟩
        (.received k (Text.escapeReserved p.name))

/--
The body calls the imported function once, and with an argument for each parameter of the import in
its place, those of `leading` before the ones of the signature.
-/
def Supplied (t : Table) (s : Signature) (leading : Option (ImportParam × String)) (i : Import)
    (body : List Statement) : Prop :=
  ∃ before call after params args,
    body = before ++ call :: after
      ∧ (∀ statement ∈ before ++ after, statement.invocation? = none)
      ∧ i.params = leading.toList.map (·.1) ++ params
      ∧ call.invocation? = some (i.symbol, leading.toList.map (.leading ·.2) ++ args)
      ∧ params.length = s.params.length ∧ args.length = s.params.length
      ∧ ∀ k p, s.params[k]? = some p →
          ∃ param arg, params[k]? = some param ∧ args[k]? = some arg
            ∧ Supplies t s before k p param arg

variable {t : Table} {s : Signature} {c : CallShape} {k : Nat}

theorem invocation?_of_mem_preparation {p : CallParam} {st : Statement} (h : st ∈ p.preparation)
    : st.invocation? = none := by
  unfold CallParam.preparation at h
  grind [Statement.invocation?]

theorem invocation?_of_mem_cleanup {p : CallParam} {st : Statement} (h : st ∈ p.cleanup)
    : st.invocation? = none := by
  unfold CallParam.cleanup at h
  grind [Statement.invocation?]

theorem exists_invocation (callee : String) (leading : Option String) (sink : Sink)
    : ∃ call rest, c.invocation callee leading sink = call :: rest
        ∧ call.invocation? = some (callee, c.arguments leading)
        ∧ ∀ st ∈ rest, st.invocation? = none := by
  unfold CallShape.invocation
  cases c.returns? with
  | none => exact ⟨_, _, rfl, rfl, by simp⟩
  | some use =>
    cases sink with
    | giveBack => exact ⟨_, _, rfl, rfl, by simp [Statement.invocation?]⟩
    | assign target => exact ⟨_, _, rfl, rfl, by simp⟩

/--
A parameter that managed code sees is passed as its boundary value or as a copy of that, and what
this needs is prepared.
-/
theorem passedText_prepared {q : CallParam} {before : List Statement} (hrole : q.role = .value)
    (hprepared : q.preparation ⊆ before)
    : (q.passedText = q.use.crossing.toNative q.name
          ∧ ∀ type, q.use.type = .callback type →
              .wrap type.wrapper (wrapperLocal q.name) q.name ∈ before)
        ∨ q.passedText = copyLocal q.name
          ∧ .copy (copyLocal q.name) (q.use.crossing.toNative q.name) ∈ before := by
  unfold CallParam.preparation at hprepared
  unfold CallParam.passedText
  rw [hrole] at hprepared
  cases htype : q.use.type with
  | callback type =>
    rw [htype] at hprepared
    refine .inl ⟨rfl, ?_⟩
    rintro _ ⟨⟩
    exact hprepared List.mem_cons_self
  | _ =>
    rw [htype] at hprepared
    dsimp only at hprepared ⊢
    split
    . next hcopy =>
      rw [if_pos hcopy] at hprepared
      exact .inr ⟨rfl, hprepared (List.mem_singleton.2 rfl)⟩
    . exact .inl ⟨rfl, by simp⟩

theorem Shaped.supplies (h : Shaped t s c) {p : Parameter} (hp : s.params[k]? = some p)
    : ∃ q, c.params[k]? = some q
        ∧ Supplies t s (c.params.flatMap (·.preparation)) k p
            ⟨q.role = .returnLength, q.use.crossing.boundary, q.name⟩ (c.argument q k) := by
  rcases h.param k p hp with ⟨use, huse, hq⟩
  generalize hrole : roleAt (c.params.map (s.lengthPlace? ·.use)) c.returnLength? k = role at hq
  have hprepared : (CallParam.ofParameter p use role).preparation
      ⊆ c.params.flatMap (·.preparation) := by
    intro st hst
    exact List.mem_flatMap.2 ⟨_, List.mem_of_getElem? hq, hst⟩
  refine ⟨_, hq, ?_⟩
  cases role with
  | value =>
    rw [argument_of_value rfl]
    rcases passedText_prepared rfl hprepared with ⟨htext, hwrapped⟩ | ⟨htext, hcopied⟩
    . rw [htext]
      exact .passed huse hwrapped
    . rw [htext]
      exact .copied huse rfl hcopied
  | lengthOf i =>
    rcases (h.role_eq_lengthOf hq).1 rfl with ⟨_, ⟨a, ha, hplace, _⟩, _⟩
    rcases h.source ha with ⟨array, harray, harrayUse, hsource⟩
    have hlength := Signature.lengthParam?_of_lengthPlace? hplace hp
    rw [argument_of_lengthOf rfl, c.nameAt_eq ha, hsource]
    exact .counted huse harray harrayUse hlength rfl
  | returnLength =>
    have hreturn := (h.role_eq_returnLength hq).1 rfl
    rw [h.returnLength] at hreturn
    rcases Option.bind_eq_some_iff.1 hreturn with ⟨returned, hreturned, hplace⟩
    have hlength := Signature.lengthParam?_of_lengthPlace? hplace hp
    apply Supplies.received huse ((h.returns returned).1 hreturned).2 hlength
    apply hprepared
    exact List.mem_singleton.2 rfl

theorem callBody_supplied (h : Shaped t s c) (leading : Option (ImportParam × String))
    (library returns callee : String) (sink : Sink)
    : Supplied t s leading ⟨library, returns, callee, c.importParams (leading.map (·.1))⟩
        (c.callBody callee (leading.map (·.2)) sink) := by
  rcases exists_invocation (c := c) callee (leading.map (·.2)) sink with
    ⟨call, rest, hinvocation, hcall, hrest⟩
  refine ⟨c.params.flatMap (·.preparation), call,
    rest ++ c.visible.flatMap (·.cleanup)
      ++ if c.returns?.isSome && sink == .giveBack then [.giveBack "ret"] else [],
    c.params.map fun q => ⟨q.role = .returnLength, q.use.crossing.boundary, q.name⟩,
    c.params.zipIdx.map fun x => c.argument x.1 x.2, ?_, ?_, ?_, ?_, ?_, ?_, ?_⟩
  . unfold CallShape.callBody
    rw [hinvocation]
    simp
  . intro st hst
    simp only [List.mem_append, List.mem_flatMap] at hst
    rcases hst with ⟨q, _, hst⟩ | (hst | ⟨q, _, hst⟩) | hst
    . exact invocation?_of_mem_preparation hst
    . exact hrest st hst
    . exact invocation?_of_mem_cleanup hst
    . split at hst
      . rw [List.mem_singleton.1 hst]
        rfl
      . cases hst
  . cases leading <;> rfl
  . rw [hcall]
    cases leading <;> rfl
  . simp [h.length]
  . simp [h.length]
  . intro k p hp
    rcases h.supplies hp with ⟨q, hq, hsupplies⟩
    exact ⟨_, _, by simp [hq], by simp [hq], hsupplies⟩

theorem shapeMethods_eq_ok {what : String} {ms : List Method} {members : List Member}
    (h : shapeMethods t what ms = .ok members)
    : ∀ m ∈ members, m.method ∈ ms ∧ Shaped t m.method.signature m.shape := by
  induction ms generalizing members with
  | nil =>
    rw [← Except.ok.inj h]
    simp
  | cons m ms ih =>
    unfold shapeMethods at h
    rcases Fault.bind_eq_ok.1 h with ⟨shape, hshape, h⟩
    rcases Fault.bind_eq_ok.1 h with ⟨rest, hrest, h⟩
    rw [← Except.ok.inj h, List.forall_mem_cons]
    refine ⟨⟨List.mem_cons_self, shaped_of_ofSignature (within_eq_ok.1 hshape)⟩, ?_⟩
    intro m' hm'
    rcases ih hrest m' hm' with ⟨hmem, hshaped⟩
    exact ⟨List.mem_cons_of_mem _ hmem, hshaped⟩

theorem mem_of_mem_selectConstructors {taken : List String} {ms : List Member} {m : Member}
    (h : m ∈ (selectConstructors taken ms).1) : m ∈ ms := by
  induction ms generalizing taken with
  | nil => cases h
  | cons m' ms ih =>
    unfold selectConstructors at h
    split at h
    . exact List.mem_cons_of_mem _ (ih h)
    . rcases List.mem_cons.1 h with rfl | h
      . exact List.mem_cons_self
      . exact List.mem_cons_of_mem _ (ih h)

theorem planObject_eq_ok {o : ObjectType} {plan : ObjectPlan} (h : planObject t o = .ok plan)
    : (∀ m ∈ plan.constructors, m.method ∈ o.constructors ∧ Shaped t m.method.signature m.shape)
      ∧ ∀ m ∈ plan.methods, m.method ∈ o.methods ∧ Shaped t m.method.signature m.shape := by
  unfold planObject at h
  rcases Fault.bind_eq_ok.1 h with ⟨base, _, h⟩
  rcases Fault.bind_eq_ok.1 h with ⟨constructors, hconstructors, h⟩
  rcases Fault.bind_eq_ok.1 h with ⟨methods, hmethods, h⟩
  rcases Fault.bind_eq_ok.1 h with ⟨virtuals, _, h⟩
  rw [← Except.ok.inj h]
  constructor
  . intro m hm
    exact shapeMethods_eq_ok hconstructors m (mem_of_mem_selectConstructors hm)
  . exact shapeMethods_eq_ok hmethods

/--
Every constructor, method and invoker of a bound object or callback is written with its import and a
body that calls the imported function once and supplies each imported parameter in its place; a
handle or a function pointer comes first on both sides or on neither. The glue function of a
callback hands on what its import takes.
-/
theorem imports_supplied (t : Table) (gluelib : String)
    : (∀ o e, bindObject t o = .ok e →
        ∃ plan source, planObject t o = .ok plan
          ∧ e.managed? = some ⟨o.identity.name, Source.text source⟩
          ∧ ClassText o plan source
          ∧ (∀ m ∈ plan.constructors, m.method ∈ o.constructors
              ∧ Supplied t m.method.signature none (constructorImport o m) (constructorBody m))
          ∧ ∀ m ∈ plan.methods, m.method ∈ o.methods
              ∧ Supplied t m.method.signature
                  (if m.method.static then none else some (⟨false, "IntPtr", "raw"⟩, "Handle"))
                  (methodImport o m) (methodBody m))
      ∧ ∀ callback e, bindCallback t gluelib callback = .ok e →
        ∃ shape source native, CallShape.ofSignature t callback.signature = .ok shape
          ∧ e.managed? = some ⟨callback.identity.name, Source.text source⟩
          ∧ InvokerText gluelib callback shape source
          ∧ Supplied t callback.signature (some (⟨false, "IntPtr", "native_cb"⟩, "native_cb"))
              (CallbackSource.invocationImport gluelib callback shape)
              (CallbackSource.invokerBody callback shape)
          ∧ e.glue? = some (Source.text native)
          ∧ ∃ forwarded, Forwards callback.signature forwarded
              (CallbackSource.invocationImport gluelib callback shape)
              (CallbackSource.thunk callback) native := by
  constructor
  . intro o e h
    unfold bindObject at h
    rcases Fault.bind_eq_ok.1 h with ⟨plan, hplan, h⟩
    rcases planObject_eq_ok hplan with ⟨hconstructors, hmethods⟩
    rw [← Except.ok.inj h]
    refine ⟨plan, objectSource o plan, hplan, rfl, objectSource_text o plan, ?_, ?_⟩
    . intro m hm
      rcases hconstructors m hm with ⟨hmem, hshaped⟩
      exact ⟨hmem, callBody_supplied hshaped none _ _ _ _⟩
    . intro m hm
      rcases hmethods m hm with ⟨hmem, hshaped⟩
      refine ⟨hmem, ?_⟩
      unfold methodImport methodBody
      cases m.method.static with
      | true => exact callBody_supplied hshaped none _ _ _ _
      | false => exact callBody_supplied hshaped (some (⟨false, "IntPtr", "raw"⟩, "Handle")) _ _ _ _
  . intro callback e h
    unfold bindCallback at h
    rcases Fault.bind_eq_ok.1 h with ⟨shape, hshape, h⟩
    rw [← Except.ok.inj h]
    have hshape := within_eq_ok.1 hshape
    have hshaped := shaped_of_ofSignature hshape
    refine ⟨shape, CallbackSource.lines gluelib callback shape,
      GlueFunction.lines [CallbackSource.thunk callback], hshape, rfl,
      callbackLines_text gluelib callback shape, ?_, rfl, _, thunk_forwards gluelib hshaped⟩
    exact callBody_supplied hshaped (some (⟨false, "IntPtr", "native_cb"⟩, "native_cb")) _ _ _ _

def sumMethod : Method :=
  ⟨"sum", "demo_tally_sum", sumSignature, false⟩

def tally : ObjectType :=
  ⟨⟨"DemoTally", "Tally", "Demo", "libdemo"⟩, none, none, [], [sumMethod], []⟩

def tallyPlan : ObjectPlan :=
  ⟨"Gapi.Runtime.NativeObject", [], [], [⟨sumMethod, sumShape⟩], []⟩

theorem planObject_tally : planObject tallyTable tally = .ok tallyPlan := by
  unfold planObject tally sumMethod
  simp only [shapeMethods, shapeVirtuals, ofSignature_sum]
  rfl

theorem imports_supplied_tally
    : (∃ e source, bindObject tallyTable tally = .ok e
          ∧ e.managed? = some ⟨"Tally", Source.text source⟩ ∧ ClassText tally tallyPlan source)
        ∧ Supplied tallyTable sumSignature (some (⟨false, "IntPtr", "raw"⟩, "Handle"))
            (methodImport tally ⟨sumMethod, sumShape⟩) (methodBody ⟨sumMethod, sumShape⟩)
        ∧ (∃ e source, bindCallback tallyTable "demoglue" listFunc = .ok e
          ∧ e.managed? = some ⟨"ListFunc", Source.text source⟩
          ∧ InvokerText "demoglue" listFunc listShape source)
        ∧ Supplied tallyTable listFunc.signature
            (some (⟨false, "IntPtr", "native_cb"⟩, "native_cb"))
            (CallbackSource.invocationImport "demoglue" listFunc listShape)
            (CallbackSource.invokerBody listFunc listShape) := by
  have htally : ∃ e, bindObject tallyTable tally = .ok e := by
    unfold bindObject
    rw [planObject_tally]
    exact ⟨_, rfl⟩
  have hlist : ∃ e, bindCallback tallyTable "demoglue" listFunc = .ok e := by
    unfold bindCallback
    rw [ofSignature_list]
    exact ⟨_, rfl⟩
  rcases htally with ⟨e, he⟩
  rcases hlist with ⟨e', he'⟩
  rcases (imports_supplied tallyTable "demoglue").1 tally e he with
    ⟨plan, source, hplan, hmanaged, htext, _, hmethods⟩
  rcases (imports_supplied tallyTable "demoglue").2 listFunc e' he' with
    ⟨shape, source', _, hshape, hmanaged', htext', hsupplied, _⟩
  obtain rfl : tallyPlan = plan := Except.ok.inj (planObject_tally.symm.trans hplan)
  obtain rfl : listShape = shape := Except.ok.inj (ofSignature_list.symm.trans hshape)
  exact ⟨⟨e, source, he, hmanaged, htext⟩, (hmethods _ (List.mem_singleton.2 rfl)).2,
    ⟨e', source', he', hmanaged', htext'⟩, hsupplied⟩

end Interop.Binding
