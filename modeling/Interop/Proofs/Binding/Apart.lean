import Interop.Proofs.Binding.Names

/-!
This module contains when the names around a call of native code are apart. Some of them are given
by the signature, some are made up from these or are the same in every member, and nothing but the
given names themselves keeps them from being alike.
-/

namespace Interop

/--
The names of the parameters are distinct, and identifiers as they are.
-/
structure Signature.WellNamed (s : Signature) : Prop where
  distinct : (s.params.map (·.name)).Nodup
  unreserved : ∀ p ∈ s.params, p.name ∉ Text.reservedWords

namespace Text

/--
The names that are the same in every member.
-/
def memberNames : List String :=
  ["raw", "native_cb", "raw_ret", "ret", "Handle", "Raw"]

/--
A name that is neither the same in every member nor looks like one that is made up from another.
-/
structure Ordinary (name : String) : Prop where
  given : name ∉ memberNames
  start : ¬ "native".toList <+: name.toList
  stop : ¬ "_wrapper".toList <:+ name.toList
  bare : name.toList.head? ≠ some '@'
  /-- Its copy would be called like the pointer that an invoker calls. -/
  pointer : name ≠ "cb"

instance {name : String} : Decidable (Ordinary name) :=
  decidable_of_iff
    (name ∉ memberNames ∧ ¬ "native".toList <+: name.toList ∧ ¬ "_wrapper".toList <:+ name.toList
      ∧ name.toList.head? ≠ some '@' ∧ name ≠ "cb")
    ⟨fun ⟨given, start, stop, bare, pointer⟩ => ⟨given, start, stop, bare, pointer⟩,
     fun ⟨given, start, stop, bare, pointer⟩ => ⟨given, start, stop, bare, pointer⟩⟩

end Text

namespace Binding

/--
No name around the call has two meanings.
-/
structure NamesApart (c : CallShape) (i : Import) (body : List Statement) : Prop where
  /-- Neither the locals nor the parameters that managed code sees share a name. -/
  locals : (body.filterMap (·.declared?) ++ c.managedNames).Nodup
  imported : (i.params.map (·.name)).Nodup
  /-- None of them hides what the body takes from the class. -/
  outer : ∀ name ∈ body.flatMap (·.outer), name ∉ body.filterMap (·.declared?) ++ c.managedNames

/--
Neither parameter is held by a local that is called like the other one or like its local.
-/
def CallParam.HeldApart (p q : CallParam) : Prop :=
  (∀ holder ∈ p.holder?, holder ∉ q.names) ∧ ∀ holder ∈ q.holder?, holder ∉ p.names

/--
What keeps the names around a call apart, where `leading` is the parameter in front of all others in
the import and what is passed for it.
-/
structure CallShape.Clear (c : CallShape) (leading : Option (ImportParam × String)) (sink : Sink) :
    Prop where
  /-- No parameter is called like the one in front. -/
  imported : ∀ l ∈ leading, ∀ p ∈ c.params, p.name ≠ l.1.name
  held : c.params.Pairwise CallParam.HeldApart
  /-- No parameter is called like a local for the result. -/
  result : ∀ p ∈ c.params, ∀ name ∈ p.own?, name ∉ c.resultLocals sink
  outer : ∀ name ∈ c.outer (leading.map (·.2)) sink, ∀ p ∈ c.params, name ∉ p.names

variable {t : Table} {s : Signature} {c : CallShape} {p q : CallParam} {x y : String}
  {leading : Option (ImportParam × String)} {sink : Sink}

theorem disjoint_names_iff (hname : p.name ≠ q.name)
    : p.names.Disjoint q.names ↔ p.HeldApart q := by
  simp only [List.Disjoint, mem_names, CallParam.HeldApart]
  constructor
  . intro h
    exact ⟨fun holder hp hq => h (.inl hp) hq, fun holder hq hp => h hp (.inl hq)⟩
  . rintro ⟨hp, hq⟩ name (hholder | hown) hother
    . exact hp name hholder hother
    . rcases hother with hholder | hown'
      . exact hq name hholder (.inr hown)
      . exact hname ((own?_eq hown).trans (own?_eq hown').symm)

theorem flatMap_names_nodup_iff (hnames : c.nativeNames.Nodup)
    : (c.params.flatMap (·.names)).Nodup ↔ c.params.Pairwise CallParam.HeldApart := by
  have hdistinct : c.params.Pairwise fun p q => p.name ≠ q.name := List.pairwise_map.1 hnames
  rw [List.nodup_flatMap]
  constructor
  . rintro ⟨_, hdisjoint⟩
    exact hdistinct.imp₂ (fun p q hname h => (disjoint_names_iff hname).1 h) hdisjoint
  . intro hheld
    refine ⟨fun p _ => names_nodup p, ?_⟩
    exact hdistinct.imp₂ (fun p q hname h => (disjoint_names_iff hname).2 h) hheld

theorem locals_nodup_iff (hnames : c.nativeNames.Nodup)
    : (c.params.flatMap (·.names) ++ c.resultLocals sink).Nodup
        ↔
      c.params.Pairwise CallParam.HeldApart
        ∧ ∀ p ∈ c.params, ∀ name ∈ p.own?, name ∉ c.resultLocals sink := by
  have hresult : (c.resultLocals sink).Nodup := by
    unfold CallShape.resultLocals
    split <;> decide
  rw [List.nodup_append, flatMap_names_nodup_iff hnames]
  refine and_congr_right fun _ => ?_
  constructor
  . rintro ⟨_, hapart⟩ p hp name hown hmem
    exact hapart name (List.mem_flatMap.2 ⟨p, hp, mem_names.2 (.inr hown)⟩) name hmem rfl
  . intro hown
    refine ⟨hresult, ?_⟩
    rintro name hname _ hmem rfl
    rcases List.mem_flatMap.1 hname with ⟨p, hp, hname⟩
    rcases mem_names.1 hname with hholder | hname
    . exact holder?_notMem_resultLocals hholder sink hmem
    . exact hown p hp name hname hmem

theorem imported_nodup_iff (hnames : c.nativeNames.Nodup)
    : ((c.importParams (leading.map (·.1))).map (·.name)).Nodup
        ↔
      ∀ l ∈ leading, ∀ p ∈ c.params, p.name ≠ l.1.name := by
  have hparams : (c.importParams none).map (·.name) = c.nativeNames := by
    unfold CallShape.importParams CallShape.nativeNames
    simp
  cases leading with
  | none => simpa [hparams] using hnames
  | some l =>
    have hfirst : (c.importParams (some l.1)).map (·.name) = l.1.name :: c.nativeNames := by
      rw [← hparams]
      rfl
    rw [Option.map_some, hfirst, List.nodup_cons, and_iff_left hnames]
    simp [CallShape.nativeNames]

/--
The names around a call are apart if and only if none that is given is one that is made up.
-/
theorem namesApart_iff (h : Shaped t s c) (hs : s.WellNamed) (library returns callee : String)
    (houter : ∀ name ∈ c.outer (leading.map (·.2)) sink, name ∉ c.resultLocals sink)
    : NamesApart c ⟨library, returns, callee, c.importParams (leading.map (·.1))⟩
          (c.callBody callee (leading.map (·.2)) sink)
        ↔
      c.Clear leading sink := by
  have hnames : c.nativeNames.Nodup := by
    rw [h.nativeNames_eq hs.unreserved]
    exact hs.distinct
  have hperm := c.names_perm callee (leading.map (·.2)) sink
  have hmem (name : String) (hname : name ∈ c.outer (leading.map (·.2)) sink)
      : name ∉ (c.callBody callee (leading.map (·.2)) sink).filterMap (·.declared?)
            ++ c.managedNames
          ↔ ∀ p ∈ c.params, name ∉ p.names := by
    rw [hperm.mem_iff]
    simp [houter name hname]
  constructor
  . rintro ⟨hlocals, himported, hhidden⟩
    rw [hperm.nodup_iff, locals_nodup_iff hnames] at hlocals
    refine ⟨(imported_nodup_iff hnames).1 himported, hlocals.1, hlocals.2, ?_⟩
    intro name hname
    rw [CallShape.outer_callBody] at hhidden
    exact (hmem name hname).1 (hhidden name hname)
  . rintro ⟨himported, hheld, hresult, hhidden⟩
    refine ⟨?_, (imported_nodup_iff hnames).2 himported, ?_⟩
    . rw [hperm.nodup_iff, locals_nodup_iff hnames]
      exact ⟨hheld, hresult⟩
    . intro name hname
      rw [CallShape.outer_callBody] at hname
      exact (hmem name hname).2 (hhidden name hname)

/--
What does not begin like the copies of values is not the wrapper of something that begins so.
-/
theorem wrapperLocal_ne_copyLocal (hx : Text.Ordinary x) : wrapperLocal x ≠ copyLocal y := by
  intro h
  have hlist := congrArg String.toList h
  have hend : "_wrapper".toList = '_' :: "wrapper".toList := rfl
  have hfront : "native_".toList = "native".toList ++ ['_'] := rfl
  rw [toList_wrapperLocal, toList_copyLocal, Text.bareName_eq_self hx.bare, hend, hfront,
    List.append_assoc] at hlist
  rcases List.append_eq_append_iff.1 hlist with ⟨as, has, hrest⟩ | ⟨bs, hbs, _⟩
  . cases as with
    | nil => exact hx.start ⟨[], by simpa using has⟩
    | cons a as =>
      -- The underscore of the wrapper would lie within the word.
      obtain rfl : '_' = a := (List.cons.inj hrest).1
      have hmem : '_' ∈ "native".toList := by simp [has]
      exact absurd hmem (by decide)
  . apply hx.start
    rw [hbs]
    exact List.prefix_append _ _

theorem holder?_notMem_names (hp : Text.Ordinary p.name) (hq : Text.Ordinary q.name)
    (hname : p.name ≠ q.name) : ∀ holder ∈ p.holder?, holder ∉ q.names := by
  have hnative : "native".toList <+: "native_".toList := by decide
  intro holder hholder hmem
  rcases holder?_cases hholder with ⟨_, rfl | rfl⟩
  . rcases mem_names.1 hmem with hother | hown
    . rcases holder?_cases hother with ⟨_, hsame | hsame⟩
      . exact hname (wrapperLocal_inj hp.bare hq.bare hsame)
      . exact wrapperLocal_ne_copyLocal hp hsame
    . exact ne_of_wrapperLocal hq.stop (own?_eq hown).symm
  . rcases mem_names.1 hmem with hother | hown
    . rcases holder?_cases hother with ⟨_, hsame | hsame⟩
      . exact wrapperLocal_ne_copyLocal hq hsame.symm
      . exact hname (copyLocal_inj hp.bare hq.bare hsame)
    . exact ne_of_copyLocal (fun h => hq.start (hnative.trans h)) (own?_eq hown).symm

theorem memberNames_notMem_names (hp : Text.Ordinary p.name) (hx : x ∈ Text.memberNames)
    : x ∉ p.names := by
  have hstop : ∀ name ∈ Text.memberNames, ¬ "_wrapper".toList <:+ name.toList := by decide
  have hstart : ∀ name ∈ Text.memberNames, name ≠ "native_cb" →
      ¬ "native_".toList <+: name.toList := by
    decide
  intro hmem
  rcases mem_names.1 hmem with hholder | hown
  . rcases holder?_cases hholder with ⟨_, rfl | rfl⟩
    . exact ne_of_wrapperLocal (hstop _ hx) rfl
    . by_cases hpointer : copyLocal p.name = "native_cb"
      . have hcb : copyLocal "cb" = "native_cb" := by decide +kernel
        exact hp.pointer (copyLocal_inj hp.bare (by decide) (hpointer.trans hcb.symm))
      . exact ne_of_copyLocal (hstart _ hx hpointer) rfl
  . exact hp.given (own?_eq hown ▸ hx)

/--
Names that do not look made up are never in the way.
-/
theorem clear_of_ordinary (h : Shaped t s c) (hs : s.WellNamed)
    (hordinary : ∀ p ∈ s.params, Text.Ordinary p.name)
    (himported : ∀ l ∈ leading, l.1.name ∈ Text.memberNames)
    (houter : ∀ name ∈ c.outer (leading.map (·.2)) sink, name ∈ Text.memberNames)
    : c.Clear leading sink := by
  have hnames := h.nativeNames_eq hs.unreserved
  have hordinary : ∀ p ∈ c.params, Text.Ordinary p.name := by
    intro p hp
    have hmem : p.name ∈ s.params.map (·.name) := by
      rw [← hnames]
      exact List.mem_map_of_mem hp
    rcases List.mem_map.1 hmem with ⟨p', hp', hsame⟩
    rw [← hsame]
    exact hordinary p' hp'
  have hdistinct : c.params.Pairwise fun p q => p.name ≠ q.name := by
    rw [← List.pairwise_map, ← CallShape.nativeNames, hnames]
    exact hs.distinct
  refine ⟨?_, ?_, ?_, ?_⟩
  . intro l hl p hp hsame
    exact (hordinary p hp).given (hsame ▸ himported l hl)
  . refine hdistinct.imp_of_mem fun hp hq hname => ⟨?_, ?_⟩
    . exact holder?_notMem_names (hordinary _ hp) (hordinary _ hq) hname
    . exact holder?_notMem_names (hordinary _ hq) (hordinary _ hp) hname.symm
  . have hresult : c.resultLocals sink ⊆ Text.memberNames :=
      List.Subset.trans (resultLocals_subset c sink) (by decide)
    intro p hp name hown hmem
    exact (hordinary p hp).given (own?_eq hown ▸ hresult hmem)
  . exact fun name hname p hp => memberNames_notMem_names (hordinary p hp) (houter name hname)

/--
What decides whether the names around a call are apart, where `leading` is the parameter in front of
all others in the import and what is passed for it.
-/
structure NamesDecided (s : Signature) (c : CallShape) (leading : Option (ImportParam × String))
    (sink : Sink) (i : Import) (body : List Statement) : Prop where
  iff : NamesApart c i body ↔ c.Clear leading sink
  ordinary : (∀ p ∈ s.params, Text.Ordinary p.name) → NamesApart c i body

theorem namesDecided (h : Shaped t s c) (hs : s.WellNamed)
    (leading : Option (ImportParam × String)) (library returns callee : String)
    (himported : ∀ l ∈ leading, l.1.name ∈ Text.memberNames)
    (houter : ∀ name ∈ c.outer (leading.map (·.2)) sink,
      name ∈ Text.memberNames ∧ name ∉ c.resultLocals sink)
    : NamesDecided s c leading sink ⟨library, returns, callee, c.importParams (leading.map (·.1))⟩
        (c.callBody callee (leading.map (·.2)) sink) := by
  have hiff := namesApart_iff h hs library returns callee fun name hname => (houter name hname).2
  refine ⟨hiff, fun hordinary => hiff.2 ?_⟩
  exact clear_of_ordinary h hs hordinary himported fun name hname => (houter name hname).1

theorem outer_giveBack {leading name : String}
    (hleading : leading ∈ Text.memberNames ∧ leading ∉ ["raw_ret", "ret"])
    (hname : name ∈ c.outer (some leading) .giveBack)
    : name ∈ Text.memberNames ∧ name ∉ c.resultLocals .giveBack := by
  obtain rfl : name = leading := by
    unfold CallShape.outer at hname
    cases hreturns : c.returns? <;> simpa [hreturns] using hname
  exact ⟨hleading.1, fun hmem => hleading.2 (resultLocals_subset c _ hmem)⟩

/--
Whatever constructor, method or invoker is bound, if its parameters have distinct names that are not
reserved: all names around its call are apart if and only if the parameters keep clear of the names
that are made up. None may be called like the first one of the import, like a local for the result
or like the handle or pointer of the class, and none may be held by a local that is called like that
pointer, like another parameter or like its local. Ordinary names always keep clear.
-/
theorem member_names_decided (t : Table) (gluelib : String)
    : (∀ o e, bindObject t o = .ok e →
        ∃ plan, planObject t o = .ok plan
          ∧ e.managed? = some ⟨o.identity.name, Source.text (objectSource o plan)⟩
          ∧ (∀ m ∈ plan.constructors, m.method ∈ o.constructors
              ∧ (m.method.signature.WellNamed →
                  NamesDecided m.method.signature m.shape none (.assign "Raw")
                    (constructorImport o m) (constructorBody m)))
          ∧ ∀ m ∈ plan.methods, m.method ∈ o.methods
              ∧ (m.method.signature.WellNamed →
                  NamesDecided m.method.signature m.shape
                    (if m.method.static then none else some (.address "raw", "Handle")) .giveBack
                    (methodImport o m) (methodBody m)))
      ∧ ∀ callback e, bindCallback t gluelib callback = .ok e →
        ∃ shape, CallShape.ofSignature t callback.signature = .ok shape
          ∧ e.managed? = some ⟨callback.identity.name,
              Source.text (CallbackSource.lines gluelib callback shape)⟩
          ∧ (callback.signature.WellNamed →
              NamesDecided callback.signature shape (some (.address "native_cb", "native_cb"))
                .giveBack (CallbackSource.invocationImport gluelib callback shape)
                (CallbackSource.invokerBody callback shape)) := by
  constructor
  . intro o e h
    unfold bindObject at h
    rcases Fault.bind_eq_ok.1 h with ⟨plan, hplan, h⟩
    rcases planObject_eq_ok hplan with ⟨hconstructors, hmethods⟩
    rw [← Except.ok.inj h]
    refine ⟨plan, hplan, rfl, ?_, ?_⟩
    . intro m hm
      rcases hconstructors m hm with ⟨hmem, hshaped⟩
      refine ⟨hmem, fun hnames => namesDecided hshaped hnames none _ _ _ (by simp) ?_⟩
      intro name hname
      obtain rfl : name = "Raw" := by
        unfold CallShape.outer at hname
        cases hreturns : m.shape.returns? <;> simp [hreturns] at hname
        exact hname
      exact ⟨by decide, by simp [CallShape.resultLocals]⟩
    . intro m hm
      rcases hmethods m hm with ⟨hmem, hshaped⟩
      refine ⟨hmem, fun hnames => ?_⟩
      unfold methodImport methodBody
      cases m.method.static with
      | true =>
        refine namesDecided hshaped hnames none _ _ _ (by simp) ?_
        intro name hname
        unfold CallShape.outer at hname
        cases hreturns : m.shape.returns? <;> simp [hreturns] at hname
      | false =>
        refine namesDecided hshaped hnames (some (.address "raw", "Handle")) _ _ _ ?_ ?_
        . decide
        . exact fun name hname => outer_giveBack (by decide) hname
  . intro callback e h
    unfold bindCallback at h
    rcases Fault.bind_eq_ok.1 h with ⟨shape, hshape, h⟩
    rw [← Except.ok.inj h]
    have hshape := within_eq_ok.1 hshape
    have hshaped := shaped_of_ofSignature hshape
    refine ⟨shape, hshape, rfl, fun hnames => ?_⟩
    refine namesDecided hshaped hnames (some (.address "native_cb", "native_cb")) _ _ _ ?_ ?_
    . decide
    . exact fun name hname => outer_giveBack (by decide) hname

def boardPlan : ObjectPlan :=
  ⟨"Gapi.Runtime.NativeObject", [], [],
    [⟨pollBoard, pollShape⟩, ⟨connectBoard, connectShape⟩, ⟨splitBoard, splitShape⟩], []⟩

theorem planObject_board : planObject boardTable board = .ok boardPlan := by
  rcases ofSignature_board with ⟨hpoll, hconnect, hsplit⟩
  unfold planObject board
  simp only [shapeMethods, shapeVirtuals, hpoll, hconnect, hsplit]
  rfl

theorem member_names_decided_poll
    : (∃ e, bindObject boardTable board = .ok e)
        ∧ pollBoard.signature.WellNamed
        ∧ NamesApart pollShape (methodImport board ⟨pollBoard, pollShape⟩)
            (methodBody ⟨pollBoard, pollShape⟩)
        ∧ (methodBody ⟨pollBoard, pollShape⟩).filterMap (·.declared?)
            = ["tick_wrapper", "native_rows", "n", "raw_ret", "ret"]
        ∧ (∃ e, bindCallback tallyTable "demoglue" listFunc = .ok e)
        ∧ listFunc.signature.WellNamed
        ∧ NamesApart listShape (CallbackSource.invocationImport "demoglue" listFunc listShape)
            (CallbackSource.invokerBody listFunc listShape) := by
  have hboard : ∃ e, bindObject boardTable board = .ok e := by
    unfold bindObject
    rw [planObject_board]
    exact ⟨_, rfl⟩
  have hlist : ∃ e, bindCallback tallyTable "demoglue" listFunc = .ok e := by
    unfold bindCallback
    rw [ofSignature_list]
    exact ⟨_, rfl⟩
  have hpollNames : pollBoard.signature.WellNamed := ⟨by decide, by decide⟩
  have hlistNames : listFunc.signature.WellNamed := ⟨by decide, by decide⟩
  have hpollOrdinary : ∀ p ∈ pollBoard.signature.params, Text.Ordinary p.name := by decide
  have hlistOrdinary : ∀ p ∈ listFunc.signature.params, Text.Ordinary p.name := by decide
  refine ⟨hboard, hpollNames, ?_, by decide +kernel, hlist, hlistNames, ?_⟩
  . rcases hboard with ⟨e, he⟩
    rcases (member_names_decided boardTable "demoglue").1 board e he with
      ⟨plan, hplan, _, _, hmethods⟩
    obtain rfl : boardPlan = plan := Except.ok.inj (planObject_board.symm.trans hplan)
    exact ((hmethods _ List.mem_cons_self).2 hpollNames).ordinary hpollOrdinary
  . rcases hlist with ⟨e, he⟩
    rcases (member_names_decided tallyTable "demoglue").2 listFunc e he with
      ⟨shape, hshape, _, hdecided⟩
    obtain rfl : listShape = shape := Except.ok.inj (ofSignature_list.symm.trans hshape)
    exact (hdecided hlistNames).ordinary hlistOrdinary

/--
A function whose parameter is called like the local for its result.
-/
def addMethod : Method :=
  ⟨"add", "demo_adder_add", ⟨"gint", [⟨"ret", "gint", .call⟩]⟩, false⟩

def adder : ObjectType :=
  ⟨⟨"DemoAdder", "Adder", "Demo", "libdemo"⟩, none, none, [], [addMethod], []⟩

def addShape : CallShape :=
  .ofUses addMethod.signature [tallyTable.useOf "gint" gint] (some (tallyTable.useOf "gint" gint))

def adderPlan : ObjectPlan :=
  ⟨"Gapi.Runtime.NativeObject", [], [], [⟨addMethod, addShape⟩], []⟩

theorem planObject_adder : planObject tallyTable adder = .ok adderPlan := by
  have hvoid : Signature.returnsVoid ⟨"gint", [⟨"ret", "gint", .call⟩]⟩ = false := by decide
  have hshape : CallShape.ofSignature tallyTable addMethod.signature = .ok addShape := by
    unfold CallShape.ofSignature resolveReturn addMethod
    simp only [resolveParams, resolve_gint, hvoid]
    rfl
  unfold planObject adder
  simp only [shapeMethods, shapeVirtuals, hshape]
  rfl

/--
A local may share its name with a parameter that managed code sees.
-/
theorem not_member_names_apart
    : ¬ ∀ (t : Table) (o : ObjectType) (e : Emitted) (plan : ObjectPlan) (m : Member),
        bindObject t o = .ok e → planObject t o = .ok plan → m ∈ plan.methods →
          m.method.signature.WellNamed →
            ((methodBody m).filterMap (·.declared?) ++ m.shape.managedNames).Nodup
              ∧ ((methodImport o m).params.map (·.name)).Nodup := by
  intro hall
  have hadder : ∃ e, bindObject tallyTable adder = .ok e := by
    unfold bindObject
    rw [planObject_adder]
    exact ⟨_, rfl⟩
  rcases hadder with ⟨e, he⟩
  have hnames : addMethod.signature.WellNamed := ⟨by decide, by decide⟩
  have hlocals := (hall tallyTable adder e adderPlan ⟨addMethod, addShape⟩ he planObject_adder
    List.mem_cons_self hnames).1
  revert hlocals
  decide +kernel

end Binding

end Interop
