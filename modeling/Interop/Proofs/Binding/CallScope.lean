import Interop.Proofs.Binding.Locals
import Interop.Proofs.Binding.Scope

/-!
This module contains the names in the body of a member that calls native code. The wrappers of the
callbacks among its parameters are there when they are referred to, and so is the number of returned
elements; the callbacks and the counted arrays inside of an array are not provided for.
-/

namespace Interop.Binding

/--
The parameter `q` is a callback that the wrapper `holder` is set up for.
-/
def CallParam.Wraps (q : CallParam) (holder : String) : Prop :=
  q.role = .value ∧ (∃ type, q.use.type = .callback type) ∧ holder = wrapperLocal q.name

namespace CallShape

def managedNames (c : CallShape) : List String :=
  c.visible.map (·.name)

/--
The body of a call has the local `name` when the result is converted.
-/
def Local (c : CallShape) (name : String) : Prop :=
  name = "raw_ret" ∨ Declared (c.params.flatMap (·.preparation)) name

/--
What makes every name stand for something in the body of a call.
-/
structure CallGrounded (c : CallShape) (sink : Sink) : Prop where
  /-- The callbacks in an array share their wrapper with an earlier parameter. -/
  elements : ∀ (k : Nat) (q : CallParam), c.params[k]? = some q → q.role = .value →
    ∀ holder ∈ q.use.crossing.elementWrappers,
      ∃ (j : Nat) (q' : CallParam), j < k ∧ c.params[j]? = some q' ∧ q'.Wraps holder
  /-- So does a number of elements that is passed like a callback. -/
  counts : ∀ q ∈ c.params, ∀ i, q.role = .lengthOf i →
    ∀ holder ∈ q.use.crossing.wrappers (q.countValue (c.nameAt i)), ∃ q' ∈ c.params, q'.Wraps holder
  /-- The arrays in a returned array are counted by what managed code sees or by a local. -/
  lengths : sink = .giveBack → ∀ r, c.returns? = some r →
    ∀ name ∈ innerLengths r c.returnLength, name ∈ c.managedNames ∨ c.Local name

end CallShape

variable {t : Table} {s : Signature} {c : CallShape} {q : CallParam} {k : Nat}
  {ref holder name function : String} {names : List String} {before : List Statement}

theorem wrapped_preparation : Wrapped q.preparation holder ↔ q.Wraps holder := by
  unfold Wrapped CallParam.preparation CallParam.Wraps
  cases q.role with
  | value =>
    cases q.use.type with
    | callback type =>
      dsimp only
      split <;> simp [Statement.wrapped?, eq_comm]
    | _ =>
      dsimp only
      split <;> simp [Statement.wrapped?]
  | lengthOf array => simp
  | returnLength => simp [Statement.wrapped?]

theorem wrapped_preparations {qs : List CallParam}
    : Wrapped (qs.flatMap (·.preparation)) holder ↔ ∃ q ∈ qs, q.Wraps holder := by
  simp only [← wrapped_preparation, Wrapped, List.mem_flatMap]
  grind

theorem declared_preparation (hrole : q.role = .returnLength) : Declared q.preparation q.name := by
  unfold Declared CallParam.preparation
  rw [hrole]
  exact ⟨_, List.mem_singleton.2 rfl, rfl⟩

theorem elementWrappers_of_ownsCopy {crossing : Crossing} (h : crossing.ownsCopy = false)
    : crossing.elementWrappers = [] := by
  cases crossing with
  | array length e => cases h
  | _ => rfl

theorem scoped_preparationLines (huse : t.resolve ref = .ok q.use)
    : Scoped names before q.preparationLines
        ↔
      (q.role = .value → ∀ holder ∈ q.use.crossing.elementWrappers, Wrapped before holder) := by
  unfold CallParam.preparationLines
  cases q.role with
  | value =>
    cases htype : q.use.type with
    | callback type =>
      have hkept : Grounded names (before ++ [.wrap type.wrapper (wrapperLocal q.name) q.name])
          (Line.keepForever (wrapperLocal q.name)).pieces :=
        grounded_wrapper ⟨_, List.mem_append_right _ (List.mem_singleton.2 rfl), rfl⟩
      rw [(wrappers_of_callback huse htype).1, scoped_cons]
      dsimp only [Line.wrap, Line.plain]
      split <;> simp [scoped_cons, scoped_nil, grounded_plain, hkept]
    | _ =>
      have hother : ∀ type, q.use.type ≠ .callback type := by simp [htype]
      rw [← wrappers_of_not_callback huse hother (x := q.name)]
      dsimp only
      split
      . rw [scoped_cons, Line.copy, grounded_around, grounded_toNativePieces]
        simp [scoped_nil]
      . next hcopy =>
        rw [wrappers_of_not_callback huse hother,
          elementWrappers_of_ownsCopy (Bool.eq_false_iff.2 hcopy)]
        simp [scoped_nil]
  | lengthOf array => simp [scoped_nil]
  | returnLength => simp [scoped_cons, scoped_nil, Line.declareLength, Line.plain, grounded_plain]

/--
Of the arguments only a number of elements can refer to what is not there: all the others refer to
what was set up for their own parameter.
-/
theorem grounded_argumentPieces (huse : t.resolve ref = .ok q.use)
    (hprepared : ∀ st ∈ q.preparation, st ∈ before)
    : Grounded names before (c.argumentPieces q)
        ↔
      ∀ i, q.role = .lengthOf i →
        ∀ holder ∈ q.use.crossing.wrappers (q.countValue (c.nameAt i)), Wrapped before holder := by
  have hwrapped : ∀ holder, q.Wraps holder → Wrapped before holder := by
    intro holder hwraps
    rcases wrapped_preparation.2 hwraps with ⟨st, hst, hholder⟩
    exact ⟨st, hprepared st hst, hholder⟩
  unfold CallShape.argumentPieces
  cases hrole : q.role with
  | value =>
    unfold CallParam.passedPieces
    cases htype : q.use.type with
    | callback type =>
      refine iff_of_true (grounded_toNativePieces.2 ?_) (by simp)
      intro holder hholder
      exact hwrapped holder ⟨hrole, ⟨type, htype⟩, (wrappers_of_callback huse htype).2 _ _ hholder⟩
    | _ =>
      have hother : ∀ type, q.use.type ≠ .callback type := by simp [htype]
      dsimp only
      split
      . simp [grounded_plain]
      . next hcopy =>
        rw [grounded_toNativePieces, wrappers_of_not_callback huse hother,
          elementWrappers_of_ownsCopy (Bool.eq_false_iff.2 hcopy)]
        simp
  | lengthOf array =>
    dsimp only [nativeCountPieces]
    rw [grounded_toNativePieces]
    simp
  | returnLength =>
    rcases declared_preparation hrole with ⟨st, hst, hname⟩
    refine iff_of_true (grounded_append.2 ⟨grounded_plain, ?_⟩) (by simp)
    intro p hp
    rw [List.mem_singleton.1 hp]
    exact .inr ⟨st, hprepared st hst, hname⟩

theorem Shaped.resolved (h : Shaped t s c) (hq : q ∈ c.params)
    : ∃ ref, t.resolve ref = .ok q.use := by
  rcases List.getElem?_of_mem hq with ⟨k, hk⟩
  rcases h.source hk with ⟨p, _, huse, _⟩
  exact ⟨p.ctype, huse⟩

theorem grounded_argumentListPieces (h : Shaped t s c) (names : List String)
    (leading : Option String)
    : Grounded names (c.params.flatMap (·.preparation)) (c.argumentListPieces leading)
        ↔
      ∀ q ∈ c.params, ∀ i, q.role = .lengthOf i →
        ∀ holder ∈ q.use.crossing.wrappers (q.countValue (c.nameAt i)),
          ∃ q' ∈ c.params, q'.Wraps holder := by
  unfold CallShape.argumentListPieces
  rw [grounded_commaSeparated]
  simp only [List.mem_append, List.mem_map, ← wrapped_preparations]
  have hprepared : ∀ q ∈ c.params, ∀ st ∈ q.preparation, st ∈ c.params.flatMap (·.preparation) := by
    intro q hq st hst
    exact List.mem_flatMap.2 ⟨q, hq, hst⟩
  constructor
  . intro hgrounded q hq
    rcases h.resolved hq with ⟨ref, huse⟩
    have hargument := hgrounded (c.argumentPieces q) (.inr ⟨q, hq, rfl⟩)
    exact (grounded_argumentPieces huse (hprepared q hq)).1 hargument
  . rintro hcounts item (⟨text, _, rfl⟩ | ⟨q, hq, rfl⟩)
    . exact grounded_plain
    . rcases h.resolved hq with ⟨ref, huse⟩
      exact (grounded_argumentPieces huse (hprepared q hq)).2 (hcounts q hq)

theorem mem_take {α : Type} {as : List α} {a : α}
    : a ∈ as.take k ↔ ∃ j : Nat, j < k ∧ as[j]? = some a := by
  rw [List.mem_iff_getElem?]
  simp [List.getElem?_take]

theorem scoped_preparations (h : Shaped t s c)
    : Scoped names [] (c.params.flatMap (·.preparationLines))
        ↔
      ∀ (k : Nat) (q : CallParam), c.params[k]? = some q → q.role = .value →
        ∀ holder ∈ q.use.crossing.elementWrappers,
          ∃ (j : Nat) (q' : CallParam), j < k ∧ c.params[j]? = some q' ∧ q'.Wraps holder := by
  rw [scoped_flatMap]
  refine forall_congr' fun k => forall_congr' fun q => forall_congr' fun hq => ?_
  rcases h.resolved (List.mem_of_getElem? hq) with ⟨ref, huse⟩
  rw [scoped_preparationLines huse]
  refine forall_congr' fun _ => forall_congr' fun holder => forall_congr' fun _ => ?_
  simp only [CallParam.map_preparationLines, List.nil_append, wrapped_preparations]
  constructor
  . rintro ⟨q', hmem, hwraps⟩
    rcases mem_take.1 hmem with ⟨j, hj, hq'⟩
    exact ⟨j, q', hj, hq', hwraps⟩
  . rintro ⟨j, q', hj, hq', hwraps⟩
    exact ⟨q', mem_take.2 ⟨j, hj, hq'⟩, hwraps⟩

theorem Shaped.returned_array (h : Shaped t s c) {r : Use} (hr : c.returns? = some r)
    : ∀ length ∈ c.returnLength, length.role = .returnLength ∧ length ∈ c.params
        ∧ ∃ type name e, r.type = .array type ∧ r.content = .array (.param name) e := by
  intro length hlength
  rcases Option.bind_eq_some_iff.1 hlength with ⟨k, hk, hq⟩
  refine ⟨(h.role_eq_returnLength hq).2 hk, List.mem_of_getElem? hq, ?_⟩
  rw [h.returnLength, hr] at hk
  rcases Signature.lengthPlace?_eq_some hk with ⟨p, _, hparam⟩
  rcases content_of_lengthParam? ((h.returns r).1 hr).2 hparam with ⟨type, e, htype, hcontent⟩
  exact ⟨type, p.name, e, htype, hcontent⟩

theorem exists_returnedLength {r : Use} {length : String}
    (hchecked : Validation.signatureFault? t function s = none) (huse : t.resolve s.returns = .ok r)
    (hlength : r.lengthParam? = some length) : ∃ p ∈ s.params, p.name = length := by
  rcases Table.resolve_eq_ok.1 huse with ⟨d, hget, rfl⟩
  rcases lengthParam?_eq_some.1 hlength with ⟨type, htype, hparam⟩
  obtain rfl : d = .array type := htype
  unfold Validation.signatureFault? at hchecked
  rw [List.findSome?_eq_none_iff] at hchecked
  have hcarrier := hchecked (none, s.returns) (List.mem_append_right _ (List.mem_singleton.2 rfl))
  simp only [hget, hparam] at hcarrier
  simpa using hcarrier

section Checked

variable (h : Shaped t s c) (hchecked : Validation.signatureFault? t function s = none)

include h hchecked

/--
A counted array that a signature without fault returns has a parameter for its length.
-/
theorem Shaped.ownLength?_returned {r : Use} (hr : c.returns? = some r)
    (hlength : c.returnLength = none) : r.crossing.ownLength? = none := by
  cases hown : r.crossing.ownLength? with
  | none => rfl
  | some name =>
    rcases (h.returns r).1 hr with ⟨hvoid, huse⟩
    have hparam := lengthParam?_of_ownLength? huse hown
    rcases exists_returnedLength hchecked huse hparam with ⟨p, hp, rfl⟩
    have hposition : ∃ k, s.position? p.name = some k := by
      rw [← Option.isSome_iff_exists]
      unfold Signature.position?
      rw [List.findIdx?_isSome, List.any_eq_true]
      exact ⟨p, hp, by simp⟩
    rcases hposition with ⟨k, hk⟩
    have hplace : s.lengthPlace? r = some k := by
      unfold Signature.lengthPlace?
      rw [hparam]
      exact hk
    rcases h.exists_of_lengthPlace? hplace with ⟨q, hq⟩
    have hreturn : c.returnLength? = some k := by
      rw [h.returnLength, hr]
      exact hplace
    unfold CallShape.returnLength at hlength
    rw [hreturn] at hlength
    exact absurd (hq.symm.trans hlength) (by simp)

theorem scoped_invocationLines (callee : String) (leading : Option String) (sink : Sink)
    : Scoped c.managedNames (c.params.flatMap (·.preparation))
        (c.invocationLines callee leading sink)
        ↔
      (∀ q ∈ c.params, ∀ i, q.role = .lengthOf i →
          ∀ holder ∈ q.use.crossing.wrappers (q.countValue (c.nameAt i)),
            ∃ q' ∈ c.params, q'.Wraps holder)
        ∧ (sink = .giveBack → ∀ r, c.returns? = some r →
            ∀ name ∈ innerLengths r c.returnLength, name ∈ c.managedNames ∨ c.Local name) := by
  rw [← grounded_argumentListPieces h c.managedNames leading]
  unfold CallShape.invocationLines
  cases hr : c.returns? with
  | none => simp [scoped_cons, scoped_nil, grounded_around]
  | some r =>
    cases sink with
    | assign target => simp [scoped_cons, scoped_nil, grounded_around]
    | giveBack =>
      have hreturned := h.returned_array hr
      have hstands (type : String) (name : String)
          : Stands c.managedNames (c.params.flatMap (·.preparation) ++
              [.receive type callee (c.arguments leading)]) (.count name)
              ↔ name ∈ c.managedNames ∨ c.Local name := by
        change _ ∨ Declared _ _ ↔ _
        rw [declared_append]
        simp [CallShape.Local, Declared, Statement.declared?, or_comm, eq_comm]
      have hown : ∀ length ∈ c.returnLength, c.Local length.name := by
        intro length hlength
        rcases hreturned length hlength with ⟨hrole, hmem, _⟩
        rcases declared_preparation hrole with ⟨st, hst, hname⟩
        exact .inr ⟨st, List.mem_flatMap.2 ⟨length, hmem, hst⟩, hname⟩
      dsimp only
      rw [scoped_cons, scoped_cons, grounded_around, grounded_around,
        grounded_managedValuePieces fun length hlength => (hreturned length hlength).2.2]
      refine and_congr_right fun _ => ?_
      constructor
      . rintro ⟨⟨_, _, hinner⟩, _⟩ _ r' hr' name hname
        obtain rfl : r = r' := Option.some.inj hr'
        exact (hstands _ name).1 (hinner name hname)
      . intro hinner
        refine ⟨⟨?_, ?_, ?_⟩, scoped_nil⟩
        . intro length hlength
          exact (hstands _ length.name).2 (.inr (hown length hlength))
        . intro hlength name hname
          rw [h.ownLength?_returned hchecked hr hlength] at hname
          cases hname
        . intro name hname
          exact (hstands _ name).2 (hinner rfl r rfl name hname)

end Checked

theorem exists_of_isCallback {use : Use} (h : use.isCallback = true)
    : ∃ type, use.type = .callback type := by
  cases htype : use.type with
  | callback type => exact ⟨type, rfl⟩
  | _ =>
    have hother : use.isCallback = false := isCallback_eq_false (by simp [htype])
    cases h.symm.trans hother

theorem scoped_cleanups
    : Scoped names (c.params.flatMap (·.preparation) ++ before)
        (c.visible.flatMap (·.cleanupLines)) := by
  apply scoped_of_grounded
  intro l hl
  rcases List.mem_flatMap.1 hl with ⟨q, hq, hl⟩
  rcases List.mem_filter.1 hq with ⟨hmem, hrole⟩
  have hrole : q.role = .value := by simpa using hrole
  unfold CallParam.cleanupLines at hl
  split at hl
  . next hcallback =>
    rcases exists_of_isCallback hcallback with ⟨type, htype⟩
    split at hl
    . rw [List.mem_singleton.1 hl]
      apply grounded_wrapper
      rw [wrapped_append, wrapped_preparations]
      exact .inl ⟨q, hmem, hrole, ⟨type, htype⟩, rfl⟩
    . cases hl
  . split at hl
    . rw [List.mem_singleton.1 hl]
      exact grounded_plain
    . cases hl

theorem scoped_callLines (h : Shaped t s c)
    (hchecked : Validation.signatureFault? t function s = none) (callee : String)
    (leading : Option String) (sink : Sink)
    : Scoped c.managedNames [] (c.callLines callee leading sink) ↔ c.CallGrounded sink := by
  have hprepared : (c.params.flatMap (·.preparationLines)).map (·.statement)
      = c.params.flatMap (·.preparation) :=
    CallShape.map_flatMap_statement CallParam.map_preparationLines c.params
  have hreturn (before : List Statement) : Scoped c.managedNames before
      (if c.returns?.isSome && sink == .giveBack then [.giveBack "ret"] else []) := by
    split
    . exact scoped_cons.2 ⟨grounded_plain, scoped_nil⟩
    . exact scoped_nil
  unfold CallShape.callLines
  rw [scoped_append, scoped_append, scoped_append, List.map_append, hprepared, List.nil_append,
    List.nil_append, scoped_preparations h, scoped_invocationLines h hchecked]
  constructor
  . rintro ⟨⟨⟨helements, hcounts, hlengths⟩, _⟩, _⟩
    exact ⟨helements, hcounts, hlengths⟩
  . rintro ⟨helements, hcounts, hlengths⟩
    exact ⟨⟨⟨helements, hcounts, hlengths⟩, scoped_cleanups⟩, hreturn _⟩

end Interop.Binding
