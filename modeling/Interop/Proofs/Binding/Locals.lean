import Interop.Proofs.Binding.Supplied

/-!
This module contains what a call needs around it. A callback is held by a local, and so is a value
that was copied to native memory; for each parameter such a local is set up before the call, passed,
and given up when the result was converted, or kept for ever.
-/

namespace Interop.Binding

/--
What a body does for one parameter: statements before the call, an argument of the call and
statements after it.
-/
structure Bracket where
  before : List Statement
  argument : Argument
  after : List Statement

/--
The bracket of the parameter at place `k`.
-/
inductive Bracketed (k : Nat) (q : CallParam) : Bracket → Prop where
  /-- A callback that native code may call at any time. -/
  | kept {type : CallbackType} (hrole : q.role = .value) (htype : q.use.type = .callback type)
      (hcopy : q.use.crossing.ownsCopy = false) (hlifetime : q.lifetime = .forever)
      : Bracketed k q {
          before := [.wrap type.wrapper (wrapperLocal q.name) q.name,
            .keepForever (wrapperLocal q.name)]
          argument := .passed k (wrapperLocal q.name ++ ".NativeFunctionPointer")
          after := [] }
  /-- A callback that is of use during the call alone. -/
  | lent {type : CallbackType} (hrole : q.role = .value) (htype : q.use.type = .callback type)
      (hcopy : q.use.crossing.ownsCopy = false) (hlifetime : q.lifetime = .call)
      : Bracketed k q {
          before := [.wrap type.wrapper (wrapperLocal q.name) q.name]
          argument := .passed k (wrapperLocal q.name ++ ".NativeFunctionPointer")
          after := [.keepAlive (wrapperLocal q.name)] }
  | copied (hrole : q.role = .value) (htype : q.use.isCallback = false)
      (hcopy : q.use.crossing.ownsCopy = true)
      : Bracketed k q {
          before := [.copy (copyLocal q.name) (q.use.crossing.toNative q.name)]
          argument := .passed k (copyLocal q.name)
          after := [.free (copyLocal q.name)] }
  | direct (hrole : q.role = .value) (htype : q.use.isCallback = false)
      (hcopy : q.use.crossing.ownsCopy = false)
      : Bracketed k q ⟨[], .passed k (q.use.crossing.toNative q.name), []⟩
  /-- A number of elements that managed code does not see. -/
  | counted {array : Nat} {text : String} (hrole : q.role = .lengthOf array)
      : Bracketed k q ⟨[], .counted k array text, []⟩
  | received (hrole : q.role = .returnLength)
      : Bracketed k q ⟨[.declareLength q.use.crossing.boundary q.name], .received k q.name, []⟩

/--
What follows the call directly and at the end, where `sink` takes the result.
-/
inductive Concluded (c : CallShape) (sink : Sink) : List Statement → List Statement → Prop where
  | silent (h : c.returns? = none ∨ sink ≠ .giveBack) : Concluded c sink [] []
  | answered {use : Use} {value : String} (hreturns : c.returns? = some use)
      (hsink : sink = .giveBack)
      : Concluded c sink [.convert use.crossing.managed value] [.giveBack "ret"]

variable {t : Table} {s : Signature} {c : CallShape} {k : Nat} {q : CallParam}

def CallShape.bracket (c : CallShape) (q : CallParam) (k : Nat) : Bracket where
  before := q.preparation
  argument := c.argument q k
  after := if q.role = .value then q.cleanup else []

theorem isCallback_eq_false {use : Use} (h : ∀ type, use.type ≠ .callback type)
    : use.isCallback = false := by
  unfold Use.isCallback
  cases htype : use.type with
  | callback type => exact absurd htype (h type)
  | _ => simp [Descriptor.kind]

theorem isCallback_eq_true {use : Use} {type : CallbackType} (htype : use.type = .callback type)
    (hdepth : use.depth ≤ 1) : use.isCallback = true := by
  unfold Use.isCallback
  rw [htype]
  simpa [Descriptor.kind] using hdepth

/--
Behind at most one pointer a callback crosses as such.
-/
theorem crossing_of_resolve {ref : String} {use : Use} {type : CallbackType}
    (huse : t.resolve ref = .ok use) (htype : use.type = .callback type) (hdepth : use.depth ≤ 1)
    : use.crossing = .callback type := by
  rcases Table.resolve_eq_ok.1 huse with ⟨d, _, rfl⟩
  obtain rfl : d = .callback type := htype
  unfold Use.crossing
  generalize hd : (t.useOf ref (.callback type)).depth = depth at hdepth
  match depth, hdepth with
  | 0, _ => rfl
  | 1, _ => rfl

theorem bracketed_of_value (hrole : q.role = .value)
    (hcallback : ∀ type, q.use.type = .callback type →
      q.use.isCallback = true ∧ q.use.crossing = .callback type)
    : Bracketed k q (c.bracket q k) := by
  unfold CallShape.bracket
  rw [argument_of_value hrole, if_pos hrole]
  unfold CallParam.preparation CallParam.cleanup CallParam.passedText
  by_cases htype : ∃ type, q.use.type = .callback type
  . rcases htype with ⟨type, htype⟩
    rcases hcallback type htype with ⟨hcallback, hcrossing⟩
    have hcopy : q.use.crossing.ownsCopy = false := by rw [hcrossing]; rfl
    cases hlifetime : q.lifetime with
    | call =>
      have := Bracketed.lent (k := k) hrole htype hcopy hlifetime
      simpa [hrole, htype, hcallback, hcrossing, hlifetime, Crossing.toNative] using this
    | forever =>
      have := Bracketed.kept (k := k) hrole htype hcopy hlifetime
      simpa [hrole, htype, hcallback, hcrossing, hlifetime, Crossing.toNative] using this
  . rw [not_exists] at htype
    have hcallback := isCallback_eq_false htype
    cases hcopy : q.use.crossing.ownsCopy with
    | true =>
      have := Bracketed.copied (k := k) hrole hcallback hcopy
      simpa [hrole, htype, hcallback, hcopy] using this
    | false =>
      have := Bracketed.direct (k := k) hrole hcallback hcopy
      simpa [hrole, htype, hcallback, hcopy] using this

theorem bracketed_of_hidden (hrole : q.role ≠ .value) : Bracketed k q (c.bracket q k) := by
  unfold CallShape.bracket
  rw [if_neg hrole]
  unfold CallParam.preparation
  cases h : q.role with
  | value => exact absurd h hrole
  | lengthOf array =>
    rw [argument_of_lengthOf h]
    exact .counted h
  | returnLength =>
    rw [argument_of_returnLength h]
    exact .received h

def CallShape.brackets (c : CallShape) : List Bracket :=
  c.params.zipIdx.map fun (q, k) => c.bracket q k

theorem CallShape.brackets_getElem? (hq : c.params[k]? = some q)
    : c.brackets[k]? = some (c.bracket q k) := by
  unfold brackets
  rw [List.getElem?_map, List.getElem?_zipIdx, hq, Nat.zero_add]
  rfl

theorem flatMap_brackets (f : CallParam → List Statement)
    : c.params.zipIdx.flatMap (fun x => f x.1) = c.params.flatMap f := by
  conv_rhs => rw [← List.zipIdx_map_fst 0 c.params, List.flatMap_map]

theorem brackets_before : c.brackets.flatMap (·.before) = c.params.flatMap (·.preparation) := by
  unfold CallShape.brackets
  rw [List.flatMap_map]
  exact flatMap_brackets (·.preparation)

theorem brackets_after : c.brackets.flatMap (·.after) = c.visible.flatMap (·.cleanup) := by
  have hvisible (qs : List CallParam)
      : qs.flatMap (fun q => if q.role = .value then q.cleanup else [])
          = (qs.filter (·.role = .value)).flatMap (·.cleanup) := by
    induction qs with
    | nil => rfl
    | cons q qs ih => by_cases hrole : q.role = .value <;> simp [hrole, ih]
  unfold CallShape.brackets CallShape.visible
  rw [List.flatMap_map, ← hvisible]
  exact flatMap_brackets fun q => if q.role = .value then q.cleanup else []

theorem brackets_argument (leading : Option String)
    : leading.toList.map .leading ++ c.brackets.map (·.argument) = c.arguments leading := by
  unfold CallShape.brackets CallShape.arguments
  rw [List.map_map]
  rfl

theorem invocation_concluded (callee : String) (leading : Option String) (sink : Sink)
    : ∃ call converted, c.invocation callee leading sink = call :: converted
        ∧ call.invocation? = some (callee, c.arguments leading)
        ∧ Concluded c sink converted
            (if c.returns?.isSome && sink == .giveBack then [.giveBack "ret"] else []) := by
  unfold CallShape.invocation
  cases hreturns : c.returns? with
  | none => exact ⟨_, _, rfl, rfl, .silent (.inl hreturns)⟩
  | some use =>
    cases sink with
    | giveBack => exact ⟨_, _, rfl, rfl, .answered hreturns rfl⟩
    | assign target => exact ⟨_, _, rfl, rfl, .silent (.inr (by simp))⟩

theorem Shaped.bracketed (h : Shaped t s c)
    (hdepth : ∀ p ∈ s.params, ∀ type, t.get? p.ctype = some (.callback type) →
      Reference.depth p.ctype ≤ 1)
    (hq : c.params[k]? = some q) : Bracketed k q (c.bracket q k) := by
  by_cases hrole : q.role = .value
  . apply bracketed_of_value hrole
    intro type htype
    rcases h.source hq with ⟨p, hp, huse, _⟩
    have hcallback : q.use.depth ≤ 1 := by
      rcases Table.resolve_eq_ok.1 huse with ⟨d, hget, hd⟩
      rw [hd] at htype ⊢
      obtain rfl : d = .callback type := htype
      exact hdepth p (List.mem_of_getElem? hp) type hget
    exact ⟨isCallback_eq_true htype hcallback, crossing_of_resolve huse htype hcallback⟩
  . exact bracketed_of_hidden hrole

/--
The local that a statement gives up.
-/
def Statement.givenUp? : Statement → Option String
  | keepAlive holder | free holder => some holder
  | _ => none

theorem givenUp?_of_mem_preparation {st : Statement} (h : st ∈ q.preparation)
    : st.givenUp? = none := by
  unfold CallParam.preparation at h
  grind [Statement.givenUp?]

theorem givenUp?_of_mem_invocation {callee : String} {leading : Option String} {sink : Sink}
    {st : Statement} (h : st ∈ c.invocation callee leading sink) : st.givenUp? = none := by
  unfold CallShape.invocation at h
  grind [Statement.givenUp?]

theorem mem_cleanup_of_givenUp? {callee : String} {leading : Option String} {sink : Sink}
    {st : Statement} {holder : String} (h : st ∈ c.callBody callee leading sink)
    (hst : st.givenUp? = some holder) : ∃ q ∈ c.visible, st ∈ q.cleanup := by
  unfold CallShape.callBody at h
  simp only [List.mem_append, List.mem_flatMap] at h
  rcases h with ((⟨q, _, h⟩ | h) | hcleanup) | h
  . simp [givenUp?_of_mem_preparation h] at hst
  . simp [givenUp?_of_mem_invocation h] at hst
  . exact hcleanup
  . split at h
    . rw [List.mem_singleton.1 h] at hst
      cases hst
    . cases h

theorem keepAlive_of_mem_cleanup {holder : String} (h : .keepAlive holder ∈ q.cleanup)
    : q.use.isCallback = true ∧ q.lifetime = .call ∧ holder = wrapperLocal q.name := by
  unfold CallParam.cleanup at h
  grind

theorem free_of_mem_cleanup {holder : String} (h : .free holder ∈ q.cleanup)
    : q.use.crossing.ownsCopy = true ∧ holder = copyLocal q.name := by
  unfold CallParam.cleanup at h
  grind

/--
Whatever comes first among the arguments and whatever becomes of the result, the body of a call
consists of one bracket for each parameter of the signature around the call: all that is set up
stands before it, and all that is given up between the result's conversion and its return. A
callback, which stands behind one pointer at most, is held by one wrapper that is either kept for
ever or kept alive until then; a value that has to be copied is freed then, and nothing else is. The
body is written statement by statement.
-/
theorem callBody_bracketed (h : CallShape.ofSignature t s = .ok c)
    (hdepth : ∀ p ∈ s.params, ∀ type, t.get? p.ctype = some (.callback type) →
      Reference.depth p.ctype ≤ 1)
    (callee : String) (leading : Option String) (sink : Sink)
    : ∃ (brackets : List Bracket) (call : Statement) (converted returned : List Statement),
        c.callBody callee leading sink
            = brackets.flatMap (·.before) ++ call :: converted ++ brackets.flatMap (·.after)
                ++ returned
          ∧ call.invocation?
              = some (callee, leading.toList.map .leading ++ brackets.map (·.argument))
          ∧ Concluded c sink converted returned
          ∧ brackets.length = s.params.length
          ∧ (∀ k p, s.params[k]? = some p →
              ∃ q bracket, t.resolve p.ctype = .ok q.use ∧ q = .ofParameter p q.use q.role
                ∧ c.params[k]? = some q ∧ brackets[k]? = some bracket ∧ Bracketed k q bracket)
          ∧ (∀ holder, .keepAlive holder ∈ c.callBody callee leading sink →
              ∃ q ∈ c.visible, q.use.isCallback = true ∧ q.lifetime = .call
                ∧ holder = wrapperLocal q.name)
          ∧ (∀ holder, .free holder ∈ c.callBody callee leading sink →
              ∃ q ∈ c.visible, q.use.crossing.ownsCopy = true ∧ holder = copyLocal q.name)
          ∧ ∀ st ∈ c.callBody callee leading sink, st.Spelled st.text := by
  have hshaped := shaped_of_ofSignature h
  rcases invocation_concluded (c := c) callee leading sink with
    ⟨call, converted, hinvocation, hcall, hconcluded⟩
  refine ⟨c.brackets, call, converted, _, ?_, ?_, hconcluded, ?_, ?_, ?_, ?_, ?_⟩
  . unfold CallShape.callBody
    rw [hinvocation, brackets_before, brackets_after]
  . rw [hcall, brackets_argument]
  . simp [CallShape.brackets, hshaped.length]
  . intro k p hp
    rcases hshaped.param k p hp with ⟨use, huse, hq⟩
    exact ⟨_, _, huse, rfl, hq, c.brackets_getElem? hq, hshaped.bracketed hdepth hq⟩
  . intro holder hmem
    rcases mem_cleanup_of_givenUp? hmem rfl with ⟨q, hq, hcleanup⟩
    exact ⟨q, hq, keepAlive_of_mem_cleanup hcleanup⟩
  . intro holder hmem
    rcases mem_cleanup_of_givenUp? hmem rfl with ⟨q, hq, hcleanup⟩
    exact ⟨q, hq, free_of_mem_cleanup hcleanup⟩
  . intro st _
    exact st.spelled_text

def tick : CallbackType :=
  ⟨⟨"DemoTick", "Tick", "Demo", "libdemo"⟩, ⟨"void", []⟩⟩

def tickLabel : Descriptor :=
  .simple ⟨"gchar", "sbyte", none, "0", true⟩

def tickTable : Table where
  entries := [gint, tickLabel, .callback tick]
  nodup := by decide

/--
A function that takes a callback for the call, another one for ever and a text, and returns a
number.
-/
def tickSignature : Signature :=
  ⟨"gint", [⟨"object", "DemoTick", .call⟩, ⟨"later", "DemoTick*", .forever⟩,
    ⟨"label", "const gchar*", .call⟩]⟩

def tickShape : CallShape :=
  .ofUses tickSignature
    [tickTable.useOf "DemoTick" (.callback tick), tickTable.useOf "DemoTick*" (.callback tick),
     tickTable.useOf "const gchar*" tickLabel]
    (some (tickTable.useOf "gint" gint))

theorem ofSignature_tick : CallShape.ofSignature tickTable tickSignature = .ok tickShape := by
  have hresolve (ref : String) (d : Descriptor) (h : tickTable.get? ref = some d)
      : resolve tickTable ref = .ok (tickTable.useOf ref d) := resolve_ok h
  have hobject := hresolve "DemoTick" (.callback tick) (by decide +kernel)
  have hlater := hresolve "DemoTick*" (.callback tick) (by decide +kernel)
  have hlabel := hresolve "const gchar*" tickLabel (by decide +kernel)
  have hreturns := hresolve "gint" gint (by decide +kernel)
  have hvoid : tickSignature.returnsVoid = false := by decide
  unfold CallShape.ofSignature resolveReturn
  rw [hvoid]
  unfold tickSignature
  simp only [resolveParams, hobject, hlater, hlabel, hreturns]
  rfl

theorem callBody_bracketed_tick
    : CallShape.ofSignature tickTable tickSignature = .ok tickShape
        ∧ (∀ p ∈ tickSignature.params, ∀ type,
            tickTable.get? p.ctype = some (.callback type) → Reference.depth p.ctype ≤ 1)
        ∧ ∃ (brackets : List Bracket) (call : Statement) (converted returned : List Statement),
            tickShape.callBody "demo_tick" (some "Handle") .giveBack
                = brackets.flatMap (·.before) ++ call :: converted ++ brackets.flatMap (·.after)
                    ++ returned
              ∧ ∃ bracket, brackets[2]? = some bracket ∧ bracket.argument = .passed 2 "native_label"
                  ∧ bracket.after = [.free "native_label"] := by
  have hdepth : ∀ p ∈ tickSignature.params, ∀ type,
      tickTable.get? p.ctype = some (.callback type) → Reference.depth p.ctype ≤ 1 := by
    have hwritten : ∀ p ∈ tickSignature.params, Reference.depth p.ctype ≤ 1 := by decide +kernel
    intro p hp _ _
    exact hwritten p hp
  rcases callBody_bracketed ofSignature_tick hdepth "demo_tick" (some "Handle") .giveBack with
    ⟨brackets, call, converted, returned, hbody, _, _, _, hbrackets, _⟩
  refine ⟨ofSignature_tick, hdepth, brackets, call, converted, returned, hbody, ?_⟩
  rcases hbrackets 2 _ rfl with ⟨q, bracket, _, _, hq, hbracket, hbracketed⟩
  refine ⟨bracket, hbracket, ?_⟩
  obtain rfl : _ = q := Option.some.inj hq
  cases hbracketed with
  | copied => exact ⟨by decide +kernel, by decide +kernel⟩
  | kept _ _ _ h => cases h
  | lent _ h => cases h
  | direct _ _ h => cases h
  | counted h => cases h
  | received h => cases h

end Interop.Binding
