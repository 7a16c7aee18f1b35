import Interop.Proofs.Binding.BodyScope
import Interop.Proofs.Crossing.Coherence
import Mathlib.Data.List.Perm.Basic

/-!
This module contains the names around a call of native code. Every parameter brings its own name and
that of a local which holds it; beside these there are the locals for the result, and what the body
takes from the class.
-/

namespace Interop

theorem Text.bareName_eq_self {x : String} (h : x.toList.head? ≠ some '@') : bareName x = x := by
  have hbare : x.toList.dropWhile (· == '@') = x.toList := by
    generalize x.toList = cs at h
    cases cs with
    | nil => rfl
    | cons c cs => exact List.dropWhile_cons_of_neg (by simpa using h)
  rw [bareName, hbare, String.ofList_toList]

namespace Binding

def Argument.outer? : Argument → Option String
  | leading text => some text
  | passed _ _ | counted _ _ _ | received _ _ => none

/--
The names that a statement takes from the class around the member.
-/
def Statement.outer : Statement → List String
  | call _ args | receive _ _ args => args.filterMap (·.outer?)
  | store target _ args => target :: args.filterMap (·.outer?)
  | _ => []

namespace CallParam

/--
The local that holds what is passed for the parameter.
-/
def holder? (p : CallParam) : Option String :=
  match p.role, p.use.type with
  | .value, .callback _ => some (wrapperLocal p.name)
  | .value, _ => if p.use.crossing.ownsCopy then some (copyLocal p.name) else none
  | .lengthOf _, _ | .returnLength, _ => none

/--
The name of the parameter itself. A number of elements that is passed has no variable.
-/
def own? (p : CallParam) : Option String :=
  match p.role with
  | .value | .returnLength => some p.name
  | .lengthOf _ => none

/--
The names that a member has because of the parameter.
-/
def names (p : CallParam) : List String :=
  p.holder?.toList ++ p.own?.toList

end CallParam

namespace CallShape

/--
What the body of a call takes from the class, where `leading` is passed before the parameters.
-/
def outer (c : CallShape) (leading : Option String) (sink : Sink) : List String :=
  (match c.returns?, sink with
    | some _, .assign target => [target]
    | _, _ => [])
    ++ leading.toList

def resultLocals (c : CallShape) (sink : Sink) : List String :=
  if c.returns?.isSome && sink == .giveBack then ["raw_ret", "ret"] else []

end CallShape

variable {t : Table} {s : Signature} {c : CallShape} {p : CallParam} {x y : String}

theorem toList_wrapperLocal : (wrapperLocal x).toList
    = (Text.bareName x).toList ++ "_wrapper".toList :=
  String.toList_append

theorem toList_copyLocal : (copyLocal x).toList = "native_".toList ++ (Text.bareName x).toList :=
  String.toList_append

theorem wrapperLocal_ne : wrapperLocal x ≠ x :=
  Text.bareName_append_ne (c := '_') rfl (by decide)

theorem copyLocal_ne : copyLocal x ≠ x := by
  intro h
  have hlist := congrArg String.toList h
  rw [toList_copyLocal] at hlist
  cases hx : x.toList with
  | nil => simp [hx] at hlist
  | cons a as =>
    obtain rfl : 'n' = a := by simpa [hx] using congrArg List.head? hlist
    have hlength := congrArg List.length hlist
    simp [Text.bareName, hx] at hlength
    omega

theorem wrapperLocal_inj (hx : x.toList.head? ≠ some '@') (hy : y.toList.head? ≠ some '@')
    (h : wrapperLocal x = wrapperLocal y) : x = y := by
  have hlist := congrArg String.toList h
  rw [toList_wrapperLocal, toList_wrapperLocal, Text.bareName_eq_self hx,
    Text.bareName_eq_self hy] at hlist
  exact String.toList_inj.1 (List.append_cancel_right hlist)

theorem copyLocal_inj (hx : x.toList.head? ≠ some '@') (hy : y.toList.head? ≠ some '@')
    (h : copyLocal x = copyLocal y) : x = y := by
  have hlist := congrArg String.toList h
  rw [toList_copyLocal, toList_copyLocal, Text.bareName_eq_self hx, Text.bareName_eq_self hy]
    at hlist
  exact String.toList_inj.1 (List.append_cancel_left hlist)

theorem holder?_cases (h : x ∈ p.holder?)
    : p.own? = some p.name ∧ (x = wrapperLocal p.name ∨ x = copyLocal p.name) := by
  unfold CallParam.holder? at h
  unfold CallParam.own?
  split at h
  . next hrole _ =>
    rw [hrole]
    exact ⟨rfl, .inl (Option.some.inj h).symm⟩
  . next hrole _ =>
    rw [hrole]
    split at h
    . exact ⟨rfl, .inr (Option.some.inj h).symm⟩
    . cases h
  . cases h
  . cases h

theorem own?_eq (h : x ∈ p.own?) : p.name = x := by
  unfold CallParam.own? at h
  split at h
  . exact Option.some.inj h
  . exact Option.some.inj h
  . cases h

theorem holder?_ne_own? (h : x ∈ p.holder?) : x ∉ p.own? := by
  rcases holder?_cases h with ⟨hown, rfl | rfl⟩
  . rw [hown]
    exact fun hmem => wrapperLocal_ne (Option.some.inj hmem).symm
  . rw [hown]
    exact fun hmem => copyLocal_ne (Option.some.inj hmem).symm

theorem ne_of_wrapperLocal (h : ¬ "_wrapper".toList <:+ y.toList) : wrapperLocal x ≠ y := by
  rintro rfl
  rw [toList_wrapperLocal] at h
  exact h (List.suffix_append _ _)

theorem ne_of_copyLocal (h : ¬ "native_".toList <+: y.toList) : copyLocal x ≠ y := by
  rintro rfl
  rw [toList_copyLocal] at h
  exact h (List.prefix_append _ _)

theorem resultLocals_subset (c : CallShape) (sink : Sink)
    : c.resultLocals sink ⊆ ["raw_ret", "ret"] := by
  unfold CallShape.resultLocals
  split <;> simp

theorem holder?_notMem_resultLocals (h : x ∈ p.holder?) (sink : Sink)
    : x ∉ c.resultLocals sink := by
  intro hmem
  have hname : x = "raw_ret" ∨ x = "ret" := by simpa using resultLocals_subset c sink hmem
  rcases holder?_cases h with ⟨_, rfl | rfl⟩
  . rcases hname with hname | hname
    . exact ne_of_wrapperLocal (by decide) hname
    . exact ne_of_wrapperLocal (by decide) hname
  . rcases hname with hname | hname
    . exact ne_of_copyLocal (by decide) hname
    . exact ne_of_copyLocal (by decide) hname

theorem mem_names : x ∈ p.names ↔ x ∈ p.holder? ∨ x ∈ p.own? := by
  simp [CallParam.names]

theorem names_nodup (p : CallParam) : p.names.Nodup := by
  have htoList (o : Option String) : o.toList.Nodup := by cases o <;> simp
  refine List.nodup_append.2 ⟨htoList _, htoList _, ?_⟩
  rintro x hholder y hown rfl
  exact holder?_ne_own? (Option.mem_toList.1 hholder) (Option.mem_toList.1 hown)

/--
Each parameter adds its share to the locals and to what managed code sees.
-/
theorem names_eq (p : CallParam)
    : p.preparation.filterMap (·.declared?) ++ (if p.role = .value then [p.name] else [])
        = p.names := by
  unfold CallParam.names CallParam.preparation CallParam.holder? CallParam.own?
  cases p.role with
  | value =>
    cases p.use.type with
    | callback type =>
      dsimp only
      split <;> rfl
    | _ =>
      dsimp only
      split <;> rfl
  | lengthOf array => rfl
  | returnLength => rfl

theorem quiet_of_mem_cleanup {st : Statement} (h : st ∈ p.cleanup)
    : st.declared? = none ∧ st.outer = [] := by
  unfold CallParam.cleanup at h
  split at h
  . split at h
    . rw [List.mem_singleton.1 h]
      exact ⟨rfl, rfl⟩
    . cases h
  . split at h
    . rw [List.mem_singleton.1 h]
      exact ⟨rfl, rfl⟩
    . cases h

namespace CallShape

variable {callee : String} {leading : Option String} {sink : Sink}

theorem locals_callBody
    : (c.callBody callee leading sink).filterMap (·.declared?)
        = c.params.flatMap (fun p => p.preparation.filterMap (·.declared?))
          ++ c.resultLocals sink := by
  have hinvocation : (c.invocation callee leading sink).filterMap (·.declared?)
      = c.resultLocals sink := by
    unfold invocation resultLocals
    cases c.returns? with
    | none => rfl
    | some use => cases sink <;> rfl
  have hcleanup : (c.visible.flatMap (·.cleanup)).filterMap (·.declared?) = [] := by
    rw [List.filterMap_flatMap, List.flatMap_eq_nil_iff]
    exact fun p _ => List.filterMap_eq_nil_iff.2 fun st hst => (quiet_of_mem_cleanup hst).1
  have hreturn : (if c.returns?.isSome && sink == .giveBack then [Statement.giveBack "ret"]
      else []).filterMap (·.declared?) = [] := by
    split <;> rfl
  unfold callBody
  rw [List.filterMap_append, List.filterMap_append, List.filterMap_append, hinvocation, hcleanup,
    hreturn, List.append_nil, List.append_nil, List.filterMap_flatMap]

theorem outer?_arguments : (c.arguments leading).filterMap (·.outer?) = leading.toList := by
  have hleading : (leading.toList.map Argument.leading).filterMap (·.outer?) = leading.toList := by
    cases leading <;> rfl
  unfold arguments
  rw [List.filterMap_append, hleading, List.append_right_eq_self, List.filterMap_eq_nil_iff]
  intro argument hargument
  rcases List.mem_map.1 hargument with ⟨⟨p, k⟩, _, rfl⟩
  dsimp only
  unfold CallShape.argument
  cases p.role <;> rfl

theorem outer_callBody
    : (c.callBody callee leading sink).flatMap (·.outer) = c.outer leading sink := by
  have hpreparation : (c.params.flatMap (·.preparation)).flatMap (·.outer) = [] := by
    rw [List.flatMap_assoc, List.flatMap_eq_nil_iff]
    intro p _
    unfold CallParam.preparation
    split
    . split <;> rfl
    . split <;> rfl
    . rfl
    . rfl
  have hinvocation : (c.invocation callee leading sink).flatMap (·.outer)
      = c.outer leading sink := by
    unfold invocation outer
    cases c.returns? with
    | none => simp [Statement.outer, outer?_arguments]
    | some use => cases sink <;> simp [Statement.outer, outer?_arguments]
  have hcleanup : (c.visible.flatMap (·.cleanup)).flatMap (·.outer) = [] := by
    rw [List.flatMap_assoc, List.flatMap_eq_nil_iff]
    exact fun p _ => List.flatMap_eq_nil_iff.2 fun st hst => (quiet_of_mem_cleanup hst).2
  have hreturn : (if c.returns?.isSome && sink == .giveBack then [Statement.giveBack "ret"]
      else []).flatMap (·.outer) = [] := by
    split <;> rfl
  unfold callBody
  rw [List.flatMap_append, List.flatMap_append, List.flatMap_append, hpreparation, hinvocation,
    hcleanup, hreturn, List.nil_append, List.append_nil, List.append_nil]

theorem managedNames_eq
    : c.managedNames = c.params.flatMap fun p => if p.role = .value then [p.name] else [] := by
  unfold managedNames visible
  induction c.params with
  | nil => rfl
  | cons p ps ih =>
    rw [List.flatMap_cons, ← ih, List.filter_cons]
    split <;> simp_all

/--
The names of the locals and of what managed code sees, collected by parameter.
-/
theorem names_perm (c : CallShape) (callee : String) (leading : Option String) (sink : Sink)
    : ((c.callBody callee leading sink).filterMap (·.declared?) ++ c.managedNames).Perm
        (c.params.flatMap (·.names) ++ c.resultLocals sink) := by
  have hshares := List.flatMap_append_perm c.params
    (fun p => p.preparation.filterMap (·.declared?))
    (fun p => if p.role = .value then [p.name] else [])
  simp only [names_eq] at hshares
  rw [locals_callBody, managedNames_eq, List.append_assoc]
  refine .trans (.append_left _ List.perm_append_comm) ?_
  rw [← List.append_assoc]
  exact hshares.append_right _

end CallShape

theorem Shaped.nativeNames_eq (h : Shaped t s c)
    (hreserved : ∀ p ∈ s.params, p.name ∉ Text.reservedWords)
    : c.nativeNames = s.params.map (·.name) := by
  have hplace (k : Nat) : (c.params[k]?).map (·.name) = (s.params[k]?).map (·.name) := by
    cases hp : s.params[k]? with
    | none =>
      have hlength := h.length
      rw [List.getElem?_eq_none_iff] at hp
      rw [List.getElem?_eq_none_iff.2 (by omega)]
      rfl
    | some p =>
      rcases h.param k p hp with ⟨use, _, hq⟩
      have hname := hreserved p (List.mem_of_getElem? hp)
      rw [hq]
      unfold CallParam.ofParameter Text.escapeReserved
      simp [hname]
  apply List.ext_getElem?
  intro k
  unfold CallShape.nativeNames
  rw [List.getElem?_map, List.getElem?_map]
  exact hplace k

end Binding

end Interop
