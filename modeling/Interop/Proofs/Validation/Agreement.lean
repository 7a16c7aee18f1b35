import Interop.Proofs.Agreement
import Interop.Proofs.Validation.Verdict

/-!
This module contains the verdict on one type over two tables that agree on what it leads to. A
function that returns nothing does not lead to its return type, yet that type is looked at when its
signature is checked. So an array registered as `void` is the one thing besides that counts.
-/

namespace Interop

open Relation Validation

/--
The parameter that holds the number of elements of the type registered as `void`, if that is such an
array.
-/
def Table.voidLength? (t : Table) : Option String :=
  match t.find? "void" with
  | some (.array a) => a.lengthParam?
  | _ => none

/--
Nothing is returned, and no parameter has the given name.
-/
def Signature.Lacks (s : Signature) (length : String) : Prop :=
  s.returnsVoid = true ∧ ∀ p ∈ s.params, p.name ≠ length

/--
The type has a function that returns nothing and is taken to return an array whose number of
elements no parameter holds.
-/
def Table.Burdens (t : Table) : Descriptor → Prop
  | .object o => ∃ length, t.voidLength? = some length ∧ ∃ m ∈ o.functions, m.signature.Lacks length
  | _ => False

namespace Validation

variable {t t' : Table} {s : Signature} {function : String}

theorem core_of_isVoid {ref : String} (h : Reference.isVoid ref = true)
    : Reference.core ref = "void" := by
  unfold Reference.isVoid Text.trim at h
  have h : Text.trimBlanks ref.toList = "void".toList := by
    rw [← String.toList_ofList (l := Text.trimBlanks ref.toList), beq_iff_eq.1 h]
  unfold Reference.core
  rw [h]
  decide +kernel

theorem findSome?_congr {l : List α} {f g : α → Option β} (h : ∀ a ∈ l, f a = g a)
    : l.findSome? f = l.findSome? g := by
  induction l with
  | nil => rfl
  | cons a l ih =>
    rw [List.forall_mem_cons] at h
    rw [List.findSome?_cons, List.findSome?_cons, h.1, ih h.2]

/--
What is wrong with a value of type `ctype` in a signature, where `carrier` is the parameter that it
is passed in, or none if it is returned.
-/
def carrierFault? (t : Table) (function : String) (s : Signature) (carrier : Option String)
    (ctype : String) : Option String :=
  match t.get? ctype with
  | some (.array a) =>
    match a.lengthParam? with
    | some length =>
      if s.params.any fun p => p.name = length && some p.name != carrier then none
      else some s!"`{function}` passes array `{a.cname}` without its length parameter `{length}`"
    | none => none
  | _ => none

theorem signatureFault?_eq
    : signatureFault? t function s
        = (s.params.findSome? fun p => carrierFault? t function s (some p.name) p.ctype).or
          (carrierFault? t function s none s.returns) := by
  unfold signatureFault?
  dsimp only
  rw [List.findSome?_append, List.findSome?_map, List.findSome?_singleton]
  rfl

theorem carrierFault?_agree {carrier : Option String} {ctype : String}
    (h : t.Agree t' (Reference.core ctype))
    : carrierFault? t' function s carrier ctype = carrierFault? t function s carrier ctype := by
  unfold carrierFault?
  rw [h.get?]

theorem carrierFault?_void (hvoid : s.returnsVoid = true)
    : carrierFault? t function s none s.returns
        = t.voidLength?.bind fun length =>
            if s.params.any (·.name = length) then none
            else some ("`" ++ function ++ "` passes array `" ++ "void"
              ++ "` without its length parameter `" ++ length ++ "`") := by
  unfold carrierFault? Table.voidLength? Table.get?
  rw [core_of_isVoid hvoid]
  split
  . next a ha =>
    have hcname : a.cname = "void" := Table.cname_of_find? ha
    rw [hcname]
    cases a.lengthParam? with
    | none => rfl
    | some length =>
      have hcarrier (p : Parameter)
          : (decide (p.name = length) && some p.name != none) = decide (p.name = length) := by
        simp
      simp only [hcarrier]
      rfl
  . rfl

theorem signatureFault?_agree_of_dependencies (h : t.AgreeOn t' s.dependencies)
    : signatureFault? t' function s = signatureFault? t function s := by
  have hcarriers : ∀ p ∈ s.params, carrierFault? t' function s (some p.name) p.ctype
      = carrierFault? t function s (some p.name) p.ctype := by
    intro p hp
    exact carrierFault?_agree (h.signature.1 p.ctype (List.mem_map_of_mem hp))
  rw [signatureFault?_eq, signatureFault?_eq, findSome?_congr hcarriers,
    carrierFault?_agree (h s.returns List.mem_cons_self)]

section Signatures

variable (h : t.AgreeOnSignature t' s)

include h

theorem findSome?_params_agree
    : (s.params.findSome? fun p => carrierFault? t' function s (some p.name) p.ctype)
        = s.params.findSome? fun p => carrierFault? t function s (some p.name) p.ctype := by
  apply findSome?_congr
  intro p hp
  exact carrierFault?_agree (h.1 p.ctype (List.mem_map_of_mem hp))

theorem signatureFault?_agree (hvoid : t'.voidLength? = t.voidLength?)
    : signatureFault? t' function s = signatureFault? t function s := by
  rw [signatureFault?_eq, signatureFault?_eq, findSome?_params_agree h]
  cases hreturns : s.returnsVoid with
  | true => rw [carrierFault?_void hreturns, carrierFault?_void hreturns, hvoid]
  | false => rw [carrierFault?_agree (h.2 hreturns)]

theorem signatureFault?_eq_none_iff (hsound : signatureFault? t function s = none)
    : signatureFault? t' function s = none
        ↔
      ∀ length, t'.voidLength? = some length → ¬ s.Lacks length := by
  unfold Signature.Lacks
  rw [signatureFault?_eq, Option.or_eq_none_iff] at hsound ⊢
  rw [findSome?_params_agree h]
  cases hreturns : s.returnsVoid with
  | true =>
    rw [carrierFault?_void hreturns]
    cases t'.voidLength? with
    | none => simp [hsound.1]
    | some length => simp [hsound.1]
  | false =>
    rw [carrierFault?_agree (h.2 hreturns)]
    simp [hsound]

end Signatures

theorem fieldsFault?_agree {s : StructType} (h : t.AgreeOn t' (s.fields.map (·.ctype)))
    : fieldsFault? t' s = fieldsFault? t s := by
  unfold fieldsFault?
  apply findSome?_congr
  intro f hf
  rw [(h f.ctype (List.mem_map_of_mem hf)).get?]

theorem parentFault?_agree {o : ObjectType} (h : t.AgreeOn t' o.parent?.toList)
    : parentFault? t' o = parentFault? t o := by
  unfold parentFault?
  cases hp : o.parent? with
  | none => rfl
  | some parent =>
    have hparent : t.Agree t' (Reference.core parent) := h parent (by simp [hp])
    dsimp only
    rw [hparent.get?]

/--
What is wrong with a type apart from the names that it refers to is the same over both tables, if
both count the elements of `void` alike.
-/
theorem structureFault?_agree {d : Descriptor} (h : t.AgreeOn t' d.dependencies)
    (hvoid : t'.voidLength? = t.voidLength?) : structureFault? t' d = structureFault? t d := by
  cases d with
  | struct s => exact fieldsFault?_agree h
  | callback c => exact signatureFault?_agree_of_dependencies h
  | object o =>
    rcases h.object with ⟨hparent, hfunctions, hvirtuals⟩
    unfold structureFault?
    dsimp only
    rw [parentFault?_agree hparent,
      findSome?_congr fun m hm => signatureFault?_agree (hfunctions m hm) hvoid,
      findSome?_congr fun v hv => signatureFault?_agree_of_dependencies (hvirtuals v hv)]
  | simple _ | long _ | enum _ | array _ => rfl

/--
A type that is well-formed over one table is so over the other, unless that one burdens it.
-/
theorem structureFault?_eq_none_iff {d : Descriptor} (h : t.AgreeOn t' d.dependencies)
    (hsound : structureFault? t d = none) : structureFault? t' d = none ↔ ¬ t'.Burdens d := by
  cases d with
  | struct s =>
    have hsame : structureFault? t' (.struct s) = none := (fieldsFault?_agree h).trans hsound
    simp [hsame, Table.Burdens]
  | callback c =>
    have hsame : structureFault? t' (.callback c) = none :=
      (signatureFault?_agree_of_dependencies h).trans hsound
    simp [hsame, Table.Burdens]
  | object o =>
    rcases h.object with ⟨hparent, hfunctions, hvirtuals⟩
    unfold structureFault? at hsound ⊢
    rw [Option.or_eq_none_iff, Option.or_eq_none_iff] at hsound ⊢
    rw [parentFault?_agree hparent,
      findSome?_congr fun v hv => signatureFault?_agree_of_dependencies (hvirtuals v hv)]
    rw [List.findSome?_eq_none_iff] at hsound ⊢
    rcases hsound with ⟨hparent, hfunctions', hvirtuals⟩
    simp only [hparent, hvirtuals, true_and, and_true]
    constructor
    . rintro hnone ⟨length, hvoid, m, hm, hlacks⟩
      exact (signatureFault?_eq_none_iff (hfunctions m hm) (hfunctions' m hm)).1 (hnone m hm) length
        hvoid hlacks
    . intro hburdens m hm
      apply (signatureFault?_eq_none_iff (hfunctions m hm) (hfunctions' m hm)).2
      intro length hvoid hlacks
      exact hburdens ⟨length, hvoid, m, hm, hlacks⟩
  | simple _ | long _ | enum _ | array _ => simp [structureFault?, Table.Burdens]

section Walks

variable {path : List String} {k : Knowledge} {ref : String}

theorem checkName_of_lookup {f : Failure} (hfailed : k.failed.lookup (Reference.core ref) = some f)
    : checkName t path k ref = (some f, k) := by
  rw [checkName]
  simp only [hfailed]

theorem checkName_of_known (hfailed : k.failed.lookup (Reference.core ref) = none)
    (hknown : Reference.core ref ∈ k.valid ∨ Reference.core ref ∈ k.explored)
    : checkName t path k ref = (none, k) := by
  rw [checkName]
  simp only [hfailed, if_pos hknown]

theorem checkName_of_none (hfailed : k.failed.lookup (Reference.core ref) = none)
    (hnew : ¬ (Reference.core ref ∈ k.valid ∨ Reference.core ref ∈ k.explored))
    (hpath : Reference.core ref ∉ path) (hfind : t.find? (Reference.core ref) = none)
    : checkName t path k ref = (some ⟨Reference.core ref, [], none⟩, k) := by
  rw [checkName]
  simp only [hfailed, if_neg hnew, dif_neg hpath]
  split
  . rfl
  . next d hd => simp [hfind] at hd

end Walks

-- The induction is that of the walk, and every step leads to names on which the tables agree.
mutual

theorem checkName_agree (hvoid : t'.voidLength? = t.voidLength?) (path : List String)
    (k : Knowledge) (ref : String) (h : t.Agree t' (Reference.core ref))
    : checkName t' path k ref = checkName t path k ref := by
  cases hfailed : k.failed.lookup (Reference.core ref) with
  | some f => rw [checkName_of_lookup hfailed, checkName_of_lookup hfailed]
  | none =>
    by_cases hknown : Reference.core ref ∈ k.valid ∨ Reference.core ref ∈ k.explored
    . rw [checkName_of_known hfailed hknown, checkName_of_known hfailed hknown]
    . by_cases hpath : Reference.core ref ∈ path
      . rw [checkName_of_mem hfailed hknown hpath, checkName_of_mem hfailed hknown hpath]
      . have hfind' := h.find?
        cases hfind : t.find? (Reference.core ref) with
        | none =>
          rw [hfind] at hfind'
          rw [checkName_of_none hfailed hknown hpath hfind,
            checkName_of_none hfailed hknown hpath hfind']
        | some d =>
          have hlt : t.unseen (Reference.core ref :: path) < t.unseen path := by
            have hname : d.cname = Reference.core ref := Table.cname_of_find? hfind
            rw [← hname]
            exact Table.unseen_cons_lt (Table.mem_of_find? hfind) (hname ▸ hpath)
          rw [hfind] at hfind'
          rw [checkName_of_find? hfailed hknown hpath hfind,
            checkName_of_find? hfailed hknown hpath hfind',
            checkType_agree hvoid _ k d (h.dependencies hfind)]
termination_by (t.unseen path, 0)
decreasing_by
  exact .left _ _ hlt

theorem checkType_agree (hvoid : t'.voidLength? = t.voidLength?) (path : List String)
    (k : Knowledge) (d : Descriptor) (h : t.AgreeOn t' d.dependencies)
    : checkType t' path k d = checkType t path k d := by
  rw [checkType, checkType, checkAll_agree hvoid path k d.dependencies h,
    structureFault?_agree h hvoid]
termination_by (t.unseen path, d.dependencies.length + 2)

theorem checkAll_agree (hvoid : t'.voidLength? = t.voidLength?) (path : List String)
    (k : Knowledge) (refs : List String) (h : t.AgreeOn t' refs)
    : checkAll t' path k refs = checkAll t path k refs := by
  cases refs with
  | nil => rw [checkAll, checkAll]
  | cons ref refs =>
    unfold Table.AgreeOn at h
    rw [List.forall_mem_cons] at h
    rw [checkAll, checkAll, checkName_agree hvoid path k ref h.1]
    generalize checkName t path k ref = result
    rcases result with ⟨_ | f, k'⟩
    . exact checkAll_agree hvoid path k' refs h.2
    . rfl
termination_by (t.unseen path, refs.length + 1)

end

section Verdicts

variable {d : Descriptor} (h : t.Agree t' d.cname)

include h

theorem walk_agree (hd : t.find? d.cname = some d) (hvoid : t'.voidLength? = t.voidLength?)
    (k : Knowledge) : walk t' k d = walk t k d := by
  have hd' : t'.find? d.cname = some d := h.find?.trans hd
  unfold walk Table.get?
  by_cases hcore : Reference.core d.cname = d.cname
  . rw [hcore, if_pos hd, if_pos hd', checkName_agree hvoid]
    rwa [hcore]
  . have hother {t : Table} : t.find? (Reference.core d.cname) ≠ some d := by
      intro hfind
      exact hcore (Table.cname_of_find? hfind).symm
    rw [if_neg hother, if_neg hother, checkType_agree hvoid _ _ _ (h.dependencies hd)]

/--
A type that is valid over one table is valid over the other, unless that one burdens a type that it
leads to.
-/
theorem valid_iff_of_agree (hvalid : t.Valid d.cname)
    : t'.Valid d.cname
        ↔
      ∀ n e, ReflTransGen t.Refers d.cname n → t.find? n = some e → ¬ t'.Burdens e := by
  have hsound_iff {n : String} {e : Descriptor} (hn : ReflTransGen t.Refers d.cname n)
      (he : t.find? n = some e) : t'.Sound n ↔ ¬ t'.Burdens e := by
    have hagree := h.reached hn
    rcases hvalid n hn with ⟨e', he', hsound⟩
    obtain rfl : e' = e := Option.some.inj (he'.symm.trans he)
    rw [← structureFault?_eq_none_iff (hagree.dependencies he) hsound]
    unfold Table.Sound
    rw [hagree.find?, he]
    simp
  constructor
  . intro hvalid' n e hn he
    exact (hsound_iff hn he).1 (hvalid' n (h.reach_iff.2 hn))
  . intro hunburdened n hn
    have hn := h.reach_iff.1 hn
    rcases hvalid n hn with ⟨e, he, _⟩
    exact (hsound_iff hn he).2 (hunburdened n e hn he)

end Verdicts

end Validation

end Interop
