import Interop.Binding.Callback
import Interop.Proofs.Binding.Grammar
import Interop.Proofs.Binding.Pairing

/-!
This module contains which parameters managed code sees: those that no other array of the signature
and no returned array names for its length. The managed parameters, the call of a managed target,
the import and both ways out of a function that native code calls go by this one division.
-/

namespace Interop

/--
The elements of a list at the places that `keep` holds of, in their order.
-/
inductive KeptAt {α : Type} : (Nat → Prop) → List α → List α → Prop where
  | nil {keep : Nat → Prop} : KeptAt keep [] []
  | take {keep : Nat → Prop} {a : α} {l kept : List α} (h : keep 0)
      (rest : KeptAt (fun k => keep (k + 1)) l kept) : KeptAt keep (a :: l) (a :: kept)
  | skip {keep : Nat → Prop} {a : α} {l kept : List α} (h : ¬ keep 0)
      (rest : KeptAt (fun k => keep (k + 1)) l kept) : KeptAt keep (a :: l) kept

theorem KeptAt.filter {α : Type} {keep : Nat → Prop} {l : List α} {p : α → Bool}
    (h : ∀ k a, l[k]? = some a → (p a = true ↔ keep k)) : KeptAt keep l (l.filter p) := by
  induction l generalizing keep with
  | nil => exact .nil
  | cons a l ih =>
    have hrest : KeptAt (fun k => keep (k + 1)) l (l.filter p) := by
      apply ih
      intro k b hb
      exact h (k + 1) b hb
    have hfirst := h 0 a rfl
    by_cases ha : p a = true
    . rw [List.filter_cons_of_pos ha]
      exact .take (hfirst.1 ha) hrest
    . rw [List.filter_cons_of_neg ha]
      exact .skip (fun hkeep => ha (hfirst.2 hkeep)) hrest

theorem KeptAt.eq_nil {α : Type} {keep : Nat → Prop} {l kept : List α} (h : KeptAt keep l kept)
    (hnone : ∀ k, ¬ keep k) : kept = [] := by
  induction h with
  | nil => rfl
  | take hfirst _ _ => exact absurd hfirst (hnone 0)
  | skip _ _ ih => exact ih fun k => hnone (k + 1)

theorem KeptAt.eq_toList {α : Type} {keep : Nat → Prop} {l kept : List α} {k : Nat}
    (h : KeptAt keep l kept) (hone : ∀ j, keep j ↔ j = k) : kept = l[k]?.toList := by
  induction h generalizing k with
  | nil => rfl
  | take hfirst hrest _ =>
    obtain rfl : 0 = k := (hone 0).1 hfirst
    rw [hrest.eq_nil fun j hj => absurd ((hone (j + 1)).1 hj) (by omega)]
    rfl
  | skip hfirst _ ih =>
    cases k with
    | zero => exact absurd ((hone 0).2 rfl) hfirst
    | succ k => exact ih fun j => (hone (j + 1)).trans (by omega)

/--
The type that `ref` refers to is an array whose number of elements a neighbour called `name` holds.
-/
def Table.CountedBy (t : Table) (ref name : String) : Prop :=
  ∃ a, t.get? ref = some (.array a) ∧ a.lengthParam? = some name

namespace Signature

/--
The parameter at place `k` holds the number of elements of the returned array.
-/
def HoldsReturnedLength (s : Signature) (t : Table) (k : Nat) : Prop :=
  ∃ p, s.params[k]? = some p ∧ s.returnsVoid = false ∧ t.CountedBy s.returns p.name

/--
The parameter at place `k` holds the number of elements of an array, which is the returned one or
another parameter.
-/
def HoldsLength (s : Signature) (t : Table) (k : Nat) : Prop :=
  (∃ p i a, s.params[k]? = some p ∧ i ≠ k ∧ s.params[i]? = some a ∧ t.CountedBy a.ctype p.name)
    ∨ s.HoldsReturnedLength t k

end Signature

namespace Binding

/--
The managed function that a statement calls, and with what.
-/
def Statement.forwarded? : Statement → Option (String × List String)
  | forward target args | answer _ target args => some (target, args)
  | _ => none

def Statement.returns : Statement → Bool
  | giveBack _ => true
  | _ => false

/--
A function that native code calls sets the parameter `q` before it returns, whether the managed
target comes back or ends in an exception.
-/
structure SetOnEveryPath (c : CallShape) (q : CallParam) : Prop where
  answered : ∃ type kept value, c.reverseBody "managed"
    = [.answer type "managed" c.reverseArguments, .setLength q.name (nativeCount q "__ret")]
        ++ kept ++ [.giveBack value]
      ∧ ∀ st ∈ kept, st.returns = false
  recovered : CallbackSource.recovery c
    = ["Gapi.Runtime.ExceptionManager.RaiseUnhandledException (e, true);",
       q.name ++ " = default (" ++ q.use.crossing.boundary ++ ");",
       "return default (" ++ c.returns?.elim "void" (·.crossing.boundary) ++ ");"]

variable {t : Table} {s : Signature} {c : CallShape} {k : Nat} {q : CallParam}

theorem countedBy_iff {ref name : String} {use : Use} (huse : t.resolve ref = .ok use)
    : t.CountedBy ref name ↔ use.lengthParam? = some name := by
  rcases Table.resolve_eq_ok.1 huse with ⟨d, hget, rfl⟩
  rw [lengthParam?_eq_some]
  constructor
  . rintro ⟨a, ha, hlength⟩
    exact ⟨a, Option.some.inj (hget.symm.trans ha), hlength⟩
  . rintro ⟨a, ha, hlength⟩
    obtain rfl : d = .array a := ha
    exact ⟨a, hget, hlength⟩

namespace Shaped

variable (h : Shaped t s c) (hnames : (s.params.map (·.name)).Nodup)

include h hnames

theorem returnLength?_iff_holds : c.returnLength? = some k ↔ s.HoldsReturnedLength t k := by
  constructor
  . intro hreturn
    rw [h.returnLength] at hreturn
    rcases Option.bind_eq_some_iff.1 hreturn with ⟨r, hr, hplace⟩
    rcases Signature.lengthPlace?_eq_some hplace with ⟨p, hp, hlength⟩
    rcases (h.returns r).1 hr with ⟨hvoid, huse⟩
    exact ⟨p, hp, hvoid, (countedBy_iff huse).2 hlength⟩
  . rintro ⟨p, hp, hvoid, hcounted⟩
    have ⟨a, ha, _⟩ := hcounted
    have huse := Table.resolve_eq_ok.2 ⟨_, ha, rfl⟩
    have hr := (h.returns _).2 ⟨hvoid, huse⟩
    exact (returnLength?_iff h hnames hp).2 ⟨_, hr, (countedBy_iff huse).1 hcounted⟩

theorem exists_counts_iff {p : Parameter} (hp : s.params[k]? = some p)
    : (∃ i, c.Counts s i k)
        ↔
      ∃ i a, i ≠ k ∧ s.params[i]? = some a ∧ t.CountedBy a.ctype p.name := by
  constructor
  . rintro ⟨i, a, ha, hplace, hne⟩
    rcases h.source ha with ⟨array, harray, huse, _⟩
    have hlength := (lengthPlace?_eq_some_iff hnames hp).1 hplace
    exact ⟨i, array, hne, harray, (countedBy_iff huse).2 hlength⟩
  . rintro ⟨i, array, hne, harray, hcounted⟩
    rcases h.param i array harray with ⟨use, huse, ha⟩
    have hlength := (countedBy_iff huse).1 hcounted
    exact ⟨i, _, ha, (lengthPlace?_eq_some_iff hnames hp).2 hlength, hne⟩

theorem role_eq_value_iff (hq : c.params[k]? = some q)
    : q.role = .value ↔ ¬ s.HoldsLength t k := by
  rcases h.source hq with ⟨p, hp, _⟩
  rw [h.role_eq_value hq, ← not_exists, exists_counts_iff h hnames hp, Ne,
    returnLength?_iff_holds h hnames, ← not_or]
  unfold Signature.HoldsLength
  simp only [hp, Option.some.injEq, exists_and_left, exists_eq_left']
  rw [or_comm]

end Shaped

/--
The parameters of a signature with their places, as the shape of a call has them.
-/
theorem params_eq (h : CallShape.ofSignature t s = .ok c)
    : ∃ (uses : List Use) (role : Nat → Role),
        List.Forall₂ (fun p use => t.resolve p.ctype = .ok use) s.params uses
          ∧ c.params = (s.params.zip uses).zipIdx.map fun ((p, use), k) =>
              .ofParameter p use (role k) := by
  unfold CallShape.ofSignature at h
  rcases Fault.bind_eq_ok.1 h with ⟨uses, huses, h⟩
  rcases Fault.bind_eq_ok.1 h with ⟨returns?, _, h⟩
  rcases resolveParams_eq_ok huses with ⟨hlength, hplaces⟩
  obtain rfl : CallShape.ofUses s uses returns? = c := Except.ok.inj h
  refine ⟨uses, _, List.forall₂_iff_get.2 ⟨hlength.symm, ?_⟩, rfl⟩
  intro k hk huse
  rcases hplaces k _ (List.getElem?_eq_getElem hk) with ⟨use, hget, hresolve⟩
  obtain rfl : uses[k] = use := by simpa [huse] using hget
  exact hresolve

theorem zipIdx_map_zipIdx {α β : Type} (f : α × Nat → β) (l : List α)
    : (l.zipIdx.map f).zipIdx = l.zipIdx.map fun x => (f x, x.2) := by
  apply List.ext_getElem?
  intro k
  simp only [List.getElem?_zipIdx, List.getElem?_map]
  cases l[k]? <;> simp

/--
What managed code sees and what a managed target is called with are made from the same parameters.
-/
theorem exists_visible (hshape : CallShape.ofSignature t s = .ok c)
    (hnames : (s.params.map (·.name)).Nodup)
    : ∃ uses shown, List.Forall₂ (fun p use => t.resolve p.ctype = .ok use) s.params uses
        ∧ KeptAt (fun k => ¬ s.HoldsLength t k) (s.params.zip uses).zipIdx shown
        ∧ c.visible.map (fun q => (q.use, q.name))
            = shown.map (fun ((p, use), _) => (use, Text.escapeReserved p.name))
        ∧ c.reverseArguments = shown.map fun ((p, use), k) =>
            managedValue use (Text.escapeReserved p.name) (c.lengthOf? k) := by
  have h := shaped_of_ofSignature hshape
  rcases params_eq hshape with ⟨uses, role, huses, hparams⟩
  refine ⟨uses, (s.params.zip uses).zipIdx.filter fun x => role x.2 = .value, huses, ?_, ?_, ?_⟩
  . apply KeptAt.filter
    intro k x hx
    have hq : c.params[k]? = some (.ofParameter x.1.1 x.1.2 (role x.2)) := by
      rw [hparams, List.getElem?_map, hx]
      rfl
    rw [List.getElem?_zipIdx, Option.map_eq_some_iff] at hx
    rcases hx with ⟨_, _, rfl⟩
    rw [decide_eq_true_iff, Nat.zero_add]
    rw [Nat.zero_add] at hq
    exact h.role_eq_value_iff hnames hq
  . unfold CallShape.visible
    rw [hparams, List.filter_map, List.map_map]
    rfl
  . unfold CallShape.reverseArguments
    rw [hparams, zipIdx_map_zipIdx, List.filter_map, List.map_map]
    rfl

/--
After the managed target was called, the number of returned elements is set first, and nothing is
returned before the end.
-/
theorem reverseBody_of_returns {r : Use} (hr : c.returns? = some r) (target : String)
    : ∃ kept, c.reverseBody target
        = .answer r.crossing.managed target c.reverseArguments
            :: (c.returnLength.toList.map (fun q => .setLength q.name (nativeCount q "__ret"))
              ++ kept ++ [.giveBack (r.crossing.toNative "__ret")])
      ∧ ∀ st ∈ kept, st.returns = false ∧ st.forwarded? = none := by
  unfold CallShape.reverseBody
  rw [hr]
  refine ⟨_, rfl, ?_⟩
  intro st hst
  split at hst
  . rcases List.mem_pair.1 hst with rfl | rfl
    . exact ⟨rfl, rfl⟩
    . exact ⟨rfl, rfl⟩
  . cases hst

theorem reverseBody_forwards (c : CallShape) (target : String)
    : ∃ call rest, c.reverseBody target = call :: rest
        ∧ call.forwarded? = some (target, c.reverseArguments)
        ∧ ∀ st ∈ rest, st.forwarded? = none := by
  cases hr : c.returns? with
  | none =>
    unfold CallShape.reverseBody
    rw [hr]
    exact ⟨_, [], rfl, rfl, by simp⟩
  | some r =>
    rcases reverseBody_of_returns hr target with ⟨kept, hbody, hkept⟩
    refine ⟨_, _, hbody, rfl, ?_⟩
    intro st hst
    simp only [List.mem_append, List.mem_map, List.mem_singleton] at hst
    rcases hst with (⟨q, _, rfl⟩ | hst) | rfl
    . rfl
    . exact (hkept st hst).2
    . rfl

-- Only one place can hold the number of elements of the returned array.
theorem Shaped.outParams_eq (h : Shaped t s c) : c.outParams = c.returnLength.toList := by
  have hkept : KeptAt (fun k => c.returnLength? = some k) c.params c.outParams := by
    apply KeptAt.filter
    intro k q hq
    rw [decide_eq_true_iff, h.role_eq_returnLength hq]
  unfold CallShape.returnLength
  cases hreturn : c.returnLength? with
  | none =>
    rw [hreturn] at hkept
    exact hkept.eq_nil (by simp)
  | some k =>
    rw [hreturn] at hkept
    exact hkept.eq_toList (by simp [eq_comm])

theorem Shaped.exists_returnLength_iff (h : Shaped t s c) (hnames : (s.params.map (·.name)).Nodup)
    : (∃ q, c.returnLength = some q) ↔ ∃ k, s.HoldsReturnedLength t k := by
  unfold CallShape.returnLength
  simp only [Option.bind_eq_some_iff, h.returnLength?_iff_holds hnames]
  constructor
  . rintro ⟨_, k, hk, _⟩
    exact ⟨k, hk⟩
  . rintro ⟨k, hk⟩
    have ⟨p, hp, _⟩ := hk
    rcases h.param k p hp with ⟨use, _, hq⟩
    exact ⟨_, k, hk, hq⟩

theorem Shaped.setOnEveryPath (h : Shaped t s c) (hq : q ∈ c.outParams) : SetOnEveryPath c q := by
  rw [h.outParams_eq, Option.mem_toList] at hq
  have hout : c.outParams = [q] := by
    rw [h.outParams_eq, hq]
    rfl
  have hreturns : ∃ r, c.returns? = some r := by
    rcases Option.bind_eq_some_iff.1 hq with ⟨k, hk, _⟩
    rw [h.returnLength] at hk
    rcases Option.bind_eq_some_iff.1 hk with ⟨r, hr, _⟩
    exact ⟨r, hr⟩
  rcases hreturns with ⟨r, hr⟩
  constructor
  . rcases reverseBody_of_returns hr "managed" with ⟨kept, hbody, hkept⟩
    rw [hq] at hbody
    exact ⟨_, kept, _, hbody, fun st hst => (hkept st hst).1⟩
  . unfold CallbackSource.recovery CallShape.boundaryReturn
    rw [hout, hr]
    rfl

theorem filter_importParams (leading : Option ImportParam) (hleading : ∀ i ∈ leading, i.out = false)
    : (c.importParams leading).filter (·.out)
        = c.outParams.map fun q => ⟨true, q.use.crossing.boundary, q.name⟩ := by
  unfold CallShape.importParams CallShape.outParams
  rw [List.filter_append, List.filter_map]
  have hnone : leading.toList.filter (·.out) = [] := by
    rw [List.filter_eq_nil_iff]
    intro i hi
    simp [hleading i (by simpa using hi)]
  rw [hnone, List.nil_append]
  apply List.map_congr_left
  intro q hq
  have hout := (List.mem_filter.1 hq).2
  simpa using hout

namespace CallbackSource

/--
The function that native code calls instead of a managed delegate, with its parameters and the
statements of its normal path.
-/
def nativeCallback (shape : CallShape) (params : String) (body : Source.Lines) : Source.Lines :=
  [shape.returns?.elim "void" (·.crossing.boundary) ++ " NativeCallback (" ++ params ++ ")",
   "\x7b",
   "\ttry \x7b"]
    ++ tabbed "\t\t" body
    ++ ["\t\x7d catch (Exception e) \x7b"]
    ++ tabbed "\t\t" (recovery shape)
    ++ ["\t\x7d", "\x7d"]

theorem drop_wrapperLines (callback : CallbackType) (shape : CallShape)
    : (wrapperLines callback shape).drop 19
        = tabbed "\t" (nativeCallback shape (paramList (shape.importParams none))
            ((shape.reverseBody "managed").map (·.text))) ++ ["\x7d"] :=
  rfl

theorem exists_nativeCallback (gluelib : String) (callback : CallbackType) (shape : CallShape)
    : ∃ front back params body, Listed ImportParam.Spelled (shape.importParams none) params
        ∧ List.Forall₂ Statement.Spelled (shape.reverseBody "managed") body
        ∧ lines gluelib callback shape
            = front ++ tabbed "\t" (tabbed "\t" (nativeCallback shape params body)) ++ back := by
  have hwrapper := (List.take_append_drop 19 (wrapperLines callback shape)).symm
  rw [drop_wrapperLines] at hwrapper
  unfold lines
  rw [hwrapper, indented_one (_ ++ _ ++ _), tabbed_append, tabbed_append "\t" (List.take 19 _),
    tabbed_append _ _ ["\x7d"]]
  simp only [← List.append_assoc]
  rw [List.append_assoc _ (tabbed "\t" ["\x7d"])]
  exact ⟨_, _, _, _, listed_paramList _, forall₂_spelled Statement.spelled_text _, rfl⟩

end CallbackSource

/--
Managed code sees a parameter of a signature unless an array names it for its length, which is
another parameter or the returned one. What it sees is what it declares, in the order of
declaration, and with just these values a managed target is called. The native side has a parameter
to set if and only if a counted array is returned whose number one of the parameters holds; there is
one at most, and a function that native code calls sets it before it returns, also after an
exception. In a list of native parameters it has `out` in front.
-/
theorem parameters_divided (t : Table) (s : Signature) (c : CallShape)
    (hshape : CallShape.ofSignature t s = .ok c) (hnames : (s.params.map (·.name)).Nodup)
    : (∃ uses shown, List.Forall₂ (fun p use => t.resolve p.ctype = .ok use) s.params uses
        ∧ KeptAt (fun k => ¬ s.HoldsLength t k) (s.params.zip uses).zipIdx shown
        ∧ c.managedParams = String.intercalate ", " (shown.map fun ((p, use), _) =>
            use.crossing.managed ++ " " ++ Text.escapeReserved p.name)
        ∧ ∀ target, ∃ call rest, c.reverseBody target = call :: rest
          ∧ call.forwarded? = some (target, shown.map fun ((p, use), k) =>
              managedValue use (Text.escapeReserved p.name) (c.lengthOf? k))
          ∧ ∀ st ∈ rest, st.forwarded? = none)
      ∧ (∀ leading : Option ImportParam, (∀ i ∈ leading, i.out = false) →
          (∀ k i, (c.importParams leading)[leading.toList.length + k]? = some i →
            (i.out = true ↔ s.HoldsReturnedLength t k))
          ∧ ((c.importParams leading).filter (·.out)).length ≤ 1
          ∧ ((c.importParams leading).filter (·.out) ≠ [] ↔ ∃ k, s.HoldsReturnedLength t k)
          ∧ Listed ImportParam.Spelled (c.importParams leading)
              (paramList (c.importParams leading)))
      ∧ (∀ gluelib callback, ∃ front back params body,
          Listed ImportParam.Spelled (c.importParams none) params
            ∧ List.Forall₂ Statement.Spelled (c.reverseBody "managed") body
            ∧ CallbackSource.lines gluelib callback c
                = front
                    ++ tabbed "\t" (tabbed "\t" (CallbackSource.nativeCallback c params body))
                    ++ back)
      ∧ ∀ q ∈ c.outParams, SetOnEveryPath c q := by
  have h := shaped_of_ofSignature hshape
  refine ⟨?_, ?_, ?_, ?_⟩
  . rcases exists_visible hshape hnames with ⟨uses, shown, huses, hkept, hvisible, hreverse⟩
    refine ⟨uses, shown, huses, hkept, ?_, ?_⟩
    . have hparams := congrArg (List.map fun x => x.1.crossing.managed ++ " " ++ x.2) hvisible
      rw [List.map_map, List.map_map] at hparams
      exact congrArg (String.intercalate ", ") hparams
    . intro target
      rw [← hreverse]
      exact reverseBody_forwards c target
  . intro leading hleading
    rw [filter_importParams leading hleading, h.outParams_eq]
    refine ⟨?_, ?_, ?_, listed_paramList _⟩
    . intro k i hi
      have hq : ∃ q, c.params[k]? = some q
          ∧ i = ⟨q.role = .returnLength, q.use.crossing.boundary, q.name⟩ := by
        unfold CallShape.importParams at hi
        rw [List.getElem?_append_right (Nat.le_add_right _ _), Nat.add_sub_cancel_left,
          List.getElem?_map, Option.map_eq_some_iff] at hi
        rcases hi with ⟨q, hq, rfl⟩
        exact ⟨q, hq, rfl⟩
      rcases hq with ⟨q, hq, rfl⟩
      rw [decide_eq_true_iff, h.role_eq_returnLength hq, h.returnLength?_iff_holds hnames]
    . rw [List.length_map]
      exact Option.length_toList_le
    . rw [← h.exists_returnLength_iff hnames, Ne, List.map_eq_nil_iff, Option.toList_eq_nil_iff,
        ← Ne, Option.ne_none_iff_exists']
  . intro gluelib callback
    exact CallbackSource.exists_nativeCallback gluelib callback c
  . intro q hq
    exact h.setOnEveryPath hq

/--
An array of numbers that `m` counts.
-/
def rows : Descriptor :=
  .array ⟨"DemoRows", "gint", .param "m"⟩

def mergeTable : Table where
  entries := [gint, ints, rows]
  nodup := by decide

/--
A function that takes one counted array and returns another one.
-/
def mergeSignature : Signature :=
  ⟨"DemoInts", [⟨"m", "gint", .call⟩, ⟨"rows", "DemoRows", .call⟩, ⟨"n", "gint", .call⟩,
    ⟨"data", "gint", .call⟩]⟩

def mergeShape : CallShape :=
  .ofUses mergeSignature
    [mergeTable.useOf "gint" gint, mergeTable.useOf "DemoRows" rows, mergeTable.useOf "gint" gint,
     mergeTable.useOf "gint" gint]
    (some (mergeTable.useOf "DemoInts" ints))

theorem ofSignature_merge : CallShape.ofSignature mergeTable mergeSignature = .ok mergeShape := by
  have hresolve (ref : String) (d : Descriptor) (h : mergeTable.get? ref = some d)
      : resolve mergeTable ref = .ok (mergeTable.useOf ref d) := resolve_ok h
  have hnumber := hresolve "gint" gint (by decide +kernel)
  have hrows := hresolve "DemoRows" rows (by decide +kernel)
  have hreturns := hresolve "DemoInts" ints (by decide +kernel)
  have hvoid : mergeSignature.returnsVoid = false := by decide
  unfold CallShape.ofSignature resolveReturn
  rw [hvoid]
  unfold mergeSignature
  simp only [resolveParams, hnumber, hrows, hreturns]
  rfl

theorem parameters_divided_merge
    : CallShape.ofSignature mergeTable mergeSignature = .ok mergeShape
        ∧ (mergeSignature.params.map (·.name)).Nodup
        ∧ mergeSignature.HoldsLength mergeTable 0 ∧ mergeSignature.HoldsReturnedLength mergeTable 2
        ∧ ((mergeShape.importParams none).filter (·.out)).length ≤ 1
        ∧ ∃ q ∈ mergeShape.outParams, q.name = "n" ∧ SetOnEveryPath mergeShape q := by
  have hnames : (mergeSignature.params.map (·.name)).Nodup := by decide
  have hcounted : mergeSignature.HoldsLength mergeTable 0 :=
    .inl ⟨_, 1, _, rfl, by decide, rfl, ⟨"DemoRows", "gint", .param "m"⟩, by decide +kernel, rfl⟩
  have hreturned : mergeSignature.HoldsReturnedLength mergeTable 2 :=
    ⟨_, rfl, by decide, ⟨"DemoInts", "gint", .param "n"⟩, by decide +kernel, rfl⟩
  rcases parameters_divided mergeTable mergeSignature mergeShape ofSignature_merge hnames with
    ⟨_, hout, _, hset⟩
  rcases hout none (by simp) with ⟨_, hone, _, _⟩
  exact ⟨ofSignature_merge, hnames, hcounted, hreturned, hone, _, List.mem_singleton.2 rfl, rfl,
    hset _ (List.mem_singleton.2 rfl)⟩

end Binding

end Interop
