import Interop.Proofs.Binding.Call
import Interop.Proofs.Binding.Known

/-!
This module contains how counted arrays travel with their numbers of elements. A parameter holds the
number of one array only: of several arrays that name it the last one, and none if the returned
array names it too. An array travels with its own number exactly if it is that one.
-/

namespace Interop.Binding

/--
A call passes the number of elements of the array at place `i` for the parameter at place `k`, and a
call back reads the array with the number that came there.
-/
structure Travels (c : CallShape) (i k : Nat) (array count : CallParam) : Prop where
  passed : ∀ leading, (c.arguments leading)[leading.toList.length + k]?
    = some (.counted k i (nativeCount count array.name))
  visible : array.role = .value
  read : c.reverseArguments[c.rank i]? = some (managedValue array.use array.name (some count))

variable {t : Table} {s : Signature} {c : CallShape} {function length : String} {i k : Nat}
  {p : Parameter} {a count : CallParam}

theorem lengthParam?_eq_some {use : Use}
    : use.lengthParam? = some length
        ↔
      ∃ type, use.type = .array type ∧ type.lengthParam? = some length := by
  unfold Use.lengthParam?
  cases use.type <;> simp

/--
In a signature without fault every counted array has another parameter beside it for its length.
-/
theorem exists_lengthParam (h : Validation.signatureFault? t function s = none)
    (hp : p ∈ s.params) {use : Use} (huse : t.resolve p.ctype = .ok use)
    (hlength : use.lengthParam? = some length)
    : ∃ q ∈ s.params, q.name = length ∧ q.name ≠ p.name := by
  rcases Table.resolve_eq_ok.1 huse with ⟨d, hget, rfl⟩
  rcases lengthParam?_eq_some.1 hlength with ⟨type, htype, hparam⟩
  obtain rfl : d = .array type := htype
  unfold Validation.signatureFault? at h
  rw [List.findSome?_eq_none_iff] at h
  have hmem : (some p.name, p.ctype)
      ∈ s.params.map (fun p => (some p.name, p.ctype)) ++ [(none, s.returns)] := by
    apply List.mem_append_left
    exact List.mem_map_of_mem hp
  have hcarrier := h _ hmem
  simp only [hget, hparam] at hcarrier
  simpa using hcarrier

theorem Travels.iff_role (h : Shaped t s c) (ha : c.params[i]? = some a)
    (hcount : c.params[k]? = some count)
    : Travels c i k a count ↔ a.role = .value ∧ count.role = .lengthOf i := by
  constructor
  . intro htravels
    refine ⟨htravels.visible, ?_⟩
    have hpassed := htravels.passed none
    rw [c.arguments_getElem? none hcount, Option.some.injEq] at hpassed
    cases hrole : count.role with
    | value => simp [argument_of_value hrole] at hpassed
    | returnLength => simp [argument_of_returnLength hrole] at hpassed
    | lengthOf j =>
      rw [argument_of_lengthOf hrole] at hpassed
      injection hpassed with _ hj
      rw [hj]
  . rintro ⟨hvisible, hrole⟩
    refine ⟨?_, hvisible, ?_⟩
    . intro leading
      rw [c.arguments_getElem? leading hcount, argument_of_lengthOf hrole, c.nameAt_eq ha]
    . rw [c.reverseArguments_getElem? ha hvisible, h.lengthOf?_eq_some hcount hrole]

section Distinct

variable (h : Shaped t s c) (hnames : (s.params.map (·.name)).Nodup) (hp : s.params[k]? = some p)

include hnames hp

theorem lengthPlace?_eq_some_iff {use : Use}
    : s.lengthPlace? use = some k ↔ use.lengthParam? = some p.name := by
  constructor
  . intro hplace
    exact Signature.lengthParam?_of_lengthPlace? hplace hp
  . intro hlength
    unfold Signature.lengthPlace?
    rw [hlength]
    exact Signature.position?_name hnames hp

include h

theorem returnLength?_iff
    : c.returnLength? = some k ↔ ∃ r ∈ c.returns?, r.lengthParam? = some p.name := by
  rw [h.returnLength, Option.bind_eq_some_iff]
  simp only [lengthPlace?_eq_some_iff hnames hp, Option.mem_def]

variable (hchecked : Validation.signatureFault? t function s = none)

include hchecked

theorem counts_iff (ha : c.params[i]? = some a)
    : c.Counts s i k ↔ a.use.lengthParam? = some p.name := by
  unfold CallShape.Counts
  simp only [ha, Option.some.injEq, exists_eq_left', lengthPlace?_eq_some_iff hnames hp]
  constructor
  . intro hcounts
    exact hcounts.1
  . intro hlength
    refine ⟨hlength, ?_⟩
    rintro rfl
    rcases h.source ha with ⟨q, hq, hresolve, _⟩
    obtain rfl : p = q := by simpa [hp] using hq
    rcases exists_lengthParam hchecked (List.mem_of_getElem? hp) hresolve hlength with
      ⟨q, _, hname, hne⟩
    exact hne hname

theorem visible_iff (ha : c.params[k]? = some a)
    : a.role = .value
        ↔
      (∀ b ∈ c.params, b.use.lengthParam? ≠ some p.name)
        ∧ ∀ r ∈ c.returns?, r.lengthParam? ≠ some p.name := by
  rw [h.role_eq_value ha, Ne, returnLength?_iff h hnames hp]
  constructor
  . rintro ⟨hreturns, hcounts⟩
    refine ⟨?_, by simpa using hreturns⟩
    intro b hb hlength
    rcases List.getElem?_of_mem hb with ⟨j, hj⟩
    exact hcounts j ((counts_iff h hnames hp hchecked hj).2 hlength)
  . rintro ⟨hparams, hreturns⟩
    refine ⟨by simpa using hreturns, ?_⟩
    rintro j hcounts
    rcases hcounts with ⟨b, hb, hplace, _⟩
    exact hparams b (List.mem_of_getElem? hb) ((lengthPlace?_eq_some_iff hnames hp).1 hplace)

theorem lengthOf_iff (hcount : c.params[k]? = some count) (ha : c.params[i]? = some a)
    : count.role = .lengthOf i
        ↔
      (∀ r ∈ c.returns?, r.lengthParam? ≠ some p.name) ∧ a.use.lengthParam? = some p.name
        ∧ ∀ j b, i < j → c.params[j]? = some b → b.use.lengthParam? ≠ some p.name := by
  rw [h.role_eq_lengthOf hcount, Ne, returnLength?_iff h hnames hp,
    counts_iff h hnames hp hchecked ha]
  constructor
  . rintro ⟨hreturns, hcounts, hlast⟩
    refine ⟨by simpa using hreturns, hcounts, ?_⟩
    intro j b hj hb hlength
    have := hlast j ((counts_iff h hnames hp hchecked hb).2 hlength)
    omega
  . rintro ⟨hreturns, hcounts, hlast⟩
    refine ⟨by simpa using hreturns, hcounts, ?_⟩
    rintro j ⟨b, hb, hplace, _⟩
    apply Nat.le_of_not_lt
    intro hj
    exact hlast j b hj hb ((lengthPlace?_eq_some_iff hnames hp).1 hplace)

end Distinct

/--
The parameter that a counted array of a signature without fault names is another one.
-/
theorem exists_count (h : Shaped t s c) (hnames : (s.params.map (·.name)).Nodup)
    (hchecked : Validation.signatureFault? t function s = none) (ha : c.params[i]? = some a)
    (hlength : a.use.lengthParam? = some length)
    : ∃ k q count, s.params[k]? = some q ∧ q.name = length ∧ s.position? length = some k ∧ k ≠ i
        ∧ c.params[k]? = some count := by
  rcases h.source ha with ⟨p, hp, hresolve, _⟩
  rcases exists_lengthParam hchecked (List.mem_of_getElem? hp) hresolve hlength with
    ⟨q, hq, rfl, hne⟩
  rcases List.getElem?_of_mem hq with ⟨k, hk⟩
  rcases h.param k q hk with ⟨use, _, hcount⟩
  refine ⟨k, q, _, hk, rfl, Signature.position?_name hnames hk, ?_, hcount⟩
  rintro rfl
  obtain rfl : p = q := by simpa [hp] using hk
  exact hne rfl

theorem travels_iff (h : Shaped t s c) (hnames : (s.params.map (·.name)).Nodup)
    (hchecked : Validation.signatureFault? t function s = none) {q : Parameter}
    (hp : s.params[i]? = some p) (ha : c.params[i]? = some a) (hq : s.params[k]? = some q)
    (hcount : c.params[k]? = some count) (hlength : a.use.lengthParam? = some q.name)
    : Travels c i k a count
        ↔
      (∀ j b, i < j → c.params[j]? = some b → b.use.lengthParam? ≠ some q.name)
        ∧ (∀ b ∈ c.params, b.use.lengthParam? ≠ some p.name)
        ∧ ∀ r ∈ c.returns?, r.lengthParam? ≠ some q.name ∧ r.lengthParam? ≠ some p.name := by
  rw [Travels.iff_role h ha hcount, visible_iff h hnames hp hchecked ha,
    lengthOf_iff h hnames hq hchecked hcount ha]
  constructor
  . rintro ⟨⟨hparams, hreturns⟩, hreturns', _, hlast⟩
    exact ⟨hlast, hparams, fun r hr => ⟨hreturns' r hr, hreturns r hr⟩⟩
  . rintro ⟨hlast, hparams, hreturns⟩
    exact ⟨⟨hparams, fun r hr => (hreturns r hr).2⟩, fun r hr => (hreturns r hr).1, hlength, hlast⟩

-- Some array names the parameter, so the last one that does is well-defined.
theorem exists_last (h : Shaped t s c) (hcount : c.params[k]? = some count)
    (hcounts : c.Counts s i k) (hreturns : c.returnLength? ≠ some k)
    : ∃ last, i ≤ last ∧ c.Counts s last k ∧ count.role = .lengthOf last := by
  cases hrole : count.role with
  | value => exact absurd hcounts (((h.role_eq_value hcount).1 hrole).2 i)
  | returnLength => exact absurd ((h.role_eq_returnLength hcount).1 hrole) hreturns
  | lengthOf last =>
    rcases (h.role_eq_lengthOf hcount).1 hrole with ⟨_, hlast, hgreatest⟩
    exact ⟨last, hgreatest i hcounts, hlast, rfl⟩

-- No other parameter holds the number of this array, so there is none to read it with.
theorem reverseArguments_of_not_travels (h : Shaped t s c) (ha : c.params[i]? = some a)
    (hcount : c.params[k]? = some count) (hcounts : c.Counts s i k) (hvisible : a.role = .value)
    (htravels : ¬ Travels c i k a count)
    : c.reverseArguments[c.rank i]? = some (managedValue a.use a.name none) := by
  rw [c.reverseArguments_getElem? ha hvisible]
  cases hfound : c.lengthOf? i with
  | none => rfl
  | some r =>
    rcases CallShape.exists_of_lengthOf? hfound with ⟨j, hr, hrole⟩
    obtain rfl : j = k := ((h.role_eq_lengthOf hr).1 hrole).2.1.inj hcounts
    obtain rfl : count = r := by simpa [hcount] using hr
    exact absurd ((Travels.iff_role h ha hcount).2 ⟨hvisible, hrole⟩) htravels

/--
In a signature without fault every counted array has another parameter for its length. It travels
with its own number of elements, in both directions, if and only if no later array and no returned
array names the same parameter, and it is not itself named for a length. Otherwise a call passes the
number of the last array that names the parameter, or a variable for the number of the returned
array, and a call back reads the array as if nothing were known of the parameter.
-/
theorem counted_array_travels (t : Table) (s : Signature) (function : String) (c : CallShape)
    (hshape : CallShape.ofSignature t s = .ok c) (hnames : (s.params.map (·.name)).Nodup)
    (hchecked : Validation.signatureFault? t function s = none) (i : Nat) (p : Parameter)
    (a : CallParam) (length : String) (hp : s.params[i]? = some p) (ha : c.params[i]? = some a)
    (hlength : a.use.lengthParam? = some length)
    : ∃ k count, s.position? length = some k ∧ k ≠ i ∧ c.params[k]? = some count
        ∧ (Travels c i k a count
            ↔
          (∀ j b, i < j → c.params[j]? = some b → b.use.lengthParam? ≠ some length)
            ∧ (∀ b ∈ c.params, b.use.lengthParam? ≠ some p.name)
            ∧ ∀ r ∈ c.returns?, r.lengthParam? ≠ some length ∧ r.lengthParam? ≠ some p.name)
        ∧ ((∃ r ∈ c.returns?, r.lengthParam? = some length) →
            ∀ leading, (c.arguments leading)[leading.toList.length + k]?
              = some (.received k count.name))
        ∧ ((∀ r ∈ c.returns?, r.lengthParam? ≠ some length) →
            ∃ last b, i ≤ last ∧ c.params[last]? = some b ∧ b.use.lengthParam? = some length
              ∧ ∀ leading, (c.arguments leading)[leading.toList.length + k]?
                  = some (.counted k last (nativeCount count b.name)))
        ∧ (a.role = .value → ¬ Travels c i k a count →
            c.reverseArguments[c.rank i]? = some (managedValue a.use a.name none)) := by
  have h := shaped_of_ofSignature hshape
  rcases exists_count h hnames hchecked ha hlength with ⟨k, q, count, hq, rfl, hk, hne, hcount⟩
  have hcounts := (counts_iff h hnames hq hchecked ha).2 hlength
  refine ⟨k, count, hk, hne, hcount, travels_iff h hnames hchecked hp ha hq hcount hlength,
    ?_, ?_, ?_⟩
  . intro hreturns leading
    have hrole := (h.role_eq_returnLength hcount).2 ((returnLength?_iff h hnames hq).2 hreturns)
    rw [c.arguments_getElem? leading hcount, argument_of_returnLength hrole]
  . intro hreturns
    have hreturns : c.returnLength? ≠ some k := by
      rw [Ne, returnLength?_iff h hnames hq]
      simpa using hreturns
    rcases exists_last h hcount hcounts hreturns with ⟨last, hle, ⟨b, hb, hplace, _⟩, hrole⟩
    refine ⟨last, b, hle, hb, (lengthPlace?_eq_some_iff hnames hq).1 hplace, ?_⟩
    intro leading
    rw [c.arguments_getElem? leading hcount, argument_of_lengthOf hrole, c.nameAt_eq hb]
  . intro hvisible htravels
    exact reverseArguments_of_not_travels h ha hcount hcounts hvisible htravels

def gint : Descriptor :=
  .simple ⟨"gint", "int", none, "0", false⟩

/--
An array of numbers that `n` counts.
-/
def ints : Descriptor :=
  .array ⟨"DemoInts", "gint", .param "n"⟩

def tallyTable : Table where
  entries := [gint, ints]
  nodup := by decide

theorem resolve_gint : resolve tallyTable "gint" = .ok (tallyTable.useOf "gint" gint) := by
  apply resolve_ok
  decide +kernel

theorem resolve_ints : resolve tallyTable "DemoInts" = .ok (tallyTable.useOf "DemoInts" ints) := by
  apply resolve_ok
  decide +kernel

def sumSignature : Signature :=
  ⟨"void", [⟨"values", "DemoInts", .call⟩, ⟨"n", "gint", .call⟩]⟩

def sumShape : CallShape :=
  .ofUses sumSignature [tallyTable.useOf "DemoInts" ints, tallyTable.useOf "gint" gint] none

theorem ofSignature_sum : CallShape.ofSignature tallyTable sumSignature = .ok sumShape := by
  unfold CallShape.ofSignature sumSignature
  simp only [resolveParams, resolve_ints, resolve_gint]
  rfl

theorem counted_array_travels_sum
    : (sumSignature.params.map (·.name)).Nodup
        ∧ Validation.signatureFault? tallyTable "demo_sum" sumSignature = none
        ∧ CallShape.ofSignature tallyTable sumSignature = .ok sumShape
        ∧ ∃ a count, sumShape.params[0]? = some a ∧ a.use.lengthParam? = some "n"
            ∧ sumShape.params[1]? = some count ∧ Travels sumShape 0 1 a count := by
  have hnames : (sumSignature.params.map (·.name)).Nodup := by decide
  have hchecked : Validation.signatureFault? tallyTable "demo_sum" sumSignature = none := by
    decide +kernel
  refine ⟨hnames, hchecked, ofSignature_sum, ?_⟩
  rcases counted_array_travels tallyTable sumSignature "demo_sum" sumShape ofSignature_sum hnames
    hchecked 0 _ _ "n" rfl rfl rfl with ⟨k, count, hk, _, hcount, htravels, _⟩
  obtain rfl : 1 = k := Option.some.inj hk
  refine ⟨_, count, rfl, rfl, hcount, htravels.2 ?_⟩
  refine ⟨?_, ?_, ?_⟩
  . intro j b hj hb hname
    match j with
    | 1 =>
      rw [← Option.some.inj hb] at hname
      cases hname
    | j + 2 => cases hb
  . intro b hb hname
    have hmem : b.use.lengthParam? ∈ sumShape.params.map (·.use.lengthParam?) :=
      List.mem_map_of_mem hb
    rw [hname] at hmem
    exact absurd hmem (by decide)
  . intro r hr
    cases hr

def fillSignature : Signature :=
  ⟨"void", [⟨"values", "DemoInts", .call⟩, ⟨"spare", "DemoInts**", .call⟩, ⟨"n", "gint", .call⟩]⟩

def fillShape : CallShape :=
  .ofUses fillSignature
    [tallyTable.useOf "DemoInts" ints, tallyTable.useOf "DemoInts**" ints,
     tallyTable.useOf "gint" gint]
    none

theorem ofSignature_fill : CallShape.ofSignature tallyTable fillSignature = .ok fillShape := by
  have hspare : resolve tallyTable "DemoInts**" = .ok (tallyTable.useOf "DemoInts**" ints) := by
    apply resolve_ok
    decide +kernel
  unfold CallShape.ofSignature fillSignature
  simp only [resolveParams, resolve_ints, hspare, resolve_gint]
  rfl

-- The array behind two pointers, which crosses as an address, has taken the parameter.
theorem not_counted_array_travels
    : ¬ ∀ (t : Table) (s : Signature) (function : String) (c : CallShape),
        CallShape.ofSignature t s = .ok c → (s.params.map (·.name)).Nodup →
        Validation.signatureFault? t function s = none →
        ∀ (i : Nat) (a : CallParam) (length : String), c.params[i]? = some a →
          a.use.lengthParam? = some length → a.use.depth ≤ 1 →
          ∃ k count, s.position? length = some k ∧ c.params[k]? = some count
            ∧ Travels c i k a count := by
  intro h
  have hnames : (fillSignature.params.map (·.name)).Nodup := by decide
  have hchecked : Validation.signatureFault? tallyTable "demo_fill" fillSignature = none := by
    decide +kernel
  rcases h tallyTable fillSignature "demo_fill" fillShape ofSignature_fill hnames hchecked 0 _ "n"
    rfl rfl (by decide) with ⟨k, count, hk, hcount, htravels⟩
  obtain rfl : 2 = k := Option.some.inj hk
  have hshaped := shaped_of_ofSignature ofSignature_fill
  have hlast := (travels_iff hshaped hnames hchecked rfl rfl rfl hcount rfl).1 htravels
  exact hlast.1 1 _ (by decide) rfl rfl

end Interop.Binding
