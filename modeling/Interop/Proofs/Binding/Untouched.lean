import Interop.Proofs.Binding.Call
import Interop.Proofs.Binding.Known
import Interop.Proofs.Crossing

/-!
This module contains what becomes of values behind two pointers or more. They are addresses that
managed code does not look behind. A call leaves such a value untouched, except where its type is
asked after all: a helper is made for what lies behind if it is a callback, and a count is taken of
it if it is an array.
-/

namespace Interop.Binding

/--
Neither a call nor a call back does anything to the parameter at place `k` but hand it on.
-/
structure CrossesUntouched (c : CallShape) (k : Nat) (p : CallParam) : Prop where
  imported : ∀ leading, (c.importParams leading)[leading.toList.length + k]?
    = some (.address p.name)
  passed : ∀ leading, (c.arguments leading)[leading.toList.length + k]? = some (.passed k p.name)
  unprepared : p.preparation = []
  uncleaned : p.cleanup = []
  received : c.reverseArguments[c.rank k]? = some p.name
  uncounted : ∀ q ∈ c.params, q.role ≠ .lengthOf k

/--
Neither a call nor a call back does anything to the returned value but hand it on.
-/
structure ReturnsUntouched (c : CallShape) : Prop where
  converted : ∀ callee leading, c.invocation callee leading .giveBack
    = [.receive "IntPtr" callee (c.arguments leading), .convert "IntPtr" "raw_ret"]
  answered : ∀ target, c.reverseBody target
    = [.answer "IntPtr" target c.reverseArguments, .giveBack "__ret"]
  uncounted : ∀ q ∈ c.params, q.role ≠ .returnLength

variable {t : Table} {s : Signature} {c : CallShape} {i k : Nat} {p : CallParam} {use : Use}

theorem Use.crossing_eq_address (h : 2 ≤ use.depth) : use.crossing = .address :=
  Table.behind_of_two_le h

theorem Use.isCallback_eq_false (h : 2 ≤ use.depth) : use.isCallback = false := by
  have : ¬ use.depth ≤ 1 := by omega
  simp [Use.isCallback, this]

theorem passedText_eq_name (h : 2 ≤ p.use.depth) : p.passedText = p.name := by
  unfold CallParam.passedText
  rw [Use.crossing_eq_address h]
  split <;> rfl

theorem preparation_eq_nil_iff (h : 2 ≤ p.use.depth) (hrole : p.role = .value)
    : p.preparation = [] ↔ p.use.type.kind ≠ .callback := by
  unfold CallParam.preparation
  rw [hrole, Use.crossing_eq_address h]
  cases p.use.type <;> simp [Descriptor.kind, Crossing.ownsCopy]

theorem cleanup_eq_nil (h : 2 ≤ p.use.depth) : p.cleanup = [] := by
  unfold CallParam.cleanup
  rw [Use.isCallback_eq_false h, Use.crossing_eq_address h]
  rfl

theorem managedValue_none (x : String) : managedValue use x none = use.crossing.fromNative x := by
  unfold managedValue
  split
  . contradiction
  . rfl

/--
An array has no length parameter to itself if each one that it names is taken by the returned array
or by a later one.
-/
theorem lengthOf?_eq_none_iff (h : Shaped t s c)
    : c.lengthOf? i = none
        ↔
      ∀ k, c.Counts s i k → c.returnLength? = some k ∨ ∃ j, i < j ∧ c.Counts s j k := by
  rw [CallShape.lengthOf?_eq_none]
  constructor
  . intro hnone k hcounts
    have ⟨_, _, hplace, _⟩ := hcounts
    rcases h.exists_of_lengthPlace? hplace with ⟨q, hq⟩
    have hrole := hnone q (List.mem_of_getElem? hq)
    rw [Ne, h.role_eq_lengthOf hq] at hrole
    by_cases hreturn : c.returnLength? = some k
    . exact .inl hreturn
    . right
      simpa [hreturn, hcounts, and_comm] using hrole
  . intro htaken q hq hrole
    rcases List.getElem?_of_mem hq with ⟨k, hk⟩
    rcases (h.role_eq_lengthOf hk).1 hrole with ⟨hreturn, hcounts, hlast⟩
    rcases htaken k hcounts with hreturn' | ⟨j, hj, hlater⟩
    . exact hreturn hreturn'
    . have := hlast j hlater
      omega

theorem crossesUntouched_iff (hp : c.params[k]? = some p) (hdepth : 2 ≤ p.use.depth)
    : CrossesUntouched c k p
        ↔
      p.role = .value ∧ p.use.type.kind ≠ .callback ∧ c.lengthOf? k = none := by
  constructor
  . intro h
    have hrole : p.role = .value := by
      have hpassed := h.passed none
      rw [c.arguments_getElem? none hp, Option.some.injEq] at hpassed
      cases hrole : p.role with
      | value => rfl
      | lengthOf i => simp [argument_of_lengthOf hrole] at hpassed
      | returnLength => simp [argument_of_returnLength hrole] at hpassed
    exact ⟨hrole, (preparation_eq_nil_iff hdepth hrole).1 h.unprepared,
      CallShape.lengthOf?_eq_none.2 h.uncounted⟩
  . rintro ⟨hrole, hkind, hlength⟩
    refine ⟨?_, ?_, (preparation_eq_nil_iff hdepth hrole).2 hkind, cleanup_eq_nil hdepth, ?_,
      CallShape.lengthOf?_eq_none.1 hlength⟩
    . intro leading
      rw [c.importParams_getElem? leading hp, Use.crossing_eq_address hdepth, hrole]
      rfl
    . intro leading
      rw [c.arguments_getElem? leading hp, argument_of_value hrole, passedText_eq_name hdepth]
    . rw [c.reverseArguments_getElem? hp hrole, hlength, managedValue_none,
        Use.crossing_eq_address hdepth]
      rfl

theorem returnsUntouched_iff (h : Shaped t s c) (hr : c.returns? = some use)
    (hdepth : 2 ≤ use.depth)
    : ReturnsUntouched c ↔ use.type.kind ≠ .callback ∧ s.lengthPlace? use = none := by
  have hreturn : c.returnLength? = s.lengthPlace? use := by rw [h.returnLength, hr]; rfl
  constructor
  . intro huntouched
    constructor
    . intro hkind
      -- A returned callback is kept by one statement more.
      have hanswered := congrArg List.length (huntouched.answered "")
      unfold CallShape.reverseBody at hanswered
      cases htype : use.type with
      | callback type =>
        simp [hr, htype] at hanswered
      | _ => simp [htype, Descriptor.kind] at hkind
    . cases hplace : s.lengthPlace? use with
      | none => rfl
      | some k =>
        rcases h.exists_of_lengthPlace? hplace with ⟨q, hq⟩
        rw [hplace] at hreturn
        have hrole := (h.role_eq_returnLength hq).2 hreturn
        exact absurd hrole (huntouched.uncounted q (List.mem_of_getElem? hq))
  . rintro ⟨hkind, hplace⟩
    rw [hplace] at hreturn
    have hlength : c.returnLength = none := by
      unfold CallShape.returnLength
      rw [hreturn]
      rfl
    refine ⟨?_, ?_, ?_⟩
    . intro callee leading
      unfold CallShape.invocation
      simp only [hr, hlength, managedValue_none, Use.crossing_eq_address hdepth]
      rfl
    . intro target
      unfold CallShape.reverseBody
      simp only [hr, hlength, Use.crossing_eq_address hdepth]
      split
      . next htype => simp [htype, Descriptor.kind] at hkind
      . rfl
    . intro q hq hrole
      rcases List.getElem?_of_mem hq with ⟨k, hk⟩
      have := (h.role_eq_returnLength hk).1 hrole
      simp [hreturn] at this

/--
Whatever lies behind two pointers or more is an address on either side. A parameter of such a type
is left untouched if and only if it is no callback, is not itself named for a length, and is no
array that has a length parameter to itself; a returned value if and only if it is no callback and
no array with a length parameter.
-/
theorem untouched_behind_pointers (t : Table) (s : Signature) (c : CallShape)
    (hshape : CallShape.ofSignature t s = .ok c)
    : (∀ k p, c.params[k]? = some p → 2 ≤ p.use.depth →
        p.use.crossing = .address
          ∧ (CrossesUntouched c k p
              ↔
            p.use.type.kind ≠ .callback
              ∧ (c.returnLength? ≠ some k ∧ ∀ i, ¬ c.Counts s i k)
              ∧ ∀ j, c.Counts s k j → c.returnLength? = some j ∨ ∃ i, k < i ∧ c.Counts s i j))
      ∧ ∀ r, c.returns? = some r → 2 ≤ r.depth →
        r.crossing = .address
          ∧ (ReturnsUntouched c ↔ r.type.kind ≠ .callback ∧ s.lengthPlace? r = none) := by
  have h := shaped_of_ofSignature hshape
  constructor
  . intro k p hp hdepth
    refine ⟨Use.crossing_eq_address hdepth, ?_⟩
    rw [crossesUntouched_iff hp hdepth, h.role_eq_value hp, lengthOf?_eq_none_iff h]
    constructor
    . rintro ⟨hvisible, hkind, hlength⟩
      exact ⟨hkind, hvisible, hlength⟩
    . rintro ⟨hkind, hvisible, hlength⟩
      exact ⟨hvisible, hkind, hlength⟩
  . intro r hr hdepth
    exact ⟨Use.crossing_eq_address hdepth, returnsUntouched_iff h hr hdepth⟩

def gchar : Descriptor :=
  .simple ⟨"gchar", "sbyte", none, "0", true⟩

def visitFunc : Descriptor :=
  .callback ⟨⟨"DemoVisitFunc", "VisitFunc", "Demo", "libdemo"⟩, ⟨"void", []⟩⟩

def visitTable : Table where
  entries := [gchar, visitFunc]
  nodup := by decide

def swapSignature : Signature :=
  ⟨"gchar**", [⟨"names", "gchar**", .call⟩]⟩

def swapShape : CallShape :=
  .ofUses swapSignature [visitTable.useOf "gchar**" gchar]
    (some (visitTable.useOf "gchar**" gchar))

theorem ofSignature_swap : CallShape.ofSignature visitTable swapSignature = .ok swapShape := by
  have htexts : resolve visitTable "gchar**" = .ok (visitTable.useOf "gchar**" gchar) := by
    apply resolve_ok
    decide +kernel
  have hvoid : Signature.returnsVoid ⟨"gchar**", [⟨"names", "gchar**", .call⟩]⟩ = false := by
    decide
  unfold CallShape.ofSignature resolveReturn swapSignature
  simp only [resolveParams, htexts, hvoid]
  rfl

theorem untouched_behind_pointers_swap
    : CallShape.ofSignature visitTable swapSignature = .ok swapShape
        ∧ (∃ p, swapShape.params[0]? = some p ∧ 2 ≤ p.use.depth ∧ CrossesUntouched swapShape 0 p)
        ∧ ∃ r, swapShape.returns? = some r ∧ 2 ≤ r.depth ∧ ReturnsUntouched swapShape := by
  have huntouched := untouched_behind_pointers visitTable swapSignature swapShape ofSignature_swap
  have hcounts : ∀ i k, ¬ swapShape.Counts swapSignature i k := by
    rintro i k ⟨a, ha, hplace, _⟩
    match i with
    | 0 =>
      rw [← Option.some.inj ha] at hplace
      cases hplace
    | i + 1 => cases ha
  refine ⟨ofSignature_swap, ⟨_, rfl, by decide, ?_⟩, ⟨_, rfl, by decide, ?_⟩⟩
  . rw [(huntouched.1 0 _ rfl (by decide)).2]
    exact ⟨by decide, ⟨by decide, fun i => hcounts i 0⟩, fun j h => absurd h (hcounts 0 j)⟩
  . rw [(huntouched.2 _ rfl (by decide)).2]
    exact ⟨by decide, rfl⟩

def walkSignature : Signature :=
  ⟨"void", [⟨"func", "DemoVisitFunc**", .call⟩]⟩

def walkShape : CallShape :=
  .ofUses walkSignature [visitTable.useOf "DemoVisitFunc**" visitFunc] none

theorem ofSignature_walk : CallShape.ofSignature visitTable walkSignature = .ok walkShape := by
  have hfunc : resolve visitTable "DemoVisitFunc**"
      = .ok (visitTable.useOf "DemoVisitFunc**" visitFunc) := by
    apply resolve_ok
    decide +kernel
  unfold CallShape.ofSignature walkSignature
  simp only [resolveParams, hfunc]
  rfl

-- A helper is made for the address.
theorem not_untouched_behind_pointers
    : ¬ ∀ (t : Table) (s : Signature) (c : CallShape), CallShape.ofSignature t s = .ok c →
        ∀ (k : Nat) (p : CallParam), c.params[k]? = some p → 2 ≤ p.use.depth →
          CrossesUntouched c k p := by
  intro h
  have hwalk := h visitTable walkSignature walkShape ofSignature_walk 0 _ rfl (by decide)
  cases hwalk.unprepared

end Interop.Binding
