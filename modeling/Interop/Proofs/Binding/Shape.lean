import Interop.Binding.Call
import Mathlib.Data.List.Induction
import Mathlib.Data.List.Nodup

/-!
This module contains what is known of a signature whose types resolve: every parameter keeps its
place, and its role follows from the arrays that name it for their length. Of several arrays that
name the same parameter the last one has it, and a returned array has it before all others.
-/

namespace Interop

open Binding

namespace Table

def useOf (t : Table) (ref : String) (d : Descriptor) : Use :=
  ⟨d, Reference.depth ref, t.crossing d⟩

theorem resolve_eq_ok {t : Table} {ref : String} {use : Use}
    : t.resolve ref = .ok use ↔ ∃ d, t.get? ref = some d ∧ use = t.useOf ref d := by
  unfold resolve lookup useOf
  cases h : t.get? ref with
  | none => simp [Except.map]
  | some d => simp [Except.map, eq_comm]

end Table

namespace Signature

variable {s : Signature} {use : Use} {p : Parameter} {name : String} {k : Nat}

/--
The place of the parameter that holds the number of elements of a value used like this.
-/
def lengthPlace? (s : Signature) (use : Use) : Option Nat :=
  use.lengthParam?.bind s.position?

theorem position?_eq_some (h : s.position? name = some k)
    : ∃ p, s.params[k]? = some p ∧ p.name = name := by
  rcases List.findIdx?_eq_some_iff_getElem.1 h with ⟨hk, hname, _⟩
  exact ⟨_, List.getElem?_eq_getElem hk, by simpa using hname⟩

theorem lengthPlace?_eq_some (h : s.lengthPlace? use = some k)
    : ∃ p, s.params[k]? = some p ∧ use.lengthParam? = some p.name := by
  rcases Option.bind_eq_some_iff.1 h with ⟨length, hlength, hk⟩
  rcases position?_eq_some hk with ⟨p, hp, rfl⟩
  exact ⟨p, hp, hlength⟩

theorem lengthParam?_of_lengthPlace? (h : s.lengthPlace? use = some k) (hp : s.params[k]? = some p)
    : use.lengthParam? = some p.name := by
  rcases lengthPlace?_eq_some h with ⟨q, hq, hlength⟩
  obtain rfl : p = q := by simpa [hp] using hq
  exact hlength

/--
With distinct names a parameter is found at its own place.
-/
theorem position?_name (hnames : (s.params.map (·.name)).Nodup) (hp : s.params[k]? = some p)
    : s.position? p.name = some k := by
  rcases List.getElem?_eq_some_iff.1 hp with ⟨hk, rfl⟩
  apply List.findIdx?_eq_some_iff_getElem.2
  refine ⟨hk, by simp, ?_⟩
  intro j hj hname
  have hsame : s.params[j] = s.params[k] := by
    apply List.inj_on_of_nodup_map hnames (List.getElem_mem _) (List.getElem_mem _)
    simpa using hname
  have := (List.Nodup.of_map _ hnames).getElem_inj_iff.1 hsame
  omega

end Signature

namespace Binding

def CallParam.ofParameter (p : Parameter) (use : Use) (role : Role) : CallParam where
  name := Text.escapeReserved p.name
  use := use
  lifetime := p.lifetime
  role := role

/--
The last element that is kept, with its place.
-/
theorem getLast?_filter_zipIdx {l : List α} {keep : α × Nat → Bool} {x : α} {i : Nat}
    : (l.zipIdx.filter keep).getLast? = some (x, i)
        ↔
      l[i]? = some x ∧ keep (x, i) ∧ ∀ j y, i < j → l[j]? = some y → ¬ keep (y, j) := by
  -- The last element is kept or it is not, and only in the second case do the others matter.
  induction l using List.reverseRecOn with
  | nil => simp
  | append_singleton l a ih =>
    rw [List.zipIdx_append, List.filter_append, List.getLast?_append, List.zipIdx_singleton,
      Nat.zero_add, List.filter_singleton]
    by_cases ha : keep (a, l.length)
    . rw [ha]
      grind
    . simp only [ha]
      grind

theorem getLast?_filter_zipIdx_eq_none {l : List α} {keep : α × Nat → Bool}
    : (l.zipIdx.filter keep).getLast? = none ↔ ∀ i x, l[i]? = some x → ¬ keep (x, i) := by
  rw [List.getLast?_eq_none_iff, List.filter_eq_nil_iff]
  constructor
  . intro h i x hx
    exact h (x, i) (List.mem_zipIdx_iff_getElem?.2 hx)
  . rintro h ⟨x, i⟩ hmem
    exact h i x (List.mem_zipIdx_iff_getElem?.1 hmem)

section Roles

variable {lengths : List (Option Nat)} {returnLength? : Option Nat} {i k : Nat}

theorem roleAt_eq_returnLength
    : roleAt lengths returnLength? k = .returnLength ↔ returnLength? = some k := by
  unfold roleAt
  split
  . next h => simp [h]
  . next h => split <;> simp [h]

theorem roleAt_eq_lengthOf
    : roleAt lengths returnLength? k = .lengthOf i
        ↔
      returnLength? ≠ some k ∧ lengths[i]? = some (some k) ∧ i ≠ k
        ∧ ∀ j, i < j → lengths[j]? = some (some k) → j = k := by
  unfold roleAt
  split
  . next h => simp [h]
  . next h =>
    split
    . next hlast =>
      rw [getLast?_filter_zipIdx] at hlast
      grind
    . next hnone =>
      rw [getLast?_filter_zipIdx_eq_none] at hnone
      grind

theorem roleAt_eq_value
    : roleAt lengths returnLength? k = .value
        ↔
      returnLength? ≠ some k ∧ ∀ i, lengths[i]? = some (some k) → i = k := by
  unfold roleAt
  split
  . next h => simp [h]
  . next h =>
    split
    . next hlast =>
      rw [getLast?_filter_zipIdx] at hlast
      grind
    . next hnone =>
      rw [getLast?_filter_zipIdx_eq_none] at hnone
      grind

end Roles

theorem resolve_eq_ok {t : Table} {ref : String} {use : Use}
    : resolve t ref = .ok use ↔ t.resolve ref = .ok use :=
  Fault.mapError_eq_ok

theorem within_eq_ok {activity : String} {x : Except (Fault ε) α} {a : α}
    : Fault.within activity x = .ok a ↔ x = .ok a := by
  cases x with
  | error fault => simp [Fault.within]
  | ok b => rfl

variable {t : Table} {s : Signature} {c : CallShape}

theorem resolveParams_eq_ok {ps : List Parameter} {uses : List Use}
    (h : resolveParams t ps = .ok uses)
    : uses.length = ps.length
      ∧ ∀ (k : Nat) (p : Parameter), ps[k]? = some p →
          ∃ use, uses[k]? = some use ∧ t.resolve p.ctype = .ok use := by
  induction ps generalizing uses with
  | nil =>
    rw [← Except.ok.inj h]
    simp
  | cons p ps ih =>
    unfold resolveParams at h
    rcases Fault.bind_eq_ok.1 h with ⟨use, huse, h⟩
    rcases Fault.bind_eq_ok.1 h with ⟨rest, hrest, h⟩
    rw [← Except.ok.inj h]
    rcases ih hrest with ⟨hlength, hplaces⟩
    refine ⟨by simp [hlength], ?_⟩
    intro k q hq
    cases k with
    | zero =>
      obtain rfl : p = q := by simpa using hq
      exact ⟨use, rfl, resolve_eq_ok.1 (within_eq_ok.1 huse)⟩
    | succ k => exact hplaces k q (by simpa using hq)

theorem resolveReturn_eq_ok {returns? : Option Use} (h : resolveReturn t s = .ok returns?)
    {use : Use} : returns? = some use ↔ s.returnsVoid = false ∧ t.resolve s.returns = .ok use := by
  unfold resolveReturn at h
  split at h
  . next hvoid =>
    rw [← Except.ok.inj h]
    simp [hvoid]
  . next hvoid =>
    cases hreturns : resolve t s.returns with
    | error fault => simp [hreturns, Fault.within, Except.map] at h
    | ok use' =>
      rw [hreturns] at h
      have hvoid : s.returnsVoid = false := by simpa using hvoid
      rw [← Except.ok.inj h, ← resolve_eq_ok, hreturns]
      simp [hvoid]

/--
What a signature whose types resolve becomes: every parameter stays at its place and gets the role
that the lengths of the arrays give it.
-/
structure Shaped (t : Table) (s : Signature) (c : CallShape) : Prop where
  length : c.params.length = s.params.length
  param : ∀ (k : Nat) (p : Parameter), s.params[k]? = some p →
    ∃ use, t.resolve p.ctype = .ok use
      ∧ c.params[k]? = some (.ofParameter p use
          (roleAt (c.params.map (s.lengthPlace? ·.use)) c.returnLength? k))
  returns : ∀ use, c.returns? = some use ↔ s.returnsVoid = false ∧ t.resolve s.returns = .ok use
  returnLength : c.returnLength? = c.returns?.bind s.lengthPlace?

theorem ofUses_params {uses : List Use} {returns? : Option Use} {k : Nat} {p : Parameter}
    {use : Use} (hp : s.params[k]? = some p) (huse : uses[k]? = some use)
    : (CallShape.ofUses s uses returns?).params[k]? = some (.ofParameter p use
        (roleAt (uses.map s.lengthPlace?) (returns?.bind s.lengthPlace?) k)) := by
  have hzip : (s.params.zip uses)[k]? = some (p, use) := List.getElem?_zip_eq_some.2 ⟨hp, huse⟩
  unfold CallShape.ofUses
  rw [List.getElem?_map, List.getElem?_zipIdx, hzip, Nat.zero_add]
  rfl

theorem ofUses_lengths {uses : List Use} {returns? : Option Use}
    (hlength : uses.length = s.params.length)
    : (CallShape.ofUses s uses returns?).params.map (s.lengthPlace? ·.use)
        = uses.map s.lengthPlace? := by
  unfold CallShape.ofUses
  rw [List.map_map]
  calc (s.params.zip uses).zipIdx.map _
    _ = (((s.params.zip uses).zipIdx.map Prod.fst).map Prod.snd).map s.lengthPlace? := by
      rw [List.map_map, List.map_map]
      rfl
    _ = uses.map s.lengthPlace? := by
      rw [List.zipIdx_map_fst, List.map_snd_zip (Nat.le_of_eq hlength)]

theorem shaped_of_ofSignature (h : CallShape.ofSignature t s = .ok c) : Shaped t s c := by
  unfold CallShape.ofSignature at h
  rcases Fault.bind_eq_ok.1 h with ⟨uses, huses, h⟩
  rcases Fault.bind_eq_ok.1 h with ⟨returns?, hreturns, h⟩
  rcases resolveParams_eq_ok huses with ⟨hlength, hplaces⟩
  obtain rfl : CallShape.ofUses s uses returns? = c := Except.ok.inj h
  refine ⟨?_, ?_, fun use => resolveReturn_eq_ok hreturns, rfl⟩
  . simp [CallShape.ofUses, hlength]
  . intro k p hp
    rcases hplaces k p hp with ⟨use, huse, hresolve⟩
    refine ⟨use, hresolve, ?_⟩
    rw [ofUses_params hp huse, ← ofUses_lengths hlength]
    rfl

namespace CallShape

/--
The parameter at place `i` is an array whose number of elements the one at place `k` holds.
-/
def Counts (c : CallShape) (s : Signature) (i k : Nat) : Prop :=
  ∃ a, c.params[i]? = some a ∧ s.lengthPlace? a.use = some k ∧ i ≠ k

end CallShape

namespace Shaped

variable {i k : Nat} {q : CallParam}

theorem source (h : Shaped t s c) (hq : c.params[k]? = some q)
    : ∃ p, s.params[k]? = some p ∧ t.resolve p.ctype = .ok q.use
        ∧ q = .ofParameter p q.use q.role := by
  have hk : k < s.params.length := by
    rw [← h.length]
    exact (List.getElem?_eq_some_iff.1 hq).1
  rcases h.param k _ (List.getElem?_eq_getElem hk) with ⟨use, huse, hparam⟩
  rw [hq, Option.some.injEq] at hparam
  subst hparam
  exact ⟨_, List.getElem?_eq_getElem hk, huse, rfl⟩

theorem role (h : Shaped t s c) (hq : c.params[k]? = some q)
    : q.role = roleAt (c.params.map (s.lengthPlace? ·.use)) c.returnLength? k := by
  rcases h.source hq with ⟨p, hp, _⟩
  rcases h.param k p hp with ⟨use, _, hparam⟩
  rw [hq, Option.some.injEq] at hparam
  rw [hparam]
  rfl

theorem exists_of_lengthPlace? (h : Shaped t s c) {use : Use} (hplace : s.lengthPlace? use = some k)
    : ∃ q, c.params[k]? = some q := by
  rcases Signature.lengthPlace?_eq_some hplace with ⟨p, hp, _⟩
  rcases h.param k p hp with ⟨_, _, hq⟩
  exact ⟨_, hq⟩

theorem role_eq_returnLength (h : Shaped t s c) (hq : c.params[k]? = some q)
    : q.role = .returnLength ↔ c.returnLength? = some k := by
  rw [h.role hq, roleAt_eq_returnLength]

theorem role_eq_lengthOf (h : Shaped t s c) (hq : c.params[k]? = some q)
    : q.role = .lengthOf i
        ↔
      c.returnLength? ≠ some k ∧ c.Counts s i k ∧ ∀ j, c.Counts s j k → j ≤ i := by
  rw [h.role hq, roleAt_eq_lengthOf]
  simp [CallShape.Counts]
  grind

theorem role_eq_value (h : Shaped t s c) (hq : c.params[k]? = some q)
    : q.role = .value ↔ c.returnLength? ≠ some k ∧ ∀ i, ¬ c.Counts s i k := by
  rw [h.role hq, roleAt_eq_value]
  simp [CallShape.Counts]

end Shaped

end Binding

end Interop
