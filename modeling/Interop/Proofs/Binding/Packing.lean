import Interop.Proofs.Binding.Layout
import Mathlib.Algebra.GroupWithZero.Nat

/-!
This module contains how packed fields share units. A plan fills one unit after the other: whatever
the mix of packed and other fields, no unit holds more bits than it has, and none is given up while
the next field is packed and still fits.
-/

namespace Interop.Binding

/--
The packing unit that the field is a member of.
-/
def FieldPlan.unit? (p : FieldPlan) : Option Nat :=
  match p.storage with
  | .bitfield unit _ => some unit
  | _ => none

/--
The packing unit that the field holds as its first member.
-/
def FieldPlan.opens? (p : FieldPlan) : Option Nat :=
  match p.storage with
  | .bitfield unit true => some unit
  | _ => none

/--
The bits that the field takes in its unit.
-/
def FieldPlan.width (p : FieldPlan) : Nat :=
  p.field.bits.getD 0

def opened (plans : List FieldPlan) : List Nat :=
  plans.filterMap (·.opens?)

/--
The bits that fields take together in a unit.
-/
def filled (plans : List FieldPlan) (unit : Nat) : Nat :=
  ((plans.filter (·.unit? = some unit)).map (·.width)).sum

/--
The units of a plan, where a unit consists of the fields that are its members.
-/
structure WellPacked (plans : List FieldPlan) : Prop where
  packed : ∀ p ∈ plans, p.unit?.isSome = p.field.bits.isSome
  /-- Units are opened in the order of their numbers, from one on and without gaps. -/
  numbered : opened plans = List.range' 1 (opened plans).length
  member : ∀ p ∈ plans, ∀ unit, p.unit? = some unit → unit ∈ opened plans
  capacity : ∀ unit, filled plans unit ≤ unitBits
  /-- Every field between two members of a unit is a member too. -/
  consecutive : ∀ (i k j : Nat) (p q : FieldPlan) (unit : Nat), i ≤ k → k ≤ j →
    plans[i]? = some p → plans[j]? = some q → p.unit? = some unit → q.unit? = some unit →
      ∃ r, plans[k]? = some r ∧ r.unit? = some unit
  /-- A member is marked as the first one if no field before it is a member of its unit. -/
  first : ∀ (k : Nat) (p : FieldPlan) (unit : Nat) (mark : Bool), plans[k]? = some p →
    p.storage = .bitfield unit mark →
      (mark = true ↔ ∀ q ∈ plans.take k, q.unit? ≠ some unit)
  /-- A member of a unit is followed by one that opens another unit only if that one is too wide. -/
  greedy : ∀ (k : Nat) (p q : FieldPlan) (last unit : Nat), plans[k]? = some p →
    plans[k + 1]? = some q → p.unit? = some last → q.storage = .bitfield unit true →
      unitBits < filled (plans.take (k + 1)) last + q.width

/--
How the field after those of `before` is packed.
-/
inductive Placed (before : List FieldPlan) (p : FieldPlan) : Prop where
  /-- A field that is not packed. -/
  | apart (hbits : p.field.bits = none) (hunit : p.unit? = none)
  /-- The first member of the next unit, for which the one before has not enough bits left. -/
  | opening (hbits : p.field.bits.isSome) (hwidth : p.width ≤ unitBits)
      (hstorage : p.storage = .bitfield ((opened before).length + 1) true)
      (hfull : ∀ q unit, before.getLast? = some q → q.unit? = some unit →
        unitBits < filled before unit + p.width)
  /-- Another member of the unit of the field before it. -/
  | joining {q : FieldPlan} {unit : Nat} (hbits : p.field.bits.isSome)
      (hlast : before.getLast? = some q) (hunit : q.unit? = some unit)
      (hstorage : p.storage = .bitfield unit false)
      (hfits : filled before unit + p.width ≤ unitBits)

section Units

variable {before : List FieldPlan} {p q : FieldPlan} {unit : Nat}

theorem unit?_of_storage {mark : Bool} (h : p.storage = .bitfield unit mark)
    : p.unit? = some unit := by
  unfold FieldPlan.unit?
  rw [h]

theorem opens?_of_storage {mark : Bool} (h : p.storage = .bitfield unit mark)
    : p.opens? = if mark then some unit else none := by
  unfold FieldPlan.opens?
  rw [h]
  cases mark <;> rfl

theorem opens?_of_unit? (h : p.unit? = none) : p.opens? = none := by
  unfold FieldPlan.unit? FieldPlan.opens? at *
  grind

theorem width_of_bits {bits : Nat} (h : p.field.bits = some bits) : p.width = bits := by
  unfold FieldPlan.width
  rw [h]
  rfl

theorem opened_append : opened (before ++ [p]) = opened before ++ p.opens?.toList := by
  unfold opened
  rw [List.filterMap_append]
  cases h : p.opens? <;> simp [h]

theorem filled_append
    : filled (before ++ [p]) unit
        = filled before unit + if p.unit? = some unit then p.width else 0 := by
  unfold filled
  rw [List.filter_append, List.map_append, List.sum_append]
  by_cases h : p.unit? = some unit <;> simp [h]

theorem filled_eq_zero (h : ∀ q ∈ before, q.unit? ≠ some unit) : filled before unit = 0 := by
  unfold filled
  rw [List.filter_eq_nil_iff.2 (by simpa using h)]
  rfl

theorem getElem?_append_singleton {k : Nat} (h : (before ++ [p])[k]? = some q)
    : before[k]? = some q ∨ k = before.length ∧ q = p := by
  grind

theorem take_append_singleton {k : Nat} (h : before[k]? = some q)
    : (before ++ [p]).take k = before.take k := by
  have hk := (List.getElem?_eq_some_iff.1 h).1
  exact List.take_append_of_le_length (Nat.le_of_lt hk)

theorem WellPacked.le_of_unit? (h : WellPacked before) (hq : q ∈ before)
    (hunit : q.unit? = some unit) : unit ≤ (opened before).length := by
  have hmem := h.member q hq unit hunit
  rw [h.numbered, List.mem_range'_1] at hmem
  omega

theorem WellPacked.fresh (h : WellPacked before)
    : ∀ q ∈ before, q.unit? ≠ some ((opened before).length + 1) := by
  intro q hq hunit
  have := h.le_of_unit? hq hunit
  omega

theorem Placed.packed (hp : Placed before p) : p.unit?.isSome = p.field.bits.isSome := by
  cases hp with
  | apart hbits hunit => rw [hbits, hunit]
  | opening hbits _ hstorage | joining hbits _ _ hstorage =>
    rw [unit?_of_storage hstorage, hbits]
    rfl

theorem Placed.numbered (hp : Placed before p) (h : WellPacked before)
    : opened (before ++ [p]) = List.range' 1 (opened (before ++ [p])).length := by
  rw [opened_append]
  cases hp with
  | apart _ hunit =>
    rw [opens?_of_unit? hunit, Option.toList_none, List.append_nil]
    exact h.numbered
  | joining _ _ _ hstorage =>
    rw [opens?_of_storage hstorage, if_neg (by simp), Option.toList_none, List.append_nil]
    exact h.numbered
  | opening _ _ hstorage =>
    rw [opens?_of_storage hstorage, if_pos rfl, Option.toList_some, List.length_append,
      List.length_singleton, List.range'_1_concat, ← h.numbered, Nat.add_comm 1]

theorem Placed.member (hp : Placed before p) (h : WellPacked before) (hunit : p.unit? = some unit)
    : unit ∈ opened (before ++ [p]) := by
  rw [opened_append, List.mem_append]
  cases hp with
  | apart _ hnone => simp [hnone] at hunit
  | joining _ hlast hq hstorage =>
    rw [unit?_of_storage hstorage] at hunit
    exact .inl (h.member _ (List.mem_of_getLast? hlast) _ (hq.trans hunit))
  | opening _ _ hstorage =>
    rw [unit?_of_storage hstorage] at hunit
    rw [opens?_of_storage hstorage, if_pos rfl, hunit]
    exact .inr (by simp)

theorem Placed.capacity (hp : Placed before p) (h : WellPacked before) (unit : Nat)
    : filled (before ++ [p]) unit ≤ unitBits := by
  rw [filled_append]
  split
  . next hunit =>
    cases hp with
    | apart _ hnone => simp [hnone] at hunit
    | joining _ _ _ hstorage hfits =>
      rw [unit?_of_storage hstorage] at hunit
      rwa [← Option.some.inj hunit]
    | opening _ hwidth hstorage =>
      rw [unit?_of_storage hstorage] at hunit
      rwa [← Option.some.inj hunit, filled_eq_zero h.fresh, Nat.zero_add]
  . exact h.capacity unit

-- Only the field before the last one tells whether the unit of that one goes on.
theorem Placed.consecutive (hp : Placed before p) (h : WellPacked before) {i k : Nat}
    (hi : before[i]? = some q) (hik : i ≤ k) (hk : k < before.length)
    (hq : q.unit? = some unit) (hunit : p.unit? = some unit)
    : ∃ r, before[k]? = some r ∧ r.unit? = some unit := by
  cases hp with
  | apart _ hnone => simp [hnone] at hunit
  | opening _ _ hstorage =>
    rw [unit?_of_storage hstorage] at hunit
    rw [← hunit] at hq
    exact absurd hq (h.fresh q (List.mem_of_getElem? hi))
  | joining _ hlast hlastUnit hstorage =>
    rw [unit?_of_storage hstorage] at hunit
    rw [List.getLast?_eq_getElem?] at hlast
    exact h.consecutive i k _ q _ unit hik (by omega) hi hlast hq (hlastUnit.trans hunit)

theorem Placed.first (hp : Placed before p) (h : WellPacked before) {mark : Bool}
    (hstorage : p.storage = .bitfield unit mark)
    : mark = true ↔ ∀ q ∈ before, q.unit? ≠ some unit := by
  have hunit := unit?_of_storage hstorage
  cases hp with
  | apart _ hnone => simp [hnone] at hunit
  | opening _ _ hopening =>
    rw [hstorage] at hopening
    cases hopening
    exact ⟨fun _ => h.fresh, fun _ => rfl⟩
  | joining _ hlast hq hjoining =>
    rw [hstorage] at hjoining
    cases hjoining
    refine ⟨by simp, ?_⟩
    intro hnew
    exact absurd hq (hnew _ (List.mem_of_getLast? hlast))

theorem Placed.greedy (hp : Placed before p) (hlast : before.getLast? = some q) {last : Nat}
    (hq : q.unit? = some last) (hstorage : p.storage = .bitfield unit true)
    : unitBits < filled before last + p.width := by
  cases hp with
  | apart _ hnone => simp [unit?_of_storage hstorage] at hnone
  | opening _ _ _ hfull => exact hfull q last hlast hq
  | joining _ _ _ hjoining => simp [hstorage] at hjoining

theorem WellPacked.append (h : WellPacked before) (hp : Placed before p)
    : WellPacked (before ++ [p]) where
  packed := by
    rw [List.forall_mem_append, List.forall_mem_singleton]
    exact ⟨h.packed, hp.packed⟩
  numbered := hp.numbered h
  member := by
    rw [List.forall_mem_append, List.forall_mem_singleton]
    refine ⟨?_, fun _ hunit => hp.member h hunit⟩
    intro q hq unit hunit
    rw [opened_append]
    exact List.mem_append_left _ (h.member q hq unit hunit)
  capacity := hp.capacity h
  consecutive := by
    intro i k j q r unit hik hkj hi hj hq hr
    have hlength := (List.getElem?_eq_some_iff.1 hj).1
    rw [List.length_append, List.length_singleton] at hlength
    by_cases hk : k < before.length
    . rw [List.getElem?_append_left hk]
      rw [List.getElem?_append_left (by omega)] at hi
      rcases getElem?_append_singleton hj with hj | ⟨_, rfl⟩
      . exact h.consecutive i k j q r unit hik hkj hi hj hq hr
      . exact hp.consecutive h hi hik hk hq hr
    . obtain rfl : k = j := by omega
      exact ⟨r, hj, hr⟩
  first := by
    intro k q unit mark hk hstorage
    rcases getElem?_append_singleton hk with hk | ⟨rfl, rfl⟩
    . rw [take_append_singleton hk]
      exact h.first k q unit mark hk hstorage
    . rw [List.take_left]
      exact hp.first h hstorage
  greedy := by
    intro k q r last unit hk hk' hq hstorage
    rcases getElem?_append_singleton hk' with hk' | ⟨hlength, rfl⟩
    . have hlt := (List.getElem?_eq_some_iff.1 hk').1
      rw [List.getElem?_append_left (by omega)] at hk
      rw [take_append_singleton hk']
      exact h.greedy k q r last unit hk hk' hq hstorage
    . rw [List.getElem?_append_left (by omega)] at hk
      rw [hlength, List.take_left]
      refine hp.greedy ?_ hq hstorage
      rw [List.getLast?_eq_getElem?, ← hlength]
      exact hk

end Units

/--
What is known of the fields planned so far from the unit that is being filled.
-/
structure Filling (before : List FieldPlan) (packing : Packing) : Prop where
  counted : packing.unit = (opened before).length
  used : ∀ used, packing.used? = some used → filled before packing.unit = used
    ∧ ∃ q, before.getLast? = some q ∧ q.unit? = some packing.unit
  free : packing.used? = none → ∀ q, before.getLast? = some q → q.unit? = none

section Fields

variable {before : List FieldPlan} {packing : Packing} {f : Field} {bits : Nat}

theorem Filling.apart (h : Filling before packing) (hbits : f.bits = none) (use : Use)
    : let p : FieldPlan := ⟨f, use, .ofUse f use⟩
      Placed before p ∧ Filling (before ++ [p]) ⟨packing.unit, none⟩ := by
  intro p
  have hunit : p.unit? = none := by
    unfold FieldPlan.unit?
    split
    . next hstorage => exact absurd hstorage (ofUse_ne_bitfield f use)
    . rfl
  refine ⟨.apart hbits hunit, ?_, ?_, ?_⟩
  . rw [opened_append, opens?_of_unit? hunit, Option.toList_none, List.append_nil]
    exact h.counted
  . rintro used ⟨⟩
  . intro _ q hlast
    rw [List.getLast?_concat] at hlast
    rwa [← Option.some.inj hlast]

theorem Filling.opening (h : Filling before packing) (hw : WellPacked before)
    (hbits : f.bits = some bits) (hwidth : bits ≤ unitBits) (use : Use)
    (hfull : ∀ used, packing.used? = some used → unitBits < used + bits)
    : let p : FieldPlan := ⟨f, use, .bitfield (packing.unit + 1) true⟩
      Placed before p ∧ Filling (before ++ [p]) ⟨packing.unit + 1, some bits⟩ := by
  intro p
  have hp : p.width = bits := width_of_bits hbits
  have hstorage : p.storage = .bitfield ((opened before).length + 1) true := by
    rw [← h.counted]
  refine ⟨.opening (by simp [p, hbits]) (by rwa [hp]) hstorage ?_, ?_, ?_, ?_⟩
  . intro q unit hlast hunit
    cases hused : packing.used? with
    | none => simp [h.free hused q hlast] at hunit
    | some used =>
      rcases h.used used hused with ⟨hfilled, q', hlast', hunit'⟩
      obtain rfl : q' = q := by simpa [hlast'] using hlast
      obtain rfl : packing.unit = unit := by simpa [hunit'] using hunit
      rw [hfilled, hp]
      exact hfull used hused
  . rw [opened_append, opens?_of_storage hstorage, h.counted]
    simp
  . rintro used ⟨⟩
    rw [filled_append, unit?_of_storage hstorage, h.counted, if_pos rfl, hp,
      filled_eq_zero hw.fresh, Nat.zero_add]
    exact ⟨rfl, p, List.getLast?_concat, unit?_of_storage hstorage⟩
  . intro hused
    cases hused

theorem Filling.joining (h : Filling before packing) (hbits : f.bits = some bits) (use : Use)
    {used : Nat} (hused : packing.used? = some used) (hfits : used + bits ≤ unitBits)
    : let p : FieldPlan := ⟨f, use, .bitfield packing.unit false⟩
      Placed before p ∧ Filling (before ++ [p]) ⟨packing.unit, some (used + bits)⟩ := by
  intro p
  have hp : p.width = bits := width_of_bits hbits
  have hstorage : p.storage = .bitfield packing.unit false := rfl
  rcases h.used used hused with ⟨hfilled, q, hlast, hunit⟩
  refine ⟨.joining (by simp [p, hbits]) hlast hunit hstorage (by rwa [hfilled, hp]), ?_, ?_, ?_⟩
  . rw [opened_append, opens?_of_storage hstorage, h.counted]
    simp
  . rintro _ ⟨⟩
    rw [filled_append, unit?_of_storage hstorage, if_pos rfl, hp, hfilled]
    exact ⟨rfl, p, List.getLast?_concat, unit?_of_storage hstorage⟩
  . intro hnone
    cases hnone

theorem place_placed (h : Filling before packing) (hw : WellPacked before)
    (hbits : f.bits = some bits) (hwidth : bits ≤ unitBits) (use : Use)
    : Placed before ⟨f, use, (packing.place bits).1⟩
      ∧ Filling (before ++ [⟨f, use, (packing.place bits).1⟩]) (packing.place bits).2 := by
  unfold Packing.place
  split
  . next used hused =>
    split
    . next hfits => exact h.joining hbits use hused hfits
    . next hfull =>
      apply h.opening hw hbits hwidth use
      intro used' hused'
      obtain rfl : used = used' := by simpa [hused] using hused'
      omega
  . next hnone =>
    apply h.opening hw hbits hwidth use
    intro used hused
    simp [hnone] at hused

-- The induction is along the fields: the unit being filled stands for all that came before.
theorem planFields_wellPacked (h : Filling before packing) (hw : WellPacked before)
    (fields : List (Field × Use))
    (hwidths : ∀ field ∈ fields, ∀ bits, field.1.bits = some bits → bits ≤ unitBits)
    : WellPacked (before ++ planFields packing fields) := by
  induction fields generalizing before packing with
  | nil =>
    rw [planFields, List.append_nil]
    exact hw
  | cons field rest ih =>
    rcases field with ⟨f, use⟩
    rw [List.forall_mem_cons] at hwidths
    rcases hwidths with ⟨hwidth, hwidths⟩
    cases hbits : f.bits with
    | none =>
      rcases h.apart hbits use with ⟨hplaced, hnext⟩
      simp only [planFields, hbits]
      rw [← List.singleton_append, ← List.append_assoc]
      exact ih hnext (hw.append hplaced) hwidths
    | some bits =>
      rcases place_placed h hw hbits (hwidth bits hbits) use with ⟨hplaced, hnext⟩
      simp only [planFields, hbits]
      rw [← List.singleton_append, ← List.append_assoc]
      exact ih hnext (hw.append hplaced) hwidths

end Fields

theorem wellPacked_nil : WellPacked [] where
  packed := by simp
  numbered := rfl
  member := by simp
  capacity _ := Nat.zero_le _
  consecutive := by simp
  first := by simp
  greedy := by simp

theorem filling_nil : Filling [] ⟨0, none⟩ where
  counted := rfl
  used := by simp
  free := by simp

/--
A structure whose field types are known, and whose packed fields are no wider than a unit, has a
plan of all its fields in order, and the units of this plan are well packed.
-/
theorem plan_wellPacked {t : Table} {s : StructType} (hknown : t.Knows (s.fields.map (·.ctype)))
    (hwidths : ∀ f ∈ s.fields, ∀ bits, f.bits = some bits → bits ≤ unitBits)
    : ∃ plans, plan t s = .ok plans ∧ plans.map (·.field) = s.fields ∧ WellPacked plans := by
  rcases resolveFields_ok s hknown with ⟨fields, hfields⟩
  have hplan : plan t s = .ok (planFields ⟨0, none⟩ fields) := by
    unfold plan
    rw [hfields]
    rfl
  refine ⟨_, hplan, (plan_laid hplan).1, ?_⟩
  rw [← (resolveFields_eq_ok hfields).1, List.forall_mem_map] at hwidths
  exact planFields_wellPacked filling_nil wellPacked_nil fields hwidths

/--
A structure with three packed fields of which the first two fill a unit, and a further one after a
field that is not packed.
-/
def flags : StructType where
  identity := ⟨"DemoFlags", "Flags", "Demo", "libdemo"⟩
  fields :=
    [⟨"kind", "guint", some 20, false⟩, ⟨"state", "guint", some 12, false⟩,
     ⟨"mark", "guint", some 1, true⟩, ⟨"count", "guint", none, false⟩,
     ⟨"rest", "guint", some 5, false⟩]
  abiCheck := false

theorem plan_wellPacked_flags
    : Table.builtin.Knows (flags.fields.map (·.ctype))
        ∧ (∀ f ∈ flags.fields, ∀ bits, f.bits = some bits → bits ≤ unitBits)
        ∧ ∃ plans, plan .builtin flags = .ok plans ∧ WellPacked plans
            ∧ plans.map (·.storage)
                = [.bitfield 1 true, .bitfield 1 false, .bitfield 2 true, .plain,
                   .bitfield 3 true] := by
  have hknown : Table.builtin.Knows (flags.fields.map (·.ctype)) := by
    unfold Table.Knows
    simp only [← Option.isSome_iff_exists]
    decide +kernel
  have hwidths : ∀ f ∈ flags.fields, ∀ bits, f.bits = some bits → bits ≤ unitBits := by
    simp [flags, unitBits]
  have hstorages : (plan .builtin flags).toOption.map (·.map (·.storage))
      = some [.bitfield 1 true, .bitfield 1 false, .bitfield 2 true, .plain,
              .bitfield 3 true] := by
    decide +kernel
  rcases plan_wellPacked hknown hwidths with ⟨plans, hplans, _, hpacked⟩
  rw [hplans] at hstorages
  exact ⟨hknown, hwidths, plans, hplans, hpacked, Option.some.inj hstorages⟩

end Interop.Binding
