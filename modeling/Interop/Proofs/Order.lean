import Interop.Proofs.Dispatch.Registered
import Interop.Proofs.Locality
import Interop.Proofs.Validation.Session

/-!
This module contains what the order decides in which types are declared. Neither verdicts nor
sources depend on it, and mappers only in the order in which they register objects of equal depth.
-/

namespace Interop

open Validation

variable {t t' : Table} {ds ds' : List Descriptor}

theorem objects_perm (h : ds.Perm ds') : (objects ds).Perm (objects ds') :=
  h.filterMap _

theorem mapperSpaces_perm (h : ds.Perm ds') : (mapperSpaces ds).Perm (mapperSpaces ds') := by
  unfold mapperSpaces
  exact ((objects_perm h).map _).dedup

theorem Mapper.nameSpaces_sorted (tables : List DispatchTable)
    : (Mapper.nameSpaces tables).Pairwise fun a b => decide (a ≤ b) = true := by
  apply List.pairwise_mergeSort
  . intro a b c hab hbc
    exact decide_eq_true (String.le_trans (of_decide_eq_true hab) (of_decide_eq_true hbc))
  . intro a b
    rw [Bool.or_eq_true, decide_eq_true_eq, decide_eq_true_eq]
    exact String.le_total a b

theorem nameSpaces_of_perm (h : ds.Perm ds')
    : Mapper.nameSpaces (t'.dispatchTables ds') = Mapper.nameSpaces (t.dispatchTables ds) := by
  have hperm : (Mapper.nameSpaces (t'.dispatchTables ds')).Perm
      (Mapper.nameSpaces (t.dispatchTables ds)) :=
    nameSpaces_perm.trans ((mapperSpaces_perm h).symm.trans nameSpaces_perm.symm)
  apply hperm.eq_of_pairwise _ (Mapper.nameSpaces_sorted _) (Mapper.nameSpaces_sorted _)
  intro a b _ _ hab hba
  exact String.le_antisymm (of_decide_eq_true hab) (of_decide_eq_true hba)

namespace Table

/--
Two sources that register the same objects, each with the same slots, in an order of their own.
-/
def Reordered (t : Table) (file file' : Binding.ManagedFile) : Prop :=
  file'.name = file.name ∧ ∃ nameSpace os os',
    file = t.registering nameSpace os ∧ file' = t.registering nameSpace os' ∧ os.Perm os'

theorem Alike.registering {nameSpace : String} {os : List ObjectType} (h : t.Alike t')
    : t'.registering nameSpace os = t.registering nameSpace os := by
  rw [← source_dispatchTables, ← source_dispatchTables, funext h.dispatchTable]

theorem Alike.mappers_reordered (h : t.Alike t') (hperm : ds.Perm ds')
    : List.Forall₂ t.Reordered (t.mappers ds) (t'.mappers ds') := by
  rw [mappers_eq, mappers_eq, nameSpaces_of_perm hperm, List.forall₂_map_left_iff,
    List.forall₂_map_right_iff, List.forall₂_same]
  intro n _
  have hobjects : (objectsOf ds n).Perm (objectsOf ds' n) := (objects_perm hperm).filter _
  exact ⟨rfl, n, t.registered ds n, t'.registered ds' n, rfl, h.registering,
    registered_perm.trans (hobjects.trans registered_perm.symm)⟩

theorem Alike.passes_iff {d : Descriptor} (h : t.Alike t') (hd : t.find? d.cname = some d)
    : t'.Valid d.cname ↔ t.Valid d.cname := by
  have hd' : t'.find? d.cname = some d := (h d.cname).trans hd
  have hvoid : t'.voidLength? = t.voidLength? := by
    unfold voidLength?
    rw [h "void"]
  rw [← Knowledge.faithful_initial.check_fst hd, ← Knowledge.faithful_initial.check_fst hd',
    check_fst_eq_none, check_fst_eq_none, walk_agree (h.agree d.cname) hd hvoid]

/--
What becomes of the types of `ds` over `t`, in comparison with the same types as `ds'` over `t'`.
Verdicts are the same whatever was checked before.
-/
structure Interchangeable (t t' : Table) (gluelib : String) (ds ds' : List Descriptor)
    : Prop where
  verdict : ∀ d ∈ ds, ∀ asked asked' : List Descriptor, asked ⊆ ds → asked' ⊆ ds →
    ((check t' (partition t' .initial asked').2 d).1 = none
      ↔ (check t (partition t .initial asked).2 d).1 = none)
  error : ∀ d ∈ ds,
    (check t' .initial d).1.map (·.bare) = (check t .initial d).1.map (·.bare)
  bound : ∀ d ∈ ds, bind t' gluelib d = bind t gluelib d
  dispatched : ∀ o, .object o ∈ ds → t'.dispatchTable o = t.dispatchTable o
  mapped : List.Forall₂ t.Reordered (t.mappers ds) (t'.mappers ds')

theorem Alike.interchangeable (gluelib : String) (h : t.Alike t') (hperm : ds.Perm ds')
    (hds : ∀ d ∈ ds, t.find? d.cname = some d) : t.Interchangeable t' gluelib ds ds' where
  verdict d hd asked asked' hasked hasked' := by
    have hds' : ∀ d ∈ ds, t'.find? d.cname = some d := fun d hd => (h d.cname).trans (hds d hd)
    have hk := (Knowledge.faithful_initial.partition fun a ha => hds a (hasked ha)).2.2
    have hk' := (Knowledge.faithful_initial.partition fun a ha => hds' a (hasked' ha)).2.2
    rw [hk.check_fst (hds d hd), hk'.check_fst (hds' d hd), h.passes_iff (hds d hd)]
  error d hd := by
    refine ((h.agree d.cname).same gluelib (hds d hd)).verdict ?_
    unfold voidLength?
    rw [h "void"]
  bound d _ := h.bind gluelib d
  dispatched o _ := h.dispatchTable o
  mapped := h.mappers_reordered hperm

/--
Declarations can be registered in one order if they can be in any other. Then every one of them gets
the same verdict, source and slots, and mappers register the same objects.
-/
theorem registered_in_any_order (gluelib : String) (ds ds' : List Descriptor)
    (hperm : ds.Perm ds')
    : (∃ name name', (builtin.registerAll ds).2 = some (.duplicate name)
          ∧ (builtin.registerAll ds').2 = some (.duplicate name'))
        ∨ (builtin.registerAll ds).2 = none ∧ (builtin.registerAll ds').2 = none
          ∧ (builtin.registerAll ds).1.Interchangeable (builtin.registerAll ds').1 gluelib
              ds ds' := by
  have hiff : (builtin.registerAll ds').2 = none ↔ (builtin.registerAll ds).2 = none := by
    rw [registerAll_eq_none_iff, registerAll_eq_none_iff]
    apply consistent_congr
    intro d
    rw [List.mem_append, List.mem_append, hperm.mem_iff]
  cases hregister : (builtin.registerAll ds).2 with
  | none =>
    have hregister' := hiff.2 hregister
    refine .inr ⟨rfl, hregister', ?_⟩
    apply (alike_of_registerAll (fun _ => hperm.mem_iff.symm) hregister hregister').interchangeable
      gluelib hperm
    intro d hd
    apply find?_of_mem
    rw [registerAll_ok (Prod.ext rfl hregister)]
    exact .inr hd
  | some e =>
    cases hregister' : (builtin.registerAll ds').2 with
    | none =>
      rw [hiff.1 hregister'] at hregister
      cases hregister
    | some e' =>
      rcases registerAll_error hregister with ⟨name, rfl⟩
      rcases registerAll_error hregister' with ⟨name', rfl⟩
      exact .inl ⟨name, name', rfl, rfl⟩

theorem registered_in_any_order_button
    : buttonTable.entries.Perm buttonTable.entries.reverse
        ∧ (builtin.registerAll buttonTable.entries).2 = none
        ∧ (builtin.registerAll buttonTable.entries).1.Interchangeable
            (builtin.registerAll buttonTable.entries.reverse).1 "demoglue"
            buttonTable.entries buttonTable.entries.reverse := by
  have hperm : buttonTable.entries.Perm buttonTable.entries.reverse :=
    (List.reverse_perm _).symm
  have hregister : (builtin.registerAll buttonTable.entries).2 = none := by decide +kernel
  rcases registered_in_any_order "demoglue" _ _ hperm with ⟨_, _, hfails, _⟩ | ⟨_, _, hsame⟩
  . rw [hregister] at hfails
    cases hfails
  . exact ⟨hperm, hregister, hsame⟩

end Table

end Interop
