import Interop.Proofs.Binding.Agreement
import Interop.Proofs.Run.Loading

/-!
This module contains what the order of declarations does to a table: nothing that a look-up shows.
Declarations can be registered if no two of them give one name two meanings, in whatever order they
come, and tables with the same types answer alike.
-/

namespace Interop

/--
No name is declared with two meanings.
-/
def Consistent (ds : List Descriptor) : Prop :=
  ∀ d ∈ ds, ∀ e ∈ ds, d.cname = e.cname → d = e

theorem Consistent.mono {ds ds' : List Descriptor} (h : Consistent ds) (hsub : ds' ⊆ ds)
    : Consistent ds' :=
  fun d hd e he => h d (hsub hd) e (hsub he)

theorem consistent_congr {ds ds' : List Descriptor} (h : ∀ d, d ∈ ds' ↔ d ∈ ds)
    : Consistent ds' ↔ Consistent ds := by
  unfold Consistent
  simp only [h]

namespace Table

variable {t t' : Table} {d : Descriptor} {ds : List Descriptor}

theorem consistent (t : Table) : Consistent t.entries :=
  fun _ hd _ he hname => List.inj_on_of_nodup_map t.nodup hd he hname

theorem register_error {e : SymbolError} (h : t.register d = .error e)
    : e = .duplicate d.cname ∧ ∃ old ∈ t.entries, old.cname = d.cname ∧ old ≠ d := by
  cases hfind : t.find? d.cname with
  | none =>
    rcases register_of_none hfind with ⟨_, hregister, _⟩
    cases hregister.symm.trans h
  | some old =>
    by_cases hsame : old = d
    . cases (register_of_same (hsame ▸ hfind)).symm.trans h
    . have herror := Except.error.inj ((register_of_other hfind hsame).symm.trans h)
      exact ⟨herror.symm, old, mem_of_find? hfind, cname_of_find? hfind, hsame⟩

theorem registerAll_cons : t.registerAll (d :: ds)
    = match t.register d with
      | .ok t => t.registerAll ds
      | .error e => (t, some e) := by
  rfl

/--
What is refused is a name with two meanings.
-/
theorem registerAll_error {e : SymbolError} (h : (t.registerAll ds).2 = some e)
    : ∃ name, e = .duplicate name := by
  induction ds generalizing t with
  | nil => cases h
  | cons d ds ih =>
    rw [registerAll_cons] at h
    split at h
    . exact ih h
    . next hregister =>
      rw [← Option.some.inj h]
      exact ⟨d.cname, (register_error hregister).1⟩

theorem registerAll_eq_none_iff
    : (t.registerAll ds).2 = none ↔ Consistent (t.entries ++ ds) := by
  induction ds generalizing t with
  | nil =>
    rw [List.append_nil]
    exact ⟨fun _ => t.consistent, fun _ => rfl⟩
  | cons d ds ih =>
    rw [registerAll_cons]
    split
    . next t₁ hregister =>
      rw [ih]
      apply consistent_congr
      intro e
      simp only [List.mem_append, List.mem_cons, register_ok hregister, or_assoc]
    . next e hregister =>
      rcases register_error hregister with ⟨_, old, hold, hname, hne⟩
      simp only [reduceCtorEq, false_iff]
      intro hconsistent
      exact hne (hconsistent old (by simp [hold]) d (by simp) hname)

/--
Both tables give the same answer for every name.
-/
def Alike (t t' : Table) : Prop :=
  ∀ name, t'.find? name = t.find? name

/--
Tables with the same types answer alike, whatever the order of the types.
-/
theorem alike_of_mem_iff (h : ∀ e, e ∈ t'.entries ↔ e ∈ t.entries) : t.Alike t' := by
  intro name
  cases hfind : t.find? name with
  | none =>
    rw [find?_eq_none] at hfind ⊢
    simpa only [List.mem_map, h] using hfind
  | some d =>
    rw [← cname_of_find? hfind]
    exact find?_of_mem ((h d).2 (mem_of_find? hfind))

theorem alike_of_registerAll {ds' : List Descriptor} (h : ∀ d, d ∈ ds' ↔ d ∈ ds)
    (hds : (t.registerAll ds).2 = none) (hds' : (t.registerAll ds').2 = none)
    : (t.registerAll ds).1.Alike (t.registerAll ds').1 := by
  apply alike_of_mem_iff
  intro e
  rw [registerAll_ok (Prod.ext rfl hds), registerAll_ok (Prod.ext rfl hds'), h]

namespace Alike

variable (h : t.Alike t')

include h

theorem agree (name : String) : t.Agree t' name :=
  fun n _ => h n

theorem agreeOn (refs : List String) : t.AgreeOn t' refs :=
  fun ref _ => h.agree (Reference.core ref)

theorem bind (gluelib : String) (d : Descriptor) : bind t' gluelib d = bind t gluelib d :=
  (h.agreeOn d.dependencies).bind gluelib

theorem lineage (o : ObjectType) : t'.lineage o = t.lineage o :=
  (h.agreeOn o.parent?.toList).climb _ _

theorem dispatchTable (o : ObjectType) : t'.dispatchTable o = t.dispatchTable o := by
  unfold Table.dispatchTable
  rw [h.lineage]

end Alike

end Table

end Interop
