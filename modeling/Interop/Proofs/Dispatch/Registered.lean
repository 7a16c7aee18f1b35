import Interop.Proofs.Dispatch.Slots

/-!
This module contains which objects a mapper registers, and in which order: those of its namespace,
the ones with few ancestors before the ones with many. So no object is registered before one that it
derives from.
-/

namespace Interop

open Relation

theorem filter_eq_of_sublist {l l' : List α} {holds : α → Bool} (hperm : l'.Perm l)
    (h : (l.filter holds).Sublist l') : l'.filter holds = l.filter holds := by
  have hsublist : (l.filter holds).Sublist (l'.filter holds) := by
    have hfiltered := h.filter holds
    rwa [List.filter_filter, List.filter_congr fun a _ => Bool.and_self (holds a)] at hfiltered
  exact (hsublist.eq_of_length (hperm.filter holds).length_eq.symm).symm

namespace Table

variable {t : Table} {ds : List Descriptor} {nameSpace : String}

/--
The line that registers an object: its native name, a function that makes the managed object, and
the names of the slots of its dispatch table.
-/
def registerLine (t : Table) (o : ObjectType) : String :=
  "\t\t\tGapi.Runtime.ObjectManager.Register (\"" ++ o.identity.cname ++ "\", raw => new "
    ++ o.identity.qualified ++ " (raw), new string[] \x7b "
    ++ String.intercalate ", " ((t.dispatchTable o).slots.map fun s => "\"" ++ s.name ++ "\"")
    ++ " \x7d);"

/--
The source that registers these objects in this order, each with a line of its own.
-/
def registering (t : Table) (nameSpace : String) (os : List ObjectType) : Binding.ManagedFile where
  name := qualify nameSpace "ObjectMapper"
  source := Source.text
    (["// This file was generated by gapigen.",
      "// Any changes made will be lost if regenerated.",
      "",
      "namespace " ++ nameSpace ++ " \x7b",
      "",
      "\tusing System;",
      "",
      "\tinternal static class ObjectMapper \x7b",
      "",
      "\t\tinternal static void Register ()",
      "\t\t\x7b"]
      ++ os.map t.registerLine
      ++ ["\t\t\x7d", "\t\x7d", "\x7d"])

def objectsOf (ds : List Descriptor) (nameSpace : String) : List ObjectType :=
  (objects ds).filter (·.identity.nameSpace = nameSpace)

def noDeeper (t : Table) (a b : ObjectType) : Bool :=
  (t.dispatchTable a).depth ≤ (t.dispatchTable b).depth

def atDepth (t : Table) (depth : Nat) (os : List ObjectType) : List ObjectType :=
  os.filter fun o => (t.dispatchTable o).depth = depth

def registered (t : Table) (ds : List Descriptor) (nameSpace : String) : List ObjectType :=
  ((objects ds).mergeSort t.noDeeper).filter (·.identity.nameSpace = nameSpace)

theorem noDeeper_trans (a b c : ObjectType) (hab : t.noDeeper a b = true)
    (hbc : t.noDeeper b c = true) : t.noDeeper a c = true := by
  simp only [noDeeper, decide_eq_true_eq] at hab hbc ⊢
  exact hab.trans hbc

theorem noDeeper_total (a b : ObjectType) : (t.noDeeper a b || t.noDeeper b a) = true := by
  simp only [noDeeper, Bool.or_eq_true, decide_eq_true_eq]
  exact Nat.le_total _ _

theorem dispatchTables_eq
    : t.dispatchTables ds = ((objects ds).mergeSort t.noDeeper).map t.dispatchTable := by
  have hsort := List.map_mergeSort (r := t.noDeeper) (s := fun a b => a.depth ≤ b.depth)
    (f := t.dispatchTable) (l := objects ds) fun _ _ _ _ => rfl
  exact hsort.symm

theorem registration_dispatchTable (o : ObjectType)
    : "\t\t\t" ++ Mapper.registration (t.dispatchTable o) = t.registerLine o := by
  unfold Mapper.registration registerLine Source.commaSeparated Source.runtime Source.opening
    Source.closing dispatchTable
  rw [← String.toList_inj]
  simp

theorem source_dispatchTables (nameSpace : String) (os : List ObjectType)
    : Mapper.source nameSpace (os.map t.dispatchTable) = t.registering nameSpace os := by
  have hopening : Source.openNamespace nameSpace
      = ["namespace " ++ nameSpace ++ " \x7b", "", "\tusing System;"] := by
    unfold Source.openNamespace Source.opening
    rw [String.append_assoc]
    rfl
  unfold Mapper.source Mapper.lines registering
  rw [List.map_map, hopening]
  simp only [Function.comp_def, registration_dispatchTable]
  rfl

theorem mappers_eq
    : t.mappers ds
        = (Mapper.nameSpaces (t.dispatchTables ds)).map
            fun n => t.registering n (t.registered ds n) := by
  unfold mappers registered
  dsimp only
  apply List.map_congr_left
  intro n _
  rw [dispatchTables_eq, List.filter_map, source_dispatchTables]
  rfl

theorem registered_perm : (t.registered ds nameSpace).Perm (objectsOf ds nameSpace) :=
  (List.mergeSort_perm _ _).filter _

theorem registered_sorted : (t.registered ds nameSpace).Pairwise (t.noDeeper · ·) := by
  have hsorted : ((objects ds).mergeSort t.noDeeper).Pairwise (t.noDeeper · ·) :=
    List.pairwise_mergeSort noDeeper_trans noDeeper_total _
  exact hsorted.filter _

/--
Objects of the same depth stay in the order of the list.
-/
theorem registered_stable (depth : Nat)
    : t.atDepth depth (t.registered ds nameSpace) = t.atDepth depth (objectsOf ds nameSpace) := by
  have hlevel : t.atDepth depth ((objects ds).mergeSort t.noDeeper)
      = t.atDepth depth (objects ds) := by
    apply filter_eq_of_sublist (List.mergeSort_perm _ _)
    apply List.sublist_mergeSort noDeeper_trans noDeeper_total _ List.filter_sublist
    apply List.pairwise_of_forall_mem_list
    intro a ha b hb
    have ha : (t.dispatchTable a).depth = depth := by simpa using (List.mem_filter.1 ha).2
    have hb : (t.dispatchTable b).depth = depth := by simpa using (List.mem_filter.1 hb).2
    simp only [noDeeper, ha, hb, Nat.le_refl, decide_true]
  unfold atDepth at hlevel ⊢
  unfold registered objectsOf
  rw [List.filter_comm, hlevel, List.filter_comm]

-- An object has more ancestors than each of them, and what is registered later has no fewer.
theorem registered_bases_first (hacyclic : ∀ o, .object o ∈ ds → t.Acyclic o)
    : (t.registered ds nameSpace).Pairwise fun a b => ¬ TransGen t.Derives a b := by
  apply registered_sorted.imp_of_mem
  intro a b ha _ hle hderives
  have ha : a ∈ objects ds := (List.mem_filter.1 (registered_perm.mem_iff.1 ha)).1
  have hlt := (hacyclic a (mem_objects.1 ha)).lineage_length_lt hderives
  simp only [noDeeper, decide_eq_true_eq] at hle
  exact absurd hlt (Nat.not_lt.2 hle)

/--
How a mapper registers objects: all of its namespace as often as the list has them, and no others,
each behind the objects that it derives from, and those of the same depth in their order.
-/
structure Registers (t : Table) (ds : List Descriptor) (nameSpace : String)
    (os : List ObjectType) : Prop where
  perm : os.Perm (objectsOf ds nameSpace)
  basesFirst : os.Pairwise fun a b => ¬ TransGen t.Derives a b
  stable : ∀ depth, t.atDepth depth os = t.atDepth depth (objectsOf ds nameSpace)

theorem mapperName_injective : Function.Injective mapperName := by
  have hlonger (n : String) : "ObjectMapper" ≠ n ++ "." ++ "ObjectMapper" := by
    intro h
    have hlength := congrArg String.length h
    have hdot : ".".length = 1 := rfl
    simp only [String.length_append, hdot] at hlength
    omega
  intro a b h
  unfold mapperName qualify at h
  by_cases ha : a = ""
  . by_cases hb : b = ""
    . rw [ha, hb]
    . rw [if_pos ha, if_neg hb] at h
      exact absurd h (hlonger b)
  . by_cases hb : b = ""
    . rw [if_neg ha, if_pos hb] at h
      exact absurd h.symm (hlonger a)
    . rw [if_neg ha, if_neg hb] at h
      have hchars := congrArg String.toList h
      simp only [String.toList_append, List.append_assoc] at hchars
      exact String.toList_inj.1 (List.append_cancel_right hchars)

/--
If no inheritance is cyclic, there is one mapper for every namespace with an object, under a name of
its own. It registers the objects of its namespace with the slots of their dispatch tables, in an
order in which bases come first.
-/
theorem mappers_register (t : Table) (ds : List Descriptor)
    (hacyclic : ∀ o, .object o ∈ ds → t.Acyclic o)
    : ((t.mappers ds).map (·.name)).Nodup
        ∧ ∃ nameSpaces : List String, nameSpaces.Nodup
          ∧ (∀ n, n ∈ nameSpaces ↔ ∃ o, .object o ∈ ds ∧ o.identity.nameSpace = n)
          ∧ List.Forall₂ (fun n file => ∃ os, file = t.registering n os ∧ t.Registers ds n os)
              nameSpaces (t.mappers ds) := by
  have hnodup : (mapperSpaces ds).Nodup := List.nodup_dedup _
  refine ⟨?_, Mapper.nameSpaces (t.dispatchTables ds), nameSpaces_perm.nodup_iff.2 hnodup, ?_, ?_⟩
  . exact mapperNames_perm.nodup_iff.2 (hnodup.map mapperName_injective)
  . intro n
    rw [nameSpaces_perm.mem_iff, mem_mapperSpaces]
  . rw [mappers_eq, List.forall₂_map_right_iff, List.forall₂_same]
    intro n _
    exact ⟨_, rfl, registered_perm, registered_bases_first hacyclic, registered_stable⟩

/--
An object stands twice in this list, before its parent, and the parent of that is left out.
-/
def buttonList : List Descriptor :=
  [.object buttonObject, .object widgetObject, .object buttonObject]

theorem mappers_register_button
    : (∀ o, .object o ∈ buttonList → buttonTable.Acyclic o)
        ∧ ∃ os, buttonTable.mappers buttonList = [buttonTable.registering "Demo" os]
          ∧ os.Perm [buttonObject, widgetObject, buttonObject]
          ∧ os.Pairwise fun a b => ¬ TransGen buttonTable.Derives a b := by
  have hobjects : ∀ o, .object o ∈ buttonList → o = buttonObject ∨ o = widgetObject := by
    intro o ho
    simp only [buttonList, List.mem_cons, Descriptor.object.injEq, List.not_mem_nil, or_false] at ho
    rcases ho with ho | ho | ho
    . exact .inl ho
    . exact .inr ho
    . exact .inl ho
  have hbutton : buttonTable.Acyclic buttonObject := chain_button.acyclic (by decide)
  have hacyclic : ∀ o, .object o ∈ buttonList → buttonTable.Acyclic o := by
    intro o ho
    rcases hobjects o ho with rfl | rfl
    . exact hbutton
    . exact hbutton.parent derives_button
  rcases mappers_register buttonTable buttonList hacyclic with ⟨_, nameSpaces, hnodup, hmem, hfiles⟩
  have hnameSpaces : nameSpaces = ["Demo"] := by
    apply List.perm_singleton.1
    rw [List.perm_ext_iff_of_nodup hnodup (List.nodup_singleton _)]
    intro n
    rw [hmem, List.mem_singleton]
    constructor
    . rintro ⟨o, ho, rfl⟩
      rcases hobjects o ho with rfl | rfl <;> rfl
    . rintro rfl
      exact ⟨buttonObject, List.mem_cons_self, rfl⟩
  rw [hnameSpaces] at hfiles
  rcases List.forall₂_cons_left_iff.1 hfiles with ⟨file, rest, ⟨os, hfile, hregisters⟩, hrest, hall⟩
  rw [List.forall₂_nil_left_iff.1 hrest, hfile] at hall
  exact ⟨hacyclic, os, hall, hregisters.perm, hregisters.basesFirst⟩

end Table

end Interop
