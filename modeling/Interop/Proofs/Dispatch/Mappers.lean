import Interop.Dispatch
import Mathlib.Data.List.Dedup
import Mathlib.Data.List.Perm.Basic

/-!
This module contains which mappers there are: one for every namespace with an object, under a name
of its own.
-/

namespace Interop

def mapperSpaces (ds : List Descriptor) : List String :=
  ((objects ds).map (·.identity.nameSpace)).dedup

def mapperName (nameSpace : String) : String :=
  qualify nameSpace "ObjectMapper"

theorem mem_objects {ds : List Descriptor} {o : ObjectType} : o ∈ objects ds ↔ .object o ∈ ds := by
  unfold objects
  rw [List.mem_filterMap]
  constructor
  . rintro ⟨d, hd, ho⟩
    cases d <;> simp_all
  . intro hd
    exact ⟨_, hd, rfl⟩

theorem mem_mapperSpaces {ds : List Descriptor} {nameSpace : String}
    : nameSpace ∈ mapperSpaces ds ↔ ∃ o, .object o ∈ ds ∧ o.identity.nameSpace = nameSpace := by
  unfold mapperSpaces
  rw [List.mem_dedup, List.mem_map]
  simp only [mem_objects]

theorem nodup_eraseDups (names : List String) : names.eraseDups.Nodup := by
  match names with
  | [] => simp
  | n :: ns =>
    rw [List.eraseDups_cons, List.nodup_cons]
    refine ⟨?_, nodup_eraseDups _⟩
    rw [List.mem_eraseDups, List.mem_filter]
    simp
termination_by names.length
decreasing_by exact Nat.lt_succ_of_le (List.length_filter_le _ _)

variable {t : Table} {ds : List Descriptor}

theorem mem_dispatchTables {table : DispatchTable}
    : table ∈ t.dispatchTables ds ↔ ∃ o ∈ objects ds, t.dispatchTable o = table := by
  unfold Table.dispatchTables
  rw [List.mem_mergeSort, List.mem_map]

theorem nameSpaces_perm : (Mapper.nameSpaces (t.dispatchTables ds)).Perm (mapperSpaces ds) := by
  unfold Mapper.nameSpaces
  apply (List.mergeSort_perm _ _).trans
  have hnodup : (mapperSpaces ds).Nodup := List.nodup_dedup _
  rw [List.perm_ext_iff_of_nodup (nodup_eraseDups _) hnodup]
  intro nameSpace
  rw [List.mem_eraseDups, mem_mapperSpaces, List.mem_map]
  constructor
  . rintro ⟨table, htable, rfl⟩
    rcases mem_dispatchTables.1 htable with ⟨o, ho, rfl⟩
    exact ⟨o, mem_objects.1 ho, rfl⟩
  . rintro ⟨o, ho, rfl⟩
    exact ⟨t.dispatchTable o, mem_dispatchTables.2 ⟨o, mem_objects.2 ho, rfl⟩, rfl⟩

theorem mapperNames_perm
    : ((t.mappers ds).map (·.name)).Perm ((mapperSpaces ds).map mapperName) := by
  have hnames : (t.mappers ds).map (·.name)
      = (Mapper.nameSpaces (t.dispatchTables ds)).map mapperName := by
    unfold Table.mappers
    rw [List.map_map]
    rfl
  rw [hnames]
  exact nameSpaces_perm.map _

end Interop
