import Interop.Proofs.Binding.Glue
import Mathlib.Data.List.Nodup

/-!
This module contains when the names of glue functions are different. A name joins the type's name in
small letters with what the function is for, and neither part tells where it ends.
-/

namespace Interop

namespace Binding

/--
What a glue function is for.
-/
inductive GlueTask where
  /-- To call a function pointer. -/
  | invoke
  | get (field : String)
  | set (field : String)
  deriving DecidableEq, Repr

namespace GlueTask

def suffix : GlueTask → String
  | invoke => "_invoke"
  | get field => "_get_" ++ field
  | set field => "_set_" ++ field

/--
The part of the name before the field.
-/
def verbs : List String :=
  ["_get", "_set"]

end GlueTask

def glueTasks : Descriptor → List GlueTask
  | .struct s =>
    (s.fields.filter (·.isPublicBitfield)).flatMap fun f => [.get f.name, .set f.name]
  | .callback _ => [.invoke]
  | .simple _ | .long _ | .object _ | .enum _ | .array _ => []

/--
The part of the names of a type's glue functions that stands for the type.
-/
def glueStem (d : Descriptor) : String :=
  Text.snakeCase d.cname

def glueName (part : String × GlueTask) : String :=
  "gapi_" ++ part.1 ++ part.2.suffix

def glueParts (ds : List Descriptor) : List (String × GlueTask) :=
  ds.flatMap fun d => (glueTasks d).map fun task => (glueStem d, task)

theorem glueSymbols_eq (d : Descriptor)
    : glueSymbols d = (glueTasks d).map fun task => glueName (glueStem d, task) := by
  have hname (stem verb field : String)
      : "gapi_" ++ stem ++ "_" ++ verb ++ "_" ++ field
          = "gapi_" ++ stem ++ ("_" ++ verb ++ "_" ++ field) := by
    simp only [String.append_assoc]
  cases d with
  | struct s =>
    simp only [glueSymbols, glueTasks, List.map_flatMap]
    congr 1
    funext f
    unfold accessorSymbol
    rw [hname, hname]
    rfl
  | callback c => rfl
  | simple | long | object | enum | array => rfl

theorem glueSymbols_flatMap (ds : List Descriptor)
    : ds.flatMap glueSymbols = (glueParts ds).map glueName := by
  unfold glueParts
  rw [List.map_flatMap]
  congr 1
  funext d
  rw [glueSymbols_eq, List.map_map]
  rfl

namespace GlueTask

theorem suffix_eq_cons (task : GlueTask) : ∃ cs, task.suffix.toList = '_' :: cs := by
  cases task with
  | invoke => exact ⟨_, rfl⟩
  | get field | set field => exact ⟨_, by simp [suffix]; rfl⟩

theorem suffix_inj {task task' : GlueTask} (h : task.suffix = task'.suffix) : task = task' := by
  rw [← String.toList_inj] at h
  cases task <;> cases task' <;> simp [suffix] at h ⊢
  . exact String.toList_inj.1 h
  . exact String.toList_inj.1 h

-- An underscore within a word of the suffix would be needed for anything else.
theorem not_word_split {word r cs : List Char} (hword : '_' ∉ word) (hr : r ≠ [])
    (h : '_' :: word = r ++ '_' :: cs) : False := by
  cases r with
  | nil => exact hr rfl
  | cons c r =>
    apply hword
    rw [(List.cons.inj h).2]
    simp

theorem word_split {word field r cs : List Char} (hword : '_' ∉ word) (hr : r ≠ [])
    (h : ('_' :: word) ++ '_' :: field = r ++ '_' :: cs)
    : ∃ rest, r = ('_' :: word) ++ rest ∧ '_' :: field = rest ++ '_' :: cs := by
  rcases List.append_eq_append_iff.1 h with ⟨rest, hrest, hfield⟩ | ⟨rest, hrest, hcs⟩
  . exact ⟨rest, hrest, hfield⟩
  . cases rest with
    | nil =>
      rw [List.append_nil] at hrest
      exact ⟨[], by simp [hrest], hcs.symm⟩
    | cons c rest =>
      rw [← (List.cons.inj hcs).1] at hrest
      exact (not_word_split hword hr hrest).elim

-- If the suffix of another task ends this one's, what comes before it starts with a verb.
theorem suffix_eq_append {task task' : GlueTask} {r : List Char} (hr : r ≠ [])
    (h : task.suffix.toList = r ++ task'.suffix.toList)
    : ∃ verb ∈ verbs, ∃ field rest, (task = .get field ∨ task = .set field)
        ∧ r = verb.toList ++ rest ∧ '_' :: field.toList = rest ++ task'.suffix.toList := by
  rcases suffix_eq_cons task' with ⟨cs, hcs⟩
  rw [hcs] at h ⊢
  cases task with
  | invoke => exact (not_word_split (by decide) hr h).elim
  | get field =>
    have hsplit : ('_' :: "get".toList) ++ '_' :: field.toList = r ++ '_' :: cs := by
      rw [← h]
      simp [suffix]
    rcases word_split (by decide) hr hsplit with ⟨rest, hrest, hfield⟩
    exact ⟨"_get", by simp [verbs], field, rest, .inl rfl, hrest, hfield⟩
  | set field =>
    have hsplit : ('_' :: "set".toList) ++ '_' :: field.toList = r ++ '_' :: cs := by
      rw [← h]
      simp [suffix]
    rcases word_split (by decide) hr hsplit with ⟨rest, hrest, hfield⟩
    exact ⟨"_set", by simp [verbs], field, rest, .inr rfl, hrest, hfield⟩

end GlueTask

/--
The callbacks, each as its part of a name.
-/
def callbackStems (ds : List Descriptor) : List String :=
  ds.filterMap fun
    | .callback c => some (glueStem (.callback c))
    | _ => none

/--
The bitfields that managed code reaches, each with its structure's part of a name.
-/
def bitfieldStems (ds : List Descriptor) : List (String × String) :=
  ds.flatMap fun
    | .struct s =>
      (s.fields.filter (·.isPublicBitfield)).map fun f => (glueStem (.struct s), f.name)
    | _ => []

def accessorParts (bitfield : String × String) : List (String × GlueTask) :=
  [(bitfield.1, .get bitfield.2), (bitfield.1, .set bitfield.2)]

theorem mem_accessorParts {bitfield : String × String} {stem : String} {task : GlueTask}
    : (stem, task) ∈ accessorParts bitfield
        ↔
      stem = bitfield.1 ∧ (task = .get bitfield.2 ∨ task = .set bitfield.2) := by
  unfold accessorParts
  rw [List.mem_pair, Prod.mk.injEq, Prod.mk.injEq, and_or_left]

theorem filter_invoke_glueParts (ds : List Descriptor)
    : (glueParts ds).filter (·.2 = .invoke)
        = (callbackStems ds).map fun stem => (stem, .invoke) := by
  unfold glueParts callbackStems
  rw [List.filter_flatMap, List.map_filterMap, List.filterMap_eq_flatMap_toList]
  congr 1
  funext d
  cases d with
  | struct s =>
    simp only [glueTasks, Option.map_none, Option.toList_none, List.filter_eq_nil_iff,
      List.mem_map, List.mem_flatMap]
    rintro _ ⟨task, ⟨f, _, htask⟩, rfl⟩
    rcases List.mem_pair.1 htask with rfl | rfl <;> simp
  | callback c => rfl
  | simple | long | object | enum | array => rfl

theorem filter_accessor_glueParts (ds : List Descriptor)
    : (glueParts ds).filter (·.2 ≠ .invoke) = (bitfieldStems ds).flatMap accessorParts := by
  unfold glueParts bitfieldStems
  rw [List.filter_flatMap, List.flatMap_assoc]
  congr 1
  funext d
  cases d with
  | struct s =>
    simp [glueTasks, accessorParts, List.filter_flatMap, List.map_flatMap, List.flatMap_map]
  | callback c => rfl
  | simple | long | object | enum | array => rfl

theorem nodup_filter_iff {l : List α} (p : α → Bool)
    : l.Nodup ↔ (l.filter p).Nodup ∧ (l.filter fun a => !p a).Nodup := by
  rw [← (List.filter_append_perm p l).nodup_iff, List.nodup_append']
  constructor
  . rintro ⟨h, h', _⟩
    exact ⟨h, h'⟩
  . rintro ⟨h, h'⟩
    refine ⟨h, h', ?_⟩
    intro a ha ha'
    simp at ha ha'
    simp [ha.2] at ha'

theorem nodup_accessorParts {bitfields : List (String × String)}
    : (bitfields.flatMap accessorParts).Nodup ↔ bitfields.Nodup := by
  have hone (b : String × String) : (accessorParts b).Nodup := by simp [accessorParts]
  have htwo (b b' : String × String)
      : (accessorParts b).Disjoint (accessorParts b') ↔ b ≠ b' := by
    constructor
    . rintro h rfl
      exact h List.mem_cons_self List.mem_cons_self
    . intro h
      simp only [accessorParts, List.disjoint_cons_left, List.mem_pair, Prod.mk.injEq,
        GlueTask.get.injEq, GlueTask.set.injEq, reduceCtorEq, and_false, or_false, false_or]
      exact ⟨fun heq => h (Prod.ext heq.1 heq.2), fun heq => h (Prod.ext heq.1 heq.2), by simp⟩
  rw [List.nodup_flatMap]
  constructor
  . rintro ⟨_, h⟩
    exact h.imp fun hdisjoint => (htwo _ _).1 hdisjoint
  . intro h
    exact ⟨fun b _ => hone b, h.imp fun hne => (htwo _ _).2 hne⟩

theorem nodup_glueParts {ds : List Descriptor}
    : (glueParts ds).Nodup ↔ (callbackStems ds).Nodup ∧ (bitfieldStems ds).Nodup := by
  have hinvoke : ((callbackStems ds).map fun stem => (stem, GlueTask.invoke)).Nodup
      ↔ (callbackStems ds).Nodup := by
    apply List.nodup_map_iff
    intro stem stem' h
    exact congrArg Prod.fst h
  have hrest : (glueParts ds).filter (fun part => !decide (part.2 = .invoke))
      = (bitfieldStems ds).flatMap accessorParts := by
    rw [← filter_accessor_glueParts]
    simp only [ne_eq, decide_not]
  rw [nodup_filter_iff fun part => decide (part.2 = .invoke), filter_invoke_glueParts, hinvoke,
    hrest, nodup_accessorParts]

theorem mem_glueParts_of_bitfield {ds : List Descriptor} {stem field verb : String}
    (h : (stem, field) ∈ bitfieldStems ds) (hverb : verb ∈ GlueTask.verbs)
    : ∃ task, (stem, task) ∈ glueParts ds ∧ task.suffix = verb ++ ("_" ++ field) := by
  have hmem {task : GlueTask} (htask : task = .get field ∨ task = .set field)
      : (stem, task) ∈ glueParts ds := by
    have hfiltered : (stem, task) ∈ (bitfieldStems ds).flatMap accessorParts :=
      List.mem_flatMap.2 ⟨_, h, mem_accessorParts.2 ⟨rfl, htask⟩⟩
    rw [← filter_accessor_glueParts] at hfiltered
    exact List.mem_of_mem_filter hfiltered
  rcases List.mem_pair.1 hverb with rfl | rfl
  . exact ⟨_, hmem (.inl rfl), by rw [← String.append_assoc]; rfl⟩
  . exact ⟨_, hmem (.inr rfl), by rw [← String.append_assoc]; rfl⟩

theorem bitfield_of_mem_glueParts {ds : List Descriptor} {stem field : String} {task : GlueTask}
    (h : (stem, task) ∈ glueParts ds) (htask : task = .get field ∨ task = .set field)
    : (stem, field) ∈ bitfieldStems ds := by
  have hfiltered : (stem, task) ∈ (glueParts ds).filter (·.2 ≠ .invoke) := by
    rw [List.mem_filter]
    refine ⟨h, ?_⟩
    rcases htask with rfl | rfl <;> simp
  rw [filter_accessor_glueParts] at hfiltered
  rcases List.mem_flatMap.1 hfiltered with ⟨⟨stem', field'⟩, hbitfield, hpart⟩
  rcases mem_accessorParts.1 hpart with ⟨rfl, htask'⟩
  have hfield : field = field' := by
    rcases htask with rfl | rfl <;> simpa using htask'
  rw [hfield]
  exact hbitfield

/--
No two callbacks have the same part in their names, and no two bitfields have it together with their
own name. No name can be read in two ways either: where a structure's part, a verb and the beginning
of a bitfield's name make up the part of some type, the bitfield's name does not end with what a
function of that type is for.
-/
structure Separate (ds : List Descriptor) : Prop where
  callbacks : (callbackStems ds).Nodup
  bitfields : (bitfieldStems ds).Nodup
  apart : ∀ stem field, (stem, field) ∈ bitfieldStems ds → ∀ verb ∈ GlueTask.verbs,
    ∀ rest, ∀ part ∈ glueParts ds, part.1 = stem ++ verb ++ rest →
      "_" ++ field ≠ rest ++ part.2.suffix

theorem toList_glueName (part : String × GlueTask)
    : (glueName part).toList = "gapi_".toList ++ (part.1.toList ++ part.2.suffix.toList) := by
  unfold glueName
  rw [String.toList_append, String.toList_append, List.append_assoc]

theorem Separate.eq_of_collision {ds : List Descriptor} (h : Separate ds)
    {part part' : String × GlueTask} {r : List Char} (hpart : part ∈ glueParts ds)
    (hpart' : part' ∈ glueParts ds) (hstem : part'.1.toList = part.1.toList ++ r)
    (hsuffix : part.2.suffix.toList = r ++ part'.2.suffix.toList) : part = part' := by
  rcases part with ⟨stem, task⟩
  by_cases hr : r = []
  . rw [hr, List.append_nil] at hstem
    rw [hr, List.nil_append] at hsuffix
    exact Prod.ext (String.toList_inj.1 hstem.symm)
      (GlueTask.suffix_inj (String.toList_inj.1 hsuffix))
  . rcases GlueTask.suffix_eq_append hr hsuffix with
      ⟨verb, hverb, field, rest, htask, hrest, hfield⟩
    have hbitfield := bitfield_of_mem_glueParts hpart htask
    have happart := h.apart stem field hbitfield verb hverb (String.ofList rest) part' hpart'
    refine (happart ?_ ?_).elim
    . rw [← String.toList_inj, hstem, hrest]
      simp
    . rw [← String.toList_inj]
      simpa using hfield

/--
The names of the glue functions of some types are different if and only if their parts are and no
two of them overlap.
-/
theorem nodup_glueSymbols {ds : List Descriptor}
    : (ds.flatMap glueSymbols).Nodup ↔ Separate ds := by
  rw [glueSymbols_flatMap]
  constructor
  . intro h
    have hparts := h.of_map
    rw [nodup_glueParts] at hparts
    refine ⟨hparts.1, hparts.2, ?_⟩
    intro stem field hbitfield verb hverb rest part hpart hstem hfield
    rcases mem_glueParts_of_bitfield hbitfield hverb with ⟨task, htask, hsuffix⟩
    have hname : glueName (stem, task) = glueName part := by
      unfold glueName
      rw [hsuffix, hfield, hstem]
      simp only [String.append_assoc]
    have hsame := List.inj_on_of_nodup_map h htask hpart hname
    rw [← hsame, String.append_assoc] at hstem
    have hlength := congrArg String.length hstem
    simp only [String.length_append] at hlength
    have hverb : 0 < verb.length := by
      rcases List.mem_pair.1 hverb with rfl | rfl <;> decide
    omega
  . intro h
    have hparts := nodup_glueParts.2 ⟨h.callbacks, h.bitfields⟩
    rw [List.nodup_map_iff_inj_on hparts]
    intro part hpart part' hpart' hname
    rw [← String.toList_inj, toList_glueName, toList_glueName, List.append_cancel_left_eq,
      List.append_eq_append_iff] at hname
    rcases hname with ⟨r, hstem, hsuffix⟩ | ⟨r, hstem, hsuffix⟩
    . exact h.eq_of_collision hpart hpart' hstem hsuffix
    . exact (h.eq_of_collision hpart' hpart hstem hsuffix).symm

end Binding

end Interop
