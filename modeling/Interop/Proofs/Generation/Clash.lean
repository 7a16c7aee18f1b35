import Interop.Proofs.Dispatch.Registered
import Interop.Proofs.Files.Path
import Interop.Proofs.Generation.Refused
import Interop.Proofs.Outputs.Unrefused

/-!
This module contains which generations end because a managed source was written before. Only types
are looked at for this beforehand, and only by name, so it happens to a mapper with the name of a
type, and to names that are different spellings of one path.
-/

namespace Interop

namespace Generation

open Outputs

def managedPath (options : OutputOptions) (name : String) : Path :=
  options.dir.join ⟨name ++ ".cs"⟩

def pathsOf (options : OutputOptions) (artifacts : List Artifact) : List Path :=
  (artifacts.filterMap (·.name?)).map (managedPath options)

variable {options : OutputOptions} {seen : List Path} {p p' : Progress} {e? : Option OutputError}

theorem pathsOf_append {artifacts more : List Artifact}
    : pathsOf options (artifacts ++ more) = pathsOf options artifacts ++ pathsOf options more := by
  unfold pathsOf
  rw [List.filterMap_append, List.map_append]

theorem managed_entered {owner? : Option String} {file : Binding.ManagedFile}
    (hlisted : Listed options seen p.outputs)
    (hclear : Clear options [managedPath options file.name])
    (h : p.managed owner? file = (e?, p')) (hrefusal : ∀ e ∈ e?, e.isRefusal = false)
    : Entered options seen [managedPath options file.name] e? p'.outputs := by
  have hpath : p.outputs.managedPath file.name = managedPath options file.name := by
    unfold Outputs.managedPath managedPath
    rw [hlisted.configured]
  have hany := hlisted.any_same hclear
  unfold Progress.managed at h
  split at h
  . next e o hwrite =>
    rcases Prod.mk.inj h with ⟨rfl, hp⟩
    have hresult := writeManaged_unrefused hwrite fun e' he' =>
      hrefusal e' (congrArg some (Except.error.inj he'))
    rw [hpath, hany] at hresult
    split at hresult
    . next htaken =>
      have hmoved := writeManaged_error hwrite
      have hlisted' := hlisted.shares (.of_eq hmoved.options hmoved.written hmoved.closed)
      have hpaths : [managedPath options file.name] = [] ++ managedPath options file.name :: [] :=
        rfl
      rw [Except.error.inj hresult, ← hp]
      apply Entered.taken hpaths
      . rwa [List.append_nil]
      . rw [List.append_nil]
        exact List.any_eq_true.1 htaken
    . cases hresult
  . next path o hwrite =>
    rcases Prod.mk.inj h with ⟨rfl, hp⟩
    have hresult := writeManaged_unrefused hwrite (by simp)
    rw [hpath, hany] at hresult
    split at hresult
    . cases hresult
    . next hfree =>
      rw [← hp, (writeManaged_ok hwrite).2.1, hpath]
      exact .all (hlisted.enter (Bool.eq_false_iff.2 hfree))

theorem glue_entered {owner text : String} (hlisted : Listed options seen p.outputs)
    (h : p.glue owner text = (e?, p')) (hrefusal : ∀ e ∈ e?, e.isRefusal = false)
    : Entered options seen [] e? p'.outputs := by
  unfold Progress.glue at h
  split at h
  . next hglue =>
    have hshares : Shares p.outputs (p.outputs.appendGlue text).2 := appendGlue_shares
    have hcause (e : OutputError) (he : (p.outputs.appendGlue text).1 = .error e)
        : e.isRefusal = true :=
      appendGlue_isRefusal hlisted.unclosed hglue he
    generalize p.outputs.appendGlue text = result at h hshares hcause
    rcases result with ⟨e | u, o⟩ <;>
    . rcases Prod.mk.inj h with ⟨rfl, rfl⟩
      exact hlisted.appended hshares hcause (by simp) hrefusal
  . split at h <;>
    . rcases Prod.mk.inj h with ⟨rfl, rfl⟩
      exact hlisted.entered

theorem probe_entered {probe : Binding.Probe} (hlisted : Listed options seen p.outputs)
    (h : p.probe probe = (e?, p')) (hrefusal : ∀ e ∈ e?, e.isRefusal = false)
    : Entered options seen [] e? p'.outputs := by
  unfold Progress.probe at h
  split at h
  . next hprobes =>
    have hshares : Shares p.outputs (p.outputs.appendProbe probe).2 := appendProbe_shares
    have hcause (e : OutputError) (he : (p.outputs.appendProbe probe).1 = .error e)
        : e.isRefusal = true :=
      appendProbe_isRefusal hlisted.unclosed hprobes he
    generalize p.outputs.appendProbe probe = result at h hshares hcause
    rcases result with ⟨e | u, o⟩ <;>
    . rcases Prod.mk.inj h with ⟨rfl, rfl⟩
      exact hlisted.appended hshares hcause (by simp) hrefusal
  . rcases Prod.mk.inj h with ⟨rfl, rfl⟩
    exact hlisted.entered

theorem deliver_entered {artifact : Artifact} (hlisted : Listed options seen p.outputs)
    (hclear : Clear options (pathsOf options [artifact])) (h : p.deliver artifact = (e?, p'))
    (hrefusal : ∀ e ∈ e?, e.isRefusal = false)
    : Entered options seen (pathsOf options [artifact]) e? p'.outputs := by
  cases artifact with
  | managed owner? file => exact managed_entered hlisted hclear h hrefusal
  | glue owner text => exact glue_entered hlisted h hrefusal
  | probe probe => exact probe_entered hlisted h hrefusal

theorem deliverAll_entered {artifacts : List Artifact} (hlisted : Listed options seen p.outputs)
    (hclear : Clear options (pathsOf options artifacts))
    (h : p.deliverAll artifacts = (e?, p')) (hrefusal : ∀ e ∈ e?, e.isRefusal = false)
    : Entered options seen (pathsOf options artifacts) e? p'.outputs := by
  induction artifacts generalizing p seen with
  | nil =>
    rcases Prod.mk.inj h with ⟨rfl, rfl⟩
    exact hlisted.entered
  | cons a as ih =>
    rw [← List.singleton_append, pathsOf_append] at hclear ⊢
    have hfirst := hclear.mono (List.subset_append_left _ _)
    have hlater := hclear.mono (List.subset_append_right _ _)
    unfold Progress.deliverAll at h
    split at h
    . next hdeliver =>
      rcases Prod.mk.inj h with ⟨rfl, rfl⟩
      exact (deliver_entered hlisted hfirst hdeliver hrefusal).stop
    . next hdeliver =>
      have hentered := deliver_entered hlisted hfirst hdeliver (by simp)
      exact hentered.append fun hlisted' => ih hlisted' hlater h

/--
The disk refused nothing: a generation that ended at its outputs did so for another reason.
-/
def Unrefused (r : Result Statistics) : Prop :=
  ∀ e, r = .error (Fault.of (.output e)) → e.isRefusal = false

/--
How a generation ends, given the error of its outputs.
-/
inductive EndsWith : Option OutputError → Result Statistics → Prop where
  | success (s : Statistics) : EndsWith none (.ok s)
  | failure (e : OutputError) : EndsWith (some e) (.error (Fault.of (.output e)))

theorem EndsWith.ok_iff {r : Result Statistics} (h : EndsWith e? r)
    : (∃ s, r = .ok s) ↔ e? = none := by
  cases h <;> simp

theorem EndsWith.fault {fault : Fault GenerationError} (h : EndsWith e? (.error fault))
    : ∃ e, e? = some e ∧ fault = Fault.of (.output e) := by
  cases h
  exact ⟨_, rfl, rfl⟩

variable {t : Table} {ds : List Descriptor} {d : Disk}

/--
The paths of the managed sources in the order in which they are written: those of types, then those
of mappers.
-/
def managedPaths (t : Table) (options : OutputOptions) (ds : List Descriptor) : List Path :=
  (fileNames ds ++ (t.mappers ds).map (·.name)).map (managedPath options)

theorem pathsOf_deliveries {gluelib : String} {bounds : List Bound}
    (h : List.Forall₂ (IsBound t gluelib) ds bounds)
    : pathsOf options (deliveries t ds bounds) = managedPaths t options ds := by
  unfold pathsOf managedPaths fileNames
  rw [filterMap_name_deliveries h]

theorem generate_entered (hready : Ready t options.glueLibrary ds)
    (hclear : Clear options (managedPaths t options ds))
    (hdisk : Unrefused (generate t (some (fresh options d)) ds).result)
    : ∃ e? o, Entered options [] (managedPaths t options ds) e? o
        ∧ (generate t (some (fresh options d)) ds).outputs? = some o
        ∧ EndsWith e? (generate t (some (fresh options d)) ds).result := by
  rcases ready_iff.1 hready with ⟨bounds, hprepare⟩
  have hpaths : pathsOf options (deliveries t ds bounds) = managedPaths t options ds :=
    pathsOf_deliveries (prepare_eq_ok hprepare)
  unfold deliveries at hpaths
  rw [pathsOf_append] at hpaths
  rw [← hpaths] at hclear ⊢
  have htypes := hclear.mono (List.subset_append_left _ _)
  have hmappers := hclear.mono (List.subset_append_right _ _)
  unfold generate at hdisk ⊢
  simp only [Option.elim_some] at hdisk ⊢
  rw [show (fresh options d).options.glueLibrary = options.glueLibrary from rfl, hprepare]
    at hdisk ⊢
  simp only at hdisk ⊢
  have hstart (events : Log)
      : Listed options [] ({ outputs := fresh options d, log := events } : Progress).outputs :=
    listed_fresh
  generalize hdeliver : Progress.deliverAll _ (bounds.flatMap (·.artifacts)) = result at hdisk ⊢
  rcases result with ⟨_ | e, p⟩
  . have hentered := deliverAll_entered (hstart _) htypes hdeliver (by simp)
    simp only at hdisk ⊢
    generalize hmap : (p.note (t.mapperEvents ds)).deliverAll _ = result at hdisk ⊢
    rcases result with ⟨_ | e, p'⟩
    . refine ⟨none, _, hentered.append fun hlisted => ?_, rfl, .success _⟩
      exact deliverAll_entered (p := p.note (t.mapperEvents ds)) hlisted hmappers hmap (by simp)
    . refine ⟨some e, _, hentered.append fun hlisted => ?_, rfl, .failure e⟩
      exact deliverAll_entered (p := p.note (t.mapperEvents ds)) hlisted hmappers hmap
        (by rintro _ ⟨⟩; exact hdisk e rfl)
  . have hentered := deliverAll_entered (hstart _) htypes hdeliver
      (by rintro _ ⟨⟩; exact hdisk e rfl)
    exact ⟨some e, _, hentered.stop, rfl, .failure e⟩

theorem plain_fileName {name : String} (h : '/' ∉ name.toList) : Path.Plain (name ++ ".cs") where
  slash := by
    rw [String.toList_append, List.mem_append]
    simpa using h
  part := by
    have hlast : (name ++ ".cs").toList.getLast? = some 's' := by
      have hextension : ".cs".toList ≠ [] := by decide
      rw [String.toList_append, List.getLast?_append_of_ne_nil _ hextension]
      rfl
    have hne {other : String} (hother : other.toList.getLast? ≠ some 's')
        : name ++ ".cs" ≠ other := by
      rintro rfl
      exact hother hlast
    unfold Path.parts.part
    rw [if_neg, if_neg]
    . exact hne (by decide)
    . rintro (h | h)
      . exact hne (by decide) h
      . exact hne (by decide) h

theorem apart_managedPaths_iff (hplain : ∀ name ∈ sourceNames ds, '/' ∉ name.toList)
    : Apart (managedPaths t options ds) ↔ (sourceNames ds).Nodup := by
  have hperm : (fileNames ds ++ (t.mappers ds).map (·.name)).Perm (sourceNames ds) :=
    mapperNames_perm.append_left _
  unfold Apart managedPaths
  rw [List.pairwise_map, ← hperm.nodup_iff, List.Nodup]
  apply List.Pairwise.iff_of_mem
  intro a b ha hb
  have hfile {name : String} (h : name ∈ fileNames ds ++ (t.mappers ds).map (·.name)) :=
    plain_fileName (hplain name (hperm.mem_iff.1 h))
  have hsame := Path.same_join_iff options.dir (hfile ha) (hfile hb)
  unfold managedPath
  rw [← Bool.not_eq_true, hsame, String.append_left_inj]

theorem nodup_sourceNames_iff (h : (fileNames ds).Nodup)
    : (sourceNames ds).Nodup ↔ ∀ n ∈ mapperSpaces ds, mapperName n ∉ fileNames ds := by
  have hmappers : ((mapperSpaces ds).map mapperName).Nodup :=
    List.Nodup.map Table.mapperName_injective (List.nodup_dedup _)
  have hnames : sourceNames ds = fileNames ds ++ (mapperSpaces ds).map mapperName := rfl
  rw [hnames, List.nodup_append]
  constructor
  . rintro ⟨_, _, hdistinct⟩ n hn hmem
    exact hdistinct _ hmem _ (List.mem_map_of_mem hn) rfl
  . intro hfree
    refine ⟨h, hmappers, ?_⟩
    rintro name hname _ hmapper rfl
    rcases List.mem_map.1 hmapper with ⟨n, hn, rfl⟩
    exact hfree n hn hname

/--
Which generations end well, if every type can be bound, the names of types were found distinct, no
shared file has the path of a managed source and the disk refuses nothing. Those do whose managed
sources have different paths, mappers included; any other ends at the first path that is there
twice, with the sources before it written. Where no name has a slash, this is a matter of mappers
alone: none of them has the name of a type's file.
-/
theorem generate_unrefused (t : Table) (ds : List Descriptor) (options : OutputOptions) (d : Disk)
    (hready : Ready t options.glueLibrary ds) (hclear : Clear options (managedPaths t options ds))
    (hdisk : Unrefused (generate t (some (fresh options d)) ds).result)
    : let paths := managedPaths t options ds
      let outcome := generate t (some (fresh options d)) ds
      ((∃ s, outcome.result = .ok s) ↔ Apart paths)
        ∧ (∀ fault, outcome.result = .error fault →
            ∃ before path after o, paths = before ++ path :: after ∧ Apart before
              ∧ (∃ q ∈ before, q.same path = true) ∧ fault = Fault.of (.output (.taken path))
              ∧ outcome.outputs? = some o ∧ before ⊆ o.written)
        ∧ ((∀ name ∈ sourceNames ds, '/' ∉ name.toList) →
            ((∃ s, outcome.result = .ok s)
                ↔
              ∀ n ∈ mapperSpaces ds, mapperName n ∉ fileNames ds)) := by
  intro paths outcome
  rcases generate_entered hready hclear hdisk with ⟨e?, o, hentered, houtputs, hended⟩
  have hends : (∃ s, outcome.result = .ok s) ↔ Apart paths :=
    hended.ok_iff.trans hentered.eq_none_iff
  refine ⟨hends, ?_, ?_⟩
  . intro fault hfault
    rw [hfault] at hended
    rcases hended.fault with ⟨e, rfl, hcause⟩
    rcases hentered with _ | ⟨hpaths, hlisted, htaken⟩
    exact ⟨_, _, _, o, hpaths, hlisted.apart, htaken, hcause, houtputs, hlisted.own⟩
  . intro hplain
    rw [hends, apart_managedPaths_iff hplain, nodup_sourceNames_iff hready.names]

/--
An enumeration that is named like a mapper.
-/
def paletteMode (nameSpace : String) : Descriptor :=
  .enum ⟨⟨"DemoObjectMapper", "ObjectMapper", nameSpace, "libdemo"⟩, 32, false, false, [⟨"RED", 0⟩],
    false⟩

def paletteObject (nameSpace : String) : Descriptor :=
  .object ⟨⟨"DemoPalette", "Palette", nameSpace, "libdemo"⟩, none, none, [], [], []⟩

def paletteList (nameSpace : String) : List Descriptor :=
  [paletteMode nameSpace, paletteObject nameSpace]

def paletteTable (nameSpace : String) : Table where
  entries := paletteList nameSpace
  nodup := by simp [paletteList, paletteMode, paletteObject, Descriptor.cname]

def paletteOptions : OutputOptions where
  dir? := some ⟨"out"⟩
  glueFile? := some ⟨"out/glue.c"⟩

def paletteOutcome (nameSpace : String) : Outcome :=
  generate (paletteTable nameSpace) (some (fresh paletteOptions .blank)) (paletteList nameSpace)

theorem ready_of_prepare {gluelib : String} (h : (prepare t gluelib ds).toOption.isSome = true)
    : Ready t gluelib ds := by
  rcases Option.isSome_iff_exists.1 h with ⟨bounds, hbounds⟩
  exact ready_iff.2 ⟨bounds, Fault.toOption_eq_some.1 hbounds⟩

-- The mapper of a namespace with a name is not written to the file of the enumeration.
theorem generate_unrefused_palette
    : Ready (paletteTable "Demo") paletteOptions.glueLibrary (paletteList "Demo")
        ∧ Clear paletteOptions (managedPaths (paletteTable "Demo") paletteOptions
            (paletteList "Demo"))
        ∧ Unrefused (paletteOutcome "Demo").result
        ∧ Apart (managedPaths (paletteTable "Demo") paletteOptions (paletteList "Demo")) := by
  have hready : Ready (paletteTable "Demo") paletteOptions.glueLibrary (paletteList "Demo") :=
    ready_of_prepare (by decide +kernel)
  have hclear : Clear paletteOptions
      (managedPaths (paletteTable "Demo") paletteOptions (paletteList "Demo")) := by
    decide +kernel
  have hsome : (paletteOutcome "Demo").result.toOption.isSome := by decide +kernel
  rcases Option.isSome_iff_exists.1 hsome with ⟨s, hs⟩
  rw [Fault.toOption_eq_some] at hs
  have hdisk : Unrefused (paletteOutcome "Demo").result := by simp [Unrefused, hs]
  exact ⟨hready, hclear, hdisk,
    (generate_unrefused _ _ _ .blank hready hclear hdisk).1.1 ⟨s, hs⟩⟩

theorem not_generate_unrefused
    : ¬ ∀ (t : Table) (ds : List Descriptor) (options : OutputOptions) (d : Disk),
        Ready t options.glueLibrary ds → Clear options (managedPaths t options ds) →
          Unrefused (generate t (some (fresh options d)) ds).result →
            ∃ s, (generate t (some (fresh options d)) ds).result = .ok s := by
  intro h
  have hready : Ready (paletteTable "") paletteOptions.glueLibrary (paletteList "") :=
    ready_of_prepare (by decide +kernel)
  have hclear : Clear paletteOptions
      (managedPaths (paletteTable "") paletteOptions (paletteList "")) := by
    decide +kernel
  have htaken : (paletteOutcome "").result
      = .error (Fault.of (.output (.taken ⟨"out/ObjectMapper.cs"⟩))) := by
    decide +kernel
  have hdisk : Unrefused (paletteOutcome "").result := by
    intro e he
    rw [htaken] at he
    cases he
    rfl
  rcases h _ _ _ .blank hready hclear hdisk with ⟨s, hs⟩
  cases htaken.symm.trans hs

end Generation

end Interop
