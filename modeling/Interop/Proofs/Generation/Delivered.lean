import Interop.Proofs.Binding.Emitted
import Interop.Proofs.Dispatch.Mappers
import Interop.Proofs.Outputs.Closing
import Mathlib.Data.List.Forall2

/-!
This module contains what a generation delivers: which files it writes, and that its outputs keep
the ledger of its artifacts.
-/

namespace Interop

namespace Generation

open Outputs

variable {start : Disk} {t : Table} {gluelib : String} {ds : List Descriptor}

/--
The names of the managed sources of a generation: one for every type that has a managed type of its
own, and one for every namespace with an object.
-/
def sourceNames (ds : List Descriptor) : List String :=
  (ds.filterMap (·.identity?)).map (·.name) ++ (mapperSpaces ds).map mapperName

def yieldsGlue (t : Table) (gluelib : String) (d : Descriptor) : Bool :=
  match bind t gluelib d with
  | .ok e => e.glue?.isSome
  | .error _ => false

def outputFiles (t : Table) (o : OutputOptions) (ds : List Descriptor) : List OutputFile :=
  (sourceNames ds).map .managed
    ++ (if o.hasGlue && ds.any (yieldsGlue t o.glueLibrary) then [.glue] else [])
    ++ (if o.hasProbes && ds.any (·.abiCheck) then [.probeC, .probeCs] else [])

def deliveries (t : Table) (ds : List Descriptor) (bounds : List Bound) : List Artifact :=
  bounds.flatMap (·.artifacts) ++ (t.mappers ds).map (.managed none)

/--
The type is bound to what binding it yields.
-/
def IsBound (t : Table) (gluelib : String) (d : Descriptor) (b : Bound) : Prop :=
  b.type = d ∧ bind t gluelib d = .ok b.emitted

theorem bindOne_eq_ok {d : Descriptor} {b : Bound} (h : bindOne t gluelib d = .ok b)
    : IsBound t gluelib d b := by
  unfold bindOne at h
  split at h
  . next e he =>
    rw [← Except.ok.inj h]
    exact ⟨rfl, he⟩
  . simp [Fault.within] at h

theorem bindAll_eq_ok {bounds : List Bound} (h : bindAll t gluelib ds = .ok bounds)
    : List.Forall₂ (IsBound t gluelib) ds bounds := by
  induction ds generalizing bounds with
  | nil =>
    rw [← Except.ok.inj h]
    exact .nil
  | cons d ds ih =>
    unfold bindAll at h
    rcases Fault.bind_eq_ok.1 h with ⟨b, hb, hrest⟩
    rcases Fault.bind_eq_ok.1 hrest with ⟨bs, hbs, hbounds⟩
    rw [← Except.ok.inj hbounds]
    exact .cons (bindOne_eq_ok hb) (ih hbs)

theorem prepare_eq_ok {bounds : List Bound} (h : prepare t gluelib ds = .ok bounds)
    : List.Forall₂ (IsBound t gluelib) ds bounds := by
  unfold prepare at h
  rcases Fault.bind_eq_ok.1 h with ⟨bs, hbs, hrest⟩
  split at hrest
  . rw [← Except.ok.inj hrest]
    exact bindAll_eq_ok hbs
  . simp at hrest

theorem exists_isBound {bounds : List Bound} (holds : Binding.Emitted → Prop)
    (h : List.Forall₂ (IsBound t gluelib) ds bounds)
    : (∃ b ∈ bounds, holds b.emitted)
        ↔
      ∃ d ∈ ds, ∃ e, bind t gluelib d = .ok e ∧ holds e := by
  induction h with
  | nil => simp
  | cons hbound _ ih =>
    rw [List.exists_mem_cons_iff, List.exists_mem_cons_iff, ih]
    apply or_congr_left
    rw [hbound.2]
    simp

theorem names_of_isBound {bounds : List Bound} (h : List.Forall₂ (IsBound t gluelib) ds bounds)
    : bounds.filterMap (fun b => b.emitted.managed?.map (·.name))
        = (ds.filterMap (·.identity?)).map (·.name) := by
  induction h with
  | nil => rfl
  | cons hbound _ ih =>
    have hname := (bind_eq_ok hbound.2).1
    rw [List.filterMap_cons, List.filterMap_cons, hname, ih]
    cases Descriptor.identity? _ with
    | none => rfl
    | some i => rfl

section Ledger

variable {p p' : Progress} {l : Ledger} {a : Artifact}

theorem glue_keeps {owner text : String} (hk : p.outputs.Keeps start l)
    (hapart : Set.InjOn (p.outputs.options.place start)
      {f | f ∈ l.files ∨ f ∈ (Artifact.glue owner text).files p.outputs.options})
    (h : p.deliver (.glue owner text) = (none, p'))
    : p'.outputs.options = p.outputs.options
      ∧ p'.outputs.Keeps start (l.enter p.outputs.options (.glue owner text)) := by
  unfold Progress.deliver Progress.glue at h
  simp only [Ledger.enter]
  simp only at h
  split at h
  . next hglue =>
    rw [if_pos hglue]
    generalize happend : p.outputs.appendGlue text = result at h
    rcases result with ⟨r, o⟩
    rcases Prod.mk.inj h with ⟨hr, hp⟩
    rw [← hp]
    cases r with
    | error e => simp at hr
    | ok u =>
      apply appendGlue_keeps hk (hapart.mono fun f => ?_) happend
      simp [Artifact.files, hglue]
  . next hglue =>
    rw [if_neg hglue]
    split at h
    . rw [← (Prod.mk.inj h).2]
      exact ⟨rfl, hk⟩
    . rw [← (Prod.mk.inj h).2]
      exact ⟨rfl, hk⟩

theorem probe_keeps {probe : Binding.Probe} (hk : p.outputs.Keeps start l)
    (hapart : Set.InjOn (p.outputs.options.place start)
      {f | f ∈ l.files ∨ f ∈ (Artifact.probe probe).files p.outputs.options})
    (h : p.deliver (.probe probe) = (none, p'))
    : p'.outputs.options = p.outputs.options
      ∧ p'.outputs.Keeps start (l.enter p.outputs.options (.probe probe)) := by
  unfold Progress.deliver Progress.probe at h
  simp only [Ledger.enter]
  simp only at h
  split at h
  . next hprobes =>
    rw [if_pos hprobes]
    split at h
    . simp at h
    . next o happend =>
      rw [← (Prod.mk.inj h).2]
      apply appendProbe_keeps hk (hapart.mono fun f => ?_) happend
      simp [Artifact.files, hprobes]
  . next hprobes =>
    rw [if_neg hprobes, ← (Prod.mk.inj h).2]
    exact ⟨rfl, hk⟩

theorem deliver_keeps (hk : p.outputs.Keeps start l)
    (hapart : Set.InjOn (p.outputs.options.place start)
      {f | f ∈ l.files ∨ f ∈ a.files p.outputs.options})
    (h : p.deliver a = (none, p'))
    : p'.outputs.options = p.outputs.options
      ∧ p'.outputs.Keeps start (l.enter p.outputs.options a) := by
  cases a with
  | managed owner? file =>
    unfold Progress.deliver Progress.managed at h
    simp only at h
    split at h
    . simp at h
    . next path o hwrite =>
      rw [← (Prod.mk.inj h).2]
      exact writeManaged_keeps hk (hapart.mono fun f => by simp [Artifact.files]) hwrite
  | glue owner text => exact glue_keeps hk hapart h
  | probe probe => exact probe_keeps hk hapart h

theorem deliverAll_keeps {artifacts : List Artifact} (hk : p.outputs.Keeps start l)
    (hapart : Set.InjOn (p.outputs.options.place start)
      {f | f ∈ l.files ∨ ∃ a ∈ artifacts, f ∈ a.files p.outputs.options})
    (h : p.deliverAll artifacts = (none, p'))
    : p'.outputs.options = p.outputs.options
      ∧ p'.outputs.Keeps start (artifacts.foldl (Ledger.enter p.outputs.options) l) := by
  induction artifacts generalizing p l with
  | nil =>
    rw [← (Prod.mk.inj h).2]
    exact ⟨rfl, hk⟩
  | cons a as ih =>
    unfold Progress.deliverAll at h
    generalize hdeliver : p.deliver a = result at h
    rcases result with ⟨_ | e, p₁⟩
    . have hapart₁ : Set.InjOn (p.outputs.options.place start)
          {f | f ∈ l.files ∨ f ∈ a.files p.outputs.options} := by
        apply hapart.mono
        rintro f (hf | hf)
        . exact .inl hf
        . exact .inr ⟨a, List.mem_cons_self, hf⟩
      rcases deliver_keeps hk hapart₁ hdeliver with ⟨hoptions, hk₁⟩
      rw [← hoptions] at hk₁ hapart ⊢
      rw [List.foldl_cons]
      apply ih hk₁ (hapart.mono ?_) h
      rintro f (hf | ⟨b, hb, hf⟩)
      . rcases Ledger.mem_files_enter.1 hf with hf | hf
        . exact .inl hf
        . exact .inr ⟨a, List.mem_cons_self, hf⟩
      . exact .inr ⟨b, List.mem_cons_of_mem _ hb, hf⟩
    . simp at h

-- Between two deliveries a note may be taken, which the outputs do not see.
theorem deliverAll_note_keeps {artifacts later : List Artifact} {events : Log}
    {p₁ : Progress} (hk : p.outputs.Keeps start l)
    (hapart : Set.InjOn (p.outputs.options.place start)
      {f | f ∈ l.files ∨ ∃ a ∈ artifacts ++ later, f ∈ a.files p.outputs.options})
    (hfirst : p.deliverAll artifacts = (none, p₁))
    (hlater : (p₁.note events).deliverAll later = (none, p'))
    : p'.outputs.options = p.outputs.options
      ∧ p'.outputs.Keeps start ((artifacts ++ later).foldl (Ledger.enter p.outputs.options) l) := by
  have hapart₁ : Set.InjOn (p.outputs.options.place start)
      {f | f ∈ l.files ∨ ∃ a ∈ artifacts, f ∈ a.files p.outputs.options} := by
    apply hapart.mono
    rintro f (hf | ⟨a, ha, hf⟩)
    . exact .inl hf
    . exact .inr ⟨a, List.mem_append_left _ ha, hf⟩
  rcases deliverAll_keeps hk hapart₁ hfirst with ⟨hoptions, hk₁⟩
  have hapart₂ : Set.InjOn (p.outputs.options.place start)
      {f | f ∈ Ledger.files (artifacts.foldl (Ledger.enter p.outputs.options) l)
        ∨ ∃ a ∈ later, f ∈ a.files p.outputs.options} := by
    apply hapart.mono
    rintro f (hf | ⟨a, ha, hf⟩)
    . rcases Ledger.mem_files_foldl.1 hf with hf | ⟨a, ha, hf⟩
      . exact .inl hf
      . exact .inr ⟨a, List.mem_append_left _ ha, hf⟩
    . exact .inr ⟨a, List.mem_append_right _ ha, hf⟩
  rw [← hoptions] at hk₁ hapart₂ ⊢
  rw [List.foldl_append]
  exact deliverAll_keeps (p := p₁.note events) hk₁ hapart₂ hlater

end Ledger

variable {o : OutputOptions} {bounds : List Bound}

def GoesTo (o : OutputOptions) (f : OutputFile) (e : Binding.Emitted) : Prop :=
  (∃ name ∈ e.managed?.map (·.name), f = .managed name)
    ∨ (e.glue?.isSome ∧ o.hasGlue ∧ f = .glue)
    ∨ (e.probe?.isSome ∧ o.hasProbes ∧ (f = .probeC ∨ f = .probeCs))

theorem mem_artifacts_files {b : Bound} {f : OutputFile}
    : (∃ a ∈ b.artifacts, f ∈ a.files o) ↔ GoesTo o f b.emitted := by
  unfold Bound.artifacts GoesTo
  cases b.emitted.managed? <;> cases b.emitted.glue? <;> cases b.emitted.probe? <;>
    simp [Artifact.files]

theorem exists_bind {d : Descriptor} (h : List.Forall₂ (IsBound t gluelib) ds bounds)
    (hd : d ∈ ds) : ∃ e, bind t gluelib d = .ok e := by
  induction h with
  | nil => simp at hd
  | cons hbound _ ih =>
    rcases List.mem_cons.1 hd with rfl | hd
    . exact ⟨_, hbound.2⟩
    . exact ih hd

theorem mem_sourceNames {name : String}
    : name ∈ sourceNames ds
        ↔
      (∃ d ∈ ds, name ∈ d.identity?.map (·.name)) ∨ name ∈ (mapperSpaces ds).map mapperName := by
  unfold sourceNames
  rw [List.mem_append]
  apply or_congr_left
  simp only [List.mem_map, List.mem_filterMap, Option.mem_def, Option.map_eq_some_iff]
  constructor
  . rintro ⟨i, ⟨d, hd, hi⟩, hname⟩
    exact ⟨d, hd, i, hi, hname⟩
  . rintro ⟨d, hd, i, hi, hname⟩
    exact ⟨i, ⟨d, hd, hi⟩, hname⟩

theorem mem_outputFiles {f : OutputFile}
    : f ∈ outputFiles t o ds
        ↔
      (∃ name ∈ sourceNames ds, f = .managed name)
        ∨ (o.hasGlue ∧ (∃ d ∈ ds, yieldsGlue t o.glueLibrary d) ∧ f = .glue)
        ∨ (o.hasProbes ∧ (∃ d ∈ ds, d.abiCheck) ∧ (f = .probeC ∨ f = .probeCs)) := by
  unfold outputFiles
  rw [List.mem_append, List.mem_append, List.mem_map, or_assoc]
  apply or_congr
  . simp only [eq_comm]
  . apply or_congr
    . split
      . next h =>
        rw [Bool.and_eq_true, List.any_eq_true] at h
        simp [h.1, h.2]
      . next h =>
        rw [Bool.and_eq_true, List.any_eq_true] at h
        simp only [List.not_mem_nil, false_iff]
        rintro ⟨hglue, hd, _⟩
        exact h ⟨hglue, hd⟩
    . split
      . next h =>
        rw [Bool.and_eq_true, List.any_eq_true] at h
        simp [h.1, h.2]
      . next h =>
        rw [Bool.and_eq_true, List.any_eq_true] at h
        simp only [List.not_mem_nil, false_iff]
        rintro ⟨hprobes, hd, _⟩
        exact h ⟨hprobes, hd⟩

/--
The files to which everything is delivered are those that a generation is said to write.
-/
theorem mem_deliveries_files {f : OutputFile}
    (h : List.Forall₂ (IsBound t o.glueLibrary) ds bounds)
    : (∃ a ∈ deliveries t ds bounds, f ∈ a.files o) ↔ f ∈ outputFiles t o ds := by
  have hdeliveries : (∃ a ∈ deliveries t ds bounds, f ∈ a.files o)
      ↔ (∃ b ∈ bounds, ∃ a ∈ b.artifacts, f ∈ a.files o)
        ∨ ∃ name ∈ (t.mappers ds).map (·.name), f = .managed name := by
    unfold deliveries
    simp only [List.mem_append, List.mem_flatMap, List.mem_map, or_and_right, exists_or]
    apply or_congr
    . constructor
      . rintro ⟨a, ⟨b, hb, ha⟩, hf⟩
        exact ⟨b, hb, a, ha, hf⟩
      . rintro ⟨b, hb, a, ha, hf⟩
        exact ⟨a, ⟨b, hb, ha⟩, hf⟩
    . simp [Artifact.files]
  have hbounds : (∃ b ∈ bounds, ∃ a ∈ b.artifacts, f ∈ a.files o)
      ↔ ∃ d ∈ ds, ∃ e, bind t o.glueLibrary d = .ok e ∧ GoesTo o f e := by
    simp only [mem_artifacts_files]
    exact exists_isBound (GoesTo o f) h
  rw [hdeliveries, hbounds, mem_outputFiles]
  simp only [mapperNames_perm.mem_iff, mem_sourceNames]
  constructor
  . rintro (⟨d, hd, e, he, hgoes⟩ | ⟨name, hname, hf⟩)
    . rcases bind_eq_ok he with ⟨hmanaged, _, hprobe⟩
      rcases hgoes with ⟨name, hname, hf⟩ | ⟨hglue, hconfigured, hf⟩ | ⟨habi, hconfigured, hf⟩
      . rw [hmanaged] at hname
        exact .inl ⟨name, .inl ⟨d, hd, hname⟩, hf⟩
      . refine .inr (.inl ⟨hconfigured, ⟨d, hd, ?_⟩, hf⟩)
        simp [yieldsGlue, he, hglue]
      . rw [hprobe] at habi
        exact .inr (.inr ⟨hconfigured, ⟨d, hd, habi⟩, hf⟩)
    . exact .inl ⟨name, .inr hname, hf⟩
  . rintro (⟨name, ⟨d, hd, hname⟩ | hname, hf⟩ | ⟨hconfigured, ⟨d, hd, hglue⟩, hf⟩
      | ⟨hconfigured, ⟨d, hd, habi⟩, hf⟩)
    . rcases exists_bind h hd with ⟨e, he⟩
      rw [← (bind_eq_ok he).1] at hname
      exact .inl ⟨d, hd, e, he, .inl ⟨name, hname, hf⟩⟩
    . exact .inr ⟨name, hname, hf⟩
    . rcases exists_bind h hd with ⟨e, he⟩
      simp only [yieldsGlue, he] at hglue
      exact .inl ⟨d, hd, e, he, .inr (.inl ⟨hglue, hconfigured, hf⟩)⟩
    . rcases exists_bind h hd with ⟨e, he⟩
      rw [← (bind_eq_ok he).2.2] at habi
      exact .inl ⟨d, hd, e, he, .inr (.inr ⟨habi, hconfigured, hf⟩)⟩

theorem filterMap_name_deliveries (h : List.Forall₂ (IsBound t gluelib) ds bounds)
    : (deliveries t ds bounds).filterMap (·.name?)
        = (ds.filterMap (·.identity?)).map (·.name) ++ (t.mappers ds).map (·.name) := by
  have hartifacts (b : Bound)
      : b.artifacts.filterMap (·.name?) = (b.emitted.managed?.map (·.name)).toList := by
    unfold Bound.artifacts
    cases b.emitted.managed? <;> cases b.emitted.glue? <;> cases b.emitted.probe? <;> rfl
  have hbounds : (bounds.flatMap (·.artifacts)).filterMap (·.name?)
      = (ds.filterMap (·.identity?)).map (·.name) := by
    rw [List.filterMap_flatMap, ← names_of_isBound h]
    rw [List.filterMap_eq_flatMap_toList]
    simp only [hartifacts]
  have hmappers : ((t.mappers ds).map (Artifact.managed none)).filterMap (·.name?)
      = (t.mappers ds).map (·.name) := by
    rw [List.filterMap_map]
    exact congrFun List.filterMap_eq_map _
  unfold deliveries
  rw [List.filterMap_append, hbounds, hmappers]

theorem names_deliveries (h : List.Forall₂ (IsBound t gluelib) ds bounds)
    : ((deliveries t ds bounds).filterMap (·.name?)).Perm (sourceNames ds) := by
  rw [filterMap_name_deliveries h]
  exact mapperNames_perm.append_left _

theorem source_ne_nil {owner? : Option String} {file : Binding.ManagedFile}
    (h : List.Forall₂ (IsBound t gluelib) ds bounds)
    (hmem : .managed owner? file ∈ deliveries t ds bounds) : bytesOf file.source ≠ [] := by
  rcases List.mem_append.1 hmem with hmem | hmem
  . rcases List.mem_flatMap.1 hmem with ⟨b, hb, hfile⟩
    have hsource : b.emitted.managed? = some file ∧ some b.type.cname = owner? := by
      simpa [Bound.artifacts] using hfile
    have hbound : ∃ b ∈ bounds, file ∈ b.emitted.managed? := ⟨b, hb, hsource.1⟩
    rcases (exists_isBound (fun e => file ∈ e.managed?) h).1 hbound with ⟨d, _, e, he, hfile⟩
    rcases (bind_eq_ok he).2.1 file hfile with ⟨lines, hne, hsource⟩
    rw [hsource]
    exact Source.bytesOf_text hne
  . rcases List.mem_map.1 hmem with ⟨mapper, hmapper, heq⟩
    rw [(Artifact.managed.inj heq).2] at hmapper
    rcases List.mem_map.1 hmapper with ⟨nameSpace, _, rfl⟩
    apply Source.bytesOf_text
    simp [Mapper.lines, Source.banner]

theorem nodup_outputFiles (h : (sourceNames ds).Nodup) : (outputFiles t o ds).Nodup := by
  unfold outputFiles
  have hmanaged : ((sourceNames ds).map OutputFile.managed).Nodup := by
    apply h.map
    intro a b hab
    exact OutputFile.managed.inj hab
  rw [List.append_assoc, List.nodup_append]
  refine ⟨hmanaged, ?_, ?_⟩
  . split <;> split <;> simp
  . intro f hf g hg
    rcases List.mem_map.1 hf with ⟨name, _, rfl⟩
    rintro rfl
    revert hg
    split <;> split <;> simp

/--
The outputs of a generation that succeeds keep the ledger of its deliveries.
-/
theorem generate_eq_ok {options : OutputOptions} {stats : Statistics}
    (h : (generate t (some { options, disk := start }) ds).result = .ok stats)
    : ∃ bounds outputs, List.Forall₂ (IsBound t options.glueLibrary) ds bounds
      ∧ (generate t (some { options, disk := start }) ds).outputs? = some outputs
      ∧ (Set.InjOn (options.place start) {f | f ∈ outputFiles t options ds} →
          outputs.options = options
            ∧ outputs.Keeps start ((deliveries t ds bounds).foldl (Ledger.enter options) [])) := by
  unfold generate at h ⊢
  simp only [Option.elim_some] at h ⊢
  generalize hprepare : prepare t options.glueLibrary ds = result at h ⊢
  rcases result with fault | bounds
  . simp at h
  . have hbounds := prepare_eq_ok hprepare
    simp only at h ⊢
    generalize hdelivered : Progress.deliverAll _ (bounds.flatMap (·.artifacts)) = result at h ⊢
    rcases result with ⟨_ | e, p⟩
    . simp only at h ⊢
      generalize hmapped : (p.note (t.mapperEvents ds)).deliverAll _ = result at h ⊢
      rcases result with ⟨_ | e, p'⟩
      . refine ⟨bounds, p'.outputs, hbounds, rfl, ?_⟩
        intro hapart
        have hapart' : Set.InjOn (options.place start)
            {f | f ∈ Ledger.files [] ∨ ∃ a ∈ deliveries t ds bounds, f ∈ a.files options} := by
          apply hapart.mono
          rintro f (hf | hf)
          . simp [Ledger.files] at hf
          . exact (mem_deliveries_files hbounds).1 hf
        exact deliverAll_note_keeps (keeps_initial options start) hapart' hdelivered hmapped
      . simp at h
    . simp at h

end Generation

end Interop
