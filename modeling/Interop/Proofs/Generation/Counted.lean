import Interop.Proofs.Dispatch.Slots
import Interop.Proofs.Generation.Delivered
import Interop.Proofs.Generation.Rehearsal
import Interop.Proofs.Outputs.Session
import Mathlib.Algebra.GroupWithZero.Nat

/-!
This module contains what the counters of a generation stand for, and which files its outputs say
were written: each once, in the order of the first visits to them.
-/

namespace Interop

namespace Statistics

/--
The counter of the types of a kind, for the kinds that are counted.
-/
def ofKind (s : Statistics) : Kind → Nat
  | .struct => s.structs
  | .enum => s.enums
  | .object => s.objects
  | .callback => s.callbacks
  | .simple | .long | .array => 0

def countedKinds : List Kind := [.struct, .enum, .object, .callback]

variable {s : Statistics} {kind k : Kind} {counts : Binding.Counts}

theorem record_ofKind (hk : k ∈ countedKinds)
    : (s.record kind counts).ofKind k = s.ofKind k + if kind = k then 1 else 0 := by
  simp only [countedKinds, List.mem_cons, List.not_mem_nil, or_false] at hk
  rcases hk with rfl | rfl | rfl | rfl <;> cases kind <;> rfl

theorem record_members : (s.record kind counts).members = s.members.add counts := by
  cases kind <;> rfl

end Statistics

/--
The counters of the members of types.
-/
def Binding.Counts.fields : List (Binding.Counts → Nat) :=
  [(·.constructors), (·.methods), (·.virtualMethods), (·.properties), (·.glueFunctions)]

theorem Binding.Counts.add_field {field : Binding.Counts → Nat} (h : field ∈ fields)
    (a b : Binding.Counts) : field (a.add b) = field a + field b := by
  simp only [fields, List.mem_cons, List.not_mem_nil, or_false] at h
  rcases h with rfl | rfl | rfl | rfl | rfl <;> rfl

theorem Binding.Counts.empty_field {field : Binding.Counts → Nat} (h : field ∈ fields)
    : field {} = 0 := by
  simp only [fields, List.mem_cons, List.not_mem_nil, or_false] at h
  rcases h with rfl | rfl | rfl | rfl | rfl <;> rfl

theorem length_filterMap_identity? (ds : List Descriptor)
    : (ds.filterMap (·.identity?)).length
        =
      (Statistics.countedKinds.map fun k => ds.countP (·.kind = k)).sum := by
  rw [List.length_filterMap_eq_countP]
  simp only [Statistics.countedKinds, List.map_cons, List.map_nil, List.sum_cons, List.sum_nil]
  induction ds with
  | nil => rfl
  | cons d ds ih =>
    simp only [List.countP_cons, decide_eq_true_eq]
    have hone : (if d.identity?.isSome = true then 1 else 0)
        = (if d.kind = .struct then 1 else 0) + (if d.kind = .enum then 1 else 0)
          + (if d.kind = .object then 1 else 0) + if d.kind = .callback then 1 else 0 := by
      cases d <;> rfl
    omega

namespace Ledger

variable {o : OutputOptions} {l : Ledger} {a : Generation.Artifact} {f : OutputFile}
  {seen : List OutputFile}

theorem begin_visits {header : Bytes} (h : l.files = seen.eraseDups)
    : (l.begin f header).files = (seen ++ [f]).eraseDups := by
  rw [eraseDups_concat]
  unfold begin
  split
  . next hmem =>
    rw [h, List.mem_eraseDups] at hmem
    rw [if_pos hmem, h]
  . next hnew =>
    rw [h, List.mem_eraseDups] at hnew
    rw [if_neg hnew, files_append, h]

theorem enter_visits (h : l.files = seen.eraseDups) (hnodup : (l.enter o a).files.Nodup)
    : (l.enter o a).files = (seen ++ a.files o).eraseDups := by
  cases a with
  | managed owner? file =>
    simp only [enter, Generation.Artifact.files] at hnodup ⊢
    rw [files_append, h] at hnodup ⊢
    have hnew : .managed file.name ∉ seen := by
      rw [← List.mem_eraseDups]
      exact fun hmem => (List.nodup_append.1 hnodup).2.2 _ hmem _ (List.mem_singleton.2 rfl) rfl
    rw [eraseDups_concat, if_neg hnew]
  | glue owner text =>
    simp only [enter, Generation.Artifact.files]
    split
    . rw [files_extend, begin_visits h]
    . rw [List.append_nil, h]
  | probe p =>
    simp only [enter, Generation.Artifact.files]
    split
    . rw [files_extend, files_extend, begin_visits (begin_visits h), List.append_assoc,
        List.singleton_append]
    . rw [List.append_nil, h]

theorem files_prefix_begin {header : Bytes} : l.files <+: (l.begin f header).files := by
  unfold begin
  split
  . exact List.prefix_refl _
  . rw [files_append]
    exact List.prefix_append _ _

theorem files_prefix_enter : l.files <+: (l.enter o a).files := by
  cases a with
  | managed owner? file =>
    simp only [enter]
    rw [files_append]
    exact List.prefix_append _ _
  | glue owner text =>
    simp only [enter]
    split
    . rw [files_extend]
      exact files_prefix_begin
    . exact List.prefix_refl _
  | probe p =>
    simp only [enter]
    split
    . rw [files_extend, files_extend]
      exact files_prefix_begin.trans files_prefix_begin
    . exact List.prefix_refl _

/--
The files of a ledger without repetitions are those that were visited, in the order of the first
visits.
-/
theorem files_foldl {artifacts : List Generation.Artifact}
    (hnodup : (artifacts.foldl (enter o) []).files.Nodup)
    : (artifacts.foldl (enter o) []).files = (artifacts.flatMap (·.files o)).eraseDups := by
  induction artifacts using List.reverseRecOn with
  | nil => rfl
  | append_singleton artifacts a ih =>
    rw [List.foldl_append, List.foldl_cons, List.foldl_nil] at hnodup ⊢
    rw [List.flatMap_append, List.flatMap_singleton]
    exact enter_visits (ih (hnodup.sublist files_prefix_enter.sublist)) hnodup

end Ledger

namespace Generation

open Outputs

variable {t : Table} {gluelib : String} {ds : List Descriptor} {bounds : List Bound}
  {p p' p'' : Progress} {a : Artifact} {artifacts later : List Artifact}

def Artifact.isProbe : Artifact → Bool
  | .probe _ => true
  | .managed _ _ | .glue _ _ => false

/--
What a delivery of all of the artifacts adds to the counters.
-/
structure Counts (artifacts : List Artifact) (p p' : Progress) : Prop where
  options : p'.outputs.options = p.outputs.options
  filesWritten : p'.filesWritten = p.filesWritten + (artifacts.filterMap (·.name?)).length
  probes : p'.probes
    = p.probes + if p.outputs.options.hasProbes then artifacts.countP (·.isProbe) else 0

theorem Counts.append (h : Counts artifacts p p') (h' : Counts later p' p'')
    : Counts (artifacts ++ later) p p'' where
  options := h'.options.trans h.options
  filesWritten := by
    rw [h'.filesWritten, h.filesWritten, List.filterMap_append, List.length_append, Nat.add_assoc]
  probes := by
    rw [h'.probes, h.probes, h.options, List.countP_append]
    split <;> omega

theorem deliver_counts (h : p.deliver a = (none, p')) : Counts [a] p p' := by
  cases a with
  | managed owner? file =>
    unfold Progress.deliver Progress.managed at h
    simp only at h
    split at h
    . cases h
    . next path o hwrite =>
      rw [← (Prod.mk.inj h).2, (writeManaged_ok hwrite).2.1]
      exact ⟨rfl, rfl, by simp [Artifact.isProbe]⟩
  | glue owner text =>
    have honward : Onward p.outputs (p.outputs.appendGlue text).2 := appendGlue_onward
    unfold Progress.deliver Progress.glue at h
    simp only at h
    split at h
    . rw [← (Prod.mk.inj h).2]
      exact ⟨honward.options, rfl, by simp [Artifact.isProbe]⟩
    . split at h
      all_goals
        rw [← (Prod.mk.inj h).2]
        exact ⟨rfl, rfl, by simp [Artifact.isProbe]⟩
  | probe probe =>
    have honward : Onward p.outputs (p.outputs.appendProbe probe).2 := appendProbe_onward
    unfold Progress.deliver Progress.probe at h
    simp only at h
    split at h
    . next hprobes =>
      split at h
      . cases h
      . next o happend =>
        rw [happend] at honward
        rw [← (Prod.mk.inj h).2]
        exact ⟨honward.options, rfl, by simp [Artifact.isProbe, hprobes]⟩
    . next hprobes =>
      rw [← (Prod.mk.inj h).2]
      exact ⟨rfl, rfl, by simp [hprobes]⟩

theorem deliverAll_counts (h : p.deliverAll artifacts = (none, p')) : Counts artifacts p p' := by
  induction artifacts generalizing p with
  | nil =>
    rw [← (Prod.mk.inj h).2]
    exact ⟨rfl, rfl, by simp⟩
  | cons a as ih =>
    unfold Progress.deliverAll at h
    generalize hdeliver : p.deliver a = result at h
    rcases result with ⟨_ | e, p₁⟩
    . exact (deliver_counts hdeliver).append (ih h)
    . cases h

/--
The files that are written to for one type, in order.
-/
def visitsOf (t : Table) (o : OutputOptions) (d : Descriptor) : List OutputFile :=
  (d.identity?.map (·.name)).toList.map .managed
    ++ (if o.hasGlue && yieldsGlue t o.glueLibrary d then [.glue] else [])
    ++ if o.hasProbes && d.abiCheck then [.probeC, .probeCs] else []

/--
The files that a generation writes to, each as often as it does.
-/
def visits (t : Table) (o : OutputOptions) (ds : List Descriptor) : List OutputFile :=
  ds.flatMap (visitsOf t o) ++ (t.mappers ds).map fun m => .managed m.name

/--
What binding a type says of its members.
-/
def countsOf (t : Table) (gluelib : String) (d : Descriptor) : Binding.Counts :=
  match bind t gluelib d with
  | .ok e => e.counts
  | .error _ => {}

section Bound

variable {o : OutputOptions} {d : Descriptor} {b : Bound}

theorem types_of_isBound (h : List.Forall₂ (IsBound t gluelib) ds bounds)
    : bounds.map (·.type) = ds := by
  induction h with
  | nil => rfl
  | cons hbound _ ih => rw [List.map_cons, hbound.1, ih]

theorem IsBound.visits (h : IsBound t o.glueLibrary d b)
    : b.artifacts.flatMap (·.files o) = visitsOf t o d := by
  rcases h with ⟨_, hbind⟩
  rcases bind_eq_ok hbind with ⟨hname, _, hprobe⟩
  have hglue : yieldsGlue t o.glueLibrary d = b.emitted.glue?.isSome := by
    unfold yieldsGlue
    rw [hbind]
  unfold Bound.artifacts visitsOf
  rw [← hname, hglue, ← hprobe, List.flatMap_append, List.flatMap_append]
  congr 1
  . congr 1
    . cases b.emitted.managed? <;> rfl
    . cases b.emitted.glue? <;> simp [Artifact.files]
  . cases b.emitted.probe? <;> simp [Artifact.files]

theorem visits_deliveries (h : List.Forall₂ (IsBound t o.glueLibrary) ds bounds)
    : (deliveries t ds bounds).flatMap (·.files o) = Generation.visits t o ds := by
  have hbounds
      : (bounds.flatMap (·.artifacts)).flatMap (·.files o) = ds.flatMap (visitsOf t o) := by
    rw [List.flatMap_assoc]
    induction h with
    | nil => rfl
    | cons hbound _ ih => rw [List.flatMap_cons, List.flatMap_cons, hbound.visits, ih]
  unfold deliveries Generation.visits
  rw [List.flatMap_append, hbounds, List.flatMap_map]
  congr 1
  exact List.map_eq_flatMap.symm

theorem countP_isProbe_deliveries (h : List.Forall₂ (IsBound t gluelib) ds bounds)
    : (deliveries t ds bounds).countP (·.isProbe) = ds.countP (·.abiCheck) := by
  have hone {d : Descriptor} {b : Bound} (hbound : IsBound t gluelib d b)
      : b.artifacts.countP (·.isProbe) = if d.abiCheck then 1 else 0 := by
    rw [← (bind_eq_ok hbound.2).2.2]
    unfold Bound.artifacts
    cases b.emitted.managed? <;> cases b.emitted.glue? <;> cases b.emitted.probe? <;> rfl
  have hmappers : ((t.mappers ds).map (Artifact.managed none)).countP (·.isProbe) = 0 := by
    simp [Artifact.isProbe]
  unfold deliveries
  rw [List.countP_append, hmappers, Nat.add_zero]
  clear hmappers
  induction h with
  | nil => rfl
  | cons hbound _ ih =>
    rw [List.flatMap_cons, List.countP_append, List.countP_cons, hone hbound, ih, Nat.add_comm]

theorem counts_of_isBound (h : List.Forall₂ (IsBound t gluelib) ds bounds)
    : bounds.map (·.emitted.counts) = ds.map (countsOf t gluelib) := by
  induction h with
  | nil => rfl
  | cons hbound _ ih =>
    rw [List.map_cons, List.map_cons, ih, countsOf, hbound.2]

theorem foldl_record_ofKind (bounds : List Bound) (s : Statistics) {k : Kind}
    (hk : k ∈ Statistics.countedKinds)
    : (bounds.foldl (fun s b => s.record b.type.kind b.emitted.counts) s).ofKind k
        = s.ofKind k + bounds.countP (·.type.kind = k) := by
  induction bounds generalizing s with
  | nil => rfl
  | cons b bs ih =>
    rw [List.foldl_cons, ih, Statistics.record_ofKind hk, List.countP_cons]
    simp only [decide_eq_true_eq]
    omega

theorem foldl_record_members (bounds : List Bound) (s : Statistics)
    {field : Binding.Counts → Nat} (hfield : field ∈ Binding.Counts.fields)
    : field (bounds.foldl (fun s b => s.record b.type.kind b.emitted.counts) s).members
        = field s.members + (bounds.map fun b => field b.emitted.counts).sum := by
  induction bounds generalizing s with
  | nil => rfl
  | cons b bs ih =>
    rw [List.foldl_cons, ih, Statistics.record_members, Binding.Counts.add_field hfield,
      List.map_cons, List.sum_cons, Nat.add_assoc]

end Bound

variable {options : OutputOptions} {d : Disk} {s : Statistics}

/--
What the counters of a generation of `ds` tell.
-/
structure Counted (t : Table) (options : OutputOptions) (ds : List Descriptor) (s : Statistics) :
    Prop where
  structs : s.structs = ds.countP (·.kind = .struct)
  enums : s.enums = ds.countP (·.kind = .enum)
  objects : s.objects = ds.countP (·.kind = .object)
  callbacks : s.callbacks = ds.countP (·.kind = .callback)
  mappers : s.mappers = (mapperSpaces ds).length
  filesWritten : s.filesWritten = s.types + s.mappers
  probes : s.probes = if options.hasProbes then ds.countP (·.abiCheck) else 0
  members : ∀ field ∈ Binding.Counts.fields,
    field s.members = (ds.map fun d => field (countsOf t options.glueLibrary d)).sum

theorem tally_ofKind {k : Kind} (h : List.Forall₂ (IsBound t gluelib) ds bounds)
    (hk : k ∈ Statistics.countedKinds) : (tally t bounds).ofKind k = ds.countP (·.kind = k) := by
  have hfoldl := foldl_record_ofKind bounds {} hk
  rw [← types_of_isBound h, List.countP_map]
  simp only [Statistics.countedKinds, List.mem_cons, List.not_mem_nil, or_false] at hk
  rcases hk with rfl | rfl | rfl | rfl
  all_goals exact hfoldl.trans (Nat.zero_add _)

theorem tally_types (h : List.Forall₂ (IsBound t gluelib) ds bounds)
    : (tally t bounds).types = (ds.filterMap (·.identity?)).length := by
  have hkinds : (tally t bounds).types
      = (Statistics.countedKinds.map (tally t bounds).ofKind).sum := by
    simp only [Statistics.countedKinds, List.map_cons, List.map_nil, List.sum_cons, List.sum_nil,
      Statistics.ofKind, Statistics.types]
    omega
  rw [hkinds, length_filterMap_identity?]
  congr 1
  exact List.map_congr_left fun k hk => tally_ofKind h hk

theorem tally_mappers (h : List.Forall₂ (IsBound t gluelib) ds bounds)
    : (tally t bounds).mappers = (mapperSpaces ds).length := by
  have hperm : ((t.mappers ds).map (·.name)).Perm ((mapperSpaces ds).map mapperName) :=
    mapperNames_perm
  have hlength := hperm.length_eq
  rw [List.length_map, List.length_map] at hlength
  unfold tally
  rw [types_of_isBound h]
  exact hlength

theorem tally_members {field : Binding.Counts → Nat}
    (h : List.Forall₂ (IsBound t gluelib) ds bounds)
    (hfield : field ∈ Binding.Counts.fields)
    : field (tally t bounds).members = (ds.map fun d => field (countsOf t gluelib d)).sum := by
  have hfoldl := foldl_record_members bounds {} hfield
  have hsum : bounds.map (fun b => field b.emitted.counts)
      = ds.map fun d => field (countsOf t gluelib d) := by
    have hcounts := congrArg (List.map field) (counts_of_isBound h)
    rwa [List.map_map, List.map_map] at hcounts
  rw [← hsum]
  exact hfoldl.trans (by rw [Binding.Counts.empty_field hfield, Nat.zero_add])

/--
A generation that succeeds has delivered everything, and takes its last two counters from that.
-/
theorem generate_delivered (h : (generate t (some (fresh options d)) ds).result = .ok s)
    : ∃ bounds p, List.Forall₂ (IsBound t options.glueLibrary) ds bounds
      ∧ (generate t (some (fresh options d)) ds).outputs? = some p.outputs
      ∧ Counts (deliveries t ds bounds) { outputs := fresh options d } p
      ∧ (Set.InjOn (options.place d) {f | f ∈ outputFiles t options ds} →
          p.outputs.options = options
            ∧ p.outputs.Keeps d ((deliveries t ds bounds).foldl (Ledger.enter options) []))
      ∧ s = { tally t bounds with filesWritten := p.filesWritten, probes := p.probes } := by
  have hkeeps : (fresh options d).Keeps d [] := keeps_initial options d
  unfold generate at h ⊢
  simp only [Option.elim_some] at h ⊢
  rw [show (fresh options d).options.glueLibrary = options.glueLibrary from rfl] at h ⊢
  generalize hprepare : prepare t options.glueLibrary ds = result at h ⊢
  rcases result with fault | bounds
  . cases h
  . have hbounds := prepare_eq_ok hprepare
    simp only at h ⊢
    generalize hdelivered : Progress.deliverAll _ (bounds.flatMap (·.artifacts)) = result at h ⊢
    rcases result with ⟨_ | e, p⟩
    . simp only at h ⊢
      generalize hmapped : (p.note (t.mapperEvents ds)).deliverAll _ = result at h ⊢
      rcases result with ⟨_ | e, p'⟩
      . have htypes := deliverAll_counts hdelivered
        have hmappers := deliverAll_counts hmapped
        have htypes : Counts _ { outputs := fresh options d } (p.note (t.mapperEvents ds)) :=
          ⟨htypes.options, htypes.filesWritten, htypes.probes⟩
        refine ⟨bounds, p', hbounds, rfl, htypes.append hmappers, ?_, (Except.ok.inj h).symm⟩
        intro hapart
        refine deliverAll_note_keeps hkeeps (hapart.mono ?_) hdelivered hmapped
        rintro f (hf | hf)
        . simp [Ledger.files] at hf
        . exact (mem_deliveries_files hbounds).1 hf
      . cases h
    . cases h

theorem nodup_written {o : Outputs} {files : List OutputFile} (hnodup : files.Nodup)
    (hapart : Set.InjOn (options.place d) {f | f ∈ files})
    (hwritten : o.written.map some = files.map options.path?) : o.written.Nodup := by
  have hpaths : (files.map options.path?).Nodup := by
    apply hnodup.map_on
    intro f hf g hg hsame
    apply hapart hf hg
    unfold OutputOptions.place
    rw [hsame]
  rw [← hwritten] at hpaths
  exact hpaths.of_map

/--
The statistics of a generation that succeeds, with outputs that were new. Of every kind that is
counted they tell how many of the types are of it, and of members, probes and mappers how many were
delivered; a managed file was written for each type counted and for each mapper. If the files lie at
different places, the outputs list each of them once, in the order of the first visits to them, the
shared files among them that were opened.
-/
theorem generate_counted (h : (generate t (some (fresh options d)) ds).result = .ok s)
    : Counted t options ds s
      ∧ (Set.InjOn (options.place d) {f | f ∈ outputFiles t options ds} →
          ∃ o files, (generate t (some (fresh options d)) ds).outputs? = some o
            ∧ files = (visits t options ds).eraseDups ∧ o.written.map some = files.map options.path?
            ∧ o.written.Nodup ∧ s.filesWritten = (files.filterMap (·.name?)).length) := by
  rcases generate_delivered h with ⟨bounds, p, hbounds, houtputs, hcounts, hkeeps, rfl⟩
  have hnames := congrArg List.length (filterMap_name_deliveries hbounds)
  rw [List.length_append, List.length_map, List.length_map] at hnames
  have hfilesWritten : p.filesWritten = ((deliveries t ds bounds).filterMap (·.name?)).length := by
    rw [hcounts.filesWritten, Nat.zero_add]
  refine ⟨⟨?_, ?_, ?_, ?_, ?_, ?_, ?_, ?_⟩, ?_⟩
  . exact tally_ofKind (k := .struct) hbounds (by simp [Statistics.countedKinds])
  . exact tally_ofKind (k := .enum) hbounds (by simp [Statistics.countedKinds])
  . exact tally_ofKind (k := .object) hbounds (by simp [Statistics.countedKinds])
  . exact tally_ofKind (k := .callback) hbounds (by simp [Statistics.countedKinds])
  . exact tally_mappers hbounds
  . have hmappers : (tally t bounds).mappers = (t.mappers ds).length := by
      unfold tally
      rw [types_of_isBound hbounds]
    dsimp only
    rw [hfilesWritten, hnames, ← tally_types hbounds, ← hmappers]
    rfl
  . dsimp only
    rw [hcounts.probes, countP_isProbe_deliveries hbounds, Nat.zero_add]
    rfl
  . exact fun field hfield => tally_members hbounds hfield
  . intro hapart
    rcases hkeeps hapart with ⟨hoptions, hk⟩
    have hfiles := Ledger.files_foldl hk.nodup
    rw [visits_deliveries hbounds] at hfiles
    have hwritten := hk.written
    have hnodup := hk.nodup
    rw [hfiles, hoptions] at hwritten
    rw [hfiles] at hnodup
    refine ⟨p.outputs, _, houtputs, rfl, hwritten, nodup_written (d := d) hnodup ?_ hwritten, ?_⟩
    . apply hapart.mono
      intro f hf
      rw [Set.mem_ofPred_eq, ← hfiles, Ledger.mem_files_foldl] at hf
      apply (mem_deliveries_files hbounds).1
      simpa [Ledger.files] using hf
    . dsimp only
      rw [hfilesWritten, ← hfiles]
      have hledger : ((deliveries t ds bounds).foldl (Ledger.enter options) []).names
          = Ledger.names [] ++ (deliveries t ds bounds).filterMap (·.name?) :=
        Ledger.names_foldl
      rw [show Ledger.names [] = [] from rfl, List.nil_append] at hledger
      rw [← hledger]
      rfl

def gauge : Descriptor :=
  .object ⟨⟨"DemoGauge", "Gauge", "Demo", "libdemo"⟩, none, none, [], [], []⟩

def gaugeTable : Table where
  entries := meterTable.entries ++ [gauge]
  nodup := by decide

def gaugeTypes : List Descriptor := [gauge, meterStatus, meterColor]

theorem gauge_apart
    : Set.InjOn (meterOptions.place .blank)
        {f | f ∈ outputFiles gaugeTable meterOptions gaugeTypes} := by
  have hplaces : ∀ f ∈ outputFiles gaugeTable meterOptions gaugeTypes,
      ∀ g ∈ outputFiles gaugeTable meterOptions gaugeTypes,
        meterOptions.place .blank f = meterOptions.place .blank g → f = g := by
    decide +kernel
  exact fun f hf g hg => hplaces f hf g hg

theorem generate_counted_gauge
    : ∃ s o, (generate gaugeTable (some (fresh meterOptions .blank)) gaugeTypes).result = .ok s
        ∧ Set.InjOn (meterOptions.place .blank)
            {f | f ∈ outputFiles gaugeTable meterOptions gaugeTypes}
        ∧ s.structs = 1 ∧ s.objects = 1 ∧ s.mappers = 1 ∧ s.probes = 1 ∧ s.members.glueFunctions = 2
        ∧ s.filesWritten = 4
        ∧ (generate gaugeTable (some (fresh meterOptions .blank)) gaugeTypes).outputs? = some o
        ∧ o.written = [⟨"out/Gauge.cs"⟩, ⟨"out/Status.cs"⟩, ⟨"out/glue.c"⟩, ⟨"abi.c"⟩, ⟨"abi.cs"⟩,
            ⟨"out/Color.cs"⟩, ⟨"out/Demo.ObjectMapper.cs"⟩] := by
  have hsome : (generate gaugeTable (some (fresh meterOptions .blank))
      gaugeTypes).result.toOption.isSome := by
    decide +kernel
  rcases Option.isSome_iff_exists.1 hsome with ⟨s, hs⟩
  rw [Fault.toOption_eq_some] at hs
  rcases generate_counted hs with ⟨hcounted, hlisted⟩
  rcases hlisted gauge_apart with ⟨o, files, houtputs, hfiles, hwritten, _, hcount⟩
  have hvisits : (visits gaugeTable meterOptions gaugeTypes).eraseDups
      = [.managed "Gauge", .managed "Status", .glue, .probeC, .probeCs, .managed "Color",
         .managed "Demo.ObjectMapper"] := by
    decide +kernel
  rw [hfiles, hvisits] at hwritten hcount
  refine ⟨s, o, hs, gauge_apart, hcounted.structs.trans ?_, hcounted.objects.trans ?_,
    hcounted.mappers.trans ?_, hcounted.probes.trans ?_, ?_, hcount, houtputs, ?_⟩
  . decide +kernel
  . decide +kernel
  . decide +kernel
  . decide +kernel
  . have hglue := hcounted.members (·.glueFunctions) (by simp [Binding.Counts.fields])
    exact hglue.trans (by decide +kernel)
  . apply List.map_injective_iff.2 (Option.some_injective Path)
    rw [hwritten]
    decide +kernel

end Generation

end Interop
