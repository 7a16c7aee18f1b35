import Interop.Proofs.Generation.Delivered
import Interop.Proofs.Run.Loading
import Interop.Proofs.Validation.Session

/-!
This module contains which files a run leaves behind: those of the valid types among the documents
to generate, and no others.
-/

namespace Interop

open Disk Generation

namespace Run

/--
Exactly these files were written: each of them once, and apart from them only directories were made.
-/
structure Wrote (o : OutputOptions) (before after : Disk) (files : List OutputFile) : Prop where
  once : files.Nodup
  present : ∀ f ∈ files, ∃ content, after.entry? (o.place before f) = some (.file content)
  nothingElse : ChangedAt {q | ∃ f ∈ files, q = o.place before f} before after

theorem generate_none_outputs {t : Table} {ds : List Descriptor}
    : (generate t none ds).outputs? = none := by
  unfold generate
  simp only
  split
  . rfl
  . rfl

-- What the outputs hold when they are closed is in the ledger, whose files are the expected ones.
theorem wrote_of_close {t : Table} {o : OutputOptions} {d : Disk} {ds : List Descriptor}
    {stats : Statistics} {outputs closed : Outputs}
    (h : (generate t (some { options := o, disk := d }) ds).result = .ok stats)
    (houtputs : (generate t (some { options := o, disk := d }) ds).outputs? = some outputs)
    (hclose : outputs.close = (.ok (), closed))
    (hapart : Set.InjOn (o.place d) {f | f ∈ outputFiles t o ds})
    : Wrote o d closed.disk (outputFiles t o ds) := by
  rcases generate_eq_ok h with ⟨bounds, outputs', hbounds, houtputs', hkeeps⟩
  rw [houtputs] at houtputs'
  rw [← Option.some.inj houtputs'] at hkeeps
  rcases hkeeps hapart with ⟨hoptions, hk⟩
  have hfiles (f : OutputFile)
      : f ∈ ((deliveries t ds bounds).foldl (Ledger.enter o) []).files
          ↔ f ∈ outputFiles t o ds := by
    rw [Ledger.mem_files_foldl, ← mem_deliveries_files hbounds]
    simp [Ledger.files]
  have hfilled : ((deliveries t ds bounds).foldl (Ledger.enter o) []).Filled := by
    apply Ledger.Filled.foldl
    . simp [Ledger.Filled]
    . intro owner? file hmem
      exact source_ne_nil hbounds hmem
  have hnodup : (sourceNames ds).Nodup := by
    have hnames := Ledger.nodup_names hk.nodup
    rw [Ledger.names_foldl] at hnames
    exact (names_deliveries hbounds).nodup_iff.1 hnames
  generalize (deliveries t ds bounds).foldl (Ledger.enter o) [] = ledger at hk hfiles hfilled
  have hapart' : Set.InjOn (outputs.options.place d) {f | f ∈ ledger.files} := by
    rw [hoptions]
    apply hapart.mono
    intro f hf
    exact (hfiles f).1 hf
  rcases Outputs.close_keeps hk hapart' hclose with ⟨hchanged, hcontains⟩
  rw [hoptions] at hchanged hcontains
  refine ⟨nodup_outputFiles hnodup, ?_, ?_⟩
  . intro f hf
    rcases List.mem_map.1 ((hfiles f).2 hf) with ⟨⟨g, text⟩, hmem, rfl⟩
    have hne : text ++ bytesOf g.footer ≠ [] := by
      simp [hfilled g text hmem]
    exact ⟨_, (hcontains g text hmem).file hne⟩
  . apply hchanged.mono
    rintro q ⟨f, hf, hq⟩
    exact ⟨f, (hfiles f).1 hf, hq⟩

open Classical in
theorem generateValid_ok {o : Options} {d : Disk} {l : Loading} {stats : Statistics}
    (htargets : ∀ g ∈ l.targets, l.table.find? g.cname = some g)
    (h : (generateValid o d l).result = .ok stats)
    : stats.excluded = (l.targets.filter fun g => ¬ l.table.Valid g.cname).length
      ∧ (o.outputs.wantsOutput = false → (generateValid o d l).disk = d)
      ∧ (o.outputs.wantsOutput = true →
          let files := outputFiles l.table o.outputs (l.targets.filter (l.table.Valid ·.cname))
          Set.InjOn (o.outputs.place d) {f | f ∈ files} →
            Wrote o.outputs d (generateValid o d l).disk files) := by
  have hpartition := Validation.Knowledge.faithful_initial.partition htargets
  unfold generateValid at h ⊢
  generalize Validation.partition l.table .initial l.targets = result at h hpartition ⊢
  rcases result with ⟨p, k⟩
  rcases hpartition with ⟨hvalid, hinvalid, _⟩
  have hexcluded : p.invalid.length
      = (l.targets.filter fun g => ¬ l.table.Valid g.cname).length := by
    have hlength := congrArg List.length hinvalid
    simpa using hlength
  simp only at h hvalid ⊢
  rw [← hexcluded, ← hvalid]
  rcases Fault.bind_eq_ok.1 h with ⟨generated, hgenerated, hrest⟩
  cases hwants : o.outputs.wantsOutput with
  | false =>
    simp only [hwants, Bool.false_eq_true, if_false, generate_none_outputs, Option.map_none]
      at hrest ⊢
    rw [← Except.ok.inj hrest]
    exact ⟨rfl, fun _ => rfl, False.elim⟩
  | true =>
    simp only [hwants, if_true] at hgenerated hrest ⊢
    have hok := Fault.mapError_eq_ok.1 hgenerated
    rcases generate_eq_ok hok with ⟨_, outputs, _, houtputs, _⟩
    simp only [houtputs, Option.map_some] at hrest ⊢
    generalize hclose : outputs.close = result at hrest ⊢
    rcases result with ⟨e | u, closed⟩
    . simp [fail] at hrest
    . rw [← Except.ok.inj hrest]
      refine ⟨rfl, by simp, ?_⟩
      intro _ hapart
      exact wrote_of_close hok houtputs hclose hapart

def start (o : Options) (d : Disk) : Loading :=
  { Loading.initial with log := schemaEvents d o ++ Loading.initial.log }

theorem execute_of_loadAll {supported : Bool} {o : Options} {d : Disk} {schema? : Option Schema}
    {l : Loading} (hconfiguration : o.configuration? = none) (husage : checkUsage o = .ok ())
    (hschema : loadSchema d o = .ok schema?)
    (hload : Loading.loadAll d schema? o.searchDir? (start o d) (documents o) = (.ok (), l))
    : execute supported o d = generateValid o d l := by
  have hconfigure : configure supported d o = .ok o := by
    unfold configure
    rw [hconfiguration]
  unfold start at hload
  unfold execute
  simp only [hconfigure, husage, hschema, hload]

theorem execute_ok {supported : Bool} {o : Options} {d : Disk} {stats : Statistics}
    (hconfiguration : o.configuration? = none)
    (hok : (execute supported o d).result = .ok stats)
    : ∃ schema? l, loadSchema d o = .ok schema?
      ∧ Loading.loadAll d schema? o.searchDir? (start o d) (documents o) = (.ok (), l)
      ∧ execute supported o d = generateValid o d l := by
  have hconfigure : configure supported d o = .ok o := by
    unfold configure
    rw [hconfiguration]
  cases husage : checkUsage o with
  | error fault =>
    unfold execute at hok
    simp [hconfigure, husage] at hok
  | ok u =>
    cases hschema : loadSchema d o with
    | error fault =>
      unfold execute at hok
      simp [hconfigure, husage, hschema] at hok
    | ok schema? =>
      generalize hload : Loading.loadAll d schema? o.searchDir? (start o d) (documents o) = result
      rcases result with ⟨fault | v, l⟩
      . unfold start at hload
        unfold execute at hok
        simp [hconfigure, husage, hschema, hload] at hok
      . exact ⟨schema?, l, rfl, hload, execute_of_loadAll hconfiguration husage hschema hload⟩

open Classical in
/--
A run without a configuration file that succeeds has read all its documents. The types declared by
the documents to generate are divided into the valid ones and those that are counted as excluded,
where validity is that in the table of all declared types. If output was asked for, and the files of
the valid types lie at different places, exactly these files were written; else nothing was.
-/
theorem execute_wrote (supported : Bool) (o : Options) (d : Disk) (stats : Statistics)
    (hconfiguration : o.configuration? = none)
    (hok : (execute supported o d).result = .ok stats)
    : ∃ schema? included declared, ∃ t : Table,
      loadSchema d o = .ok schema?
        ∧ List.Forall₂ (Declares d schema? o.searchDir?) o.includes included
        ∧ List.Forall₂ (Declares d schema? o.searchDir?) o.generate declared
        ∧ (∀ e, e ∈ t.entries
            ↔ e ∈ Table.builtin.entries ∨ e ∈ included.flatten ∨ e ∈ declared.flatten)
        ∧ stats.excluded = (declared.flatten.filter fun g => ¬ t.Valid g.cname).length
        ∧ (o.outputs.wantsOutput = false → (execute supported o d).disk = d)
        ∧ (o.outputs.wantsOutput = true →
            let files := outputFiles t o.outputs (declared.flatten.filter (t.Valid ·.cname))
            Set.InjOn (o.outputs.place d) {f | f ∈ files} →
              Wrote o.outputs d (execute supported o d).disk files) := by
  rcases execute_ok hconfiguration hok with ⟨schema?, l, hschema, hload, hexecute⟩
  rw [hexecute] at hok ⊢
  rcases Loading.loadAll_documents hload
    with ⟨included, declared, hincluded, hdeclared, hentries, htargets⟩
  have htargets : l.targets = declared.flatten := htargets
  have hregistered : ∀ g ∈ l.targets, l.table.find? g.cname = some g := by
    intro g hg
    apply Table.find?_of_mem
    rw [hentries, ← htargets]
    exact .inr (.inr hg)
  have hfiles := generateValid_ok hregistered hok
  rw [htargets] at hfiles
  exact ⟨schema?, included, declared, l.table, hschema, hincluded, hdeclared, hentries, hfiles⟩

/--
A document with a type that can be generated, and one whose parent nobody declares.
-/
def sampleDocument : String :=
  Source.text
    ["namespace: Demo", "types:",
     "- kind: enum", "  cname: DemoColor", "  name: Color", "  members: []",
     "- kind: object", "  cname: DemoPoint", "  name: Point", "  parent: DemoStray"]

def sampleDisk : Disk :=
  Disk.blank.set ["demo.yaml", "work", "run"] (.file (bytesOf sampleDocument))

def sampleOptions : Options where
  generate := [⟨"demo.yaml"⟩]
  outDir? := some ⟨"out"⟩

def sampleColor : Descriptor :=
  .enum ⟨⟨"DemoColor", "Color", "Demo", "Demo"⟩, 32, true, false, [], true⟩

def samplePoint : Descriptor :=
  .object ⟨⟨"DemoPoint", "Point", "Demo", "Demo"⟩, some "DemoStray", none, [], [], []⟩

def sampleTable : Table :=
  (Table.builtin.registerAll [sampleColor, samplePoint]).1

theorem declares_sample
    : Declares sampleDisk none none ⟨"demo.yaml"⟩ [sampleColor, samplePoint] := by
  apply Fault.toOption_eq_some.1
  decide +kernel

theorem loadAll_sample
    : ∃ l, Loading.loadAll sampleDisk none none (start sampleOptions sampleDisk)
        (documents sampleOptions) = (.ok (), l)
      ∧ l.table = sampleTable ∧ l.targets = [sampleColor, samplePoint] := by
  have hregister : (Table.builtin.registerAll [sampleColor, samplePoint]).2 = none := by
    decide +kernel
  have hdocuments : documents sampleOptions = [(.generation, ⟨"demo.yaml"⟩)] := rfl
  rcases Loading.load_of_declares .generation (l := start sampleOptions sampleDisk) declares_sample
    (Prod.ext rfl hregister) with ⟨l, hload, htable, hgained⟩
  refine ⟨l, ?_, htable, hgained.targets⟩
  rw [hdocuments, Loading.loadAll_cons, hload]
  rfl

theorem valid_sampleColor {t : Table} (hcolor : sampleColor ∈ t.entries)
    : t.Valid sampleColor.cname := by
  rw [← Table.validGiven_empty, Table.validGiven_iff]
  refine .inr ⟨sampleColor, Table.find?_of_mem hcolor, rfl, ?_⟩
  intro r hr
  have hreferences : sampleColor.references = [] := by decide +kernel
  simp [hreferences] at hr

theorem not_valid_samplePoint {t : Table} (hpoint : samplePoint ∈ t.entries)
    (hstray : "DemoStray" ∉ t.names) : ¬ t.Valid samplePoint.cname := by
  rw [← Table.validGiven_empty, Table.validGiven_iff]
  have hfind := Table.find?_of_mem hpoint
  rintro (hmem | ⟨d, hd, _, hreferences⟩)
  . exact hmem
  . rw [hfind] at hd
    rw [← Option.some.inj hd] at hreferences
    have hvalid := hreferences "DemoStray" (by decide +kernel)
    rw [Table.validGiven_iff, Table.find?_eq_none.2 hstray] at hvalid
    simp at hvalid

open Classical in
theorem filter_valid_sample {t : Table} (hcolor : sampleColor ∈ t.entries)
    (hpoint : samplePoint ∈ t.entries) (hstray : "DemoStray" ∉ t.names)
    : [sampleColor, samplePoint].filter (t.Valid ·.cname) = [sampleColor]
      ∧ [sampleColor, samplePoint].filter (fun g => ¬ t.Valid g.cname) = [samplePoint] := by
  simp [valid_sampleColor hcolor, not_valid_samplePoint hpoint hstray]

theorem generateValid_sample {l : Loading} (htable : l.table = sampleTable)
    (htargets : l.targets = [sampleColor, samplePoint])
    : ∃ stats, (generateValid sampleOptions sampleDisk l).result = .ok stats := by
  have hregistered : ∀ g ∈ [sampleColor, samplePoint], sampleTable.find? g.cname = some g := by
    decide +kernel
  have hvalid : (Validation.partition sampleTable .initial [sampleColor, samplePoint]).1.valid
      = [sampleColor] := by
    rw [(Validation.Knowledge.faithful_initial.partition hregistered).1]
    exact (filter_valid_sample (by decide +kernel) (by decide +kernel) (by decide +kernel)).1
  have hgenerated : (generate sampleTable
      (some { options := sampleOptions.outputs, disk := sampleDisk })
      [sampleColor]).result.toOption.isSome := by decide +kernel
  have hclosed : (generate sampleTable
      (some { options := sampleOptions.outputs, disk := sampleDisk })
      [sampleColor]).outputs?.map (·.close.1.toOption) = some (some ()) := by decide +kernel
  have hwants : sampleOptions.outputs.wantsOutput = true := rfl
  unfold generateValid
  rw [htable, htargets]
  generalize Validation.partition sampleTable .initial [sampleColor, samplePoint] = result at hvalid
  rcases result with ⟨p, k⟩
  have hvalid : p.valid = [sampleColor] := hvalid
  simp only [hwants, if_true, hvalid]
  rcases Option.isSome_iff_exists.1 hgenerated with ⟨stats, hstats⟩
  rcases Option.map_eq_some_iff.1 hclosed with ⟨outputs, houtputs, hclose⟩
  rw [Fault.toOption_eq_some] at hstats hclose
  simp only [hstats, houtputs, Option.map_some]
  generalize outputs.close = closing at hclose ⊢
  rcases closing with ⟨closed, outputs'⟩
  have hclosed : closed = .ok () := hclose
  rw [hclosed]
  exact ⟨_, rfl⟩

theorem execute_sample
    : ∃ stats, (execute true sampleOptions sampleDisk).result = .ok stats := by
  rcases loadAll_sample with ⟨l, hload, htable, htargets⟩
  have hconfiguration : sampleOptions.configuration? = none := rfl
  have husage : checkUsage sampleOptions = .ok () := rfl
  have hschema : loadSchema sampleDisk sampleOptions = .ok none := rfl
  rw [execute_of_loadAll hconfiguration husage hschema hload]
  exact generateValid_sample htable htargets

theorem execute_wrote_sample
    : sampleOptions.configuration? = none
      ∧ ∃ stats, (execute true sampleOptions sampleDisk).result = .ok stats ∧ stats.excluded = 1
        ∧ Wrote sampleOptions.outputs sampleDisk (execute true sampleOptions sampleDisk).disk
            [.managed "Color"] := by
  have hconfiguration : sampleOptions.configuration? = none := rfl
  rcases execute_sample with ⟨stats, hok⟩
  rcases execute_wrote true sampleOptions sampleDisk stats hconfiguration hok
    with ⟨schema?, included, declared, t, hschema, hincluded, hdeclared, hentries, hexcluded, _,
      hfiles⟩
  have hschema : schema? = none := (Except.ok.inj hschema).symm
  have hincluded : included = [] := by
    cases hincluded
    rfl
  have hdeclared : declared = [[sampleColor, samplePoint]] := by
    rw [hschema] at hdeclared
    cases hdeclared with
    | cons hhead htail =>
      cases htail
      have hsame : Except.ok _ = Except.ok _ := hhead.symm.trans declares_sample
      rw [Except.ok.inj hsame]
  -- The table is known by its entries alone, which is all that validity depends on.
  rw [hincluded, hdeclared] at hentries
  rw [hdeclared] at hexcluded hfiles
  have hcolor : sampleColor ∈ t.entries := by simp [hentries]
  have hpoint : samplePoint ∈ t.entries := by simp [hentries]
  have hstray : "DemoStray" ∉ t.names := by
    intro hmem
    rcases List.mem_map.1 hmem with ⟨e, he, hname⟩
    have hbuiltin : ∀ b ∈ Table.builtin.entries ++ [sampleColor, samplePoint],
        b.cname ≠ "DemoStray" := by decide +kernel
    apply hbuiltin e _ hname
    simpa using (hentries e).1 he
  rcases filter_valid_sample hcolor hpoint hstray with ⟨hvalid, hinvalid⟩
  simp only [List.flatten_cons, List.flatten_nil, List.append_nil, hvalid, hinvalid]
    at hexcluded hfiles
  have houtput : outputFiles t sampleOptions.outputs [sampleColor] = [.managed "Color"] := by
    rfl
  rw [houtput] at hfiles
  refine ⟨hconfiguration, stats, hok, hexcluded, hfiles rfl ?_⟩
  simp

end Run

end Interop
