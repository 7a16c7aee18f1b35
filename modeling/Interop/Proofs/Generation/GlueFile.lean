import Interop.Proofs.Binding.Symbols
import Interop.Proofs.Generation.Delivered
import Interop.Proofs.Outputs.Session

/-!
This module contains what a generation leaves in its glue file: below the header stand the functions
of all its types, and nothing but the names of types and bitfields keeps these apart.
-/

namespace Interop

open Binding Generation

theorem bytesOf_append (s s' : String) : bytesOf (s ++ s') = bytesOf s ++ bytesOf s' := by
  simp [bytesOf]

theorem Source.text_append (lines lines' : Lines)
    : text (lines ++ lines') = text lines ++ text lines' := by
  induction lines with
  | nil => exact (String.empty_append).symm
  | cons line lines ih => rw [List.cons_append, text_cons, text_cons, ih, ← String.append_assoc]

/--
What the artifact adds to the glue file.
-/
def Generation.Artifact.glueText : Artifact → Bytes
  | .glue _ text => bytesOf text
  | .managed _ _ | .probe _ => []

namespace Ledger

/--
The glue file has this text below its header. Only without text it may not have been begun.
-/
structure GlueHolds (l : Ledger) (o : OutputOptions) (text : Bytes) : Prop where
  told : ∀ old, (.glue, old) ∈ l → old = o.header .glue ++ text
  begun : .glue ∉ l.files → text = []

namespace GlueHolds

variable {l : Ledger} {o : OutputOptions} {text : Bytes} {f : OutputFile} {a : Artifact}

theorem append (h : l.GlueHolds o text) (hf : f ≠ .glue) (more : Bytes)
    : GlueHolds (l ++ [(f, more)]) o text := by
  refine ⟨?_, ?_⟩
  . intro old hold
    rcases List.mem_append.1 hold with hold | hold
    . exact h.told old hold
    . exact absurd (Prod.mk.inj (List.mem_singleton.1 hold)).1.symm hf
  . intro hnew
    apply h.begun
    rw [files_append] at hnew
    exact fun hmem => hnew (List.mem_append_left _ hmem)

theorem begin (h : l.GlueHolds o text) (hf : f ≠ .glue) (header : Bytes)
    : (l.begin f header).GlueHolds o text := by
  unfold Ledger.begin
  split
  . exact h
  . exact h.append hf header

theorem extend (h : l.GlueHolds o text) (hf : f ≠ .glue) (more : Bytes)
    : (l.extend f more).GlueHolds o text := by
  refine ⟨?_, by rw [files_extend]; exact h.begun⟩
  intro old hold
  rcases List.mem_map.1 hold with ⟨⟨g, before⟩, hbefore, heq⟩
  rcases Prod.mk.inj heq with ⟨rfl, rfl⟩
  rw [if_neg (Ne.symm hf)]
  exact h.told before hbefore

theorem extend_glue (h : l.GlueHolds o text) (more : Bytes)
    : ((l.begin .glue (o.header .glue)).extend .glue more).GlueHolds o (text ++ more) := by
  refine ⟨?_, ?_⟩
  . intro old hold
    rcases List.mem_map.1 hold with ⟨⟨g, before⟩, hbefore, heq⟩
    rcases Prod.mk.inj heq with ⟨rfl, rfl⟩
    have htold : before = o.header .glue ++ text := by
      unfold Ledger.begin at hbefore
      split at hbefore
      . exact h.told before hbefore
      . next hnew =>
        rcases List.mem_append.1 hbefore with hbefore | hbefore
        . exact h.told before hbefore
        . rw [(Prod.mk.inj (List.mem_singleton.1 hbefore)).2, h.begun hnew, List.append_nil]
    rw [if_pos rfl, htold, List.append_assoc]
  . intro hnew
    rw [files_extend, mem_files_begin] at hnew
    exact absurd (.inr rfl) hnew

theorem enter (h : l.GlueHolds o text) (hglue : o.hasGlue = true)
    : (l.enter o a).GlueHolds o (text ++ a.glueText) := by
  cases a with
  | managed owner? file =>
    simp only [Artifact.glueText, List.append_nil]
    exact h.append (by simp) _
  | glue owner more =>
    simp only [Ledger.enter, Artifact.glueText, if_pos hglue]
    exact h.extend_glue _
  | probe p =>
    simp only [Ledger.enter, Artifact.glueText, List.append_nil]
    split
    . have hC : OutputFile.probeC ≠ .glue := by simp
      have hCs : OutputFile.probeCs ≠ .glue := by simp
      exact (((h.begin hC _).begin hCs _).extend hC _).extend hCs _
    . exact h

theorem foldl {artifacts : List Artifact} (h : l.GlueHolds o text) (hglue : o.hasGlue = true)
    : (artifacts.foldl (Ledger.enter o) l).GlueHolds o
        (text ++ artifacts.flatMap (·.glueText)) := by
  induction artifacts generalizing l text with
  | nil => simpa using h
  | cons a as ih =>
    rw [List.foldl_cons, List.flatMap_cons, ← List.append_assoc]
    exact ih (h.enter hglue)

end GlueHolds

end Ledger

namespace Generation

variable {t : Table} {gluelib : String} {ds : List Descriptor} {bounds : List Bound}

/--
The lines define the glue functions of these types in order, and hold nothing else.
-/
structure DefinesFor (ds : List Descriptor) (lines : Source.Lines) (functions : List GlueFunction) :
    Prop where
  defined : Defines [] lines functions
  symbols : functions.map (·.symbol) = ds.flatMap glueSymbols

theorem glueText_artifacts (b : Bound)
    : b.artifacts.flatMap (·.glueText) = (b.emitted.glue?.map bytesOf).getD [] := by
  unfold Bound.artifacts
  cases b.emitted.managed? <;> cases b.emitted.glue? <;> cases b.emitted.probe? <;>
    simp [Artifact.glueText]

theorem glueText_bound {d : Descriptor} {b : Bound} (h : IsBound t gluelib d b)
    : ∃ lines functions, b.artifacts.flatMap (·.glueText) = bytesOf (Source.text lines)
        ∧ Defines [] lines functions ∧ functions.map (·.symbol) = glueSymbols d := by
  rcases bind_glueSource h.2 with ⟨native, functions, hglue⟩
  rw [glueText_artifacts, hglue.glue]
  by_cases hnone : functions = []
  . rw [if_pos hnone]
    refine ⟨[], [], rfl, .nil, ?_⟩
    rw [← hglue.symbols, hnone]
  . rw [if_neg hnone]
    exact ⟨native, functions, rfl, hglue.defined, hglue.symbols⟩

theorem glueText_deliveries (h : List.Forall₂ (IsBound t gluelib) ds bounds)
    : ∃ lines functions,
        (deliveries t ds bounds).flatMap (·.glueText) = bytesOf (Source.text lines)
          ∧ DefinesFor ds lines functions := by
  have hmappers : ((t.mappers ds).map (Artifact.managed none)).flatMap (·.glueText) = [] := by
    simp [Artifact.glueText]
  unfold deliveries
  rw [List.flatMap_append, hmappers, List.append_nil]
  clear hmappers
  induction h with
  | nil => exact ⟨[], [], rfl, .nil, rfl⟩
  | cons hbound _ ih =>
    rcases glueText_bound hbound with ⟨lines, functions, htext, hdefined, hsymbols⟩
    rcases ih with ⟨lines', functions', htext', hdefined', hsymbols'⟩
    refine ⟨lines ++ lines', functions ++ functions', ?_, hdefined.append hdefined', ?_⟩
    . rw [List.flatMap_cons, List.flatMap_append, htext, htext', Source.text_append,
        bytesOf_append]
    . rw [List.map_append, List.flatMap_cons, hsymbols, hsymbols']

variable {options : OutputOptions} {start : Disk} {stats : Statistics} {outputs closed : Outputs}

/--
After a generation to files that lie apart, and once its outputs are closed, the glue file holds
the functions of all types below its header. It is there if there are any.
-/
theorem generate_glueFile
    (hok : (generate t (some (Outputs.fresh options start)) ds).result = .ok stats)
    (houtputs : (generate t (some (Outputs.fresh options start)) ds).outputs? = some outputs)
    (hclose : outputs.close = (.ok (), closed)) (hglue : options.hasGlue = true)
    (hapart : Set.InjOn (options.place start) {f | f ∈ outputFiles t options ds})
    : ∃ lines functions, DefinesFor ds lines functions
        ∧ (functions ≠ [] → closed.disk.entry? (options.place start .glue)
            = some (.file (options.header .glue ++ bytesOf (Source.text lines)))) := by
  rcases generate_eq_ok hok with ⟨bounds, outputs', hbounds, houtputs', hkeeps⟩
  obtain rfl : outputs' = outputs := Option.some.inj (houtputs'.symm.trans houtputs)
  rcases hkeeps hapart with ⟨hoptions, hk⟩
  rcases glueText_deliveries hbounds with ⟨lines, functions, htext, hdefines⟩
  refine ⟨lines, functions, hdefines, ?_⟩
  intro hsome
  have hapart' : Set.InjOn (outputs'.options.place start)
      {f | f ∈ ((deliveries t ds bounds).foldl (Ledger.enter options) []).files} := by
    rw [hoptions]
    apply hapart.mono
    intro f hf
    rcases Ledger.mem_files_foldl.1 hf with hf | hf
    . simp [Ledger.files] at hf
    . exact (mem_deliveries_files hbounds).1 hf
  have hinitial : Ledger.GlueHolds [] options [] := ⟨by simp, fun _ => rfl⟩
  have hholds : Ledger.GlueHolds ((deliveries t ds bounds).foldl (Ledger.enter options) [])
      options (bytesOf (Source.text lines)) := by
    rw [← htext]
    exact hinitial.foldl hglue
  generalize (deliveries t ds bounds).foldl (Ledger.enter options) [] = ledger
    at hk hapart' hholds
  have htext : bytesOf (Source.text lines) ≠ [] :=
    Source.bytesOf_text (hdefines.defined.lines_ne_nil hsome)
  have hbegun : .glue ∈ ledger.files := not_not.1 fun hnew => htext (hholds.begun hnew)
  rcases List.mem_map.1 hbegun with ⟨⟨f, old⟩, hmem, hf⟩
  obtain rfl : f = .glue := hf
  have hcontains := (Outputs.close_keeps hk hapart' hclose).2 .glue old hmem
  rw [hoptions, hholds.told old hmem] at hcontains
  have hfooter : bytesOf OutputFile.glue.footer = [] := rfl
  rw [hfooter, List.append_nil] at hcontains
  exact hcontains.file (by simp [htext])

/--
The glue file defines the glue functions of all types in order, and no two of them have the same
name if and only if the names of the types and their bitfields keep them apart. The latter is not
seen to by anything: a run over callbacks `DemoVisitFunc` and `Demo_VisitFunc` defines the same
function twice.
-/
theorem generate_glueFile_nodup (t : Table) (options : OutputOptions) (start : Disk)
    (ds : List Descriptor) (stats : Statistics) (outputs closed : Outputs)
    (hok : (generate t (some (Outputs.fresh options start)) ds).result = .ok stats)
    (houtputs : (generate t (some (Outputs.fresh options start)) ds).outputs? = some outputs)
    (hclose : outputs.close = (.ok (), closed)) (hglue : options.hasGlue = true)
    (hapart : Set.InjOn (options.place start) {f | f ∈ outputFiles t options ds})
    : ∃ lines functions, DefinesFor ds lines functions
        ∧ (functions ≠ [] → closed.disk.entry? (options.place start .glue)
            = some (.file (options.header .glue ++ bytesOf (Source.text lines))))
        ∧ ((functions.map (·.symbol)).Nodup ↔ Separate ds) := by
  rcases generate_glueFile hok houtputs hclose hglue hapart with
    ⟨lines, functions, hdefines, hfile⟩
  refine ⟨lines, functions, hdefines, hfile, ?_⟩
  rw [hdefines.symbols]
  exact nodup_glueSymbols

def visitFunc : Descriptor :=
  .callback ⟨⟨"DemoVisitFunc", "VisitFunc", "Demo", "libdemo"⟩, ⟨"void", []⟩⟩

def formerVisitFunc : Descriptor :=
  .callback ⟨⟨"Demo_VisitFunc", "FormerVisitFunc", "Demo", "libdemo"⟩, ⟨"void", []⟩⟩

def visitFlags : Descriptor :=
  .struct ⟨⟨"DemoVisit", "Visit", "Demo", "libdemo"⟩, [⟨"deep", "guint", some 1, false⟩], false⟩

def visitTable : Table where
  entries := [.simple ⟨"guint", "uint", none, "0", false⟩, visitFunc, formerVisitFunc, visitFlags]
  nodup := by decide

def visitOptions : OutputOptions where
  dir? := some ⟨"out"⟩
  glueFile? := some ⟨"glue.c"⟩

/--
Whether a generation of these types to an empty disk succeeds and its outputs can be closed.
-/
def visitSucceeds (ds : List Descriptor) : Bool :=
  let run := generate visitTable (some (Outputs.fresh visitOptions .blank)) ds
  run.result.isOk && run.outputs?.any (·.close.1.isOk)

theorem visitSucceeds_eq_true {ds : List Descriptor} (h : visitSucceeds ds = true)
    : ∃ stats outputs closed,
        (generate visitTable (some (Outputs.fresh visitOptions .blank)) ds).result = .ok stats
          ∧ (generate visitTable (some (Outputs.fresh visitOptions .blank)) ds).outputs?
              = some outputs
          ∧ outputs.close = (.ok (), closed) := by
  unfold visitSucceeds at h
  dsimp only at h
  generalize generate visitTable (some (Outputs.fresh visitOptions .blank)) ds = run at h ⊢
  rcases run with ⟨_ | stats, _ | outputs, log⟩
  . cases h
  . cases h
  . simp at h
  . generalize hclose : outputs.close = result
    rcases result with ⟨_ | u, closed⟩
    . simp [hclose, Except.isOk, Except.toBool] at h
    . exact ⟨stats, outputs, closed, rfl, rfl, hclose⟩

theorem generate_glueFile_nodup_visit
    : visitSucceeds [visitFunc, visitFlags] = true ∧ Separate [visitFunc, visitFlags]
        ∧ ∃ (closed : Disk) (lines : Source.Lines) (functions : List GlueFunction),
            functions.map (·.symbol)
              = ["gapi_demo_visit_func_invoke", "gapi_demo_visit_get_deep",
                 "gapi_demo_visit_set_deep"]
            ∧ closed.entry? (visitOptions.place .blank .glue)
              = some (.file (visitOptions.header .glue ++ bytesOf (Source.text lines)))
            ∧ Defines [] lines functions := by
  have hsucceeds : visitSucceeds [visitFunc, visitFlags] = true := by decide +kernel
  have hsymbols : [visitFunc, visitFlags].flatMap glueSymbols
      = ["gapi_demo_visit_func_invoke", "gapi_demo_visit_get_deep",
          "gapi_demo_visit_set_deep"] := by
    decide +kernel
  have hapart : ∀ f ∈ outputFiles visitTable visitOptions [visitFunc, visitFlags],
      ∀ g ∈ outputFiles visitTable visitOptions [visitFunc, visitFlags],
        visitOptions.place .blank f = visitOptions.place .blank g → f = g := by
    decide +kernel
  rcases visitSucceeds_eq_true hsucceeds with ⟨stats, outputs, closed, hok, houtputs, hclose⟩
  rcases generate_glueFile_nodup visitTable visitOptions .blank [visitFunc, visitFlags] stats
    outputs closed hok houtputs hclose rfl hapart with
    ⟨lines, functions, hdefines, hfile, hseparate⟩
  have hsymbols := hdefines.symbols.trans hsymbols
  have hnodup : (functions.map (·.symbol)).Nodup := by
    rw [hsymbols]
    decide
  have hsome : functions ≠ [] := by
    rintro rfl
    cases hsymbols
  exact ⟨hsucceeds, hseparate.1 hnodup, closed.disk, lines, functions, hsymbols, hfile hsome,
    hdefines.defined⟩

-- Small letters and underscores make one name of two.
theorem not_generate_glueFile_nodup
    : ¬ ∀ (t : Table) (options : OutputOptions) (start : Disk) (ds : List Descriptor)
        (stats : Statistics) (outputs closed : Outputs),
        (ds.map (·.cname)).Nodup → ((ds.filterMap (·.identity?)).map (·.name)).Nodup →
        options.hasGlue = true →
        (generate t (some (Outputs.fresh options start)) ds).result = .ok stats →
        (generate t (some (Outputs.fresh options start)) ds).outputs? = some outputs →
        outputs.close = (.ok (), closed) →
        ∀ lines functions, closed.disk.entry? (options.place start .glue)
            = some (.file (options.header .glue ++ bytesOf (Source.text lines))) →
          Defines [] lines functions → (functions.map (·.symbol)).Nodup := by
  intro h
  have hsucceeds : visitSucceeds [visitFunc, formerVisitFunc] = true := by decide +kernel
  have hsymbols : [visitFunc, formerVisitFunc].flatMap glueSymbols
      = ["gapi_demo_visit_func_invoke", "gapi_demo_visit_func_invoke"] := by
    decide +kernel
  have hapart : ∀ f ∈ outputFiles visitTable visitOptions [visitFunc, formerVisitFunc],
      ∀ g ∈ outputFiles visitTable visitOptions [visitFunc, formerVisitFunc],
        visitOptions.place .blank f = visitOptions.place .blank g → f = g := by
    decide +kernel
  rcases visitSucceeds_eq_true hsucceeds with ⟨stats, outputs, closed, hok, houtputs, hclose⟩
  rcases generate_glueFile hok houtputs hclose rfl hapart with ⟨lines, functions, hdefines, hfile⟩
  have hsymbols := hdefines.symbols.trans hsymbols
  have hsome : functions ≠ [] := by
    rintro rfl
    cases hsymbols
  have hnodup := h _ _ _ _ _ _ _ (by decide) (by decide) rfl hok houtputs hclose _ _
    (hfile hsome) hdefines.defined
  rw [hsymbols] at hnodup
  exact absurd hnodup (by decide)

end Generation

end Interop
