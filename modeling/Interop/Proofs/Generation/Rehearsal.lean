import Interop.Proofs.Generation.Refused
import Interop.Proofs.Outputs.Session

/-!
This module contains what a rehearsal is worth, a generation without outputs: it counts what the
generation with outputs counts, and it fails where that one would fail before anything is written.
The two bind for different glue libraries, whose names stand in managed sources only.
-/

namespace Interop

namespace Binding.Emitted

/--
All that was bound, but for the text of the managed source.
-/
def outline (e : Emitted) : Emitted :=
  { e with managed? := e.managed?.map fun file => { file with source := "" } }

theorem outline_source {name : String} {glue? : Option String} {probe? : Option Probe}
    {counts : Counts} (source source' : String)
    : outline ⟨some ⟨name, source⟩, glue?, probe?, counts⟩
        = outline ⟨some ⟨name, source'⟩, glue?, probe?, counts⟩ := by
  rfl

theorem fileName_eq_of_outline {e e' : Emitted} (h : e.outline = e'.outline)
    : e.managed?.map (·.name) = e'.managed?.map (·.name) := by
  have hnames := congrArg (·.managed?.map (·.name)) h
  simpa [outline, Function.comp_def] using hnames

theorem counts_eq_of_outline {e e' : Emitted} (h : e.outline = e'.outline)
    : e.counts = e'.counts :=
  congrArg (·.counts) h

end Binding.Emitted

namespace Generation

open Binding Binding.Emitted

/--
Both failed with the same error, or both succeeded and what they gave agrees.
-/
inductive InStep (agree : α → α → Prop) : Except ε α → Except ε α → Prop where
  | error (e : ε) : InStep agree (.error e) (.error e)
  | ok {a a' : α} (h : agree a a') : InStep agree (.ok a) (.ok a')

namespace InStep

variable {agree : α → α → Prop} {agree' : β → β → Prop} {r r' : Except ε α}
  {f f' : α → Except ε β}

theorem refl (h : ∀ a, agree a a) : InStep agree r r := by
  cases r with
  | error e => exact .error e
  | ok a => exact .ok (h a)

theorem andThen (h : InStep agree r r') (hf : ∀ a a', agree a a' → InStep agree' (f a) (f' a'))
    : InStep agree' (r >>= f) (r' >>= f') := by
  cases h with
  | error e => exact .error e
  | ok h => exact hf _ _ h

theorem andThen_same (hf : ∀ a, InStep agree' (f a) (f' a))
    : InStep agree' (r >>= f) (r >>= f') := by
  have hsame : InStep Eq r r := .refl fun _ => rfl
  apply hsame.andThen
  rintro a _ rfl
  exact hf a

end InStep

/--
One type, and in outline the same was bound for it.
-/
structure SameOutline (b b' : Bound) : Prop where
  type : b.type = b'.type
  emitted : b.emitted.outline = b'.emitted.outline

section Libraries

variable (t : Table) (gluelib gluelib' : String) {bounds bounds' : List Bound}

theorem sources_inStep (d : Descriptor)
    : InStep (fun e e' => e.outline = e'.outline)
        (sources t gluelib d) (sources t gluelib' d) := by
  cases d with
  | struct s =>
    simp only [sources, bindStruct]
    exact InStep.andThen_same fun plans => .ok (outline_source _ _)
  | callback c =>
    simp only [sources, bindCallback]
    exact InStep.andThen_same fun shape => .ok (outline_source _ _)
  | object o => exact .refl fun _ => rfl
  | simple | long | array | enum => exact .refl fun _ => rfl

theorem bind_inStep (d : Descriptor)
    : InStep (fun e e' => e.outline = e'.outline)
        (Interop.bind t gluelib d) (Interop.bind t gluelib' d) := by
  apply (sources_inStep t gluelib gluelib' d).andThen
  intro e e' h
  split
  . apply InStep.andThen_same
    intro probe?
    exact .ok (congrArg (fun e : Emitted => { e with probe? }) h)
  . exact .ok h

theorem bindOne_inStep (d : Descriptor)
    : InStep SameOutline (bindOne t gluelib d) (bindOne t gluelib' d) := by
  have hbind := bind_inStep t gluelib gluelib' d
  unfold bindOne
  generalize Interop.bind t gluelib d = r, Interop.bind t gluelib' d = r' at hbind
  cases hbind with
  | error fault => exact .error _
  | ok h => exact .ok ⟨rfl, h⟩

theorem bindAll_inStep (ds : List Descriptor)
    : InStep (List.Forall₂ SameOutline) (bindAll t gluelib ds) (bindAll t gluelib' ds) := by
  induction ds with
  | nil => exact .ok .nil
  | cons d ds ih =>
    apply (bindOne_inStep t gluelib gluelib' d).andThen
    intro b b' hb
    apply ih.andThen
    intro bs bs' hbs
    exact .ok (.cons hb hbs)

variable {t gluelib gluelib'}

theorem clash?_sameOutline {owners : List (String × String)}
    (h : List.Forall₂ SameOutline bounds bounds')
    : clash? owners bounds = clash? owners bounds' := by
  induction h generalizing owners with
  | nil => rfl
  | @cons b b' bs bs' hb _ ih =>
    have hname := fileName_eq_of_outline hb.emitted
    unfold clash?
    cases hfile : b.emitted.managed? with
    | none =>
      rw [hfile, Option.map_none, eq_comm, Option.map_eq_none_iff] at hname
      rw [hname]
      exact ih
    | some file =>
      rw [hfile, Option.map_some, eq_comm, Option.map_eq_some_iff] at hname
      rcases hname with ⟨file', hfile', hname⟩
      rw [hfile']
      dsimp only
      rw [hname, hb.type]
      split
      . rfl
      . exact ih

theorem prepare_inStep
    : InStep (List.Forall₂ SameOutline) (prepare t gluelib ds) (prepare t gluelib' ds) := by
  apply (bindAll_inStep t gluelib gluelib' ds).andThen
  intro bounds bounds' h
  rw [clash?_sameOutline h]
  split
  . exact .ok h
  . exact .error _

theorem foldl_record_sameOutline (s : Statistics) (h : List.Forall₂ SameOutline bounds bounds')
    : bounds.foldl (fun s b => s.record b.type.kind b.emitted.counts) s
        = bounds'.foldl (fun s b => s.record b.type.kind b.emitted.counts) s := by
  induction h generalizing s with
  | nil => rfl
  | cons hb _ ih =>
    rw [List.foldl_cons, List.foldl_cons, ih, hb.type, counts_eq_of_outline hb.emitted]

theorem types_sameOutline (h : List.Forall₂ SameOutline bounds bounds')
    : bounds.map (·.type) = bounds'.map (·.type) := by
  induction h with
  | nil => rfl
  | cons hb _ ih => rw [List.map_cons, List.map_cons, hb.type, ih]

theorem tally_sameOutline (h : List.Forall₂ SameOutline bounds bounds')
    : tally t bounds = tally t bounds' := by
  unfold tally
  rw [foldl_record_sameOutline {} h, types_sameOutline h]

end Libraries

variable {t : Table} {ds : List Descriptor} {bounds : List Bound} {fault : Fault GenerationError}

theorem tally_unwritten (t : Table) (bounds : List Bound)
    : (tally t bounds).filesWritten = 0 ∧ (tally t bounds).probes = 0
        ∧ (tally t bounds).dryRun = false := by
  have hrecord (s : Statistics) (kind : Kind) (counts : Counts)
      : (s.record kind counts).filesWritten = s.filesWritten
          ∧ (s.record kind counts).probes = s.probes
          ∧ (s.record kind counts).dryRun = s.dryRun := by
    cases kind <;> exact ⟨rfl, rfl, rfl⟩
  have hfoldl (s : Statistics)
      : let s' := bounds.foldl (fun s b => s.record b.type.kind b.emitted.counts) s
        s'.filesWritten = s.filesWritten ∧ s'.probes = s.probes ∧ s'.dryRun = s.dryRun := by
    induction bounds generalizing s with
    | nil => exact ⟨rfl, rfl, rfl⟩
    | cons b bs ih =>
      rcases hrecord s b.type.kind b.emitted.counts with ⟨hfiles, hprobes, hdry⟩
      dsimp only at ih ⊢
      rw [List.foldl_cons, ← hfiles, ← hprobes, ← hdry]
      exact ih _
  exact hfoldl {}

-- What a rehearsal prepares for its own glue library is in step with what any other would get.
theorem prepare_of_rehearsal_ok {s : Statistics} (gluelib : String)
    (h : (generate t none ds).result = .ok s)
    : ∃ bounds, prepare t gluelib ds = .ok bounds ∧ s = { tally t bounds with dryRun := true } := by
  unfold generate at h
  dsimp only [Option.elim_none] at h
  split at h
  . cases h
  . next bounds hbounds =>
    have hprepared : InStep (List.Forall₂ SameOutline) (prepare t defaultGlueLibrary ds)
        (prepare t gluelib ds) := prepare_inStep
    rw [hbounds] at hprepared
    generalize prepare t gluelib ds = prepared at hprepared
    cases hprepared with
    | ok hsame =>
      rw [← Except.ok.inj h, tally_sameOutline hsame]
      exact ⟨_, rfl, rfl⟩

theorem prepare_of_rehearsal_error (gluelib : String)
    (h : (generate t none ds).result = .error fault) : prepare t gluelib ds = .error fault := by
  unfold generate at h
  dsimp only [Option.elim_none] at h
  split at h
  . next fault' hfault =>
    have hprepared : InStep (List.Forall₂ SameOutline) (prepare t defaultGlueLibrary ds)
        (prepare t gluelib ds) := prepare_inStep
    rw [hfault, Except.error.inj h] at hprepared
    generalize prepare t gluelib ds = prepared at hprepared
    cases hprepared with
    | error => rfl
  . cases h

theorem generate_of_prepare_error {o : Outputs}
    (h : prepare t o.options.glueLibrary ds = .error fault)
    : (generate t (some o) ds).result = .error fault
        ∧ (generate t (some o) ds).outputs? = some o := by
  unfold generate
  dsimp only [Option.elim_some]
  rw [h]
  exact ⟨rfl, rfl⟩

theorem generate_of_prepare_ok {o : Outputs}
    (h : prepare t o.options.glueLibrary ds = .ok bounds)
    : (∃ e, (generate t (some o) ds).result = .error (Fault.of (.output e)))
        ∨ ∃ filesWritten probes,
          (generate t (some o) ds).result = .ok { tally t bounds with filesWritten, probes } := by
  unfold generate
  dsimp only [Option.elim_some]
  rw [h]
  dsimp only
  split
  . exact .inl ⟨_, rfl⟩
  . split
    . exact .inl ⟨_, rfl⟩
    . exact .inr ⟨_, _, rfl⟩

theorem close_fresh_disk (options : OutputOptions) (d : Disk)
    : (Outputs.fresh options d).close.2.disk = d := by
  rfl

/--
A rehearsal and a generation to fresh outputs, of the same types: if both succeed, their statistics
are the same but for the three counters that tell them apart. If the rehearsal fails then so does
the generation, with the same fault and with nothing written, neither then nor when its outputs are
closed. A generation that fails otherwise was refused by its outputs.
-/
theorem generate_rehearsed (t : Table) (options : OutputOptions) (d : Disk) (ds : List Descriptor)
    : let rehearsal := generate t none ds
      let run := generate t (some (Outputs.fresh options d)) ds
      (∀ s s', rehearsal.result = .ok s → run.result = .ok s' →
          s = { s' with dryRun := true, filesWritten := 0, probes := 0 } ∧ s'.dryRun = false)
        ∧ (∀ fault, rehearsal.result = .error fault →
            run.result = .error fault ∧ run.outputs? = some (Outputs.fresh options d)
              ∧ (Outputs.fresh options d).close.2.disk = d)
        ∧ ∀ s fault, rehearsal.result = .ok s → run.result = .error fault →
            ∃ e, fault = Fault.of (.output e) := by
  intro rehearsal run
  refine ⟨?_, ?_, ?_⟩
  . intro s s' hs hs'
    rcases prepare_of_rehearsal_ok options.glueLibrary hs with ⟨bounds, hbounds, hcounted⟩
    rcases generate_of_prepare_ok (o := Outputs.fresh options d) hbounds
      with ⟨e, he⟩ | ⟨filesWritten, probes, hok⟩
    . cases he.symm.trans hs'
    . rcases tally_unwritten t bounds with ⟨hfiles, hprobes, hdry⟩
      rw [hcounted, ← Except.ok.inj (hok.symm.trans hs')]
      refine ⟨?_, hdry⟩
      generalize tally t bounds = tallied at hfiles hprobes
      cases tallied
      simp_all
  . intro fault hfault
    have hprepare := prepare_of_rehearsal_error options.glueLibrary hfault
    rcases generate_of_prepare_error (o := Outputs.fresh options d) hprepare
      with ⟨hresult, houtputs⟩
    exact ⟨hresult, houtputs, close_fresh_disk options d⟩
  . intro s fault hs hfault
    rcases prepare_of_rehearsal_ok options.glueLibrary hs with ⟨bounds, hbounds, _⟩
    rcases generate_of_prepare_ok (o := Outputs.fresh options d) hbounds
      with ⟨e, he⟩ | ⟨filesWritten, probes, hok⟩
    . exact ⟨e, Except.error.inj (hfault.symm.trans he)⟩
    . cases hok.symm.trans hfault

def meterStatus : Descriptor :=
  .struct ⟨⟨"DemoStatus", "Status", "Demo", "libdemo"⟩,
    [⟨"busy", "guint", some 1, false⟩, ⟨"load", "guint", none, false⟩], true⟩

def meterColor : Descriptor :=
  .enum ⟨⟨"DemoColor", "Color", "Demo", "libdemo"⟩, 32, false, false, [⟨"RED", 0⟩], false⟩

def meterTable : Table where
  entries := [.simple ⟨"guint", "uint", none, "0", false⟩, meterStatus, meterColor]
  nodup := by decide

def meterOptions : OutputOptions where
  dir? := some ⟨"out"⟩
  glueFile? := some ⟨"out/glue.c"⟩
  glueLibrary? := some "demoglue"
  probeCFile? := some ⟨"abi.c"⟩
  probeCsFile? := some ⟨"abi.cs"⟩

-- One list of types that both generate, with different imports, and one that neither does.
theorem generate_rehearsed_meter
    : (∃ s s', (generate meterTable none [meterStatus, meterColor]).result = .ok s
        ∧ (generate meterTable (some (Outputs.fresh meterOptions .blank))
            [meterStatus, meterColor]).result = .ok s'
        ∧ s'.filesWritten = 2 ∧ s'.probes = 1
        ∧ s = { s' with dryRun := true, filesWritten := 0, probes := 0 })
      ∧ ∃ fault,
        (generate meterTable none [meterColor, meterColor]).result = .error fault
          ∧ (generate meterTable (some (Outputs.fresh meterOptions .blank))
            [meterColor, meterColor]).result = .error fault := by
  have hrehearsal
      : (generate meterTable none [meterStatus, meterColor]).result.toOption.isSome := by
    decide +kernel
  have hrun : (generate meterTable (some (Outputs.fresh meterOptions .blank))
      [meterStatus, meterColor]).result.toOption.map (fun s => (s.filesWritten, s.probes))
        = some (2, 1) := by
    decide +kernel
  have hrefused : (generate meterTable none [meterColor, meterColor]).result
      = .error (Fault.of (.nameClash "DemoColor" "DemoColor" "Color")) := by
    decide +kernel
  rcases Option.isSome_iff_exists.1 hrehearsal with ⟨s, hs⟩
  rcases Option.map_eq_some_iff.1 hrun with ⟨s', hs', hcounts⟩
  rw [Fault.toOption_eq_some] at hs hs'
  have hmeter := generate_rehearsed meterTable meterOptions .blank
  refine ⟨⟨s, s', hs, hs', congrArg (·.1) hcounts, congrArg (·.2) hcounts, ?_⟩, _, hrefused, ?_⟩
  . exact ((hmeter [meterStatus, meterColor]).1 s s' hs hs').1
  . exact ((hmeter [meterColor, meterColor]).2.1 _ hrefused).1

end Generation

end Interop
