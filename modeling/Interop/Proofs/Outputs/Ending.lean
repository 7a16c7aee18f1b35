import Interop.Proofs.Outputs.Carried

/-!
This module contains how shared files end when some of the open streams fail: closing finishes the
others all the same, and reports the first failure.
-/

namespace Interop

open Disk

variable {d d' start : Disk}

theorem Stream.finish_failed {s : Stream} {footer : String} {e : OutputError}
    (h : s.finish d footer = (some e, d')) : e = .write s.path ∨ e = .flush s.path := by
  have hput := put_continues s d (bytesOf footer)
  unfold finish at h
  generalize s.put d (bytesOf footer) = result at h hput
  rcases result with ⟨_ | _, s₁, d₁⟩
  . left
    rw [← Option.some.inj (Prod.mk.inj h).1, hput.path]
  . have hflush := flush_continues s₁ d₁
    simp only at h
    generalize s₁.flush d₁ = result at h hflush
    rcases result with ⟨_ | _, s₂, d₂⟩
    . right
      rw [← Option.some.inj (Prod.mk.inj h).1, hflush.path, hput.path]
    . simp at h

namespace Outputs

variable {o : Outputs} {f : OutputFile} {fs : List OutputFile} {s : Stream} {text : Bytes}

/--
How the open streams to `fs` end if they are finished one after the other, each with its failure if
it fails, and the disk after that.
-/
def endings (o : Outputs) (d : Disk)
    : List OutputFile → List (OutputFile × Option OutputError) × Disk
  | [] => ([], d)
  | f :: fs =>
    match o.stream? f with
    | none => o.endings d fs
    | some s =>
      match s.finish d f.footer with
      | (e?, d) =>
        match o.endings d fs with
        | (rest, d) => ((f, e?) :: rest, d)

theorem endings_cons_none (h : o.stream? f = none) : o.endings d (f :: fs) = o.endings d fs := by
  rw [endings, h]

theorem endings_cons_some (h : o.stream? f = some s)
    : o.endings d (f :: fs)
        =
      ((f, (s.finish d f.footer).1) :: (o.endings (s.finish d f.footer).2 fs).1,
        (o.endings (s.finish d f.footer).2 fs).2) := by
  rw [endings, h]

theorem endings_files
    : (o.endings d fs).1.map (·.1) = fs.filter fun f => (o.stream? f).isSome := by
  induction fs generalizing d with
  | nil => rfl
  | cons f fs ih =>
    cases hs : o.stream? f with
    | none =>
      rw [endings_cons_none hs, ih, List.filter_cons_of_neg (by simp [hs])]
    | some s =>
      rw [endings_cons_some hs, List.map_cons, ih, List.filter_cons_of_pos (by simp [hs])]

theorem endings_mem {e? : Option OutputError} (h : (f, e?) ∈ (o.endings d fs).1)
    : f ∈ fs ∧ ∃ s, o.stream? f = some s := by
  have hmem : f ∈ (o.endings d fs).1.map (·.1) := List.mem_map_of_mem h
  rw [endings_files, List.mem_filter] at hmem
  exact ⟨hmem.1, Option.isSome_iff_exists.1 hmem.2⟩

theorem finishAll_eq_endings
    : finishAll d (fs.map fun f => (o.stream? f, f.footer))
        = ((o.endings d fs).1.findSome? (·.2), (o.endings d fs).2) := by
  induction fs generalizing d with
  | nil => rfl
  | cons f fs ih =>
    cases hs : o.stream? f with
    | none => rw [endings_cons_none hs, ← ih, List.map_cons, hs, finishAll]
    | some s =>
      rw [endings_cons_some hs, List.map_cons, hs, finishAll]
      simp only [ih, List.findSome?_cons]
      cases (s.finish d f.footer).1 <;> rfl

theorem endings_failed {e : OutputError} (h : (f, some e) ∈ (o.endings d fs).1)
    : ∃ s, o.stream? f = some s ∧ (e = .write s.path ∨ e = .flush s.path) := by
  induction fs generalizing d with
  | nil => simp [endings] at h
  | cons g fs ih =>
    cases hs : o.stream? g with
    | none =>
      rw [endings_cons_none hs] at h
      exact ih h
    | some s =>
      rw [endings_cons_some hs] at h
      rcases List.mem_cons.1 h with heq | h
      . rcases Prod.mk.inj heq with ⟨rfl, he⟩
        exact ⟨s, hs, Stream.finish_failed (Prod.ext he.symm rfl)⟩
      . exact ih h

theorem endings_changedAt
    : ChangedAt {q | ∃ f ∈ fs, ∃ s, o.stream? f = some s ∧ q = s.place} d (o.endings d fs).2 := by
  have hchanged := finishAll_changedAt d (fs.map fun f => (o.stream? f, f.footer))
  rw [finishAll_eq_endings] at hchanged
  apply hchanged.mono
  rintro q ⟨s, footer, hmem, hq⟩
  rcases List.mem_map.1 hmem with ⟨f, hf, heq⟩
  exact ⟨f, hf, s, (Prod.mk.inj heq).1, hq⟩

-- Whether the streams before it fail or not, a stream that ends well leaves its whole text.
theorem endings_whole (hnodup : fs.Nodup) (hs : o.stream? f = some s) (hholds : s.Holds d text)
    (hapart : ∀ g ∈ fs, g ≠ f → ∀ s', o.stream? g = some s' → s'.place ≠ s.place)
    (h : (f, none) ∈ (o.endings d fs).1)
    : (o.endings d fs).2.Contains s.place (text ++ bytesOf f.footer) := by
  induction fs generalizing d with
  | nil => simp [endings] at h
  | cons g fs ih =>
    rw [List.nodup_cons] at hnodup
    rw [List.forall_mem_cons] at hapart
    cases hg : o.stream? g with
    | none =>
      rw [endings_cons_none hg] at h ⊢
      exact ih hnodup.2 hholds hapart.2 h
    | some s' =>
      rw [endings_cons_some hg] at h ⊢
      rcases List.mem_cons.1 h with heq | h
      . rcases Prod.mk.inj heq with ⟨hf, hnone⟩
        rw [← hf, hs] at hg
        rw [← Option.some.inj hg, ← hf] at hnone ⊢
        apply (Stream.finish_none hholds (Prod.ext hnone.symm rfl)).2.changedAt endings_changedAt
        rintro ⟨g', hg', s', hs', hplace⟩
        refine hapart.2 g' hg' ?_ s' hs' hplace.symm
        rintro rfl
        rw [hf] at hg'
        exact hnodup.1 hg'
      . have hne : g ≠ f := by
          rintro rfl
          exact hnodup.1 (endings_mem h).1
        apply ih hnodup.2 _ hapart.2 h
        apply hholds.changedAt (Stream.finish_changedAt s' d g.footer)
        exact (hapart.1 hne s' hg).symm

/--
How the shared files end that are open when outputs are closed, and the disk after that.
-/
def closing (o : Outputs) : List (OutputFile × Option OutputError) × Disk :=
  o.endings o.disk sharedFiles

theorem close_eq_closing (h : o.closed = false)
    : o.close
        =
      ((o.closing.1.findSome? (·.2)).elim (.ok ()) .error,
        { options := o.options, disk := o.closing.2, written := o.written, closed := true }) := by
  rw [close_of_unclosed h]
  unfold finishing
  rw [finishAll_eq_endings]
  rfl

theorem Placed.closing_whole {among : Set OutputFile} (hp : Placed start among o)
    (hapart : ∀ g ∈ among, g ≠ f → o.options.place start g ≠ o.options.place start f)
    (hc : Carries start f text o) (h : (f, none) ∈ o.closing.1)
    : o.closing.2.Contains (o.options.place start f)
        (o.options.header f ++ text ++ bytesOf f.footer) := by
  rcases endings_mem h with ⟨_, s, hs⟩
  rw [← (hp.leads f s hs).2.2]
  apply endings_whole (by decide) hs (hc.held s hs) _ h
  intro g _ hne s' hs'
  rcases hp.leads g s' hs' with ⟨hg, _, hplace⟩
  rw [hplace, (hp.leads f s hs).2.2]
  exact hapart g hg hne

/--
What closing makes of outputs that made `calls` and began with the disk `d`.
-/
structure Ended (d : Disk) (calls : List OutputCall) (o : Outputs) : Prop where
  /-- Every open stream is finished, whichever fail, and none of them twice. -/
  finished : o.closing.1.map (·.1) = sharedFiles.filter fun f => (o.stream? f).isSome
  /-- A stream fails to write or to flush its own file. -/
  failed : ∀ f e, (f, some e) ∈ o.closing.1 →
    ∃ path, o.options.path? f = some path ∧ (e = .write path ∨ e = .flush path)
  /-- The first failure is the answer. -/
  answer : o.close.1 = (o.closing.1.findSome? (·.2)).elim (.ok ()) .error
  /-- Nothing else is done to the disk. -/
  disk : o.close.2.disk = o.closing.2
  /-- The file of a stream that does not fail is whole if the other files of the calls lie apart. -/
  whole : ∀ f, (f, none) ∈ o.closing.1 →
    (∀ c ∈ calls, ∀ g ∈ c.files, g ≠ f → o.options.place d g ≠ o.options.place d f) →
      o.close.2.disk.entry? (o.options.place d f)
        = some (.file (o.options.header f ++ (fresh o.options d).taken f calls ++ bytesOf f.footer))
  /-- No stream is left, and neither closing again nor another append does anything. -/
  closed : o.close.2.closed = true ∧ (∀ f, o.close.2.stream? f = none) ∧ o.close.2.Sealed

theorem fresh_placed {options : OutputOptions} {among : Set OutputFile}
    : Placed d among (fresh options d) := by
  refine ⟨rfl, rfl, ?_⟩
  intro g s hs
  cases g <;> simp [fresh, stream?] at hs

theorem fresh_carries {options : OutputOptions} : Carries d f [] (fresh options d) := by
  refine ⟨fun _ => rfl, ?_⟩
  intro s hs
  cases f <;> simp [fresh, stream?] at hs

/--
Whatever the disk refuses, in the calls of a session that is not closed yet and while it is closed
then: all open streams are finished, and those that do not fail leave their files whole.
-/
theorem session_ended {options : OutputOptions} {calls : List OutputCall}
    (hopen : .close ∉ calls) : Ended d calls ((fresh options d).session calls).2 := by
  have hcalls : ∀ c ∈ calls, ∀ g ∈ c.files, g ∈ {g | ∃ c ∈ calls, g ∈ c.files} :=
    fun c hc g hg => ⟨c, hc, hg⟩
  have hoptions : ((fresh options d).session calls).2.options = options :=
    session_onward.options
  have hp : Placed d {g | ∃ c ∈ calls, g ∈ c.files} ((fresh options d).session calls).2 :=
    session_placed fresh_placed hopen hcalls
  have hclose := close_eq_closing hp.unclosed
  refine ⟨endings_files, ?_, by rw [hclose], by rw [hclose], ?_, close_closed, ?_,
    sealed_of_closed close_closed⟩
  . intro f e hfailed
    rcases endings_failed hfailed with ⟨s, hs, he⟩
    exact ⟨s.path, (hp.leads f s hs).2.1, he⟩
  . intro f hf hapart
    rw [hoptions] at hapart
    have hshared := (endings_mem hf).1
    have hc := session_carries fresh_placed hshared hopen hcalls hapart fresh_carries
    rw [List.nil_append] at hc
    have hwhole := hp.closing_whole ?_ hc hf
    . rw [hclose, hoptions]
      rw [hoptions] at hwhole
      apply hwhole.file
      simp [OutputOptions.header_ne_nil (mem_sharedFiles.1 hshared)]
    . rw [hoptions]
      rintro g ⟨c, hc, hg⟩
      exact hapart c hc g hg
  . intro f
    rw [hclose]
    cases f <;> rfl

/--
The native probe goes to a device that takes no bytes.
-/
def failingOptions : OutputOptions where
  dir? := some ⟨"out"⟩
  glueFile? := some ⟨"glue.c"⟩
  probeCFile? := some ⟨"/dev/full"⟩
  probeCsFile? := some ⟨"abi.cs"⟩

def failingCalls : List OutputCall :=
  [.glue "first", .managed "Widget" "source", .probe ⟨"a", "b"⟩, .glue "second"]

theorem session_ended_failing
    : .close ∉ failingCalls
      ∧ ((fresh failingOptions Disk.blank).session failingCalls).2.closing.1
          = [(.glue, none), (.probeC, some (.flush ⟨"/dev/full"⟩)), (.probeCs, none)]
      ∧ ((fresh failingOptions Disk.blank).session failingCalls).2.close.1
          = .error (.flush ⟨"/dev/full"⟩)
      ∧ ((fresh failingOptions Disk.blank).session failingCalls).2.close.2.disk.entry?
            (failingOptions.place Disk.blank .glue)
          = some (.file (failingOptions.header .glue ++ bytesOf "firstsecond"))
      ∧ ((fresh failingOptions Disk.blank).session failingCalls).2.close.2.disk.entry?
            (failingOptions.place Disk.blank .probeCs)
          = some (.file (failingOptions.header .probeCs ++ bytesOf "b"
              ++ bytesOf OutputFile.probeCs.footer)) := by
  have hopen : OutputCall.close ∉ failingCalls := by decide
  have hended : Ended Disk.blank failingCalls
      ((fresh failingOptions Disk.blank).session failingCalls).2 :=
    session_ended hopen
  have hoptions : ((fresh failingOptions Disk.blank).session failingCalls).2.options
      = failingOptions := by
    decide +kernel
  have hendings : ((fresh failingOptions Disk.blank).session failingCalls).2.closing.1
      = [(.glue, none), (.probeC, some (.flush ⟨"/dev/full"⟩)), (.probeCs, none)] := by
    decide +kernel
  have hapart : ∀ f ∈ [OutputFile.glue, .probeCs], ∀ c ∈ failingCalls, ∀ g ∈ c.files, g ≠ f →
      failingOptions.place Disk.blank g ≠ failingOptions.place Disk.blank f := by
    decide +kernel
  have hglue : (fresh failingOptions Disk.blank).taken .glue failingCalls
      = bytesOf "firstsecond" := by
    decide +kernel
  have hcs : (fresh failingOptions Disk.blank).taken .probeCs failingCalls = bytesOf "b" := by
    decide +kernel
  have hwhole := hended.whole
  rw [hoptions] at hwhole
  refine ⟨hopen, hendings, ?_, ?_, ?_⟩
  . rw [hended.answer, hendings]
    rfl
  . rw [hwhole .glue (by simp [hendings]) (hapart .glue (by simp)), hglue]
    simp [OutputFile.footer, bytesOf]
  . rw [hwhole .probeCs (by simp [hendings]) (hapart .probeCs (by simp)), hcs]

/--
The glue file and the native probe under one path.
-/
def sharingOptions : OutputOptions where
  dir? := some ⟨"out"⟩
  glueFile? := some ⟨"shared.c"⟩
  probeCFile? := some ⟨"shared.c"⟩
  probeCsFile? := some ⟨"abi.cs"⟩

theorem not_session_ended_whole
    : ¬ ∀ (options : OutputOptions) (d : Disk) (calls : List OutputCall) (f : OutputFile),
          .close ∉ calls → (f, none) ∈ ((fresh options d).session calls).2.closing.1 →
            ((fresh options d).session calls).2.close.2.disk.entry? (options.place d f)
              = some (.file
                  (options.header f ++ (fresh options d).taken f calls ++ bytesOf f.footer)) := by
  intro hwhole
  have hglue := hwhole sharingOptions Disk.blank [.glue "text", .probe ⟨"a", "b"⟩] .glue
    (by decide) (by decide +kernel)
  revert hglue
  decide +kernel

end Outputs

end Interop
