import Interop.Proofs.Outputs.Reach

/-!
This module contains what open streams carry in a session in which anything may be refused: the
header of the file and everything that was added to it so far. Other streams may do as they like, as
long as their files lie elsewhere.
-/

namespace Interop

open Disk

/--
What a call has added to a shared file, by its answer and the outputs that it leaves. A probe goes
to the native file first, and it stays there if the other file does not take its part. The other
file is open by then.
-/
def OutputCall.added (f : OutputFile)
    : OutputCall → Except OutputError Unit × Outputs → Bytes
  | c, (.ok (), _) => c.text f
  | .probe p, (.error e, o) =>
    if f = .probeC ∧ o.probeCs?.isSome ∧ o.options.probeCsFile?.map .write = some e then bytesOf p.c
    else []
  | .managed _ _, (.error _, _) | .glue _, (.error _, _) | .close, (.error _, _) => []

variable {d d' : Disk}

theorem Stream.create_failed {path unwritten : Path} {header : String}
    (h : create d path header = (.error (.write unwritten), d')) : unwritten = path := by
  unfold create at h
  split at h
  . next e hparent =>
    rw [Except.error.inj (Prod.mk.inj h).1] at hparent
    unfold create.makeParent at hparent
    repeat' split at hparent
    all_goals simp at hparent
  . split at h
    . simp at h
    . split at h
      . simp at h
      . simpa using (Prod.mk.inj h).1.symm

namespace Outputs

variable {start : Disk} {fs : Set OutputFile} {o o' o'' : Outputs} {f g : OutputFile}
  {s s' : Stream} {text more : Bytes} {r : Except OutputError Unit} {e : OutputError}
  {c : OutputCall} {cs : List OutputCall}

theorem add_failed {added : String} (h : add s d added = (.error e, s', d'))
    : e = .write s.path := by
  have hput := Stream.put_continues s d (bytesOf added)
  unfold add at h
  generalize s.put d (bytesOf added) = result at h hput
  rcases result with ⟨_ | _, s₁, d₁⟩
  . rw [← Except.error.inj (Prod.mk.inj h).1, hput.path]
  . simp at h

theorem add_path {added : String} (h : add s d added = (r, s', d')) : s'.path = s.path := by
  have hput := Stream.put_continues s d (bytesOf added)
  unfold add at h
  generalize s.put d (bytesOf added) = result at h hput
  rcases result with ⟨_ | _, s₁, d₁⟩
  all_goals
    rcases Prod.mk.inj h with ⟨_, hrest⟩
    rw [← (Prod.mk.inj hrest).1]
    exact hput.path

theorem Ensures.failed {path : Path} (h : o.Ensures f (.error (.write path)) o')
    : o.options.path? f = some path := by
  rcases h with ⟨path', header, hpath, _, hensure⟩
  unfold ensure at hensure
  split at hensure
  . simp at hensure
  . split at hensure
    . simp at hensure
    . next hcreate =>
      rw [Except.error.inj (Prod.mk.inj hensure).1] at hcreate
      rw [hpath, Stream.create_failed hcreate]

theorem Ensures.stream? {r : Except OutputError Stream} (h : o.Ensures f r o') (g : OutputFile)
    : o'.stream? g = o.stream? g := by
  rcases h with ⟨_, _, _, _, hensure⟩
  unfold ensure at hensure
  split at hensure
  . rw [← (Prod.mk.inj hensure).2]
  . split at hensure
    all_goals
      rw [← (Prod.mk.inj hensure).2]
      cases g <;> rfl

theorem Ensures.unopened (h : o.Ensures f (.error e) o') : o.stream? f = none := by
  rcases h with ⟨_, _, _, _, hensure⟩
  unfold ensure at hensure
  split at hensure
  . simp at hensure
  . assumption

/--
One step of a call, with what it adds to the file: to fail to open a stream, to have it open, or to
hand it a text.
-/
inductive StreamStep (g : OutputFile) (o : Outputs) : Bytes → Outputs → Prop where
  | unopened {e : OutputError} {o' : Outputs} (hopen : o.Ensures g (.error e) o')
      : StreamStep g o [] o'
  | opened {s : Stream} {o' : Outputs} (hopen : o.Ensures g (.ok s) o')
      : StreamStep g o [] (o'.withStream g s)
  | added {s s' : Stream} {r : Except OutputError Unit} {d : Disk} {text : String}
      (hs : o.stream? g = some s) (hadd : add s o.disk text = (r, s', d))
      : StreamStep g o (if r.isOk then bytesOf text else []) (withStream { o with disk := d } g s')

/--
What is done with one file: nothing changes but the disk at its place and the stream to it.
-/
structure Touches (start : Disk) (g : OutputFile) (o o' : Outputs) : Prop where
  options : o'.options = o.options
  closed : o'.closed = o.closed
  changed : ChangedAt {o.options.place start g} o.disk o'.disk
  others : ∀ f, f ≠ g → o'.stream? f = o.stream? f
  leads : ∀ s, o'.stream? g = some s →
    o.options.path? g = some s.path ∧ s.place = o.options.place start g

/--
The outputs are not closed, and every open stream is one to its file, among `fs`. Places are those
of the disk that the outputs began with.
-/
structure Placed (start : Disk) (fs : Set OutputFile) (o : Outputs) : Prop where
  unclosed : o.closed = false
  working : o.disk.working = start.working
  leads : ∀ g s, o.stream? g = some s →
    g ∈ fs ∧ o.options.path? g = some s.path ∧ s.place = o.options.place start g

/--
The stream to the file stands for its header and `text`. Nothing was added if it is not open.
-/
structure Carries (start : Disk) (f : OutputFile) (text : Bytes) (o : Outputs) : Prop where
  unopened : o.stream? f = none → text = []
  held : ∀ s, o.stream? f = some s → s.Holds o.disk (o.options.header f ++ text)

theorem Placed.mono {gs : Set OutputFile} (hp : Placed start fs o) (hsub : fs ⊆ gs)
    : Placed start gs o :=
  ⟨hp.unclosed, hp.working, fun g s hs => ⟨hsub (hp.leads g s hs).1, (hp.leads g s hs).2⟩⟩

namespace Touches

theorem placed (h : Touches start g o o') (hp : Placed start fs o) (hg : g ∈ fs)
    : Placed start fs o' := by
  refine ⟨h.closed.trans hp.unclosed, h.changed.working.trans hp.working, ?_⟩
  intro f s hs
  rw [h.options]
  by_cases hf : f = g
  . rw [hf] at hs ⊢
    exact ⟨hg, h.leads s hs⟩
  . rw [h.others f hf] at hs
    exact hp.leads f s hs

theorem carries (h : Touches start g o o') (hp : Placed start fs o) (hc : Carries start f text o)
    (hne : g ≠ f) (hapart : o.options.place start g ≠ o.options.place start f)
    : Carries start f text o' := by
  have hsame := h.others f hne.symm
  refine ⟨?_, ?_⟩
  . rw [hsame]
    exact hc.unopened
  . intro s hs
    rw [hsame] at hs
    rw [h.options]
    apply (hc.held s hs).changedAt h.changed
    rw [(hp.leads f s hs).2.2]
    exact hapart.symm

end Touches

theorem Ensures.touches {r : Except OutputError Stream} (hp : Placed start fs o)
    (h : o.Ensures g r o')
    : Touches start g o o' ∧ ∀ s, r = .ok s →
        o.options.path? g = some s.path ∧ s.place = o.options.place start g := by
  have hstream := h.stream?
  have hleads : ∀ s, o'.stream? g = some s →
      o.options.path? g = some s.path ∧ s.place = o.options.place start g := by
    intro s hs
    rw [hstream] at hs
    exact (hp.leads g s hs).2
  rcases h with ⟨path, header, hpath, _, hensure⟩
  unfold ensure at hensure
  split at hensure
  . next s hs =>
    rcases Prod.mk.inj hensure with ⟨rfl, rfl⟩
    refine ⟨⟨rfl, rfl, .refl, fun _ _ => rfl, hleads⟩, ?_⟩
    intro s' hs'
    rw [← Except.ok.inj hs']
    exact (hp.leads g s hs).2
  . have hplace : o.disk.placeOf path = o.options.place start g := by
      rw [place_eq_placeOf hpath]
      unfold placeOf Disk.start
      rw [hp.working]
    have hcreate := Stream.create_changedAt o.disk path header
    rw [hplace] at hcreate
    generalize hresult : Stream.create o.disk path header = result at hcreate hensure
    rcases result with ⟨_ | s, d⟩
    . rcases Prod.mk.inj hensure with ⟨rfl, rfl⟩
      exact ⟨⟨rfl, rfl, hcreate.1, fun f _ => hstream f, hleads⟩, by simp⟩
    . rcases Prod.mk.inj hensure with ⟨rfl, rfl⟩
      refine ⟨⟨rfl, rfl, hcreate.1, fun f _ => hstream f, hleads⟩, ?_⟩
      intro s' hs'
      rw [← Except.ok.inj hs', (Stream.create_ok hresult).1]
      exact ⟨hpath, hcreate.2 s rfl⟩

theorem Ensures.holds (hopen : o.Ensures g (.ok s) o') (hc : Carries start g text o)
    : s.Holds o'.disk (o.options.header g ++ text) := by
  rcases hopen with ⟨path, header, _, hheader, hensure⟩
  unfold ensure at hensure
  split at hensure
  . next s₁ hs₁ =>
    rcases Prod.mk.inj hensure with ⟨hs, rfl⟩
    rw [← Except.ok.inj hs]
    exact hc.held s₁ hs₁
  . next hunopened =>
    split at hensure
    . next hcreate =>
      rcases Prod.mk.inj hensure with ⟨hs, rfl⟩
      rw [hc.unopened hunopened, List.append_nil, ← hheader, ← Except.ok.inj hs]
      exact (Stream.create_ok hcreate).2.2.2
    . simp at hensure

namespace StreamStep

theorem touches (h : StreamStep g o more o') (hshared : g ∈ sharedFiles)
    (hp : Placed start fs o) : Touches start g o o' := by
  have hshared := mem_sharedFiles.1 hshared
  cases h with
  | unopened hopen => exact (hopen.touches hp).1
  | @opened s o₁ hopen =>
    rcases hopen.touches hp with ⟨h, hleads⟩
    refine ⟨withStream_options.trans h.options, withStream_closed.trans h.closed, ?_, ?_, ?_⟩
    . rw [withStream_disk]
      exact h.changed
    . intro f hf
      rw [stream?_withStream hshared, if_neg hf]
      exact h.others f hf
    . intro s' hs'
      rw [stream?_withStream hshared, if_pos rfl] at hs'
      rw [← Option.some.inj hs']
      exact hleads s rfl
  | @added s s' r d text hs hadd =>
    rcases hp.leads g s hs with ⟨_, hpath, hplace⟩
    rcases add_changedAt hadd with ⟨hsame, hchanged⟩
    rw [hplace] at hchanged
    refine ⟨withStream_options, withStream_closed, ?_, ?_, ?_⟩
    . rw [withStream_disk]
      exact hchanged
    . intro f hf
      rw [stream?_withStream hshared, if_neg hf]
      cases f <;> rfl
    . intro s'' hs''
      rw [stream?_withStream hshared, if_pos rfl] at hs''
      rw [← Option.some.inj hs'', add_path hadd, hsame]
      exact ⟨hpath, hplace⟩

theorem carries_own (h : StreamStep g o more o') (hshared : g ∈ sharedFiles)
    (hc : Carries start g text o) : Carries start g (text ++ more) o' := by
  have hshared := mem_sharedFiles.1 hshared
  cases h with
  | unopened hopen =>
    have hnone := hopen.unopened
    rw [← hopen.stream?] at hnone
    rw [List.append_nil, hc.unopened hopen.unopened]
    refine ⟨fun _ => rfl, ?_⟩
    simp [hnone]
  | opened hopen =>
    rw [List.append_nil]
    refine ⟨?_, ?_⟩
    . rw [stream?_withStream hshared, if_pos rfl]
      simp
    . intro s hs
      rw [stream?_withStream hshared, if_pos rfl] at hs
      rw [withStream_disk, withStream_options, hopen.options, ← Option.some.inj hs]
      exact hopen.holds hc
  | @added s s' r d added hs hadd =>
    have hput := Stream.put_handled (bytesOf added) (hc.held s hs)
    unfold add at hadd
    refine ⟨?_, ?_⟩
    . rw [stream?_withStream hshared, if_pos rfl]
      simp
    . intro s'' hs''
      rw [stream?_withStream hshared, if_pos rfl] at hs''
      rw [withStream_disk, withStream_options, ← Option.some.inj hs'']
      generalize s.put o.disk (bytesOf added) = result at hput hadd
      rcases result with ⟨_ | _, s₁, d₁⟩
      all_goals
        rcases Prod.mk.inj hadd with ⟨rfl, hrest⟩
        rcases Prod.mk.inj hrest with ⟨rfl, rfl⟩
        simpa [Except.isOk, Except.toBool] using hput.2

theorem carries (h : StreamStep g o more o') (hshared : g ∈ sharedFiles) (hp : Placed start fs o)
    (hapart : g ≠ f → o.options.place start g ≠ o.options.place start f)
    (hc : Carries start f text o) : Carries start f (text ++ if g = f then more else []) o' := by
  by_cases hf : g = f
  . rw [← hf] at hc ⊢
    rw [if_pos rfl]
    exact h.carries_own hshared hc
  . rw [if_neg hf, List.append_nil]
    exact (h.touches hshared hp).carries hp hc hf (hapart hf)

end StreamStep

/--
Steps one after the other, each on one of `files`, with what they add.
-/
inductive StreamSteps (files : List OutputFile)
    : Outputs → List (OutputFile × Bytes) → Outputs → Prop where
  | nil {o : Outputs} : StreamSteps files o [] o
  | cons {g : OutputFile} {more : Bytes} {l : List (OutputFile × Bytes)} {o o' o'' : Outputs}
      (hg : g ∈ files) (h : StreamStep g o more o') (hs : StreamSteps files o' l o'')
      : StreamSteps files o ((g, more) :: l) o''

/--
All that steps add to one file.
-/
def addedTo (f : OutputFile) (l : List (OutputFile × Bytes)) : Bytes :=
  l.flatMap fun (g, more) => if g = f then more else []

namespace StreamSteps

variable {files : List OutputFile} {l : List (OutputFile × Bytes)}

theorem placed (h : StreamSteps files o l o') (hshared : files ⊆ sharedFiles)
    (hp : Placed start fs o) (hfs : ∀ g ∈ files, g ∈ fs) : Placed start fs o' := by
  induction h with
  | nil => exact hp
  | cons hg h _ ih => exact ih ((h.touches (hshared hg) hp).placed hp (hfs _ hg))

theorem carries (h : StreamSteps files o l o') (hshared : files ⊆ sharedFiles)
    (hp : Placed start fs o) (hfs : ∀ g ∈ files, g ∈ fs)
    (hapart : ∀ g ∈ files, g ≠ f → o.options.place start g ≠ o.options.place start f)
    (hc : Carries start f text o) : Carries start f (text ++ addedTo f l) o' := by
  induction h generalizing text with
  | nil => simpa [addedTo] using hc
  | cons hg h _ ih =>
    have htouches := h.touches (hshared hg) hp
    have hc' := h.carries (hshared hg) hp (hapart _ hg) hc
    rw [← htouches.options] at hapart
    simpa [addedTo] using ih (htouches.placed hp (hfs _ hg)) hapart hc'

end StreamSteps

theorem appendGlue_streamSteps (o : Outputs) (text : String)
    : ∃ l, StreamSteps [.glue] o l (o.appendGlue text).2
        ∧ ∀ f, addedTo f l = (OutputCall.glue text).added f (o.appendGlue text) := by
  have hmem : OutputFile.glue ∈ [OutputFile.glue] := List.mem_singleton.2 rfl
  have hsteps := appendGlue_steps o text
  generalize o.appendGlue text = result at hsteps ⊢
  cases hsteps with
  | refused _ => exact ⟨[], .nil, fun _ => rfl⟩
  | unopened hopen =>
    refine ⟨_, .cons hmem (.unopened hopen) .nil, ?_⟩
    simp [addedTo, OutputCall.added]
  | @added s o₁ s' r d hopen hadd =>
    refine ⟨_, .cons hmem (.opened hopen) (.cons hmem (.added rfl hadd) .nil), ?_⟩
    intro f
    cases r
    all_goals simp [addedTo, OutputCall.added, OutputCall.text, Except.isOk, Except.toBool, eq_comm]

theorem added_probe_error {p : Binding.Probe}
    (h : f = .probeC → o.probeCs?.isSome → ∀ path, o.options.path? .probeCs = some path →
      e ≠ .write path)
    : (OutputCall.probe p).added f (.error e, o) = [] := by
  simp only [OutputCall.added]
  apply if_neg
  rintro ⟨hf, hopen, hwrite⟩
  rcases Option.map_eq_some_iff.1 hwrite with ⟨path, hpath, he⟩
  exact h hf hopen path hpath he.symm

-- What the native file has taken can be told from the answer, unless both files have one path.
theorem appendProbe_streamSteps (hp : Placed start fs o) (p : Binding.Probe)
    : ∃ l, StreamSteps [.probeC, .probeCs] o l (o.appendProbe p).2
        ∧ ∀ f, (f = .probeC → o.options.path? .probeC ≠ o.options.path? .probeCs) →
          addedTo f l = (OutputCall.probe p).added f (o.appendProbe p) := by
  have hmemC : OutputFile.probeC ∈ [OutputFile.probeC, .probeCs] := by simp
  have hmemCs : OutputFile.probeCs ∈ [OutputFile.probeC, .probeCs] := by simp
  have hsteps := appendProbe_steps o p
  generalize o.appendProbe p = result at hsteps ⊢
  cases hsteps with
  | refused he =>
    refine ⟨[], .nil, ?_⟩
    rcases he with rfl | rfl <;> simp [addedTo, OutputCall.added]
  | @unopened e o₁ hopenC =>
    refine ⟨_, .cons hmemC (.unopened hopenC) .nil, ?_⟩
    intro f hpaths
    rw [added_probe_error]
    . simp [addedTo]
    . rintro hf _ path hpath rfl
      rw [hopenC.options] at hpath
      exact hpaths hf (hopenC.failed.trans hpath.symm)
  | @halfOpened c o₁ e o₂ hopenC hopenCs =>
    refine ⟨_, .cons hmemC (.opened hopenC) (.cons hmemCs (.unopened hopenCs) .nil), ?_⟩
    intro f _
    have hunopened : o₂.stream? .probeCs = none := by
      rw [hopenCs.stream?]
      exact hopenCs.unopened
    rw [added_probe_error]
    . simp [addedTo]
    . intro _ hopen
      simp [show o₂.probeCs? = none from hunopened] at hopen
  | @halfAdded c cs o₁ o₂ c' e d hopenC hopenCs haddC =>
    have hstream : (o₂.withStream .probeCs cs).stream? .probeC = some c := hopenCs.stream? .probeC
    refine ⟨_, .cons hmemC (.opened hopenC) (.cons hmemCs (.opened hopenCs)
      (.cons hmemC (.added hstream haddC) .nil)), ?_⟩
    intro f hpaths
    rw [added_probe_error]
    . simp [addedTo, Except.isOk, Except.toBool]
    . rintro hf _ path hpath rfl
      have hpathC : o.options.path? .probeC = some path := by
        rw [((hopenC.touches hp).2 c rfl).1, OutputError.write.inj (add_failed haddC)]
      have hoptions : o₂.options = o.options := hopenCs.options.trans hopenC.options
      have hpathCs : o.options.path? .probeCs = some path := by
        rw [← hoptions]
        exact hpath
      exact hpaths hf (hpathC.trans hpathCs.symm)
  | @added c cs o₁ o₂ c' cs' r d d' hopenC hopenCs haddC haddCs =>
    have hstream : (o₂.withStream .probeCs cs).stream? .probeC = some c := hopenCs.stream? .probeC
    refine ⟨_, .cons hmemC (.opened hopenC) (.cons hmemCs (.opened hopenCs)
      (.cons hmemC (.added hstream haddC) (.cons hmemCs (.added rfl haddCs) .nil))), ?_⟩
    intro f _
    cases r with
    | ok u =>
      simp [addedTo, OutputCall.added, OutputCall.text, Except.isOk, Except.toBool, eq_comm]
    | error e =>
      have hopened := (StreamStep.opened hopenC).touches (by simp [sharedFiles]) hp
      have hp₁ := hopened.placed (hp.mono (Set.subset_univ fs)) trivial
      have hpath : o₂.options.probeCsFile? = some cs.path := by
        rw [hopenCs.options]
        exact ((hopenCs.touches hp₁).2 cs rfl).1
      simp [addedTo, OutputCall.added, Except.isOk, Except.toBool, eq_comm, withStream,
        add_failed haddCs, hpath]

theorem writeManaged_touches (hp : Placed start fs o) (name source : String)
    : Touches start (.managed name) o (o.writeManaged name source).2 := by
  have hplace : o.disk.placeOf (o.managedPath name) = o.options.place start (.managed name) := by
    unfold placeOf Disk.start
    rw [hp.working]
    rfl
  generalize hwrite : o.writeManaged name source = result
  rcases result with ⟨_ | path, o'⟩
  . have hmoved := writeManaged_error hwrite
    refine ⟨hmoved.options, hmoved.closed, hmoved.changed.mono ?_, fun f _ => hmoved.stream? f, ?_⟩
    . rintro q ⟨_, rfl⟩
      exact hplace
    . simp [stream?]
  . rcases writeManaged_ok hwrite with ⟨_, ho, hchanged, _⟩
    rw [hplace] at hchanged
    refine ⟨by rw [ho], by rw [ho], hchanged, ?_, by simp [stream?]⟩
    intro f _
    rw [ho]
    cases f <;> rfl

theorem answer_placed (hp : Placed start fs o) (hc : c ≠ .close) (hfs : ∀ g ∈ c.files, g ∈ fs)
    : Placed start fs (o.answer c).2 := by
  cases c with
  | managed name source =>
    exact (writeManaged_touches hp name source).placed hp (hfs _ (List.mem_singleton.2 rfl))
  | glue text =>
    rcases appendGlue_streamSteps o text with ⟨l, hsteps, _⟩
    exact hsteps.placed (by simp [sharedFiles]) hp hfs
  | probe p =>
    rcases appendProbe_streamSteps hp p with ⟨l, hsteps, _⟩
    exact hsteps.placed (by simp [sharedFiles]) hp hfs
  | close => exact absurd rfl hc

theorem added_managed {name source : String} (hf : f ∈ sharedFiles)
    {result : Except OutputError Unit × Outputs}
    : (OutputCall.managed name source).added f result = [] := by
  have hne := mem_sharedFiles.1 hf name
  rcases result with ⟨_ | _, _⟩ <;> simp [OutputCall.added, OutputCall.text, hne]

theorem answer_carries (hp : Placed start fs o) (hf : f ∈ sharedFiles) (hc : c ≠ .close)
    (hfs : ∀ g ∈ c.files, g ∈ fs)
    (hapart : ∀ g ∈ c.files, g ≠ f → o.options.place start g ≠ o.options.place start f)
    (h : Carries start f text o)
    : Carries start f (text ++ c.added f (o.answer c)) (o.answer c).2 := by
  cases c with
  | managed name source =>
    rw [added_managed hf, List.append_nil]
    exact (writeManaged_touches hp name source).carries hp h (mem_sharedFiles.1 hf name).symm
      (hapart _ (List.mem_singleton.2 rfl) (mem_sharedFiles.1 hf name).symm)
  | glue added =>
    rcases appendGlue_streamSteps o added with ⟨l, hsteps, hadded⟩
    have hcarries := hsteps.carries (by simp [sharedFiles]) hp hfs hapart h
    rwa [hadded f] at hcarries
  | probe p =>
    rcases appendProbe_streamSteps hp p with ⟨l, hsteps, hadded⟩
    have hcarries := hsteps.carries (by simp [sharedFiles]) hp hfs hapart h
    rwa [hadded f] at hcarries
    rintro rfl hpaths
    apply hapart .probeCs (by simp [OutputCall.files]) (by simp)
    unfold OutputOptions.place
    rw [hpaths]
  | close => exact absurd rfl hc

/--
All that calls made one after the other add to a shared file.
-/
def taken (f : OutputFile) (o : Outputs) : List OutputCall → Bytes
  | [] => []
  | c :: cs => c.added f (o.answer c) ++ taken f (o.answer c).2 cs

theorem session_placed (hp : Placed start fs o) (hcs : .close ∉ cs)
    (hfs : ∀ c ∈ cs, ∀ g ∈ c.files, g ∈ fs) : Placed start fs (o.session cs).2 := by
  induction cs generalizing o with
  | nil => exact hp
  | cons c cs ih =>
    rw [List.forall_mem_cons] at hfs
    rw [List.mem_cons, not_or] at hcs
    exact ih (answer_placed hp (Ne.symm hcs.1) hfs.1) hcs.2 hfs.2

theorem session_carries (hp : Placed start fs o) (hf : f ∈ sharedFiles) (hcs : .close ∉ cs)
    (hfs : ∀ c ∈ cs, ∀ g ∈ c.files, g ∈ fs)
    (hapart : ∀ c ∈ cs, ∀ g ∈ c.files, g ≠ f →
      o.options.place start g ≠ o.options.place start f)
    (h : Carries start f text o) : Carries start f (text ++ o.taken f cs) (o.session cs).2 := by
  induction cs generalizing o text with
  | nil =>
    rw [taken, List.append_nil]
    exact h
  | cons c cs ih =>
    rw [List.forall_mem_cons] at hfs hapart
    rw [List.mem_cons, not_or] at hcs
    have honward : Onward o (o.answer c).2 := answer_onward
    have hapart' := hapart.2
    rw [← honward.options] at hapart'
    have hlater := ih (answer_placed hp (Ne.symm hcs.1) hfs.1) hcs.2 hfs.2 hapart'
      (answer_carries hp hf (Ne.symm hcs.1) hfs.1 hapart.1 h)
    rwa [List.append_assoc] at hlater

/--
If no stream is hindered then the answers alone tell what every shared file was given.
-/
theorem taken_eq_received (hf : f ∈ sharedFiles) (h : (o.session cs).1.Unhindered)
    : o.taken f cs = (o.session cs).1.received f := by
  induction cs generalizing o with
  | nil => rfl
  | cons c cs ih =>
    unfold taken
    rw [session_cons] at h ⊢
    rcases List.forall_mem_cons.1 h with ⟨hfree, hrest⟩
    rw [ih hrest]
    unfold Transcript.received
    rw [List.flatMap_cons]
    congr 1
    generalize o.answer c = result at hfree
    rcases result with ⟨e | _, o'⟩
    . simp only [Except.isOk, Except.toBool]
      cases c with
      | managed name source => exact added_managed hf
      | glue text | close => rfl
      | probe p =>
        apply added_probe_error
        rintro _ _ path _ rfl
        simp [Transcript.hindered, OutputError.isWriteFailure] at hfree
    . rfl

end Outputs

end Interop
