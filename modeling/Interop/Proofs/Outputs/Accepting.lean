import Interop.Proofs.Files.Accepting
import Interop.Proofs.Outputs.Tally

/-!
This module contains sessions on a disk that takes what is written to the shared files: no call of
theirs fails to write or to flush, so that only files that cannot be created are missed.
-/

namespace Interop

open Disk

namespace Stream

variable {d d' : Disk} {s : Stream} {text : Bytes}

theorem makeParent_noWorse {path : Path} (h : create.makeParent d path = .ok d')
    : NoWorse d d' := by
  unfold create.makeParent at h
  split at h
  . split at h
    . rw [← Except.ok.inj h]
      exact .refl
    . split at h
      . next hmade =>
        rw [← Except.ok.inj h]
        exact makeDirectories_noWorse hmade
      . simp at h
  . rw [← Except.ok.inj h]
    exact .refl

theorem makeParent_error {path : Path} {e : OutputError}
    (h : create.makeParent d path = .error e) : e.isWriteFailure = false := by
  unfold create.makeParent at h
  split at h
  . split at h
    . simp at h
    . split at h
      . simp at h
      . rw [← Except.error.inj h]
        rfl
  . simp at h

theorem create_noWorse (d : Disk) (path : Path) (header : String)
    : NoWorse d (create d path header).2 := by
  unfold create
  split
  . exact .refl
  . next d₁ hparent =>
    have hparent := makeParent_noWorse hparent
    have hcreate : NoWorse d₁ (d₁.create path).2 := Disk.create_noWorse
    generalize d₁.create path = result at hcreate
    rcases result with ⟨_ | place, d₂⟩
    . exact hparent.trans hcreate
    . have hput := put_noWorse (start path place) d₂ (bytesOf header)
      simp only
      generalize (start path place).put d₂ (bytesOf header) = result at hput
      rcases result with ⟨_ | _, s₃, d₃⟩
      . exact ((hparent.trans hcreate).trans hput).trans (flush_noWorse s₃ d₃)
      . exact (hparent.trans hcreate).trans hput

theorem finish_noWorse (s : Stream) (d : Disk) (footer : String)
    : NoWorse d (s.finish d footer).2 := by
  have hput := put_noWorse s d (bytesOf footer)
  unfold finish
  generalize s.put d (bytesOf footer) = result at hput
  rcases result with ⟨_ | _, s₁, d₁⟩
  . exact hput.trans (flush_noWorse s₁ d₁)
  . have hflush := flush_noWorse s₁ d₁
    simp only
    generalize s₁.flush d₁ = result at hflush
    rcases result with ⟨_ | _, s₂, d₂⟩
    . exact (hput.trans hflush).trans (flush_noWorse s₂ d₂)
    . exact (hput.trans hflush).trans (flush_noWorse s₂ d₂)

theorem create_taken {path : Path} {header : String} {e : OutputError}
    (htakes : d.Takes (d.placeOf path)) (h : create d path header = (.error e, d'))
    : e.isWriteFailure = false := by
  unfold create at h
  split at h
  . next herror =>
    rw [← Except.error.inj (Prod.mk.inj h).1]
    exact makeParent_error herror
  . next d₁ hparent =>
    have hplaceOf := (makeParent_ok hparent).placeOf (p := path)
    have hparent := makeParent_noWorse hparent
    split at h
    . rw [← Except.error.inj (Prod.mk.inj h).1]
      rfl
    . next place d₂ hcreate =>
      have hcreated : NoWorse d₁ (d₁.create path).2 := Disk.create_noWorse
      rw [hcreate] at hcreated
      rcases create_some hcreate with ⟨hplace, _, hcontains⟩
      rw [← hplaceOf, ← hplace] at htakes
      have hput := put_taken (htakes.noWorse (hparent.trans hcreated)) (start_holds path hcontains)
        (bytesOf header)
      split at h
      . simp at h
      . next hrefused => simp [hrefused] at hput

theorem finish_taken (htakes : d.Takes s.place) (hs : s.Holds d text) (footer : String)
    : (s.finish d footer).1 = none := by
  have hput := put_taken htakes hs (bytesOf footer)
  have hhandled := put_handled (bytesOf footer) hs
  have hnoWorse := put_noWorse s d (bytesOf footer)
  unfold finish
  generalize s.put d (bytesOf footer) = result at hput hhandled hnoWorse
  rcases result with ⟨_ | _, s₁, d₁⟩
  . simp at hput
  . rcases hhandled with ⟨hcontinues, hholds⟩
    have htakes₁ : d₁.Takes s₁.place := by
      rw [hcontinues.place]
      exact htakes.noWorse hnoWorse
    have hflush := flush_taken htakes₁ hholds
    simp only
    generalize s₁.flush d₁ = result at hflush
    rcases result with ⟨_ | _, s₂, d₂⟩
    . simp at hflush
    . rfl

end Stream

namespace Outputs

variable {o o' : Outputs} {d : Disk} {e : OutputError}

theorem Ensures.noWorse {f : OutputFile} {r : Except OutputError Stream} (h : o.Ensures f r o')
    : NoWorse o.disk o'.disk := by
  rcases h with ⟨path, header, _, _, h⟩
  unfold ensure at h
  split at h
  . rw [← (Prod.mk.inj h).2]
    exact .refl
  . have hcreate := Stream.create_noWorse o.disk path header
    generalize Stream.create o.disk path header = result at h hcreate
    rcases result with ⟨_ | _, d₁⟩
    . rw [← (Prod.mk.inj h).2]
      exact hcreate
    . rw [← (Prod.mk.inj h).2]
      exact hcreate

theorem add_noWorse {s s' : Stream} {d' : Disk} {text : String} {r : Except OutputError Unit}
    (h : add s d text = (r, s', d')) : NoWorse d d' := by
  have hput := Stream.put_noWorse s d (bytesOf text)
  unfold add at h
  generalize s.put d (bytesOf text) = result at h hput
  rcases result with ⟨_ | _, s₁, d₁⟩
  . rcases Prod.mk.inj h with ⟨_, hrest⟩
    rw [← (Prod.mk.inj hrest).2]
    exact hput
  . rcases Prod.mk.inj h with ⟨_, hrest⟩
    rw [← (Prod.mk.inj hrest).2]
    exact hput

theorem writeManaged_noWorse (o : Outputs) (name source : String)
    : NoWorse o.disk (o.writeManaged name source).2.disk := by
  unfold writeManaged
  split
  . exact .refl
  . next d₁ hmade =>
    have hmade := makeDirectories_noWorse hmade
    simp only
    split
    . exact hmade
    . have hcreate : NoWorse d₁ (d₁.create (o.managedPath name)).2 := create_noWorse
      generalize d₁.create (o.managedPath name) = result at hcreate
      rcases result with ⟨_ | place, d₂⟩
      . exact hmade.trans hcreate
      . have hwrite := write_noWorse d₂ place 0 (bytesOf source)
        simp only
        generalize d₂.write place 0 (bytesOf source) = result at hwrite
        rcases result with ⟨_ | _, d₃⟩ <;> exact (hmade.trans hcreate).trans hwrite

theorem appendGlue_noWorse (o : Outputs) (text : String)
    : NoWorse o.disk (o.appendGlue text).2.disk := by
  have hsteps := appendGlue_steps o text
  generalize o.appendGlue text = result at hsteps
  cases hsteps with
  | refused _ => exact .refl
  | unopened hopen => exact hopen.noWorse
  | added s o₁ hopen hadd => exact hopen.noWorse.trans (add_noWorse hadd)

theorem appendProbe_noWorse (o : Outputs) (p : Binding.Probe)
    : NoWorse o.disk (o.appendProbe p).2.disk := by
  have hsteps := appendProbe_steps o p
  generalize o.appendProbe p = result at hsteps
  cases hsteps with
  | refused _ => exact .refl
  | unopened hopenC => exact hopenC.noWorse
  | halfOpened c o₁ hopenC hopenCs => exact NoWorse.trans hopenC.noWorse hopenCs.noWorse
  | halfAdded c cs o₁ o₂ hopenC hopenCs haddC =>
    exact (NoWorse.trans hopenC.noWorse hopenCs.noWorse).trans (add_noWorse haddC)
  | added c cs o₁ o₂ hopenC hopenCs haddC haddCs =>
    have hadded := (add_noWorse haddC).trans (add_noWorse haddCs)
    exact (NoWorse.trans hopenC.noWorse hopenCs.noWorse).trans hadded

theorem finishAll_noWorse (d : Disk) (streams : List (Option Stream × String))
    : NoWorse d (finishAll d streams).2 := by
  induction streams generalizing d with
  | nil => exact .refl
  | cons entry rest ih =>
    rcases entry with ⟨_ | s, footer⟩
    . exact ih d
    . exact (Stream.finish_noWorse s d footer).trans (ih _)

theorem close_noWorse (o : Outputs) : NoWorse o.disk o.close.2.disk := by
  unfold close
  split
  . exact .refl
  . exact finishAll_noWorse _ _

theorem answer_noWorse (o : Outputs) (c : OutputCall) : NoWorse o.disk (o.answer c).2.disk := by
  cases c with
  | managed name source => exact writeManaged_noWorse o name source
  | glue text => exact appendGlue_noWorse o text
  | probe p => exact appendProbe_noWorse o p
  | close => exact close_noWorse o

theorem add_taken {s : Stream} {text : Bytes} (htakes : d.Takes s.place) (hs : s.Holds d text)
    (more : String) : (add s d more).1 = .ok () := by
  have hput := Stream.put_taken htakes hs (bytesOf more)
  unfold add
  generalize s.put d (bytesOf more) = result at hput
  rcases result with ⟨_ | _, s₁, d₁⟩
  . simp at hput
  . rfl

-- While one stream is finished, those after it go on holding their texts.
theorem finishAll_taken {streams : List (Option Stream × String)}
    (hholds : ∀ s footer, (some s, footer) ∈ streams → d.Takes s.place ∧ ∃ text, s.Holds d text)
    (hapart : streams.Pairwise fun a b => ∀ s s', a.1 = some s → b.1 = some s' → s.place ≠ s'.place)
    : (finishAll d streams).1 = none := by
  induction streams generalizing d with
  | nil => rfl
  | cons entry rest ih =>
    rw [List.pairwise_cons] at hapart
    rcases entry with ⟨_ | s, footer⟩
    . exact ih (fun s footer hmem => hholds s footer (List.mem_cons_of_mem _ hmem)) hapart.2
    . rcases hholds s footer List.mem_cons_self with ⟨htakes, text, hs⟩
      have hnone := Stream.finish_taken htakes hs footer
      have hchanged := (Stream.finish_none hs (Prod.ext hnone rfl)).1
      have hrest : ∀ s' footer', (some s', footer') ∈ rest →
          (s.finish d footer).2.Takes s'.place ∧ ∃ text, s'.Holds (s.finish d footer).2 text := by
        intro s' footer' hmem
        rcases hholds s' footer' (List.mem_cons_of_mem _ hmem) with ⟨htakes', text', hs'⟩
        refine ⟨htakes'.noWorse (Stream.finish_noWorse s d footer), text', ?_⟩
        exact hs'.changedAt hchanged (hapart.1 _ hmem s s' rfl rfl).symm
      unfold finishAll
      simp only
      rw [hnone, ih hrest hapart.2]
      rfl

variable {options : OutputOptions} {start : Disk} {fs : Set OutputFile} {t : Transcript}
  {l : Ledger} {c : OutputCall}

/--
The disk takes what is written to the shared files.
-/
def TakesShared (options : OutputOptions) (start d : Disk) : Prop :=
  ∀ f ∈ sharedFiles, d.Takes (options.place start f)

theorem TakesShared.noWorse {d' : Disk} (h : TakesShared options start d) (hd : NoWorse d d')
    : TakesShared options start d' :=
  fun f hf => (h f hf).noWorse hd

theorem TakesShared.begun {f : OutputFile} {s : Stream} (h : TakesShared options start o.disk)
    (hopen : o.Ensures f (.ok s) o') : TakesShared options start (o'.withStream f s).disk := by
  rw [withStream_disk]
  exact h.noWorse hopen.noWorse

namespace Tallied

theorem placeOf_eq {f : OutputFile} {path : Path} (h : Tallied options start fs t o l)
    (hpath : o.options.path? f = some path) : o.disk.placeOf path = options.place start f := by
  rw [← place_eq_placeOf hpath, h.place_eq]

theorem held_taken {f : OutputFile} {s : Stream} (h : Tallied options start fs t o l)
    (htakes : TakesShared options start o.disk) (hs : o.stream? f = some s)
    : o.disk.Takes s.place ∧ ∃ text, s.Holds o.disk text := by
  rcases h.keeps.held hs with ⟨hplace, hholds⟩
  rw [h.place_eq] at hplace
  refine ⟨?_, hholds⟩
  rw [hplace]
  apply htakes
  rw [mem_sharedFiles]
  rintro name rfl
  simp [stream?] at hs

theorem ensures_taken {f : OutputFile} (h : Tallied options start fs t o l)
    (htakes : TakesShared options start o.disk) (hshared : f ∈ sharedFiles)
    (hopen : o.Ensures f (.error e) o') : e.isWriteFailure = false := by
  rcases hopen with ⟨path, header, hpath, _, hensure⟩
  unfold ensure at hensure
  split at hensure
  . simp at hensure
  . split at hensure
    . simp at hensure
    . next hcreate =>
      rw [Except.error.inj (Prod.mk.inj hensure).1] at hcreate
      apply Stream.create_taken _ hcreate
      rw [h.placeOf_eq hpath]
      exact htakes f hshared

theorem glue_taken {text : String} (h : Tallied options start fs t o l)
    (hapart : Set.InjOn (options.place start) fs)
    (hfs : (options.path? .glue).isSome → .glue ∈ fs) (htakes : TakesShared options start o.disk)
    (happend : o.appendGlue text = (.error e, o')) : e.isWriteFailure = false := by
  have hshared : .glue ∈ sharedFiles := by simp [sharedFiles]
  have hsteps := appendGlue_steps o text
  rw [happend] at hsteps
  cases hsteps with
  | refused he => rcases he with rfl | rfl <;> rfl
  | unopened hopen => exact h.ensures_taken htakes hshared hopen
  | added s₁ o₁ hopen hadd =>
    have hbegun := (h.begun hapart hshared hfs hopen).2
    rcases hbegun.held_taken (f := .glue) (htakes.begun hopen) rfl with ⟨htakes₁, _, hs₁⟩
    have hok : (add s₁ o₁.disk text).1 = .ok () := add_taken htakes₁ hs₁ text
    simp [hadd] at hok

-- The second stream is not touched while bytes are added to the first.
theorem adds_taken {c c' cs : Stream} {d' : Disk} {r : Except OutputError Unit} {p : Binding.Probe}
    (h : Tallied options start fs t o l) (hapart : Set.InjOn (options.place start) fs)
    (htakes : TakesShared options start o.disk) (hc : o.stream? .probeC = some c)
    (hcs : o.stream? .probeCs = some cs) (haddC : add c o.disk p.c = (r, c', d'))
    : r = .ok () ∧ (add cs d' p.cs).1 = .ok () := by
  rcases h.held_taken htakes hc with ⟨htakesC, _, hholdsC⟩
  have hr : r = .ok () := by
    have hok := add_taken htakesC hholdsC p.c
    rwa [haddC] at hok
  refine ⟨hr, ?_⟩
  rw [hr] at haddC
  have hadded := add_keeps (f := .probeC) h.keeps (by simp) hc (h.apart hapart h.reached) haddC
  rcases hadded.held (f := .probeCs) hcs with ⟨_, _, hholdsCs⟩
  exact add_taken ((h.held_taken htakes hcs).1.noWorse (add_noWorse haddC)) hholdsCs p.cs

theorem probe_taken {p : Binding.Probe} (h : Tallied options start fs t o l)
    (hapart : Set.InjOn (options.place start) fs)
    (hfs : ∀ f ∈ [OutputFile.probeC, .probeCs], (options.path? f).isSome → f ∈ fs)
    (htakes : TakesShared options start o.disk)
    (happend : o.appendProbe p = (.error e, o')) : e.isWriteFailure = false := by
  have hsharedC : .probeC ∈ sharedFiles := by simp [sharedFiles]
  have hsharedCs : .probeCs ∈ sharedFiles := by simp [sharedFiles]
  have hsteps := appendProbe_steps o p
  rw [happend] at hsteps
  cases hsteps with
  | refused he => rcases he with rfl | rfl <;> rfl
  | unopened hopenC => exact h.ensures_taken htakes hsharedC hopenC
  | halfOpened c o₁ hopenC hopenCs =>
    have hbegun := (h.begun hapart hsharedC (hfs _ (by simp)) hopenC).2
    exact hbegun.ensures_taken (htakes.begun hopenC) hsharedCs hopenCs
  | halfAdded c cs o₁ o₂ hopenC hopenCs haddC =>
    have hbegun := (h.begun hapart hsharedC (hfs _ (by simp)) hopenC).2
    rcases hbegun.begun hapart hsharedCs (hfs _ (by simp)) hopenCs with ⟨hstreams, hbegun₂⟩
    have htakes₂ := (htakes.begun hopenC).begun hopenCs
    have hadded := hbegun₂.adds_taken hapart htakes₂ (hstreams .probeC) rfl haddC
    simp at hadded
  | added c cs o₁ o₂ hopenC hopenCs haddC haddCs =>
    have hbegun := (h.begun hapart hsharedC (hfs _ (by simp)) hopenC).2
    rcases hbegun.begun hapart hsharedCs (hfs _ (by simp)) hopenCs with ⟨hstreams, hbegun₂⟩
    have htakes₂ := (htakes.begun hopenC).begun hopenCs
    have hadded := (hbegun₂.adds_taken hapart htakes₂ (hstreams .probeC) rfl haddC).2
    simp [haddCs] at hadded

theorem close_taken (h : Tallied options start fs t o l)
    (hapart : Set.InjOn (options.place start) fs) (htakes : TakesShared options start o.disk)
    (hclose : o.close = (.error e, o')) : False := by
  have hnone : (finishAll o.disk o.finishing).1 = none := by
    apply finishAll_taken
    . intro s footer hmem
      rcases mem_finishing.1 hmem with ⟨f, hs, _⟩
      exact h.held_taken htakes hs
    . exact h.keeps.finishing_apart (h.apart hapart h.reached)
  rw [close_of_unclosed h.keeps.unclosed, hnone] at hclose
  simp at hclose

end Tallied

namespace Followed

variable {cs : List OutputCall}

theorem answer_taken (h : Followed options start fs t o)
    (hapart : Set.InjOn (options.place start) fs)
    (hfs : ∀ f ∈ c.files, (options.path? f).isSome → f ∈ fs)
    (htakes : TakesShared options start o.disk)
    : Transcript.hindered (c, (o.answer c).1) = false := by
  generalize hanswer : o.answer c = result
  rcases result with ⟨e | u, o'⟩
  . rcases h with ⟨l, h⟩ | ⟨files, h⟩
    . cases c with
      | managed name source => rfl
      | glue text => exact h.glue_taken hapart (hfs .glue (List.mem_singleton.2 rfl)) htakes hanswer
      | probe p => exact h.probe_taken hapart hfs htakes hanswer
      | close => exact (h.close_taken hapart htakes hanswer).elim
    . have hsealed := sealed_of_closed h.closed
      cases c with
      | managed name source => rfl
      | glue text =>
        rw [Outputs.answer, hsealed.glue] at hanswer
        rw [← Except.error.inj (Prod.mk.inj hanswer).1]
        rfl
      | probe p =>
        rw [Outputs.answer, hsealed.probe] at hanswer
        rw [← Except.error.inj (Prod.mk.inj hanswer).1]
        rfl
      | close =>
        rw [Outputs.answer, hsealed.close] at hanswer
        simp at hanswer
  . cases c <;> rfl

theorem session_taken (h : Followed options start fs t o)
    (hapart : Set.InjOn (options.place start) fs)
    (hfs : ∀ c ∈ cs, ∀ f ∈ c.files, (options.path? f).isSome → f ∈ fs)
    (htakes : TakesShared options start o.disk) : (o.session cs).1.Unhindered := by
  induction cs generalizing t o with
  | nil =>
    intro x hx
    simp [Outputs.session] at hx
  | cons c cs ih =>
    rw [List.forall_mem_cons] at hfs
    have hfree := h.answer_taken hapart hfs.1 htakes
    have hrest := ih (h.answer hapart hfs.1 hfree) hfs.2 (htakes.noWorse (answer_noWorse o c))
    rw [session_cons, Transcript.Unhindered, List.forall_mem_cons]
    exact ⟨hfree, hrest⟩

end Followed

end Outputs

end Interop
