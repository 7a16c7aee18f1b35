import Interop.Proofs.Outputs.Session

/-!
This module contains what holds of outputs throughout a session, whatever is refused. Until they are
closed a ledger tells what every opened file will hold; afterwards the files hold it.
-/

namespace Interop

open Disk

theorem OutputOptions.place_congr {options : OutputOptions} {d d' : Disk}
    (h : d'.working = d.working) : options.place d' = options.place d := by
  funext f
  unfold place
  congr 1
  funext p
  unfold placeOf Disk.start
  rw [h]

namespace Ledger

/--
Every file of the ledger holds its header and what is said to be received.
-/
def Tells (l : Ledger) (options : OutputOptions) (received : OutputFile → Bytes) : Prop :=
  ∀ f text, (f, text) ∈ l → text = options.header f ++ received f

variable {l : Ledger} {options : OutputOptions} {received : OutputFile → Bytes} {f : OutputFile}

theorem Tells.begin (h : l.Tells options received) (hf : f ∉ l.files → received f = [])
    : (l.begin f (options.header f)).Tells options received := by
  unfold Ledger.begin
  split
  . exact h
  . next hnew =>
    intro g text hg
    rcases List.mem_append.1 hg with hg | hg
    . exact h g text hg
    . rcases Prod.mk.inj (List.mem_singleton.1 hg) with ⟨rfl, rfl⟩
      rw [hf hnew, List.append_nil]

theorem Tells.append (h : l.Tells options received) (hnew : f ∉ l.files) (hnone : received f = [])
    (text : Bytes)
    : Tells (l ++ [(f, options.header f ++ text)]) options
        fun g => received g ++ if g = f then text else [] := by
  intro g old hg
  rcases List.mem_append.1 hg with hg | hg
  . have hne : g ≠ f := by
      intro heq
      rw [heq] at hg
      exact hnew (mem_files hg)
    simpa [hne] using h g old hg
  . rcases Prod.mk.inj (List.mem_singleton.1 hg) with ⟨rfl, rfl⟩
    simp [hnone]

theorem Tells.extend (h : l.Tells options received) (more : Bytes)
    : (l.extend f more).Tells options fun g => received g ++ if g = f then more else [] := by
  intro g text hg
  rcases List.mem_map.1 hg with ⟨⟨g', old⟩, hold, heq⟩
  rcases Prod.mk.inj heq with ⟨rfl, rfl⟩
  rw [h g' old hold]
  by_cases hg : g' = f <;> simp [hg]

end Ledger

namespace Outputs

variable {options : OutputOptions} {d : Disk} {fs : Set OutputFile} {t : Transcript}
  {o o' : Outputs} {l l' : Ledger} {c : OutputCall} {e : OutputError}

theorem Keeps.rebase {start : Disk} (hk : o.Keeps start l) : o.Keeps o.disk l := by
  have hplace : o.options.place o.disk = o.options.place start :=
    OutputOptions.place_congr hk.changed.working
  refine ⟨hk.unclosed, hk.nodup, hk.written, .refl, ?_, hk.opened⟩
  intro f text hmem
  have hshows := hk.shows f text hmem
  unfold Shows at hshows ⊢
  rwa [hplace]

theorem Moved.keeps {places : Set Place} (hm : Moved places o o') (hk : o.Keeps o.disk l)
    (hplaces : ∀ f ∈ l.files, o.options.place o.disk f ∉ places) : o'.Keeps o'.disk l := by
  have hplace : o.options.place o'.disk = o.options.place o.disk :=
    OutputOptions.place_congr hm.changed.working
  refine ⟨hm.closed.trans hk.unclosed, hk.nodup, ?_, .refl, ?_, ?_⟩
  . rw [hm.written, hm.options]
    exact hk.written
  . intro f text hmem
    have hshows := (hk.shows f text hmem).frame hm.options (hm.stream? f) hm.changed
      (hplaces f (Ledger.mem_files hmem))
    unfold Shows at hshows ⊢
    rw [hm.options] at hshows ⊢
    rwa [hplace]
  . intro f s hs
    rw [hm.stream?] at hs
    exact hk.opened f s hs

/--
The places of files that a session may have changed: those of managed sources, and those of the
shared files that were opened.
-/
def touched (options : OutputOptions) (d : Disk) (fs : Set OutputFile) (files : List OutputFile) :
    Set Place :=
  {q | ∃ f ∈ fs, (f ∈ sharedFiles → f ∈ files) ∧ q = options.place d f}

/--
What holds of a session before and after its outputs are closed, if `files` were opened.
-/
structure Tracked (options : OutputOptions) (d : Disk) (fs : Set OutputFile) (t : Transcript)
    (o : Outputs) (files : List OutputFile) : Prop where
  given : o.options = options
  reached : ∀ f ∈ files, f ∈ fs
  served : ∀ c, (c, .ok ()) ∈ t → ∀ f ∈ c.files, f ∈ files
  changed : ChangedAt (touched options d fs files) d o.disk

/--
The outputs are not closed, and keep a ledger that tells what every file received.
-/
structure Tallied (options : OutputOptions) (d : Disk) (fs : Set OutputFile) (t : Transcript)
    (o : Outputs) (l : Ledger) : Prop extends Tracked options d fs t o l.files where
  keeps : o.Keeps o.disk l
  tells : l.Tells options t.received

/--
The outputs are closed, and every file that was opened is complete.
-/
structure Finished (options : OutputOptions) (d : Disk) (fs : Set OutputFile) (t : Transcript)
    (o : Outputs) (files : List OutputFile) : Prop extends Tracked options d fs t o files where
  closed : o.closed = true
  written : o.written.map some = files.map options.path?
  contains : ∀ f ∈ files,
    o.disk.Contains (options.place d f)
      (options.header f ++ t.received f ++ bytesOf f.footer)

theorem touched_mono {files files' : List OutputFile} (h : files ⊆ files')
    : touched options d fs files ⊆ touched options d fs files' := by
  rintro q ⟨f, hf, hopened, hq⟩
  exact ⟨f, hf, fun hshared => h (hopened hshared), hq⟩

namespace Tracked

variable {files : List OutputFile}

theorem place_eq (h : Tracked options d fs t o files)
    : o.options.place o.disk = options.place d := by
  rw [h.given]
  exact OutputOptions.place_congr h.changed.working

theorem received_eq_nil {f : OutputFile} (h : Tracked options d fs t o files) (hf : f ∉ files)
    : t.received f = [] := by
  apply Transcript.received_eq_nil
  intro c hmem hc
  exact hf (h.served c hmem f hc)

theorem advance {t' : Transcript} {files' : List OutputFile} (h : Tracked options d fs t o files)
    (ho : o'.options = o.options) (hreached : ∀ f ∈ files', f ∈ fs) (hsub : files ⊆ files')
    (hserved : ∀ c, (c, .ok ()) ∈ t' → ∀ f ∈ c.files, f ∈ files')
    (hchanged : ChangedAt (touched options d fs files') o.disk o'.disk)
    : Tracked options d fs t' o' files' :=
  ⟨ho.trans h.given, hreached, hserved, (h.changed.mono (touched_mono hsub)).trans hchanged⟩

theorem served_concat {files' : List OutputFile} {r : Except OutputError Unit}
    (h : Tracked options d fs t o files) (hsub : files ⊆ files')
    (hserved : r = .ok () → ∀ f ∈ c.files, f ∈ files')
    : ∀ c', (c', .ok ()) ∈ t ++ [(c, r)] → ∀ f ∈ c'.files, f ∈ files' := by
  intro c' hmem f hf
  rcases List.mem_append.1 hmem with hmem | hmem
  . exact hsub (h.served c' hmem f hf)
  . rcases Prod.mk.inj (List.mem_singleton.1 hmem) with ⟨rfl, hr⟩
    exact hserved hr.symm f hf

theorem apart (h : Tracked options d fs t o files) (hapart : Set.InjOn (options.place d) fs)
    {gs : Set OutputFile} (hgs : ∀ g ∈ gs, g ∈ fs) : Set.InjOn (o.options.place o.disk) gs := by
  rw [h.place_eq]
  exact hapart.mono hgs

theorem apart_with {f : OutputFile} (h : Tracked options d fs t o files)
    (hapart : Set.InjOn (options.place d) fs) (hf : f ∈ fs)
    : Set.InjOn (o.options.place o.disk) {g | g ∈ files ∨ g = f} := by
  apply h.apart hapart
  rintro g (hg | rfl)
  . exact h.reached g hg
  . exact hf

theorem mem_of_path {f : OutputFile} {path : Path} (h : Tracked options d fs t o files)
    (hfs : (options.path? f).isSome → f ∈ fs) (hpath : o.options.path? f = some path) : f ∈ fs := by
  apply hfs
  rw [← h.given]
  exact Option.isSome_of_mem hpath

theorem placeOf_managedPath {name : String} (h : Tracked options d fs t o files)
    : o.disk.placeOf (o.managedPath name) = options.place d (.managed name) := by
  rw [← h.place_eq]
  rfl

theorem managedPath_mem {name : String} (h : Tracked options d fs t o files)
    (hwritten : o.written.map some = files.map options.path?) (hmem : .managed name ∈ files)
    : o.managedPath name ∈ o.written := by
  have hsome : some (o.managedPath name) ∈ o.written.map some := by
    rw [hwritten, ← h.given]
    exact List.mem_map_of_mem hmem
  simpa using hsome

theorem unwritten_subset {name : String} (h : Tracked options d fs t o files)
    (hname : .managed name ∈ fs) : o.unwritten name ⊆ touched options d fs files := by
  rintro q ⟨_, hq⟩
  refine ⟨.managed name, hname, ?_, ?_⟩
  . intro hshared
    exact absurd rfl (mem_sharedFiles.1 hshared name)
  . rw [hq, h.placeOf_managedPath]

-- What lies there is the managed source itself, as other files lie elsewhere.
theorem not_mem_unwritten {name : String} (h : Tracked options d fs t o files)
    (hapart : Set.InjOn (options.place d) fs) (hname : .managed name ∈ fs)
    (hwritten : o.written.map some = files.map options.path?)
    : ∀ f ∈ files, options.place d f ∉ o.unwritten name := by
  rintro f hf ⟨hnew, hplace⟩
  rw [h.placeOf_managedPath] at hplace
  rw [hapart (h.reached f hf) hname hplace] at hf
  exact hnew (h.managedPath_mem hwritten hf)

end Tracked

namespace Tallied

theorem initial : Tallied options d fs [] (fresh options d) [] where
  given := rfl
  reached := by simp [Ledger.files]
  served := by simp
  changed := .refl
  keeps := keeps_initial options d
  tells := by simp [Ledger.Tells]

theorem written (h : Tallied options d fs t o l)
    : o.written.map some = l.files.map options.path? := by
  rw [h.keeps.written, h.given]

theorem advance {t' : Transcript} (h : Tallied options d fs t o l) (ho : o'.options = o.options)
    (hk : o'.Keeps o.disk l') (hreached : ∀ f ∈ l'.files, f ∈ fs) (hsub : l.files ⊆ l'.files)
    (hserved : ∀ c, (c, .ok ()) ∈ t' → ∀ f ∈ c.files, f ∈ l'.files)
    (htells : l'.Tells options t'.received) : Tallied options d fs t' o' l' := by
  refine ⟨h.toTracked.advance ho hreached hsub hserved (hk.changed.mono ?_), hk.rebase, htells⟩
  rintro q ⟨f, hf, hq⟩
  rw [ho, h.place_eq] at hq
  exact ⟨f, hreached f hf, fun _ => hf, hq⟩

theorem moved {places : Set Place} (h : Tallied options d fs t o l) (hm : Moved places o o')
    (hsub : places ⊆ touched options d fs l.files)
    (hplaces : ∀ f ∈ l.files, options.place d f ∉ places) : Tallied options d fs t o' l := by
  refine ⟨h.toTracked.advance hm.options h.reached (List.Subset.refl _) h.served
    (hm.changed.mono hsub), hm.keeps h.keeps ?_, h.tells⟩
  rw [h.place_eq]
  exact hplaces

theorem moved_empty (h : Tallied options d fs t o l) (hm : Moved ∅ o o')
    : Tallied options d fs t o' l :=
  h.moved hm (Set.empty_subset _) (by simp)

theorem refused (h : Tallied options d fs t o l)
    : Tallied options d fs (t ++ [(c, .error e)]) o l := by
  refine ⟨⟨h.given, h.reached, ?_, h.changed⟩, h.keeps, ?_⟩
  . exact h.served_concat (List.Subset.refl _) (by simp)
  . rw [Transcript.received_concat_error]
    exact h.tells

theorem accepted (h : Tallied options d fs t o l) (ho : o'.options = o.options)
    (hk : o'.Keeps o.disk l') (hfs : ∀ f ∈ c.files, f ∈ fs)
    (hfiles : ∀ f, f ∈ l'.files ↔ f ∈ l.files ∨ f ∈ c.files)
    (htells : l'.Tells options fun f => t.received f ++ c.text f)
    : Tallied options d fs (t ++ [(c, .ok ())]) o' l' := by
  have hsub : l.files ⊆ l'.files := fun f hf => (hfiles f).2 (.inl hf)
  refine h.advance ho hk ?_ hsub ?_ ?_
  . intro f hf
    rcases (hfiles f).1 hf with hf | hf
    . exact h.reached f hf
    . exact hfs f hf
  . exact h.served_concat hsub fun _ f hf => (hfiles f).2 (.inr hf)
  . rw [Transcript.received_concat_ok]
    exact htells

theorem managed {name source : String} (h : Tallied options d fs t o l)
    (hapart : Set.InjOn (options.place d) fs) (hname : .managed name ∈ fs)
    : ∃ l', Tallied options d fs
        (t ++ [(.managed name source, (o.answer (.managed name source)).1)])
        (o.answer (.managed name source)).2 l' := by
  simp only [answer]
  generalize hwrite : o.writeManaged name source = result
  rcases result with ⟨e | path, o'⟩
  . have hmoved := h.moved (writeManaged_error hwrite) (h.unwritten_subset hname)
      (h.not_mem_unwritten hapart hname h.written)
    exact ⟨l, hmoved.refused⟩
  . have hnew : .managed name ∉ l.files :=
      fun hmem => (writeManaged_ok hwrite).1 (h.keeps.path_mem hmem rfl)
    rcases writeManaged_keeps h.keeps (h.apart_with hapart hname) hwrite with ⟨hoptions, hk⟩
    refine ⟨_, h.accepted hoptions hk ?_ ?_ ?_⟩
    . simpa [OutputCall.files] using hname
    . simp [Ledger.files_append, OutputCall.files]
    . exact h.tells.append hnew (h.received_eq_nil hnew) (bytesOf source)

theorem glue {text : String} (h : Tallied options d fs t o l)
    (hapart : Set.InjOn (options.place d) fs) (hfs : (options.path? .glue).isSome → .glue ∈ fs)
    (hfree : Transcript.hindered (.glue text, (o.answer (.glue text)).1) = false)
    : ∃ l', Tallied options d fs (t ++ [(.glue text, (o.answer (.glue text)).1)])
        (o.answer (.glue text)).2 l' := by
  simp only [answer] at hfree ⊢
  generalize happend : o.appendGlue text = result at hfree ⊢
  rcases result with ⟨e | u, o'⟩
  . exact ⟨l, (h.moved_empty (appendGlue_error happend hfree)).refused⟩
  . rcases appendGlue_configured happend with ⟨path, hpath⟩
    have hglue := h.mem_of_path hfs hpath
    rcases appendGlue_keeps h.keeps (h.apart_with hapart hglue) happend with ⟨hoptions, hk⟩
    rw [h.given] at hk
    refine ⟨_, h.accepted hoptions hk ?_ ?_ ?_⟩
    . simpa [OutputCall.files] using hglue
    . simp [Ledger.files_extend, Ledger.mem_files_begin, OutputCall.files]
    . exact (h.tells.begin h.received_eq_nil).extend (bytesOf text)

theorem begun {f : OutputFile} {s : Stream} (h : Tallied options d fs t o l)
    (hapart : Set.InjOn (options.place d) fs) (hshared : f ∈ sharedFiles)
    (hfs : (options.path? f).isSome → f ∈ fs) (hopen : o.Ensures f (.ok s) o')
    : (∀ g, o'.stream? g = o.stream? g)
      ∧ Tallied options d fs t (o'.withStream f s) (l.begin f (options.header f)) := by
  rcases hopen.configured with ⟨path, hpath⟩
  have hf := h.mem_of_path hfs hpath
  have hsub : l.files ⊆ (l.begin f (options.header f)).files :=
    fun g hg => Ledger.mem_files_begin.2 (.inl hg)
  rcases hopen.keeps h.keeps (mem_sharedFiles.1 hshared) (h.apart_with hapart hf)
    with ⟨hoptions, hstreams, hk⟩
  rw [h.given] at hk
  refine ⟨hstreams, h.advance (withStream_options.trans hoptions) hk ?_ hsub ?_ ?_⟩
  . intro g hg
    rcases Ledger.mem_files_begin.1 hg with hg | rfl
    . exact h.reached g hg
    . exact hf
  . exact fun c hmem g hg => hsub (h.served c hmem g hg)
  . exact h.tells.begin h.received_eq_nil

-- A probe that got only as far as the native file leaves that file begun, for the next probe.
theorem halfOpened (h : Tallied options d fs t o l) (hapart : Set.InjOn (options.place d) fs)
    (hfs : (options.path? .probeC).isSome → .probeC ∈ fs) (hopened : HalfOpened o o')
    : Tallied options d fs t o' (l.begin .probeC (options.header .probeC)) := by
  rcases hopened with ⟨c, o₁, hopenC, hm⟩
  exact (h.begun hapart (by simp [sharedFiles]) hfs hopenC).2.moved_empty hm

theorem probe {p : Binding.Probe} (h : Tallied options d fs t o l)
    (hapart : Set.InjOn (options.place d) fs)
    (hfs : ∀ f ∈ [OutputFile.probeC, .probeCs], (options.path? f).isSome → f ∈ fs)
    (hfree : Transcript.hindered (.probe p, (o.answer (.probe p)).1) = false)
    : ∃ l', Tallied options d fs (t ++ [(.probe p, (o.answer (.probe p)).1)])
        (o.answer (.probe p)).2 l' := by
  simp only [answer] at hfree ⊢
  generalize happend : o.appendProbe p = result at hfree ⊢
  rcases result with ⟨e | u, o'⟩
  . rcases appendProbe_error happend hfree with hm | hopened
    . exact ⟨l, (h.moved_empty hm).refused⟩
    . exact ⟨_, (h.halfOpened hapart (hfs .probeC (by simp)) hopened).refused⟩
  . have hprobes : ∀ f ∈ [OutputFile.probeC, .probeCs], f ∈ fs := by
      intro f hf
      rcases appendProbe_configured happend f hf with ⟨path, hpath⟩
      exact h.mem_of_path (hfs f hf) hpath
    have hgs : ∀ g ∈ {g | g ∈ l.files ∨ g = .probeC ∨ g = .probeCs}, g ∈ fs := by
      rintro g (hg | hg)
      . exact h.reached g hg
      . exact hprobes g (List.mem_pair.2 hg)
    rcases appendProbe_keeps h.keeps (h.apart hapart hgs) happend with ⟨hoptions, hk⟩
    rw [h.given] at hk
    refine ⟨_, h.accepted hoptions hk hprobes ?_ ?_⟩
    . simp [Ledger.files_extend, Ledger.mem_files_begin, OutputCall.files, or_assoc]
    . have hbegunC := h.tells.begin (f := .probeC) h.received_eq_nil
      have hbegunCs := hbegunC.begin (f := .probeCs) fun hf => h.received_eq_nil fun hmem =>
        hf (Ledger.mem_files_begin.2 (.inl hmem))
      have hextended := (hbegunCs.extend (f := .probeC) (bytesOf p.c)).extend (f := .probeCs)
        (bytesOf p.cs)
      simpa only [OutputCall.text, List.append_assoc] using hextended

theorem close (h : Tallied options d fs t o l) (hapart : Set.InjOn (options.place d) fs)
    (hfree : Transcript.hindered (.close, (o.answer .close).1) = false)
    : Finished options d fs (t ++ [(.close, (o.answer .close).1)]) (o.answer .close).2 l.files := by
  simp only [answer] at hfree ⊢
  have honward : Onward o o.close.2 := close_onward
  have hclosed : o.close.2.closed = true := close_closed
  have hwritten : o.close.2.written = o.written := close_written
  generalize hclose : o.close = result at hfree honward hclosed hwritten ⊢
  rcases result with ⟨e | u, o'⟩
  . have hfree : e.isWriteFailure = false := hfree
    simp [close_error hclose] at hfree
  . have hfs : ∀ g ∈ {g | g ∈ l.files}, g ∈ fs := h.reached
    rcases close_keeps h.keeps (h.apart hapart hfs) hclose with ⟨hchanged, hcontains⟩
    rw [h.place_eq] at hchanged hcontains
    have hsub : l.files ⊆ l.files := List.Subset.refl _
    refine ⟨h.toTracked.advance honward.options h.reached hsub ?_ ?_, hclosed, ?_, ?_⟩
    . exact h.served_concat hsub (by simp [OutputCall.files])
    . apply hchanged.mono
      rintro q ⟨f, hf, hq⟩
      exact ⟨f, h.reached f hf, fun _ => hf, hq⟩
    . exact (congrArg _ hwritten).trans h.written
    . intro f hf
      rcases List.mem_map.1 hf with ⟨⟨g, text⟩, hmem, rfl⟩
      have htext := hcontains g text hmem
      rw [h.tells g text hmem] at htext
      have hreceived : Transcript.received (t ++ [(.close, .ok u)]) = fun f => t.received f ++ [] :=
        Transcript.received_concat_ok
      simpa [hreceived] using htext

end Tallied

namespace Finished

variable {files : List OutputFile}

theorem refused (h : Finished options d fs t o files)
    : Finished options d fs (t ++ [(c, .error e)]) o files := by
  refine ⟨⟨h.given, h.reached, ?_, h.changed⟩, h.closed, h.written, ?_⟩
  . exact h.served_concat (List.Subset.refl _) (by simp)
  . rw [Transcript.received_concat_error]
    exact h.contains

theorem closeAgain (h : Finished options d fs t o files)
    : Finished options d fs (t ++ [(.close, .ok ())]) o files := by
  refine ⟨⟨h.given, h.reached, ?_, h.changed⟩, h.closed, h.written, ?_⟩
  . exact h.served_concat (List.Subset.refl _) (by simp [OutputCall.files])
  . simpa [Transcript.received_concat_ok, OutputCall.text] using h.contains

theorem moved {places : Set Place} (h : Finished options d fs t o files) (hm : Moved places o o')
    (hsub : places ⊆ touched options d fs files)
    (hplaces : ∀ f ∈ files, options.place d f ∉ places) : Finished options d fs t o' files := by
  refine ⟨h.toTracked.advance hm.options h.reached (List.Subset.refl _) h.served
    (hm.changed.mono hsub), hm.closed.trans h.closed, ?_, ?_⟩
  . rw [hm.written]
    exact h.written
  . exact fun f hf => (h.contains f hf).changedAt hm.changed (hplaces f hf)

-- That the outputs are closed does not matter to a managed source, which is written at once.
theorem written_managed {name source : String} {path : Path} (h : Finished options d fs t o files)
    (hapart : Set.InjOn (options.place d) fs) (hname : .managed name ∈ fs)
    (hwrite : o.writeManaged name source = (.ok path, o'))
    : Finished options d fs (t ++ [(.managed name source, .ok ())]) o'
        (files ++ [.managed name]) := by
  rcases writeManaged_ok hwrite with ⟨hnew, ho, hchanged, hcontains⟩
  rw [h.placeOf_managedPath] at hchanged hcontains
  have hnew : .managed name ∉ files := fun hmem => hnew (h.managedPath_mem h.written hmem)
  have hsub : files ⊆ files ++ [.managed name] := List.subset_append_left _ _
  have hunclosed : o'.closed = o.closed := by rw [ho]
  have hwritten : o'.written = o.written ++ [o.managedPath name] := by rw [ho]
  refine ⟨h.toTracked.advance (by rw [ho]) ?_ hsub ?_ ?_, hunclosed.trans h.closed, ?_, ?_⟩
  . intro f hf
    rcases List.mem_append.1 hf with hf | hf
    . exact h.reached f hf
    . rw [List.mem_singleton.1 hf]
      exact hname
  . exact h.served_concat hsub fun _ f hf => List.mem_append_right _ hf
  . apply hchanged.mono
    rintro q rfl
    refine ⟨.managed name, hname, ?_, rfl⟩
    exact fun _ => List.mem_append_right _ (List.mem_singleton.2 rfl)
  . rw [hwritten, List.map_append, List.map_append, h.written, ← h.given]
    rfl
  . intro f hf
    rw [Transcript.received_concat_ok]
    rcases List.mem_append.1 hf with hf | hf
    . have hne : f ≠ .managed name := by
        rintro rfl
        exact hnew hf
      have hplace : options.place d f ∉ ({options.place d (.managed name)} : Set Place) :=
        fun hplace => hne (hapart (h.reached f hf) hname hplace)
      simpa [OutputCall.text, hne] using (h.contains f hf).changedAt hchanged hplace
    . have hnone := h.received_eq_nil hnew
      rw [List.mem_singleton.1 hf]
      simpa [hnone, OutputCall.text, OutputOptions.header, OutputFile.footer, bytesOf]
        using hcontains

theorem managed {name source : String} (h : Finished options d fs t o files)
    (hapart : Set.InjOn (options.place d) fs) (hname : .managed name ∈ fs)
    : ∃ files', Finished options d fs
        (t ++ [(.managed name source, (o.answer (.managed name source)).1)])
        (o.answer (.managed name source)).2 files' := by
  simp only [answer]
  generalize hwrite : o.writeManaged name source = result
  rcases result with ⟨e | path, o'⟩
  . have hmoved := h.moved (writeManaged_error hwrite) (h.unwritten_subset hname)
      (h.not_mem_unwritten hapart hname h.written)
    exact ⟨files, hmoved.refused⟩
  . exact ⟨_, h.written_managed hapart hname hwrite⟩

end Finished

/--
The outputs of a session, closed or not, are as its transcript says.
-/
def Followed (options : OutputOptions) (d : Disk) (fs : Set OutputFile) (t : Transcript)
    (o : Outputs) : Prop :=
  (∃ l, Tallied options d fs t o l) ∨ ∃ files, Finished options d fs t o files

namespace Followed

variable {cs : List OutputCall}

theorem answer (h : Followed options d fs t o) (hapart : Set.InjOn (options.place d) fs)
    (hfs : ∀ f ∈ c.files, (options.path? f).isSome → f ∈ fs)
    (hfree : Transcript.hindered (c, (o.answer c).1) = false)
    : Followed options d fs (t ++ [(c, (o.answer c).1)]) (o.answer c).2 := by
  rcases h with ⟨l, h⟩ | ⟨files, h⟩
  . cases c with
    | managed name source => exact .inl (h.managed hapart (hfs _ (List.mem_singleton.2 rfl) rfl))
    | glue text => exact .inl (h.glue hapart (hfs .glue (List.mem_singleton.2 rfl)) hfree)
    | probe p => exact .inl (h.probe hapart hfs hfree)
    | close => exact .inr ⟨_, h.close hapart hfree⟩
  . have hsealed := sealed_of_closed h.closed
    cases c with
    | managed name source => exact .inr (h.managed hapart (hfs _ (List.mem_singleton.2 rfl) rfl))
    | glue text =>
      simp only [Outputs.answer, hsealed.glue]
      exact .inr ⟨files, h.refused⟩
    | probe p =>
      simp only [Outputs.answer, hsealed.probe]
      exact .inr ⟨files, h.refused⟩
    | close =>
      simp only [Outputs.answer, hsealed.close]
      exact .inr ⟨files, h.closeAgain⟩

theorem session (h : Followed options d fs t o) (hapart : Set.InjOn (options.place d) fs)
    (hfs : ∀ c ∈ cs, ∀ f ∈ c.files, (options.path? f).isSome → f ∈ fs)
    (hfree : (o.session cs).1.Unhindered)
    : Followed options d fs (t ++ (o.session cs).1) (o.session cs).2 := by
  induction cs generalizing t o with
  | nil =>
    rw [show (o.session []).1 = [] from rfl, List.append_nil]
    exact h
  | cons c cs ih =>
    rw [session_cons] at hfree ⊢
    rw [Transcript.Unhindered, List.forall_mem_cons] at hfree
    rw [List.forall_mem_cons] at hfs
    have hanswer := h.answer hapart hfs.1 hfree.1
    simpa using ih hanswer hfs.2 hfree.2

end Followed

end Outputs

end Interop
