import Interop.Proofs.Outputs.Accepting

/-!
This module contains what a session leaves on the disk when its outputs are closed at its end,
whatever was refused on the way.
-/

namespace Interop

open Disk

/--
The files that a session may open: those of its managed sources and the shared ones with a path.
-/
def OutputOptions.openable (options : OutputOptions) (calls : List OutputCall) : Set OutputFile :=
  {f | (options.path? f).isSome
    ∧ ∀ name, f = .managed name → ∃ source, .managed name source ∈ calls}

theorem OutputOptions.mem_openable {options : OutputOptions} {calls : List OutputCall}
    {c : OutputCall} {f : OutputFile} (hc : c ∈ calls) (hf : f ∈ c.files)
    (hpath : (options.path? f).isSome) : f ∈ options.openable calls := by
  refine ⟨hpath, ?_⟩
  rintro name rfl
  cases c with
  | managed name' source =>
    rw [show name = name' by simpa [OutputCall.files] using hf]
    exact ⟨source, hc⟩
  | glue text | probe p | close => simp [OutputCall.files] at hf

namespace Outputs

variable {options : OutputOptions} {d : Disk} {fs : Set OutputFile} {t : Transcript}
  {o : Outputs}

namespace Finished

variable {files : List OutputFile} {f : OutputFile} {path : Path}

theorem mem_written_iff (h : Finished options d fs t o files)
    (hapart : Set.InjOn (options.place d) fs) (hf : f ∈ fs) (hpath : options.path? f = some path)
    : path ∈ o.written ↔ f ∈ files := by
  have hsome : path ∈ o.written ↔ some path ∈ files.map options.path? := by
    rw [← h.written]
    simp
  rw [hsome, List.mem_map]
  constructor
  . rintro ⟨g, hg, hsame⟩
    have hplace : options.place d g = options.place d f := by
      unfold OutputOptions.place
      rw [hsame, hpath]
    rwa [← hapart (h.reached g hg) hf hplace]
  . exact fun hmem => ⟨f, hmem, hpath⟩

theorem entry?_shared (h : Finished options d fs t o files) (hf : f ∈ files)
    (hshared : f ∈ sharedFiles)
    : o.disk.entry? (options.place d f)
        = some (.file (options.header f ++ t.received f ++ bytesOf f.footer)) := by
  apply (h.contains f hf).file
  have hheader : options.header f ≠ [] := OutputOptions.header_ne_nil (mem_sharedFiles.1 hshared)
  simp [hheader]

theorem entry?_unopened (h : Finished options d fs t o files)
    (hapart : Set.InjOn (options.place d) fs) (hf : f ∈ fs) (hshared : f ∈ sharedFiles)
    (hunopened : f ∉ files)
    : o.disk.entry? (options.place d f) = d.entry? (options.place d f)
        ∨ d.entry? (options.place d f) = none
          ∧ o.disk.entry? (options.place d f) = some .directory := by
  apply h.changed.frame
  rintro ⟨g, hg, hopened, hplace⟩
  have hsame : f = g := hapart hf hg hplace
  rw [← hsame] at hopened
  exact hunopened (hopened hshared)

theorem contains_managed {name source : String} (h : Finished options d fs t o files)
    (hok : (.managed name source, .ok ()) ∈ t)
    (hreceived : t.received (.managed name) = bytesOf source)
    : o.disk.Contains (options.place d (.managed name)) (bytesOf source) := by
  have hf : .managed name ∈ files := h.served _ hok _ (List.mem_singleton.2 rfl)
  have hcontains := h.contains _ hf
  rw [hreceived] at hcontains
  simpa [OutputOptions.header, OutputFile.footer, bytesOf] using hcontains

end Finished

/--
What a session with the transcript `t` that began on the disk `d` has made of it at its end.
-/
structure Settled (options : OutputOptions) (d : Disk) (t : Transcript) (o : Outputs) : Prop where
  /-- A shared file that was opened holds its header, what it received, and its footer. -/
  shared : ∀ f ∈ sharedFiles, ∀ path, options.path? f = some path → path ∈ o.written →
    o.disk.entry? (options.place d f)
      = some (.file (options.header f ++ t.received f ++ bytesOf f.footer))
  /-- Where a shared file was not opened there is what was there before, or a directory is new. -/
  unopened : ∀ f ∈ sharedFiles, ∀ path, options.path? f = some path → path ∉ o.written →
    o.disk.entry? (options.place d f) = d.entry? (options.place d f)
      ∨ d.entry? (options.place d f) = none
        ∧ o.disk.entry? (options.place d f) = some .directory
  /-- A successful call has opened its files. -/
  served : ∀ c, (c, .ok ()) ∈ t → ∀ f ∈ c.files, ∃ path ∈ o.written, options.path? f = some path
  /-- A managed source is kept as it was first written, and the others of its name are refused. -/
  managed : ∀ before after name source, t = before ++ (.managed name source, .ok ()) :: after →
    o.disk.Contains (options.place d (.managed name)) (bytesOf source)
      ∧ ∀ later r, (.managed name later, r) ∈ after → Refused options name r

theorem followed_fresh : Followed options d fs [] (fresh options d) :=
  .inl ⟨[], Tallied.initial⟩

theorem session_finished {calls : List OutputCall}
    (hapart : Set.InjOn (options.place d) (options.openable calls)) (hclose : .close ∈ calls)
    (hfree : ((fresh options d).session calls).1.Unhindered)
    : ∃ files, Finished options d (options.openable calls) ((fresh options d).session calls).1
        ((fresh options d).session calls).2 files := by
  have hfollowed := followed_fresh.session hapart
    (fun c hc f hf hpath => OutputOptions.mem_openable hc hf hpath) hfree
  rw [List.nil_append] at hfollowed
  rcases hfollowed with ⟨l, h⟩ | hfinished
  . have hclosed : ((fresh options d).session calls).2.closed = true := session_closed hclose
    rw [h.keeps.unclosed] at hclosed
    simp at hclosed
  . exact hfinished

theorem settled_of_unhindered {calls : List OutputCall}
    (hapart : Set.InjOn (options.place d) (options.openable calls)) (hclose : .close ∈ calls)
    (hfree : ((fresh options d).session calls).1.Unhindered)
    : Settled options d ((fresh options d).session calls).1
        ((fresh options d).session calls).2 := by
  rcases session_finished hapart hclose hfree with ⟨files, h⟩
  have hshared {f : OutputFile} {path : Path} (hf : f ∈ sharedFiles)
      (hpath : options.path? f = some path) : f ∈ options.openable calls :=
    ⟨Option.isSome_of_mem hpath, fun name hname => absurd hname (mem_sharedFiles.1 hf name)⟩
  refine ⟨?_, ?_, ?_, ?_⟩
  . intro f hf path hpath hopened
    rw [h.mem_written_iff hapart (hshared hf hpath) hpath] at hopened
    exact h.entry?_shared hopened hf
  . intro f hf path hpath hunopened
    rw [h.mem_written_iff hapart (hshared hf hpath) hpath] at hunopened
    exact h.entry?_unopened hapart (hshared hf hpath) hf hunopened
  . intro c hok f hf
    have hopened := h.served c hok f hf
    have hfs := h.reached f hopened
    rcases Option.isSome_iff_exists.1 hfs.1 with ⟨path, hpath⟩
    exact ⟨path, (h.mem_written_iff hapart hfs hpath).2 hopened, hpath⟩
  . intro before after name source ht
    refine ⟨h.contains_managed ?_ (session_received_managed ht), ?_⟩
    . simp [ht]
    . exact fun later r hlater => session_later_refused ht hlater

/--
A session that is closed at its end, by a last call or when its outputs are given up. Creating files
may be refused at any call. On a disk that takes what is written to the shared files no stream is
hindered, and if none is hindered every file is settled. Once closed, outputs stay as they are but
for managed sources.
-/
theorem session_settled {calls : List OutputCall}
    (hapart : Set.InjOn (options.place d) (options.openable calls))
    : (TakesShared options d d → ((fresh options d).session (calls ++ [.close])).1.Unhindered)
      ∧ (((fresh options d).session (calls ++ [.close])).1.Unhindered →
          Settled options d ((fresh options d).session (calls ++ [.close])).1
            ((fresh options d).session (calls ++ [.close])).2)
      ∧ ∀ before, before <+: calls ++ [.close] → .close ∈ before →
          ((fresh options d).session before).2.Sealed := by
  have hopenable : options.openable (calls ++ [.close]) = options.openable calls := by
    unfold OutputOptions.openable
    simp
  rw [← hopenable] at hapart
  refine ⟨?_, settled_of_unhindered hapart (by simp), ?_⟩
  . exact followed_fresh.session_taken hapart
      fun c hc f hf hpath => OutputOptions.mem_openable hc hf hpath
  . exact fun before _ hmem => sealed_of_closed (session_closed hmem)

/--
A disk on which the second file cannot be created.
-/
def grudgingDisk : Disk :=
  { Disk.blank with refusedCreations := [false, true] }

def retryOptions : OutputOptions where
  dir? := some ⟨"out"⟩
  glueFile? := some ⟨"glue.c"⟩
  probeCFile? := some ⟨"abi.c"⟩
  probeCsFile? := some ⟨"abi.cs"⟩

/--
The first probe opens one of its files only. The glue file is never opened.
-/
def retryCalls : List OutputCall :=
  [.probe ⟨"a", "b"⟩, .managed "Widget" "first", .probe ⟨"c", "d"⟩, .managed "Widget" "second",
   .close, .glue "late"]

theorem retry_apart : Set.InjOn (retryOptions.place grudgingDisk)
    (retryOptions.openable retryCalls) := by
  have hopenable : ∀ f ∈ retryOptions.openable retryCalls,
      f ∈ [.managed "Widget", .glue, .probeC, .probeCs] := by
    intro f hf
    cases f with
    | managed name =>
      rcases hf.2 name rfl with ⟨source, hmem⟩
      simp [retryCalls] at hmem
      rcases hmem with ⟨rfl, _⟩ | ⟨rfl, _⟩ <;> simp
    | glue | probeC | probeCs => simp
  have hplaces : ∀ f ∈ [OutputFile.managed "Widget", .glue, .probeC, .probeCs],
      ∀ g ∈ [OutputFile.managed "Widget", .glue, .probeC, .probeCs],
        retryOptions.place grudgingDisk f = retryOptions.place grudgingDisk g → f = g := by
    decide +kernel
  exact fun f hf g hg => hplaces f (hopenable f hf) g (hopenable g hg)

theorem takesShared_retry : TakesShared retryOptions grudgingDisk grudgingDisk := by
  have hshared : true ∉ grudgingDisk.refusedWrites ∧ ∀ f ∈ sharedFiles,
      grudgingDisk.entry? (retryOptions.place grudgingDisk f) ≠ some .fullDevice := by
    decide +kernel
  exact fun f hf => ⟨hshared.1, hshared.2 f hf⟩

theorem session_settled_retry
    : Set.InjOn (retryOptions.place grudgingDisk) (retryOptions.openable retryCalls)
      ∧ TakesShared retryOptions grudgingDisk grudgingDisk
      ∧ ((fresh retryOptions grudgingDisk).session (retryCalls ++ [.close])).1.map (·.2)
          = [.error (.create ⟨"abi.cs"⟩), .ok (), .ok (), .error (.taken ⟨"out/Widget.cs"⟩), .ok (),
             .error .closed, .ok ()]
      ∧ Settled retryOptions grudgingDisk
          ((fresh retryOptions grudgingDisk).session (retryCalls ++ [.close])).1
          ((fresh retryOptions grudgingDisk).session (retryCalls ++ [.close])).2 := by
  rcases session_settled retry_apart with ⟨hunhindered, hsettled, _⟩
  exact ⟨retry_apart, takesShared_retry, by decide +kernel,
    hsettled (hunhindered takesShared_retry)⟩

end Outputs

end Interop
