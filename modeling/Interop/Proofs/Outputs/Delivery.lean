import Interop.Proofs.Outputs.Steps
import Mathlib.Data.Set.Function

/-!
This module contains what a delivery does to outputs that keep a ledger: they keep the ledger with
the artifact entered. This needs that different files of the ledger lie at different places.
-/

namespace Interop

open Disk

namespace Stream

variable {d d' : Disk} {path : Path} {header : String} {s : Stream}

theorem makeParent_ok (h : create.makeParent d path = .ok d') : ChangedAt ∅ d d' := by
  unfold create.makeParent at h
  split at h
  . split at h
    . rw [← Except.ok.inj h]
      exact .refl
    . split at h
      . next hmade =>
        rw [← Except.ok.inj h]
        exact makeDirectories_changedAt hmade
      . simp at h
  . rw [← Except.ok.inj h]
    exact .refl

theorem start_holds {place : Place} (path : Path) (h : d.Contains place [])
    : (start path place).Holds d [] :=
  ⟨[], ⟨rfl, h⟩, rfl⟩

theorem create_ok (h : create d path header = (.ok s, d'))
    : s.path = path ∧ s.place = d.placeOf path ∧ ChangedAt {s.place} d d'
      ∧ s.Holds d' (bytesOf header) := by
  unfold create at h
  split at h
  . simp at h
  . next d₁ hparent =>
    have hparent := makeParent_ok hparent
    split at h
    . simp at h
    . next place d₂ hcreate =>
      rcases create_some hcreate with ⟨hplace, hchanged, hcontains⟩
      have hput := put_handled (bytesOf header) (start_holds path hcontains)
      split at h
      . next s₃ d₃ hresult =>
        rw [hresult] at hput
        rcases hput with ⟨hcontinues, hholds⟩
        rcases Prod.mk.inj h with ⟨hs, hd⟩
        rw [← Except.ok.inj hs, ← hd]
        have hs₃ : s₃.place = place := hcontinues.place
        refine ⟨hcontinues.path, ?_, ?_, by simpa using hholds⟩
        . rw [hs₃, hplace, hparent.placeOf]
        . rw [hs₃]
          exact ((hparent.mono (Set.empty_subset _)).trans hchanged).trans hcontinues.changed
      . simp at h

end Stream

namespace Outputs

variable {start : Disk} {o o' : Outputs} {l : Ledger} {f g : OutputFile} {s s' : Stream}
  {text more : Bytes} {d : Disk}

theorem withStream_options : (o.withStream f s).options = o.options := by
  cases f <;> rfl

theorem withStream_disk : (o.withStream f s).disk = o.disk := by
  cases f <;> rfl

theorem withStream_closed : (o.withStream f s).closed = o.closed := by
  cases f <;> rfl

theorem withStream_written : (o.withStream f s).written = o.written := by
  cases f <;> rfl

theorem stream?_withStream (hshared : ∀ name, f ≠ .managed name)
    : (o.withStream f s).stream? g = if g = f then some s else o.stream? g := by
  cases f with
  | managed name => exact absurd rfl (hshared name)
  | glue | probeC | probeCs => cases g <;> rfl

theorem withStream_of_stream? (h : o.stream? f = some s) : o.withStream f s = o := by
  cases f with
  | managed name => rfl
  | glue | probeC | probeCs =>
    simp only [stream?] at h
    simp only [withStream, ← h]

theorem keeps_initial (options : OutputOptions) (start : Disk)
    : ({ options, disk := start } : Outputs).Keeps start [] where
  unclosed := rfl
  nodup := .nil
  written := rfl
  changed := .refl
  shows := by simp
  opened f s h := by cases f <;> simp [stream?] at h

theorem Shows.frame {places : Set Place} (h : o.Shows start f text)
    (hoptions : o'.options = o.options) (hstream : o'.stream? f = o.stream? f)
    (hchanged : ChangedAt places o.disk o'.disk) (hplace : o.options.place start f ∉ places)
    : o'.Shows start f text := by
  unfold Shows at h ⊢
  rw [hstream, hoptions]
  split at h
  . next s hs =>
    rcases h with ⟨hpath, hs, hholds⟩
    refine ⟨hpath, hs, hholds.changedAt hchanged ?_⟩
    rw [hs]
    exact hplace
  . exact ⟨h.1, h.2.changedAt hchanged hplace⟩

-- Every other file of the ledger lies elsewhere, so it is not touched.
theorem Keeps.enter (hk : o.Keeps start l) {path : Path} (hoptions : o'.options = o.options)
    (hclosed : o'.closed = o.closed)
    (hpath : o.options.path? f = some path) (hwritten : o'.written = o.written ++ [path])
    (hnew : f ∉ l.files) (hchanged : ChangedAt {o.options.place start f} o.disk o'.disk)
    (hshows : o'.Shows start f text) (hstream : ∀ g, g ≠ f → o'.stream? g = o.stream? g)
    (hapart : Set.InjOn (o.options.place start) {g | g ∈ l.files ∨ g = f})
    : o'.Keeps start (l ++ [(f, text)]) where
  unclosed := hclosed.trans hk.unclosed
  nodup := by
    rw [Ledger.files_append, List.nodup_append]
    refine ⟨hk.nodup, by simp, ?_⟩
    intro g hg e he
    rw [List.mem_singleton.1 he]
    rintro rfl
    exact hnew hg
  written := by
    rw [hwritten, hoptions, Ledger.files_append, List.map_append, List.map_append, hk.written]
    simp [hpath]
  changed := by
    rw [hoptions]
    apply ChangedAt.trans (hk.changed.mono ?_) (hchanged.mono ?_)
    . rintro q ⟨g, hg, hq⟩
      refine ⟨g, ?_, hq⟩
      simp [Ledger.files_append, hg]
    . rintro q hq
      refine ⟨f, ?_, hq⟩
      simp [Ledger.files_append]
  shows := by
    intro g old hg
    rcases List.mem_append.1 hg with hg | hg
    . have hmem := Ledger.mem_files hg
      have hne : g ≠ f := by
        rintro rfl
        exact hnew hmem
      apply (hk.shows g old hg).frame hoptions (hstream g hne) hchanged
      intro hplace
      exact hne (hapart (.inl hmem) (.inr rfl) hplace)
    . simp only [List.mem_singleton, Prod.mk.injEq] at hg
      rw [hg.1, hg.2]
      exact hshows
  opened := by
    intro g s hs
    rw [Ledger.files_append, List.mem_append, List.mem_singleton]
    by_cases hg : g = f
    . exact .inr hg
    . rw [hstream g hg] at hs
      exact .inl (hk.opened g s hs)

theorem Keeps.extend (hk : o.Keeps start l) (hoptions : o'.options = o.options)
    (hclosed : o'.closed = o.closed)
    (hwritten : o'.written = o.written) (hmem : f ∈ l.files)
    (hchanged : ChangedAt {o.options.place start f} o.disk o'.disk)
    (hshows : ∀ text, o.Shows start f text → o'.Shows start f (text ++ more))
    (hstream : ∀ g, g ≠ f → o'.stream? g = o.stream? g)
    (hapart : Set.InjOn (o.options.place start) {g | g ∈ l.files})
    : o'.Keeps start (l.extend f more) where
  unclosed := hclosed.trans hk.unclosed
  nodup := by
    rw [Ledger.files_extend]
    exact hk.nodup
  written := by
    rw [hwritten, hoptions, Ledger.files_extend]
    exact hk.written
  changed := by
    rw [hoptions, Ledger.files_extend]
    apply hk.changed.trans (hchanged.mono ?_)
    rintro q hq
    exact ⟨f, hmem, hq⟩
  shows := by
    intro g new hg
    rcases List.mem_map.1 hg with ⟨⟨g', old⟩, hold, heq⟩
    rcases Prod.mk.inj heq with ⟨hg', hnew⟩
    rw [hg'] at hold hnew
    split at hnew
    . next hgf =>
      rw [hgf] at hold ⊢
      rw [← hnew]
      exact hshows old (hk.shows f old hold)
    . next hgf =>
      rw [← hnew]
      apply (hk.shows g old hold).frame hoptions (hstream g hgf) hchanged
      intro hplace
      exact hgf (hapart (Ledger.mem_files hold) hmem hplace)
  opened := by
    intro g s hs
    rw [Ledger.files_extend]
    by_cases hg : g = f
    . rw [hg]
      exact hmem
    . rw [hstream g hg] at hs
      exact hk.opened g s hs

theorem same_refl {p : Path} : p.same p = true := by
  simp [Path.same]

theorem Keeps.path_mem (hk : o.Keeps start l) {path : Path} (hmem : f ∈ l.files)
    (hpath : o.options.path? f = some path) : path ∈ o.written := by
  have h : some path ∈ o.written.map some := by
    rw [hk.written, ← hpath]
    exact List.mem_map_of_mem hmem
  simpa using h

theorem place_eq_placeOf {path : Path} (hpath : o.options.path? f = some path)
    : o.options.place start f = start.placeOf path := by
  unfold OutputOptions.place
  rw [hpath]
  rfl

theorem writeManaged_ok {name source : String} {path : Path}
    (h : o.writeManaged name source = (.ok path, o'))
    : o.managedPath name ∉ o.written
      ∧ o' = { o with disk := o'.disk, written := o.written ++ [o.managedPath name] }
      ∧ ChangedAt {o.disk.placeOf (o.managedPath name)} o.disk o'.disk
      ∧ o'.disk.Contains (o.disk.placeOf (o.managedPath name)) (bytesOf source) := by
  unfold writeManaged at h
  split at h
  . simp at h
  . next d₁ hmade =>
    have hmade := makeDirectories_changedAt hmade
    simp only at h
    split at h
    . simp at h
    . next htaken =>
      split at h
      . simp at h
      . next place d₂ hcreate =>
        rcases create_some hcreate with ⟨hplace, hcreated, hcontains⟩
        rw [hmade.placeOf] at hplace
        split at h
        . simp at h
        . next d₃ hwrite =>
          have hcontains : d₃.Contains place (bytesOf source) := by
            simpa using hcontains.write_true hwrite
          have hchanged : ChangedAt {place} o.disk d₃ :=
            ((hmade.mono (Set.empty_subset _)).trans hcreated).trans (write_true hwrite).1
          rw [hplace] at hchanged hcontains
          rw [← (Prod.mk.inj h).2]
          refine ⟨?_, rfl, hchanged, hcontains⟩
          intro hmem
          apply htaken
          rw [List.any_eq_true]
          exact ⟨_, hmem, same_refl⟩

theorem writeManaged_keeps (hk : o.Keeps start l) {name source : String} {path : Path}
    (hapart : Set.InjOn (o.options.place start) {g | g ∈ l.files ∨ g = .managed name})
    (h : o.writeManaged name source = (.ok path, o'))
    : o'.options = o.options ∧ o'.Keeps start (l ++ [(.managed name, bytesOf source)]) := by
  have hpath : o.options.path? (.managed name) = some (o.managedPath name) := rfl
  rcases writeManaged_ok h with ⟨hnew, ho, hchanged, hcontains⟩
  have hnew : .managed name ∉ l.files := fun hmem => hnew (hk.path_mem hmem hpath)
  rw [hk.changed.placeOf, ← place_eq_placeOf hpath] at hchanged hcontains
  have hoptions : o'.options = o.options := by rw [ho]
  have hstreams (g : OutputFile) : o'.stream? g = o.stream? g := by
    rw [ho]
    cases g <;> rfl
  have hshows : o'.Shows start (.managed name) (bytesOf source) := by
    refine ⟨⟨name, rfl⟩, ?_⟩
    rw [hoptions]
    exact hcontains
  refine ⟨hoptions, hk.enter hoptions ?_ hpath ?_ hnew hchanged hshows ?_ hapart⟩
  . rw [ho]
  . rw [ho]
  . exact fun g _ => hstreams g

theorem Keeps.shown (hk : o.Keeps start l) (hs : o.stream? f = some s) (hmem : (f, text) ∈ l)
    : o.options.path? f = some s.path ∧ s.place = o.options.place start f
      ∧ s.Holds o.disk text := by
  have hshows := hk.shows f text hmem
  unfold Shows at hshows
  rwa [hs] at hshows

theorem Keeps.held (hk : o.Keeps start l) (hs : o.stream? f = some s)
    : s.place = o.options.place start f ∧ ∃ text, s.Holds o.disk text := by
  rcases List.mem_map.1 (hk.opened f s hs) with ⟨⟨g, text⟩, hmem, rfl⟩
  rcases hk.shown hs hmem with ⟨_, hplace, hholds⟩
  exact ⟨hplace, text, hholds⟩

theorem Keeps.mem_files_iff (hk : o.Keeps start l) (hshared : ∀ name, f ≠ .managed name)
    : f ∈ l.files ↔ ∃ s, o.stream? f = some s := by
  constructor
  . intro hmem
    rcases List.mem_map.1 hmem with ⟨⟨g, text⟩, hg, rfl⟩
    have hshows := hk.shows g text hg
    unfold Shows at hshows
    split at hshows
    . next s hs => exact ⟨s, hs⟩
    . rcases hshows.1 with ⟨name, hname⟩
      exact absurd hname (hshared name)
  . rintro ⟨s, hs⟩
    exact hk.opened f s hs

theorem Ensures.keeps (hk : o.Keeps start l) (hshared : ∀ name, f ≠ .managed name)
    (hapart : Set.InjOn (o.options.place start) {g | g ∈ l.files ∨ g = f})
    (hopen : o.Ensures f (.ok s) o')
    : o'.options = o.options ∧ (∀ g, o'.stream? g = o.stream? g)
      ∧ (o'.withStream f s).Keeps start (l.begin f (o.options.header f)) := by
  rcases hopen with ⟨path, header, hpath, hheader, h⟩
  rw [← hheader]
  unfold ensure at h
  unfold Ledger.begin
  split at h
  . next s₀ hs₀ =>
    rcases Prod.mk.inj h with ⟨hs, ho⟩
    rw [← Except.ok.inj hs, ← ho, withStream_of_stream? hs₀, if_pos (hk.opened f s₀ hs₀)]
    exact ⟨rfl, fun _ => rfl, hk⟩
  . next hclosed =>
    have hnew : f ∉ l.files := by
      rw [hk.mem_files_iff hshared]
      simp [hclosed]
    rw [if_neg hnew]
    split at h
    . next s₁ d₁ hcreate =>
      rcases Stream.create_ok hcreate with ⟨hspath, hplace, hchanged, hholds⟩
      rw [hk.changed.placeOf, ← place_eq_placeOf hpath] at hplace
      rw [hplace] at hchanged
      rcases Prod.mk.inj h with ⟨hs, ho⟩
      rw [← Except.ok.inj hs, ← ho]
      have hstreams (g : OutputFile)
          : ({ o with disk := d₁, written := o.written ++ [path] } : Outputs).stream? g
              = o.stream? g := by
        cases g <;> rfl
      refine ⟨rfl, hstreams, ?_⟩
      refine hk.enter withStream_options withStream_closed hpath ?_ hnew ?_ ?_ ?_ hapart
      . rw [withStream_written]
      . rw [withStream_disk]
        exact hchanged
      . unfold Shows
        rw [stream?_withStream hshared, if_pos rfl, withStream_options, withStream_disk]
        exact ⟨by rw [hspath, hpath], hplace, hholds⟩
      . intro g hg
        rw [stream?_withStream hshared, if_neg hg]
        exact hstreams g
    . simp at h

theorem add_keeps (hk : o.Keeps start l) (hshared : ∀ name, f ≠ .managed name)
    (hstream : o.stream? f = some s) {text : String}
    (hapart : Set.InjOn (o.options.place start) {g | g ∈ l.files})
    (h : add s o.disk text = (.ok (), s', d))
    : (withStream { o with disk := d } f s').Keeps start (l.extend f (bytesOf text)) := by
  have hmem := hk.opened f s hstream
  unfold add at h
  split at h
  . next s₁ d₁ hput₁ =>
    rcases Prod.mk.inj h with ⟨_, hrest⟩
    rcases Prod.mk.inj hrest with ⟨hs, hd⟩
    rw [hs, hd] at hput₁
    rcases List.mem_map.1 hmem with ⟨⟨g, old⟩, hold, rfl⟩
    rcases hk.shown hstream hold with ⟨hpath, hplace, hholds⟩
    have hhandled (old : Bytes) (hold : s.Holds o.disk old)
        : s.Continues o.disk s' d ∧ s'.Holds d (old ++ bytesOf text) := by
      have hput := Stream.put_handled (bytesOf text) hold
      rwa [hput₁] at hput
    have hcontinues := (hhandled old hholds).1
    refine hk.extend withStream_options withStream_closed ?_ hmem ?_ ?_ ?_ hapart
    . rw [withStream_written]
    . rw [withStream_disk, ← hplace]
      exact hcontinues.changed
    . intro old' hshows
      unfold Shows at hshows ⊢
      rw [hstream] at hshows
      rw [stream?_withStream hshared, if_pos rfl, withStream_options, withStream_disk]
      refine ⟨?_, ?_, (hhandled old' hshows.2.2).2⟩
      . rw [hcontinues.path]
        exact hpath
      . rw [hcontinues.place]
        exact hplace
    . intro g' hg'
      rw [stream?_withStream hshared, if_neg hg']
      cases g' <;> rfl
  . simp at h

theorem appendGlue_keeps (hk : o.Keeps start l) {text : String}
    (hapart : Set.InjOn (o.options.place start) {g | g ∈ l.files ∨ g = .glue})
    (h : o.appendGlue text = (.ok (), o'))
    : o'.options = o.options
      ∧ o'.Keeps start ((l.begin .glue (o.options.header .glue)).extend .glue (bytesOf text)) := by
  have hshared : ∀ name, OutputFile.glue ≠ .managed name := by simp
  have hsteps := appendGlue_steps o text
  rw [h] at hsteps
  cases hsteps with
  | added s₁ o₁ hopen hadd =>
    rcases hopen.keeps hk hshared hapart with ⟨hoptions, _, hbegun⟩
    have hapart₁ : Set.InjOn ((o₁.withStream .glue s₁).options.place start)
        {g | g ∈ (l.begin .glue (o.options.header .glue)).files} := by
      rw [withStream_options, hoptions]
      exact hapart.mono fun g => Ledger.mem_files_begin.1
    exact ⟨hoptions, add_keeps (f := .glue) hbegun hshared rfl hapart₁ hadd⟩

-- The first file stays open while the second is begun, so both texts can be added afterwards.
theorem ensuresProbes_keeps (hk : o.Keeps start l) {c cs : Stream} {o₁ o₂ : Outputs}
    (hapart : Set.InjOn (o.options.place start) {g | g ∈ l.files ∨ g = .probeC ∨ g = .probeCs})
    (hopenC : o.Ensures .probeC (.ok c) o₁)
    (hopenCs : (o₁.withStream .probeC c).Ensures .probeCs (.ok cs) o₂)
    : o₂.options = o.options ∧ o₂.stream? .probeC = some c
      ∧ (o₂.withStream .probeCs cs).Keeps start
          ((l.begin .probeC (o.options.header .probeC)).begin .probeCs
            (o.options.header .probeCs)) := by
  have hapartC : Set.InjOn (o.options.place start) {g | g ∈ l.files ∨ g = .probeC} := by
    apply hapart.mono
    rintro g (hg | hg)
    . exact .inl hg
    . exact .inr (.inl hg)
  rcases hopenC.keeps hk (by simp) hapartC with ⟨hoptions₁, _, hbegun⟩
  have hoptions : (o₁.withStream .probeC c).options = o.options := by
    rw [withStream_options, hoptions₁]
  have hapartCs : Set.InjOn ((o₁.withStream .probeC c).options.place start)
      {g | g ∈ (l.begin .probeC (o.options.header .probeC)).files ∨ g = .probeCs} := by
    rw [hoptions]
    apply hapart.mono
    rintro g (hg | hg)
    . exact (Ledger.mem_files_begin.1 hg).imp_right .inl
    . exact .inr (.inr hg)
  rcases hopenCs.keeps hbegun (by simp) hapartCs with ⟨hoptions₂, hstreams, hbegun₂⟩
  rw [hoptions] at hbegun₂
  exact ⟨hoptions₂.trans hoptions, hstreams .probeC, hbegun₂⟩

theorem appendProbe_keeps (hk : o.Keeps start l) {probe : Binding.Probe}
    (hapart : Set.InjOn (o.options.place start) {g | g ∈ l.files ∨ g = .probeC ∨ g = .probeCs})
    (h : o.appendProbe probe = (.ok (), o'))
    : o'.options = o.options
      ∧ o'.Keeps start
          ((((l.begin .probeC (o.options.header .probeC)).begin .probeCs
              (o.options.header .probeCs)).extend .probeC (bytesOf probe.c)).extend .probeCs
            (bytesOf probe.cs)) := by
  have hsharedC : ∀ name, OutputFile.probeC ≠ .managed name := by simp
  have hsharedCs : ∀ name, OutputFile.probeCs ≠ .managed name := by simp
  have hsteps := appendProbe_steps o probe
  rw [h] at hsteps
  cases hsteps with
  | added c cs o₁ o₂ hopenC hopenCs haddC haddCs =>
    rcases ensuresProbes_keeps hk hapart hopenC hopenCs with ⟨hoptions, hstream, hbegun⟩
    have hapart' : Set.InjOn (o₂.options.place start)
        {g | g ∈ ((l.begin .probeC (o.options.header .probeC)).begin .probeCs
          (o.options.header .probeCs)).files} := by
      rw [hoptions]
      apply hapart.mono
      intro g hg
      rcases Ledger.mem_files_begin.1 hg with hg | hg
      . exact (Ledger.mem_files_begin.1 hg).imp_right .inl
      . exact .inr (.inr hg)
    have hstreamC : (o₂.withStream .probeCs cs).stream? .probeC = some c := hstream
    have haddedC := add_keeps (f := .probeC) hbegun hsharedC hstreamC hapart' haddC
    rw [← Ledger.files_extend] at hapart'
    exact ⟨hoptions, add_keeps (f := .probeCs) haddedC hsharedCs rfl hapart' haddCs⟩

end Outputs

end Interop
