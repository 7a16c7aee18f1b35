import Interop.Proofs.Files.Parallel
import Interop.Proofs.Outputs.Closing

/-!
This module contains what becomes of outputs on two disks that differ only in what some of their
files hold: every call is answered alike on both, and writes the same.
-/

namespace Interop

open Disk

variable {agreed : Set Place} {start start' d d' : Disk}

namespace Stream

theorem makeParent_parallel (h : Parallel agreed start start' d d') (path : Path)
    : (∃ e, create.makeParent d path = .error e ∧ create.makeParent d' path = .error e)
      ∨ ∃ made made', create.makeParent d path = .ok made ∧ create.makeParent d' path = .ok made'
          ∧ Parallel agreed start start' made made' := by
  unfold create.makeParent
  split
  . next parent _ =>
    split
    . exact .inr ⟨d, d', rfl, rfl, h⟩
    . rcases h.makeDirectories parent with ⟨hd, hd'⟩ | ⟨made, made', hd, hd', hmade⟩
      . rw [hd, hd']
        exact .inl ⟨_, rfl, rfl⟩
      . rw [hd, hd']
        exact .inr ⟨made, made', rfl, rfl, hmade⟩
  . exact .inr ⟨d, d', rfl, rfl, h⟩

theorem create_parallel (h : Parallel agreed start start' d d') (path : Path) (header : String)
    : (∃ e d₁ d₁', create d path header = (.error e, d₁) ∧ create d' path header = (.error e, d₁')
          ∧ Parallel agreed start start' d₁ d₁')
      ∨ ∃ s d₁ d₁', create d path header = (.ok s, d₁) ∧ create d' path header = (.ok s, d₁')
          ∧ Parallel (insert s.place agreed) start start' d₁ d₁' := by
  unfold create
  rcases makeParent_parallel h path with ⟨e, hd, hd'⟩ | ⟨made, made', hd, hd', hmade⟩
  . rw [hd, hd']
    exact .inl ⟨e, d, d', rfl, rfl, h⟩
  . rw [hd, hd']
    dsimp only
    rcases hmade.create path with ⟨e, e', hd, hd', he⟩ | ⟨place, e, e', hd, hd', he⟩
    . rw [hd, hd']
      exact .inl ⟨_, e, e', rfl, rfl, he⟩
    . rw [hd, hd']
      dsimp only
      rcases put_parallel (s := .start path place) he (Set.mem_insert _ _) (bytesOf header)
        with ⟨taken, s, e₁, e₁', hd, hd', hplace, he₁⟩
      have hplace : s.place = place := hplace
      rw [hd, hd']
      cases taken with
      | true => exact .inr ⟨s, e₁, e₁', rfl, rfl, hplace ▸ he₁⟩
      | false =>
        have hs : s.place ∈ insert place agreed := by simp [hplace]
        have hdropped := (drop_parallel he₁ hs).mono (Set.subset_insert place agreed)
        exact .inl ⟨_, _, _, rfl, rfl, hdropped⟩

theorem finish_parallel {s : Stream} (h : Parallel agreed start start' d d')
    (hs : s.place ∈ agreed) (footer : String)
    : ∃ e? e e', s.finish d footer = (e?, e) ∧ s.finish d' footer = (e?, e')
      ∧ Parallel agreed start start' e e' := by
  unfold finish
  rcases put_parallel h hs (bytesOf footer) with ⟨taken, s₁, e₁, e₁', hd, hd', hplace, he₁⟩
  have hs₁ : s₁.place ∈ agreed := hplace ▸ hs
  rw [hd, hd']
  cases taken with
  | false => exact ⟨_, _, _, rfl, rfl, drop_parallel he₁ hs₁⟩
  | true =>
    dsimp only
    rcases flush_parallel he₁ hs₁ with ⟨taken, s₂, e₂, e₂', hd, hd', hplace, he₂⟩
    have hs₂ : s₂.place ∈ agreed := hplace ▸ hs₁
    rw [hd, hd']
    cases taken with
    | false => exact ⟨_, _, _, rfl, rfl, drop_parallel he₂ hs₂⟩
    | true => exact ⟨_, _, _, rfl, rfl, drop_parallel he₂ hs₂⟩

end Stream

namespace Outputs

variable {o o' : Outputs} {f : OutputFile} {s : Stream}

/--
Nothing but the disk is different, and open streams lead to places where the disks hold the same.
-/
structure Parallel (agreed : Set Place) (start start' : Disk) (o o' : Outputs) : Prop where
  same : ∃ d', o' = { o with disk := d' }
  disk : Disk.Parallel agreed start start' o.disk o'.disk
  streams : ∀ f s, o.stream? f = some s → s.place ∈ agreed

/--
Two answers to one call: they are the same, and what they leave goes on in parallel.
-/
def InParallel (start start' : Disk) (answer answer' : Except OutputError α × Outputs) : Prop :=
  ∃ r o o' agreed, answer = (r, o) ∧ answer' = (r, o') ∧ Parallel agreed start start' o o'

theorem parallel_initial (options : OutputOptions) (h : Disk.Parallel agreed start start' d d')
    : Parallel agreed start start' { options, disk := d } { options, disk := d' } where
  same := ⟨d', rfl⟩
  disk := h
  streams f s hs := by cases f <;> cases hs

theorem finishAll_parallel {streams : List (Option Stream × String)}
    (h : Disk.Parallel agreed start start' d d')
    (hstreams : ∀ s footer, (some s, footer) ∈ streams → s.place ∈ agreed)
    : ∃ e? e e', finishAll d streams = (e?, e) ∧ finishAll d' streams = (e?, e')
      ∧ Disk.Parallel agreed start start' e e' := by
  induction streams generalizing d d' with
  | nil => exact ⟨none, d, d', rfl, rfl, h⟩
  | cons entry rest ih =>
    have hrest : ∀ s footer, (some s, footer) ∈ rest → s.place ∈ agreed :=
      fun s footer hmem => hstreams s footer (List.mem_cons_of_mem _ hmem)
    rcases entry with ⟨_ | s, footer⟩
    . exact ih h hrest
    . rcases Stream.finish_parallel h (hstreams s footer List.mem_cons_self) footer
        with ⟨e?, e, e', hd, hd', he⟩
      rcases ih he hrest with ⟨later?, e₁, e₁', hd₁, hd₁', he₁⟩
      unfold finishAll
      rw [hd, hd']
      dsimp only
      rw [hd₁, hd₁']
      exact ⟨_, e₁, e₁', rfl, rfl, he₁⟩

namespace Parallel

variable (h : Parallel agreed start start' o o')

include h

theorem onDisk (hdisk : Disk.Parallel agreed start start' d d')
    : Parallel agreed start start' { o with disk := d } { o' with disk := d' } := by
  rcases h with ⟨⟨_, rfl⟩, _, hstreams⟩
  exact ⟨⟨d', rfl⟩, hdisk, hstreams⟩

theorem withStream (hshared : ∀ name, f ≠ .managed name) (hs : s.place ∈ agreed)
    : Parallel agreed start start' (o.withStream f s) (o'.withStream f s) := by
  rcases h with ⟨⟨d', rfl⟩, hdisk, hstreams⟩
  refine ⟨⟨d', by cases f <;> rfl⟩, by rwa [withStream_disk, withStream_disk], ?_⟩
  intro g s' hs'
  rw [stream?_withStream hshared] at hs'
  split at hs'
  . rwa [← Option.some.inj hs']
  . exact hstreams g s' hs'

theorem writeManaged (name source : String)
    : InParallel start start' (o.writeManaged name source) (o'.writeManaged name source) := by
  rcases h with ⟨⟨d', rfl⟩, hdisk, hstreams⟩
  have hpath : managedPath { o with disk := d' } name = o.managedPath name := rfl
  unfold Outputs.writeManaged
  rw [hpath]
  dsimp only at hdisk ⊢
  rcases hdisk.makeDirectories o.options.dir with ⟨hd, hd'⟩ | ⟨made, made', hd, hd', hmade⟩
  . rw [hd, hd']
    exact ⟨_, _, _, agreed, rfl, rfl, ⟨d', rfl⟩, hdisk, hstreams⟩
  . rw [hd, hd']
    dsimp only
    split
    . exact ⟨_, _, _, agreed, rfl, rfl, ⟨made', rfl⟩, hmade, hstreams⟩
    . rcases hmade.create (o.managedPath name)
        with ⟨e, e', hd, hd', he⟩ | ⟨place, e, e', hd, hd', he⟩
      . rw [hd, hd']
        exact ⟨_, _, _, agreed, rfl, rfl, ⟨e', rfl⟩, he, hstreams⟩
      . rw [hd, hd']
        dsimp only
        have hstreams' : ∀ f s, o.stream? f = some s → s.place ∈ insert place agreed :=
          fun f s hs => Set.mem_insert_of_mem _ (hstreams f s hs)
        rcases he.write (Set.mem_insert _ _) 0 (bytesOf source)
          with ⟨taken, e₁, e₁', hd, hd', he₁⟩
        rw [hd, hd']
        cases taken with
        | true => exact ⟨_, _, _, _, rfl, rfl, ⟨e₁', rfl⟩, he₁, hstreams'⟩
        | false => exact ⟨_, _, _, _, rfl, rfl, ⟨e₁', rfl⟩, he₁, hstreams'⟩

theorem ensure (f : OutputFile) (path : Path) (header : String)
    : (∃ e o₁ o₁', o.ensure (o.stream? f) path header = (.error e, o₁)
          ∧ o'.ensure (o'.stream? f) path header = (.error e, o₁')
          ∧ Parallel agreed start start' o₁ o₁')
      ∨ ∃ s o₁ o₁' agreed₁, o.ensure (o.stream? f) path header = (.ok s, o₁)
          ∧ o'.ensure (o'.stream? f) path header = (.ok s, o₁')
          ∧ Parallel agreed₁ start start' o₁ o₁' ∧ agreed ⊆ agreed₁ ∧ s.place ∈ agreed₁ := by
  rcases h with ⟨⟨d', rfl⟩, hdisk, hstreams⟩
  have hstream : stream? { o with disk := d' } f = o.stream? f := by cases f <;> rfl
  unfold Outputs.ensure
  rw [hstream]
  split
  . next s hs =>
    exact .inr ⟨s, o, _, agreed, rfl, rfl, ⟨⟨d', rfl⟩, hdisk, hstreams⟩, subset_rfl,
      hstreams f s hs⟩
  . dsimp only at hdisk ⊢
    rcases Stream.create_parallel hdisk path header
      with ⟨e, d₁, d₁', hd, hd', hd₁⟩ | ⟨s, d₁, d₁', hd, hd', hd₁⟩
    . rw [hd, hd']
      exact .inl ⟨e, _, _, rfl, rfl, ⟨d₁', rfl⟩, hd₁, hstreams⟩
    . rw [hd, hd']
      have hstreams' : ∀ f s', o.stream? f = some s' → s'.place ∈ insert s.place agreed :=
        fun f s' hs' => Set.mem_insert_of_mem _ (hstreams f s' hs')
      exact .inr ⟨s, _, _, _, rfl, rfl, ⟨⟨d₁', rfl⟩, hd₁, hstreams'⟩, Set.subset_insert _ _,
        Set.mem_insert _ _⟩

omit h in
theorem add (hdisk : Disk.Parallel agreed start start' d d') (hs : s.place ∈ agreed)
    (text : String)
    : ∃ r s₁ d₁ d₁', Outputs.add s d text = (r, s₁, d₁) ∧ Outputs.add s d' text = (r, s₁, d₁')
      ∧ s₁.place ∈ agreed ∧ Disk.Parallel agreed start start' d₁ d₁' := by
  rcases Stream.put_parallel hdisk hs (bytesOf text) with ⟨taken, s₁, e, e', hd, hd', hplace, he⟩
  unfold Outputs.add
  rw [hd, hd']
  cases taken with
  | true => exact ⟨_, _, _, _, rfl, rfl, hplace ▸ hs, he⟩
  | false => exact ⟨_, _, _, _, rfl, rfl, hplace ▸ hs, he⟩

theorem closed_eq : o'.closed = o.closed := by
  rcases h.same with ⟨d', rfl⟩
  rfl

theorem options_eq : o'.options = o.options := by
  rcases h.same with ⟨d', rfl⟩
  rfl

theorem appendGlue (text : String)
    : InParallel start start' (o.appendGlue text) (o'.appendGlue text) := by
  unfold Outputs.appendGlue
  rw [h.closed_eq, h.options_eq]
  split
  . exact ⟨_, _, _, agreed, rfl, rfl, h⟩
  . split
    . exact ⟨_, _, _, agreed, rfl, rfl, h⟩
    . next path _ =>
      rcases h.ensure .glue path o.options.glueHeader
        with ⟨e, o₁, o₁', ho, ho', h₁⟩ | ⟨s, o₁, o₁', agreed₁, ho, ho', h₁, _, hs⟩
      . simp only [stream?] at ho ho'
        rw [ho, ho']
        exact ⟨_, _, _, agreed, rfl, rfl, h₁⟩
      . simp only [stream?] at ho ho'
        rw [ho, ho']
        dsimp only
        rcases add h₁.disk hs text with ⟨r, s₁, d₁, d₁', hd, hd', hs₁, hd₁⟩
        rw [hd, hd']
        exact ⟨_, _, _, _, rfl, rfl, (h₁.onDisk hd₁).withStream (f := .glue) (by simp) hs₁⟩

theorem appendProbe (p : Binding.Probe)
    : InParallel start start' (o.appendProbe p) (o'.appendProbe p) := by
  unfold Outputs.appendProbe
  rw [h.closed_eq, h.options_eq]
  split
  . exact ⟨_, _, _, agreed, rfl, rfl, h⟩
  . split
    . next cPath csPath _ _ =>
      rcases h.ensure .probeC cPath o.options.probeCHeader
        with ⟨e, o₁, o₁', ho, ho', h₁⟩ | ⟨c, o₁, o₁', agreed₁, ho, ho', h₁, _, hc⟩
      . simp only [stream?] at ho ho'
        rw [ho, ho']
        exact ⟨_, _, _, agreed, rfl, rfl, h₁⟩
      . simp only [stream?] at ho ho'
        rw [ho, ho']
        dsimp only
        rw [h₁.options_eq]
        rcases (h₁.withStream (f := .probeC) (by simp) hc).ensure .probeCs csPath
            o₁.options.probeCsHeader
          with ⟨e, o₂, o₂', ho, ho', h₂⟩ | ⟨cs, o₂, o₂', agreed₂, ho, ho', h₂, hsub, hcs⟩
        . simp only [stream?, Outputs.withStream] at ho ho'
          rw [h₁.options_eq] at ho'
          rw [ho, ho']
          exact ⟨_, _, _, _, rfl, rfl, h₂⟩
        . simp only [stream?, Outputs.withStream] at ho ho'
          rw [h₁.options_eq] at ho'
          rw [ho, ho']
          dsimp only
          have h₂ := h₂.withStream (f := .probeCs) (by simp) hcs
          -- That the second stream was opened leaves the first one where the disks agree.
          rcases add h₂.disk (hsub hc) p.c with ⟨r, c', d₁, d₁', hd, hd', hc', hd₁⟩
          simp only [withStream_disk] at hd hd'
          rw [hd, hd']
          have h₃ := (h₂.onDisk hd₁).withStream (f := .probeC) (by simp) hc'
          cases r with
          | error e => exact ⟨_, _, _, _, rfl, rfl, h₃⟩
          | ok u =>
            dsimp only
            rcases add hd₁ hcs p.cs with ⟨r, cs', d₂, d₂', hd, hd', hcs', hd₂⟩
            rw [hd, hd']
            have h₄ := (h₃.onDisk hd₂).withStream (f := .probeCs) (by simp) hcs'
            exact ⟨_, _, _, _, rfl, rfl, h₄⟩
    . exact ⟨_, _, _, agreed, rfl, rfl, h⟩

theorem close : InParallel start start' o.close o'.close := by
  unfold Outputs.close
  rw [h.closed_eq]
  split
  . exact ⟨_, _, _, agreed, rfl, rfl, h⟩
  . rcases h with ⟨⟨d', rfl⟩, hdisk, hstreams⟩
    have hfinishing : ∀ s footer, (some s, footer) ∈ o.finishing → s.place ∈ agreed := by
      intro s footer hmem
      rcases mem_finishing.1 hmem with ⟨f, hs, _⟩
      exact hstreams f s hs
    rcases finishAll_parallel hdisk hfinishing with ⟨e?, e, e', hd, hd', he⟩
    have hfinished : finishAll o.disk
        [(o.glue?, ""), (o.probeC?, OutputOptions.probeCFooter),
          (o.probeCs?, OutputOptions.probeCsFooter)] = (e?, e) := hd
    have hfinished' : finishAll d'
        [(o.glue?, ""), (o.probeC?, OutputOptions.probeCFooter),
          (o.probeCs?, OutputOptions.probeCsFooter)] = (e?, e') := hd'
    dsimp only
    rw [hfinished, hfinished']
    have hstreams' : ∀ (f : OutputFile) (s : Stream), stream? { o with
        disk := e, glue? := none, probeC? := none, probeCs? := none, closed := true } f = some s →
        s.place ∈ agreed := by
      intro f s hs
      cases f <;> cases hs
    exact ⟨_, _, _, agreed, rfl, rfl, ⟨e', rfl⟩, he, hstreams'⟩

end Parallel

end Outputs

end Interop
