import Interop.Proofs.Outputs.Delivery

/-!
This module contains what it means to close outputs: every file of the ledger gets its footer, and
all of its text is on the disk.
-/

namespace Interop

open Disk

theorem Stream.finish_none {d d' : Disk} {s : Stream} {text : Bytes} {footer : String}
    (hs : s.Holds d text) (h : s.finish d footer = (none, d'))
    : ChangedAt {s.place} d d' ∧ d'.Contains s.place (text ++ bytesOf footer) := by
  have hput := put_handled (bytesOf footer) hs
  unfold finish at h
  generalize s.put d (bytesOf footer) = result at h hput
  rcases result with ⟨_ | _, s₁, d₁⟩
  . simp at h
  . rcases hput with ⟨hcontinues₁, hholds₁⟩
    have hflush := flush_handled hholds₁
    simp only at h
    generalize hresult : s₁.flush d₁ = result at h hflush
    rcases result with ⟨_ | _, s₂, d₂⟩
    . simp at h
    . rcases hflush with ⟨hcontinues₂, hholds₂⟩
      have hwaiting := flush_waiting hresult
      have hcontinues := hcontinues₁.trans hcontinues₂
      rw [← (Prod.mk.inj h).2, drop_of_waiting hwaiting]
      refine ⟨hcontinues.changed, ?_⟩
      rw [← hcontinues.place]
      simpa using hholds₂.contains hwaiting

namespace Outputs

variable {start d d' : Disk} {o o' : Outputs} {l : Ledger}

theorem finishAll_cons_none {s : Stream} {footer : String} {rest : List (Option Stream × String)}
    (h : finishAll d ((some s, footer) :: rest) = (none, d'))
    : ∃ d₁, s.finish d footer = (none, d₁) ∧ finishAll d₁ rest = (none, d') := by
  unfold finishAll at h
  generalize s.finish d footer = result at h ⊢
  rcases result with ⟨e?, d₁⟩
  simp only at h
  generalize hrest : finishAll d₁ rest = result at h
  rcases result with ⟨later?, d₂⟩
  simp only at h
  rcases Prod.mk.inj h with ⟨hnone, hd⟩
  rw [Option.or_eq_none_iff] at hnone
  rw [hnone.2, hd] at hrest
  exact ⟨d₁, by rw [hnone.1], hrest⟩

-- A stream is not touched while those after it are finished, as they are streams to other files.
theorem finishAll_none {streams : List (Option Stream × String)}
    (hholds : ∀ s footer, (some s, footer) ∈ streams → ∃ text, s.Holds d text)
    (hapart : streams.Pairwise fun a b => ∀ s s', a.1 = some s → b.1 = some s' → s.place ≠ s'.place)
    (h : finishAll d streams = (none, d'))
    : ChangedAt {q | ∃ s footer, (some s, footer) ∈ streams ∧ q = s.place} d d'
      ∧ ∀ s footer, (some s, footer) ∈ streams → ∀ text, s.Holds d text →
          d'.Contains s.place (text ++ bytesOf footer) := by
  induction streams generalizing d with
  | nil =>
    rw [← (Prod.mk.inj h).2]
    exact ⟨.refl, by simp⟩
  | cons entry rest ih =>
    rw [List.pairwise_cons] at hapart
    rcases entry with ⟨_ | s, footer⟩
    . have hheld : ∀ s footer, (some s, footer) ∈ rest → ∃ text, s.Holds d text := by
        intro s footer hmem
        exact hholds s footer (List.mem_cons_of_mem _ hmem)
      simpa using ih hheld hapart.2 h
    . rcases finishAll_cons_none h with ⟨d₁, hfinish, hfinishAll⟩
      rcases hholds s footer List.mem_cons_self with ⟨text, htext⟩
      have hchanged := (Stream.finish_none htext hfinish).1
      have hkept : ∀ s' footer', (some s', footer') ∈ rest → ∀ text, s'.Holds d text →
          s'.Holds d₁ text := by
        intro s' footer' hmem text' htext'
        apply htext'.changedAt hchanged
        exact (hapart.1 _ hmem s s' rfl rfl).symm
      have hrest : ∀ s' footer', (some s', footer') ∈ rest → ∃ text, s'.Holds d₁ text := by
        intro s' footer' hmem
        rcases hholds s' footer' (List.mem_cons_of_mem _ hmem) with ⟨text', htext'⟩
        exact ⟨text', hkept s' footer' hmem text' htext'⟩
      rcases ih hrest hapart.2 hfinishAll with ⟨hchanged', hcontains'⟩
      refine ⟨ChangedAt.trans (hchanged.mono ?_) (hchanged'.mono ?_), ?_⟩
      . rintro q hq
        exact ⟨s, footer, List.mem_cons_self, hq⟩
      . rintro q ⟨s', footer', hmem, hq⟩
        exact ⟨s', footer', List.mem_cons_of_mem _ hmem, hq⟩
      . intro s' footer' hmem text' htext'
        rcases List.mem_cons.1 hmem with heq | hmem
        . rcases Prod.mk.inj heq with ⟨hs, hfooter⟩
          have hs : s' = s := Option.some.inj hs
          rw [hs] at htext' ⊢
          rw [hfooter]
          apply (Stream.finish_none htext' hfinish).2.changedAt hchanged'
          rintro ⟨s', footer', hmem, hplace⟩
          exact hapart.1 _ hmem s s' rfl rfl hplace
        . exact hcontains' s' footer' hmem text' (hkept s' footer' hmem text' htext')

/--
The files that are open from their first text until the outputs are closed.
-/
def sharedFiles : List OutputFile :=
  [.glue, .probeC, .probeCs]

theorem mem_sharedFiles {f : OutputFile} : f ∈ sharedFiles ↔ ∀ name, f ≠ .managed name := by
  cases f <;> simp [sharedFiles]

/--
The streams that closing finishes, each with what its file gets at its end.
-/
def finishing (o : Outputs) : List (Option Stream × String) :=
  sharedFiles.map fun f => (o.stream? f, f.footer)

theorem mem_finishing {s : Stream} {footer : String}
    : (some s, footer) ∈ o.finishing ↔ ∃ f, o.stream? f = some s ∧ f.footer = footer := by
  unfold finishing
  rw [List.mem_map]
  constructor
  . rintro ⟨f, _, heq⟩
    exact ⟨f, Prod.mk.inj heq⟩
  . rintro ⟨f, hs, hfooter⟩
    refine ⟨f, ?_, by rw [hs, hfooter]⟩
    rw [mem_sharedFiles]
    rintro name rfl
    simp [stream?] at hs

theorem close_of_unclosed (h : o.closed = false)
    : o.close
        =
      ((finishAll o.disk o.finishing).1.elim (.ok ()) .error,
        { options := o.options, disk := (finishAll o.disk o.finishing).2, written := o.written,
          closed := true }) := by
  unfold close
  rw [h, if_neg (by simp)]
  rfl

theorem close_ok (hunclosed : o.closed = false) (h : o.close = (.ok (), o'))
    : finishAll o.disk o.finishing = (none, o'.disk) := by
  rw [close_of_unclosed hunclosed] at h
  generalize finishAll o.disk o.finishing = result at h ⊢
  rcases result with ⟨e?, d⟩
  rcases Prod.mk.inj h with ⟨he, ho⟩
  rw [← ho]
  cases e? with
  | none => rfl
  | some e => simp at he

theorem Keeps.finishing_holds (hk : o.Keeps start l) {s : Stream} {footer : String}
    (hmem : (some s, footer) ∈ o.finishing) : ∃ text, s.Holds o.disk text := by
  rcases mem_finishing.1 hmem with ⟨f, hs, _⟩
  exact (hk.held hs).2

theorem Keeps.finishing_apart (hk : o.Keeps start l)
    (hapart : Set.InjOn (o.options.place start) {g | g ∈ l.files})
    : o.finishing.Pairwise fun a b =>
        ∀ s s', a.1 = some s → b.1 = some s' → s.place ≠ s'.place := by
  have hnodup : sharedFiles.Nodup := by decide
  unfold finishing
  rw [List.pairwise_map]
  apply hnodup.imp
  intro f g hne s s' hs hs' hplace
  rw [(hk.held hs).1, (hk.held hs').1] at hplace
  exact hne (hapart (hk.opened f s hs) (hk.opened g s' hs') hplace)

theorem close_keeps (hk : o.Keeps start l)
    (hapart : Set.InjOn (o.options.place start) {g | g ∈ l.files})
    (h : o.close = (.ok (), o'))
    : ChangedAt {q | ∃ f ∈ l.files, q = o.options.place start f} start o'.disk
      ∧ ∀ f text, (f, text) ∈ l →
          o'.disk.Contains (o.options.place start f) (text ++ bytesOf f.footer) := by
  rcases finishAll_none (fun _ _ => hk.finishing_holds) (hk.finishing_apart hapart)
    (close_ok hk.unclosed h) with ⟨hchanged, hcontains⟩
  refine ⟨hk.changed.trans (hchanged.mono ?_), ?_⟩
  . rintro q ⟨s, footer, hmem, hq⟩
    rcases mem_finishing.1 hmem with ⟨f, hs, _⟩
    refine ⟨f, hk.opened f s hs, ?_⟩
    rw [hq]
    exact (hk.held hs).1
  . intro f text hmem
    cases hstream : o.stream? f with
    | some s =>
      rcases hk.shown hstream hmem with ⟨_, hplace, hholds⟩
      rw [← hplace]
      exact hcontains s f.footer (mem_finishing.2 ⟨f, hstream, rfl⟩) text hholds
    | none =>
      -- A managed source was complete when it was delivered, and no stream leads to it.
      have hshows := hk.shows f text hmem
      unfold Shows at hshows
      rw [hstream] at hshows
      rcases hshows with ⟨⟨name, hname⟩, hcomplete⟩
      have hfooter : text ++ bytesOf f.footer = text := by
        rw [hname]
        exact List.append_nil text
      rw [hfooter]
      apply hcomplete.changedAt hchanged
      rintro ⟨s, footer, hmem', hplace⟩
      rcases mem_finishing.1 hmem' with ⟨g, hs, _⟩
      rw [(hk.held hs).1] at hplace
      rw [hapart (Ledger.mem_files hmem) (hk.opened g s hs) hplace, hs] at hstream
      simp at hstream

end Outputs

end Interop
