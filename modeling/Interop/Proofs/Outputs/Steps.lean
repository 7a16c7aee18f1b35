import Interop.Proofs.Outputs.Ledger

/-!
This module contains what happens in a call that appends to shared files, step by step: how far it
got, and what it leaves. Everything else about such calls goes through it.
-/

namespace Interop

namespace Outputs

variable {o o' : Outputs}

/--
To open a shared file, unless it is open, gives `r` and leaves `o'`.
-/
def Ensures (o : Outputs) (f : OutputFile) (r : Except OutputError Stream) (o' : Outputs) : Prop :=
  ∃ path header, o.options.path? f = some path ∧ bytesOf header = o.options.header f
    ∧ o.ensure (o.stream? f) path header = (r, o')

theorem ensure_options {stream? : Option Stream} {path : Path} {header : String}
    {r : Except OutputError Stream} (h : o.ensure stream? path header = (r, o'))
    : o'.options = o.options := by
  unfold ensure at h
  split at h
  . rw [← (Prod.mk.inj h).2]
  . split at h <;> rw [← (Prod.mk.inj h).2]

theorem Ensures.options {f : OutputFile} {r : Except OutputError Stream} (h : o.Ensures f r o')
    : o'.options = o.options := by
  rcases h with ⟨_, _, _, _, hensure⟩
  exact ensure_options hensure

/--
The steps of an append to the glue file, by the answer and the outputs that it gives.
-/
inductive GlueSteps (o : Outputs) (text : String) : Except OutputError Unit × Outputs → Prop where
  | refused {e : OutputError} (he : e = .closed ∨ e = .noGlueFile) : GlueSteps o text (.error e, o)
  | unopened {e : OutputError} {o₁ : Outputs} (hopen : o.Ensures .glue (.error e) o₁)
      : GlueSteps o text (.error e, o₁)
  | added (s : Stream) (o₁ : Outputs) {s' : Stream} {r : Except OutputError Unit} {d : Disk}
      (hopen : o.Ensures .glue (.ok s) o₁) (hadd : add s o₁.disk text = (r, s', d))
      : GlueSteps o text (r, withStream { o₁ with disk := d } .glue s')

theorem appendGlue_steps (o : Outputs) (text : String) : GlueSteps o text (o.appendGlue text) := by
  unfold appendGlue
  split
  . exact .refused (.inl rfl)
  . split
    . exact .refused (.inr rfl)
    . next path hpath =>
      split
      . next hensure => exact .unopened ⟨path, _, hpath, rfl, hensure⟩
      . next s o₁ hensure => exact .added s o₁ ⟨path, _, hpath, rfl, hensure⟩ rfl

/--
The steps of an append to the probe files, by the answer and the outputs that it gives.
-/
inductive ProbeSteps (o : Outputs) (p : Binding.Probe) :
    Except OutputError Unit × Outputs → Prop where
  | refused {e : OutputError} (he : e = .closed ∨ e = .noProbeFiles) : ProbeSteps o p (.error e, o)
  | unopened {e : OutputError} {o₁ : Outputs} (hopenC : o.Ensures .probeC (.error e) o₁)
      : ProbeSteps o p (.error e, o₁)
  | halfOpened (c : Stream) (o₁ : Outputs) {e : OutputError} {o₂ : Outputs}
      (hopenC : o.Ensures .probeC (.ok c) o₁)
      (hopenCs : (o₁.withStream .probeC c).Ensures .probeCs (.error e) o₂)
      : ProbeSteps o p (.error e, o₂)
  | halfAdded (c cs : Stream) (o₁ o₂ : Outputs) {c' : Stream} {e : OutputError} {d : Disk}
      (hopenC : o.Ensures .probeC (.ok c) o₁)
      (hopenCs : (o₁.withStream .probeC c).Ensures .probeCs (.ok cs) o₂)
      (haddC : add c o₂.disk p.c = (.error e, c', d))
      : ProbeSteps o p
          (.error e, withStream { o₂.withStream .probeCs cs with disk := d } .probeC c')
  | added (c cs : Stream) (o₁ o₂ : Outputs) {c' cs' : Stream} {r : Except OutputError Unit}
      {d d' : Disk} (hopenC : o.Ensures .probeC (.ok c) o₁)
      (hopenCs : (o₁.withStream .probeC c).Ensures .probeCs (.ok cs) o₂)
      (haddC : add c o₂.disk p.c = (.ok (), c', d)) (haddCs : add cs d p.cs = (r, cs', d'))
      : ProbeSteps o p
          (r, withStream (withStream { o₂ with disk := d' } .probeC c') .probeCs cs')

theorem appendProbe_steps (o : Outputs) (p : Binding.Probe)
    : ProbeSteps o p (o.appendProbe p) := by
  unfold appendProbe
  split
  . exact .refused (.inl rfl)
  . split
    . next cPath csPath hcPath hcsPath =>
      split
      . next hc => exact .unopened ⟨cPath, _, hcPath, rfl, hc⟩
      . next c o₁ hc =>
        have hopenC : o.Ensures .probeC (.ok c) o₁ := ⟨cPath, _, hcPath, rfl, hc⟩
        have hcsPath : (o₁.withStream .probeC c).options.path? .probeCs = some csPath := by
          rw [← hcsPath, ← ensure_options hc]
          rfl
        simp only
        split
        . next hcs => exact .halfOpened c o₁ hopenC ⟨csPath, _, hcsPath, rfl, hcs⟩
        . next cs o₂ hcs =>
          have hopenCs : (o₁.withStream .probeC c).Ensures .probeCs (.ok cs) o₂ :=
            ⟨csPath, _, hcsPath, rfl, hcs⟩
          split
          . next haddC => exact .halfAdded c cs o₁ o₂ hopenC hopenCs haddC
          . next haddC => exact .added c cs o₁ o₂ hopenC hopenCs haddC rfl
    . exact .refused (.inr rfl)

end Outputs

end Interop
