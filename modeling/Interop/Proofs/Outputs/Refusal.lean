import Interop.Proofs.Outputs.Closing

/-!
This module contains what a refused call leaves of outputs: another disk at most, and on it nothing
new but directories, unless a stream could not hand on its bytes.
-/

namespace Interop

open Disk

/--
Whether bytes were not taken by a file that is open.
-/
def OutputError.isWriteFailure : OutputError → Bool
  | write _ | flush _ => true
  | _ => false

variable {d d' : Disk}

theorem Disk.create_none {p : Path} (h : d.create p = (none, d')) : ChangedAt ∅ d d' := by
  unfold create at h
  simp only at h
  split at h
  . rw [← (Prod.mk.inj h).2]
    exact .of_same rfl fun _ => rfl
  . split at h
    . rw [← (Prod.mk.inj h).2]
      exact .of_same rfl fun _ => rfl
    . split at h <;> simp at h

theorem Stream.create_error {path : Path} {header : String} {e : OutputError}
    (h : create d path header = (.error e, d')) (he : e.isWriteFailure = false)
    : ChangedAt ∅ d d' := by
  unfold create at h
  split at h
  . rw [← (Prod.mk.inj h).2]
    exact .refl
  . next d₁ hparent =>
    have hparent := makeParent_ok hparent
    split at h
    . next d₂ hcreate =>
      rw [← (Prod.mk.inj h).2]
      exact hparent.trans (create_none hcreate)
    . split at h
      . simp at h
      . rw [← Except.error.inj (Prod.mk.inj h).1] at he
        simp [OutputError.isWriteFailure] at he

theorem Stream.finish_some {s : Stream} {footer : String} {e : OutputError}
    (h : s.finish d footer = (some e, d')) : e.isWriteFailure = true := by
  unfold finish at h
  split at h
  . rw [← Option.some.inj (Prod.mk.inj h).1]
    rfl
  . split at h
    . rw [← Option.some.inj (Prod.mk.inj h).1]
      rfl
    . simp at h

namespace Outputs

variable {o o' : Outputs} {start : Disk} {l : Ledger} {e : OutputError}

/--
Nothing but the disk is different, and that at `places` only.
-/
structure Moved (places : Set Place) (o o' : Outputs) : Prop where
  same : o' = { o with disk := o'.disk }
  changed : ChangedAt places o.disk o'.disk

namespace Moved

variable {places places' : Set Place}

theorem refl : Moved places o o :=
  ⟨rfl, .refl⟩

theorem mono (h : Moved places o o') (hsub : places ⊆ places') : Moved places' o o' :=
  ⟨h.same, h.changed.mono hsub⟩

theorem options (h : Moved places o o') : o'.options = o.options := by
  rw [h.same]

theorem written (h : Moved places o o') : o'.written = o.written := by
  rw [h.same]

theorem closed (h : Moved places o o') : o'.closed = o.closed := by
  rw [h.same]

theorem stream? (h : Moved places o o') (f : OutputFile) : o'.stream? f = o.stream? f := by
  rw [h.same]
  cases f <;> rfl

theorem withStream {f : OutputFile} {s : Stream} (h : Moved places o o')
    : Moved places (o.withStream f s) (o'.withStream f s) := by
  refine ⟨?_, ?_⟩
  . rw [h.same]
    cases f <;> rfl
  . rw [withStream_disk, withStream_disk]
    exact h.changed

end Moved

/--
Where a managed source lies that was not written yet. To create it and then fail to write to it
leaves it there empty.
-/
def unwritten (o : Outputs) (name : String) : Set Place :=
  {q | o.managedPath name ∉ o.written ∧ q = o.disk.placeOf (o.managedPath name)}

theorem writeManaged_error {name source : String} (h : o.writeManaged name source = (.error e, o'))
    : Moved (o.unwritten name) o o' := by
  unfold writeManaged at h
  split at h
  . rw [← (Prod.mk.inj h).2]
    exact .refl
  . next d₁ hmade =>
    have hmade := makeDirectories_changedAt hmade
    simp only at h
    split at h
    . rw [← (Prod.mk.inj h).2]
      exact ⟨rfl, hmade.mono (Set.empty_subset _)⟩
    . next htaken =>
      split at h
      . next d₂ hcreate =>
        rw [← (Prod.mk.inj h).2]
        exact ⟨rfl, (hmade.trans (create_none hcreate)).mono (Set.empty_subset _)⟩
      . next place d₂ hcreate =>
        rcases create_some hcreate with ⟨hplace, hcreated, _⟩
        rw [hmade.placeOf] at hplace
        split at h
        . next d₃ hwrite =>
          rcases write_false hwrite with ⟨hworking, hentry⟩
          rw [← (Prod.mk.inj h).2]
          have hchanged : ChangedAt {place} o.disk d₃ :=
            ((hmade.mono (Set.empty_subset _)).trans hcreated).trans (.of_same hworking hentry)
          refine ⟨rfl, hchanged.mono ?_⟩
          rintro q hq
          refine ⟨?_, by rw [← hplace]; exact hq⟩
          intro hmem
          apply htaken
          rw [List.any_eq_true]
          exact ⟨_, hmem, same_refl⟩
        . simp at h

theorem writeManaged_of_taken {name : String} (hmem : o.managedPath name ∈ o.written)
    (source : String)
    : (o.writeManaged name source).1 = .error (.taken (o.managedPath name))
      ∨ (o.writeManaged name source).1 = .error (.create o.options.dir) := by
  have htaken : o.written.any (·.same (o.managedPath name)) = true := by
    rw [List.any_eq_true]
    exact ⟨_, hmem, same_refl⟩
  unfold writeManaged
  split
  . exact .inr rfl
  . rw [if_pos htaken]
    exact .inl rfl

theorem Ensures.error {f : OutputFile} (h : o.Ensures f (.error e) o')
    (he : e.isWriteFailure = false) : Moved ∅ o o' := by
  rcases h with ⟨path, header, _, _, h⟩
  unfold ensure at h
  split at h
  . simp at h
  . split at h
    . simp at h
    . next d₁ hcreate =>
      rcases Prod.mk.inj h with ⟨herror, ho⟩
      rw [Except.error.inj herror] at hcreate
      rw [← ho]
      exact ⟨rfl, Stream.create_error hcreate he⟩

theorem add_error {s s' : Stream} {text : String} (h : add s d text = (.error e, s', d'))
    : e.isWriteFailure = true := by
  unfold add at h
  split at h
  . simp at h
  . rw [← Except.error.inj (Prod.mk.inj h).1]
    rfl

theorem appendGlue_error {text : String} (h : o.appendGlue text = (.error e, o'))
    (he : e.isWriteFailure = false) : Moved ∅ o o' := by
  have hsteps := appendGlue_steps o text
  rw [h] at hsteps
  cases hsteps with
  | refused _ => exact .refl
  | unopened hopen => exact hopen.error he
  | added s o₁ _ hadd => simp [add_error hadd] at he

theorem Ensures.configured {f : OutputFile} {r : Except OutputError Stream} (h : o.Ensures f r o')
    : ∃ path, o.options.path? f = some path := by
  rcases h with ⟨path, _, hpath, _⟩
  exact ⟨path, hpath⟩

theorem appendGlue_configured {text : String} (h : o.appendGlue text = (.ok (), o'))
    : ∃ path, o.options.path? .glue = some path := by
  have hsteps := appendGlue_steps o text
  rw [h] at hsteps
  cases hsteps with
  | added s o₁ hopen _ => exact hopen.configured

/--
The native probe file is open, or opened now, and nothing else was done.
-/
def HalfOpened (o o' : Outputs) : Prop :=
  ∃ c o₁, o.Ensures .probeC (.ok c) o₁ ∧ Moved ∅ (o₁.withStream .probeC c) o'

theorem appendProbe_error {p : Binding.Probe} (h : o.appendProbe p = (.error e, o'))
    (he : e.isWriteFailure = false) : Moved ∅ o o' ∨ HalfOpened o o' := by
  have hsteps := appendProbe_steps o p
  rw [h] at hsteps
  cases hsteps with
  | refused _ => exact .inl .refl
  | unopened hopenC => exact .inl (hopenC.error he)
  | halfOpened c o₁ hopenC hopenCs => exact .inr ⟨c, o₁, hopenC, hopenCs.error he⟩
  | halfAdded c cs o₁ o₂ _ _ haddC => simp [add_error haddC] at he
  | added c cs o₁ o₂ _ _ _ haddCs => simp [add_error haddCs] at he

theorem appendProbe_configured {p : Binding.Probe} (h : o.appendProbe p = (.ok (), o'))
    : ∀ f ∈ [OutputFile.probeC, .probeCs], ∃ path, o.options.path? f = some path := by
  have hsteps := appendProbe_steps o p
  rw [h] at hsteps
  cases hsteps with
  | added c cs o₁ o₂ hopenC hopenCs _ _ =>
    rw [List.forall_mem_cons, List.forall_mem_singleton]
    refine ⟨hopenC.configured, ?_⟩
    rw [← hopenC.options]
    exact hopenCs.configured

theorem finishAll_some {streams : List (Option Stream × String)}
    (h : finishAll d streams = (some e, d')) : e.isWriteFailure = true := by
  induction streams generalizing d e with
  | nil => simp [finishAll] at h
  | cons entry rest ih =>
    rcases entry with ⟨_ | s, footer⟩
    . exact ih h
    . unfold finishAll at h
      generalize hfinish : s.finish d footer = result at h
      rcases result with ⟨first?, d₁⟩
      simp only at h
      generalize hrest : finishAll d₁ rest = result at h
      rcases result with ⟨later?, d₂⟩
      simp only at h
      rcases Prod.mk.inj h with ⟨he, hd⟩
      rw [hd] at hrest
      cases first? with
      | none =>
        rw [Option.none_or] at he
        rw [he] at hrest
        exact ih hrest
      | some first =>
        rw [Option.some_or] at he
        rw [he] at hfinish
        exact Stream.finish_some hfinish

theorem close_error (h : o.close = (.error e, o')) : e.isWriteFailure = true := by
  unfold close at h
  split at h
  . simp at h
  . simp only at h
    generalize hfinish : finishAll o.disk _ = result at h
    rcases result with ⟨e?, d⟩
    rcases Prod.mk.inj h with ⟨he, _⟩
    cases e? with
    | none => simp at he
    | some first =>
      rw [show first = e from Except.error.inj he] at hfinish
      exact finishAll_some hfinish

end Outputs

end Interop
