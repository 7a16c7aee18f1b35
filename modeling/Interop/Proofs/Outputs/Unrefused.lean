import Interop.Proofs.Outputs.Session

/-!
This module contains what is left to go wrong where the disk refuses nothing: a configured call
fails only if it is about a managed source with the path of one that was written before it.
-/

namespace Interop

/--
No two of the paths are the same.
-/
def Apart (paths : List Path) : Prop :=
  paths.Pairwise fun p q => p.same q = false

theorem Stream.create_isRefusal {d d' : Disk} {path : Path} {header : String} {e : OutputError}
    (h : create d path header = (.error e, d')) : e.isRefusal = true := by
  have hparent (e : OutputError) (h : create.makeParent d path = .error e)
      : e.isRefusal = true := by
    unfold create.makeParent at h
    split at h
    . split at h
      . cases h
      . split at h
        . cases h
        . rw [← Except.error.inj h]
          rfl
    . cases h
  unfold create at h
  split at h
  . next e' hfailed =>
    rw [← Except.error.inj (Prod.mk.inj h).1]
    exact hparent e' hfailed
  . split at h
    . rw [← Except.error.inj (Prod.mk.inj h).1]
      rfl
    . split at h
      . cases h
      . rw [← Except.error.inj (Prod.mk.inj h).1]
        rfl

namespace Outputs

variable {o o' : Outputs} {e : OutputError}

theorem Ensures.isRefusal {f : OutputFile} (h : o.Ensures f (.error e) o')
    : e.isRefusal = true := by
  rcases h with ⟨path, header, _, _, h⟩
  unfold ensure at h
  split at h
  . cases h
  . split at h
    . cases h
    . next hcreate =>
      rw [Except.error.inj (Prod.mk.inj h).1] at hcreate
      exact Stream.create_isRefusal hcreate

theorem add_isRefusal {s s' : Stream} {d d' : Disk} {text : String}
    (h : add s d text = (.error e, s', d')) : e.isRefusal = true := by
  have hwrite := add_error h
  cases e with
  | write | flush => rfl
  | create | taken | closed | noGlueFile | noProbeFiles => cases hwrite

theorem appendGlue_isRefusal {text : String} (hopen : o.closed = false)
    (hglue : o.options.hasGlue = true) (h : (o.appendGlue text).1 = .error e)
    : e.isRefusal = true := by
  rcases Option.isSome_iff_exists.1 hglue with ⟨path, hpath⟩
  unfold appendGlue at h
  simp only [hopen, hpath, Bool.false_eq_true, if_false] at h
  split at h
  . next hensure =>
    rw [← Except.error.inj h]
    exact Ensures.isRefusal (f := .glue) ⟨path, _, hpath, rfl, hensure⟩
  . exact add_isRefusal (Prod.ext h rfl)

theorem appendProbe_isRefusal {p : Binding.Probe} (hopen : o.closed = false)
    (hprobes : o.options.hasProbes = true) (h : (o.appendProbe p).1 = .error e)
    : e.isRefusal = true := by
  rcases Bool.and_eq_true_iff.1 hprobes with ⟨hc, hcs⟩
  rcases Option.isSome_iff_exists.1 hc with ⟨cPath, hcPath⟩
  rcases Option.isSome_iff_exists.1 hcs with ⟨csPath, hcsPath⟩
  unfold appendProbe at h
  simp only [hopen, hcPath, hcsPath, Bool.false_eq_true, if_false] at h
  split at h
  . next hensure =>
    rw [← Except.error.inj h]
    exact Ensures.isRefusal (f := .probeC) ⟨cPath, _, hcPath, rfl, hensure⟩
  . next c o₁ hensure =>
    have hcsPath : (o₁.withStream .probeC c).options.path? .probeCs = some csPath := by
      rw [← hcsPath, ← ensure_options hensure]
      rfl
    split at h
    . next hensureCs =>
      rw [← Except.error.inj h]
      exact Ensures.isRefusal (f := .probeCs) ⟨csPath, _, hcsPath, rfl, hensureCs⟩
    . split at h
      . next haddC =>
        rw [← Except.error.inj h]
        exact add_isRefusal haddC
      . exact add_isRefusal (Prod.ext h rfl)

theorem writeManaged_unrefused {name source : String} {r : Except OutputError Path}
    (h : o.writeManaged name source = (r, o')) (hr : ∀ e, r = .error e → e.isRefusal = false)
    : r = if o.written.any (·.same (o.managedPath name)) then .error (.taken (o.managedPath name))
          else .ok (o.managedPath name) := by
  have hno {e : OutputError} (he : .error e = r) (hrefusal : e.isRefusal = true) : False :=
    Bool.false_ne_true ((hr e he.symm).symm.trans hrefusal)
  unfold writeManaged at h
  split at h
  . exact (hno (Prod.mk.inj h).1 rfl).elim
  . simp only at h
    split at h
    . next htaken =>
      rw [if_pos htaken]
      exact (Prod.mk.inj h).1.symm
    . next hfree =>
      rw [if_neg hfree]
      split at h
      . exact (hno (Prod.mk.inj h).1 rfl).elim
      . split at h
        . exact (hno (Prod.mk.inj h).1 rfl).elim
        . exact (Prod.mk.inj h).1.symm

/--
What a call does that is about shared files alone: what it enters are their paths.
-/
structure Shares (o o' : Outputs) : Prop extends Onward o o' where
  unclosed : o'.closed = o.closed
  shared : ∀ p ∈ o'.written, p ∈ o.written ∨ ∃ f ∈ sharedFiles, o.options.path? f = some p

theorem Shares.refl : Shares o o :=
  ⟨.refl, rfl, fun _ hp => .inl hp⟩

theorem Shares.trans {o'' : Outputs} (h : Shares o o') (h' : Shares o' o'') : Shares o o'' := by
  refine ⟨h.toOnward.trans h'.toOnward, h'.unclosed.trans h.unclosed, ?_⟩
  intro p hp
  rcases h'.shared p hp with hp | hp
  . exact h.shared p hp
  . rw [h.options] at hp
    exact .inr hp

theorem Shares.of_eq (hoptions : o'.options = o.options) (hwritten : o'.written = o.written)
    (hclosed : o'.closed = o.closed) : Shares o o' := by
  refine ⟨⟨hoptions, ?_, fun h => hclosed.trans h⟩, hclosed, ?_⟩
  . rw [hwritten]
    exact List.Subset.refl _
  . rw [hwritten]
    exact fun p hp => .inl hp

theorem Ensures.shares {f : OutputFile} {r : Except OutputError Stream} (h : o.Ensures f r o')
    (hf : f ∈ sharedFiles) : Shares o o' := by
  have honward := h.onward
  rcases h with ⟨path, header, hpath, _, h⟩
  unfold ensure at h
  split at h
  . rw [← (Prod.mk.inj h).2]
    exact .refl
  . split at h
    . rw [← (Prod.mk.inj h).2] at honward ⊢
      refine ⟨honward, rfl, ?_⟩
      intro p hp
      rcases List.mem_append.1 hp with hp | hp
      . exact .inl hp
      . rw [List.mem_singleton.1 hp]
        exact .inr ⟨f, hf, hpath⟩
    . rw [← (Prod.mk.inj h).2] at honward ⊢
      exact ⟨honward, rfl, fun p hp => .inl hp⟩

theorem appendGlue_shares {text : String} : Shares o (o.appendGlue text).2 := by
  have hglue : .glue ∈ sharedFiles := by simp [sharedFiles]
  have hsteps := appendGlue_steps o text
  generalize o.appendGlue text = result at hsteps
  cases hsteps with
  | refused _ => exact .refl
  | unopened hopen => exact hopen.shares hglue
  | added s o₁ hopen _ => exact (hopen.shares hglue).trans (.of_eq rfl rfl rfl)

theorem appendProbe_shares {p : Binding.Probe} : Shares o (o.appendProbe p).2 := by
  have hprobeC : .probeC ∈ sharedFiles := by simp [sharedFiles]
  have hprobeCs : .probeCs ∈ sharedFiles := by simp [sharedFiles]
  have hsteps := appendProbe_steps o p
  generalize o.appendProbe p = result at hsteps
  cases hsteps with
  | refused _ => exact .refl
  | unopened hopenC => exact hopenC.shares hprobeC
  | halfOpened c o₁ hopenC hopenCs =>
    have hopened : Shares o (o₁.withStream .probeC c) :=
      (hopenC.shares hprobeC).trans (.of_eq rfl rfl rfl)
    exact hopened.trans (hopenCs.shares hprobeCs)
  | halfAdded c cs o₁ o₂ hopenC hopenCs _ | added c cs o₁ o₂ hopenC hopenCs _ _ =>
    have hopened : Shares o (o₁.withStream .probeC c) :=
      (hopenC.shares hprobeC).trans (.of_eq rfl rfl rfl)
    exact (hopened.trans (hopenCs.shares hprobeCs)).trans (.of_eq rfl rfl rfl)

/--
Outputs that are open and have entered the paths of `seen`, all apart, and else only those of shared
files.
-/
structure Listed (options : OutputOptions) (seen : List Path) (o : Outputs) : Prop where
  configured : o.options = options
  unclosed : o.closed = false
  apart : Apart seen
  own : seen ⊆ o.written
  others : ∀ p ∈ o.written, p ∈ seen ∨ ∃ f ∈ sharedFiles, options.path? f = some p

/--
None of the paths is that of a shared file.
-/
def Clear (options : OutputOptions) (paths : List Path) : Prop :=
  ∀ f ∈ sharedFiles, ∀ shared ∈ options.path? f, ∀ p ∈ paths, shared.same p = false

instance (options : OutputOptions) (paths : List Path) : Decidable (Clear options paths) :=
  inferInstanceAs
    (Decidable (∀ f ∈ sharedFiles, ∀ shared ∈ options.path? f, ∀ p ∈ paths, shared.same p = false))

variable {options : OutputOptions} {seen paths more : List Path} {p : Path}
  {e? : Option OutputError}

theorem listed_fresh {d : Disk} : Listed options [] (fresh options d) where
  configured := rfl
  unclosed := rfl
  apart := .nil
  own := List.nil_subset _
  others := by simp [fresh]

theorem Clear.mono (h : Clear options paths) (hsub : more ⊆ paths) : Clear options more :=
  fun f hf shared hshared p hp => h f hf shared hshared p (hsub hp)

theorem Listed.any_same (h : Listed options seen o) (hclear : Clear options [p])
    : o.written.any (·.same p) = seen.any (·.same p) := by
  rw [Bool.eq_iff_iff, List.any_eq_true, List.any_eq_true]
  constructor
  . rintro ⟨q, hq, hsame⟩
    rcases h.others q hq with hq | ⟨f, hf, hshared⟩
    . exact ⟨q, hq, hsame⟩
    . have hother := hclear f hf q hshared p (List.mem_singleton.2 rfl)
      simp [hother] at hsame
  . rintro ⟨q, hq, hsame⟩
    exact ⟨q, h.own hq, hsame⟩

theorem Listed.shares (h : Listed options seen o) (hshares : Shares o o')
    : Listed options seen o' where
  configured := hshares.options.trans h.configured
  unclosed := hshares.unclosed.trans h.unclosed
  apart := h.apart
  own := fun _ hp => hshares.written (h.own hp)
  others p hp := by
    rcases hshares.shared p hp with hp | hp
    . exact h.others p hp
    . rw [h.configured] at hp
      exact .inr hp

theorem Listed.enter (h : Listed options seen o) (hfree : seen.any (·.same p) = false) {d : Disk}
    : Listed options (seen ++ [p]) { o with disk := d, written := o.written ++ [p] } where
  configured := h.configured
  unclosed := h.unclosed
  apart := by
    apply List.pairwise_append.2
    refine ⟨h.apart, List.pairwise_singleton _ _, ?_⟩
    simpa using hfree
  own := by
    rintro q hq
    rcases List.mem_append.1 hq with hq | hq
    . exact List.mem_append_left _ (h.own hq)
    . exact List.mem_append_right _ hq
  others q hq := by
    rcases List.mem_append.1 hq with hq | hq
    . exact (h.others q hq).imp_left (List.mem_append_left _)
    . exact .inl (List.mem_append_right _ hq)

/--
How it ends to enter `paths` after `seen`: all of them are entered, or all before the first that was
there already, which is the error.
-/
inductive Entered (options : OutputOptions) (seen paths : List Path) :
    Option OutputError → Outputs → Prop where
  | all {o : Outputs} (hlisted : Listed options (seen ++ paths) o)
      : Entered options seen paths none o
  | taken {o : Outputs} {before after : List Path} {p : Path}
      (hpaths : paths = before ++ p :: after) (hlisted : Listed options (seen ++ before) o)
      (htaken : ∃ q ∈ seen ++ before, q.same p = true)
      : Entered options seen paths (some (.taken p)) o

theorem Listed.entered (h : Listed options seen o) : Entered options seen [] none o :=
  .all (by rwa [List.append_nil])

theorem Listed.appended {r : Except OutputError Unit} (h : Listed options seen o)
    (hshares : Shares o o') (hcause : ∀ e, r = .error e → e.isRefusal = true)
    (he : ∀ e, e? = some e → r = .error e) (hrefusal : ∀ e ∈ e?, e.isRefusal = false)
    : Entered options seen [] e? o' := by
  cases e? with
  | none => exact (h.shares hshares).entered
  | some e => exact absurd ((hrefusal e rfl).symm.trans (hcause e (he e rfl))) Bool.false_ne_true

theorem Entered.append (h : Entered options seen paths none o)
    (hmore : Listed options (seen ++ paths) o → Entered options (seen ++ paths) more e? o')
    : Entered options seen (paths ++ more) e? o' := by
  rcases h with ⟨hlisted⟩
  cases hmore hlisted with
  | all hlisted =>
    rw [List.append_assoc] at hlisted
    exact .all hlisted
  | taken hpaths hlisted htaken =>
    rw [List.append_assoc] at hlisted htaken
    exact .taken (by rw [hpaths, List.append_assoc]) hlisted htaken

theorem Entered.stop {e : OutputError} (h : Entered options seen paths (some e) o)
    : Entered options seen (paths ++ more) (some e) o := by
  rcases h with _ | ⟨hpaths, hlisted, htaken⟩
  exact .taken (by rw [hpaths, List.append_assoc, List.cons_append]) hlisted htaken

theorem Entered.eq_none_iff (h : Entered options [] paths e? o) : e? = none ↔ Apart paths := by
  cases h with
  | all hlisted => exact ⟨fun _ => hlisted.apart, fun _ => rfl⟩
  | @taken _ before after p hpaths _ htaken =>
    rcases htaken with ⟨q, hq, hsame⟩
    rw [hpaths]
    simp only [reduceCtorEq, false_iff]
    intro hapart
    have hother := (List.pairwise_append.1 hapart).2.2 q hq p List.mem_cons_self
    simp [hother] at hsame

end Outputs

end Interop
