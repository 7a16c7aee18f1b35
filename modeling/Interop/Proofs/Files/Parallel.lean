import Interop.Files.Stream
import Interop.Proofs.Files.Disk

/-!
This module contains what becomes of two disks that differ only in what some of their files hold,
while the same is done to both of them: they give the same answers, and get the same contents.
-/

namespace Interop

namespace Disk

/--
There is a file at the place, which holds what it held at the start.
-/
def Untouched (start d : Disk) (q : Place) : Prop :=
  ∃ content, start.entry? q = some (.file content) ∧ d.entry? q = some (.file content)

/--
The disks hold the same, apart from files that have been touched on neither of them since the start.
At the places `agreed` there are no such files.
-/
structure Parallel (agreed : Set Place) (start start' d d' : Disk) : Prop where
  working : d'.working = d.working
  refusedCreations : d'.refusedCreations = d.refusedCreations
  refusedWrites : d'.refusedWrites = d.refusedWrites
  entry : ∀ q, d'.entry? q = d.entry? q
    ∨ q ∉ agreed ∧ Untouched start d q ∧ Untouched start' d' q

variable {agreed agreed' : Set Place} {start start' d d' : Disk} {place q : Place}

theorem Parallel.refl : Parallel agreed start start d d :=
  ⟨rfl, rfl, rfl, fun _ => .inl rfl⟩

/--
To overwrite a file is to make disks that go on in parallel.
-/
theorem parallel_set {content content' : Bytes} (h : d.entry? place = some (.file content))
    : Parallel ∅ d (d.set place (.file content')) d (d.set place (.file content')) := by
  have hplace : place ≠ [] := by
    apply ne_nil_of_entry (d := d)
    simp [h]
  refine ⟨rfl, rfl, rfl, ?_⟩
  intro q
  by_cases hq : q = place
  . have hset : entry? (d.set place (.file content')) q = some (.file content') := by
      rw [entry?_set hplace, if_pos hq]
    exact .inr ⟨Set.notMem_empty q, ⟨content, hq ▸ h, hq ▸ h⟩, ⟨content', hset, hset⟩⟩
  . rw [entry?_set hplace, if_neg hq]
    exact .inl rfl

namespace Parallel

theorem mono (h : Parallel agreed start start' d d') (hsub : agreed' ⊆ agreed)
    : Parallel agreed' start start' d d' where
  working := h.working
  refusedCreations := h.refusedCreations
  refusedWrites := h.refusedWrites
  entry q := by
    rcases h.entry q with hsame | ⟨hq, hrest⟩
    . exact .inl hsame
    . exact .inr ⟨fun hmem => hq (hsub hmem), hrest⟩

theorem agree (h : Parallel agreed start start' d d') (hq : q ∈ agreed)
    : d'.entry? q = d.entry? q :=
  (h.entry q).resolve_right fun hrest => hrest.1 hq

theorem insert_of_agree (h : Parallel agreed start start' d d')
    (hplace : d'.entry? place = d.entry? place)
    : Parallel (insert place agreed) start start' d d' where
  working := h.working
  refusedCreations := h.refusedCreations
  refusedWrites := h.refusedWrites
  entry q := by
    rcases h.entry q with hsame | ⟨hq, hrest⟩
    . exact .inl hsame
    . by_cases heq : q = place
      . exact .inl (heq ▸ hplace)
      . exact .inr ⟨by simp [heq, hq], hrest⟩

theorem set {e : Entry} (h : Parallel agreed start start' d d') (hplace : place ≠ [])
    : Parallel (insert place agreed) start start' (d.set place e) (d'.set place e) where
  working := h.working
  refusedCreations := h.refusedCreations
  refusedWrites := h.refusedWrites
  entry q := by
    unfold Untouched
    rw [entry?_set hplace, entry?_set hplace]
    by_cases hq : q = place
    . rw [if_pos hq, if_pos hq]
      exact .inl rfl
    . simp only [Set.mem_insert_iff, hq, false_or]
      exact h.entry q

variable (h : Parallel agreed start start' d d')

include h

/--
What there is at a place differs at most in the content of a file.
-/
theorem cases (q : Place)
    : d'.entry? q = d.entry? q
      ∨ ∃ content content', d.entry? q = some (.file content)
          ∧ d'.entry? q = some (.file content') := by
  rcases h.entry q with hsame | ⟨_, ⟨content, _, hd⟩, ⟨content', _, hd'⟩⟩
  . exact .inl hsame
  . exact .inr ⟨content, content', hd, hd'⟩

theorem enter (place : Place) (steps : List String)
    : d'.enter place steps = d.enter place steps := by
  induction steps generalizing place with
  | nil => rfl
  | cons step steps ih =>
    unfold Disk.enter
    rw [ih, ih, ih]
    rcases h.cases (step :: place) with hsame | ⟨_, _, hd, hd'⟩
    . rw [hsame]
    . rw [hd, hd']

theorem startOf (p : Path) : d'.start p = d.start p := by
  unfold Disk.start
  rw [h.working]

theorem holder (p : Path) : d'.holder p = d.holder p := by
  unfold Disk.holder
  simp only [h.startOf, h.enter]

theorem isDirectory (p : Path) : d'.isDirectory p = d.isDirectory p := by
  unfold Disk.isDirectory lookup
  simp only [h.startOf, h.enter, h.holder]
  split
  . rfl
  . split
    . rfl
    . split
      . next place name _ =>
        rcases h.cases (name :: place) with hsame | ⟨_, _, hd, hd'⟩
        . rw [hsame]
        . rw [hd, hd']
          rfl
      . rfl

theorem target? (p : Path) : d'.target? p = d.target? p := by
  unfold Disk.target?
  rw [h.holder]
  split
  . rfl
  . split
    . rfl
    . next place name _ =>
      rcases h.cases (name :: place) with hsame | ⟨_, _, hd, hd'⟩
      . rw [hsame]
      . rw [hd, hd']

theorem makeDirectory (p : Path)
    : (∃ e, d.makeDirectory p = .error e ∧ d'.makeDirectory p = .error e)
      ∨ ∃ made made', d.makeDirectory p = .ok made ∧ d'.makeDirectory p = .ok made'
          ∧ Parallel agreed start start' made made' := by
  unfold Disk.makeDirectory
  rw [h.holder]
  split
  . next e _ => exact .inl ⟨e, rfl, rfl⟩
  . next place name _ =>
    split
    . exact .inl ⟨_, rfl, rfl⟩
    . rcases h.cases (name :: place) with hsame | ⟨_, _, hd, hd'⟩
      . rw [hsame]
        split
        . exact .inl ⟨_, rfl, rfl⟩
        . exact .inr ⟨_, _, rfl, rfl, (h.set (by simp)).mono (Set.subset_insert _ _)⟩
      . rw [hd, hd']
        exact .inl ⟨_, rfl, rfl⟩

omit h in
theorem makeFirst (h : Parallel agreed start start' d d') (ps : List Path)
    : (d.makeFirst ps = none ∧ d'.makeFirst ps = none)
      ∨ ∃ made made', d.makeFirst ps = some made ∧ d'.makeFirst ps = some made'
          ∧ Parallel agreed start start' made made' := by
  -- A directory that could not be made may still be there, which is looked for on both disks.
  have hlook {d d' : Disk} (h : Parallel agreed start start' d d') (p : Path)
      : ((if d.isDirectory p then some d else none) = none
          ∧ (if d'.isDirectory p then some d' else none) = none)
        ∨ ∃ made made', (if d.isDirectory p then some d else none) = some made
          ∧ (if d'.isDirectory p then some d' else none) = some made'
          ∧ Parallel agreed start start' made made' := by
    rw [h.isDirectory]
    split
    . exact .inr ⟨d, d', rfl, rfl, h⟩
    . exact .inl ⟨rfl, rfl⟩
  induction ps with
  | nil => exact .inl ⟨rfl, rfl⟩
  | cons p above ih =>
    unfold Disk.makeFirst
    split
    . exact .inr ⟨d, d', rfl, rfl, h⟩
    . rcases h.makeDirectory p with ⟨e, hd, hd'⟩ | ⟨made, made', hd, hd', hmade⟩
      . rw [hd, hd']
        cases e with
        | other => exact hlook h p
        | missing =>
          rcases ih with ⟨habove, habove'⟩ | ⟨above₁, above₁', habove, habove', hmade⟩
          . rw [habove, habove']
            exact .inl ⟨rfl, rfl⟩
          . rw [habove, habove']
            dsimp only
            rcases hmade.makeDirectory p with ⟨e, hd, hd'⟩ | ⟨made, made', hd, hd', hmade'⟩
            . rw [hd, hd']
              exact hlook hmade p
            . rw [hd, hd']
              exact .inr ⟨made, made', rfl, rfl, hmade'⟩
      . rw [hd, hd']
        exact .inr ⟨made, made', rfl, rfl, hmade⟩

theorem makeDirectories (p : Path)
    : (d.makeDirectories p = none ∧ d'.makeDirectories p = none)
      ∨ ∃ made made', d.makeDirectories p = some made ∧ d'.makeDirectories p = some made'
          ∧ Parallel agreed start start' made made' :=
  h.makeFirst _

/--
What was created holds the same on both disks from then on.
-/
theorem create (p : Path)
    : (∃ e e', d.create p = (none, e) ∧ d'.create p = (none, e')
          ∧ Parallel agreed start start' e e')
      ∨ ∃ place e e', d.create p = (some place, e) ∧ d'.create p = (some place, e')
          ∧ Parallel (insert place agreed) start start' e e' := by
  have hafter : Parallel agreed start start'
      { d with refusedCreations := d.refusedCreations.tail }
      { d' with refusedCreations := d'.refusedCreations.tail } :=
    ⟨h.working, congrArg List.tail h.refusedCreations, h.refusedWrites, h.entry⟩
  unfold Disk.create
  rw [h.refusedCreations] at hafter ⊢
  rw [h.target?]
  dsimp only
  split
  . exact .inl ⟨_, _, rfl, rfl, hafter⟩
  . split
    . exact .inl ⟨_, _, rfl, rfl, hafter⟩
    . next place htarget =>
      have hne := ne_nil_of_entry (target?_eq_placeOf htarget).2
      right
      rcases h.cases place with hsame | ⟨_, _, hd, hd'⟩
      . rw [hsame]
        split
        . exact ⟨_, _, _, rfl, rfl, hafter.insert_of_agree hsame⟩
        . exact ⟨_, _, _, rfl, rfl, hafter.set hne⟩
      . rw [hd, hd']
        exact ⟨_, _, _, rfl, rfl, hafter.set hne⟩

theorem write (hplace : place ∈ agreed) (offset : Nat) (bytes : Bytes)
    : ∃ taken e e', d.write place offset bytes = (taken, e)
      ∧ d'.write place offset bytes = (taken, e') ∧ Parallel agreed start start' e e' := by
  have hafter : Parallel agreed start start'
      { d with refusedWrites := d.refusedWrites.tail }
      { d' with refusedWrites := d'.refusedWrites.tail } :=
    ⟨h.working, h.refusedCreations, congrArg List.tail h.refusedWrites, h.entry⟩
  unfold Disk.write
  rw [h.refusedWrites] at hafter ⊢
  rw [h.agree hplace]
  dsimp only
  split
  . exact ⟨true, d, d', rfl, rfl, h⟩
  . split
    . exact ⟨false, _, _, rfl, rfl, hafter⟩
    . split
      . next content hentry =>
        have hne : place ≠ [] := by
          apply ne_nil_of_entry (d := d)
          simp [hentry]
        exact ⟨true, _, _, rfl, rfl, (hafter.set hne).mono (Set.subset_insert _ _)⟩
      . exact ⟨false, _, _, rfl, rfl, hafter⟩

end Parallel

end Disk

open Disk

namespace Stream

variable {agreed : Set Place} {start start' d d' : Disk} {s : Stream}

/--
Doing something with the stream gives the same on both disks. It remains a stream to the same place.
-/
def InParallel (agreed : Set Place) (start start' : Disk) (s : Stream)
    (result result' : Bool × Stream × Disk) : Prop :=
  ∃ taken s₁ e e', result = (taken, s₁, e) ∧ result' = (taken, s₁, e') ∧ s₁.place = s.place
    ∧ Parallel agreed start start' e e'

variable (h : Parallel agreed start start' d d') (hs : s.place ∈ agreed)

include h hs

theorem pass_parallel (bytes : Bytes)
    : InParallel agreed start start' s (s.pass d bytes) (s.pass d' bytes) := by
  rcases h.write hs s.offset bytes with ⟨taken, e, e', hd, hd', he⟩
  unfold pass
  rw [hd, hd']
  cases taken with
  | true => exact ⟨_, _, _, _, rfl, rfl, rfl, he⟩
  | false => exact ⟨_, _, _, _, rfl, rfl, rfl, he⟩

theorem flush_parallel : InParallel agreed start start' s (s.flush d) (s.flush d') := by
  rcases pass_parallel h hs s.waiting with ⟨taken, s₁, e, e', hd, hd', hplace, he⟩
  unfold flush
  rw [hd, hd']
  cases taken with
  | true => exact ⟨_, _, _, _, rfl, rfl, hplace, he⟩
  | false => exact ⟨_, _, _, _, rfl, rfl, hplace, he⟩

theorem keep_parallel (bytes : Bytes)
    : InParallel agreed start start' s (s.keep d bytes) (s.keep d' bytes) := by
  unfold keep
  split
  . exact ⟨_, _, _, _, rfl, rfl, rfl, h⟩
  . exact pass_parallel h hs bytes

theorem put_parallel (bytes : Bytes)
    : InParallel agreed start start' s (s.put d bytes) (s.put d' bytes) := by
  unfold put
  split
  . exact keep_parallel h hs bytes
  . rcases flush_parallel h hs with ⟨taken, s₁, e, e', hd, hd', hplace, he⟩
    rw [hd, hd']
    cases taken with
    | true =>
      rcases keep_parallel he (hplace ▸ hs) bytes with ⟨taken, s₂, e₂, e₂', hd, hd', hplace₂, he₂⟩
      exact ⟨taken, s₂, e₂, e₂', hd, hd', hplace₂.trans hplace, he₂⟩
    | false => exact ⟨_, _, _, _, rfl, rfl, hplace, he⟩

theorem drop_parallel : Parallel agreed start start' (s.drop d) (s.drop d') := by
  rcases flush_parallel h hs with ⟨taken, s₁, e, e', hd, hd', _, he⟩
  unfold drop
  rw [hd, hd']
  exact he

end Stream

end Interop
