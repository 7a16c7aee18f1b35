import Interop.Proofs.Files.Stream

/-!
This module contains disks that take what is written to a place, whatever else they refuse: no
operation changes that, and streams to such a place hand on all of their bytes.
-/

namespace Interop

namespace Disk

/--
The disk refuses no write, and what is at the place is no device that does.
-/
structure Takes (d : Disk) (place : Place) : Prop where
  writes : true ∉ d.refusedWrites
  device : d.entry? place ≠ some .fullDevice

/--
No write is refused that was not before, and no place has become a device.
-/
structure NoWorse (d d' : Disk) : Prop where
  writes : d'.refusedWrites ⊆ d.refusedWrites
  devices : ∀ q, d'.entry? q = some .fullDevice → d.entry? q = some .fullDevice

variable {d d' d'' : Disk} {place : Place} {p : Path}

theorem Takes.noWorse (h : d.Takes place) (hd : NoWorse d d') : d'.Takes place :=
  ⟨fun hmem => h.writes (hd.writes hmem), fun hentry => h.device (hd.devices place hentry)⟩

theorem Takes.file {text : Bytes} (h : d.Takes place) (hcontains : d.Contains place text)
    : d.entry? place = some (.file text) := by
  rcases hcontains with hfile | ⟨_, hdevice⟩
  . exact hfile
  . exact absurd hdevice h.device

namespace NoWorse

theorem refl : NoWorse d d :=
  ⟨List.Subset.refl _, fun _ h => h⟩

theorem trans (h : NoWorse d d') (h' : NoWorse d' d'') : NoWorse d d'' :=
  ⟨List.Subset.trans h'.writes h.writes, fun q hq => h.devices q (h'.devices q hq)⟩

theorem set {e : Entry} (hplace : place ≠ []) (he : e ≠ .fullDevice)
    : NoWorse d (d.set place e) := by
  refine ⟨List.Subset.refl _, ?_⟩
  intro q hq
  rw [entry?_set hplace] at hq
  split at hq
  . exact absurd (Option.some.inj hq) he
  . exact hq

end NoWorse

theorem makeDirectory_noWorse (h : d.makeDirectory p = .ok d') : NoWorse d d' := by
  unfold makeDirectory at h
  split at h
  . simp at h
  . split at h
    . simp at h
    . split at h
      . simp at h
      . rw [← Except.ok.inj h]
        exact .set (List.cons_ne_nil _ _) (by simp)

theorem makeFirst_noWorse {ps : List Path} (h : d.makeFirst ps = some d') : NoWorse d d' := by
  induction ps generalizing d' with
  | nil => simp [makeFirst] at h
  | cons p above ih =>
    unfold makeFirst at h
    split at h
    . rw [← Option.some.inj h]
      exact .refl
    . split at h
      . next d₁ hmade =>
        rw [← Option.some.inj h]
        exact makeDirectory_noWorse hmade
      . split at h
        . rw [← Option.some.inj h]
          exact .refl
        . simp at h
      . split at h
        . simp at h
        . next d₁ habove =>
          split at h
          . next d₂ hmade =>
            rw [← Option.some.inj h]
            exact (ih habove).trans (makeDirectory_noWorse hmade)
          . split at h
            . rw [← Option.some.inj h]
              exact ih habove
            . simp at h

theorem makeDirectories_noWorse (h : d.makeDirectories p = some d') : NoWorse d d' :=
  makeFirst_noWorse h

theorem create_noWorse : NoWorse d (d.create p).2 := by
  have hafter : NoWorse d { d with refusedCreations := d.refusedCreations.tail } :=
    ⟨List.Subset.refl _, fun _ h => h⟩
  unfold create
  simp only
  split
  . exact hafter
  . split
    . exact hafter
    . next htarget =>
      split
      . exact hafter
      . apply hafter.trans
        exact .set (ne_nil_of_entry (target?_eq_placeOf htarget).2) (by simp)

theorem write_noWorse (d : Disk) (place : Place) (offset : Nat) (bytes : Bytes)
    : NoWorse d (d.write place offset bytes).2 := by
  have hafter : NoWorse d { d with refusedWrites := d.refusedWrites.tail } :=
    ⟨fun _ => List.mem_of_mem_tail, fun _ h => h⟩
  unfold write
  split
  . exact .refl
  . simp only
    split
    . exact hafter
    . split
      . next content hcontent =>
        apply hafter.trans
        refine .set (ne_nil_of_entry (d := d) ?_) (by simp)
        simp [hcontent]
      . exact hafter

theorem write_taken {text : Bytes} (h : d.Takes place) (hcontains : d.Contains place text)
    (offset : Nat) (bytes : Bytes) : (d.write place offset bytes).1 = true := by
  unfold write
  split
  . rfl
  . simp only
    split
    . next hrefused =>
      exact absurd (List.mem_of_mem_head? hrefused) h.writes
    . rw [h.file hcontains]

end Disk

namespace Stream

open Disk

variable {s : Stream} {d : Disk} {text taken : Bytes}

theorem pass_noWorse (s : Stream) (d : Disk) (bytes : Bytes) : NoWorse d (s.pass d bytes).2.2 := by
  have hwrite := write_noWorse d s.place s.offset bytes
  unfold pass
  generalize d.write s.place s.offset bytes = result at hwrite
  rcases result with ⟨_ | _, d₁⟩ <;> exact hwrite

theorem flush_noWorse (s : Stream) (d : Disk) : NoWorse d (s.flush d).2.2 := by
  have hpass := pass_noWorse s d s.waiting
  unfold flush
  generalize s.pass d s.waiting = result at hpass
  rcases result with ⟨_ | _, s₁, d₁⟩ <;> exact hpass

theorem keep_noWorse (s : Stream) (d : Disk) (bytes : Bytes) : NoWorse d (s.keep d bytes).2.2 := by
  unfold keep
  split
  . exact .refl
  . exact pass_noWorse s d bytes

theorem put_noWorse (s : Stream) (d : Disk) (bytes : Bytes) : NoWorse d (s.put d bytes).2.2 := by
  unfold put
  split
  . exact keep_noWorse s d bytes
  . have hflush := flush_noWorse s d
    generalize s.flush d = result at hflush
    rcases result with ⟨_ | _, s₁, d₁⟩
    . exact hflush
    . exact hflush.trans (keep_noWorse s₁ d₁ bytes)

theorem pass_taken (h : d.Takes s.place) (htaken : s.Taken d taken)
    (bytes : Bytes) : (s.pass d bytes).1 = true := by
  have hwrite := write_taken h htaken.2 s.offset bytes
  unfold pass
  generalize d.write s.place s.offset bytes = result at hwrite
  rcases result with ⟨_ | _, d₁⟩
  . simp at hwrite
  . rfl

theorem flush_taken (h : d.Takes s.place) (hs : s.Holds d text) : (s.flush d).1 = true := by
  rcases hs with ⟨taken, htaken, _⟩
  have hpass := pass_taken h htaken s.waiting
  unfold flush
  generalize s.pass d s.waiting = result at hpass
  rcases result with ⟨_ | _, s₁, d₁⟩
  . simp at hpass
  . rfl

theorem keep_taken (h : d.Takes s.place) (hs : s.Holds d text) (bytes : Bytes)
    : (s.keep d bytes).1 = true := by
  rcases hs with ⟨taken, htaken, _⟩
  unfold keep
  split
  . rfl
  . exact pass_taken h htaken bytes

theorem put_taken (h : d.Takes s.place) (hs : s.Holds d text) (bytes : Bytes)
    : (s.put d bytes).1 = true := by
  unfold put
  split
  . exact keep_taken h hs bytes
  . have hflushed := flush_taken h hs
    have hhandled := flush_handled hs
    have hnoWorse := flush_noWorse s d
    generalize s.flush d = result at hflushed hhandled hnoWorse
    rcases result with ⟨_ | _, s₁, d₁⟩
    . simp at hflushed
    . rcases hhandled with ⟨hcontinues, hholds⟩
      refine keep_taken ?_ hholds bytes
      rw [hcontinues.place]
      exact h.noWorse hnoWorse

end Stream

end Interop
