import Interop.Files.Stream
import Interop.Proofs.Files.Disk

/-!
This module contains what a stream stands for: the text of everything that was put into it, some of
it on the disk and the rest still waiting.
-/

namespace Interop.Stream

open Disk

/--
The disk has taken `taken` from the stream.
-/
def Taken (s : Stream) (d : Disk) (taken : Bytes) : Prop :=
  s.offset = taken.length ∧ d.Contains s.place taken

/--
The stream stands for `text`.
-/
def Holds (s : Stream) (d : Disk) (text : Bytes) : Prop :=
  ∃ taken, s.Taken d taken ∧ text = taken ++ s.waiting

/--
The stream is still one to the same file, and nothing else was touched.
-/
structure Continues (s : Stream) (d : Disk) (s' : Stream) (d' : Disk) : Prop where
  path : s'.path = s.path
  place : s'.place = s.place
  changed : ChangedAt {s.place} d d'

/--
The outcome of handing `bytes` to a stream that stands for `text`: it has all of them or none.
-/
def Handled (s : Stream) (d : Disk) (text bytes : Bytes) : Bool × Stream × Disk → Prop
  | (true, s', d') => Continues s d s' d' ∧ s'.Holds d' (text ++ bytes)
  | (false, s', d') => Continues s d s' d' ∧ s'.Holds d' text

variable {s s' : Stream} {d d' d'' : Disk} {text bytes taken : Bytes}

theorem Continues.refl : Continues s d s d :=
  ⟨rfl, rfl, .refl⟩

theorem Continues.trans {s'' : Stream} (h : Continues s d s' d') (h' : Continues s' d' s'' d'')
    : Continues s d s'' d'' := by
  refine ⟨h'.path.trans h.path, h'.place.trans h.place, ?_⟩
  apply h.changed.trans
  rw [← h.place]
  exact h'.changed

theorem pass_continues (s : Stream) (d : Disk) (bytes : Bytes)
    : Continues s d (s.pass d bytes).2.1 (s.pass d bytes).2.2 := by
  unfold pass
  generalize hwrite : d.write s.place s.offset bytes = result
  rcases result with ⟨_ | _, d'⟩
  . rcases write_false hwrite with ⟨hworking, hentry⟩
    exact ⟨rfl, rfl, .of_same hworking hentry⟩
  . exact ⟨rfl, rfl, (write_true hwrite).1⟩

theorem flush_continues (s : Stream) (d : Disk)
    : Continues s d (s.flush d).2.1 (s.flush d).2.2 := by
  have hpass := pass_continues s d s.waiting
  unfold flush
  generalize s.pass d s.waiting = result at hpass ⊢
  rcases result with ⟨_ | _, s', d'⟩
  . exact hpass
  . exact ⟨hpass.path, hpass.place, hpass.changed⟩

theorem keep_continues (s : Stream) (d : Disk) (bytes : Bytes)
    : Continues s d (s.keep d bytes).2.1 (s.keep d bytes).2.2 := by
  unfold keep
  split
  . exact ⟨rfl, rfl, .refl⟩
  . exact pass_continues s d bytes

theorem put_continues (s : Stream) (d : Disk) (bytes : Bytes)
    : Continues s d (s.put d bytes).2.1 (s.put d bytes).2.2 := by
  unfold put
  split
  . exact keep_continues s d bytes
  . have hflush := flush_continues s d
    generalize s.flush d = result at hflush ⊢
    rcases result with ⟨_ | _, s', d'⟩
    . exact hflush
    . exact hflush.trans (keep_continues s' d' bytes)

theorem drop_changedAt (s : Stream) (d : Disk) : ChangedAt {s.place} d (s.drop d) :=
  (flush_continues s d).changed

theorem Holds.congr (h : s.Holds d text) (hentry : d'.entry? s.place = d.entry? s.place)
    : s.Holds d' text := by
  rcases h with ⟨taken, ⟨hoffset, hcontains⟩, htext⟩
  exact ⟨taken, ⟨hoffset, hcontains.congr hentry⟩, htext⟩

theorem Holds.changedAt {places : Set Place} (h : s.Holds d text) (hchanged : ChangedAt places d d')
    (hplace : s.place ∉ places) : s.Holds d' text := by
  rcases h with ⟨taken, ⟨hoffset, hcontains⟩, htext⟩
  exact ⟨taken, ⟨hoffset, hcontains.changedAt hchanged hplace⟩, htext⟩

theorem pass_true (htaken : s.Taken d taken) (h : s.pass d bytes = (true, s', d'))
    : Continues s d s' d' ∧ s'.waiting = s.waiting ∧ s'.Taken d' (taken ++ bytes) := by
  unfold pass at h
  split at h
  . next d₁ hwrite =>
    rcases Prod.mk.inj h with ⟨_, hrest⟩
    rcases Prod.mk.inj hrest with ⟨rfl, rfl⟩
    rcases htaken with ⟨hoffset, hcontains⟩
    rw [hoffset] at hwrite
    refine ⟨⟨rfl, rfl, (write_true hwrite).1⟩, rfl, ?_, hcontains.write_true hwrite⟩
    simp [hoffset]
  . simp at h

theorem pass_false (h : s.pass d bytes = (false, s', d'))
    : s' = s ∧ d'.working = d.working ∧ ∀ q, d'.entry? q = d.entry? q := by
  unfold pass at h
  split at h
  . simp at h
  . next hwrite =>
    rcases Prod.mk.inj h with ⟨_, hrest⟩
    rcases Prod.mk.inj hrest with ⟨rfl, rfl⟩
    exact ⟨rfl, write_false hwrite⟩

theorem handled_of_pass_false (hs : s.Holds d text) (h : s.pass d bytes = (false, s', d'))
    : Continues s d s' d' ∧ s'.Holds d' text := by
  rcases pass_false h with ⟨rfl, hworking, hentry⟩
  exact ⟨⟨rfl, rfl, .of_same hworking hentry⟩, hs.congr (hentry _)⟩

theorem flush_handled (hs : s.Holds d text) : Handled s d text [] (s.flush d) := by
  unfold flush
  generalize hpass : s.pass d s.waiting = result
  rcases result with ⟨_ | _, s', d'⟩
  . exact handled_of_pass_false hs hpass
  . rcases hs with ⟨taken, htaken, rfl⟩
    rcases pass_true htaken hpass with ⟨hcontinues, _, htaken'⟩
    refine ⟨⟨hcontinues.path, hcontinues.place, hcontinues.changed⟩, _, htaken', ?_⟩
    simp

theorem flush_waiting (h : s.flush d = (true, s', d')) : s'.waiting = [] := by
  unfold flush at h
  split at h
  . rcases Prod.mk.inj h with ⟨_, hrest⟩
    rw [← (Prod.mk.inj hrest).1]
  . simp at h

-- Bytes that do not wait are handed on at once, and nothing may wait before them then.
theorem keep_handled (bytes : Bytes) (hs : s.Holds d text)
    (hroom : bytes.length < capacity ∨ s.waiting = [])
    : Handled s d text bytes (s.keep d bytes) := by
  unfold keep
  split
  . rcases hs with ⟨taken, htaken, rfl⟩
    refine ⟨⟨rfl, rfl, .refl⟩, taken, htaken, ?_⟩
    rw [List.append_assoc]
  . next hlong =>
    have hwaiting := hroom.resolve_left hlong
    generalize hpass : s.pass d bytes = result
    rcases result with ⟨_ | _, s', d'⟩
    . exact handled_of_pass_false hs hpass
    . rcases hs with ⟨taken, htaken, rfl⟩
      rcases pass_true htaken hpass with ⟨hcontinues, hkept, htaken'⟩
      refine ⟨hcontinues, _, htaken', ?_⟩
      rw [hkept, hwaiting]
      simp

theorem put_handled (bytes : Bytes) (hs : s.Holds d text)
    : Handled s d text bytes (s.put d bytes) := by
  unfold put
  split
  . next hfits =>
    apply keep_handled bytes hs
    by_cases hshort : bytes.length < capacity
    . exact .inl hshort
    . refine .inr (List.length_eq_zero_iff.1 ?_)
      omega
  . have hflush := flush_handled hs
    generalize hresult : s.flush d = result at hflush ⊢
    rcases result with ⟨_ | _, s₁, d₁⟩
    . exact hflush
    . rcases hflush with ⟨hcontinues, hholds⟩
      rw [List.append_nil] at hholds
      have hkeep := keep_handled bytes hholds (.inr (flush_waiting hresult))
      simp only
      generalize s₁.keep d₁ bytes = result at hkeep ⊢
      rcases result with ⟨_ | _, s₂, d₂⟩
      . exact ⟨hcontinues.trans hkeep.1, hkeep.2⟩
      . exact ⟨hcontinues.trans hkeep.1, hkeep.2⟩

theorem drop_of_waiting (h : s.waiting = []) : s.drop d = d := by
  unfold drop flush pass Disk.write
  simp [h]

theorem Holds.contains (hs : s.Holds d text) (hwaiting : s.waiting = [])
    : d.Contains s.place text := by
  rcases hs with ⟨taken, ⟨_, hcontains⟩, rfl⟩
  rwa [hwaiting, List.append_nil]

end Interop.Stream
