import Interop.Files.Disk
import Mathlib.Data.Set.Insert

/-!
This module contains what the operations on a disk change: an operation on one file leaves
everything else as it was, and to make a directory only adds directories.
-/

namespace Interop.Disk

variable {d d' d'' : Disk} {p : Path} {place q : Place}

theorem entry?_root : d.entry? [] = some .directory := by
  rfl

theorem ne_nil_of_entry (h : d.entry? place ≠ some .directory) : place ≠ [] := by
  rintro rfl
  exact h entry?_root

theorem entry?_set {e : Entry} (hplace : place ≠ [])
    : entry? (d.set place e) q = if q = place then some e else d.entry? q := by
  by_cases hq : q = place
  . rw [if_pos hq, hq]
    simp [set, entry?, hplace]
  . rw [if_neg hq]
    unfold entry? set
    rw [List.find?_cons_of_neg (by simpa using Ne.symm hq), List.find?_filter]
    congr 3
    funext entry
    by_cases hentry : entry.1 = q
    . simp [hentry, hq]
    . simp [hentry]

/--
The disks differ at `places` only, but for directories that were made where nothing was.
-/
structure ChangedAt (places : Set Place) (d d' : Disk) : Prop where
  working : d'.working = d.working
  frame : ∀ q ∉ places,
    d'.entry? q = d.entry? q ∨ (d.entry? q = none ∧ d'.entry? q = some .directory)

namespace ChangedAt

variable {places places' : Set Place}

theorem refl : ChangedAt places d d :=
  ⟨rfl, fun _ _ => .inl rfl⟩

theorem mono (h : ChangedAt places d d') (hsub : places ⊆ places') : ChangedAt places' d d' :=
  ⟨h.working, fun q hq => h.frame q fun hmem => hq (hsub hmem)⟩

theorem trans (h : ChangedAt places d d') (h' : ChangedAt places d' d'')
    : ChangedAt places d d'' := by
  refine ⟨h'.working.trans h.working, ?_⟩
  intro q hq
  rcases h.frame q hq with hsame | ⟨hnone, hmade⟩
  . rw [← hsame]
    exact h'.frame q hq
  . rcases h'.frame q hq with hsame' | ⟨hnone', _⟩
    . exact .inr ⟨hnone, hsame'.trans hmade⟩
    . simp [hmade] at hnone'

theorem entry?_eq {e : Entry} (h : ChangedAt places d d') (hq : q ∉ places)
    (hentry : d.entry? q = some e) : d'.entry? q = some e := by
  rcases h.frame q hq with hsame | ⟨hnone, _⟩
  . rw [hsame, hentry]
  . simp [hentry] at hnone

theorem of_same (hworking : d'.working = d.working) (h : ∀ q, d'.entry? q = d.entry? q)
    : ChangedAt places d d' :=
  ⟨hworking, fun q _ => .inl (h q)⟩

theorem placeOf (h : ChangedAt places d d') : d'.placeOf p = d.placeOf p := by
  unfold Disk.placeOf start
  rw [h.working]

end ChangedAt

theorem set_changedAt {e : Entry} (hplace : place ≠ []) : ChangedAt {place} d (d.set place e) := by
  refine ⟨rfl, ?_⟩
  intro q hq
  rw [entry?_set hplace, if_neg (by simpa using hq)]
  exact .inl rfl

theorem makeDirectory_changedAt (h : d.makeDirectory p = .ok d') : ChangedAt ∅ d d' := by
  unfold makeDirectory at h
  split at h
  . simp at h
  . next place name _ =>
    split at h
    . simp at h
    . split at h
      . simp at h
      . next hnone =>
        rw [← Except.ok.inj h]
        refine ⟨rfl, ?_⟩
        intro q _
        rw [entry?_set (List.cons_ne_nil _ _)]
        split
        . next heq =>
          rw [heq]
          exact .inr ⟨hnone, rfl⟩
        . exact .inl rfl

theorem makeFirst_changedAt {ps : List Path} (h : d.makeFirst ps = some d')
    : ChangedAt ∅ d d' := by
  induction ps generalizing d' with
  | nil => simp [makeFirst] at h
  | cons p above ih =>
    unfold makeFirst at h
    split at h
    . rw [← Option.some.inj h]
      exact .refl
    . split at h
      . next d₁ hmade =>
        rw [← Option.some.inj h]
        exact makeDirectory_changedAt hmade
      . split at h
        . rw [← Option.some.inj h]
          exact .refl
        . simp at h
      . split at h
        . simp at h
        . next d₁ habove =>
          have h₁ := ih habove
          split at h
          . next d₂ hmade =>
            rw [← Option.some.inj h]
            exact h₁.trans (makeDirectory_changedAt hmade)
          . split at h
            . rw [← Option.some.inj h]
              exact h₁
            . simp at h

theorem makeDirectories_changedAt (h : d.makeDirectories p = some d') : ChangedAt ∅ d d' :=
  makeFirst_changedAt h

def stepFrom (place : Place) (step : String) : Place :=
  if step = "." then place else if step = ".." then place.tail else step :: place

theorem placeOf_eq : d.placeOf p = p.steps.foldl stepFrom (d.start p) := by
  rfl

theorem enter_eq_foldl {steps : List String} (h : d.enter place steps = .ok q)
    : q = steps.foldl stepFrom place := by
  induction steps generalizing place with
  | nil => exact (Except.ok.inj h).symm
  | cons step steps ih =>
    unfold enter at h
    rw [List.foldl_cons]
    unfold stepFrom
    split at h
    . next hstay =>
      rw [if_pos hstay]
      exact ih h
    . next hstay =>
      rw [if_neg hstay]
      split at h
      . next hup =>
        rw [if_pos hup]
        exact ih h
      . next hup =>
        rw [if_neg hup]
        split at h
        . simp at h
        . exact ih h
        . simp at h

-- The last piece of such a path is a name, so it is the last step too.
theorem last_of_not_endsOpen {last : String} (hopen : p.endsOpen = false)
    (hlast : p.steps.getLast? = some last) : last ≠ "." ∧ last ≠ ".." := by
  unfold Path.endsOpen at hopen
  cases hpieces : p.pieces.getLast? with
  | none => simp [hpieces] at hopen
  | some piece =>
    simp only [hpieces, Bool.or_eq_false_iff, beq_eq_false_iff_ne] at hopen
    rcases List.getLast?_eq_some_iff.1 hpieces with ⟨before, hbefore⟩
    have hsame : last = piece := by
      unfold Path.steps at hlast
      rw [hbefore, List.filter_append, List.filter_cons_of_pos (by simpa using hopen.1.1)] at hlast
      simpa using hlast.symm
    rw [hsame]
    exact ⟨hopen.1.2, hopen.2⟩

theorem target?_eq_placeOf (h : d.target? p = some place)
    : place = d.placeOf p ∧ d.entry? place ≠ some .directory := by
  unfold target? at h
  split at h
  . simp at h
  . next hopen =>
    unfold holder at h
    cases hlast : p.steps.getLast? with
    | none => simp [hlast] at h
    | some last =>
      cases henter : d.enter (d.start p) p.steps.dropLast with
      | error e => simp [hlast, henter, Except.map] at h
      | ok above =>
        simp only [hlast, henter, Except.map] at h
        split at h
        . simp at h
        . next hentry =>
          have hplace : last :: above = place := Option.some.inj h
          have hdots := last_of_not_endsOpen (by simpa using hopen) hlast
          rcases List.getLast?_eq_some_iff.1 hlast with ⟨before, hbefore⟩
          refine ⟨?_, ?_⟩
          . rw [hbefore, List.dropLast_concat] at henter
            rw [placeOf_eq, hbefore, List.foldl_append, ← enter_eq_foldl henter, ← hplace]
            unfold stepFrom
            simp [hdots]
          . rw [← hplace]
            exact hentry

/--
The text is all that the file at a place holds. A device that takes no bytes holds no text.
-/
def Contains (d : Disk) (place : Place) (text : Bytes) : Prop :=
  d.entry? place = some (.file text) ∨ text = [] ∧ d.entry? place = some .fullDevice

theorem Contains.file {text : Bytes} (h : d.Contains place text) (htext : text ≠ [])
    : d.entry? place = some (.file text) := by
  rcases h with hfile | ⟨hempty, _⟩
  . exact hfile
  . exact absurd hempty htext

theorem Contains.congr {text : Bytes} (h : d.Contains place text)
    (hentry : d'.entry? place = d.entry? place) : d'.Contains place text := by
  unfold Contains
  rw [hentry]
  exact h

theorem Contains.changedAt {places : Set Place} {text : Bytes} (h : d.Contains place text)
    (hchanged : ChangedAt places d d') (hplace : place ∉ places) : d'.Contains place text := by
  rcases h with hfile | ⟨hempty, hdevice⟩
  . exact .inl (hchanged.entry?_eq hplace hfile)
  . exact .inr ⟨hempty, hchanged.entry?_eq hplace hdevice⟩

theorem create_some (h : d.create p = (some place, d'))
    : place = d.placeOf p ∧ ChangedAt {place} d d' ∧ d'.Contains place [] := by
  unfold create at h
  simp only at h
  split at h
  . simp at h
  . split at h
    . simp at h
    . next htarget =>
      rcases target?_eq_placeOf htarget with ⟨hplace, hentry⟩
      split at h
      . next hdevice =>
        rcases Prod.mk.inj h with ⟨hsome, rfl⟩
        rw [← Option.some.inj hsome]
        exact ⟨hplace, .of_same rfl fun _ => rfl, .inr ⟨rfl, hdevice⟩⟩
      . rcases Prod.mk.inj h with ⟨hsome, rfl⟩
        rw [← Option.some.inj hsome]
        have hne := ne_nil_of_entry hentry
        have hafter : ChangedAt {d.placeOf p} d
            { d with refusedCreations := d.refusedCreations.tail } := .of_same rfl fun _ => rfl
        rw [hplace] at hne ⊢
        refine ⟨rfl, hafter.trans (set_changedAt hne), .inl ?_⟩
        . rw [entry?_set hne, if_pos rfl]

theorem write_true {offset : Nat} {bytes : Bytes} (h : d.write place offset bytes = (true, d'))
    : ChangedAt {place} d d'
      ∧ ((bytes = [] ∧ d' = d) ∨ ∃ content, d.entry? place = some (.file content)
          ∧ d'.entry? place = some (.file (overlay content offset bytes))) := by
  unfold write at h
  split at h
  . next hempty =>
    rw [← (Prod.mk.inj h).2]
    exact ⟨.refl, .inl ⟨by simpa using hempty, rfl⟩⟩
  . simp only at h
    split at h
    . simp at h
    . split at h
      . next content hcontent =>
        have hne : place ≠ [] := by
          apply ne_nil_of_entry (d := d)
          simp [hcontent]
        rw [← (Prod.mk.inj h).2]
        have hafter : ChangedAt {place} d { d with refusedWrites := d.refusedWrites.tail } :=
          .of_same rfl fun _ => rfl
        refine ⟨hafter.trans (set_changedAt hne), .inr ⟨content, hcontent, ?_⟩⟩
        rw [entry?_set hne, if_pos rfl]
      . simp at h

theorem write_false {offset : Nat} {bytes : Bytes} (h : d.write place offset bytes = (false, d'))
    : d'.working = d.working ∧ ∀ q, d'.entry? q = d.entry? q := by
  unfold write at h
  split at h
  . simp at h
  . simp only at h
    split at h
    . rw [← (Prod.mk.inj h).2]
      exact ⟨rfl, fun _ => rfl⟩
    . split at h
      . simp at h
      . rw [← (Prod.mk.inj h).2]
        exact ⟨rfl, fun _ => rfl⟩

theorem overlay_length {content bytes : Bytes}
    : overlay content content.length bytes = content ++ bytes := by
  simp [overlay]

theorem Contains.write_true {text bytes : Bytes} (h : d.Contains place text)
    (hwrite : d.write place text.length bytes = (true, d'))
    : d'.Contains place (text ++ bytes) := by
  rcases (Disk.write_true hwrite).2 with ⟨rfl, rfl⟩ | ⟨content, hbefore, hafter⟩
  . simpa using h
  . rcases h with hfile | ⟨_, hdevice⟩
    . have hcontent : text = content := by simpa [hfile] using hbefore
      rw [← hcontent, overlay_length] at hafter
      exact .inl hafter
    . simp [hdevice] at hbefore

end Interop.Disk
