import Interop.Run
import Mathlib.Data.List.Forall2

/-!
This module contains what loading brings: the table has the types that every table starts with and
those of all documents, and the targets are the types of the documents to generate, in order.
-/

namespace Interop

namespace Table

variable {t t' : Table} {d e : Descriptor} {ds : List Descriptor}

theorem register_of_none (h : t.find? d.cname = none)
    : ∃ t', t.register d = .ok t' ∧ t'.entries = t.entries ++ [d] := by
  unfold register
  split
  . next e hfind => simp [h] at hfind
  . exact ⟨_, rfl, rfl⟩

theorem register_of_same (h : t.find? d.cname = some d) : t.register d = .ok t := by
  unfold register
  split
  . next e hfind =>
    obtain rfl : d = e := Option.some.inj (h.symm.trans hfind)
    rw [if_pos rfl]
  . next hfind => simp [h] at hfind

theorem register_of_other (h : t.find? d.cname = some e) (hne : e ≠ d)
    : t.register d = .error (.duplicate d.cname) := by
  unfold register
  split
  . next e' hfind =>
    obtain rfl : e = e' := Option.some.inj (h.symm.trans hfind)
    rw [if_neg hne]
  . next hfind => simp [h] at hfind

theorem register_ok_cases (h : t.register d = .ok t')
    : (t.find? d.cname = none ∧ t'.entries = t.entries ++ [d])
        ∨ (t.find? d.cname = some d ∧ t' = t) := by
  cases hfind : t.find? d.cname with
  | none =>
    rcases register_of_none hfind with ⟨t₁, hregister, hentries⟩
    obtain rfl : t₁ = t' := Except.ok.inj (hregister.symm.trans h)
    exact .inl ⟨rfl, hentries⟩
  | some e =>
    by_cases hsame : e = d
    . subst hsame
      exact .inr ⟨rfl, Except.ok.inj (h.symm.trans (register_of_same hfind))⟩
    . cases (register_of_other hfind hsame).symm.trans h

theorem register_ok (h : t.register d = .ok t') : e ∈ t'.entries ↔ e ∈ t.entries ∨ e = d := by
  rcases register_ok_cases h with ⟨_, hentries⟩ | ⟨hfind, rfl⟩
  . rw [hentries]
    simp
  . constructor
    . exact .inl
    . rintro (hmem | rfl)
      . exact hmem
      . exact mem_of_find? hfind

theorem registerAll_ok (h : t.registerAll ds = (t', none))
    : e ∈ t'.entries ↔ e ∈ t.entries ∨ e ∈ ds := by
  induction ds generalizing t with
  | nil =>
    rw [← (Prod.mk.inj h).1]
    simp
  | cons d ds ih =>
    unfold registerAll at h
    split at h
    . next t₁ hregister =>
      rw [ih h, register_ok hregister, List.mem_cons, or_assoc]
    . simp at h

end Table

namespace Run

def Declares (d : Disk) (schema? : Option Schema) (searchDir? : Option Path) (p : Path)
    (ds : List Descriptor) : Prop :=
  (loadDocument d schema? searchDir? p).1 = .ok ds

namespace Loading

variable {d : Disk} {schema? : Option Schema} {searchDir? : Option Path} {l l' : Loading}
  {purpose : Purpose} {p : Path} {ds : List Descriptor} {docs docs' : List (Purpose × Path)}

/--
The types of a document became known, and targets if it was loaded for that.
-/
structure Gained (purpose : Purpose) (l : Loading) (ds : List Descriptor) (l' : Loading)
    : Prop where
  entries : ∀ e, e ∈ l'.table.entries ↔ e ∈ l.table.entries ∨ e ∈ ds
  targets : l'.targets = l.targets ++ match purpose with
    | .inclusion => []
    | .generation => ds

theorem add_ok (h : l.add purpose p ds = (.ok (), l')) : Gained purpose l ds l' := by
  unfold add at h
  generalize hregister : l.table.registerAll ds = result at h
  rcases result with ⟨t, e?⟩
  cases e? with
  | some e => simp [fail, Fault.within] at h
  | none =>
    simp only at h
    rw [← (Prod.mk.inj h).2]
    cases purpose with
    | inclusion => exact ⟨fun e => Table.registerAll_ok hregister, by simp⟩
    | generation => exact ⟨fun e => Table.registerAll_ok hregister, rfl⟩

theorem load_ok (h : load d schema? searchDir? l purpose p = (.ok (), l'))
    : ∃ ds, Declares d schema? searchDir? p ds ∧ Gained purpose l ds l' := by
  unfold load at h
  split at h
  . simp [fail, Fault.within] at h
  . next ds log hload =>
    refine ⟨ds, by rw [Declares, hload], ?_⟩
    have hgained := add_ok h
    exact ⟨hgained.entries, hgained.targets⟩

theorem load_of_declares (purpose : Purpose) {t : Table}
    (hdeclares : Declares d schema? searchDir? p ds)
    (hregister : l.table.registerAll ds = (t, none))
    : ∃ l', load d schema? searchDir? l purpose p = (.ok (), l') ∧ l'.table = t
      ∧ Gained purpose l ds l' := by
  unfold Declares at hdeclares
  generalize hload : loadDocument d schema? searchDir? p = result at hdeclares
  rcases result with ⟨declared, log⟩
  have hdeclared : declared = .ok ds := hdeclares
  have hsucceeds : ∃ l', load d schema? searchDir? l purpose p = (.ok (), l') ∧ l'.table = t := by
    unfold load
    rw [hload, hdeclared]
    unfold add
    simp only [hregister]
    cases purpose with
    | inclusion => exact ⟨_, rfl, rfl⟩
    | generation => exact ⟨_, rfl, rfl⟩
  rcases hsucceeds with ⟨l', hl', htable⟩
  rcases load_ok hl' with ⟨ds', hds', hgained⟩
  rw [Declares, hload, hdeclared] at hds'
  rw [← Except.ok.inj hds'] at hgained
  exact ⟨l', hl', htable, hgained⟩

theorem loadAll_cons : loadAll d schema? searchDir? l ((purpose, p) :: docs)
    = match load d schema? searchDir? l purpose p with
      | (.ok (), l) => loadAll d schema? searchDir? l docs
      | (.error fault, l) => (.error fault, l) := by
  rfl

theorem loadAll_append (h : loadAll d schema? searchDir? l (docs ++ docs') = (.ok (), l'))
    : ∃ l₁, loadAll d schema? searchDir? l docs = (.ok (), l₁)
      ∧ loadAll d schema? searchDir? l₁ docs' = (.ok (), l') := by
  induction docs generalizing l with
  | nil => exact ⟨l, rfl, h⟩
  | cons doc docs ih =>
    rcases doc with ⟨purpose, p⟩
    rw [List.cons_append, loadAll_cons] at h
    split at h
    . next hload =>
      rcases ih h with ⟨l₁, hdocs, hrest⟩
      refine ⟨l₁, ?_, hrest⟩
      rw [loadAll_cons, hload]
      exact hdocs
    . simp at h

theorem loadAll_ok {paths : List Path}
    (h : loadAll d schema? searchDir? l (paths.map (purpose, ·)) = (.ok (), l'))
    : ∃ declared, List.Forall₂ (Declares d schema? searchDir?) paths declared
      ∧ Gained purpose l declared.flatten l' := by
  induction paths generalizing l with
  | nil =>
    rw [← (Prod.mk.inj h).2]
    refine ⟨[], .nil, ?_, ?_⟩
    . simp
    . cases purpose <;> simp
  | cons p paths ih =>
    rw [List.map_cons, loadAll_cons] at h
    split at h
    . next l₁ hload =>
      rcases load_ok hload with ⟨ds, hds, hgained⟩
      rcases ih h with ⟨declared, hdeclared, hgained'⟩
      refine ⟨ds :: declared, .cons hds hdeclared, ?_, ?_⟩
      . intro e
        rw [hgained'.entries, hgained.entries, List.flatten_cons, List.mem_append, or_assoc]
      . rw [hgained'.targets, hgained.targets]
        cases purpose <;> simp
    . simp at h

theorem loadAll_documents {o : Options}
    (h : loadAll d schema? searchDir? l (documents o) = (.ok (), l'))
    : ∃ included declared,
      List.Forall₂ (Declares d schema? searchDir?) o.includes included
        ∧ List.Forall₂ (Declares d schema? searchDir?) o.generate declared
        ∧ (∀ e, e ∈ l'.table.entries
            ↔ e ∈ l.table.entries ∨ e ∈ included.flatten ∨ e ∈ declared.flatten)
        ∧ l'.targets = l.targets ++ declared.flatten := by
  rcases loadAll_append h with ⟨l₁, hincludes, hgenerate⟩
  rcases loadAll_ok hincludes with ⟨included, hincluded, hgained⟩
  rcases loadAll_ok hgenerate with ⟨declared, hdeclared, hgained'⟩
  refine ⟨included, declared, hincluded, hdeclared, ?_, ?_⟩
  . intro e
    rw [hgained'.entries, hgained.entries, or_assoc]
  . rw [hgained'.targets, hgained.targets, List.append_nil]

end Loading

end Run

end Interop
