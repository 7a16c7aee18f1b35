import Interop.Proofs.Registration
import Interop.Proofs.Run.Refused

/-!
This module contains what the documents of a run come to. They can be loaded if each of them can be
read and they agree on what every name means, and then the table depends on the declared types only.
-/

namespace Interop

namespace Run

section Declared

variable {d : Disk} {schema? : Option Schema} {searchDir? : Option Path} {p : Path}
  {ds ds' : List Descriptor} {ps : List Path} {e : Descriptor}

theorem Declares.unique (h : Declares d schema? searchDir? p ds)
    (h' : Declares d schema? searchDir? p ds') : ds' = ds :=
  Except.ok.inj (h'.symm.trans h)

theorem declares_rightUnique : Relator.RightUnique (Declares d schema? searchDir?) :=
  fun _ _ _ h h' => h'.unique h

/--
The run loads a document that declares the type.
-/
def Declared (d : Disk) (schema? : Option Schema) (c : Options) (e : Descriptor) : Prop :=
  ∃ p ∈ c.includes ++ c.generate, ∃ ds, Declares d schema? c.searchDir? p ds ∧ e ∈ ds

theorem mem_flatten_of_declares {dss : List (List Descriptor)}
    (h : List.Forall₂ (Declares d schema? searchDir?) ps dss)
    : e ∈ dss.flatten ↔ ∃ p ∈ ps, ∃ ds, Declares d schema? searchDir? p ds ∧ e ∈ ds := by
  induction h with
  | nil => simp
  | cons hds _ ih =>
    rw [List.flatten_cons, List.mem_append, ih, List.exists_mem_cons_iff]
    apply or_congr_left
    constructor
    . intro he
      exact ⟨_, hds, he⟩
    . rintro ⟨ds, hds', he⟩
      rwa [hds.unique hds'] at he

theorem exists_forall₂ {R : α → β → Prop} {as : List α}
    : (∃ bs, List.Forall₂ R as bs) ↔ ∀ a ∈ as, ∃ b, R a b := by
  induction as with
  | nil => simp
  | cons a as ih =>
    rw [List.forall_mem_cons, ← ih]
    constructor
    . rintro ⟨_, _ | ⟨hb, hbs⟩⟩
      exact ⟨⟨_, hb⟩, _, hbs⟩
    . rintro ⟨⟨b, hb⟩, bs, hbs⟩
      exact ⟨b :: bs, .cons hb hbs⟩

/--
The documents of the run are read and registered.
-/
def Loads (d : Disk) (schema? : Option Schema) (c : Options) (l : Loading) : Prop :=
  Loading.loadAll d schema? c.searchDir? (start c d) (documents c) = (.ok (), l)

/--
No two of the types that the run would know share a name.
-/
def Harmonious (d : Disk) (schema? : Option Schema) (c : Options) : Prop :=
  ∀ e e', (e ∈ Table.builtin.entries ∨ Declared d schema? c e) →
    (e' ∈ Table.builtin.entries ∨ Declared d schema? c e') → e.cname = e'.cname → e = e'

end Declared

namespace Loading

variable {d : Disk} {schema? : Option Schema} {searchDir? : Option Path} {l l' : Loading}
  {purpose : Purpose} {p : Path} {docs : List (Purpose × Path)}

theorem load_ok_iff
    : (∃ l', load d schema? searchDir? l purpose p = (.ok (), l'))
        ↔
      ∃ ds, Declares d schema? searchDir? p ds ∧ Consistent (l.table.entries ++ ds) := by
  constructor
  . rintro ⟨l', hload⟩
    rcases load_ok hload with ⟨ds, hds, hgained⟩
    refine ⟨ds, hds, (consistent_congr ?_).1 l'.table.consistent⟩
    intro e
    rw [List.mem_append, hgained.entries]
  . rintro ⟨ds, hds, hconsistent⟩
    have hregister := Table.registerAll_eq_none_iff.2 hconsistent
    rcases load_of_declares purpose hds (Prod.ext rfl hregister) with ⟨l', hload, _⟩
    exact ⟨l', hload⟩

-- The table of what was loaded is consistent with what comes after if all of it together is.
theorem loadAll_ok_iff
    : (∃ l', loadAll d schema? searchDir? l docs = (.ok (), l'))
        ↔
      ∃ dss, List.Forall₂ (Declares d schema? searchDir?) (docs.map (·.2)) dss
        ∧ Consistent (l.table.entries ++ dss.flatten) := by
  induction docs generalizing l with
  | nil =>
    refine ⟨fun _ => ⟨[], .nil, ?_⟩, fun _ => ⟨l, rfl⟩⟩
    rw [List.flatten_nil, List.append_nil]
    exact l.table.consistent
  | cons doc docs ih =>
    rcases doc with ⟨purpose, p⟩
    have hcongr {l₁ : Loading} {ds : List Descriptor} (hgained : Gained purpose l ds l₁)
        (rest : List Descriptor)
        : Consistent (l₁.table.entries ++ rest) ↔ Consistent (l.table.entries ++ (ds ++ rest)) := by
      apply consistent_congr
      intro e
      simp only [List.mem_append, hgained.entries, or_assoc]
    rw [loadAll_cons]
    constructor
    . rintro ⟨l', hload⟩
      split at hload
      . next l₁ hfirst =>
        rcases load_ok hfirst with ⟨ds, hds, hgained⟩
        rcases ih.1 ⟨l', hload⟩ with ⟨dss, hdss, hconsistent⟩
        refine ⟨ds :: dss, .cons hds hdss, ?_⟩
        rwa [List.flatten_cons, ← hcongr hgained]
      . cases (Prod.mk.inj hload).1
    . rintro ⟨dss, hall, hconsistent⟩
      cases hall with
      | @cons _ ds _ dss hds hdss =>
        rw [List.flatten_cons] at hconsistent
        have hfirst : Consistent (l.table.entries ++ ds) := by
          apply hconsistent.mono
          rw [← List.append_assoc]
          exact List.subset_append_left _ _
        rcases load_ok_iff.2 ⟨ds, hds, hfirst⟩ with ⟨l₁, hload⟩
        rcases load_ok hload with ⟨ds', hds', hgained⟩
        rw [hds.unique hds'] at hgained
        rw [hload]
        exact ih.2 ⟨dss, hdss, (hcongr hgained _).2 hconsistent⟩

end Loading

section Loads

variable {d : Disk} {schema? : Option Schema} {c : Options} {l : Loading}

theorem loads_iff
    : (∃ l, Loads d schema? c l)
        ↔
      (∀ p ∈ c.includes ++ c.generate, ∃ ds, Declares d schema? c.searchDir? p ds)
        ∧ Harmonious d schema? c := by
  have hpaths : (documents c).map (·.2) = c.includes ++ c.generate := by
    unfold documents
    simp
  have hknown {dss : List (List Descriptor)}
      (hdss : List.Forall₂ (Declares d schema? c.searchDir?) (c.includes ++ c.generate) dss)
      : Consistent (Table.builtin.entries ++ dss.flatten) ↔ Harmonious d schema? c := by
    unfold Consistent Harmonious Declared
    simp only [List.mem_append, mem_flatten_of_declares hdss]
    constructor
    . intro h e e' he he' hname
      exact h e he e' he' hname
    . intro h e he e' he' hname
      exact h e e' he he' hname
  unfold Loads
  rw [Loading.loadAll_ok_iff, hpaths, ← exists_forall₂]
  constructor
  . rintro ⟨dss, hdss, hconsistent⟩
    exact ⟨⟨dss, hdss⟩, (hknown hdss).1 hconsistent⟩
  . rintro ⟨⟨dss, hdss⟩, hharmonious⟩
    exact ⟨dss, hdss, (hknown hdss).2 hharmonious⟩

theorem Loads.mem_entries {e : Descriptor} (h : Loads d schema? c l)
    : e ∈ l.table.entries ↔ e ∈ Table.builtin.entries ∨ Declared d schema? c e := by
  rcases Loading.loadAll_documents h with ⟨_, _, hincluded, hdeclared, hentries, _⟩
  have hstart : (start c d).table = Table.builtin := rfl
  rw [hentries, hstart, mem_flatten_of_declares hincluded, mem_flatten_of_declares hdeclared]
  unfold Declared
  simp only [List.mem_append, or_and_right, exists_or]

theorem Loads.targets (h : Loads d schema? c l)
    : ∃ dss, List.Forall₂ (Declares d schema? c.searchDir?) c.generate dss
      ∧ l.targets = dss.flatten := by
  rcases Loading.loadAll_documents h with ⟨_, dss, _, hdss, _, htargets⟩
  exact ⟨dss, hdss, htargets⟩

theorem Loads.find? {e : Descriptor} (h : Loads d schema? c l) (he : e ∈ l.targets)
    : l.table.find? e.cname = some e := by
  rcases h.targets with ⟨dss, hdss, htargets⟩
  rw [htargets, mem_flatten_of_declares hdss] at he
  rcases he with ⟨p, hp, ds, hds, he⟩
  apply Table.find?_of_mem
  exact h.mem_entries.2 (.inr ⟨p, List.mem_append_right _ hp, ds, hds, he⟩)

theorem Loads.targets_of_forall₂ {dss : List (List Descriptor)} (h : Loads d schema? c l)
    (hdss : List.Forall₂ (Declares d schema? c.searchDir?) c.generate dss)
    : l.targets = dss.flatten := by
  rcases h.targets with ⟨dss', hdss', htargets⟩
  rw [htargets, List.right_unique_forall₂' declares_rightUnique hdss' hdss]

theorem execute_of_loads {supported : Bool} {o : Options} (h : Begun supported o d c schema?)
    (hl : Loads d schema? c l) : execute supported o d = generateValid c d l := by
  rw [execute_of_begun h, hl]

end Loads

end Run

end Interop
