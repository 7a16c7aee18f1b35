import Interop.Validation
import Mathlib.Data.List.Nodup
import Mathlib.Data.Set.Insert
import Mathlib.Logic.Relation

/-!
This module contains what it means that a type can be generated: every name that it leads to is
registered, and every type on the way is well-formed. Validity is the largest set of names that is
closed in this sense, so cycles of references do no harm.
-/

namespace Interop

open Relation Validation

def Descriptor.references (d : Descriptor) : List String :=
  d.dependencies.map Reference.core

theorem Descriptor.mem_references {d : Descriptor} {name : String}
    : name ∈ d.references ↔ ∃ ref ∈ d.dependencies, Reference.core ref = name := by
  simp [references]

namespace Table

def Refers (t : Table) (a b : String) : Prop :=
  ∃ d, t.find? a = some d ∧ b ∈ d.references

def Sound (t : Table) (name : String) : Prop :=
  ∃ d, t.find? name = some d ∧ structureFault? t d = none

/--
Every name that can be reached from `name`, itself included, is sound.
-/
def Valid (t : Table) (name : String) : Prop :=
  ∀ b, ReflTransGen t.Refers name b → t.Sound b

/--
Validity where the names in `trusted` are taken for granted, and not looked behind.
-/
def ValidGiven (t : Table) (trusted : Set String) (name : String) : Prop :=
  ∀ b, ReflTransGen (fun a b => a ∉ trusted ∧ t.Refers a b) name b → b ∈ trusted ∨ t.Sound b

variable {t : Table} {trusted : Set String} {name : String}

theorem validGiven_empty : t.ValidGiven ∅ name ↔ t.Valid name := by
  simp [ValidGiven, Valid]

theorem validGiven_of_mem (h : name ∈ trusted) : t.ValidGiven trusted name := by
  intro b hb
  cases hb using ReflTransGen.head_induction_on with
  | refl => exact .inl h
  | head hstep _ => exact absurd h hstep.1

/--
A name is valid if it is trusted, or its type is well-formed and refers to valid names only.
-/
theorem validGiven_iff
    : t.ValidGiven trusted name
        ↔
      name ∈ trusted ∨ ∃ d, t.find? name = some d ∧ structureFault? t d = none
        ∧ ∀ r ∈ d.references, t.ValidGiven trusted r := by
  constructor
  . intro h
    by_cases hname : name ∈ trusted
    . exact .inl hname
    . obtain hname' | ⟨d, hd, hsound⟩ := h name .refl
      . exact absurd hname' hname
      . refine .inr ⟨d, hd, hsound, ?_⟩
        intro r hr b hb
        exact h b (.head ⟨hname, d, hd, hr⟩ hb)
  . rintro (hname | ⟨d, hd, hsound, hrefs⟩)
    . exact validGiven_of_mem hname
    . intro b hb
      cases hb using ReflTransGen.head_induction_on with
      | refl => exact .inr ⟨d, hd, hsound⟩
      | head hstep hrest =>
        obtain ⟨_, d', hd', hr⟩ := hstep
        obtain rfl : d = d' := by simpa [hd] using hd'
        exact hrefs _ hr b hrest

/--
To show that names are valid it is enough to find a set around them that no reference leads out of.
-/
theorem validGiven_of_closed {s : Set String}
    (hs : ∀ n ∈ s, n ∈ trusted ∨ ∃ d, t.find? n = some d ∧ structureFault? t d = none
      ∧ ∀ r ∈ d.references, r ∈ s)
    (hname : name ∈ s) : t.ValidGiven trusted name := by
  intro b hb
  have hclosed : b ∈ s := by
    induction hb with
    | refl => exact hname
    | tail _ hstep ih =>
      obtain ⟨hn, d, hd, hr⟩ := hstep
      obtain hn' | ⟨d', hd', _, hrefs⟩ := hs _ ih
      . exact absurd hn' hn
      . obtain rfl : d = d' := by simpa [hd] using hd'
        exact hrefs _ hr
  obtain hb | ⟨d, hd, hsound, _⟩ := hs b hclosed
  . exact .inl hb
  . exact .inr ⟨d, hd, hsound⟩

theorem ValidGiven.trans {trusted' : Set String} (h : t.ValidGiven trusted name)
    (ht : ∀ n ∈ trusted, t.ValidGiven trusted' n) : t.ValidGiven trusted' name := by
  apply validGiven_of_closed (s := {n | t.ValidGiven trusted n ∨ t.ValidGiven trusted' n})
  . have hclosed : ∀ n, t.ValidGiven trusted' n → n ∈ trusted' ∨ ∃ d, t.find? n = some d
        ∧ structureFault? t d = none
        ∧ ∀ r ∈ d.references, t.ValidGiven trusted r ∨ t.ValidGiven trusted' r := by
      intro n hn
      obtain hn | ⟨d, hd, hsound, hrefs⟩ := validGiven_iff.1 hn
      . exact .inl hn
      . exact .inr ⟨d, hd, hsound, fun r hr => .inr (hrefs r hr)⟩
    rintro n (hn | hn)
    . obtain hn | ⟨d, hd, hsound, hrefs⟩ := validGiven_iff.1 hn
      . exact hclosed n (ht n hn)
      . exact .inr ⟨d, hd, hsound, fun r hr => .inl (hrefs r hr)⟩
    . exact hclosed n hn
  . exact .inl h

theorem ValidGiven.mono {trusted' : Set String} (h : t.ValidGiven trusted name)
    (ht : trusted ⊆ trusted') : t.ValidGiven trusted' name :=
  h.trans fun _ hn => validGiven_of_mem (ht hn)

theorem find?_of_mem {d : Descriptor} (h : d ∈ t.entries) : t.find? d.cname = some d := by
  cases hfind : t.find? d.cname with
  | none => exact absurd (List.mem_map_of_mem h) (find?_eq_none.1 hfind)
  | some e =>
    have hcname : e.cname = d.cname := cname_of_find? hfind
    rw [List.inj_on_of_nodup_map t.nodup (mem_of_find? hfind) h hcname]

def Complete (t : Table) : Prop :=
  ∀ d ∈ t.entries, structureFault? t d = none ∧ ∀ r ∈ d.references, r ∈ t.names

instance : Decidable t.Complete :=
  inferInstanceAs (Decidable (∀ d ∈ t.entries, _ ∧ ∀ r ∈ d.references, r ∈ t.names))

theorem Complete.valid (h : t.Complete) (hname : name ∈ t.names) : t.Valid name := by
  rw [← validGiven_empty]
  apply validGiven_of_closed (s := {n | n ∈ t.names}) _ hname
  intro n hn
  rcases List.mem_map.1 hn with ⟨d, hd, rfl⟩
  exact .inr ⟨d, find?_of_mem hd, h d hd⟩

theorem Valid.validGiven (h : t.Valid name) : t.ValidGiven trusted name :=
  (validGiven_empty.2 h).mono (Set.empty_subset _)

/--
A way along the names in `along` leads from a name to one that is not registered or not well-formed.
-/
inductive Fails (t : Table) (along : Set String) : String → Prop where
  | missing {n : String} (hfind : t.find? n = none) : Fails t along n
  | malformed {n : String} {d : Descriptor} (hmem : n ∈ along) (hfind : t.find? n = some d)
      (hfault : structureFault? t d ≠ none) : Fails t along n
  | refers {n r : String} {d : Descriptor} (hmem : n ∈ along) (hfind : t.find? n = some d)
      (href : r ∈ d.references) (hr : Fails t along r) : Fails t along n

theorem Fails.mono {along along' : Set String} (h : t.Fails along name) (hsub : along ⊆ along')
    : t.Fails along' name := by
  induction h with
  | missing hfind => exact .missing hfind
  | malformed hmem hfind hfault => exact .malformed (hsub hmem) hfind hfault
  | refers hmem hfind href _ ih => exact .refers (hsub hmem) hfind href ih

/--
What fails is not valid, unless the way to the fault is cut by names that are trusted.
-/
theorem Fails.not_validGiven {along : Set String} (h : t.Fails along name)
    (halong : ∀ n ∈ along, n ∉ trusted) (htrusted : ∀ n ∈ trusted, t.find? n ≠ none)
    : ¬ t.ValidGiven trusted name := by
  induction h with
  | missing hfind =>
    intro hvalid
    obtain hmem | ⟨d, hd, _⟩ := validGiven_iff.1 hvalid
    . exact htrusted _ hmem hfind
    . simp [hfind] at hd
  | malformed hmem hfind hfault =>
    intro hvalid
    obtain hmem' | ⟨d, hd, hsound, _⟩ := validGiven_iff.1 hvalid
    . exact halong _ hmem hmem'
    . obtain rfl : _ = d := by simpa [hfind] using hd
      exact hfault hsound
  | refers hmem hfind href _ ih =>
    intro hvalid
    obtain hmem' | ⟨d, hd, _, hrefs⟩ := validGiven_iff.1 hvalid
    . exact halong _ hmem hmem'
    . obtain rfl : _ = d := by simpa [hfind] using hd
      exact ih (hrefs _ href)

end Table

end Interop
