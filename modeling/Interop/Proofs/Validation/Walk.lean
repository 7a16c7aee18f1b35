import Interop.Proofs.Validity
import Mathlib.Tactic.Tauto

/-!
This module contains what a walk over the table keeps true of what is known. Failures that were
noted stand for a way to a fault, and types explored lean on types that were accepted; a walk that
succeeds notes no failure, and one that fails accepts nothing for later.
-/

namespace Interop.Validation

namespace Knowledge

def Failed (k : Knowledge) : Set String :=
  {n | ∃ f, (n, f) ∈ k.failed}

theorem mem_failed_of_lookup {k : Knowledge} {name : String} {f : Failure}
    (h : k.failed.lookup name = some f) : name ∈ k.Failed := by
  obtain ⟨before, after, hk, _⟩ := List.lookup_eq_some_iff.1 h
  exact ⟨f, by simp [hk]⟩

theorem not_mem_failed_of_lookup {k : Knowledge} {name : String}
    (h : k.failed.lookup name = none) : name ∉ k.Failed := by
  rintro ⟨f, hf⟩
  simpa using List.lookup_eq_none_iff.1 h _ hf

/--
The names that pass for valid in a check under `path`.
-/
def Accepted (k : Knowledge) (path : List String) : Set String :=
  {n | n ∈ k.valid ∨ n ∈ k.explored ∨ n ∈ path}

/--
What is known from earlier checks. It holds between checks and while one goes on.
-/
structure Grounded (t : Table) (k : Knowledge) : Prop where
  /-- From a type that failed the way to the fault leads along types that failed. -/
  fails : ∀ n ∈ k.Failed, t.Fails k.Failed n
  not_valid : ∀ n ∈ k.Failed, n ∉ k.valid
  registered : ∀ n ∈ k.valid, t.find? n ≠ none
  core : ∀ n ∈ k.valid, Reference.core n = n

/--
What is known of the types explored in a check under `path`.
-/
structure Supported (t : Table) (path : List String) (k : Knowledge) : Prop where
  /-- A type explored is well-formed, and what it refers to was accepted. -/
  leans : ∀ n ∈ k.explored, ∃ d, t.find? n = some d ∧ structureFault? t d = none
    ∧ ∀ r ∈ d.references, r ∈ k.Accepted path
  not_failed : ∀ n ∈ k.explored, n ∉ k.Failed
  core : ∀ n ∈ k.explored, Reference.core n = n

/--
What a walk that succeeds may change: it explores further types.
-/
structure Extends (k k' : Knowledge) : Prop where
  valid : k'.valid = k.valid
  failed : k'.failed = k.failed
  explored : ∀ n ∈ k.explored, n ∈ k'.explored

variable {t : Table} {path : List String} {k k' k'' : Knowledge}

theorem Extends.refl : Extends k k :=
  ⟨rfl, rfl, fun _ h => h⟩

theorem Extends.trans (h : Extends k k') (h' : Extends k' k'') : Extends k k'' :=
  ⟨h'.valid.trans h.valid, h'.failed.trans h.failed, fun n hn => h'.explored n (h.explored n hn)⟩

theorem Extends.accepted_subset (h : Extends k k') : k.Accepted path ⊆ k'.Accepted path := by
  rintro n (hn | hn | hn)
  . exact .inl (h.valid ▸ hn)
  . exact .inr (.inl (h.explored n hn))
  . exact .inr (.inr hn)

theorem Extends.grounded (h : Extends k k') (hk : k.Grounded t) : k'.Grounded t := by
  have hfailed : k'.Failed = k.Failed := by simp [Failed, h.failed]
  constructor
  . simpa [hfailed] using hk.fails
  . simpa [hfailed, h.valid] using hk.not_valid
  . simpa [h.valid] using hk.registered
  . simpa [h.valid] using hk.core

theorem accepted_cons {name : String}
    : k.Accepted (name :: path) = insert name (k.Accepted path) := by
  ext n
  simp only [Accepted, List.mem_cons, Set.mem_ofPred_eq, Set.mem_insert_iff]
  tauto

theorem Supported.cons {name : String} (h : k.Supported t path)
    : k.Supported t (name :: path) where
  leans n hn := by
    obtain ⟨d, hd, hsound, hrefs⟩ := h.leans n hn
    refine ⟨d, hd, hsound, ?_⟩
    intro r hr
    rw [accepted_cons]
    exact .inr (hrefs r hr)
  not_failed := h.not_failed
  core := h.core

theorem Supported.explore {name : String} {d : Descriptor} (h : k.Supported t (name :: path))
    (hname : Reference.core name = name) (hfailed : name ∉ k.Failed)
    (hfind : t.find? name = some d) (hsound : structureFault? t d = none)
    (hrefs : ∀ r ∈ d.references, r ∈ k.Accepted (name :: path))
    : { k with explored := name :: k.explored }.Supported t path := by
  have hsub : k.Accepted (name :: path)
      ⊆ { k with explored := name :: k.explored }.Accepted path := by
    rintro n (hn | hn | hn)
    . exact .inl hn
    . exact .inr (.inl (List.mem_cons_of_mem _ hn))
    . obtain rfl | hn := List.mem_cons.1 hn
      . exact .inr (.inl List.mem_cons_self)
      . exact .inr (.inr hn)
  constructor
  . intro n hn
    obtain rfl | hn := List.mem_cons.1 hn
    . exact ⟨d, hfind, hsound, fun r hr => hsub (hrefs r hr)⟩
    . obtain ⟨e, he, hesound, herefs⟩ := h.leans n hn
      exact ⟨e, he, hesound, fun r hr => hsub (herefs r hr)⟩
  . intro n hn
    obtain rfl | hn := List.mem_cons.1 hn
    . exact hfailed
    . exact h.not_failed n hn
  . intro n hn
    obtain rfl | hn := List.mem_cons.1 hn
    . exact hname
    . exact h.core n hn

theorem failed_cons {name : String} {f : Failure}
    : { k with failed := (name, f) :: k.failed }.Failed = insert name k.Failed := by
  ext n
  simp [Failed, exists_or]

theorem Grounded.fail {name : String} {d : Descriptor} {f : Failure} (h : k.Grounded t)
    (hvalid : name ∉ k.valid) (hfind : t.find? name = some d)
    (hbad : structureFault? t d ≠ none ∨ ∃ r ∈ d.references, t.Fails k.Failed r)
    : { k with failed := (name, f) :: k.failed }.Grounded t
      ∧ t.Fails { k with failed := (name, f) :: k.failed }.Failed name := by
  have hname : t.Fails (insert name k.Failed) name := by
    obtain hfault | ⟨r, hr, hfails⟩ := hbad
    . exact .malformed (Set.mem_insert _ _) hfind hfault
    . exact .refers (Set.mem_insert _ _) hfind hr (hfails.mono (Set.subset_insert _ _))
  refine ⟨⟨?_, ?_, h.registered, h.core⟩, ?_⟩
  . rw [failed_cons]
    rintro n (rfl | hn)
    . exact hname
    . exact (h.fails n hn).mono (Set.subset_insert _ _)
  . rw [failed_cons]
    rintro n (rfl | hn)
    . exact hvalid
    . exact h.not_valid n hn
  . rw [failed_cons]
    exact hname

end Knowledge

open Knowledge

variable {t : Table} {path : List String} {k : Knowledge}

/--
The outcome of a walk under `path`: what it accepts if it succeeds, what fails if it fails.
-/
def Walked (t : Table) (path : List String) (k : Knowledge) (accepts fails : Knowledge → Prop)
    : Option Failure × Knowledge → Prop
  | (none, k') => Extends k k' ∧ k'.Supported t path ∧ accepts k'
  | (some _, k') => k'.valid = k.valid ∧ k'.Grounded t ∧ fails k'

theorem checkName_of_mem {ref : String} (hfailed : k.failed.lookup (Reference.core ref) = none)
    (hnew : ¬ (Reference.core ref ∈ k.valid ∨ Reference.core ref ∈ k.explored))
    (hpath : Reference.core ref ∈ path)
    : checkName t path k ref
        = (none, { k with revisited := Reference.core ref :: k.revisited }) := by
  rw [checkName]
  simp only [hfailed, if_neg hnew, dif_pos hpath]

theorem checkName_of_find? {ref : String} {d : Descriptor}
    (hfailed : k.failed.lookup (Reference.core ref) = none)
    (hnew : ¬ (Reference.core ref ∈ k.valid ∨ Reference.core ref ∈ k.explored))
    (hpath : Reference.core ref ∉ path) (hfind : t.find? (Reference.core ref) = some d)
    : checkName t path k ref = match checkType t (Reference.core ref :: path) k d with
      | (some f, k) => (some f, { k with failed := (Reference.core ref, f) :: k.failed })
      | (none, k) => (none, { k with explored := Reference.core ref :: k.explored }) := by
  rw [checkName]
  simp only [hfailed, if_neg hnew, dif_neg hpath]
  split
  . next h => simp [hfind] at h
  . next e h =>
    have he : d = e := by simpa [hfind] using h
    subst he
    rfl

variable (t : Table)

-- The induction is that of the walk itself: the names on the path, then the references left.
mutual

theorem checkName_walked (path : List String) (k : Knowledge) (ref : String)
    (hk : k.Grounded t) (hs : k.Supported t path)
    : Walked t path k (fun k' => Reference.core ref ∈ k'.Accepted path)
        (fun k' => t.Fails k'.Failed (Reference.core ref)) (checkName t path k ref) := by
  rw [checkName]
  split
  . next f hf =>
    exact ⟨rfl, hk, hk.fails _ (mem_failed_of_lookup hf)⟩
  . next hf =>
    split
    . next hknown =>
      refine ⟨.refl, hs, ?_⟩
      rcases hknown with h | h
      . exact .inl h
      . exact .inr (.inl h)
    . next hnew =>
      split
      . next hpath =>
        exact ⟨⟨rfl, rfl, fun _ h => h⟩, ⟨hs.leans, hs.not_failed, hs.core⟩, .inr (.inr hpath)⟩
      . next hpath =>
        split
        . next hfind =>
          exact ⟨rfl, hk, .missing hfind⟩
        . next d hfind =>
          have hlt : t.unseen (Reference.core ref :: path) < t.unseen path := by
            have hname : d.cname = Reference.core ref := Table.cname_of_find? hfind
            rw [← hname]
            exact Table.unseen_cons_lt (Table.mem_of_find? hfind) (hname ▸ hpath)
          have hwalk := checkType_walked (Reference.core ref :: path) k d hk hs.cons
          generalize checkType t (Reference.core ref :: path) k d = result at hwalk ⊢
          obtain ⟨_ | f, k'⟩ := result
          . obtain ⟨hext, hs', hsound, hrefs⟩ := hwalk
            refine ⟨⟨hext.valid, hext.failed, ?_⟩, ?_, ?_⟩
            . intro n hn
              exact List.mem_cons_of_mem _ (hext.explored n hn)
            . apply hs'.explore (Reference.core_core ref) ?_ hfind hsound hrefs
              apply not_mem_failed_of_lookup
              rw [hext.failed, hf]
            . exact .inr (.inl List.mem_cons_self)
          . obtain ⟨hvalid, hk', hbad⟩ := hwalk
            refine ⟨hvalid, hk'.fail ?_ hfind hbad⟩
            rw [hvalid]
            exact fun h => hnew (.inl h)
termination_by (t.unseen path, 0)
decreasing_by
  exact .left _ _ hlt

theorem checkType_walked (path : List String) (k : Knowledge) (d : Descriptor)
    (hk : k.Grounded t) (hs : k.Supported t path)
    : Walked t path k
        (fun k' => structureFault? t d = none ∧ ∀ r ∈ d.references, r ∈ k'.Accepted path)
        (fun k' => structureFault? t d ≠ none ∨ ∃ r ∈ d.references, t.Fails k'.Failed r)
        (checkType t path k d) := by
  rw [checkType]
  have hwalk := checkAll_walked path k d.dependencies hk hs
  generalize checkAll t path k d.dependencies = result at hwalk ⊢
  obtain ⟨_ | f, k'⟩ := result
  . obtain ⟨hext, hs', hrefs⟩ := hwalk
    dsimp only
    cases hfault : structureFault? t d with
    | none =>
      refine ⟨hext, hs', rfl, ?_⟩
      intro r hr
      obtain ⟨ref, href, rfl⟩ := Descriptor.mem_references.1 hr
      exact hrefs ref href
    | some detail => exact ⟨hext.valid, hext.grounded hk, .inl (by simp)⟩
  . obtain ⟨hvalid, hk', ref, href, hfails⟩ := hwalk
    exact ⟨hvalid, hk', .inr ⟨_, Descriptor.mem_references.2 ⟨ref, href, rfl⟩, hfails⟩⟩
termination_by (t.unseen path, d.dependencies.length + 2)

theorem checkAll_walked (path : List String) (k : Knowledge) (refs : List String)
    (hk : k.Grounded t) (hs : k.Supported t path)
    : Walked t path k (fun k' => ∀ ref ∈ refs, Reference.core ref ∈ k'.Accepted path)
        (fun k' => ∃ ref ∈ refs, t.Fails k'.Failed (Reference.core ref))
        (checkAll t path k refs) := by
  cases refs with
  | nil =>
    rw [checkAll]
    exact ⟨.refl, hs, by simp⟩
  | cons ref refs =>
    rw [checkAll]
    have hfirst := checkName_walked path k ref hk hs
    generalize checkName t path k ref = result at hfirst ⊢
    obtain ⟨_ | f, k'⟩ := result
    . obtain ⟨hext, hs', hacc⟩ := hfirst
      have hrest := checkAll_walked path k' refs (hext.grounded hk) hs'
      dsimp only
      generalize checkAll t path k' refs = result at hrest ⊢
      obtain ⟨_ | f, k''⟩ := result
      . obtain ⟨hext', hs'', hrefs⟩ := hrest
        refine ⟨hext.trans hext', hs'', ?_⟩
        exact List.forall_mem_cons.2 ⟨hext'.accepted_subset hacc, hrefs⟩
      . obtain ⟨hvalid, hk'', ref', href', hfails⟩ := hrest
        exact ⟨hvalid.trans hext.valid, hk'', ref', List.mem_cons_of_mem _ href', hfails⟩
    . obtain ⟨hvalid, hk', hfails⟩ := hfirst
      exact ⟨hvalid, hk', ref, List.mem_cons_self, hfails⟩
termination_by (t.unseen path, refs.length + 1)

end

end Interop.Validation
