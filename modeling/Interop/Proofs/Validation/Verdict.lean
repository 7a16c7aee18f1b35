import Interop.Proofs.Validation.Walk

/-!
This module contains the verdict of a single check: which types pass, and what the check leaves
behind for those after it.
-/

namespace Interop.Validation

namespace Knowledge

def Trusted (k : Knowledge) : Set String :=
  {n | n ∈ k.valid}

/--
What is known between two checks.
-/
structure Settled (t : Table) (k : Knowledge) : Prop extends Grounded t k where
  explored : k.explored = []

/--
What is known if every check so far was of a registered type.
-/
structure Faithful (t : Table) (k : Knowledge) : Prop extends Settled t k where
  valid : ∀ n ∈ k.Trusted, t.Valid n

variable {t : Table} {path : List String} {k k' : Knowledge}

theorem faithful_initial : Knowledge.initial.Faithful t where
  fails := by simp [initial, Failed]
  not_valid := by simp [initial]
  registered := by simp [initial]
  core := by simp [initial]
  explored := rfl
  valid := by simp [initial, Trusted]

theorem Settled.supported (h : k.Settled t) : k.Supported t path where
  leans := by simp [h.explored]
  not_failed := by simp [h.explored]
  core := by simp [h.explored]

theorem Grounded.settle_some {f : Failure} (h : k.Grounded t)
    : (k.settle (some f)).Settled t where
  fails := h.fails
  not_valid := h.not_valid
  registered := h.registered
  core := h.core
  explored := rfl

theorem Supported.settle_none (hs : k.Supported t path) (hk : k.Grounded t)
    : (k.settle none).Settled t where
  fails := hk.fails
  not_valid := by
    intro n hn hvalid
    rcases List.mem_append.1 hvalid with h | h
    . exact hs.not_failed n h hn
    . exact hk.not_valid n hn h
  registered := by
    intro n hvalid
    rcases List.mem_append.1 hvalid with h | h
    . rcases hs.leans n h with ⟨d, hd, _⟩
      simp [hd]
    . exact hk.registered n h
  core := by
    intro n hvalid
    rcases List.mem_append.1 hvalid with h | h
    . exact hs.core n h
    . exact hk.core n h
  explored := rfl

theorem trusted_settle_none : (k.settle none).Trusted = k.Accepted [] := by
  ext n
  simp [Trusted, Accepted, settle, or_comm]

theorem trusted_settle_some {f : Failure} : (k.settle (some f)).Trusted = k.Trusted := by
  simp [Trusted, settle]

-- The names accepted are closed under references, up to those that the check began with.
theorem Supported.validGiven {n : String} (hs : k.Supported t path) (hn : n ∈ k.Accepted path)
    : t.ValidGiven (k.Trusted ∪ {n | n ∈ path}) n := by
  apply Table.validGiven_of_closed (s := k.Accepted path) _ hn
  rintro n (h | h | h)
  . exact .inl (.inl h)
  . exact .inr (hs.leans n h)
  . exact .inl (.inr h)

theorem Accepted.of_core {name r : String} (hname : Reference.core name ≠ name)
    (hr : Reference.core r = r) (h : r ∈ k.Accepted [name]) : r ∈ k.Accepted [] := by
  rcases h with h | h | h
  . exact .inl h
  . exact .inr (.inl h)
  . rw [List.mem_singleton.1 h] at hr
    exact absurd hr hname

theorem core_of_mem_references {d : Descriptor} {r : String} (h : r ∈ d.references)
    : Reference.core r = r := by
  rcases Descriptor.mem_references.1 h with ⟨ref, _, rfl⟩
  exact Reference.core_core ref

theorem Supported.of_core {name : String} (hname : Reference.core name ≠ name)
    (hs : k.Supported t [name]) : k.Supported t [] where
  leans n hn := by
    rcases hs.leans n hn with ⟨d, hd, hsound, hrefs⟩
    refine ⟨d, hd, hsound, ?_⟩
    intro r hr
    exact Accepted.of_core hname (core_of_mem_references hr) (hrefs r hr)
  not_failed := hs.not_failed
  core := hs.core

end Knowledge

open Knowledge

variable {t : Table} {k : Knowledge} {d : Descriptor}

theorem core_cname_of_get? (h : t.get? d.cname = some d) : Reference.core d.cname = d.cname :=
  (Table.cname_of_find? h).symm

def walk (t : Table) (k : Knowledge) (d : Descriptor) : Option Failure × Knowledge :=
  if t.get? d.cname = some d then checkName t [] k d.cname else checkType t [d.cname] k d

theorem check_eq : check t k d
    = ((walk t k d).1.map (check.report t d), (walk t k d).2.settle (walk t k d).1) := by
  rfl

theorem check_fst_eq_none : (check t k d).1 = none ↔ (walk t k d).1 = none := by
  simp [check_eq]

theorem check_snd : (check t k d).2 = (walk t k d).2.settle (walk t k d).1 := by
  rfl

/--
The names that a check begins with: a type that is not the registered one of its name stands in for
that name.
-/
def assumed (t : Table) (d : Descriptor) : List String :=
  if t.get? d.cname = some d then [] else [d.cname]

def starts (t : Table) (d : Descriptor) : List String :=
  if t.get? d.cname = some d then [d.cname] else d.references

theorem walk_walked (hk : k.Settled t)
    : Walked t (assumed t d) k (fun k' => ∀ s ∈ starts t d, s ∈ k'.Accepted (assumed t d))
        (fun _ => True) (walk t k d) := by
  unfold walk assumed starts
  split
  . next hget =>
    have h := checkName_walked t [] k d.cname hk.toGrounded hk.supported
    rw [core_cname_of_get? hget] at h
    generalize checkName t [] k d.cname = result at h ⊢
    rcases result with ⟨_ | f, k'⟩
    . exact ⟨h.1, h.2.1, by simpa using h.2.2⟩
    . exact ⟨h.1, h.2.1, trivial⟩
  . have h := checkType_walked t [d.cname] k d hk.toGrounded hk.supported
    generalize checkType t [d.cname] k d = result at h ⊢
    rcases result with ⟨_ | f, k'⟩
    . exact ⟨h.1, h.2.1, h.2.2.2⟩
    . exact ⟨h.1, h.2.1, trivial⟩

theorem Knowledge.Supported.validGiven_trusted {n : String} (hs : k.Supported t [])
    (hn : n ∈ k.Accepted []) : t.ValidGiven k.Trusted n := by
  have h := hs.validGiven hn
  simpa using h

theorem Knowledge.Grounded.not_validGiven {name : String} (hk : k.Grounded t)
    (h : t.Fails k.Failed name) : ¬ t.ValidGiven k.Trusted name :=
  h.not_validGiven hk.not_valid hk.registered

/--
The walk from a type that is registered under its name, be it one that references can name or not.
-/
theorem walk_of_find? (hk : k.Settled t) (hd : t.find? d.cname = some d)
    : Walked t [] k (fun k' => t.ValidGiven k'.Trusted d.cname)
        (fun k' => ¬ t.ValidGiven k'.Trusted d.cname) (walk t k d) := by
  unfold walk
  split
  . next hget =>
    have hcore := core_cname_of_get? hget
    have h := checkName_walked t [] k d.cname hk.toGrounded hk.supported
    rw [hcore] at h
    generalize checkName t [] k d.cname = result at h ⊢
    rcases result with ⟨_ | f, k'⟩
    . rcases h with ⟨hext, hs, hacc⟩
      exact ⟨hext, hs, hs.validGiven_trusted hacc⟩
    . rcases h with ⟨hvalid, hk', hfails⟩
      exact ⟨hvalid, hk', hk'.not_validGiven hfails⟩
  . next hget =>
    have hcore : Reference.core d.cname ≠ d.cname := by
      intro hcore
      apply hget
      unfold Table.get?
      rw [hcore, hd]
    have h := checkType_walked t [d.cname] k d hk.toGrounded hk.supported
    generalize checkType t [d.cname] k d = result at h ⊢
    rcases result with ⟨_ | f, k'⟩
    . rcases h with ⟨hext, hs, hsound, hrefs⟩
      have hs := hs.of_core hcore
      refine ⟨hext, hs, Table.validGiven_iff.2 (.inr ⟨d, hd, hsound, ?_⟩)⟩
      intro r hr
      apply hs.validGiven_trusted
      exact Accepted.of_core hcore (core_of_mem_references hr) (hrefs r hr)
    . rcases h with ⟨hvalid, hk', hbad⟩
      refine ⟨hvalid, hk', ?_⟩
      intro hgiven
      rcases Table.validGiven_iff.1 hgiven with hmem | ⟨e, he, hsound, hrefs⟩
      . exact hcore (hk'.core _ hmem)
      . have he : d = e := by simpa [hd] using he
        rw [← he] at hsound hrefs
        rcases hbad with hfault | ⟨r, hr, hfails⟩
        . exact hfault hsound
        . exact hk'.not_validGiven hfails (hrefs r hr)

theorem check_settled (hk : k.Settled t) : (check t k d).2.Settled t := by
  have h := walk_walked (d := d) hk
  rw [check_snd]
  generalize walk t k d = result at h ⊢
  rcases result with ⟨_ | f, k'⟩
  . exact h.2.1.settle_none (h.1.grounded hk.toGrounded)
  . exact h.2.1.settle_some

/--
A type passes if it is valid, where the names trusted are taken for granted.
-/
theorem check_fst_eq_none_iff (hk : k.Settled t) (hd : t.find? d.cname = some d)
    : (check t k d).1 = none ↔ t.ValidGiven k.Trusted d.cname := by
  have h := walk_of_find? hk hd
  rw [check_fst_eq_none]
  generalize walk t k d = result at h ⊢
  rcases result with ⟨_ | f, k'⟩
  . rcases h with ⟨hext, _, hvalid⟩
    simpa [Trusted, hext.valid] using hvalid
  . rcases h with ⟨hvalid, _, hinvalid⟩
    simpa [Trusted, hvalid] using hinvalid

theorem validGiven_of_find? {n : String} (hk : k.Settled t) (hd : t.find? d.cname = some d)
    (hn : n ∈ (check t k d).2.Trusted) : t.ValidGiven k.Trusted n := by
  have h := walk_of_find? hk hd
  rw [check_snd] at hn
  generalize walk t k d = result at h hn
  rcases result with ⟨_ | f, k'⟩
  . rcases h with ⟨hext, hs, _⟩
    rw [trusted_settle_none] at hn
    simpa [Trusted, hext.valid] using hs.validGiven_trusted hn
  . rcases h with ⟨hvalid, _, _⟩
    rw [trusted_settle_some] at hn
    apply Table.validGiven_of_mem
    simpa [Trusted, hvalid] using hn

theorem Knowledge.Faithful.validGiven_iff {name : String} (hk : k.Faithful t)
    : t.ValidGiven k.Trusted name ↔ t.Valid name := by
  constructor
  . intro h
    rw [← Table.validGiven_empty]
    exact h.trans fun n hn => Table.validGiven_empty.2 (hk.valid n hn)
  . exact Table.Valid.validGiven

theorem Knowledge.Faithful.check_fst (hk : k.Faithful t) (hd : t.find? d.cname = some d)
    : (check t k d).1 = none ↔ t.Valid d.cname := by
  rw [check_fst_eq_none_iff hk.toSettled hd, hk.validGiven_iff]

theorem Knowledge.Faithful.check_snd (hk : k.Faithful t) (hd : t.find? d.cname = some d)
    : (check t k d).2.Faithful t where
  toSettled := check_settled hk.toSettled
  valid _ hn := hk.validGiven_iff.1 (validGiven_of_find? hk.toSettled hd hn)

end Interop.Validation
