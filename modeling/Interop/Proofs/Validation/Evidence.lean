import Interop.Proofs.Validation.Session

/-!
This module contains what an error of a check is evidence of: a way from the type that was checked,
dependency by dependency through registered types, to a name that is not registered or to a type
that is malformed. Failures are noted where they arise and answer for all later checks, so each of
them has to tell such a way from its own type, whatever was checked before.
-/

namespace Interop

/--
A way from a type to a name: the first name of `via` is one that the type refers to, each further
one is referred to by the registered type of the name before it, and so is `target` at the end.
-/
inductive Table.Leads (t : Table) : Descriptor → List String → String → Prop where
  | direct {d : Descriptor} {target : String} (href : target ∈ d.references) : t.Leads d [] target
  | through {d e : Descriptor} {n target : String} {via : List String} (href : n ∈ d.references)
      (hget : t.get? n = some e) (hrest : t.Leads e via target) : t.Leads d (n :: via) target

namespace Validation

variable {t : Table} {k k' : Knowledge} {d : Descriptor} {f : Failure}

theorem get?_of_mem_references {n : String} (h : n ∈ d.references) : t.get? n = t.find? n := by
  unfold Table.get?
  rw [Knowledge.core_of_mem_references h]

/--
The failure tells what is wrong with a type, or with one that it leads to.
-/
inductive Failure.Evident (t : Table) (d : Descriptor) : Failure → Prop where
  | missing {via : List String} {n : String} (hway : t.Leads d via n) (hget : t.get? n = none)
      : Evident t d ⟨n, via, none⟩
  | malformed {via : List String} {n detail : String} {e : Descriptor} (hway : t.Leads d via n)
      (hget : t.get? n = some e) (hfault : structureFault? t e = some detail)
      : Evident t d ⟨n, via, some detail⟩
  | itself {detail : String} (hfault : structureFault? t d = some detail)
      : Evident t d ⟨d.cname, [], some detail⟩

/--
The failure of a name is that it is not registered, or is evident from the type registered.
-/
def Failure.EvidentAt (t : Table) (name : String) (f : Failure) : Prop :=
  match t.find? name with
  | none => f = ⟨name, [], none⟩
  | some d => f.Evident t d

-- The failure of a dependency that says no more than its name is passed on as it is.
theorem Failure.EvidentAt.through {name : String} (h : f.EvidentAt t name)
    (href : name ∈ d.references) : (f.through name).Evident t d := by
  have hget := get?_of_mem_references (t := t) href
  unfold Failure.EvidentAt at h
  unfold Failure.through
  split at h
  . next hfind =>
    subst h
    rw [if_pos ⟨rfl, rfl⟩]
    exact .missing (.direct href) (hget.trans hfind)
  . next e hfind =>
    rw [hfind] at hget
    cases h with
    | missing hway hunknown =>
      split
      . next hname =>
        rcases hname with ⟨rfl, _⟩
        rw [hget] at hunknown
        cases hunknown
      . exact .missing (.through href hget hway) hunknown
    | malformed hway hknown hfault =>
      split
      . next hname =>
        rcases hname with ⟨rfl, rfl⟩
        exact .malformed (.direct href) hknown hfault
      . exact .malformed (.through href hget hway) hknown hfault
    | itself hfault =>
      have hcname : e.cname = name := Table.cname_of_find? hfind
      rw [if_pos ⟨hcname, rfl⟩, hcname]
      exact .malformed (.direct href) hget hfault

namespace Knowledge

/--
Every failure noted is evident.
-/
def Evident (t : Table) (k : Knowledge) : Prop :=
  ∀ n f, k.failed.lookup n = some f → f.EvidentAt t n

/--
No failure that was noted is forgotten or replaced.
-/
def Remembers (k k' : Knowledge) : Prop :=
  ∀ n f, k.failed.lookup n = some f → k'.failed.lookup n = some f

theorem Remembers.refl : Remembers k k :=
  fun _ _ h => h

theorem Remembers.trans {k'' : Knowledge} (h : Remembers k k') (h' : Remembers k' k'')
    : Remembers k k'' :=
  fun n f hn => h' n f (h n f hn)

theorem lookup_fail {name n : String}
    : { k with failed := (name, f) :: k.failed }.failed.lookup n
        = if n = name then some f else k.failed.lookup n := by
  rw [List.lookup_cons]
  by_cases h : n = name
  . simp [h]
  . rw [if_neg h, beq_eq_false_iff_ne.2 h]

theorem Evident.fail {name : String} (h : k.Evident t) (hf : f.EvidentAt t name)
    : { k with failed := (name, f) :: k.failed }.Evident t := by
  intro n g hlookup
  rw [lookup_fail] at hlookup
  split at hlookup
  . next hn =>
    rw [hn, ← Option.some.inj hlookup]
    exact hf
  . exact h n g hlookup

-- A name that was not noted before is not one of those remembered.
theorem Remembers.fail {name : String} (h : Remembers k k') (hname : k.failed.lookup name = none)
    : Remembers k { k' with failed := (name, f) :: k'.failed } := by
  intro n g hg
  rw [lookup_fail, if_neg]
  . exact h n g hg
  . rintro rfl
    rw [hname] at hg
    cases hg

end Knowledge

open Knowledge

/--
What a walk that begins with `k` comes to: all that is noted is evident, and its own failure is
accounted for.
-/
structure Accounts (t : Table) (k : Knowledge) (account : Knowledge → Failure → Prop)
    (result : Option Failure × Knowledge) : Prop where
  evident : result.2.Evident t
  remembers : Remembers k result.2
  failure : ∀ f, result.1 = some f → account result.2 f

theorem Accounts.passed {account : Knowledge → Failure → Prop} (hk : k'.Evident t)
    (h : Remembers k k') : Accounts t k account (none, k') :=
  ⟨hk, h, fun _ hf => by cases hf⟩

theorem Accounts.failed {account : Knowledge → Failure → Prop} (hk : k'.Evident t)
    (h : Remembers k k') (hf : account k' f) : Accounts t k account (some f, k') :=
  ⟨hk, h, fun _ hg => Option.some.inj hg ▸ hf⟩

/--
A failure at a name is evident there, and noted if the name is registered.
-/
def NotedAt (t : Table) (name : String) (k : Knowledge) (f : Failure) : Prop :=
  f.EvidentAt t name ∧ (t.find? name ≠ none → k.failed.lookup name = some f)

variable (t) in
-- The induction is that of the walk itself: the names on the path, then the references left.
mutual

theorem checkName_accounts (path : List String) (k : Knowledge) (ref : String) (hk : k.Evident t)
    : Accounts t k (NotedAt t (Reference.core ref)) (checkName t path k ref) := by
  rw [checkName]
  split
  . next f hf => exact .failed hk .refl ⟨hk _ _ hf, fun _ => hf⟩
  . next hf =>
    split
    . exact .passed hk .refl
    . split
      . exact .passed hk .refl
      . next hpath =>
        split
        . next hfind =>
          refine .failed hk .refl ⟨?_, fun hknown => absurd hfind hknown⟩
          unfold Failure.EvidentAt
          rw [hfind]
        . next d hfind =>
          have hlt : t.unseen (Reference.core ref :: path) < t.unseen path := by
            have hname : d.cname = Reference.core ref := Table.cname_of_find? hfind
            rw [← hname]
            exact Table.unseen_cons_lt (Table.mem_of_find? hfind) (hname ▸ hpath)
          have hwalk := checkType_accounts (Reference.core ref :: path) k d hk
          generalize checkType t (Reference.core ref :: path) k d = result at hwalk ⊢
          rcases hwalk with ⟨hevident, hremembers, hfailure⟩
          rcases result with ⟨_ | f, k'⟩
          . exact .passed hevident hremembers
          . have hf' : f.EvidentAt t (Reference.core ref) := by
              unfold Failure.EvidentAt
              rw [hfind]
              exact hfailure f rfl
            refine .failed (hevident.fail hf') (hremembers.fail hf) ⟨hf', fun _ => ?_⟩
            rw [lookup_fail, if_pos rfl]
termination_by (t.unseen path, 0)
decreasing_by
  exact .left _ _ hlt

theorem checkType_accounts (path : List String) (k : Knowledge) (d : Descriptor)
    (hk : k.Evident t) : Accounts t k (fun _ f => f.Evident t d) (checkType t path k d) := by
  rw [checkType]
  have hwalk := checkAll_accounts path k d d.dependencies hk fun _ h => h
  generalize checkAll t path k d.dependencies = result at hwalk ⊢
  rcases result with ⟨_ | f, k'⟩
  . refine ⟨hwalk.evident, hwalk.remembers, ?_⟩
    intro f hf
    rcases Option.map_eq_some_iff.1 hf with ⟨detail, hdetail, rfl⟩
    exact .itself hdetail
  . exact hwalk
termination_by (t.unseen path, d.dependencies.length + 2)

theorem checkAll_accounts (path : List String) (k : Knowledge) (d : Descriptor)
    (refs : List String) (hk : k.Evident t) (hrefs : refs ⊆ d.dependencies)
    : Accounts t k (fun _ f => f.Evident t d) (checkAll t path k refs) := by
  cases refs with
  | nil =>
    rw [checkAll]
    exact .passed hk .refl
  | cons ref refs =>
    rw [List.cons_subset] at hrefs
    have href : Reference.core ref ∈ d.references :=
      Descriptor.mem_references.2 ⟨ref, hrefs.1, rfl⟩
    rw [checkAll]
    have hfirst := checkName_accounts path k ref hk
    generalize checkName t path k ref = result at hfirst ⊢
    rcases hfirst with ⟨hevident, hremembers, hfailure⟩
    rcases result with ⟨_ | f, k'⟩
    . have hrest := checkAll_accounts path k' d refs hevident hrefs.2
      exact ⟨hrest.evident, hremembers.trans hrest.remembers, hrest.failure⟩
    . exact .failed hevident hremembers ((hfailure f rfl).1.through href)
termination_by (t.unseen path, refs.length + 1)

end

/--
What a check goes through comes to a failure that is evident from the type, and noted under its name
if the type is registered.
-/
theorem walk_accounts (hk : k.Evident t)
    : Accounts t k
        (fun k' f => f.Evident t d ∧ (t.get? d.cname = some d → k'.failed.lookup d.cname = some f))
        (walk t k d) := by
  unfold walk
  split
  . next hget =>
    have hcore := core_cname_of_get? hget
    have hname := checkName_accounts t [] k d.cname hk
    refine ⟨hname.evident, hname.remembers, ?_⟩
    intro f hf
    rcases hname.failure f hf with ⟨hevident, hnoted⟩
    unfold Failure.EvidentAt at hevident
    rw [hcore, find?_of_get? hget] at hevident hnoted
    exact ⟨hevident, fun _ => hnoted (by simp)⟩
  . next hget =>
    have htype := checkType_accounts t [d.cname] k d hk
    refine ⟨htype.evident, htype.remembers, ?_⟩
    intro f hf
    exact ⟨htype.failure f hf, fun hregistered => absurd hregistered hget⟩

theorem walk_of_lookup (hget : t.get? d.cname = some d) (h : k.failed.lookup d.cname = some f)
    : walk t k d = (some f, k) := by
  rw [← core_cname_of_get? hget] at h
  unfold walk
  rw [if_pos hget, checkName]
  simp only [h]

/--
What every check keeps holds at the end of a session.
-/
theorem after_of_check (holds : Knowledge → Prop) {requests : List Request}
    (hcheck : ∀ k d, holds k → holds (check t k d).2) (hk : holds k)
    : holds (after t k requests) := by
  have hpartition (ds : List Descriptor) {k : Knowledge} (hk : holds k)
      : holds (partition t k ds).2 := by
    induction ds generalizing k with
    | nil => exact hk
    | cons d ds ih =>
      have hd := hcheck k d hk
      unfold partition
      generalize check t k d = result at hd ⊢
      rcases result with ⟨_ | e, k'⟩
      . exact ih hd
      . exact ih hd
  induction requests generalizing k with
  | nil => exact hk
  | cons r rs ih =>
    apply ih
    cases r with
    | check d => exact hcheck k d hk
    | validate d => exact hcheck k d hk
    | partition ds => exact hpartition ds hk

theorem evident_initial : Knowledge.initial.Evident t := by
  intro n f h
  cases h

theorem after_evident (requests : List Request) (hk : k.Evident t)
    : (after t k requests).Evident t ∧ Remembers k (after t k requests) := by
  apply after_of_check (fun k' => k'.Evident t ∧ Remembers k k') _ ⟨hk, .refl⟩
  rintro k' d ⟨hevident, hremembers⟩
  have hwalk := walk_accounts (d := d) hevident
  exact ⟨hwalk.evident, hremembers.trans hwalk.remembers⟩

/--
The error of a check, whatever was asked before of types registered or not, describes a way from the
type that was checked through registered types. It ends with a name that is not registered, or with
a type that is malformed as the error says, if it is not the type that was checked itself. If that
one is registered then it gets the same error ever after.
-/
theorem check_error_evident (t : Table) (history : List Request) (d : Descriptor)
    (e : ValidationError) (h : (check t (after t .initial history) d).1 = some e)
    : e.symbol = d.cname
      ∧ (e.detail? = none → t.get? e.missing = none ∧ t.Leads d e.via e.missing)
      ∧ (∀ detail, e.detail? = some detail →
          (e.missing = d.cname ∧ e.via = [] ∧ structureFault? t d = some detail)
            ∨ ∃ m, t.get? e.missing = some m ∧ structureFault? t m = some detail
                ∧ t.Leads d e.via e.missing)
      ∧ (t.get? d.cname = some d →
          ∀ later : List Request,
            (check t (after t (check t (after t .initial history) d).2 later) d).1 = some e) := by
  have hk := (after_evident history (evident_initial (t := t))).1
  generalize after t .initial history = k at hk h ⊢
  have hwalk := walk_accounts (d := d) hk
  rw [check_eq] at h
  rcases Option.map_eq_some_iff.1 h with ⟨f, hf, rfl⟩
  rcases hwalk.failure f hf with ⟨hevident, hnoted⟩
  refine ⟨rfl, ?_, ?_, ?_⟩
  . intro hdetail
    cases hevident with
    | missing hway hget => exact ⟨hget, hway⟩
    | malformed | itself => cases hdetail
  . intro detail hdetail
    cases hevident with
    | missing => cases hdetail
    | malformed hway hget hfault => exact .inr ⟨_, hget, hfault.trans hdetail, hway⟩
    | itself hfault => exact .inl ⟨rfl, rfl, hfault.trans hdetail⟩
  . intro hregistered later
    have hevident : (check t k d).2.Evident t := hwalk.evident
    have hremembered : (after t (check t k d).2 later).failed.lookup d.cname = some f :=
      (after_evident later hevident).2 _ _ (hnoted hregistered)
    rw [check_eq, walk_of_lookup hregistered hremembered]
    rfl

theorem checkName_of_missing {path : List String} {ref : String}
    (hfailed : k.failed.lookup (Reference.core ref) = none)
    (hnew : ¬ (Reference.core ref ∈ k.valid ∨ Reference.core ref ∈ k.explored))
    (hpath : Reference.core ref ∉ path) (hfind : t.find? (Reference.core ref) = none)
    : checkName t path k ref = (some ⟨Reference.core ref, [], none⟩, k) := by
  rw [checkName]
  simp only [hfailed, if_neg hnew, dif_neg hpath]
  split
  . rfl
  . next d h => simp [hfind] at h

def cyclicLeft : Descriptor :=
  structureOf "Left" ["DemoRight*", "DemoMissing"]

def cyclicRight : Descriptor :=
  structureOf "Right" ["const DemoLeft *"]

-- Under the second structure the first one fails on its own account, before the cycle is closed.
theorem walk_cyclic : walk cyclicTable .initial cyclicRight
    = (some ⟨"DemoMissing", ["DemoLeft"], none⟩,
        { failed := [("DemoRight", ⟨"DemoMissing", ["DemoLeft"], none⟩),
            ("DemoLeft", ⟨"DemoMissing", [], none⟩)],
          valid := [], explored := [], revisited := ["DemoRight"] }) := by
  have hget : cyclicTable.get? cyclicRight.cname = some cyclicRight := by decide +kernel
  have hright : cyclicTable.find? "DemoRight" = some cyclicRight := by decide +kernel
  have hleft : cyclicTable.find? "DemoLeft" = some cyclicLeft := by decide +kernel
  have hmissing : cyclicTable.find? "DemoMissing" = none := by decide +kernel
  have hcname : Reference.core cyclicRight.cname = "DemoRight" := by decide +kernel
  have hcore : Reference.core "const DemoLeft *" = "DemoLeft" := by decide +kernel
  have hcore' : Reference.core "DemoRight*" = "DemoRight" := by decide +kernel
  have hcore'' : Reference.core "DemoMissing" = "DemoMissing" := by decide +kernel
  have hdependencies : cyclicRight.dependencies = ["const DemoLeft *"] := by decide +kernel
  have hdependencies' : cyclicLeft.dependencies = ["DemoRight*", "DemoMissing"] := by decide +kernel
  have hback : checkName cyclicTable ["DemoLeft", "DemoRight"] .initial "DemoRight*"
      = (none, { Knowledge.initial with revisited := ["DemoRight"] }) := by
    rw [checkName_of_mem (by rfl) (by simp [initial]) (by simp [hcore']), hcore']
    rfl
  rw [walk, if_pos hget]
  rw [checkName_of_find? (by rfl) (by simp [initial]) (by simp) (hcname ▸ hright)]
  rw [hcname, checkType, hdependencies, checkAll]
  rw [checkName_of_find? (by rfl) (by simp [initial]) (by simp [hcore]) (hcore ▸ hleft)]
  rw [hcore, checkType, hdependencies', checkAll, hback]
  dsimp only
  rw [checkAll, checkName_of_missing (by rfl) (by simp [initial]) (by simp [hcore''])
    (by rw [hcore'', hmissing]), hcore'']
  decide +kernel

theorem check_error_evident_cyclic
    : (check cyclicTable (after cyclicTable .initial [.check cyclicRight]) cyclicRight).1
          = some ⟨"DemoRight", "DemoMissing", ["DemoLeft"], none, none⟩
        ∧ cyclicTable.get? "DemoMissing" = none
        ∧ cyclicTable.Leads cyclicRight ["DemoLeft"] "DemoMissing" := by
  have hget : cyclicTable.get? cyclicRight.cname = some cyclicRight := by decide +kernel
  have herror : (check cyclicTable (after cyclicTable .initial [.check cyclicRight]) cyclicRight).1
      = some ⟨"DemoRight", "DemoMissing", ["DemoLeft"], none, none⟩ := by
    rw [after, after, Request.answer, check_eq, check_eq, walk_cyclic]
    rw [walk_of_lookup hget (by rfl)]
    decide +kernel
  have hevident := check_error_evident cyclicTable [.check cyclicRight] cyclicRight _ herror
  exact ⟨herror, hevident.2.1 rfl⟩

end Validation

end Interop
