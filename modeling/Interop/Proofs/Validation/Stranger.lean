import Interop.Proofs.Validation.Session

/-!
This module contains what remains of checks whose types are not registered. Such a type stands in
for its name while it is checked, and the types explored under it stay valid after it is gone. So a
later check can pass although a name that it leads to is not registered.
-/

namespace Interop

open Relation

/--
The names met on the ways from `heads`, where nothing is looked for behind names that are trusted.
-/
def Table.Met (t : Table) (trusted : Set String) (heads : List String) : Set String :=
  {n | n ∉ trusted ∧ ∃ s ∈ heads, ReflTransGen (fun a b => a ∉ trusted ∧ t.Refers a b) s n}

variable {t : Table} {trusted : Set String} {heads : List String}

theorem Table.met_mono {heads' : List String} {n : String} (h : n ∈ t.Met trusted heads)
    (hsub : ∀ s ∈ heads, s ∈ heads') : n ∈ t.Met trusted heads' := by
  rcases h with ⟨hn, s, hs, hway⟩
  exact ⟨hn, s, hsub s hs, hway⟩

-- A way that avoids more names is also one that avoids fewer.
theorem Table.met_of_insert {name n : String} {d : Descriptor} (hname : name ∉ trusted)
    (hd : t.find? name = some d) (h : n ∈ t.Met (insert name trusted) d.references)
    : n ∈ t.Met trusted [name] := by
  rcases h with ⟨hn, r, hr, hway⟩
  refine ⟨fun hmem => hn (.inr hmem), name, List.mem_singleton.2 rfl, ?_⟩
  apply ReflTransGen.head ⟨hname, d, hd, hr⟩
  refine ReflTransGen.mono ?_ _ _ hway
  rintro a b ⟨ha, hab⟩
  exact ⟨fun hmem => ha (.inr hmem), hab⟩

namespace Validation

open Knowledge

/--
The names that a walk under `path` takes for granted.
-/
def Knowledge.Granted (k : Knowledge) (path : List String) : Set String :=
  k.Trusted ∪ {n | n ∈ path}

theorem Knowledge.granted_cons {k : Knowledge} {path : List String} {name : String}
    : k.Granted (name :: path) = insert name (k.Granted path) := by
  ext n
  simp only [Granted, List.mem_cons, Set.mem_union, Set.mem_ofPred_eq, Set.mem_insert_iff]
  tauto

theorem Knowledge.trusted_congr {k k' : Knowledge} (h : k'.valid = k.valid)
    : k'.Trusted = k.Trusted := by
  unfold Trusted
  rw [h]

theorem Knowledge.granted_congr {k k' : Knowledge} {path : List String} (h : k'.valid = k.valid)
    : k'.Granted path = k.Granted path := by
  unfold Granted
  rw [trusted_congr h]

def Confined (t : Table) (path : List String) (k : Knowledge) (heads : List String)
    (k' : Knowledge) : Prop :=
  k'.valid = k.valid
    ∧ ∀ n ∈ k'.explored, n ∈ k.explored ∨ n ∈ t.Met (k.Granted path) heads

variable (t) in
mutual

theorem checkName_confined (path : List String) (k : Knowledge) (ref : String)
    : Confined t path k [Reference.core ref] (checkName t path k ref).2 := by
  rw [checkName]
  split
  . exact ⟨rfl, fun n hn => .inl hn⟩
  . split
    . exact ⟨rfl, fun n hn => .inl hn⟩
    . next hnew =>
      split
      . exact ⟨rfl, fun n hn => .inl hn⟩
      . next hpath =>
        split
        . exact ⟨rfl, fun n hn => .inl hn⟩
        . next d hfind =>
          have hlt : t.unseen (Reference.core ref :: path) < t.unseen path := by
            have hname : d.cname = Reference.core ref := Table.cname_of_find? hfind
            rw [← hname]
            exact Table.unseen_cons_lt (Table.mem_of_find? hfind) (hname ▸ hpath)
          have hname : Reference.core ref ∉ k.Granted path := by
            rintro (h | h)
            . exact hnew (.inl h)
            . exact hpath h
          have hwalk := checkType_confined (Reference.core ref :: path) k d
          generalize checkType t (Reference.core ref :: path) k d = result at hwalk ⊢
          rcases hwalk with ⟨hvalid, hexplored⟩
          rw [granted_cons] at hexplored
          have hmet : ∀ n ∈ result.2.explored,
              n ∈ k.explored ∨ n ∈ t.Met (k.Granted path) [Reference.core ref] := by
            intro n hn
            rcases hexplored n hn with hn | hn
            . exact .inl hn
            . exact .inr (Table.met_of_insert hname hfind hn)
          rcases result with ⟨_ | f, k'⟩
          . refine ⟨hvalid, ?_⟩
            intro n hn
            rcases List.mem_cons.1 hn with rfl | hn
            . exact .inr ⟨hname, _, List.mem_singleton.2 rfl, .refl⟩
            . exact hmet n hn
          . exact ⟨hvalid, hmet⟩
termination_by (t.unseen path, 0)
decreasing_by
  exact .left _ _ hlt

theorem checkType_confined (path : List String) (k : Knowledge) (d : Descriptor)
    : Confined t path k d.references (checkType t path k d).2 := by
  rw [checkType]
  have hwalk := checkAll_confined path k d.dependencies
  generalize checkAll t path k d.dependencies = result at hwalk ⊢
  rcases result with ⟨_ | f, k'⟩
  . exact hwalk
  . exact hwalk
termination_by (t.unseen path, d.dependencies.length + 2)

theorem checkAll_confined (path : List String) (k : Knowledge) (refs : List String)
    : Confined t path k (refs.map Reference.core) (checkAll t path k refs).2 := by
  cases refs with
  | nil =>
    rw [checkAll]
    exact ⟨rfl, fun n hn => .inl hn⟩
  | cons ref refs =>
    rw [checkAll]
    have hfirst := checkName_confined path k ref
    generalize checkName t path k ref = result at hfirst ⊢
    rcases hfirst with ⟨hvalid, hexplored⟩
    have hmet : ∀ n ∈ result.2.explored,
        n ∈ k.explored ∨ n ∈ t.Met (k.Granted path) ((ref :: refs).map Reference.core) := by
      intro n hn
      refine (hexplored n hn).imp_right fun hn => Table.met_mono hn ?_
      simp
    rcases result with ⟨_ | f, k'⟩
    . rcases checkAll_confined path k' refs with ⟨hvalid', hexplored'⟩
      refine ⟨hvalid'.trans hvalid, ?_⟩
      intro n hn
      rcases hexplored' n hn with hn | hn
      . exact hmet n hn
      . rw [granted_congr hvalid] at hn
        exact .inr (Table.met_mono hn fun s hs => List.mem_cons_of_mem _ hs)
    . exact ⟨hvalid, hmet⟩
termination_by (t.unseen path, refs.length + 1)

end

variable {k : Knowledge} {d : Descriptor}

theorem walk_confined : Confined t (assumed t d) k (starts t d) (walk t k d).2 := by
  unfold walk assumed starts
  split
  . next hget =>
    have h := checkName_confined t [] k d.cname
    rwa [core_cname_of_get? hget] at h
  . exact checkType_confined t [d.cname] k d

theorem Knowledge.Supported.mem_accepted {path : List String} {s n : String}
    (hs : k.Supported t path) (hstart : s ∈ k.Accepted path)
    (hway : ReflTransGen (fun a b => a ∉ k.Granted path ∧ t.Refers a b) s n)
    : n ∈ k.Accepted path := by
  induction hway with
  | refl => exact hstart
  | tail _ hstep ih =>
    rcases hstep with ⟨hgranted, d, hd, href⟩
    rcases ih with h | h | h
    . exact absurd (.inl h) hgranted
    . rcases hs.leans _ h with ⟨e, he, _, hrefs⟩
      have he : d = e := by simpa [hd] using he
      rw [← he] at hrefs
      exact hrefs _ href
    . exact absurd (.inr h) hgranted

theorem trusted_of_check (hk : k.Settled t) (hpass : (check t k d).1 = none)
    : (check t k d).2.Trusted
        = k.Trusted ∪ t.Met (k.Granted (assumed t d)) (starts t d) := by
  have hwalked := walk_walked (d := d) hk
  have hconfined := walk_confined (t := t) (k := k) (d := d)
  rw [check_fst_eq_none] at hpass
  rw [check_snd]
  generalize walk t k d = result at hwalked hconfined hpass ⊢
  rcases result with ⟨outcome, k'⟩
  simp only at hpass
  subst hpass
  rcases hwalked with ⟨hext, hs, hstarts⟩
  rcases hconfined with ⟨hvalid, hexplored⟩
  have htrusted : k'.Trusted = k.Trusted := trusted_congr hvalid
  rw [← granted_congr hvalid, ← htrusted, trusted_settle_none]
  rw [← granted_congr hvalid] at hexplored
  ext n
  constructor
  . rintro (h | h | h)
    . exact .inl h
    . rcases hexplored n h with h | h
      . simp [hk.explored] at h
      . exact .inr h
    . simp at h
  . rintro (h | ⟨hn, s, hstart, hway⟩)
    . exact .inl h
    . rcases hs.mem_accepted (hstarts s hstart) hway with h | h | h
      . exact .inl h
      . exact .inr (.inl h)
      . exact absurd (.inr h) hn

theorem trusted_of_check_ne_none (hk : k.Settled t) (hfail : (check t k d).1 ≠ none)
    : (check t k d).2.Trusted = k.Trusted := by
  have hwalked := walk_walked (d := d) hk
  rw [Ne, check_fst_eq_none] at hfail
  rw [check_snd]
  generalize walk t k d = result at hwalked hfail ⊢
  rcases result with ⟨_ | f, k'⟩
  . exact absurd rfl hfail
  . rw [trusted_settle_some]
    exact trusted_congr hwalked.1

/--
The names that checks leave behind as valid, where `ds` are the types that passed.
-/
def remembered (t : Table) (trusted : Set String) : List Descriptor → Set String
  | [] => trusted
  | d :: ds =>
    remembered t (trusted ∪ t.Met (trusted ∪ {n | n ∈ assumed t d}) (starts t d)) ds

theorem trusted_of_partition (history : List Descriptor) (hk : k.Settled t)
    : (partition t k history).2.Settled t
      ∧ (partition t k history).2.Trusted
          = remembered t k.Trusted (partition t k history).1.valid := by
  induction history generalizing k with
  | nil => exact ⟨hk, rfl⟩
  | cons d ds ih =>
    have hsettled := check_settled (d := d) hk
    have hpass := trusted_of_check (d := d) hk
    have hfail := trusted_of_check_ne_none (d := d) hk
    unfold partition
    generalize check t k d = result at hsettled hpass hfail ⊢
    rcases result with ⟨_ | e, k'⟩
    . rcases ih hsettled with ⟨hpast, htrusted⟩
      refine ⟨hpast, ?_⟩
      rw [htrusted, hpass rfl]
      rfl
    . rcases ih hsettled with ⟨hpast, htrusted⟩
      refine ⟨hpast, ?_⟩
      rw [htrusted, hfail (by simp)]

theorem Knowledge.Settled.verdict (hk : k.Settled t) (hd : t.find? d.cname = some d)
    : ((check t k d).1 = none ↔ (check t .initial d).1 = none)
        ↔
      (t.ValidGiven k.Trusted d.cname → t.Valid d.cname) := by
  rw [check_fst_eq_none_iff hk hd, faithful_initial.check_fst hd]
  constructor
  . intro h
    exact h.1
  . intro h
    exact ⟨h, Table.Valid.validGiven⟩

/--
After checks of any types, registered or not, a registered type passes if it is valid up to the
names that were remembered. So the history shows in a verdict exactly where a type is valid up to
these names and not valid in itself; it never turns down a valid type. No verdict at all is touched
if all names remembered are valid, and only then.
-/
theorem check_after_history (t : Table) (history : List Descriptor) (g : Descriptor)
    (hg : t.get? g.cname = some g)
    : let past := partition t .initial history
      let names := remembered t ∅ past.1.valid
      ((check t past.2 g).1 = none ↔ t.ValidGiven names g.cname)
        ∧ (((check t past.2 g).1 = none ↔ (check t .initial g).1 = none)
            ↔ (t.ValidGiven names g.cname → t.Valid g.cname))
        ∧ ((check t .initial g).1 = none → (check t past.2 g).1 = none)
        ∧ ((∀ d, t.get? d.cname = some d →
              ((check t past.2 d).1 = none ↔ (check t .initial d).1 = none))
            ↔ ∀ n ∈ names, t.Valid n) := by
  intro past names
  have hinitial : Knowledge.initial.Settled t := faithful_initial.toSettled
  rcases trusted_of_partition history hinitial with ⟨hpast, htrusted⟩
  have hnames : past.2.Trusted = names := by
    rw [htrusted]
    simp [names, past, Trusted, initial]
  have hfind := find?_of_get? hg
  rw [← hnames]
  refine ⟨check_fst_eq_none_iff hpast hfind, hpast.verdict hfind, ?_, ?_⟩
  . rw [faithful_initial.check_fst hfind, check_fst_eq_none_iff hpast hfind]
    exact Table.Valid.validGiven
  . constructor
    . intro hsame n hn
      rcases Option.ne_none_iff_exists'.1 (hpast.registered n hn) with ⟨d, hd⟩
      have hcname : d.cname = n := Table.cname_of_find? hd
      have hget : t.get? d.cname = some d := by
        unfold Table.get?
        rw [hcname, hpast.core n hn, hd]
      rw [← hcname] at hn ⊢
      exact (hpast.verdict (find?_of_get? hget)).1 (hsame d hget) (Table.validGiven_of_mem hn)
    . intro hvalid d hd
      rw [hpast.verdict (find?_of_get? hd), ← Table.validGiven_empty]
      intro hgiven
      exact hgiven.trans fun n hn => Table.validGiven_empty.2 (hvalid n hn)

def left : Descriptor :=
  structureOf "Left" ["DemoStray*"]

/--
The structure that is not registered, which refers back.
-/
def stray : Descriptor :=
  structureOf "Stray" ["DemoLeft*"]

def strayTable : Table where
  entries := [left]
  nodup := by decide

theorem check_after_history_stray
    : strayTable.get? left.cname = some left
      ∧ let names := remembered strayTable ∅ (partition strayTable .initial [stray]).1.valid
        (check strayTable (partition strayTable .initial [stray]).2 left).1 = none
          ↔ strayTable.ValidGiven names left.cname := by
  have hleft : strayTable.get? left.cname = some left := by decide +kernel
  exact ⟨hleft, (check_after_history strayTable [stray] left hleft).1⟩

theorem check_stray : check strayTable .initial stray = (none,
    { failed := [], valid := ["DemoLeft"], explored := [], revisited := ["DemoStray"] }) := by
  have hget : strayTable.get? stray.cname ≠ some stray := by decide +kernel
  have hfind : strayTable.find? "DemoLeft" = some left := by decide +kernel
  have hcore : Reference.core "DemoLeft*" = "DemoLeft" := by decide +kernel
  have hcore' : Reference.core "DemoStray*" = "DemoStray" := by decide +kernel
  have hdependencies : stray.dependencies = ["DemoLeft*"] := by decide +kernel
  have hdependencies' : left.dependencies = ["DemoStray*"] := by decide +kernel
  have hback : checkName strayTable ["DemoLeft", "DemoStray"] .initial "DemoStray*"
      = (none, { Knowledge.initial with revisited := ["DemoStray"] }) := by
    rw [checkName_of_mem (by rfl) (by simp [initial]) (by simp [hcore']), hcore']
    rfl
  rw [check_eq, walk, if_neg hget, checkType, hdependencies, checkAll]
  rw [checkName_of_find? (by rfl) (by simp [initial]) (by rw [hcore]; decide +kernel)
    (hcore ▸ hfind)]
  rw [hcore, checkType, hdependencies', checkAll]
  rw [show stray.cname = "DemoStray" by decide +kernel, hback]
  simp only [checkAll]
  decide +kernel

-- On its own the type fails for the missing name; after the stray type it passes.
theorem not_check_after_history
    : ¬ ∀ (t : Table) (history : List Descriptor) (g : Descriptor), t.get? g.cname = some g →
        ((check t (partition t .initial history).2 g).1 = none
          ↔ (check t .initial g).1 = none) := by
  intro h
  have hget : strayTable.get? left.cname = some left := by decide +kernel
  have hpast : (partition strayTable .initial [stray]).2
      = { failed := [], valid := ["DemoLeft"], explored := [], revisited := ["DemoStray"] } := by
    rw [partition, check_stray]
    rfl
  have hpass : (check strayTable (partition strayTable .initial [stray]).2 left).1 = none := by
    rw [check_fst_eq_none_iff _ (find?_of_get? hget), hpast]
    . have hmem : left.cname ∈ ["DemoLeft"] := by decide +kernel
      exact Table.validGiven_of_mem hmem
    . exact (trusted_of_partition [stray] faithful_initial.toSettled).1
  have hvalid : strayTable.Valid left.cname := by
    rw [← faithful_initial.check_fst (find?_of_get? hget)]
    exact (h strayTable [stray] left hget).1 hpass
  have hrefers : strayTable.Refers left.cname "DemoStray" :=
    ⟨left, by decide +kernel, by decide +kernel⟩
  rcases hvalid _ (.single hrefers) with ⟨d, hd, _⟩
  have hnone : strayTable.find? "DemoStray" = none := by decide +kernel
  simp [hnone] at hd

end Validation

end Interop
