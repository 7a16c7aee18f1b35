import Interop.Proofs.Generation.Alike
import Interop.Proofs.Order
import Interop.Proofs.Run.Declared

/-!
This module contains what a declaration does that repeats one of the same run. The table takes no
notice of it, and neither do the files if the type has none of its own or is not valid; but a valid
type that has a file is then in its own way, and the run fails.
-/

namespace Interop

open Disk Generation

namespace Run

/--
The list `cs` consists of `as` and `bs`, each of them in its order.
-/
inductive Mixed : List α → List α → List α → Prop where
  | nil : Mixed [] [] []
  | keep (a : α) {as bs cs : List α} (h : Mixed as bs cs) : Mixed (a :: as) bs (a :: cs)
  | again (b : α) {as bs cs : List α} (h : Mixed as bs cs) : Mixed as (b :: bs) (b :: cs)

namespace Mixed

variable {as as' bs bs' cs cs' : List α}

theorem refl (as : List α) : Mixed as [] as := by
  induction as with
  | nil => exact .nil
  | cons a as ih => exact .keep a ih

theorem added (bs : List α) : Mixed [] bs bs := by
  induction bs with
  | nil => exact .nil
  | cons b bs ih => exact .again b ih

theorem append (h : Mixed as bs cs) (h' : Mixed as' bs' cs')
    : Mixed (as ++ as') (bs ++ bs') (cs ++ cs') := by
  induction h with
  | nil => exact h'
  | keep a _ ih => exact .keep a ih
  | again b _ ih => exact .again b ih

theorem filter (keep : α → Bool) (h : Mixed as bs cs)
    : Mixed (as.filter keep) (bs.filter keep) (cs.filter keep) := by
  induction h with
  | nil => exact .nil
  | keep a _ ih =>
    rw [List.filter_cons, List.filter_cons]
    split
    . exact .keep a ih
    . exact ih
  | again b _ ih =>
    rw [List.filter_cons, List.filter_cons]
    split
    . exact .again b ih
    . exact ih

theorem perm (h : Mixed as bs cs) : cs.Perm (as ++ bs) := by
  induction h with
  | nil => exact .nil
  | keep a _ ih => exact ih.cons a
  | again b _ ih => exact (ih.cons b).trans List.perm_middle.symm

theorem eq_of_nil (h : Mixed as [] cs) : cs = as := by
  generalize hbs : [] = bs at h
  induction h with
  | nil => rfl
  | keep a _ ih => rw [ih hbs]
  | again b _ _ => cases hbs

theorem filter_eq {keep : α → Bool} (h : Mixed as bs cs) (hbs : ∀ b ∈ bs, keep b = false)
    : cs.filter keep = as.filter keep := by
  have hfiltered := h.filter keep
  have hnil : bs.filter keep = [] := by
    rw [List.filter_eq_nil_iff]
    intro b hb
    simp [hbs b hb]
  rw [hnil] at hfiltered
  exact hfiltered.eq_of_nil

end Mixed

section Repeats

variable {d d' : Disk} {schema? : Option Schema} {searchDir? : Option Path} {p : Path}
  {ds ds' : List Descriptor} {ps : List Path} {c c' : Options} {e g : Descriptor}

/--
The document declares the same on the second disk, or that and the type `g` once more.
-/
def Reread (d d' : Disk) (schema? : Option Schema) (searchDir? : Option Path) (g : Descriptor)
    (p : Path) : Prop :=
  (∀ ds, Declares d' schema? searchDir? p ds ↔ Declares d schema? searchDir? p ds)
    ∨ ∃ before after, Declares d schema? searchDir? p (before ++ after)
        ∧ Declares d' schema? searchDir? p (before ++ g :: after)

/--
How the documents of a run come to repeat a declaration: one to generate is listed once more, or a
type that is declared anyway is declared again, in a file that holds something else for this.
-/
inductive Repeats (schema? : Option Schema) (c : Options) (d : Disk) : Options → Disk → Prop where
  | document {before after : List Path} {p : Path} (hgenerate : c.generate = before ++ after)
      (hp : p ∈ c.generate)
      : Repeats schema? c d { c with generate := before ++ p :: after } d
  | declaration {d' : Disk} {g : Descriptor} (hdisk : Disk.Parallel ∅ d d' d d')
      (hg : Declared d schema? c g)
      (hreread : ∀ p ∈ c.includes ++ c.generate, Reread d d' schema? c.searchDir? g p)
      : Repeats schema? c d c d'

namespace Reread

theorem readable_iff (h : Reread d d' schema? searchDir? g p)
    : (∃ ds, Declares d' schema? searchDir? p ds) ↔ ∃ ds, Declares d schema? searchDir? p ds := by
  rcases h with hsame | ⟨before, after, hds, hds'⟩
  . simp only [hsame]
  . exact ⟨fun _ => ⟨_, hds⟩, fun _ => ⟨_, hds'⟩⟩

theorem mixed (h : Reread d d' schema? searchDir? g p) (hds : Declares d schema? searchDir? p ds)
    (hds' : Declares d' schema? searchDir? p ds')
    : ∃ extra, Mixed ds extra ds' ∧ ∀ e ∈ extra, e = g := by
  rcases h with hsame | ⟨before, after, hfirst, hsecond⟩
  . rw [hsame] at hds'
    rw [hds.unique hds']
    exact ⟨[], .refl ds, by simp⟩
  . rw [hfirst.unique hds, hsecond.unique hds']
    have hmixed : Mixed (before ++ after) ([] ++ [g]) (before ++ g :: after) :=
      (Mixed.refl before).append (.again g (.refl after))
    exact ⟨[g], hmixed, by simp⟩

theorem mixed_flatten {dss dss' : List (List Descriptor)}
    (h : ∀ p ∈ ps, Reread d d' schema? searchDir? g p)
    (hdss : List.Forall₂ (Declares d schema? searchDir?) ps dss)
    (hdss' : List.Forall₂ (Declares d' schema? searchDir?) ps dss')
    : ∃ extra, Mixed dss.flatten extra dss'.flatten ∧ ∀ e ∈ extra, e = g := by
  induction hdss generalizing dss' with
  | nil =>
    cases hdss'
    exact ⟨[], .nil, by simp⟩
  | cons hds hdss ih =>
    rw [List.forall_mem_cons] at h
    cases hdss' with
    | cons hds' hdss' =>
      rcases h.1.mixed hds hds' with ⟨extra, hmixed, hextra⟩
      rcases ih h.2 hdss' with ⟨rest, hrest, heq⟩
      refine ⟨extra ++ rest, hmixed.append hrest, ?_⟩
      intro e he
      exact (List.mem_append.1 he).elim (hextra e) (heq e)

end Reread

theorem mixed_inserted {before after : List Path} {dss dss' : List (List Descriptor)}
    (hdss : List.Forall₂ (Declares d schema? searchDir?) (before ++ after) dss)
    (hdss' : List.Forall₂ (Declares d schema? searchDir?) (before ++ p :: after) dss')
    : ∃ ds, Declares d schema? searchDir? p ds ∧ Mixed dss.flatten ds dss'.flatten := by
  induction before generalizing dss dss' with
  | nil =>
    cases hdss' with
    | @cons _ ds _ rest hds hrest =>
      rw [List.right_unique_forall₂' declares_rightUnique hdss hrest]
      have hmixed := (Mixed.added ds).append (.refl rest.flatten)
      rw [List.append_nil] at hmixed
      exact ⟨ds, hds, hmixed⟩
  | cons q before ih =>
    cases hdss with
    | @cons _ ds _ _ hds hdss =>
      cases hdss' with
      | cons hds' hdss' =>
        rcases ih hdss hdss' with ⟨extra, hextra, hmixed⟩
        rw [hds.unique hds']
        exact ⟨extra, hextra, (Mixed.refl ds).append hmixed⟩

theorem mem_inserted {before after : List Path} {q : Path}
    (hgenerate : c.generate = before ++ after) (hp : p ∈ c.generate)
    : q ∈ c.includes ++ (before ++ p :: after) ↔ q ∈ c.includes ++ c.generate := by
  rw [hgenerate] at hp ⊢
  simp only [List.mem_append, List.mem_cons] at hp ⊢
  constructor
  . rintro (h | h | rfl | h)
    . exact .inl h
    . exact .inr (.inl h)
    . exact .inr hp
    . exact .inr (.inr h)
  . rintro (h | h | h)
    . exact .inl h
    . exact .inr (.inl h)
    . exact .inr (.inr (.inr h))

namespace Repeats

theorem options (h : Repeats schema? c d c' d') : c' = { c with generate := c'.generate } := by
  cases h with
  | document => rfl
  | declaration => rfl

theorem disk (h : Repeats schema? c d c' d') : Disk.Parallel ∅ d d' d d' := by
  cases h with
  | document => exact .refl
  | declaration hdisk => exact hdisk

theorem readable_iff (h : Repeats schema? c d c' d')
    : (∀ p ∈ c'.includes ++ c'.generate, ∃ ds, Declares d' schema? c'.searchDir? p ds)
        ↔ ∀ p ∈ c.includes ++ c.generate, ∃ ds, Declares d schema? c.searchDir? p ds := by
  cases h with
  | document hgenerate hp => simp only [mem_inserted hgenerate hp]
  | declaration _ _ hreread => exact forall₂_congr fun p hp => (hreread p hp).readable_iff

theorem declared_iff (h : Repeats schema? c d c' d')
    : Declared d' schema? c' e ↔ Declared d schema? c e := by
  cases h with
  | document hgenerate hp =>
    unfold Declared
    simp only [mem_inserted hgenerate hp]
  | declaration _ hg hreread =>
    constructor
    . rintro ⟨p, hp, ds', hds', he⟩
      rcases (hreread p hp).readable_iff.1 ⟨ds', hds'⟩ with ⟨ds, hds⟩
      rcases (hreread p hp).mixed hds hds' with ⟨extra, hmixed, hextra⟩
      rcases List.mem_append.1 (hmixed.perm.mem_iff.1 he) with he | he
      . exact ⟨p, hp, ds, hds, he⟩
      . rw [hextra e he]
        exact hg
    . rintro ⟨p, hp, ds, hds, he⟩
      rcases (hreread p hp).readable_iff.2 ⟨ds, hds⟩ with ⟨ds', hds'⟩
      rcases (hreread p hp).mixed hds hds' with ⟨extra, hmixed, _⟩
      exact ⟨p, hp, ds', hds', hmixed.perm.mem_iff.2 (List.mem_append_left _ he)⟩

theorem loads_iff (h : Repeats schema? c d c' d')
    : (∃ l, Loads d' schema? c' l) ↔ ∃ l, Loads d schema? c l := by
  rw [Run.loads_iff, Run.loads_iff, h.readable_iff]
  unfold Harmonious
  simp only [h.declared_iff]

theorem mixed {dss dss' : List (List Descriptor)} (h : Repeats schema? c d c' d')
    (hdss : List.Forall₂ (Declares d schema? c.searchDir?) c.generate dss)
    (hdss' : List.Forall₂ (Declares d' schema? c'.searchDir?) c'.generate dss')
    : ∃ extra, Mixed dss.flatten extra dss'.flatten ∧ ∀ e ∈ extra, Declared d schema? c e := by
  cases h with
  | document hgenerate hp =>
    rw [hgenerate] at hdss
    rcases mixed_inserted hdss hdss' with ⟨ds, hds, hmixed⟩
    exact ⟨ds, hmixed, fun e he => ⟨_, List.mem_append_right _ hp, ds, hds, he⟩⟩
  | declaration _ hg hreread =>
    rcases Reread.mixed_flatten (fun p hp => hreread p (List.mem_append_right _ hp)) hdss hdss'
      with ⟨extra, hmixed, hextra⟩
    exact ⟨extra, hmixed, fun e he => hextra e he ▸ hg⟩

theorem loads (h : Repeats schema? c d c' d') {l : Loading} (hl : Loads d schema? c l)
    : ∃ l' extra, Loads d' schema? c' l' ∧ Mixed l.targets extra l'.targets
      ∧ (∀ e ∈ extra, e ∈ l.table.entries) ∧ l.table.Alike l'.table
      ∧ ∀ g ∈ l'.targets, l.table.find? g.cname = some g := by
  rcases h.loads_iff.2 ⟨l, hl⟩ with ⟨l', hl'⟩
  rcases hl.targets with ⟨dss, hdss, htargets⟩
  rcases hl'.targets with ⟨dss', hdss', htargets'⟩
  rcases h.mixed hdss hdss' with ⟨extra, hmixed, hextra⟩
  rw [← htargets, ← htargets'] at hmixed
  have halike : l.table.Alike l'.table := by
    apply Table.alike_of_mem_iff
    intro e
    rw [hl.mem_entries, hl'.mem_entries, h.declared_iff]
  refine ⟨l', extra, hl', hmixed, fun e he => hl.mem_entries.2 (.inr (hextra e he)), halike, ?_⟩
  intro g hg
  rw [← halike g.cname]
  exact hl'.find? hg

end Repeats

end Repeats

section Outcomes

variable {d d' : Disk} {o o' : Options} {l l' : Loading} {extra : List Descriptor}

/--
The result of a run of which so much was generated and excluded.
-/
def concluded (generated : Generation.Outcome) (excluded : Nat) : Result Statistics := do
  let closed? : Option (Except OutputError Unit × Outputs) := generated.outputs?.map (·.close)
  let s ← generated.result.mapError (Fault.map .generation)
  match closed? with
  | some (.error e, _) => fail (.generation (.output e))
  | _ => return { s with excluded := excluded }

theorem concluded_add {generated : Generation.Outcome} {excluded more : Nat}
    : concluded generated (excluded + more)
        = (concluded generated excluded).map fun s => { s with excluded := s.excluded + more } := by
  unfold concluded
  cases generated.result with
  | error fault => rfl
  | ok s =>
    dsimp only [Except.mapError, Bind.bind, Except.bind]
    split <;> rfl

open Classical in
theorem generateValid_concluded (htargets : ∀ g ∈ l.targets, l.table.find? g.cname = some g)
    : let generated := generate l.table (requested o d) (l.targets.filter (l.table.Valid ·.cname))
      (generateValid o d l).result
          = concluded generated (l.targets.countP fun g => ¬ l.table.Valid g.cname)
        ∧ (generateValid o d l).disk
          = (generated.outputs?.map (·.close)).elim d (·.2.disk) := by
  have hpartition := Validation.Knowledge.faithful_initial.partition htargets
  unfold generateValid
  generalize Validation.partition l.table .initial l.targets = result at hpartition ⊢
  rcases result with ⟨p, k⟩
  rcases hpartition with ⟨hvalid, hinvalid, _⟩
  have hexcluded : p.invalid.length = l.targets.countP fun g => ¬ l.table.Valid g.cname := by
    have hlength := congrArg List.length hinvalid
    simpa [List.countP_eq_length_filter] using hlength
  simp only at hvalid ⊢
  rw [← hexcluded, ← hvalid]
  exact ⟨rfl, rfl⟩

/--
The same was generated by both, on disks that went on in parallel.
-/
structure GeneratedAlike (start start' : Disk) (generated generated' : Generation.Outcome)
    : Prop where
  result : generated'.result = generated.result
  outputs : (generated.outputs? = none ∧ generated'.outputs? = none)
    ∨ ∃ agreed outputs outputs', generated.outputs? = some outputs
        ∧ generated'.outputs? = some outputs'
        ∧ Outputs.Parallel agreed start start' outputs outputs'

theorem generate_requested_parallel (t : Table) (ds : List Descriptor) (o : Options)
    (h : Disk.Parallel ∅ d d' d d')
    : GeneratedAlike d d' (generate t (requested o d) ds) (generate t (requested o d') ds) := by
  unfold requested
  split
  . rcases generate_parallel o.outputs t ds h with ⟨hresult, houtputs⟩
    exact ⟨hresult, .inr houtputs⟩
  . exact ⟨rfl, .inl ⟨generate_none_outputs, generate_none_outputs⟩⟩

theorem GeneratedAlike.concluded {generated generated' : Generation.Outcome}
    (h : GeneratedAlike d d' generated generated') (hdisk : Disk.Parallel ∅ d d' d d')
    (excluded : Nat)
    : Run.concluded generated' excluded = Run.concluded generated excluded
      ∧ Disk.Parallel ∅ d d' ((generated.outputs?.map (·.close)).elim d (·.2.disk))
          ((generated'.outputs?.map (·.close)).elim d' (·.2.disk)) := by
  unfold Run.concluded
  rw [h.result]
  rcases h.outputs with ⟨hnone, hnone'⟩ | ⟨agreed, outputs, outputs', hsome, hsome', houtputs⟩
  . rw [hnone, hnone']
    exact ⟨rfl, hdisk⟩
  . rw [hsome, hsome']
    rcases houtputs.close with ⟨r, closed, closed', agreed', hclose, hclose', hclosed⟩
    simp only [Option.map_some, hclose, hclose', Option.elim_some]
    refine ⟨?_, hclosed.disk.mono (Set.empty_subset _)⟩
    cases r with
    | error e => rfl
    | ok u => rfl

section Valid

open Classical

variable {t t' : Table} {ds : List Descriptor} (h : t.Alike t')
  (hds : ∀ g ∈ ds, t.find? g.cname = some g)

include h hds

theorem filter_valid_alike : ds.filter (t'.Valid ·.cname) = ds.filter (t.Valid ·.cname) := by
  apply List.filter_congr
  intro g hg
  exact decide_eq_decide.2 (h.passes_iff (hds g hg))

theorem countP_invalid_alike
    : (ds.countP fun g => ¬ t'.Valid g.cname) = ds.countP fun g => ¬ t.Valid g.cname := by
  apply List.countP_congr
  intro g hg
  simp only [decide_eq_true_eq, h.passes_iff (hds g hg)]

end Valid

/--
The second run had the result of the first, but for so many excluded types more, and wrote the same.
-/
def SameBut (d d' : Disk) (more : Nat) (run run' : Outcome) : Prop :=
  run'.result = run.result.map (fun s => { s with excluded := s.excluded + more })
    ∧ Disk.Parallel ∅ d d' run.disk run'.disk

/--
The run failed before it touched its outputs.
-/
def FailsOn (d : Disk) (run : Outcome) : Prop :=
  ∃ fault, run.result = .error fault ∧ Withheld fault ∧ run.disk = d

open Classical in
/--
Repeated types that are not valid, or have no source of their own, are only counted.
-/
theorem generateValid_mixed (houtputs : o'.outputs = o.outputs)
    (hdisk : Disk.Parallel ∅ d d' d d') (halike : l.table.Alike l'.table)
    (hmixed : Mixed l.targets extra l'.targets)
    (hknown : ∀ g ∈ l'.targets, l.table.find? g.cname = some g)
    (hextra : ∀ e ∈ extra, l.table.Valid e.cname → e.hasSource = false)
    : SameBut d d' (extra.countP fun e => ¬ l.table.Valid e.cname) (generateValid o d l)
        (generateValid o' d' l') := by
  have hsources : (l'.targets.filter (l.table.Valid ·.cname)).filter (·.hasSource)
      = (l.targets.filter (l.table.Valid ·.cname)).filter (·.hasSource) := by
    rw [List.filter_filter, List.filter_filter]
    apply hmixed.filter_eq
    intro e he
    by_cases hvalid : l.table.Valid e.cname
    . simp [hextra e he hvalid]
    . simp [hvalid]
  -- Neither run can be told from one over the types that have a source, and those are the same.
  have hgenerated : generate l'.table (requested o' d')
        (l'.targets.filter (l'.table.Valid ·.cname))
      = generate l.table (requested o d') (l.targets.filter (l.table.Valid ·.cname)) := by
    have hrequested : requested o' d' = requested o d' := by
      unfold requested
      rw [houtputs]
    rw [generate_alike halike, filter_valid_alike halike hknown, hrequested, ← generate_filter,
      hsources, generate_filter]
  have hexcluded : (l'.targets.countP fun g => ¬ l'.table.Valid g.cname)
      = (l.targets.countP fun g => ¬ l.table.Valid g.cname)
        + extra.countP fun e => ¬ l.table.Valid e.cname := by
    rw [countP_invalid_alike halike hknown, hmixed.perm.countP_eq, List.countP_append]
  rcases generateValid_concluded (o := o) (d := d)
    (fun g hg => hknown g (hmixed.perm.mem_iff.2 (List.mem_append_left _ hg)))
    with ⟨hresult, hafter⟩
  rcases generateValid_concluded (o := o') (d := d')
    (fun g hg => (halike g.cname).trans (hknown g hg)) with ⟨hresult', hafter'⟩
  unfold SameBut
  rw [hresult, hafter, hresult', hafter', hgenerated, hexcluded, concluded_add]
  have hboth := (generate_requested_parallel l.table (l.targets.filter (l.table.Valid ·.cname)) o
    hdisk).concluded hdisk (l.targets.countP fun g => ¬ l.table.Valid g.cname)
  exact ⟨by rw [hboth.1], hboth.2⟩

theorem not_nodup_of_mixed {ds ds' : List Descriptor} {e : Descriptor}
    (h : Mixed ds extra ds') (hds : e ∈ ds) (he : e ∈ extra) (hsource : e.hasSource = true)
    : ¬ (fileNames ds').Nodup := by
  rcases Option.isSome_iff_exists.1 hsource with ⟨identity, hidentity⟩
  have hname {es : List Descriptor} (hmem : e ∈ es) : identity.name ∈ fileNames es :=
    List.mem_map.2 ⟨identity, List.mem_filterMap.2 ⟨e, hmem, hidentity⟩, rfl⟩
  have hperm : (fileNames ds').Perm (fileNames ds ++ fileNames extra) := by
    have hnames := (h.perm.filterMap (·.identity?)).map (·.name)
    rwa [List.filterMap_append, List.map_append] at hnames
  rw [hperm.nodup_iff, List.nodup_append]
  rintro ⟨_, _, hapart⟩
  exact hapart _ (hname hds) _ (hname he) rfl

/--
A valid type that has a source of its own cannot be generated twice.
-/
theorem generateValid_twice {e : Descriptor} (halike : l.table.Alike l'.table)
    (hmixed : Mixed l.targets extra l'.targets)
    (hknown : ∀ g ∈ l'.targets, l.table.find? g.cname = some g)
    (htarget : e ∈ l.targets) (he : e ∈ extra) (hvalid : l.table.Valid e.cname)
    (hsource : e.hasSource = true) : FailsOn d (generateValid o d l') := by
  classical
  have hpartition := (Validation.Knowledge.faithful_initial.partition
    fun g hg => (halike g.cname).trans (hknown g hg)).1
  rw [filter_valid_alike halike hknown] at hpartition
  apply generateValid_of_not_ready hpartition
  intro hready
  apply not_nodup_of_mixed (hmixed.filter (l.table.Valid ·.cname)) _ _ hsource hready.names
  . exact List.mem_filter.2 ⟨htarget, decide_eq_true hvalid⟩
  . exact List.mem_filter.2 ⟨he, decide_eq_true hvalid⟩

end Outcomes

section Runs

variable {supported : Bool} {o o' c c' : Options} {d d' : Disk} {schema? : Option Schema}
  {l : Loading}

theorem execute_of_not_loads (h : Begun supported o d c schema?) (hl : ¬ ∃ l, Loads d schema? c l)
    : FailsOn d (execute supported o d) := by
  generalize hload : Loading.loadAll d schema? c.searchDir? (start c d) (documents c) = result
  rcases result with ⟨fault | u, l⟩
  . rcases Loading.loadAll_error_iff.1 hload with ⟨_, _, _, _, _, hdocuments, hbefore, hfails⟩
    exact execute_of_refused (.document h hdocuments hbefore hfails)
  . exact absurd ⟨l, hload⟩ hl

open Classical in
/--
What a repeated declaration changes in a run. If the documents cannot be loaded, both runs fail.
Else they are loaded with it too, and there are some `extra` types to generate, all of them known
before. Of these, the invalid ones are counted as excluded again. If the others have no source of
their own, the outcome is as before otherwise: the same result, and the same written. But if one of
them is valid, has a source, and was to be generated anyway, then the run fails and writes nothing.
-/
theorem execute_repeated (hbegun : Begun supported o d c schema?)
    (hbegun' : Begun supported o' d' c' schema?) (h : Repeats schema? c d c' d')
    : ((¬ ∃ l, Loads d schema? c l) →
          FailsOn d (execute supported o d) ∧ FailsOn d' (execute supported o' d'))
      ∧ ∀ l, Loads d schema? c l →
          ∃ l' extra, Loads d' schema? c' l' ∧ Mixed l.targets extra l'.targets
            ∧ (∀ e ∈ extra, e ∈ l.table.entries)
            ∧ ((∀ e ∈ extra, l.table.Valid e.cname → e.hasSource = false) →
                SameBut d d' (extra.countP fun e => ¬ l.table.Valid e.cname)
                  (execute supported o d) (execute supported o' d'))
            ∧ ∀ e ∈ extra, e ∈ l.targets → l.table.Valid e.cname → e.hasSource = true →
                FailsOn d' (execute supported o' d') := by
  refine ⟨?_, ?_⟩
  . intro hl
    have hl' : ¬ ∃ l, Loads d' schema? c' l := by rwa [h.loads_iff]
    exact ⟨execute_of_not_loads hbegun hl, execute_of_not_loads hbegun' hl'⟩
  . intro l hl
    rcases h.loads hl with ⟨l', extra, hl', hmixed, hextra, halike, hknown⟩
    have houtputs : c'.outputs = c.outputs := by
      rw [h.options]
      rfl
    rw [execute_of_loads hbegun hl, execute_of_loads hbegun' hl']
    refine ⟨l', extra, hl', hmixed, hextra, ?_, ?_⟩
    . exact generateValid_mixed houtputs h.disk halike hmixed hknown
    . intro e he htarget hvalid hsource
      exact generateValid_twice halike hmixed hknown htarget he hvalid hsource

/--
The sample document with its second type declared once more.
-/
def againDocument : String :=
  Source.text
    ["namespace: Demo", "types:",
     "- kind: enum", "  cname: DemoColor", "  name: Color", "  members: []",
     "- kind: object", "  cname: DemoPoint", "  name: Point", "  parent: DemoStray",
     "- kind: object", "  cname: DemoPoint", "  name: Point", "  parent: DemoStray"]

def againDisk : Disk :=
  sampleDisk.set ["demo.yaml", "work", "run"] (.file (bytesOf againDocument))

theorem declares_again
    : Declares againDisk none none ⟨"demo.yaml"⟩ [sampleColor, samplePoint, samplePoint] := by
  apply Fault.toOption_eq_some.1
  decide +kernel

theorem repeats_again : Repeats none sampleOptions sampleDisk sampleOptions againDisk := by
  have hpaths : ∀ p ∈ sampleOptions.includes ++ sampleOptions.generate, p = ⟨"demo.yaml"⟩ := by
    simp [sampleOptions]
  have hentry : sampleDisk.entry? ["demo.yaml", "work", "run"]
      = some (.file (bytesOf sampleDocument)) := by
    decide +kernel
  refine .declaration (g := samplePoint) (parallel_set hentry) ?_ ?_
  . exact ⟨⟨"demo.yaml"⟩, by simp [sampleOptions], _, declares_sample, by simp⟩
  . intro p hp
    rw [hpaths p hp]
    exact .inr ⟨[sampleColor, samplePoint], [], declares_sample, declares_again⟩

theorem execute_repeated_again
    : Begun true sampleOptions sampleDisk sampleOptions none
        ∧ Begun true sampleOptions againDisk sampleOptions none
        ∧ Repeats none sampleOptions sampleDisk sampleOptions againDisk
        ∧ ∃ stats, (execute true sampleOptions sampleDisk).result = .ok stats
          ∧ (execute true sampleOptions againDisk).result
              = .ok { stats with excluded := stats.excluded + 1 } := by
  have hbegun : Begun true sampleOptions sampleDisk sampleOptions none := ⟨rfl, rfl, rfl⟩
  have hbegun' : Begun true sampleOptions againDisk sampleOptions none := ⟨rfl, rfl, rfl⟩
  refine ⟨hbegun, hbegun', repeats_again, ?_⟩
  rcases loadAll_sample with ⟨l, hl, htable, htargets⟩
  rcases (execute_repeated hbegun hbegun' repeats_again).2 l hl
    with ⟨l', extra, hl', hmixed, _, hsame, _⟩
  have htargets' := hl'.targets_of_forall₂ (.cons declares_again .nil)
  have hextra : extra = [samplePoint] := by
    have hperm := hmixed.perm
    rw [htargets, htargets'] at hperm
    have hextra := (List.perm_append_left_iff [sampleColor, samplePoint]).1 hperm
    exact List.perm_singleton.1 hextra.symm
  have hinvalid : ¬ l.table.Valid samplePoint.cname := by
    rw [htable]
    exact not_valid_samplePoint (by decide +kernel) (by decide +kernel)
  rcases execute_sample with ⟨stats, hstats⟩
  refine ⟨stats, hstats, ?_⟩
  rw [hextra] at hsame
  rw [(hsame (by simp [hinvalid])).1, hstats]
  simp [Except.map, hinvalid]

def twiceOptions : Options :=
  { sampleOptions with generate := [⟨"demo.yaml"⟩, ⟨"demo.yaml"⟩] }

/--
To list a document twice is enough for a run to fail that succeeds with the document listed once.
-/
theorem not_execute_repeated
    : Repeats none sampleOptions sampleDisk twiceOptions sampleDisk
        ∧ (∃ stats, (execute true sampleOptions sampleDisk).result = .ok stats)
        ∧ ∃ fault, (execute true twiceOptions sampleDisk).result = .error fault := by
  have hlisted : sampleOptions.generate = [] ++ [⟨"demo.yaml"⟩] := rfl
  have hrepeats : Repeats none sampleOptions sampleDisk twiceOptions sampleDisk :=
    .document hlisted (by simp [sampleOptions])
  refine ⟨hrepeats, execute_sample, ?_⟩
  rcases loadAll_sample with ⟨l, hl, htable, htargets⟩
  rcases hrepeats.loads hl with ⟨l', extra, hl', hmixed, _, halike, hknown⟩
  have htargets' := hl'.targets_of_forall₂ (.cons declares_sample (.cons declares_sample .nil))
  have hcolor : sampleColor ∈ extra := by
    have hperm := hmixed.perm
    rw [htargets, htargets'] at hperm
    have hextra := (List.perm_append_left_iff [sampleColor, samplePoint]).1 hperm
    exact hextra.mem_iff.1 (by simp)
  have hvalid : l.table.Valid sampleColor.cname := by
    rw [htable]
    exact valid_sampleColor (by decide +kernel)
  rw [execute_of_loads ⟨rfl, rfl, rfl⟩ hl']
  rcases generateValid_twice halike hmixed hknown (by simp [htargets]) hcolor hvalid rfl
    with ⟨fault, hfault, _⟩
  exact ⟨fault, hfault⟩

end Runs

end Run

end Interop
