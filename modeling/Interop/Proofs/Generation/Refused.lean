import Interop.Proofs.Generation.Accepted
import Interop.Proofs.Generation.Delivered

/-!
This module contains why a generation is refused before it writes anything: a type cannot be bound,
or two types would be written to one file. After that nothing but the outputs can fail.
-/

namespace Interop

namespace Generation

variable {t : Table} {gluelib : String} {ds : List Descriptor} {bounds : List Bound}

def fileNames (ds : List Descriptor) : List String :=
  (ds.filterMap (·.identity?)).map (·.name)

/--
Every type can be bound, and no two of them would be written to one file.
-/
structure Ready (t : Table) (gluelib : String) (ds : List Descriptor) : Prop where
  bind : ∀ d ∈ ds, ∃ e, Interop.bind t gluelib d = .ok e
  names : (fileNames ds).Nodup

def Bound.fileName? (b : Bound) : Option String :=
  b.emitted.managed?.map (·.name)

-- The owners are the types met before: their names must not occur again.
theorem clash?_eq_none_iff {owners : List (String × String)}
    : clash? owners bounds = none
        ↔
      (bounds.filterMap (·.fileName?)).Nodup
        ∧ ∀ name ∈ bounds.filterMap (·.fileName?), ∀ owner ∈ owners, owner.1 ≠ name := by
  induction bounds generalizing owners with
  | nil => simp [clash?]
  | cons b bs ih =>
    unfold clash?
    cases hfile : b.emitted.managed? with
    | none =>
      have hname : b.fileName? = none := by simp [Bound.fileName?, hfile]
      rw [List.filterMap_cons_none hname]
      exact ih
    | some file =>
      have hname : b.fileName? = some file.name := by simp [Bound.fileName?, hfile]
      rw [List.filterMap_cons_some hname, List.nodup_cons, List.forall_mem_cons]
      dsimp only
      split
      . next owner first hfind =>
        have hmem := List.mem_of_find?_eq_some hfind
        have hsame : owner = file.name := by simpa using List.find?_some hfind
        simp only [reduceCtorEq, false_iff]
        rintro ⟨_, hfree, _⟩
        exact hfree _ hmem hsame
      . next hfind =>
        have hfree : ∀ owner ∈ owners, owner.1 ≠ file.name := by simpa using hfind
        rw [ih]
        simp only [List.forall_mem_cons]
        constructor
        . rintro ⟨hnodup, hnames⟩
          refine ⟨⟨?_, hnodup⟩, hfree, fun name hname => (hnames name hname).2⟩
          intro hmem
          exact (hnames _ hmem).1 rfl
        . rintro ⟨⟨hnew, hnodup⟩, _, hnames⟩
          refine ⟨hnodup, fun name hname => ⟨?_, hnames name hname⟩⟩
          rintro rfl
          exact hnew hname

theorem bindOne_cause {d : Descriptor} {fault : Fault GenerationError}
    (h : bindOne t gluelib d = .error fault) : ∃ cause, fault.cause = .binding cause := by
  unfold bindOne at h
  split at h
  . cases h
  . rw [← Except.error.inj h]
    exact ⟨_, rfl⟩

theorem bindAll_cause {fault : Fault GenerationError} (h : bindAll t gluelib ds = .error fault)
    : ∃ cause, fault.cause = .binding cause := by
  induction ds generalizing fault with
  | nil => cases h
  | cons d ds ih =>
    unfold bindAll at h
    cases hone : bindOne t gluelib d with
    | error fault' =>
      rw [hone] at h
      rw [← Except.error.inj h]
      exact bindOne_cause hone
    | ok b =>
      cases hall : bindAll t gluelib ds with
      | error fault' =>
        rw [hone, hall] at h
        rw [← Except.error.inj h]
        exact ih hall
      | ok bs =>
        rw [hone, hall] at h
        cases h

/--
A fault of the preparation is none of the outputs.
-/
theorem prepare_cause {fault : Fault GenerationError} (h : prepare t gluelib ds = .error fault)
    (e : OutputError) : fault.cause ≠ .output e := by
  unfold prepare at h
  cases hall : bindAll t gluelib ds with
  | error fault' =>
    rw [hall] at h
    rcases bindAll_cause hall with ⟨cause, hcause⟩
    rw [← Except.error.inj h, hcause]
    simp
  | ok bounds =>
    rw [hall] at h
    dsimp only [Bind.bind, Except.bind] at h
    split at h
    . cases h
    . next clash hclash =>
      rcases clash?_eq_nameClash hclash with ⟨first, second, file, rfl⟩
      rw [← Except.error.inj h]
      simp [Fault.of]

/--
What is ready is prepared, and nothing else is.
-/
theorem ready_iff : Ready t gluelib ds ↔ ∃ bounds, prepare t gluelib ds = .ok bounds := by
  constructor
  . intro h
    rcases bindAll_ok h.bind with ⟨bounds, hbounds⟩
    have hclash : clash? [] bounds = none := by
      rw [clash?_eq_none_iff]
      refine ⟨?_, by simp⟩
      exact (names_of_isBound (bindAll_eq_ok hbounds)) ▸ h.names
    refine ⟨bounds, ?_⟩
    unfold prepare
    rw [hbounds]
    simp only [Bind.bind, Except.bind, hclash]
    rfl
  . rintro ⟨bounds, hbounds⟩
    have hbound := prepare_eq_ok hbounds
    refine ⟨fun d hd => exists_bind hbound hd, ?_⟩
    unfold fileNames
    rw [← names_of_isBound hbound]
    unfold prepare at hbounds
    rcases Fault.bind_eq_ok.1 hbounds with ⟨bs, _, hrest⟩
    split at hrest
    . next hclash =>
      rw [← Except.ok.inj hrest]
      exact (clash?_eq_none_iff.1 hclash).1
    . cases hrest

variable {outputs? : Option Outputs}

theorem generate_of_not_ready
    (h : ¬ Ready t (outputs?.elim defaultGlueLibrary (·.options.glueLibrary)) ds)
    : ∃ fault, (generate t outputs? ds).result = .error fault ∧ (∀ e, fault.cause ≠ .output e)
        ∧ (generate t outputs? ds).outputs? = outputs? := by
  rw [ready_iff] at h
  unfold generate
  dsimp only
  split
  . next fault hfault => exact ⟨fault, rfl, prepare_cause hfault, rfl⟩
  . next bounds hbounds => exact absurd ⟨bounds, hbounds⟩ h

theorem generate_of_ready
    (h : Ready t (outputs?.elim defaultGlueLibrary (·.options.glueLibrary)) ds)
    {fault : Fault GenerationError} (hfault : (generate t outputs? ds).result = .error fault)
    : ∃ e, fault.cause = .output e := by
  rcases ready_iff.1 h with ⟨bounds, hbounds⟩
  unfold generate at hfault
  simp only [hbounds] at hfault
  split at hfault
  . cases hfault
  . split at hfault
    . rw [← Except.error.inj hfault]
      exact ⟨_, rfl⟩
    . split at hfault
      . rw [← Except.error.inj hfault]
        exact ⟨_, rfl⟩
      . cases hfault

end Generation

end Interop
