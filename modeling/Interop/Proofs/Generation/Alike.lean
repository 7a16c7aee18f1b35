import Interop.Proofs.Generation.Delivered
import Interop.Proofs.Outputs.Parallel
import Interop.Proofs.Registration

/-!
This module contains what a generation does not depend on: types that have no source of their own,
the order of its table, and what the files hold that it does not write.
-/

namespace Interop

/--
Whether the type has a managed source of its own.
-/
def Descriptor.hasSource (d : Descriptor) : Bool :=
  d.identity?.isSome

theorem bind_of_sourceless {t : Table} {gluelib : String} {d : Descriptor}
    (h : d.hasSource = false) : bind t gluelib d = .ok {} := by
  cases d with
  | simple | long | array => rfl
  | object | struct | enum | callback => cases h

theorem objects_filter (ds : List Descriptor)
    : objects (ds.filter (·.hasSource)) = objects ds := by
  unfold objects
  rw [List.filterMap_filter]
  congr 1
  funext d
  cases d <;> rfl

theorem flatMap_filter {keep : α → Bool} {f : α → List β} {as : List α}
    (h : ∀ a ∈ as, keep a = false → f a = []) : (as.filter keep).flatMap f = as.flatMap f := by
  induction as with
  | nil => rfl
  | cons a as ih =>
    rw [List.forall_mem_cons] at h
    rw [List.flatMap_cons, ← ih h.2, List.filter_cons]
    split
    . rfl
    . next hkeep => rw [h.1 (by simpa using hkeep), List.nil_append]

namespace Generation

section Sourceless

variable {t : Table} {gluelib : String} {ds : List Descriptor} {bounds : List Bound}

theorem bindAll_cons {d : Descriptor}
    : bindAll t gluelib (d :: ds) = do
        let b ← bindOne t gluelib d
        let bs ← bindAll t gluelib ds
        return b :: bs := by
  rfl

theorem bindAll_filter (ds : List Descriptor)
    : bindAll t gluelib (ds.filter (·.hasSource))
        = (bindAll t gluelib ds).map (·.filter (·.type.hasSource)) := by
  induction ds with
  | nil => rfl
  | cons d ds ih =>
    cases hd : d.hasSource with
    | true =>
      rw [List.filter_cons_of_pos hd, bindAll_cons, bindAll_cons, ih]
      cases hone : bindOne t gluelib d with
      | error fault => rfl
      | ok b =>
        have htype : b.type.hasSource = true := by rw [(bindOne_eq_ok hone).1, hd]
        cases hall : bindAll t gluelib ds with
        | error fault => rfl
        | ok bs =>
          simp [Except.map, Bind.bind, Except.bind, Pure.pure, Except.pure, htype]
    | false =>
      have hone : bindOne t gluelib d = .ok ⟨d, {}⟩ := by
        unfold bindOne
        rw [bind_of_sourceless hd]
      rw [List.filter_cons_of_neg (by simp [hd]), bindAll_cons, ih, hone]
      cases hall : bindAll t gluelib ds with
      | error fault => rfl
      | ok bs =>
        simp [Except.map, Bind.bind, Except.bind, Pure.pure, Except.pure, hd]

theorem emitted_sourceless (h : List.Forall₂ (IsBound t gluelib) ds bounds)
    : ∀ b ∈ bounds, b.type.hasSource = false → b.emitted = {} := by
  induction h with
  | nil => simp
  | cons hbound _ ih =>
    rw [List.forall_mem_cons]
    refine ⟨?_, ih⟩
    intro hb
    rw [hbound.1] at hb
    have hemitted := hbound.2.symm.trans (bind_of_sourceless hb)
    exact Except.ok.inj hemitted

theorem clash?_filter {owners : List (String × String)}
    (h : ∀ b ∈ bounds, b.type.hasSource = false → b.emitted = {})
    : clash? owners (bounds.filter (·.type.hasSource)) = clash? owners bounds := by
  induction bounds generalizing owners with
  | nil => rfl
  | cons b bs ih =>
    rw [List.forall_mem_cons] at h
    rw [List.filter_cons]
    split
    . unfold clash?
      simp only [ih h.2]
    . next hb =>
      have hskip : clash? owners (b :: bs) = clash? owners bs := by
        conv_lhs => unfold clash?
        rw [h.1 (by simpa using hb)]
      rw [ih h.2, hskip]

theorem prepare_filter (ds : List Descriptor)
    : prepare t gluelib (ds.filter (·.hasSource))
        = (prepare t gluelib ds).map (·.filter (·.type.hasSource)) := by
  unfold prepare
  rw [bindAll_filter]
  cases hall : bindAll t gluelib ds with
  | error fault => rfl
  | ok bounds =>
    have hclash : clash? [] (bounds.filter (·.type.hasSource)) = clash? [] bounds :=
      clash?_filter (emitted_sourceless (bindAll_eq_ok hall))
    simp only [Except.map, Bind.bind, Except.bind]
    rw [hclash]
    split <;> rfl

theorem record_sourceless {d : Descriptor} (s : Statistics) (h : d.hasSource = false)
    : s.record d.kind {} = s := by
  cases d with
  | simple | long | array => rfl
  | object | struct | enum | callback => cases h

theorem foldl_record_filter (s : Statistics)
    (h : ∀ b ∈ bounds, b.type.hasSource = false → b.emitted = {})
    : (bounds.filter (·.type.hasSource)).foldl
          (fun s b => s.record b.type.kind b.emitted.counts) s
        = bounds.foldl (fun s b => s.record b.type.kind b.emitted.counts) s := by
  induction bounds generalizing s with
  | nil => rfl
  | cons b bs ih =>
    rw [List.forall_mem_cons] at h
    rw [List.filter_cons]
    split
    . rw [List.foldl_cons, List.foldl_cons, ih _ h.2]
    . next hb =>
      have hb : b.type.hasSource = false := by simpa using hb
      rw [List.foldl_cons, h.1 hb, record_sourceless s hb, ih s h.2]

theorem mappers_filter (ds : List Descriptor)
    : t.mappers (ds.filter (·.hasSource)) = t.mappers ds := by
  unfold Table.mappers Table.dispatchTables
  rw [objects_filter]

theorem mapperEvents_filter (ds : List Descriptor)
    : t.mapperEvents (ds.filter (·.hasSource)) = t.mapperEvents ds := by
  unfold Table.mapperEvents Table.dispatchTables
  rw [objects_filter]

theorem tally_filter (h : ∀ b ∈ bounds, b.type.hasSource = false → b.emitted = {})
    : tally t (bounds.filter (·.type.hasSource)) = tally t bounds := by
  have htypes : (bounds.filter (·.type.hasSource)).map (·.type)
      = (bounds.map (·.type)).filter (·.hasSource) := by
    rw [List.filter_map]
    rfl
  unfold tally
  rw [foldl_record_filter {} h, htypes, mappers_filter]

theorem bindingLog_filter (ds : List Descriptor)
    : ((ds.filter (·.hasSource)).takeWhile (binds t gluelib)).flatMap (bindingEvents t)
        = (ds.takeWhile (binds t gluelib)).flatMap (bindingEvents t) := by
  induction ds with
  | nil => rfl
  | cons d ds ih =>
    cases hd : d.hasSource with
    | true =>
      rw [List.filter_cons_of_pos hd, List.takeWhile_cons, List.takeWhile_cons]
      split
      . rw [List.flatMap_cons, List.flatMap_cons, ih]
      . rfl
    | false =>
      have hbinds : binds t gluelib d = true := by
        unfold binds bindOne
        rw [bind_of_sourceless hd]
        rfl
      have hevents : bindingEvents t d = [] := by
        cases d with
        | simple | long | array => rfl
        | object | struct | enum | callback => cases hd
      rw [List.filter_cons_of_neg (by simp [hd]), List.takeWhile_cons_of_pos hbinds,
        List.flatMap_cons, hevents, ih]
      rfl

/--
Types without a source of their own add nothing to a generation.
-/
theorem generate_filter (outputs? : Option Outputs)
    : generate t outputs? (ds.filter (·.hasSource)) = generate t outputs? ds := by
  unfold generate
  simp only [prepare_filter, bindingLog_filter, mappers_filter, mapperEvents_filter]
  generalize outputs?.elim defaultGlueLibrary (·.options.glueLibrary) = gluelib
  cases hprepare : prepare t gluelib ds with
  | error fault => rfl
  | ok bounds =>
    have hemitted := emitted_sourceless (prepare_eq_ok hprepare)
    have hartifacts : (bounds.filter (·.type.hasSource)).flatMap (·.artifacts)
        = bounds.flatMap (·.artifacts) := by
      apply flatMap_filter
      intro b hb hsourceless
      unfold Bound.artifacts
      rw [hemitted b hb hsourceless]
      rfl
    simp only [Except.map, tally_filter hemitted, hartifacts]

end Sourceless

section Alike

variable {t t' : Table} (h : t.Alike t')

include h

theorem bindAll_alike (gluelib : String) (ds : List Descriptor)
    : bindAll t' gluelib ds = bindAll t gluelib ds := by
  induction ds with
  | nil => rfl
  | cons d ds ih =>
    rw [bindAll_cons, bindAll_cons, ih]
    unfold bindOne
    rw [h.bind]

theorem bindingEvents_alike (d : Descriptor) : bindingEvents t' d = bindingEvents t d := by
  unfold bindingEvents
  split
  . rw [Binding.planObject_agree (h.agreeOn _)]
  . rfl

theorem dispatchTables_alike (ds : List Descriptor)
    : t'.dispatchTables ds = t.dispatchTables ds := by
  unfold Table.dispatchTables
  rw [funext h.dispatchTable]

theorem mappers_alike (ds : List Descriptor) : t'.mappers ds = t.mappers ds := by
  unfold Table.mappers
  rw [dispatchTables_alike h]

theorem mapperEvents_alike (ds : List Descriptor) : t'.mapperEvents ds = t.mapperEvents ds := by
  unfold Table.mapperEvents
  rw [dispatchTables_alike h, funext h.lineage]

/--
A generation does not tell tables apart that answer alike.
-/
theorem generate_alike (outputs? : Option Outputs) (ds : List Descriptor)
    : generate t' outputs? ds = generate t outputs? ds := by
  have hbinds (gluelib : String) : binds t' gluelib = binds t gluelib := by
    funext d
    unfold binds bindOne
    rw [h.bind]
  unfold generate prepare tally
  simp only [bindAll_alike h, hbinds, funext (bindingEvents_alike h), mappers_alike h,
    mapperEvents_alike h]

end Alike

section Parallel

variable {agreed : Set Place} {start start' d d' : Disk} {p p' : Progress}

/--
Nothing but the disk of the outputs is different.
-/
def Progress.Parallel (start start' : Disk) (p p' : Progress) : Prop :=
  ∃ agreed outputs', p' = { p with outputs := outputs' }
    ∧ Outputs.Parallel agreed start start' p.outputs outputs'

/--
The same came of both deliveries, and they go on in parallel.
-/
def InParallel (start start' : Disk) (result result' : Option OutputError × Progress) : Prop :=
  ∃ e? p p', result = (e?, p) ∧ result' = (e?, p') ∧ Progress.Parallel start start' p p'

theorem opened_parallel {before before' after after' : Outputs} {agreed agreed' : Set Place}
    (h : Outputs.Parallel agreed start start' before before')
    (h' : Outputs.Parallel agreed' start start' after after')
    : opened before' after' = opened before after := by
  rcases h.same with ⟨_, rfl⟩
  rcases h'.same with ⟨_, rfl⟩
  rfl

namespace Progress.Parallel

variable (h : Progress.Parallel start start' p p')

include h

theorem managed (owner? : Option String) (file : Binding.ManagedFile)
    : InParallel start start' (p.managed owner? file) (p'.managed owner? file) := by
  rcases h with ⟨agreed, outputs', rfl, h⟩
  rcases h.writeManaged file.name file.source with ⟨r, o, o', agreed', ho, ho', h'⟩
  unfold Progress.managed
  dsimp only
  rw [ho, ho']
  cases r with
  | error e => exact ⟨_, _, _, rfl, rfl, agreed', o', rfl, h'⟩
  | ok path => exact ⟨_, _, _, rfl, rfl, agreed', o', rfl, h'⟩

theorem glue (owner text : String)
    : InParallel start start' (p.glue owner text) (p'.glue owner text) := by
  rcases h with ⟨agreed, outputs', rfl, h⟩
  unfold Progress.glue
  dsimp only
  rw [h.options_eq]
  split
  . rcases h.appendGlue text with ⟨r, o, o', agreed', ho, ho', h'⟩
    rw [ho, ho']
    dsimp only
    rw [opened_parallel h h']
    exact ⟨_, _, _, rfl, rfl, agreed', o', rfl, h'⟩
  . split
    . exact ⟨_, _, _, rfl, rfl, agreed, outputs', rfl, h⟩
    . exact ⟨_, _, _, rfl, rfl, agreed, outputs', rfl, h⟩

theorem probe (probe : Binding.Probe)
    : InParallel start start' (p.probe probe) (p'.probe probe) := by
  rcases h with ⟨agreed, outputs', rfl, h⟩
  unfold Progress.probe
  dsimp only
  rw [h.options_eq]
  split
  . rcases h.appendProbe probe with ⟨r, o, o', agreed', ho, ho', h'⟩
    rw [ho, ho']
    cases r with
    | error e =>
      dsimp only
      rw [opened_parallel h h']
      exact ⟨_, _, _, rfl, rfl, agreed', o', rfl, h'⟩
    | ok u =>
      dsimp only
      rw [opened_parallel h h']
      exact ⟨_, _, _, rfl, rfl, agreed', o', rfl, h'⟩
  . exact ⟨_, _, _, rfl, rfl, agreed, outputs', rfl, h⟩

theorem deliver (a : Artifact) : InParallel start start' (p.deliver a) (p'.deliver a) := by
  cases a with
  | managed owner? file => exact h.managed owner? file
  | glue owner text => exact h.glue owner text
  | probe probe => exact h.probe probe

omit h in
theorem deliverAll (h : Progress.Parallel start start' p p') (artifacts : List Artifact)
    : InParallel start start' (p.deliverAll artifacts) (p'.deliverAll artifacts) := by
  induction artifacts generalizing p p' with
  | nil => exact ⟨none, p, p', rfl, rfl, h⟩
  | cons a as ih =>
    rcases h.deliver a with ⟨e?, p₁, p₁', hp, hp', h₁⟩
    unfold Progress.deliverAll
    rw [hp, hp']
    cases e? with
    | none => exact ih h₁
    | some e => exact ⟨_, _, _, rfl, rfl, h₁⟩

theorem note (events : Log) : Progress.Parallel start start' (p.note events) (p'.note events) := by
  rcases h with ⟨agreed, outputs', rfl, h⟩
  exact ⟨agreed, outputs', rfl, h⟩

end Progress.Parallel

/--
What a generation says and writes is the same on two disks that differ only in what some of their
files hold.
-/
theorem generate_parallel (options : OutputOptions) (t : Table) (ds : List Descriptor)
    (h : Disk.Parallel agreed start start' d d')
    : (generate t (some { options, disk := d' }) ds).result
        = (generate t (some { options, disk := d }) ds).result
      ∧ ∃ agreed' outputs outputs',
        (generate t (some { options, disk := d }) ds).outputs? = some outputs
          ∧ (generate t (some { options, disk := d' }) ds).outputs? = some outputs'
          ∧ Outputs.Parallel agreed' start start' outputs outputs' := by
  have hinitial := Outputs.parallel_initial options h
  unfold generate
  simp only [Option.elim_some]
  generalize (ds.takeWhile (binds t options.glueLibrary)).flatMap (bindingEvents t) = log
  cases prepare t options.glueLibrary ds with
  | error fault => exact ⟨rfl, agreed, _, _, rfl, rfl, hinitial⟩
  | ok bounds =>
    have hbegun : Progress.Parallel start start'
        { outputs := { options, disk := d }, log } { outputs := { options, disk := d' }, log } :=
      ⟨agreed, _, rfl, hinitial⟩
    rcases hbegun.deliverAll (bounds.flatMap (·.artifacts)) with ⟨e?, p₁, p₁', hp, hp', h₁⟩
    dsimp only
    rw [hp, hp']
    cases e? with
    | some e =>
      rcases h₁ with ⟨agreed', outputs', rfl, h'⟩
      exact ⟨rfl, agreed', _, _, rfl, rfl, h'⟩
    | none =>
      rcases (h₁.note (t.mapperEvents ds)).deliverAll ((t.mappers ds).map (Artifact.managed none))
        with ⟨e?, p₂, p₂', hp, hp', agreed', outputs', rfl, h'⟩
      dsimp only
      rw [hp, hp']
      cases e? with
      | some e => exact ⟨rfl, agreed', _, _, rfl, rfl, h'⟩
      | none => exact ⟨rfl, agreed', _, _, rfl, rfl, h'⟩

end Parallel

end Generation

end Interop
