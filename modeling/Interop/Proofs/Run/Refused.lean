import Interop.Proofs.Generation.Refused
import Interop.Proofs.Run.Files

/-!
This module contains the runs that are refused: their options, their documents or their types do
not allow them, which turns out before the first file is written. A run that fails for another
reason was let down by its outputs.
-/

namespace Interop

open Generation

namespace Run

/--
The fault does not come from the outputs.
-/
def Withheld (fault : Fault RunError) : Prop :=
  ∀ e, fault.cause ≠ .generation (.output e)

/--
All that comes before the documents went well.
-/
structure Begun (supported : Bool) (o : Options) (d : Disk) (configured : Options)
    (schema? : Option Schema) : Prop where
  configure : configure supported d o = .ok configured
  usage : checkUsage configured = .ok ()
  schema : loadSchema d configured = .ok schema?

open Classical in
/--
Why a run is refused: its configuration or its usage is wrong, the schema cannot be used, one of its
documents cannot be read or registered, or the valid types are not ready to be written.
-/
inductive Refused (supported : Bool) (o : Options) (d : Disk) : Prop where
  | configuration {fault : Fault RunError} (h : configure supported d o = .error fault)
  | usage {configured : Options} {fault : Fault RunError}
      (hconfigure : configure supported d o = .ok configured)
      (h : checkUsage configured = .error fault)
  | schema {configured : Options} {fault : Fault RunError}
      (hconfigure : configure supported d o = .ok configured)
      (husage : checkUsage configured = .ok ()) (h : loadSchema d configured = .error fault)
  | document {configured : Options} {schema? : Option Schema} {before after : List (Purpose × Path)}
      {purpose : Purpose} {p : Path} {l l' : Loading} {fault : Fault RunError}
      (hbegun : Begun supported o d configured schema?)
      (hdocuments : documents configured = before ++ (purpose, p) :: after)
      (hbefore : Loading.loadAll d schema? configured.searchDir? (start configured d) before
        = (.ok (), l))
      (h : Loading.load d schema? configured.searchDir? l purpose p = (.error fault, l'))
  | unready {configured : Options} {schema? : Option Schema} {l : Loading}
      (hbegun : Begun supported o d configured schema?)
      (hload : Loading.loadAll d schema? configured.searchDir? (start configured d)
        (documents configured) = (.ok (), l))
      (h : ¬ Ready l.table configured.outputs.glueLibrary
        (l.targets.filter (l.table.Valid ·.cname)))

section Faults

variable {d : Disk} {o : Options} {fault : Fault RunError}

theorem withheld_fail {e : RunError} (he : ∀ e', e ≠ .generation (.output e'))
    (h : (fail e : Result α) = .error fault) : Withheld fault := by
  rw [← Except.error.inj h]
  exact he

theorem withheld_within {activity : String} {x : Result α}
    (hx : ∀ fault, x = .error fault → Withheld fault) (h : Fault.within activity x = .error fault)
    : Withheld fault := by
  cases x with
  | ok a => cases h
  | error inner =>
    rw [← Except.error.inj h]
    exact hx inner rfl

theorem configure_withheld {supported : Bool} (h : configure supported d o = .error fault)
    : Withheld fault := by
  unfold configure at h
  split at h
  . cases h
  . split at h
    . exact withheld_fail (by simp) h
    . split at h
      . exact withheld_fail (by simp) h
      . split at h
        . exact withheld_fail (by simp) h
        . cases h

theorem checkUsage_withheld (h : checkUsage o = .error fault) : Withheld fault := by
  unfold checkUsage at h
  split at h
  . exact withheld_fail (by simp) h
  . split at h
    . exact withheld_fail (by simp) h
    . cases h

theorem loadSchema_withheld (h : loadSchema d o = .error fault) : Withheld fault := by
  unfold loadSchema at h
  split at h
  . cases h
  . split at h
    . cases h
    . refine withheld_within ?_ h
      intro inner hinner
      split at hinner
      . exact withheld_fail (by simp) hinner
      . split at hinner
        . cases hinner
        . exact withheld_fail (by simp) hinner

end Faults

namespace Loading

variable {d : Disk} {schema? : Option Schema} {searchDir? : Option Path} {l l' : Loading}
  {fault : Fault RunError} {docs : List (Purpose × Path)}

theorem load_withheld {purpose : Purpose} {p : Path}
    (h : load d schema? searchDir? l purpose p = (.error fault, l')) : Withheld fault := by
  unfold load at h
  split at h
  . exact withheld_within (fun _ => withheld_fail (by simp)) (Prod.mk.inj h).1
  . unfold add at h
    dsimp only at h
    split at h
    . exact withheld_within (fun _ => withheld_fail (by simp)) (Prod.mk.inj h).1
    . cases (Prod.mk.inj h).1

theorem loadAll_append_of_ok {docs' : List (Purpose × Path)}
    (h : loadAll d schema? searchDir? l docs = (.ok (), l'))
    : loadAll d schema? searchDir? l (docs ++ docs') = loadAll d schema? searchDir? l' docs' := by
  induction docs generalizing l with
  | nil =>
    rw [← (Prod.mk.inj h).2]
    rfl
  | cons doc docs ih =>
    rcases doc with ⟨purpose, p⟩
    rw [loadAll_cons] at h
    rw [List.cons_append, loadAll_cons]
    split at h
    . exact ih h
    . cases (Prod.mk.inj h).1

/--
Documents fail at the first of them that does, whatever was loaded before it and stands after it.
-/
theorem loadAll_error_iff
    : loadAll d schema? searchDir? l docs = (.error fault, l')
        ↔
      ∃ before purpose p after l₁, docs = before ++ (purpose, p) :: after
        ∧ loadAll d schema? searchDir? l before = (.ok (), l₁)
        ∧ load d schema? searchDir? l₁ purpose p = (.error fault, l') := by
  constructor
  . intro h
    induction docs generalizing l with
    | nil => cases (Prod.mk.inj h).1
    | cons doc docs ih =>
      rcases doc with ⟨purpose, p⟩
      rw [loadAll_cons] at h
      split at h
      . next l₂ hload =>
        rcases ih h with ⟨before, purpose', p', after, l₁, hdocs, hbefore, hfails⟩
        refine ⟨(purpose, p) :: before, purpose', p', after, l₁, by rw [hdocs]; rfl, ?_, hfails⟩
        rw [loadAll_cons, hload]
        exact hbefore
      . next fault' l₂ hload =>
        rw [h] at hload
        exact ⟨[], purpose, p, docs, l, rfl, rfl, hload⟩
  . rintro ⟨before, purpose, p, after, l₁, rfl, hbefore, hfails⟩
    rw [loadAll_append_of_ok hbefore, loadAll_cons, hfails]

end Loading

section Generated

variable {o : Options} {d : Disk} {l : Loading}

/--
The outputs of a run before anything is written to them.
-/
def requested (o : Options) (d : Disk) : Option Outputs :=
  if o.outputs.wantsOutput then some { options := o.outputs, disk := d } else none

theorem glueLibrary_of_requested
    : (requested o d).elim defaultGlueLibrary (·.options.glueLibrary) = o.outputs.glueLibrary := by
  unfold requested
  split
  . rfl
  . next hwants =>
    have hlibrary : o.outputs.glueLibrary? = none := by
      unfold OutputOptions.wantsOutput at hwants
      simp only [Bool.or_eq_true, Option.isSome_iff_ne_none, not_or, not_not] at hwants
      exact hwants.2
    unfold OutputOptions.glueLibrary
    rw [hlibrary]
    rfl

theorem disk_of_requested : ((requested o d).map (·.close)).elim d (·.2.disk) = d := by
  unfold requested
  split
  . rfl
  . rfl

-- The two parts of the outcome that matter, over the types that pass.
theorem generateValid_eq {valid : List Descriptor}
    (hvalid : (Validation.partition l.table .initial l.targets).1.valid = valid)
    : let generated := generate l.table (requested o d) valid
      let closed? : Option (Except OutputError Unit × Outputs) :=
        generated.outputs?.map (·.close)
      (∃ excluded, (generateValid o d l).result = do
          let s ← generated.result.mapError (Fault.map .generation)
          match closed? with
          | some (.error e, _) => fail (.generation (.output e))
          | _ => return { s with excluded := excluded })
        ∧ (generateValid o d l).disk = closed?.elim d (·.2.disk) := by
  rw [← hvalid]
  exact ⟨⟨_, rfl⟩, rfl⟩

variable {valid : List Descriptor}
  (hvalid : (Validation.partition l.table .initial l.targets).1.valid = valid)

include hvalid

theorem generateValid_of_not_ready (h : ¬ Ready l.table o.outputs.glueLibrary valid)
    : ∃ fault, (generateValid o d l).result = .error fault ∧ Withheld fault
        ∧ (generateValid o d l).disk = d := by
  rw [← glueLibrary_of_requested (d := d)] at h
  rcases generate_of_not_ready h with ⟨fault, hresult, hcause, houtputs⟩
  rcases generateValid_eq (o := o) (d := d) hvalid with ⟨⟨excluded, hvalidResult⟩, hdisk⟩
  rw [hresult] at hvalidResult
  rw [houtputs, disk_of_requested] at hdisk
  refine ⟨_, hvalidResult, ?_, hdisk⟩
  intro e he
  exact hcause e (RunError.generation.inj he)

theorem generateValid_of_ready (h : Ready l.table o.outputs.glueLibrary valid)
    {fault : Fault RunError} (hfault : (generateValid o d l).result = .error fault)
    : ¬ Withheld fault := by
  rw [← glueLibrary_of_requested (d := d)] at h
  rcases generateValid_eq (o := o) (d := d) hvalid with ⟨⟨excluded, hresult⟩, _⟩
  rw [hfault] at hresult
  cases hgenerated : (generate l.table (requested o d) valid).result with
  | error inner =>
    rcases generate_of_ready h hgenerated with ⟨e, he⟩
    rw [hgenerated] at hresult
    rw [Except.error.inj hresult]
    intro hwithheld
    exact hwithheld e (congrArg RunError.generation he)
  | ok s =>
    rw [hgenerated] at hresult
    dsimp only [Except.mapError, Bind.bind, Except.bind] at hresult
    split at hresult
    . next e _ _ =>
      rw [Except.error.inj hresult]
      intro hwithheld
      exact hwithheld e rfl
    . cases hresult

end Generated

section Runs

variable {supported : Bool} {o : Options} {d : Disk}

open Classical in
theorem valid_of_loadAll {configured : Options} {schema? : Option Schema} {l : Loading}
    (hload : Loading.loadAll d schema? configured.searchDir? (start configured d)
      (documents configured) = (.ok (), l))
    : (Validation.partition l.table .initial l.targets).1.valid
        = l.targets.filter (l.table.Valid ·.cname) := by
  rcases Loading.loadAll_documents hload with ⟨_, declared, _, _, hentries, htargets⟩
  have htargets : l.targets = declared.flatten := htargets
  refine (Validation.Knowledge.faithful_initial.partition ?_).1
  intro g hg
  apply Table.find?_of_mem
  rw [hentries, ← htargets]
  exact .inr (.inr hg)

theorem execute_of_begun {configured : Options} {schema? : Option Schema}
    (h : Begun supported o d configured schema?)
    : execute supported o d
        = match Loading.loadAll d schema? configured.searchDir? (start configured d)
            (documents configured) with
          | (.error fault, l) => ⟨.error fault, d, l.log⟩
          | (.ok (), l) => generateValid configured d l := by
  unfold execute
  simp only [h.configure, h.usage, h.schema]
  rfl

theorem execute_of_refused (h : Refused supported o d)
    : ∃ fault, (execute supported o d).result = .error fault ∧ Withheld fault
        ∧ (execute supported o d).disk = d := by
  cases h with
  | configuration h =>
    unfold execute
    rw [h]
    exact ⟨_, rfl, configure_withheld h, rfl⟩
  | usage hconfigure h =>
    unfold execute
    simp only [hconfigure, h]
    exact ⟨_, rfl, checkUsage_withheld h, trivial⟩
  | schema hconfigure husage h =>
    unfold execute
    simp only [hconfigure, husage, h]
    exact ⟨_, rfl, loadSchema_withheld h, trivial⟩
  | document hbegun hdocuments hbefore h =>
    rw [execute_of_begun hbegun,
      Loading.loadAll_error_iff.2 ⟨_, _, _, _, _, hdocuments, hbefore, h⟩]
    exact ⟨_, rfl, Loading.load_withheld h, rfl⟩
  | unready hbegun hload h =>
    rw [execute_of_begun hbegun, hload]
    exact generateValid_of_not_ready (valid_of_loadAll hload) h

theorem refused_of_execute {fault : Fault RunError}
    (h : (execute supported o d).result = .error fault) (hwithheld : Withheld fault)
    : Refused supported o d := by
  cases hconfigure : configure supported d o with
  | error fault => exact .configuration hconfigure
  | ok configured =>
    cases husage : checkUsage configured with
    | error fault => exact .usage hconfigure husage
    | ok u =>
      cases hschema : loadSchema d configured with
      | error fault => exact .schema hconfigure husage hschema
      | ok schema? =>
        have hbegun : Begun supported o d configured schema? := ⟨hconfigure, husage, hschema⟩
        rw [execute_of_begun hbegun] at h
        generalize hload : Loading.loadAll d schema? configured.searchDir? (start configured d)
          (documents configured) = result at h
        rcases result with ⟨fault' | v, l⟩
        . rcases Loading.loadAll_error_iff.1 hload
            with ⟨before, purpose, p, after, l₁, hdocuments, hbefore, hfails⟩
          exact .document hbegun hdocuments hbefore hfails
        . refine .unready hbegun hload ?_
          intro hready
          exact generateValid_of_ready (valid_of_loadAll hload) hready h hwithheld

/--
A run that is refused, be it for its options, a document or a type, fails and leaves the disk as it
was, whatever documents and types come before the one at fault. Only the outputs can fail otherwise.
-/
theorem execute_refused (supported : Bool) (o : Options) (d : Disk)
    : (Refused supported o d
          ↔
        ∃ fault, (execute supported o d).result = .error fault
          ∧ ∀ e, fault.cause ≠ .generation (.output e))
        ∧ (Refused supported o d → (execute supported o d).disk = d) := by
  refine ⟨⟨?_, ?_⟩, ?_⟩
  . intro h
    rcases execute_of_refused h with ⟨fault, hresult, hwithheld, _⟩
    exact ⟨fault, hresult, hwithheld⟩
  . rintro ⟨fault, hresult, hwithheld⟩
    exact refused_of_execute hresult hwithheld
  . intro h
    rcases execute_of_refused h with ⟨_, _, _, hdisk⟩
    exact hdisk

end Runs

/--
A document with two types of the same managed name.
-/
def twinsDocument : String :=
  Source.text
    ["namespace: Demo", "types:",
     "- kind: enum", "  cname: DemoColor", "  name: Color", "  members: []",
     "- kind: enum", "  cname: DemoPaint", "  name: Color", "  members: []"]

def twinsDisk : Disk :=
  Disk.blank.set ["demo.yaml", "work", "run"] (.file (bytesOf twinsDocument))

def samplePaint : Descriptor :=
  .enum ⟨⟨"DemoPaint", "Color", "Demo", "Demo"⟩, 32, true, false, [], true⟩

theorem valid_enum {t : Table} {e : EnumType} (h : .enum e ∈ t.entries)
    : t.Valid e.identity.cname := by
  rw [← Table.validGiven_empty, Table.validGiven_iff]
  refine .inr ⟨.enum e, Table.find?_of_mem h, rfl, ?_⟩
  intro r hr
  cases hr

open Classical in
theorem refused_twins : Refused true sampleOptions twinsDisk := by
  have hdeclares : Declares twinsDisk none none ⟨"demo.yaml"⟩ [sampleColor, samplePaint] := by
    apply Fault.toOption_eq_some.1
    decide +kernel
  have hregister : (Table.builtin.registerAll [sampleColor, samplePaint]).2 = none := by
    decide +kernel
  rcases Loading.load_of_declares .generation (l := start sampleOptions twinsDisk) hdeclares
    (Prod.ext rfl hregister) with ⟨l, hload, htable, hgained⟩
  have hall : Loading.loadAll twinsDisk none none (start sampleOptions twinsDisk)
      (documents sampleOptions) = (.ok (), l) := by
    have hdocuments : documents sampleOptions = [(.generation, ⟨"demo.yaml"⟩)] := rfl
    rw [hdocuments, Loading.loadAll_cons, hload]
    rfl
  have htargets : l.targets = [sampleColor, samplePaint] := hgained.targets
  have hcolor : sampleColor ∈ l.table.entries := (hgained.entries _).2 (.inr (by simp))
  have hpaint : samplePaint ∈ l.table.entries := (hgained.entries _).2 (.inr (by simp))
  refine .unready ⟨rfl, rfl, rfl⟩ hall ?_
  rw [htargets, List.filter_eq_self.2]
  . intro hready
    exact absurd hready.names (by decide)
  . rw [List.forall_mem_cons, List.forall_mem_singleton]
    exact ⟨decide_eq_true (valid_enum hcolor), decide_eq_true (valid_enum hpaint)⟩

theorem execute_refused_twins
    : Refused true sampleOptions twinsDisk ∧ (execute true sampleOptions twinsDisk).disk = twinsDisk
        ∧ ∃ fault, (execute true sampleOptions twinsDisk).result = .error fault := by
  rcases execute_refused true sampleOptions twinsDisk with ⟨hresult, hdisk⟩
  rcases hresult.1 refused_twins with ⟨fault, hfault, _⟩
  exact ⟨refused_twins, hdisk refused_twins, fault, hfault⟩

end Run

end Interop
