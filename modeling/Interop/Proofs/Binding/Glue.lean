import Interop.Proofs.Binding.Imports
import Interop.Proofs.Binding.Layout
import Interop.Proofs.Binding.Thunk

/-!
This module contains the link between the two sources of a type: the functions that its managed
source imports from the glue library are those that its glue source defines.
-/

namespace Interop

/--
Whether the field is a member of a bitfield that managed code reads and writes.
-/
def Field.isPublicBitfield (f : Field) : Bool :=
  f.bits.isSome && !f.hidden

namespace Binding

/--
The names of the functions that native code needs for managed code to reach the type.
-/
def glueSymbols : Descriptor → List String
  | .struct s =>
    (s.fields.filter (·.isPublicBitfield)).flatMap fun f =>
      [accessorSymbol s "get" f.name, accessorSymbol s "set" f.name]
  | .callback c => [c.glueSymbol]
  | .simple _ | .long _ | .object _ | .enum _ | .array _ => []

/--
The lines of a glue source define these functions in order, each of them after a prototype, and hold
nothing else. `announced` are the functions with a prototype before the lines. A definition has the
same head as the prototype, and a statement in braces.
-/
inductive Defines : (announced : List GlueFunction) → Source.Lines → List GlueFunction → Prop where
  | nil {announced} : Defines announced [] []
  | blank {announced lines functions} (hrest : Defines announced lines functions) :
      Defines announced ("" :: lines) functions
  | prototype {announced lines functions} (f : GlueFunction)
      (hrest : Defines (f :: announced) lines functions) :
      Defines announced
        ((f.returns ++ " " ++ f.symbol ++ " (" ++ String.intercalate ", " f.params ++ ");")
          :: lines)
        functions
  | definition {announced lines functions} {f : GlueFunction} (hannounced : f ∈ announced)
      (hrest : Defines announced lines functions) :
      Defines announced
        (f.returns :: (f.symbol ++ " (" ++ String.intercalate ", " f.params ++ ")") :: "\x7b"
          :: ("\t" ++ f.statement) :: "\x7d" :: "" :: lines)
        (f :: functions)

namespace Defines

variable {announced announced' functions functions' : List GlueFunction}
  {lines lines' : Source.Lines}

theorem mono (h : Defines announced lines functions) (hsub : announced ⊆ announced')
    : Defines announced' lines functions := by
  induction h generalizing announced' with
  | nil => exact .nil
  | blank _ ih => exact .blank (ih hsub)
  | prototype f _ ih => exact .prototype f (ih (List.cons_subset_cons f hsub))
  | definition hannounced _ ih => exact .definition (hsub hannounced) (ih hsub)

theorem append (h : Defines announced lines functions) (h' : Defines [] lines' functions')
    : Defines announced (lines ++ lines') (functions ++ functions') := by
  induction h with
  | nil => exact h'.mono (List.nil_subset _)
  | blank _ ih => exact .blank ih
  | prototype f _ ih => exact .prototype f ih
  | definition hannounced _ ih => exact .definition hannounced ih

theorem flatMap {items : List α} {lines : α → Source.Lines} {functions : α → List GlueFunction}
    (h : ∀ a ∈ items, Defines [] (lines a) (functions a))
    : Defines [] (items.flatMap lines) (items.flatMap functions) := by
  induction items with
  | nil => exact .nil
  | cons a items ih =>
    rw [List.forall_mem_cons] at h
    exact h.1.append (ih h.2)

theorem lines_ne_nil (h : Defines announced lines functions) (hsome : functions ≠ [])
    : lines ≠ [] := by
  cases h with
  | nil => exact absurd rfl hsome
  | blank hrest | prototype f hrest | definition hannounced hrest => exact List.cons_ne_nil _ _

theorem definitions (h : functions ⊆ announced)
    : Defines announced (functions.flatMap (·.definition)) functions := by
  induction functions with
  | nil => exact .nil
  | cons f functions ih =>
    rw [List.cons_subset] at h
    exact .definition h.1 (ih h.2)

theorem prototype_eq (f : GlueFunction)
    : f.prototype
        = f.returns ++ " " ++ f.symbol ++ " (" ++ String.intercalate ", " f.params ++ ");" := by
  unfold GlueFunction.prototype GlueFunction.signature Source.commaSeparated
  simp [String.append_assoc]

theorem prototypes (fs : List GlueFunction) (h : Defines (fs.reverse ++ announced) lines functions)
    : Defines announced (fs.map (·.prototype) ++ lines) functions := by
  induction fs generalizing announced with
  | nil => exact h
  | cons f fs ih =>
    rw [List.map_cons, prototype_eq]
    apply Defines.prototype f
    apply ih
    rw [List.reverse_cons, List.append_assoc] at h
    exact h

theorem of_lines (fs : List GlueFunction) : Defines [] (GlueFunction.lines fs) fs := by
  unfold GlueFunction.lines
  rw [List.append_assoc]
  apply prototypes
  apply Defines.blank
  apply definitions
  simp

end Defines

/--
The import is of the function, and takes as many parameters.
-/
structure Linked (i : Import) (f : GlueFunction) : Prop where
  symbol : i.symbol = f.symbol
  arity : i.params.length = f.params.length

/--
The glue source of the type consists of the lines `native`. They define the functions that managed
code needs, which are counted.
-/
structure GlueSource (d : Descriptor) (e : Emitted) (native : Source.Lines)
    (functions : List GlueFunction) : Prop where
  glue : e.glue? = if functions = [] then none else some (Source.text native)
  defined : Defines [] native functions
  symbols : functions.map (·.symbol) = glueSymbols d
  counted : e.counts.glueFunctions = functions.length

/--
The managed source of the type consists of the lines `source`. They import from the glue library
the functions that its glue source defines, all of them in the same order, and every declaration of
an import is written with the parameters that it takes.
-/
structure GlueLinked (gluelib : String) (d : Descriptor) (e : Emitted)
    (source native : Source.Lines) (imports : List Import) (functions : List GlueFunction) : Prop
    extends GlueSource d e native functions where
  managed : e.managed? = d.identity?.map fun i => ⟨i.name, Source.text source⟩
  imported : List.Forall₂ (fun i line => i.Spelled [Source.importAttribute gluelib, line])
    imports (declarationsFrom gluelib source)
  linked : List.Forall₂ Linked imports functions

variable {t : Table} {gluelib : String} {d : Descriptor} {e : Emitted}

theorem glueSource_nil (hglue : e.glue? = none) (hcounts : e.counts.glueFunctions = 0)
    (hsymbols : glueSymbols d = []) : GlueSource d e [] [] where
  glue := hglue
  defined := .nil
  symbols := hsymbols.symm
  counted := hcounts

theorem GlueSource.linked_nil {source : Source.Lines} (h : GlueSource d e [] [])
    (hmanaged : e.managed? = d.identity?.map fun i => ⟨i.name, Source.text source⟩)
    (hsource : Adds gluelib source []) : GlueLinked gluelib d e source [] [] [] where
  toGlueSource := h
  managed := hmanaged
  imported := hsource.spelled (by simp)
  linked := .nil

section Struct

variable {s : StructType} {plans : List FieldPlan}

theorem needsGlue_eq {p : FieldPlan} {before : List FieldPlan} (h : Laid before p)
    : p.needsGlue = p.field.isPublicBitfield := by
  unfold FieldPlan.needsGlue Field.isPublicBitfield
  rw [h.isBitfield]

theorem needsGlue_of_plan (h : plan t s = .ok plans)
    : ∀ p ∈ plans, p.needsGlue = p.field.isPublicBitfield := by
  intro p hp
  rcases List.mem_iff_getElem?.1 hp with ⟨k, hk⟩
  exact needsGlue_eq ((plan_laid h).2 k p hk).2

def structImports (gluelib : String) (s : StructType) (plans : List FieldPlan) : List Import :=
  plans.flatMap fun p => if p.needsGlue then bitfieldImports gluelib s p else []

def structFunctions (s : StructType) (plans : List FieldPlan) : List GlueFunction :=
  plans.flatMap fun p => if p.needsGlue then bitfieldGlue s p else []

theorem structImports_library : ∀ i ∈ structImports gluelib s plans, i.library = gluelib := by
  unfold structImports bitfieldImports
  intro i hi
  rcases List.mem_flatMap.1 hi with ⟨p, _, hi⟩
  split at hi
  . rcases List.mem_pair.1 hi with rfl | rfl <;> rfl
  . cases hi

theorem structFunctions_linked (gluelib : String) (s : StructType) (plans : List FieldPlan)
    : List.Forall₂ Linked (structImports gluelib s plans) (structFunctions s plans) := by
  have hfield (p : FieldPlan)
      : List.Forall₂ Linked (bitfieldImports gluelib s p) (bitfieldGlue s p) :=
    .cons ⟨rfl, rfl⟩ (.cons ⟨rfl, rfl⟩ .nil)
  unfold structImports structFunctions
  induction plans with
  | nil => exact .nil
  | cons p plans ih =>
    rw [List.flatMap_cons, List.flatMap_cons]
    apply List.rel_append
    . split
      . exact hfield p
      . exact .nil
    . exact ih

theorem structGlue_defines (s : StructType) (plans : List FieldPlan)
    : Defines [] ((structGlue s plans).flatMap GlueFunction.lines) (structFunctions s plans) := by
  have hfunctions : structFunctions s plans = (structGlue s plans).flatMap id := by
    unfold structFunctions structGlue
    induction plans with
    | nil => rfl
    | cons p plans ih =>
      rw [List.flatMap_cons, ih, List.filter_cons]
      split <;> rfl
  rw [hfunctions]
  exact Defines.flatMap fun fs _ => Defines.of_lines fs

theorem structFunctions_length (s : StructType) (plans : List FieldPlan)
    : (structCounts plans).glueFunctions = (structFunctions s plans).length := by
  unfold structCounts structFunctions
  induction plans with
  | nil => rfl
  | cons p plans ih =>
    dsimp only at ih ⊢
    rw [List.flatMap_cons, List.length_append, ← ih, List.countP_cons]
    split
    . simp only [bitfieldGlue, List.length_cons, List.length_nil]
      omega
    . simp

theorem structFunctions_eq_nil
    : ((structGlue s plans).flatMap GlueFunction.lines).isEmpty = true
        ↔
      structFunctions s plans = [] := by
  unfold structGlue structFunctions
  rw [List.isEmpty_iff, List.flatMap_eq_nil_iff, List.flatMap_eq_nil_iff]
  simp only [List.forall_mem_map, List.mem_filter, and_imp]
  apply forall₂_congr
  intro p _
  by_cases hglue : p.needsGlue = true
  . simp [hglue, GlueFunction.lines, bitfieldGlue]
  . simp [hglue]

theorem structFunctions_symbols (h : plan t s = .ok plans)
    : (structFunctions s plans).map (·.symbol) = glueSymbols (.struct s) := by
  have hneeds := needsGlue_of_plan h
  have hfields := (plan_laid h).1
  unfold structFunctions glueSymbols
  dsimp only
  rw [← hfields]
  clear hfields h
  induction plans with
  | nil => rfl
  | cons p plans ih =>
    rw [List.forall_mem_cons] at hneeds
    rw [List.flatMap_cons, List.map_append, ih hneeds.2, List.map_cons, List.filter_cons,
      ← hneeds.1]
    split <;> rfl

theorem bindStruct_linked (h : bindStruct t gluelib s = .ok e)
    : ∃ source native imports functions,
        GlueLinked gluelib (.struct s) e source native imports functions := by
  unfold bindStruct at h
  rcases Fault.bind_eq_ok.1 h with ⟨plans, hplans, h⟩
  have he := Except.ok.inj h
  refine ⟨structSource gluelib s plans, (structGlue s plans).flatMap GlueFunction.lines,
    structImports gluelib s plans, structFunctions s plans, ⟨?_, ?_, ?_, ?_⟩, ?_, ?_, ?_⟩
  . rw [← he]
    simp only [structFunctions_eq_nil]
  . exact structGlue_defines s plans
  . exact structFunctions_symbols hplans
  . rw [← he]
    exact structFunctions_length s plans
  . rw [← he]
    rfl
  . exact (structSource_adds s plans).spelled structImports_library
  . exact structFunctions_linked gluelib s plans

end Struct

theorem bindCallback_linked {c : CallbackType} (h : bindCallback t gluelib c = .ok e)
    : ∃ source native imports functions,
        GlueLinked gluelib (.callback c) e source native imports functions := by
  unfold bindCallback at h
  rcases Fault.bind_eq_ok.1 h with ⟨shape, hshape, h⟩
  have he := Except.ok.inj h
  have hforwards := thunk_forwards gluelib
    (shaped_of_ofSignature (within_eq_ok.1 hshape))
  refine ⟨CallbackSource.lines gluelib c shape, GlueFunction.lines [CallbackSource.thunk c],
    [CallbackSource.invocationImport gluelib c shape], [CallbackSource.thunk c],
    ⟨?_, ?_, ?_, ?_⟩, ?_, ?_, ?_⟩
  . rw [← he]
    rfl
  . exact .of_lines _
  . rfl
  . rw [← he]
    rfl
  . rw [← he]
    rfl
  . exact (callbackLines_adds c shape).spelled (List.forall_mem_singleton.2 rfl)
  . exact .cons ⟨hforwards.symbol.symm, hforwards.arity.symm⟩ .nil

theorem bindObject_glueSource {o : ObjectType} (h : bindObject t o = .ok e)
    : GlueSource (.object o) e [] [] := by
  unfold bindObject at h
  rcases Fault.bind_eq_ok.1 h with ⟨p, _, h⟩
  have he := Except.ok.inj h
  apply glueSource_nil _ _ rfl
  . rw [← he]
  . rw [← he]
    rfl

theorem bindObject_managed {o : ObjectType} (h : bindObject t o = .ok e)
    : ∃ p, e.managed? = some ⟨o.identity.name, Source.text (objectSource o p)⟩ := by
  unfold bindObject at h
  rcases Fault.bind_eq_ok.1 h with ⟨p, _, h⟩
  rw [← Except.ok.inj h]
  exact ⟨p, rfl⟩

theorem bindEnum_glueSource (type : EnumType) : GlueSource (.enum type) (bindEnum type) [] [] :=
  glueSource_nil rfl rfl rfl

theorem sources_glueSource (h : sources t gluelib d = .ok e)
    : ∃ native functions, GlueSource d e native functions := by
  cases d with
  | struct s =>
    rcases bindStruct_linked h with ⟨_, native, _, functions, hlinked⟩
    exact ⟨native, functions, hlinked.toGlueSource⟩
  | callback c =>
    rcases bindCallback_linked h with ⟨_, native, _, functions, hlinked⟩
    exact ⟨native, functions, hlinked.toGlueSource⟩
  | object o => exact ⟨[], [], bindObject_glueSource h⟩
  | enum type =>
    rw [← Except.ok.inj h]
    exact ⟨[], [], bindEnum_glueSource type⟩
  | simple | long | array =>
    rw [← Except.ok.inj h]
    exact ⟨[], [], glueSource_nil rfl rfl rfl⟩

theorem sources_linked (h : sources t gluelib d = .ok e)
    (hlibrary : ∀ i ∈ d.identity?, i.library ≠ gluelib)
    : ∃ source native imports functions,
        GlueLinked gluelib d e source native imports functions := by
  cases d with
  | struct s => exact bindStruct_linked h
  | callback c => exact bindCallback_linked h
  | object o =>
    rcases bindObject_managed h with ⟨p, hmanaged⟩
    have hsource := objectSource_adds (hlibrary _ rfl) p
    exact ⟨_, [], [], [], (bindObject_glueSource h).linked_nil hmanaged hsource⟩
  | enum type =>
    rw [← Except.ok.inj h]
    exact ⟨_, [], [], [], (bindEnum_glueSource type).linked_nil rfl (enumSource_adds type)⟩
  | simple | long | array =>
    rw [← Except.ok.inj h]
    exact ⟨[], [], [], [], (glueSource_nil rfl rfl rfl).linked_nil rfl .nil⟩

-- Beyond its sources a type has a probe, which belongs to neither of them.
theorem bind_sources (h : Interop.bind t gluelib d = .ok e)
    : ∃ probe?, ∃ emitted, sources t gluelib d = .ok emitted ∧ e = { emitted with probe? } := by
  unfold Interop.bind at h
  rcases Fault.bind_eq_ok.1 h with ⟨emitted, hsources, hrest⟩
  split at hrest
  . rcases Fault.bind_eq_ok.1 hrest with ⟨probe?, _, he⟩
    exact ⟨probe?, emitted, hsources, (Except.ok.inj he).symm⟩
  . exact ⟨emitted.probe?, emitted, hsources, (Except.ok.inj hrest).symm⟩

theorem bind_glueSource (h : Interop.bind t gluelib d = .ok e)
    : ∃ native functions, GlueSource d e native functions := by
  rcases bind_sources h with ⟨probe?, emitted, hsources, rfl⟩
  rcases sources_glueSource hsources with ⟨native, functions, hglue⟩
  exact ⟨native, functions, { hglue with }⟩

/--
A type that is bound, and whose own library is not the glue library: its managed source imports from
the glue library exactly the functions that its glue source defines, with as many parameters, and
every definition comes after a prototype. There is one for a callback, there are two for a bitfield
that managed code reaches, and none for anything else; they are all counted.
-/
theorem bind_linked (t : Table) (gluelib : String) (d : Descriptor) (e : Emitted)
    (h : Interop.bind t gluelib d = .ok e) (hlibrary : ∀ i ∈ d.identity?, i.library ≠ gluelib)
    : ∃ source native imports functions,
        GlueLinked gluelib d e source native imports functions := by
  rcases bind_sources h with ⟨probe?, emitted, hsources, rfl⟩
  rcases sources_linked hsources hlibrary with ⟨source, native, imports, functions, hlinked⟩
  exact ⟨source, native, imports, functions, { hlinked with }⟩

theorem bind_linked_node
    : (∀ i ∈ (Descriptor.struct node).identity?, i.library ≠ "demoglue")
        ∧ ∃ e source native imports functions,
            Interop.bind nodeTable "demoglue" (.struct node) = .ok e
              ∧ GlueLinked "demoglue" (.struct node) e source native imports functions
              ∧ functions.map (·.symbol)
                  = ["gapi_demo_node_get_kind", "gapi_demo_node_set_kind",
                     "gapi_demo_node_get_state", "gapi_demo_node_set_state"] := by
  have hlibrary : ∀ i ∈ (Descriptor.struct node).identity?, i.library ≠ "demoglue" := by decide
  have hplanned : (plan nodeTable node).toOption.isSome := by decide +kernel
  have hsymbols : glueSymbols (.struct node)
      = ["gapi_demo_node_get_kind", "gapi_demo_node_set_kind",
         "gapi_demo_node_get_state", "gapi_demo_node_set_state"] := by
    decide +kernel
  rcases Option.isSome_iff_exists.1 hplanned with ⟨plans, hplans⟩
  rcases bind_struct "demoglue" (Fault.toOption_eq_some.1 hplans) with ⟨e, he, _, _⟩
  rcases bind_linked nodeTable "demoglue" (.struct node) e he hlibrary with
    ⟨source, native, imports, functions, hlinked⟩
  exact ⟨hlibrary, e, source, native, imports, functions, he, hlinked,
    hlinked.symbols.trans hsymbols⟩

/--
A structure with bitfields that managed code reaches none of.
-/
def HidesBitfields (d : Descriptor) : Prop :=
  ∃ s, d = .struct s ∧ (∃ f ∈ s.fields, f.bits.isSome) ∧ ∀ f ∈ s.fields, f.bits.isSome → f.hidden

theorem glueSymbols_struct_eq_nil_iff {s : StructType}
    : glueSymbols (.struct s) = [] ↔ ∀ f ∈ s.fields, f.bits.isSome → f.hidden := by
  unfold glueSymbols Field.isPublicBitfield
  simp [List.flatMap_eq_nil_iff]

/--
Bitfields count even if they are hidden.
-/
theorem needsGlue_iff : d.needsGlue ↔ glueSymbols d ≠ [] ∨ HidesBitfields d := by
  cases d with
  | struct s =>
    have hneeds : (Descriptor.struct s).needsGlue ↔ ∃ f ∈ s.fields, f.bits.isSome :=
      List.any_eq_true
    have hhides : HidesBitfields (.struct s)
        ↔ (∃ f ∈ s.fields, f.bits.isSome) ∧ glueSymbols (.struct s) = [] := by
      unfold HidesBitfields
      simp [glueSymbols_struct_eq_nil_iff]
    rw [hneeds, hhides, ne_eq, glueSymbols_struct_eq_nil_iff]
    constructor
    . intro hbits
      by_cases hhidden : ∀ f ∈ s.fields, f.bits.isSome → f.hidden
      . exact .inr ⟨hbits, hhidden⟩
      . exact .inl hhidden
    . rintro (hpublic | ⟨hbits, _⟩)
      . by_contra hnone
        exact hpublic fun f hf hbits => absurd ⟨f, hf, hbits⟩ hnone
      . exact hbits
  | callback c => simp [Descriptor.needsGlue, glueSymbols]
  | simple | long | object | enum | array =>
    simp [Descriptor.needsGlue, glueSymbols, HidesBitfields]

theorem HidesBitfields.glueSymbols_eq_nil (h : HidesBitfields d) : glueSymbols d = [] := by
  rcases h with ⟨s, rfl, _, hhidden⟩
  exact glueSymbols_struct_eq_nil_iff.2 hhidden

theorem GlueSource.isSome_glue? {native : Source.Lines} {functions : List GlueFunction}
    (h : GlueSource d e native functions) : e.glue?.isSome ↔ glueSymbols d ≠ [] := by
  rw [h.glue, ← h.symbols, ne_eq, List.map_eq_nil_iff]
  split
  . next hnone => simp [hnone]
  . next hsome => simp [hsome]

theorem GlueSource.text_ne {native : Source.Lines} {functions : List GlueFunction}
    (h : GlueSource d e native functions) : ∀ text ∈ e.glue?, text ≠ "" := by
  intro text htext
  rw [h.glue] at htext
  split at htext
  . cases htext
  . next hsome =>
    cases hlines : native with
    | nil => exact absurd hlines (h.defined.lines_ne_nil hsome)
    | cons line lines =>
      obtain rfl := Option.some.inj htext
      rw [hlines, Source.text_cons]
      simp

/--
The glue source of a type that is bound is never empty, only types that count as ones that need glue
have one, and those have one unless they are structures that hide all of their bitfields.
-/
theorem bind_glue_iff (t : Table) (gluelib : String) (d : Descriptor) (e : Emitted)
    (h : Interop.bind t gluelib d = .ok e)
    : (∀ text ∈ e.glue?, text ≠ "")
        ∧ (e.glue?.isSome → d.needsGlue)
        ∧ ((d.needsGlue ↔ e.glue?.isSome) ↔ ¬ HidesBitfields d) := by
  rcases bind_glueSource h with ⟨native, functions, hsource⟩
  refine ⟨hsource.text_ne, ?_, ?_⟩
  . rw [hsource.isSome_glue?, needsGlue_iff]
    exact .inl
  . rw [hsource.isSome_glue?, needsGlue_iff]
    constructor
    . intro heq hhides
      exact heq.1 (.inr hhides) hhides.glueSymbols_eq_nil
    . intro hhides
      simp [hhides]

/--
A structure whose only bitfield is hidden.
-/
def mark : StructType where
  identity := ⟨"DemoMark", "Mark", "Demo", "libdemo"⟩
  fields := [⟨"mark", "guint", some 3, true⟩]
  abiCheck := true

theorem bind_glue_iff_node
    : ∃ e, Interop.bind nodeTable "demoglue" (.struct node) = .ok e
        ∧ ¬ HidesBitfields (.struct node) ∧ e.glue?.isSome := by
  have hplanned : (plan nodeTable node).toOption.isSome := by decide +kernel
  have hhides : ¬ HidesBitfields (.struct node) := by
    rintro ⟨s, hs, _, hhidden⟩
    obtain rfl := Descriptor.struct.inj hs
    revert hhidden
    decide
  rcases Option.isSome_iff_exists.1 hplanned with ⟨plans, hplans⟩
  rcases bind_struct "demoglue" (Fault.toOption_eq_some.1 hplans) with ⟨e, he, _, _⟩
  rcases bind_glue_iff nodeTable "demoglue" (.struct node) e he with ⟨_, _, hiff⟩
  exact ⟨e, he, hhides, (hiff.2 hhides).1 (by decide)⟩

/--
A type may count as one that needs glue and have none.
-/
theorem not_bind_glue_iff
    : ¬ ∀ (t : Table) (gluelib : String) (d : Descriptor) (e : Emitted),
        Interop.bind t gluelib d = .ok e → (d.needsGlue ↔ e.glue?.isSome) := by
  intro hall
  have hplanned : (plan nodeTable mark).toOption.isSome := by decide +kernel
  rcases Option.isSome_iff_exists.1 hplanned with ⟨plans, hplans⟩
  rcases bind_struct "demoglue" (Fault.toOption_eq_some.1 hplans) with ⟨e, he, _, _⟩
  rcases bind_glueSource he with ⟨_, _, hsource⟩
  have hglue := (hall nodeTable "demoglue" (.struct mark) e he).1 (by decide)
  exact hsource.isSome_glue?.1 hglue (by decide)

end Binding

end Interop
