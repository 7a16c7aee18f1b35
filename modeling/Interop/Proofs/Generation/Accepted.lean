import Interop.Generation
import Interop.Proofs.Binding.Known
import Interop.Proofs.Crossing
import Interop.Proofs.Validation.Session

/-!
This module contains what a verdict is worth: every type that a validator accepts can be bound, so
a run over the types accepted does not end because of one of them.
-/

namespace Interop

open Validation

namespace Generation

variable {t : Table} {gluelib : String}

theorem bindOne_ok {d : Descriptor} (h : ∃ e, bind t gluelib d = .ok e)
    : ∃ b, bindOne t gluelib d = .ok b := by
  rcases h with ⟨e, he⟩
  unfold bindOne
  rw [he]
  exact ⟨_, rfl⟩

theorem bindAll_ok {ds : List Descriptor} (h : ∀ d ∈ ds, ∃ e, bind t gluelib d = .ok e)
    : ∃ bounds, bindAll t gluelib ds = .ok bounds := by
  induction ds with
  | nil => exact ⟨[], rfl⟩
  | cons d ds ih =>
    rw [List.forall_mem_cons] at h
    rcases bindOne_ok h.1 with ⟨b, hb⟩
    rcases ih h.2 with ⟨bounds, hbounds⟩
    unfold bindAll
    rw [hb, hbounds]
    exact ⟨_, rfl⟩

theorem clash?_eq_nameClash {owners : List (String × String)} {bounds : List Bound}
    {e : GenerationError} (h : clash? owners bounds = some e)
    : ∃ first second file, e = .nameClash first second file := by
  induction bounds generalizing owners with
  | nil => simp [clash?] at h
  | cons b bs ih =>
    unfold clash? at h
    split at h
    . exact ih h
    . split at h
      . rw [← Option.some.inj h]
        exact ⟨_, _, _, rfl⟩
      . exact ih h

theorem prepare_fault {ds : List Descriptor} {fault : Fault GenerationError}
    (h : ∀ d ∈ ds, ∃ e, bind t gluelib d = .ok e) (hfault : prepare t gluelib ds = .error fault)
    : ∃ first second file, fault = Fault.of (.nameClash first second file) := by
  rcases bindAll_ok h with ⟨bounds, hbounds⟩
  unfold prepare at hfault
  rw [hbounds] at hfault
  simp only [Bind.bind, Except.bind] at hfault
  split at hfault
  . simp [Pure.pure, Except.pure] at hfault
  . next e he =>
    rcases clash?_eq_nameClash he with ⟨first, second, file, rfl⟩
    exact ⟨first, second, file, (Except.error.inj hfault).symm⟩

-- Without a fault of binding there remain those of names and of outputs, which name no type.
theorem generate_fault {outputs? : Option Outputs} {ds : List Descriptor}
    {fault : Fault GenerationError} (h : ∀ gluelib, ∀ d ∈ ds, ∃ e, bind t gluelib d = .ok e)
    (hfault : (generate t outputs? ds).result = .error fault)
    : fault.context = [] ∧ ∀ cause, fault.cause ≠ .binding cause := by
  unfold generate at hfault
  simp only at hfault
  split at hfault
  . next hprepare =>
    rcases prepare_fault (h _) hprepare with ⟨first, second, file, hclash⟩
    rw [← Except.error.inj hfault, hclash]
    simp [Fault.of]
  . split at hfault
    . simp at hfault
    . split at hfault
      . rw [← Except.error.inj hfault]
        simp [Fault.of]
      . split at hfault
        . rw [← Except.error.inj hfault]
          simp [Fault.of]
        . simp at hfault

/--
Of the types that a validator accepts, after any session about registered types, each can be bound:
every reference that binding resolves is known, the elements of arrays are followed to their end,
and no fault of a run over such types is that of a type.
-/
theorem generate_of_accepted (t : Table) (hends : t.ArraysEnd) (history : List Request)
    (hregistered : ∀ r ∈ history, ∀ d ∈ r.types, t.get? d.cname = some d)
    : let k := after t .initial history
      (∀ gluelib g, t.get? g.cname = some g → (check t k g).1 = none →
          ∃ e, Interop.bind t gluelib g = .ok e)
        ∧ (∀ ref, t.ElementCrosses ref (t.elementCrossing [] ref))
        ∧ ∀ outputs? ds, (∀ d ∈ ds, t.get? d.cname = some d) →
            ∀ fault, (generate t outputs? (partition t k ds).1.valid).result = .error fault →
              fault.context = [] ∧ ∀ cause, fault.cause ≠ .binding cause := by
  intro k
  have hk : k.Faithful t := Knowledge.faithful_initial.after hregistered
  refine ⟨?_, ?_, ?_⟩
  . intro gluelib g hg haccepted
    have hfind := find?_of_get? hg
    exact ((hk.check_fst hfind).1 haccepted).bind_ok gluelib hfind
  . intro ref
    exact Table.elementCrossing_crosses hends [] ref (by simp)
  . intro outputs? ds hds fault hfault
    have hfind : ∀ d ∈ ds, t.find? d.cname = some d := fun d hd => find?_of_get? (hds d hd)
    apply generate_fault _ hfault
    intro gluelib d hd
    rw [(hk.partition hfind).1, List.mem_filter] at hd
    have hvalid : t.Valid d.cname := by simpa using hd.2
    exact hvalid.bind_ok gluelib (hfind d hd.1)

def lookupMethod : Method where
  name := "lookup"
  cname := "demo_widget_lookup"
  signature := ⟨"DemoPoint*", [⟨"names", "DemoNames", .call⟩, ⟨"notify", "DemoNotify", .forever⟩]⟩
  static := false

def widget : Descriptor :=
  .object {
    identity := ⟨"DemoWidget", "Widget", "Demo", "libdemo"⟩
    parent? := some "DemoBase"
    getType? := none
    constructors := []
    methods := [lookupMethod]
    virtualMethods := [⟨"clicked", ⟨"void", []⟩⟩] }

def widgetTable : Table where
  entries :=
    [.simple ⟨"void", "void", none, "", false⟩, .simple ⟨"gchar", "sbyte", none, "0", true⟩,
     .long ⟨"glong", false⟩,
     .enum ⟨⟨"DemoColor", "Color", "Demo", "libdemo"⟩, 32, false, false, [⟨"RED", 0⟩], true⟩,
     .array ⟨"DemoNames", "gchar*", .nullTerminated⟩,
     .struct ⟨⟨"DemoPoint", "Point", "Demo", "libdemo"⟩,
       [⟨"x", "glong", none, false⟩, ⟨"color", "DemoColor", none, false⟩,
        ⟨"next", "DemoPoint*", none, true⟩], true⟩,
     .callback ⟨⟨"DemoNotify", "Notify", "Demo", "libdemo"⟩,
       ⟨"void", [⟨"sender", "DemoWidget*", .call⟩]⟩⟩,
     .object ⟨⟨"DemoBase", "Base", "Demo", "libdemo"⟩, none, none, [], [], []⟩, widget]
  nodup := by decide

theorem widgetTable_arraysEnd : widgetTable.ArraysEnd := by
  apply Table.arraysEnd_of_flat
  rintro a b c ⟨x, hx, _, rfl⟩ ⟨y, hy, _, _⟩
  have hnames : x = ⟨"DemoNames", "gchar*", .nullTerminated⟩ := by
    simpa [widgetTable, widget] using Table.mem_of_find? hx
  have hgchar : widgetTable.find? (Reference.core "gchar*")
      = some (.simple ⟨"gchar", "sbyte", none, "0", true⟩) := by decide +kernel
  rw [hnames, hgchar] at hy
  simp at hy

theorem generate_of_accepted_widget
    : widgetTable.ArraysEnd ∧ widgetTable.get? widget.cname = some widget
      ∧ (check widgetTable (after widgetTable .initial [.check widget]) widget).1 = none
      ∧ ∃ e, Interop.bind widgetTable "demoglue" widget = .ok e := by
  have hget : widgetTable.get? widget.cname = some widget := by decide +kernel
  have hregistered : ∀ r ∈ [Request.check widget], ∀ d ∈ r.types,
      widgetTable.get? d.cname = some d := by
    simpa [Request.types] using hget
  have hcomplete : widgetTable.Complete := by decide +kernel
  have haccepted : (check widgetTable (after widgetTable .initial [.check widget]) widget).1
      = none := by
    have hk := Knowledge.faithful_initial.after hregistered
    rw [hk.check_fst (find?_of_get? hget)]
    apply hcomplete.valid
    decide +kernel
  refine ⟨widgetTable_arraysEnd, hget, haccepted, ?_⟩
  exact (generate_of_accepted widgetTable widgetTable_arraysEnd _ hregistered).1 _ _ hget haccepted

end Generation

end Interop
