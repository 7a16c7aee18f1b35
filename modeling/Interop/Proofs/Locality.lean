import Interop.Proofs.Binding.Agreement
import Interop.Proofs.Crossing
import Interop.Proofs.Run.Loading
import Interop.Proofs.Validation.Agreement

/-!
This module contains what other types can do to a type that they are registered with. What it leads
to decides its source, its slots and its verdict; the rest of the table decides nothing but the
verdict on functions without a result, through a type that is registered as `void`.
-/

namespace Interop

open Relation Validation

/--
The error without the name that is suggested, for which all registered names are compared.
-/
def ValidationError.bare (e : ValidationError) : ValidationError :=
  { e with suggestion? := none }

/--
What a type gets over `t'` compared to `t`.
-/
structure Table.Same (t t' : Table) (gluelib : String) (d : Descriptor) : Prop where
  bound : bind t' gluelib d = bind t gluelib d
  dispatched : ∀ o, d = .object o → t'.dispatchTable o = t.dispatchTable o
  /-- A verdict is lost exactly if a function without a result is burdened with the type `void`. -/
  passes_iff : (check t .initial d).1 = none →
    ((check t' .initial d).1 = none
      ↔ ∀ n e, ReflTransGen t.Refers d.cname n → t.find? n = some e → ¬ t'.Burdens e)
  /-- Where `void` makes no difference, the verdict is the same, and an error too. -/
  verdict : t'.voidLength? = t.voidLength? →
    (check t' .initial d).1.map (·.bare) = (check t .initial d).1.map (·.bare)

variable {t t' : Table} {d : Descriptor}

theorem Table.Agree.same (gluelib : String) (hd : t.find? d.cname = some d)
    (h : t.Agree t' d.cname) : t.Same t' gluelib d where
  bound := (h.dependencies hd).bind gluelib
  dispatched o ho := h.dispatchTable (by rw [hd, ho])
  passes_iff hpasses := by
    have hd' : t'.find? d.cname = some d := h.find?.trans hd
    have hvalid := (Knowledge.faithful_initial.check_fst hd).1 hpasses
    rw [Knowledge.faithful_initial.check_fst hd', valid_iff_of_agree h hvalid]
  verdict hvoid := by
    rw [check_eq, check_eq, walk_agree h hd hvoid, Option.map_map, Option.map_map]
    rfl

namespace Table

/--
Every type keeps its name if further ones are registered.
-/
theorem registerAll_find? (ds : List Descriptor) {n : String} {e : Descriptor}
    (he : t.find? n = some e) : (t.registerAll ds).1.find? n = some e := by
  induction ds generalizing t with
  | nil => exact he
  | cons d ds ih =>
    unfold registerAll
    split
    . next t' hregister =>
      apply ih
      have hmem := (register_ok hregister).2 (.inl (mem_of_find? he))
      rw [← cname_of_find? he]
      exact find?_of_mem hmem
    . exact he

-- All that a valid type leads to is registered, so more types change none of these answers.
theorem Valid.agree {name : String} (hvalid : t.Valid name)
    (h : ∀ n e, t.find? n = some e → t'.find? n = some e) : t.Agree t' name := by
  intro n hn
  rcases hvalid n hn with ⟨e, he, _⟩
  rw [he, h n e he]

end Table

/--
What a type becomes, and whether it passes, is decided by the types that it leads to, up to a type
registered as `void`. So a valid type keeps its output to the last byte when more types are
registered, and stays valid where `void` was registered before or no function is burdened with it.
-/
theorem decided_by_reachable (t : Table) (gluelib : String) (d : Descriptor)
    (hd : t.find? d.cname = some d)
    : (∀ t' : Table, t'.find? d.cname = some d →
          (∀ n, TransGen t.Refers d.cname n → t'.find? n = t.find? n) → t.Same t' gluelib d)
        ∧ ∀ ds : List Descriptor, (check t .initial d).1 = none →
            t.Same (t.registerAll ds).1 gluelib d
              ∧ ((t.find? "void").isSome → (check (t.registerAll ds).1 .initial d).1 = none) := by
  constructor
  . intro t' hd' hsame
    apply Table.Agree.same gluelib hd
    intro n hn
    rcases reflTransGen_iff_eq_or_transGen.1 hn with rfl | hn
    . rw [hd, hd']
    . exact hsame n hn
  . intro ds hpasses
    have hvalid := (Knowledge.faithful_initial.check_fst hd).1 hpasses
    have hsame : t.Same (t.registerAll ds).1 gluelib d :=
      (hvalid.agree fun n e he => Table.registerAll_find? ds he).same gluelib hd
    refine ⟨hsame, ?_⟩
    intro hvoid
    rcases Option.isSome_iff_exists.1 hvoid with ⟨e, he⟩
    have hlength : (t.registerAll ds).1.voidLength? = t.voidLength? := by
      unfold Table.voidLength?
      rw [he, Table.registerAll_find? ds he]
    have hverdict := hsame.verdict hlength
    rw [hpasses] at hverdict
    simpa using hverdict

def paintedWidget : ObjectType where
  identity := ⟨"DemoWidget", "Widget", "Demo", "libdemo"⟩
  parent? := none
  getType? := none
  constructors := []
  methods :=
    [⟨"poke", "demo_widget_poke", ⟨"void", []⟩, false⟩,
     ⟨"paint", "demo_widget_paint", ⟨"void", [⟨"color", "DemoColor", .call⟩]⟩, false⟩]
  virtualMethods := []

def paintColor : EnumType :=
  ⟨⟨"DemoColor", "Color", "Demo", "libdemo"⟩, 32, true, false, [⟨"DEMO_COLOR_RED", 0⟩], false⟩

/--
A table in which nothing is registered as `void`.
-/
def sparseTable : Table where
  entries := [.enum paintColor, .object paintedWidget]
  nodup := by decide

def voidArray : Descriptor :=
  .array ⟨"void", "gint", .param "n"⟩

def burdenedTable : Table :=
  (sparseTable.registerAll [voidArray]).1

theorem find?_widget : sparseTable.find? "DemoWidget" = some (.object paintedWidget) := by
  decide +kernel

theorem valid_widget : sparseTable.Valid "DemoWidget" := by
  apply Table.Complete.valid
  . decide +kernel
  . decide

theorem burdens_widget : burdenedTable.Burdens (.object paintedWidget) := by
  refine ⟨"n", ?_, ⟨"poke", "demo_widget_poke", ⟨"void", []⟩, false⟩, by decide, by decide, ?_⟩
  . decide +kernel
  . simp

-- The source stays as it is, yet the type does not pass any more.
theorem decided_by_reachable_widget
    : sparseTable.find? "DemoWidget" = some (.object paintedWidget)
        ∧ (check sparseTable .initial (.object paintedWidget)).1 = none
        ∧ bind burdenedTable "demoglue" (.object paintedWidget)
            = bind sparseTable "demoglue" (.object paintedWidget)
        ∧ burdenedTable.dispatchTable paintedWidget = sparseTable.dispatchTable paintedWidget
        ∧ (check burdenedTable .initial (.object paintedWidget)).1 ≠ none := by
  have hpasses : (check sparseTable .initial (.object paintedWidget)).1 = none :=
    (Knowledge.faithful_initial.check_fst find?_widget).2 valid_widget
  have hdecided := decided_by_reachable sparseTable "demoglue" (.object paintedWidget) find?_widget
  rcases hdecided.2 [voidArray] hpasses with ⟨hsame, _⟩
  refine ⟨find?_widget, hpasses, hsame.bound, hsame.dispatched paintedWidget rfl, ?_⟩
  intro hstill
  exact (hsame.passes_iff hpasses).1 hstill "DemoWidget" _ .refl find?_widget burdens_widget

theorem arraysEnd_sparse : sparseTable.ArraysEnd := by
  apply Table.arraysEnd_of_flat
  rintro a b c ⟨x, hx, _⟩ _
  have hmem := Table.mem_of_find? hx
  simp [sparseTable] at hmem

theorem arraysEnd_burdened : burdenedTable.ArraysEnd := by
  apply Table.arraysEnd_of_flat
  rintro a b c ⟨x, hx, _, rfl⟩ ⟨y, hy, _⟩
  have hentries : burdenedTable.entries = [.enum paintColor, .object paintedWidget, voidArray] := by
    decide +kernel
  have hmem := Table.mem_of_find? hx
  have hx : x = ⟨"void", "gint", .param "n"⟩ := by
    simpa [hentries, voidArray] using hmem
  have hgint : burdenedTable.find? (Reference.core "gint") = none := by decide +kernel
  rw [hx, hgint] at hy
  cases hy

-- The type is refused because of an array that it does not lead to.
theorem not_decided_by_reachable
    : ¬ ∀ (t t' : Table) (d : Descriptor), t.ArraysEnd → t'.ArraysEnd →
        t.get? d.cname = some d → t'.get? d.cname = some d →
        (∀ n, TransGen t.Refers d.cname n → t'.find? n = t.find? n) →
        ((check t' .initial d).1 = none ↔ (check t .initial d).1 = none) := by
  intro h
  have hagree : sparseTable.Agree burdenedTable "DemoWidget" :=
    valid_widget.agree fun n e he => Table.registerAll_find? _ he
  have hpasses : (check sparseTable .initial (.object paintedWidget)).1 = none :=
    (Knowledge.faithful_initial.check_fst find?_widget).2 valid_widget
  have hget : sparseTable.get? "DemoWidget" = some (.object paintedWidget) := by decide +kernel
  have hget' : burdenedTable.get? "DemoWidget" = some (.object paintedWidget) := by decide +kernel
  have hstill := (h sparseTable burdenedTable (.object paintedWidget) arraysEnd_sparse
    arraysEnd_burdened hget hget' fun n hn => hagree n hn.to_reflTransGen).2 hpasses
  have hunburdened := ((hagree.same "demoglue" find?_widget).passes_iff hpasses).1 hstill
  exact hunburdened "DemoWidget" _ .refl find?_widget burdens_widget

end Interop
