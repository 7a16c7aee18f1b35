import Interop.Binding.Struct
import Interop.Proofs.Binding.Grammar
import Mathlib.Data.List.Basic

/-!
This module contains the members that the source of a managed structure declares, read off its
lines. Native and managed memory agree only if no field is missing, added or of another type.
-/

namespace Interop.Binding

open Source (opening closing indented)

/--
A line inside of a member: blank, or with a tab in front.
-/
def Nested (line : String) : Prop :=
  line = "" ∨ line.toList.head? = some '\t'

/--
The lines are the members of a structure, and `fields` are its instance fields. No other member
takes a place in the layout.
-/
inductive StructBody : Source.Lines → List LayoutMember → Prop where
  | nil : StructBody [] []
  | blank {lines fields} (hrest : StructBody lines fields) : StructBody ("" :: lines) fields
  | shown {lines fields} (type name : String) (hrest : StructBody lines fields) :
      StructBody (("public " ++ type ++ " " ++ name ++ ";") :: lines) (⟨true, type, name⟩ :: fields)
  | covered {lines fields} (type name : String) (hrest : StructBody lines fields) :
      StructBody (("private " ++ type ++ " " ++ name ++ ";") :: lines)
        (⟨false, type, name⟩ :: fields)
  | imported {i : Import} {imported lines fields} (himport : i.Spelled imported)
      (hrest : StructBody lines fields) : StructBody (imported ++ lines) fields
  | property {lines fields} (type name : String) {body : Source.Lines}
      (hbody : ∀ l ∈ body, Nested l) (hrest : StructBody lines fields) :
      StructBody
        (("public " ++ type ++ " " ++ name ++ " " ++ "\x7b") :: (body ++ "\x7d" :: lines)) fields
  | constant {lines fields} (type name value : String) (hrest : StructBody lines fields) :
      StructBody
        (("public static " ++ type ++ " " ++ name ++ " = " ++ value ++ ";") :: lines) fields
  | function {lines fields} (type name params : String) {body : Source.Lines}
      (hbody : ∀ l ∈ body, Nested l) (hrest : StructBody lines fields) :
      StructBody
        (("public static " ++ type ++ " " ++ name ++ " (" ++ params ++ ")")
          :: "\x7b" :: (body ++ "\x7d" :: lines))
        fields

theorem split_at_closing {lines : Source.Lines} {n : Nat} (h : lines[n]? = some closing)
    : lines = lines.take n ++ closing :: lines.drop (n + 1) := by
  rcases List.getElem?_eq_some_iff.1 h with ⟨hn, hclosing⟩
  rw [← hclosing, List.getElem_cons_drop, List.take_append_drop]

namespace StructBody

variable {lines lines' : Source.Lines} {fields fields' : List LayoutMember}

theorem append (h : StructBody lines fields) (h' : StructBody lines' fields')
    : StructBody (lines ++ lines') (fields ++ fields') := by
  induction h with
  | nil => exact h'
  | blank _ ih => exact .blank ih
  | shown type name _ ih => exact .shown type name ih
  | covered type name _ ih => exact .covered type name ih
  | imported himport _ ih =>
    rw [List.append_assoc]
    exact .imported himport ih
  | property type name hbody _ ih =>
    rw [List.cons_append, List.append_assoc]
    exact .property type name hbody ih
  | constant type name value _ ih => exact .constant type name value ih
  | function type name params hbody _ ih =>
    rw [List.cons_append, List.cons_append, List.append_assoc]
    exact .function type name params hbody ih

theorem field (m : LayoutMember) (h : StructBody lines fields)
    : StructBody (m.text :: lines) (m :: fields) := by
  rcases m with ⟨isPublic, type, name⟩
  cases isPublic with
  | true => exact .shown type name h
  | false => exact .covered type name h

theorem flatMap {items : List α} {lines : α → Source.Lines} {field? : α → Option LayoutMember}
    (h : ∀ a ∈ items, StructBody (lines a) (field? a).toList)
    : StructBody (items.flatMap lines) (items.filterMap field?) := by
  rw [List.filterMap_eq_flatMap_toList]
  induction items with
  | nil => exact .nil
  | cons a items ih =>
    rw [List.forall_mem_cons] at h
    rw [List.flatMap_cons, List.flatMap_cons]
    exact h.1.append (ih h.2)

section Block

variable {n : Nat} (type name : String) (hclosing : lines[n]? = some closing)
  (hbody : ∀ l ∈ lines.take n, Nested l) (hrest : StructBody (lines.drop (n + 1)) fields)

include hclosing hbody hrest

theorem property_at
    : StructBody (("public " ++ type ++ " " ++ name ++ " " ++ opening) :: lines) fields := by
  rw [split_at_closing hclosing]
  exact .property type name hbody hrest

theorem function_at (params : String)
    : StructBody
        (("public static " ++ type ++ " " ++ name ++ " (" ++ params ++ ")") :: opening :: lines)
        fields := by
  rw [split_at_closing hclosing]
  exact .function type name params hbody hrest

end Block

end StructBody

theorem nested_of_mem_indented {lines : Source.Lines} : ∀ l ∈ indented 1 lines, Nested l := by
  intro l hl
  unfold indented at hl
  rcases List.mem_map.1 hl with ⟨inner, _, rfl⟩
  split
  . next hblank => exact .inl hblank
  . exact .inr (by simp [Source.indent])

theorem propertyLines_body (p : FieldPlan) : StructBody p.propertyLines [] := by
  unfold FieldPlan.propertyLines
  dsimp only
  split
  . exact .property _ _ nested_of_mem_indented .nil
  . exact .nil

theorem memberLines_body (p : FieldPlan) : StructBody p.memberLines p.layoutMember?.toList := by
  unfold FieldPlan.memberLines
  cases p.layoutMember? with
  | none => exact .nil
  | some m => exact .field m ((propertyLines_body p).append (.blank .nil))

theorem bitfieldLines_body (gluelib : String) (s : StructType) (p : FieldPlan)
    : StructBody (bitfieldLines gluelib s p) [] := by
  have himports : StructBody ((bitfieldImports gluelib s p).flatMap (·.lines)) [] :=
    .imported (Import.spelled_lines _) (.imported (Import.spelled_lines _) .nil)
  unfold bitfieldLines
  refine himports.append (.blank ?_)
  refine .property_at _ _ (n := 12) rfl ?_ (.blank .nil)
  simp [Nested]

theorem fieldLines_body (gluelib : String) (s : StructType) (p : FieldPlan)
    : StructBody (fieldLines gluelib s p) p.layoutMember?.toList := by
  unfold fieldLines
  split
  . rw [← p.layoutMember?.toList.append_nil]
    exact (memberLines_body p).append (bitfieldLines_body gluelib s p)
  . rw [List.append_nil]
    exact memberLines_body p

theorem structMembers_body (qualified : String) : StructBody (structMembers qualified) [] := by
  have hzero : "public static " ++ qualified ++ " Zero = new " ++ qualified ++ " ();"
      = "public static " ++ qualified ++ " " ++ "Zero" ++ " = " ++ ("new " ++ qualified ++ " ()")
        ++ ";" := by
    rw [← String.toList_inj]
    simp
  have hnew : "public static " ++ qualified ++ " New (IntPtr raw)"
      = "public static " ++ qualified ++ " " ++ "New" ++ " (" ++ "IntPtr raw" ++ ")" := by
    rw [← String.toList_inj]
    simp
  unfold structMembers
  rw [hzero, hnew]
  refine .constant _ _ _ (.blank ?_)
  refine .function_at _ _ (n := 3) rfl ?_ ?_ _
  . simp [Nested]
  . exact .nil

/--
The source around the members of a managed structure, whose fields lie one after the other.
-/
def structFrame (s : StructType) (body : Source.Lines) : Source.Lines :=
  boundFrame s.identity.nameSpace
    ["\t[StructLayout (LayoutKind.Sequential)]",
     "\tpublic partial struct " ++ s.identity.name ++ " " ++ "\x7b", ""]
    body

theorem structSource_body (gluelib : String) (s : StructType) (plans : List FieldPlan)
    : ∃ body, structSource gluelib s plans = structFrame s body
        ∧ StructBody body (plans.filterMap (·.layoutMember?)) := by
  refine ⟨plans.flatMap (fieldLines gluelib s) ++ structMembers s.identity.qualified, ?_, ?_⟩
  . unfold structSource structFrame boundFrame
    rw [indented_two, indented_two, tabbed_append, ← List.append_assoc]
    rfl
  . rw [← (plans.filterMap (·.layoutMember?)).append_nil]
    exact (StructBody.flatMap fun p _ => fieldLines_body gluelib s p).append (structMembers_body _)

end Interop.Binding
