import Interop.Binding
import Interop.Proofs.Binding.Grammar
import Mathlib.Data.List.TakeWhile

/-!
This module contains the native functions that a managed source imports from a library, read off its
lines. No other line of a source can be mistaken for the attribute in front of an import, whatever
the names of the types are.
-/

namespace Interop.Binding

open Source (importAttribute indented opening closing runtime)

def unindented (line : String) : String :=
  String.ofList (line.toList.dropWhile (· = '\t'))

/--
The declarations of the functions that the lines import from a library: each stands below the
attribute that names the library.
-/
def declarationsFrom (library : String) : Source.Lines → List String
  | [] => []
  | line :: rest =>
    (if unindented line = importAttribute library then [unindented (rest.headD "")] else [])
      ++ declarationsFrom library rest

def Import.declaration (i : Import) : String :=
  "static extern " ++ i.returns ++ " " ++ i.symbol ++ " (" ++ paramList i.params ++ ");"

theorem Import.lines_eq (i : Import) : i.lines = [importAttribute i.library, i.declaration] := by
  rfl

/--
The line cannot be the attribute in front of an import: it does not end like one.
-/
def Plain (line : String) : Prop :=
  line.toList.getLast? ≠ some ']'

instance (line : String) : Decidable (Plain line) :=
  inferInstanceAs (Decidable (_ ≠ _))

variable {library line : String} {lines lines' rest : Source.Lines} {n : Nat}

@[simp]
theorem plain_append {a b : String} : Plain (a ++ b) ↔ if b = "" then Plain a else Plain b := by
  unfold Plain
  rw [String.toList_append, List.getLast?_append]
  split
  . next h => simp [h]
  . next h =>
    have hne : b.toList ≠ [] := by simpa using h
    rw [List.getLast?_eq_some_getLast hne]
    simp

theorem unindented_suffix (line : String) : (unindented line).toList <:+ line.toList := by
  unfold unindented
  rw [String.toList_ofList]
  exact List.dropWhile_suffix _

theorem unindented_indent (n : Nat) (line : String)
    : unindented (Source.indent n ++ line) = unindented line := by
  unfold unindented Source.indent
  rw [String.toList_append, String.toList_ofList, List.dropWhile_append_of_pos]
  simp

theorem unindented_eq_self (h : line.toList.head? ≠ some '\t') : unindented line = line := by
  unfold unindented
  rw [← String.toList_inj, String.toList_ofList, List.dropWhile_eq_self_iff]
  intro hlen htab
  apply h
  rw [List.head?_eq_getElem?, List.getElem?_eq_getElem hlen]
  simpa using htab

theorem importAttribute_inj {library' : String}
    (h : importAttribute library = importAttribute library') : library = library' := by
  unfold importAttribute at h
  rw [← String.toList_inj] at h ⊢
  simpa using h

theorem not_plain_importAttribute : ¬ Plain (importAttribute library) := by
  simp +decide [importAttribute]

theorem Plain.unindented_ne (h : Plain line) : unindented line ≠ importAttribute library := by
  intro heq
  rcases unindented_suffix line with ⟨tabs, htabs⟩
  have hline : line = String.ofList tabs ++ importAttribute library := by
    rw [← String.toList_inj, String.toList_append, String.toList_ofList, ← heq, htabs]
  rw [hline, plain_append, if_neg (by simp [importAttribute])] at h
  exact not_plain_importAttribute h

-- Another attribute shows by its first letter.
theorem ne_of_second {c : Char} (h : (unindented line).toList[1]? = some c) (hc : c ≠ 'D')
    : unindented line ≠ importAttribute library := by
  intro heq
  rw [heq] at h
  unfold importAttribute at h
  simp at h
  exact hc h.symm

theorem declaration_plain (i : Import) : Plain i.declaration := by
  unfold Import.declaration
  simp +decide

theorem unindented_declaration (i : Import) : unindented i.declaration = i.declaration := by
  apply unindented_eq_self
  unfold Import.declaration
  simp

theorem unindented_importAttribute (library : String)
    : unindented (importAttribute library) = importAttribute library := by
  apply unindented_eq_self
  simp [importAttribute]

theorem unindented_headD_indented
    : unindented ((indented n lines ++ rest).headD "")
        = unindented ((lines ++ rest).headD "") := by
  cases lines with
  | nil => rfl
  | cons line lines =>
    simp only [indented, List.map_cons, List.cons_append, List.headD_cons]
    split
    . rfl
    . exact unindented_indent n line

theorem declarationsFrom_indented
    : declarationsFrom library (indented n lines ++ rest)
        = declarationsFrom library (lines ++ rest) := by
  induction lines with
  | nil => rfl
  | cons line lines ih =>
    have hline : unindented (if line = "" then line else Source.indent n ++ line)
        = unindented line := by
      split
      . rfl
      . exact unindented_indent n line
    have hcons : indented n (line :: lines)
        = (if line = "" then line else Source.indent n ++ line) :: indented n lines := rfl
    rw [hcons]
    simp only [List.cons_append, declarationsFrom]
    rw [hline, ih, unindented_headD_indented]

/--
Whatever follows them, the lines import these functions from the library.
-/
def Adds (library : String) (lines : Source.Lines) (imports : List Import) : Prop :=
  ∀ rest, declarationsFrom library (lines ++ rest)
    = imports.map (·.declaration) ++ declarationsFrom library rest

namespace Adds

variable {imports imports' : List Import}

theorem eq (h : Adds library lines imports)
    : declarationsFrom library lines = imports.map (·.declaration) := by
  have hnil := h []
  rw [List.append_nil] at hnil
  rw [hnil]
  exact List.append_nil _

theorem nil : Adds library [] [] :=
  fun _ => rfl

theorem append (h : Adds library lines imports) (h' : Adds library lines' imports')
    : Adds library (lines ++ lines') (imports ++ imports') := by
  intro rest
  rw [List.append_assoc, h, h', List.map_append, List.append_assoc]

theorem append_silent (h : Adds library lines imports) (h' : Adds library lines' [])
    : Adds library (lines ++ lines') imports := by
  rw [← imports.append_nil]
  exact h.append h'

theorem silent_append (h : Adds library lines []) (h' : Adds library lines' imports)
    : Adds library (lines ++ lines') imports :=
  h.append h'

theorem flatMap {items : List α} {lines : α → Source.Lines} {imports : α → List Import}
    (h : ∀ a ∈ items, Adds library (lines a) (imports a))
    : Adds library (items.flatMap lines) (items.flatMap imports) := by
  induction items with
  | nil => exact .nil
  | cons a items ih =>
    rw [List.forall_mem_cons] at h
    exact h.1.append (ih h.2)

theorem flatMap_silent {items : List α} {lines : α → Source.Lines}
    (h : ∀ a ∈ items, Adds library (lines a) []) : Adds library (items.flatMap lines) [] := by
  have hnone : items.flatMap (fun _ => []) = ([] : List Import) := by simp
  rw [← hnone]
  exact .flatMap h

theorem indented (h : Adds library lines imports) : Adds library (indented n lines) imports := by
  intro rest
  rw [declarationsFrom_indented]
  exact h rest

theorem of_ne (h : ∀ l ∈ lines, unindented l ≠ importAttribute library)
    : Adds library lines [] := by
  intro rest
  induction lines with
  | nil => rfl
  | cons line lines ih =>
    rw [List.forall_mem_cons] at h
    rw [List.cons_append, declarationsFrom, if_neg h.1]
    exact ih h.2

theorem plain (h : ∀ l ∈ lines, Plain l) : Adds library lines [] :=
  .of_ne fun l hl => (h l hl).unindented_ne

theorem imported (i : Import) : Adds i.library i.lines [i] := by
  have hne : i.declaration ≠ importAttribute i.library := by
    rw [← unindented_declaration]
    exact (declaration_plain i).unindented_ne
  intro rest
  rw [Import.lines_eq]
  simp only [List.cons_append, List.nil_append, declarationsFrom, unindented_importAttribute,
    if_true, List.headD_cons, unindented_declaration, if_neg hne, List.map_cons, List.map_nil]

theorem stranger {i : Import} (h : i.library ≠ library) : Adds library i.lines [] := by
  apply of_ne
  rw [Import.lines_eq, List.forall_mem_cons, unindented_importAttribute]
  refine ⟨fun heq => h (importAttribute_inj heq), ?_⟩
  simpa using (declaration_plain i).unindented_ne

/--
What the lines hold below the attribute of the library is how these imports are written.
-/
theorem spelled (h : Adds library lines imports) (hlibrary : ∀ i ∈ imports, i.library = library)
    : List.Forall₂ (fun i line => i.Spelled [importAttribute library, line]) imports
        (declarationsFrom library lines) := by
  rw [h.eq, List.forall₂_map_right_iff, List.forall₂_same]
  intro i hi
  rw [← hlibrary i hi, ← Import.lines_eq]
  exact i.spelled_lines

end Adds

section Sources

variable {t : Table} {gluelib : String}

theorem banner_plain : ∀ l ∈ Source.banner, Plain l := by
  unfold Source.banner
  simp +decide

theorem openBoundNamespace_plain (name : String)
    : ∀ l ∈ Source.openBoundNamespace name, Plain l := by
  unfold Source.openBoundNamespace Source.openNamespace
  simp +decide

theorem accessors?_plain {c : Crossing} {field : String} {body : Source.Lines}
    (h : c.accessors? field = some body) : ∀ l ∈ body, Plain l := by
  cases c with
  | simple | long | enum =>
    rw [← Option.some.inj h]
    simp +decide
  | _ => cases h

theorem plain_indented (h : ∀ l ∈ lines, Plain l) : ∀ l ∈ Source.indented n lines, Plain l := by
  intro l hl
  unfold Source.indented at hl
  rcases List.mem_map.1 hl with ⟨inner, hinner, rfl⟩
  split
  . exact h inner hinner
  . next hne =>
    rw [plain_append, if_neg hne]
    exact h inner hinner

theorem propertyLines_plain (p : FieldPlan) : ∀ l ∈ p.propertyLines, Plain l := by
  have hframe {body : Source.Lines} (hbody : ∀ l ∈ body, Plain l)
      : ∀ l ∈ ["public " ++ p.use.crossing.managed ++ " " ++ p.property ++ " " ++ opening]
          ++ Source.indented 1 body ++ [closing], Plain l := by
    rw [List.forall_mem_append, List.forall_mem_append]
    refine ⟨⟨?_, plain_indented hbody⟩, ?_⟩
    . simp +decide
    . simp +decide
  unfold FieldPlan.propertyLines
  dsimp only
  split
  . next body hbody =>
    apply hframe
    split at hbody
    . exact accessors?_plain hbody
    . rw [← Option.some.inj hbody]
      simp +decide
    . cases hbody
  . simp

theorem memberLines_plain (p : FieldPlan) : ∀ l ∈ p.memberLines, Plain l := by
  unfold FieldPlan.memberLines
  split
  . next member =>
    rw [List.forall_mem_append, List.forall_mem_append]
    refine ⟨⟨?_, propertyLines_plain p⟩, ?_⟩
    . unfold LayoutMember.text
      simp +decide
    . simp +decide
  . simp

theorem bitfieldLines_adds (s : StructType) (p : FieldPlan)
    : Adds gluelib (bitfieldLines gluelib s p) (bitfieldImports gluelib s p) := by
  have himports : Adds gluelib ((bitfieldImports gluelib s p).flatMap (·.lines))
      (bitfieldImports gluelib s p) := by
    unfold bitfieldImports
    exact (Adds.imported _).append ((Adds.imported _).append .nil)
  unfold bitfieldLines
  apply himports.append_silent
  apply Adds.plain
  simp +decide

theorem fieldLines_adds (gluelib : String) (s : StructType) (p : FieldPlan)
    : Adds gluelib (fieldLines gluelib s p)
        (if p.needsGlue then bitfieldImports gluelib s p else []) := by
  have hmember : Adds gluelib p.memberLines [] := .plain (memberLines_plain p)
  unfold fieldLines
  by_cases hglue : p.needsGlue
  . rw [if_pos hglue, if_pos hglue]
    exact hmember.silent_append (bitfieldLines_adds s p)
  . rw [if_neg hglue, if_neg hglue]
    exact hmember.append_silent .nil

theorem structMembers_plain (qualified : String) : ∀ l ∈ structMembers qualified, Plain l := by
  unfold structMembers
  simp +decide

theorem frame_adds (name : String)
    : Adds library (Source.banner ++ Source.openBoundNamespace name) [] := by
  apply Adds.plain
  rw [List.forall_mem_append]
  exact ⟨banner_plain, openBoundNamespace_plain name⟩

/--
A structure imports two functions for every field that native code reads and writes for it.
-/
theorem structSource_adds (s : StructType) (plans : List FieldPlan)
    : Adds gluelib (structSource gluelib s plans)
        (plans.flatMap fun p => if p.needsGlue then bitfieldImports gluelib s p else []) := by
  have hopening : Adds gluelib ["\t[StructLayout (LayoutKind.Sequential)]",
      "\tpublic partial struct " ++ s.identity.name ++ " " ++ opening, ""] [] := by
    apply Adds.of_ne
    rw [List.forall_mem_cons]
    refine ⟨ne_of_second (c := 'S') (by decide) (by decide), fun l hl => Plain.unindented_ne ?_⟩
    revert l
    simp +decide
  have hclosing : Adds gluelib ["\t" ++ closing, closing] [] := .plain (by simp +decide)
  have hfields := Adds.flatMap fun p (_ : p ∈ plans) => fieldLines_adds gluelib s p
  have hmembers : Adds gluelib (structMembers s.identity.qualified) [] :=
    .plain (structMembers_plain _)
  have hframe := (frame_adds s.identity.nameSpace).append_silent hopening
  exact ((hframe.silent_append hfields.indented).append_silent hmembers.indented).append_silent
    hclosing

theorem Statement.text_plain (s : Statement) : Plain s.text := by
  cases s <;> unfold Statement.text <;> simp +decide

theorem statements_plain (statements : List Statement)
    : ∀ l ∈ statements.map (·.text), Plain l := by
  simp [Statement.text_plain]

theorem delegates_plain (c : CallbackType) (shape : CallShape)
    : ∀ l ∈ CallbackSource.delegateLines c shape, Plain l := by
  unfold CallbackSource.delegateLines
  simp +decide

theorem nativeDelegateLines_adds (c : CallbackType) (shape : CallShape)
    : Adds library (CallbackSource.nativeDelegateLines c shape) [] := by
  unfold CallbackSource.nativeDelegateLines
  apply Adds.of_ne
  rw [List.forall_mem_cons]
  refine ⟨ne_of_second (c := 'U') (by decide) (by decide), fun l hl => Plain.unindented_ne ?_⟩
  revert l
  simp +decide

theorem invokerLines_adds (c : CallbackType) (shape : CallShape)
    : Adds gluelib (CallbackSource.invokerLines gluelib c shape)
        [CallbackSource.invocationImport gluelib c shape] := by
  have himport : Adds gluelib (CallbackSource.invocationImport gluelib c shape).lines
      [CallbackSource.invocationImport gluelib c shape] := .imported _
  unfold CallbackSource.invokerLines
  refine (Adds.silent_append (.plain ?_) (Adds.indented ?_)).append_silent (.plain ?_)
  . simp +decide
  . refine ((himport.append_silent (.plain ?_)).append_silent (.plain ?_)).append_silent (.plain ?_)
    . simp +decide
    . exact plain_indented (statements_plain _)
    . simp +decide
  . simp +decide

theorem recovery_plain (shape : CallShape) : ∀ l ∈ CallbackSource.recovery shape, Plain l := by
  unfold CallbackSource.recovery
  rw [List.forall_mem_append, List.forall_mem_append]
  refine ⟨⟨?_, ?_⟩, ?_⟩
  . simp +decide
  . simp +decide
  . split
    . simp +decide
    . simp

set_option maxRecDepth 2000 in
theorem wrapperLines_plain (c : CallbackType) (shape : CallShape)
    : ∀ l ∈ CallbackSource.wrapperLines c shape, Plain l := by
  unfold CallbackSource.wrapperLines
  dsimp only
  rw [List.forall_mem_append, List.forall_mem_append]
  refine ⟨⟨?_, plain_indented ?_⟩, ?_⟩
  . simp +decide
  . simp only [List.forall_mem_append]
    refine ⟨⟨⟨⟨?_, plain_indented (statements_plain _)⟩, ?_⟩, plain_indented (recovery_plain _)⟩,
      ?_⟩
    . simp +decide
    . simp +decide
    . simp +decide
  . simp +decide

/--
A callback imports one function.
-/
theorem callbackLines_adds (c : CallbackType) (shape : CallShape)
    : Adds gluelib (CallbackSource.lines gluelib c shape)
        [CallbackSource.invocationImport gluelib c shape] := by
  have hdelegate : Adds gluelib (CallbackSource.delegateLines c shape) [] :=
    .plain (delegates_plain c shape)
  have hbetween : Adds gluelib [closing, ""] [] := .plain (by simp +decide)
  have hinternal : Adds gluelib (Source.openBoundNamespace c.helperSpace) [] :=
    .plain (openBoundNamespace_plain _)
  have hwrapper : Adds gluelib (CallbackSource.wrapperLines c shape) [] :=
    .plain (wrapperLines_plain c shape)
  have hhelpers := ((nativeDelegateLines_adds c shape).silent_append
    (invokerLines_adds c shape)).append_silent hwrapper
  have hclosing : Adds gluelib [closing] [] := .plain (by simp +decide)
  have hframe := (((frame_adds c.identity.nameSpace).append_silent
    (hdelegate.indented (n := 1))).append_silent hbetween).append_silent hinternal
  exact (hframe.silent_append hhelpers.indented).append_silent hclosing

theorem statementLines_plain (statements : List Statement)
    : ∀ l ∈ statementLines statements, Plain l := by
  unfold statementLines
  rw [List.forall_mem_append, List.forall_mem_append]
  refine ⟨⟨?_, plain_indented (statements_plain _)⟩, ?_⟩
  . simp +decide
  . simp +decide

theorem virtualLines_adds (library : String) (v : VirtualMethod) (shape : CallShape)
    : Adds library (virtualLines v shape) [] := by
  unfold virtualLines
  apply Adds.append_silent (.of_ne ?_) (.plain (statementLines_plain _))
  rw [List.forall_mem_cons]
  refine ⟨ne_of_second (c := 'G') ?_ (by decide), ?_⟩
  . rw [unindented_eq_self (by simp)]
    simp [runtime]
  . rw [List.forall_mem_singleton]
    apply Plain.unindented_ne
    simp +decide

section Strangers

variable {o : ObjectType} (h : o.identity.library ≠ library)

include h

theorem typeProperty_adds : Adds library (typeProperty o) [] := by
  unfold typeProperty
  split
  . exact .nil
  . apply (Adds.stranger h).append_silent
    apply Adds.plain
    simp +decide

theorem constructorLines_adds (m : Member) : Adds library (constructorLines o m) [] := by
  have himport : Adds library (constructorImport o m).lines [] := .stranger h
  unfold constructorLines
  apply (himport.append_silent (.plain ?_)).append_silent (.plain (statementLines_plain _))
  simp +decide

theorem methodLines_adds (m : Member) : Adds library (methodLines o m) [] := by
  have himport : Adds library (methodImport o m).lines [] := .stranger h
  unfold methodLines
  apply (himport.append_silent (.plain ?_)).append_silent (.plain (statementLines_plain _))
  simp +decide

/--
An object imports its functions from its own library only.
-/
theorem objectSource_adds (p : ObjectPlan) : Adds library (objectSource o p) [] := by
  have hopening : Adds library ["\tpublic partial class " ++ o.identity.name ++ " : " ++ p.base
      ++ " " ++ opening, ""] [] := .plain (by simp +decide)
  have hhandle : Adds library ["public " ++ o.identity.name ++ " (IntPtr raw) : base (raw) "
      ++ opening ++ closing, ""] [] := .plain (by simp +decide)
  have hconstructors := Adds.flatMap_silent fun m (_ : m ∈ p.constructors) =>
    constructorLines_adds h m
  have hmethods := Adds.flatMap_silent fun m (_ : m ∈ p.methods) => methodLines_adds h m
  have hvirtuals := Adds.flatMap_silent fun v (_ : v ∈ p.virtuals) =>
    virtualLines_adds library v.1 v.2
  have hclosing : Adds library ["\t" ++ closing, closing] [] := .plain (by simp +decide)
  have hmembers := (((hhandle.append_silent (typeProperty_adds h)).append_silent
    hconstructors).append_silent hmethods).append_silent hvirtuals
  have hframe := (frame_adds o.identity.nameSpace).append_silent hopening
  exact (hframe.append_silent hmembers.indented).append_silent hclosing

end Strangers

theorem enumSource_adds (e : EnumType) : Adds library (enumSource e) [] := by
  have hflags : Adds library (if e.flags then ["\t[Flags]"] else []) [] := by
    apply Adds.of_ne
    split
    . rw [List.forall_mem_singleton]
      exact ne_of_second (c := 'F') (by decide) (by decide)
    . simp
  have hopening : Adds library ["\tpublic enum " ++ e.identity.name ++ " : " ++ e.underlying ++ " "
      ++ opening, ""] [] := .plain (by simp +decide)
  have hmembers : Adds library
      (e.members.map fun m => "\t\t" ++ memberName m.name ++ " = " ++ toString m.value ++ ",") [] :=
    .plain (by simp +decide)
  have hclosing : Adds library ["\t" ++ closing, closing] [] := .plain (by simp +decide)
  have hframe := ((frame_adds e.identity.nameSpace).append_silent hflags).append_silent hopening
  exact (hframe.append_silent hmembers).append_silent hclosing

end Sources

end Interop.Binding
