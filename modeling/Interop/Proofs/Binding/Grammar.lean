import Interop.Binding.Call
import Mathlib.Data.List.Forall2

/-!
This module contains the grammar of generated sources: how parameters, imports, arguments and
statements are written. The texts stand here once more, apart from the functions that write them, so
that what is said about a source holds of its characters.
-/

namespace Interop.Binding

/--
The text of the items in their order, each of them as `spelled` has it.
-/
def Listed {α : Type} (spelled : α → String → Prop) (items : List α) (text : String) : Prop :=
  ∃ texts, List.Forall₂ spelled items texts ∧ text = String.intercalate ", " texts

/--
How the parameter of an import is written. A variable that the call sets has `out` in front of it.
-/
inductive ImportParam.Spelled : ImportParam → String → Prop where
  | passed (type name : String) : Spelled ⟨false, type, name⟩ (type ++ " " ++ name)
  | received (type name : String) : Spelled ⟨true, type, name⟩ ("out " ++ type ++ " " ++ name)

/--
How a parameter of a managed member is written.
-/
inductive CallParam.Spelled : CallParam → String → Prop where
  | intro (p : CallParam) : Spelled p (p.use.crossing.managed ++ " " ++ p.name)

/--
How an import is written: the attribute that names its library, and the declaration.
-/
inductive Import.Spelled : Import → Source.Lines → Prop where
  | intro {params : List ImportParam} {list : String} (library returns symbol : String)
      (hparams : Listed ImportParam.Spelled params list) :
      Spelled ⟨library, returns, symbol, params⟩
        ["[DllImport (\"" ++ library ++ "\", CallingConvention = CallingConvention.Cdecl)]",
         "static extern " ++ returns ++ " " ++ symbol ++ " (" ++ list ++ ");"]

/--
How the argument of a call is written. The name of a variable to be set has `out` in front of it.
-/
inductive Argument.Spelled : Argument → String → Prop where
  | leading (text : String) : Spelled (.leading text) text
  | passed (param : Nat) (text : String) : Spelled (.passed param text) text
  | counted (param array : Nat) (text : String) : Spelled (.counted param array text) text
  | received (param : Nat) (name : String) : Spelled (.received param name) ("out " ++ name)

/--
How a statement is written.
-/
inductive Statement.Spelled : Statement → String → Prop where
  | wrap (helper holder source : String) :
      Spelled (.wrap helper holder source)
        (helper ++ " " ++ holder ++ " = new " ++ helper ++ " (" ++ source ++ ");")
  | keepForever (holder : String) :
      Spelled (.keepForever holder) ("Gapi.Runtime.CallbackKeeper.Add (" ++ holder ++ ");")
  | copy (holder value : String) :
      Spelled (.copy holder value) ("IntPtr " ++ holder ++ " = " ++ value ++ ";")
  | declareLength (type name : String) :
      Spelled (.declareLength type name) (type ++ " " ++ name ++ ";")
  | call {args : List Argument} {list : String} (callee : String)
      (hargs : Listed Argument.Spelled args list) :
      Spelled (.call callee args) (callee ++ " (" ++ list ++ ");")
  | receive {args : List Argument} {list : String} (type callee : String)
      (hargs : Listed Argument.Spelled args list) :
      Spelled (.receive type callee args)
        (type ++ " raw_ret = " ++ callee ++ " (" ++ list ++ ");")
  | store {args : List Argument} {list : String} (target callee : String)
      (hargs : Listed Argument.Spelled args list) :
      Spelled (.store target callee args) (target ++ " = " ++ callee ++ " (" ++ list ++ ");")
  | convert (type value : String) :
      Spelled (.convert type value) (type ++ " ret = " ++ value ++ ";")
  | keepAlive (holder : String) :
      Spelled (.keepAlive holder) ("GC.KeepAlive (" ++ holder ++ ");")
  | free (holder : String) :
      Spelled (.free holder) ("Gapi.Runtime.Marshaller.Free (" ++ holder ++ ");")
  | forward (target : String) (args : List String) :
      Spelled (.forward target args) (target ++ " (" ++ String.intercalate ", " args ++ ");")
  | answer (type target : String) (args : List String) :
      Spelled (.answer type target args)
        (type ++ " __ret = " ++ target ++ " (" ++ String.intercalate ", " args ++ ");")
  | setLength (name value : String) :
      Spelled (.setLength name value) (name ++ " = " ++ value ++ ";")
  | giveBack (value : String) : Spelled (.giveBack value) ("return " ++ value ++ ";")

/--
The lines with `tabs` in front of each that is not blank.
-/
def tabbed (tabs : String) (lines : Source.Lines) : Source.Lines :=
  lines.map fun line => if line = "" then line else tabs ++ line

/--
How the source of a type is written that imports native functions: a banner, the namespace, and in
it the type with its head and members.
-/
def boundFrame (nameSpace : String) (head members : Source.Lines) : Source.Lines :=
  ["// This file was generated by gapigen.",
   "// Any changes made will be lost if regenerated.",
   "",
   "namespace " ++ nameSpace ++ " " ++ "\x7b",
   "",
   "\tusing System;",
   "\tusing System.Runtime.InteropServices;",
   ""]
    ++ head ++ tabbed "\t\t" members ++ ["\t\x7d", "\x7d"]

theorem tabbed_append (tabs : String) (a b : Source.Lines)
    : tabbed tabs (a ++ b) = tabbed tabs a ++ tabbed tabs b :=
  List.map_append

theorem indented_one (lines : Source.Lines) : Source.indented 1 lines = tabbed "\t" lines :=
  rfl

theorem indented_two (lines : Source.Lines) : Source.indented 2 lines = tabbed "\t\t" lines :=
  rfl

theorem boundFrame_eq (nameSpace : String) (head members : Source.Lines)
    : Source.banner ++ Source.openBoundNamespace nameSpace ++ head ++ Source.indented 2 members
        ++ ["\t" ++ Source.closing, Source.closing]
        = boundFrame nameSpace head members := by
  rw [indented_two]
  rfl

theorem forall₂_spelled {α β : Type} {spelled : α → β → Prop} {text : α → β}
    (h : ∀ a, spelled a (text a)) (items : List α)
    : List.Forall₂ spelled items (items.map text) := by
  rw [List.forall₂_map_right_iff, List.forall₂_same]
  intro a _
  exact h a

theorem ImportParam.spelled_text (p : ImportParam) : p.Spelled p.text := by
  rcases p with ⟨out, type, name⟩
  cases out with
  | true => exact .received type name
  | false =>
    unfold text
    rw [if_neg Bool.false_ne_true, String.empty_append]
    exact .passed type name

theorem listed_paramList (params : List ImportParam)
    : Listed ImportParam.Spelled params (paramList params) :=
  ⟨_, forall₂_spelled ImportParam.spelled_text params, rfl⟩

theorem Import.spelled_lines (i : Import) : i.Spelled i.lines :=
  .intro i.library i.returns i.symbol (listed_paramList i.params)

theorem CallShape.listed_managedParams (c : CallShape)
    : Listed CallParam.Spelled c.visible c.managedParams :=
  ⟨_, forall₂_spelled CallParam.Spelled.intro c.visible, rfl⟩

theorem Argument.spelled_text (a : Argument) : a.Spelled a.text := by
  cases a with
  | leading text => exact .leading text
  | passed param text => exact .passed param text
  | counted param array text => exact .counted param array text
  | received param name => exact .received param name

theorem listed_argumentList (args : List Argument)
    : Listed Argument.Spelled args (argumentList args) :=
  ⟨_, forall₂_spelled Argument.spelled_text args, rfl⟩

theorem Statement.spelled_text (st : Statement) : st.Spelled st.text := by
  cases st with
  | wrap helper holder source => exact .wrap helper holder source
  | keepForever holder => exact .keepForever holder
  | copy holder value => exact .copy holder value
  | declareLength type name => exact .declareLength type name
  | call callee args => exact .call callee (listed_argumentList args)
  | receive type callee args => exact .receive type callee (listed_argumentList args)
  | store target callee args => exact .store target callee (listed_argumentList args)
  | convert type value => exact .convert type value
  | keepAlive holder => exact .keepAlive holder
  | free holder => exact .free holder
  | forward target args => exact .forward target args
  | answer type target args => exact .answer type target args
  | setLength name value => exact .setLength name value
  | giveBack value => exact .giveBack value

end Interop.Binding
