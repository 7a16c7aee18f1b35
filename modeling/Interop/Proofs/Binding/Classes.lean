import Interop.Binding.Callback
import Interop.Binding.Object
import Interop.Proofs.Binding.Grammar

/-!
This module contains the grammar of generated classes: the class of an object, member by member, and
the helper that calls a native function pointer, next to the type of that function.
-/

namespace Interop.Binding

/--
How a member is written that calls a native function: the import, a head, and the body in braces.
-/
inductive CallingMember (i : Import) (head : String) (body : List Statement) :
    Source.Lines → Prop where
  | intro {imported statements : Source.Lines} (himport : i.Spelled imported)
      (hbody : List.Forall₂ Statement.Spelled body statements) :
      CallingMember i head body
        (imported ++ ["", head] ++ (["\x7b"] ++ tabbed "\t" statements ++ ["\x7d", ""]))

/--
How a declared constructor is written. It takes what managed code sees of the signature.
-/
inductive ConstructorText (o : ObjectType) (m : Member) : Source.Lines → Prop where
  | intro {params : String} {lines : Source.Lines}
      (hparams : Listed CallParam.Spelled m.shape.visible params)
      (hmember : CallingMember
        ⟨o.identity.library, "IntPtr", m.method.cname, (constructorImport o m).params⟩
        ("public " ++ o.identity.name ++ " (" ++ params ++ ") : base (IntPtr.Zero)")
        (constructorBody m) lines) :
      ConstructorText o m lines

/--
How a method is written. It takes what managed code sees of the signature.
-/
inductive MethodText (o : ObjectType) (m : Member) : Source.Lines → Prop where
  | intro {params : String} {lines : Source.Lines}
      (hparams : Listed CallParam.Spelled m.shape.visible params)
      (hmember : CallingMember
        ⟨o.identity.library, m.shape.returns?.elim "void" (·.crossing.boundary), m.method.cname,
          (methodImport o m).params⟩
        ("public " ++ (if m.method.static then "static " else "")
          ++ m.shape.returns?.elim "void" (·.crossing.managed) ++ " "
          ++ Text.pascalCase m.method.name ++ " (" ++ params ++ ")")
        (methodBody m) lines) :
      MethodText o m lines

/--
How a virtual method is written. As long as no class overrides it, it returns a default value.
-/
inductive VirtualText (v : VirtualMethod) (shape : CallShape) : Source.Lines → Prop where
  | intro {params : String} (hparams : Listed CallParam.Spelled shape.visible params) :
      VirtualText v shape
        (["[Gapi.Runtime.VirtualMethod (\"" ++ v.name ++ "\")]",
          "protected virtual " ++ shape.returns?.elim "void" (·.crossing.managed) ++ " On"
            ++ Text.pascalCase v.name ++ " (" ++ params ++ ")"]
          ++ (["\x7b"]
            ++ tabbed "\t"
              (shape.returns?.toList.map fun r => "return " ++ r.crossing.defaultValue ++ ";")
            ++ ["\x7d", ""]))

/--
How the property with the runtime type is written, for an object that has one.
-/
inductive TypePropertyText (o : ObjectType) : Source.Lines → Prop where
  | absent (hgetType : o.getType? = none) : TypePropertyText o []
  | present {getType : String} {imported : Source.Lines} (hgetType : o.getType? = some getType)
      (himport : Import.Spelled ⟨o.identity.library, "IntPtr", getType, []⟩ imported) :
      TypePropertyText o
        (imported
          ++ ["",
              "public static " ++ (if o.parent?.isSome then "new " else "") ++ "Gapi.Runtime"
                ++ ".GType GType " ++ "\x7b",
              "\tget \x7b",
              "\t\treturn new Gapi.Runtime.GType (" ++ getType ++ " ());",
              "\t\x7d",
              "\x7d",
              ""])

/--
How the class of an object is written: the constructor around a raw handle, the runtime type, and
then the constructors, methods and virtual methods of the plan in their order, and nothing else.
-/
inductive ClassText (o : ObjectType) (p : ObjectPlan) : Source.Lines → Prop where
  | intro {property : Source.Lines} {constructors methods virtuals : List Source.Lines}
      (hproperty : TypePropertyText o property)
      (hconstructors : List.Forall₂ (ConstructorText o) p.constructors constructors)
      (hmethods : List.Forall₂ (MethodText o) p.methods methods)
      (hvirtuals : List.Forall₂ (fun v => VirtualText v.1 v.2) p.virtuals virtuals) :
      ClassText o p
        (boundFrame o.identity.nameSpace
          ["\tpublic partial class " ++ o.identity.name ++ " : " ++ p.base ++ " " ++ "\x7b", ""]
          (["public " ++ o.identity.name ++ " (IntPtr raw) : base (raw) " ++ "\x7b" ++ "\x7d", ""]
            ++ property ++ constructors.flatten ++ methods.flatten ++ virtuals.flatten))

/--
How the type of native functions and the helper that calls one are written, somewhere in the source
of a callback. Other sources name both by the namespace in which they stand.
-/
inductive InvokerText (gluelib : String) (c : CallbackType) (shape : CallShape) :
    Source.Lines → Prop where
  | intro {front back imported statements : Source.Lines}
      {delegate invoker delegateParams params : String}
      (hdelegate : c.nativeDelegate = c.helperSpace ++ "." ++ delegate)
      (hinvoker : c.invoker = c.helperSpace ++ "." ++ invoker)
      (hdelegateParams : Listed ImportParam.Spelled (shape.importParams none) delegateParams)
      (himport : Import.Spelled
        ⟨gluelib, shape.returns?.elim "void" (·.crossing.boundary), c.glueSymbol,
          (CallbackSource.invocationImport gluelib c shape).params⟩
        imported)
      (hbody : List.Forall₂ Statement.Spelled (CallbackSource.invokerBody c shape) statements)
      (hparams : Listed CallParam.Spelled shape.visible params) :
      InvokerText gluelib c shape
        (front
          ++ ["namespace " ++ c.helperSpace ++ " " ++ "\x7b",
              "",
              "\tusing System;",
              "\tusing System.Runtime.InteropServices;",
              ""]
          ++ tabbed "\t"
            ["[UnmanagedFunctionPointer (CallingConvention.Cdecl)]",
             "internal delegate " ++ shape.returns?.elim "void" (·.crossing.boundary) ++ " "
               ++ delegate ++ " (" ++ delegateParams ++ ");",
             ""]
          ++ tabbed "\t"
            (["internal class " ++ invoker ++ " " ++ "\x7b", ""]
              ++ tabbed "\t"
                (imported
                  ++ ["",
                      "IntPtr native_cb;",
                      "",
                      invoker ++ " (IntPtr native_cb)",
                      "\x7b",
                      "\tthis.native_cb = native_cb;",
                      "\x7d",
                      "",
                      "public static " ++ c.identity.qualified ++ " Wrap (IntPtr native_cb)",
                      "\x7b",
                      "\tif (native_cb == IntPtr.Zero)",
                      "\t\treturn null;",
                      "\treturn new " ++ invoker ++ " (native_cb).Handler;",
                      "\x7d",
                      "",
                      shape.returns?.elim "void" (·.crossing.managed) ++ " Handler (" ++ params
                        ++ ")",
                      "\x7b"]
                  ++ tabbed "\t" statements
                  ++ ["\x7d"])
              ++ ["\x7d", ""])
          ++ back)

theorem spelled_statements (body : List Statement)
    : List.Forall₂ Statement.Spelled body (body.map (·.text)) :=
  forall₂_spelled Statement.spelled_text body

theorem constructorLines_text (o : ObjectType) (m : Member)
    : ConstructorText o m (constructorLines o m) :=
  .intro m.shape.listed_managedParams
    (.intro (constructorImport o m).spelled_lines (spelled_statements (constructorBody m)))

theorem methodLines_text (o : ObjectType) (m : Member) : MethodText o m (methodLines o m) :=
  .intro m.shape.listed_managedParams
    (.intro (methodImport o m).spelled_lines (spelled_statements (methodBody m)))

theorem virtualLines_text (v : VirtualMethod) (shape : CallShape)
    : VirtualText v shape (virtualLines v shape) := by
  unfold virtualLines statementLines
  rw [List.map_map]
  exact .intro shape.listed_managedParams

theorem typeProperty_text (o : ObjectType) : TypePropertyText o (typeProperty o) := by
  unfold typeProperty
  cases hgetType : o.getType? with
  | none => exact .absent hgetType
  | some getType => exact .present hgetType (Import.spelled_lines _)

theorem objectSource_text (o : ObjectType) (p : ObjectPlan)
    : ClassText o p (objectSource o p) := by
  unfold objectSource
  rw [boundFrame_eq, List.flatMap_def, List.flatMap_def, List.flatMap_def]
  exact .intro (typeProperty_text o) (forall₂_spelled (constructorLines_text o) p.constructors)
    (forall₂_spelled (methodLines_text o) p.methods)
    (forall₂_spelled (fun v => virtualLines_text v.1 v.2) p.virtuals)

theorem callback_helper_eq (c : CallbackType) (role : String)
    : c.helper role = c.helperSpace ++ "." ++ (c.identity.name ++ role) :=
  String.append_assoc

theorem callbackLines_text (gluelib : String) (c : CallbackType) (shape : CallShape)
    : InvokerText gluelib c shape (CallbackSource.lines gluelib c shape) := by
  unfold CallbackSource.lines
  rw [indented_one (_ ++ _ ++ _), tabbed_append, tabbed_append]
  simp only [← List.append_assoc]
  rw [List.append_assoc _ (tabbed "\t" (CallbackSource.wrapperLines c shape))]
  exact .intro (callback_helper_eq c "Native") (callback_helper_eq c "Invoker") (listed_paramList _)
    (Import.spelled_lines _) (spelled_statements _) shape.listed_managedParams

end Interop.Binding
