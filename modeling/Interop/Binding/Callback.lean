import Interop.Binding.Call

/-!
This module contains the binding of callbacks: a delegate, a helper that calls native function
pointers through a glue function, and a helper that native code calls.
-/

namespace Interop.Binding

open Source (runtime opening closing indented)

namespace CallbackSource

def nativeName (c : CallbackType) : String := c.identity.name ++ "Native"

def invokerName (c : CallbackType) : String := c.identity.name ++ "Invoker"

def wrapperName (c : CallbackType) : String := c.identity.name ++ "Wrapper"

def invocationImport (gluelib : String) (c : CallbackType) (shape : CallShape) : Import :=
  { library := gluelib
    returns := shape.boundaryReturn
    symbol := c.glueSymbol
    params := shape.importParams (some (.address "native_cb")) }

def invokerBody (c : CallbackType) (shape : CallShape) : List Statement :=
  shape.callBody c.glueSymbol (some "native_cb") .giveBack

def thunk (c : CallbackType) : GlueFunction :=
  let call := "cb (" ++ Source.commaSeparated (c.signature.params.map (·.name)) ++ ");"
  { returns := c.signature.returns
    symbol := c.glueSymbol
    params :=
      (c.identity.cname ++ " cb") :: c.signature.params.map fun p => p.ctype ++ " " ++ p.name
    statement := if c.signature.returnsVoid then call else "return " ++ call }

def delegateLines (c : CallbackType) (shape : CallShape) : Source.Lines :=
  ["public delegate " ++ shape.managedReturn ++ " " ++ c.identity.name ++ " ("
    ++ shape.managedParams ++ ");"]

def nativeDelegateLines (c : CallbackType) (shape : CallShape) : Source.Lines :=
  ["[UnmanagedFunctionPointer (CallingConvention.Cdecl)]",
   "internal delegate " ++ shape.boundaryReturn ++ " " ++ nativeName c ++ " ("
     ++ paramList (shape.importParams none) ++ ");",
   ""]

def invokerLines (gluelib : String) (c : CallbackType) (shape : CallShape) : Source.Lines :=
  ["internal class " ++ invokerName c ++ " " ++ opening, ""]
    ++ indented 1
      ((invocationImport gluelib c shape).lines
        ++ ["",
            "IntPtr native_cb;",
            "",
            invokerName c ++ " (IntPtr native_cb)",
            opening,
            "\tthis.native_cb = native_cb;",
            closing,
            "",
            "public static " ++ c.identity.qualified ++ " Wrap (IntPtr native_cb)",
            opening,
            "\tif (native_cb == IntPtr.Zero)",
            "\t\treturn null;",
            "\treturn new " ++ invokerName c ++ " (native_cb).Handler;",
            closing,
            "",
            shape.managedReturn ++ " Handler (" ++ shape.managedParams ++ ")",
            opening]
        ++ indented 1 ((invokerBody c shape).map (·.text))
        ++ [closing])
    ++ [closing, ""]

/--
The statements after an exception in managed code. Every variable that native code awaits is set.
-/
def recovery (shape : CallShape) : Source.Lines :=
  [runtime ++ ".ExceptionManager.RaiseUnhandledException (e, "
      ++ (if shape.returns?.isSome then "true" else "false") ++ ");"]
    ++ shape.outParams.map (fun p => p.name ++ " = default (" ++ p.use.crossing.boundary ++ ");")
    ++ if shape.returns?.isSome then ["return default (" ++ shape.boundaryReturn ++ ");"] else []

def wrapperLines (c : CallbackType) (shape : CallShape) : Source.Lines :=
  let qualified := c.identity.qualified
  ["internal class " ++ wrapperName c ++ " " ++ opening, ""]
    ++ indented 1
      ([qualified ++ " managed;",
        "",
        "public " ++ wrapperName c ++ " (" ++ qualified ++ " managed)",
        opening,
        "\tthis.managed = managed;",
        "\tif (managed != null)",
        "\t\tNativeDelegate = new " ++ nativeName c ++ " (NativeCallback);",
        closing,
        "",
        "public " ++ nativeName c ++ " NativeDelegate " ++ opening
          ++ " get; private set; " ++ closing,
        "",
        "public IntPtr NativeFunctionPointer " ++ opening,
        "\tget " ++ opening,
        "\t\treturn NativeDelegate == null ? IntPtr.Zero : "
          ++ "Marshal.GetFunctionPointerForDelegate (NativeDelegate);",
        "\t" ++ closing,
        closing,
        "",
        shape.boundaryReturn ++ " NativeCallback (" ++ paramList (shape.importParams none) ++ ")",
        opening,
        "\ttry " ++ opening]
        ++ indented 2 ((shape.reverseBody "managed").map (·.text))
        ++ ["\t" ++ closing ++ " catch (Exception e) " ++ opening]
        ++ indented 2 (recovery shape)
        ++ ["\t" ++ closing, closing])
    ++ [closing]

def lines (gluelib : String) (c : CallbackType) (shape : CallShape) : Source.Lines :=
  Source.banner ++ Source.openBoundNamespace c.identity.nameSpace
    ++ indented 1 (delegateLines c shape)
    ++ [closing, ""]
    ++ Source.openBoundNamespace c.helperSpace
    ++ indented 1
      (nativeDelegateLines c shape ++ invokerLines gluelib c shape ++ wrapperLines c shape)
    ++ [closing]

end CallbackSource

def bindCallback (t : Table) (gluelib : String) (c : CallbackType) : Result Emitted := do
  let shape ← Fault.within s!"callback `{c.identity.cname}`" (CallShape.ofSignature t c.signature)
  return {
    managed? := some ⟨c.identity.name, Source.text (CallbackSource.lines gluelib c shape)⟩
    glue? := some (Source.text (GlueFunction.lines [CallbackSource.thunk c]))
    counts := { glueFunctions := 1 } }

end Interop.Binding
