import Interop.Text.Pieces
import Interop.Text.Uppercase

/-!
This module contains the spelling of native names as identifiers of the generated sources.
-/

namespace Interop.Text

def reservedWords : List String :=
  ["abstract", "as", "base", "bool", "break", "byte", "case", "catch", "char", "checked",
   "class", "const", "continue", "decimal", "default", "delegate", "do", "double", "else",
   "enum", "event", "explicit", "extern", "false", "finally", "fixed", "float", "for",
   "foreach", "goto", "if", "implicit", "in", "int", "interface", "internal", "is", "lock",
   "long", "namespace", "new", "null", "object", "operator", "out", "override", "params",
   "private", "protected", "public", "readonly", "ref", "return", "sbyte", "sealed", "short",
   "sizeof", "stackalloc", "static", "string", "struct", "switch", "this", "throw", "true",
   "try", "typeof", "uint", "ulong", "unchecked", "unsafe", "ushort", "using", "virtual",
   "void", "volatile", "while"]

/--
An identifier for `name`: a reserved word gets an `@` in front.
-/
def escapeReserved (name : String) : String :=
  if reservedWords.contains name then "@" ++ name else name

/--
The name without the `@`s in front.
-/
def bareName (name : String) : String :=
  String.ofList (name.toList.dropWhile (· == '@'))

def isSeparator (c : Char) : Bool :=
  c == '_' || c == '-' || c == ' '

def capitalize : List Char → List Char
  | [] => []
  | c :: cs => uppercase c ++ cs

/--
Every word with a capital first letter and nothing between the words: `set_level` becomes
`SetLevel`.
-/
def pascalCase (name : String) : String :=
  String.ofList ((pieces isSeparator name.toList).flatMap capitalize)

/--
Lower case, with an underscore before a capital letter that follows a small one or a digit:
`VisitFunc` becomes `visit_func`. Letters beyond ASCII stay as they are.
-/
def snakeCase (name : String) : String :=
  String.ofList (go false name.toList)
where
  go (afterSmall : Bool) : List Char → List Char
    | [] => []
    | c :: cs =>
      if c.isUpper then
        let rest := c.toLower :: go false cs
        if afterSmall then '_' :: rest else rest
      else
        c :: go (c.isLower || c.isDigit) cs

example : snakeCase "GtkHBox2" = "gtk_hbox2" := by decide +kernel
example : pascalCase "size-allocate" = "SizeAllocate" := by decide +kernel

end Interop.Text
