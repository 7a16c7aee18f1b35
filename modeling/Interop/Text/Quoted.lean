import Interop.Text.Glyph

/-!
This module contains the quoted form of a text in messages: between double quotes, with an escape
for every character that would not show as itself.
-/

namespace Interop.Text

def hexDigits (n : Nat) : String :=
  String.ofList (Nat.toDigits 16 n)

def escape (c : Char) : String :=
  match c with
  | '"' => "\\\""
  | '\\' => "\\\\"
  | '\n' => "\\n"
  | '\r' => "\\r"
  | '\t' => "\\t"
  | '\x00' => "\\0"
  | c =>
    if isPrintable c && !isCombining c then c.toString
    else "\\u\x7b" ++ hexDigits c.toNat ++ "\x7d"

def quote (s : String) : String :=
  "\"" ++ String.join (s.toList.map escape) ++ "\""

example : quote "a\"b" = "\"a\\\"b\"" := by decide +kernel

end Interop.Text
