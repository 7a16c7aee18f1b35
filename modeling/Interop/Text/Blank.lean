/-!
This module contains the white space characters of Unicode and the trimming of texts by them.
-/

namespace Interop.Text

/--
The characters with the Unicode property `White_Space`.
-/
def isBlank (c : Char) : Bool :=
  (0x9 ≤ c.toNat && c.toNat ≤ 0xD) || c.toNat == 0x20 || c.toNat == 0x85 || c.toNat == 0xA0
    || c.toNat == 0x1680 || (0x2000 ≤ c.toNat && c.toNat ≤ 0x200A) || c.toNat == 0x2028
    || c.toNat == 0x2029 || c.toNat == 0x202F || c.toNat == 0x205F || c.toNat == 0x3000

/--
The list without the longest suffix whose members satisfy `p`.
-/
def dropEndWhile (p : α → Bool) (l : List α) : List α :=
  (l.reverse.dropWhile p).reverse

theorem dropEndWhile_sublist (p : α → Bool) (l : List α) : (dropEndWhile p l).Sublist l := by
  have h : (l.reverse.dropWhile p).reverse.Sublist l.reverse.reverse :=
    (List.dropWhile_sublist p).reverse
  simpa [dropEndWhile] using h

/--
The characters between the first and the last one that are not blank, both included.
-/
def trimBlanks (cs : List Char) : List Char :=
  dropEndWhile isBlank (cs.dropWhile isBlank)

theorem trimBlanks_sublist (cs : List Char) : (trimBlanks cs).Sublist cs :=
  (dropEndWhile_sublist _ _).trans (List.dropWhile_sublist _)

/--
The text without blanks at either end.
-/
def trim (s : String) : String :=
  String.ofList (trimBlanks s.toList)

end Interop.Text
