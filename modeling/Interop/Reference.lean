import Interop.Text.Blank

/-!
This module contains references to types as signatures and fields write them: a name between
`const` qualifiers, blanks and the asterisks of pointers.
-/

namespace Interop.Reference

open Text

/--
The text without one `const ` in front.
-/
def dropConst : List Char → List Char
  | 'c' :: 'o' :: 'n' :: 's' :: 't' :: ' ' :: cs => cs
  | cs => cs

theorem dropConst_sublist (cs : List Char) : (dropConst cs).Sublist cs := by
  unfold dropConst
  split
  · exact ((((((List.Sublist.refl _).cons _).cons _).cons _).cons _).cons _).cons _
  · exact .refl _

/--
One round of stripping: a `const` in front, the asterisks at the end, the blanks at both ends.
-/
def strip (cs : List Char) : List Char :=
  trimBlanks (dropEndWhile (· == '*') (dropConst cs))

theorem strip_sublist (cs : List Char) : (strip cs).Sublist cs :=
  ((trimBlanks_sublist _).trans (dropEndWhile_sublist _ _)).trans (dropConst_sublist _)

theorem length_strip_lt {cs : List Char} (h : strip cs ≠ cs) : (strip cs).length < cs.length :=
  Nat.lt_of_le_of_ne (strip_sublist cs).length_le fun heq => h ((strip_sublist cs).eq_of_length heq)

/--
Strips until nothing is left to strip.
-/
def stripAll (cs : List Char) : List Char :=
  if _h : strip cs = cs then cs else stripAll (strip cs)
termination_by cs.length
decreasing_by exact length_strip_lt _h

theorem strip_stripAll (cs : List Char) : strip (stripAll cs) = stripAll cs := by
  fun_induction stripAll cs with
  | case1 cs h => exact h
  | case2 cs _ ih => exact ih

theorem trimBlanks_eq_of_strip_eq {cs : List Char} (h : strip cs = cs) : trimBlanks cs = cs := by
  have hlen := congrArg List.length h
  have htrim := (trimBlanks_sublist (dropEndWhile (· == '*') (dropConst cs))).length_le
  have hstars := dropEndWhile_sublist (· == '*') (dropConst cs)
  have hconst : dropConst cs = cs := by
    apply (dropConst_sublist cs).eq_of_length_le
    have := hstars.length_le
    unfold strip at hlen
    omega
  rw [hconst] at hstars htrim
  have hstars : dropEndWhile (· == '*') cs = cs := by
    apply hstars.eq_of_length_le
    unfold strip at hlen
    rw [hconst] at hlen
    omega
  simpa [strip, hconst, hstars] using h

/--
The name that a reference refers to: `const DemoNode *` refers to `DemoNode`.
-/
def core (ref : String) : String :=
  String.ofList (stripAll (trimBlanks ref.toList))

@[simp]
theorem core_core (ref : String) : core (core ref) = core ref := by
  have h := strip_stripAll (trimBlanks ref.toList)
  unfold core
  rw [String.toList_ofList, trimBlanks_eq_of_strip_eq h]
  rw [stripAll]
  simp [h]

/--
The number of levels of indirection: `const gchar **` has two.
-/
def depth (ref : String) : Nat :=
  ref.toList.count '*'

/--
Whether a function with this return type returns nothing.
-/
def isVoid (ref : String) : Bool :=
  trim ref == "void"

end Interop.Reference

