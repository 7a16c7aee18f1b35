/-!
This module contains the division of a text at its separators.
-/

namespace Interop.Text

/--
The pieces between separators, empty ones included; `separates` tells what a separator is.
-/
def pieces (separates : Char → Bool) : List Char → List (List Char)
  | [] => [[]]
  | c :: cs =>
    if separates c then [] :: pieces separates cs
    else
      match pieces separates cs with
      | [] => [[c]]
      | p :: ps => (c :: p) :: ps

theorem pieces_ne_nil (separates : Char → Bool) (cs : List Char) :
    pieces separates cs ≠ [] := by
  cases cs with
  | nil => simp [pieces]
  | cons c cs =>
    unfold pieces
    split
    · simp
    · split <;> simp

/--
The pieces of `s` between the occurrences of one character.
-/
def splitAt (separator : Char) (s : String) : List String :=
  (pieces (· == separator) s.toList).map String.ofList

example : splitAt ',' "a,,b" = ["a", "", "b"] := by decide +kernel

end Interop.Text
