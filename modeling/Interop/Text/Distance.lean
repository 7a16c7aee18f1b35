/-!
This module contains the edit distance of two texts and the choice of the closest name.
-/

namespace Interop.Text

/--
The next row of the table of distances. `above` is the row before it without its first entry,
`corner` the entry of that row up to the left and `left` the entry of this row to the left.
-/
def nextRow (a : Char) (corner left : Nat) : List Char → List Nat → List Nat
  | b :: bs, up :: above =>
    let here := min (min (up + 1) (left + 1)) (corner + if a = b then 0 else 1)
    here :: nextRow a up here bs above
  | _, _ => []

/--
The rows of the table of distances, one for every character of the first text; the last entry of
the last row is the result. `row` is the row reached, `first` its first entry.
-/
def lastEntry (bs : List Char) : List Char → (first : Nat) → (row : List Nat) → Nat
  | [], first, row => row.getLast?.getD first
  | a :: as, first, row => lastEntry bs as (first + 1) (nextRow a first (first + 1) bs row)

/--
The least number of insertions, deletions and substitutions of single characters that turn one text
into the other.
-/
def distance (s t : String) : Nat :=
  lastEntry t.toList s.toList 0 ((List.range t.toList.length).map (· + 1))

/--
The largest distance at which a name is still a plausible slip for `target`: names of less than
four bytes may differ in one place, longer ones in three.
-/
def tolerance (target : String) : Nat :=
  if target.utf8ByteSize < 4 then 1 else 3

/--
The first of the candidates closest to `target` that differ from it and lie within the tolerance.
-/
def closest? (target : String) (candidates : List String) : Option String :=
  (candidates.foldl consider none).map (·.2)
where
  consider (best : Option (Nat × String)) (candidate : String) : Option (Nat × String) :=
    if candidate = target then best
    else
      let d := distance target candidate
      if d ≤ tolerance target && (best.all fun (least, _) => d < least) then some (d, candidate)
      else best

example : distance "kitten" "sitting" = 3 := by decide +kernel
example : distance "" "abc" = 3 := by decide +kernel

end Interop.Text
