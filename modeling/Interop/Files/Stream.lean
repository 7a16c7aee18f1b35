import Interop.Files.Disk

/-!
This module contains streams of bytes to a file, which hand bytes to the disk only when they have
gathered enough of them.
-/

namespace Interop

structure Stream where
  path : Path
  place : Place
  /-- The number of bytes that the disk has taken. -/
  offset : Nat
  /-- The bytes that wait. -/
  waiting : Bytes
  deriving DecidableEq, Repr

namespace Stream

/--
The number of bytes that may wait.
-/
def capacity : Nat := 8192

def start (path : Path) (place : Place) : Stream :=
  { path, place, offset := 0, waiting := [] }

/--
Hands bytes to the disk, past those that wait.
-/
def pass (s : Stream) (d : Disk) (bytes : Bytes) : Bool × Stream × Disk :=
  match d.write s.place s.offset bytes with
  | (true, d) => (true, { s with offset := s.offset + bytes.length }, d)
  | (false, d) => (false, s, d)

/--
Hands the waiting bytes to the disk. If it refuses them they go on waiting.
-/
def flush (s : Stream) (d : Disk) : Bool × Stream × Disk :=
  match s.pass d s.waiting with
  | (true, s, d) => (true, { s with waiting := [] }, d)
  | (false, s, d) => (false, s, d)

/--
Lets bytes wait if there is room for them.
-/
def keep (s : Stream) (d : Disk) (bytes : Bytes) : Bool × Stream × Disk :=
  if bytes.length < capacity then (true, { s with waiting := s.waiting ++ bytes }, d)
  else s.pass d bytes

/--
Adds bytes to the stream, and tells whether it could take them.
-/
def put (s : Stream) (d : Disk) (bytes : Bytes) : Bool × Stream × Disk :=
  if s.waiting.length + bytes.length ≤ capacity then s.keep d bytes
  else
    match s.flush d with
    | (true, s, d) => s.keep d bytes
    | (false, s, d) => (false, s, d)

/--
Gives the stream up. The waiting bytes get one more chance.
-/
def drop (s : Stream) (d : Disk) : Disk :=
  (s.flush d).2.2

end Stream

end Interop
