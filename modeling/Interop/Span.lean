/-!
This module contains ranges of positions in a text.
-/

namespace Interop

/--
The positions from `start` up to `stop`, without `stop`.
-/
structure Span where
  start : Nat
  stop : Nat
  deriving DecidableEq, Repr

namespace Span

/--
The span of a single position.
-/
def point (position : Nat) : Span :=
  ⟨position, position + 1⟩

/--
The number of positions. A span that stops before it starts has none.
-/
def length (s : Span) : Nat :=
  s.stop - s.start

def contains (s : Span) (position : Nat) : Bool :=
  s.start ≤ position && position < s.stop

/--
The part of the span that lies in a text of `size` positions. A span that stops before it starts
becomes empty.
-/
def clamp (s : Span) (size : Nat) : Span :=
  let start := min s.start size
  ⟨start, min (max s.stop start) size⟩

theorem clamp_start_le_stop (s : Span) (size : Nat) :
    (s.clamp size).start ≤ (s.clamp size).stop := by
  simp only [clamp]
  omega

theorem clamp_stop_le (s : Span) (size : Nat) : (s.clamp size).stop ≤ size := by
  simp only [clamp]
  omega

/--
The position in the middle, at the later one of two.
-/
def middle (s : Span) : Nat :=
  max ((s.start + s.stop) / 2) s.start

end Span

end Interop
