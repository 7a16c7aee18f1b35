/-!
This module contains failures that remember what was being done when they arose.
-/

namespace Interop

structure Fault (ε : Type) where
  /-- What was being done, outermost first. -/
  context : List String
  cause : ε
  deriving DecidableEq, Repr

namespace Fault

def of (cause : ε) : Fault ε :=
  ⟨[], cause⟩

def map (f : ε → ε') (fault : Fault ε) : Fault ε' :=
  ⟨fault.context, f fault.cause⟩

def chain (text : ε → String) (fault : Fault ε) : List String :=
  fault.context ++ [text fault.cause]

def message (text : ε → String) (fault : Fault ε) : String :=
  String.intercalate ": " (fault.chain text)

/--
The result of an activity, in whose faults the activity is noted.
-/
def within (activity : String) : Except (Fault ε) α → Except (Fault ε) α
  | .ok a => .ok a
  | .error fault => .error { fault with context := activity :: fault.context }

theorem bind_eq_ok {x : Except ε α} {f : α → Except ε β} {b : β}
    : x >>= f = .ok b ↔ ∃ a, x = .ok a ∧ f a = .ok b := by
  cases x with
  | error e => simp [Bind.bind, Except.bind]
  | ok a => simp [Bind.bind, Except.bind]

theorem mapError_eq_ok {x : Except ε α} {f : ε → ε'} {a : α}
    : x.mapError f = .ok a ↔ x = .ok a := by
  cases x with
  | error e =>
    constructor
    . intro h
      cases h
    . intro h
      cases h
  | ok b =>
    constructor
    . intro h
      cases h
      rfl
    . intro h
      cases h
      rfl

theorem toOption_eq_some {x : Except ε α} {a : α} : x.toOption = some a ↔ x = .ok a := by
  cases x with
  | error e => simp [Except.toOption]
  | ok a => simp [Except.toOption]

end Fault

end Interop
