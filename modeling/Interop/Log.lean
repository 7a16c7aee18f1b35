import Interop.Text.Quoted

/-!
This module contains the events of a run: what happened, how much it matters, and what it was about.
-/

namespace Interop

inductive Severity where
  | error
  | warn
  | info
  | debug
  | trace
  deriving DecidableEq, Repr

namespace Severity

def name : Severity → String
  | error => "ERROR"
  | warn => "WARN"
  | info => "INFO"
  | debug => "DEBUG"
  | trace => "TRACE"

/--
The more detailed, the higher.
-/
def rank : Severity → Nat
  | error => 1
  | warn => 2
  | info => 3
  | debug => 4
  | trace => 5

end Severity

structure Detail where
  name : String
  text : String
  deriving DecidableEq, Repr

namespace Detail

/--
A detail that shows as it is.
-/
def bare (name text : String) : Detail :=
  ⟨name, text⟩

/--
A detail that shows between quotes.
-/
def quoted (name text : String) : Detail :=
  ⟨name, Text.quote text⟩

def count (name : String) (n : Nat) : Detail :=
  ⟨name, toString n⟩

def flag (name : String) (b : Bool) : Detail :=
  ⟨name, if b then "true" else "false"⟩

end Detail

structure Event where
  severity : Severity
  message : String
  details : List Detail
  deriving DecidableEq, Repr

def Event.text (e : Event) : String :=
  String.intercalate " "
    (e.severity.name :: e.message :: e.details.map fun d => d.name ++ "=" ++ d.text)

abbrev Log := List Event

namespace Log

/--
The events that matter at least as much as `level`, where level 0 is silence.
-/
def upTo (level : Nat) (log : Log) : Log :=
  log.filter (·.severity.rank ≤ level)

def text (log : Log) : String :=
  String.join (log.map fun e => e.text ++ "\n")

def defaultLevel : Nat := Severity.info.rank

/--
The level that a word asks for: the name or the rank of the least severity to show. Other words show
nothing.
-/
def levelOf (word : String) : Nat :=
  match [Severity.error, .warn, .info, .debug, .trace].find? (names ·) with
  | some severity => severity.rank
  | none => 0
where
  names (severity : Severity) : Bool :=
    String.ofList (word.toList.map Char.toUpper) = severity.name ∨ word = toString severity.rank
      ∨ (severity = .error ∧ word = "")

example : levelOf "Warn" = 2 := by decide +kernel
example : levelOf "off" = 0 := by decide +kernel

end Log

end Interop
