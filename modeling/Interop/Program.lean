import Interop.Options.Words
import Interop.Run

/-!
This module contains the program: what it answers to the words of a command line, in text and exit
code.
-/

namespace Interop

structure Reply where
  code : Nat
  output : String
  errors : String
  disk : Disk
  deriving DecidableEq, Repr

namespace Reply

def usageCode : Nat := 64

def argumentCode : Nat := 2

def failureCode : Nat := 1

end Reply

/--
The report of a document that cannot be used.
-/
def LoadError.report (e : LoadError) : Source.Lines :=
  match e with
  | .syntactic _ .malformed | .syntactic _ (.unfit _) => ["Error: malformed document"]
  | .violating _ violations => ("error: " ++ e.message) :: violations.map ("  - " ++ ·)
  | _ => ["error: " ++ e.message]

namespace RunError

/--
Whether the disk refused. What it said is not part of any report, although it counts as a cause.
-/
def isRefusal : RunError → Bool
  | unreadableConfiguration _ => true
  | generation (.output e) => e.isRefusal
  | _ => false

/--
A cause behind the message.
-/
def detail? : RunError → Option String
  | configuration _ problem => some problem
  | _ => none

end RunError

/--
A text of several lines behind an indentation that is blank from the second line on.
-/
def indentedBy (indentation text : String) : Source.Lines :=
  let blank := String.ofList (List.replicate indentation.length ' ')
  match Text.splitAt '\n' text with
  | [] => []
  | first :: rest => (indentation ++ first) :: rest.map (blank ++ ·)

/--
The causes of an error below its message. Several causes are numbered.
-/
def causeLines (causes : List String) (refused : Bool) : Source.Lines :=
  if causes.isEmpty && !refused then []
  else
    let several := 1 < causes.length + (if refused then 1 else 0)
    ["", "Caused by:"] ++ causes.zipIdx.flatMap fun (cause, i) =>
      let n := toString i
      indentedBy
        (if several then String.ofList (List.replicate (5 - n.length) ' ') ++ n ++ ": " else "    ")
        cause

/--
The exit code and the report of a failed run.
-/
def Fault.report (fault : Fault RunError) : Nat × Source.Lines :=
  match fault.cause with
  | .usage e =>
    (Reply.usageCode, ["error: " ++ e.message, "Run `gapigen --help` for usage."])
  | .load e => (Reply.failureCode, e.report)
  | e =>
    match fault.chain RunError.message ++ e.detail?.toList with
    | [] => (Reply.failureCode, [])
    | first :: causes =>
      (Reply.failureCode, ("Error: " ++ first) :: causeLines causes e.isRefusal)

namespace Program

def flagLine (f : Flag) : String :=
  (if f = .includes then "  -I, " else "      ") ++ "--" ++ f.name ++ " <"
    ++ (if f.takesPath then "PATH" else if f.repeats then "NAMES" else "NAME") ++ ">"
    ++ (if f.repeats then "..." else "")

def helpLines : Source.Lines :=
  ["Generate C# bindings, C glue and ABI probes from native API descriptors", "",
   "Usage: gapigen [OPTIONS]", "", "Options:"]
    ++ (Flag.configurable ++ [Flag.configuration]).map flagLine
    ++ ["  -h, --help", "  -V, --version"]

def versionLines : Source.Lines :=
  ["gapigen 0.1.0"]

def argumentProblem : ArgumentError → String
  | .unknown => "unexpected argument"
  | .invalidValue => "a value is required"
  | .conflict => "an argument cannot be used multiple times"
  | .unneededValue => "unexpected value"
  | .help => "help"
  | .version => "version"

def refuse (e : ArgumentError) (d : Disk) : Reply :=
  match e with
  | .help => ⟨0, Source.text helpLines, "", d⟩
  | .version => ⟨0, Source.text versionLines, "", d⟩
  | e => ⟨Reply.argumentCode, "", Source.text ["error: " ++ argumentProblem e], d⟩

def answer (supported : Bool) (level : Nat) (o : Options) (d : Disk) : Reply :=
  let outcome := execute supported o d
  let told := (outcome.log.upTo level).text
  match outcome.result with
  | .ok statistics => ⟨0, Source.text statistics.report, told, outcome.disk⟩
  | .error fault =>
    match fault.report with
    | (code, lines) => ⟨code, "", told ++ Source.text lines, outcome.disk⟩

/--
The program. `supported` tells whether it was made with configuration files.
-/
def run (supported : Bool) (level : Nat) (words : List String) (d : Disk) : Reply :=
  match Options.ofWords words with
  | .ok o => answer supported level o d
  | .error e => refuse e d

end Program

end Interop
