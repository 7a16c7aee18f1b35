import Interop.Options

/-!
This module contains the reading of options from the words of a command line. A flag stands as
`--name value`, `--name=value` or, where it has a letter, `-lvalue`. What is wrong with a value that
stands in a word of its own is said when the next flag is met, and not at all if a word is unknown
before that.
-/

namespace Interop

/--
Why the words give no options.
-/
inductive ArgumentError where
  /-- A word that is no flag, where no value is due. -/
  | unknown
  /-- A flag without a value, or an empty path. -/
  | invalidValue
  /-- A flag that is there twice and takes one value. -/
  | conflict
  /-- A value at a flag that takes none. -/
  | unneededValue
  | help
  | version
  deriving DecidableEq, Repr

namespace Options

/--
What a word is by itself.
-/
inductive Word where
  | flag (f : Flag) (value? : Option String)
  /-- A word that asks for something else than a run. -/
  | request (e : ArgumentError)
  /-- `--`, behind which there are no flags. -/
  | escape
  | value (text : String)
  | unknown
  deriving DecidableEq, Repr

namespace Word

/--
The text before the first equals sign, and the text behind it if there is one.
-/
def divide (cs : List Char) : String × Option String :=
  (String.ofList (cs.takeWhile (· ≠ '=')),
   match cs.dropWhile (· ≠ '=') with
   | _ :: rest => some (String.ofList rest)
   | [] => none)

def ofLong (cs : List Char) : Word :=
  match divide cs with
  | (name, value?) =>
    match Flag.named? name Flag.all with
    | some f => .flag f value?
    | none =>
      if name = "help" ∨ name = "version" then
        .request <|
          if value?.isSome then .unneededValue else if name = "help" then .help else .version
      else .unknown

def ofShort (letter : Char) (cs : List Char) : Word :=
  match letter, cs with
  | 'I', [] => .flag .includes none
  | 'I', '=' :: cs | 'I', cs => .flag .includes (some (String.ofList cs))
  | 'h', _ => .request .help
  | 'V', _ => .request .version
  | _, _ => .unknown

def ofText (s : String) : Word :=
  match s.toList with
  | ['-', '-'] => .escape
  | '-' :: '-' :: cs => ofLong cs
  | '-' :: letter :: cs => ofShort letter cs
  | _ => .value s

end Word

/--
A flag that was met, with the word behind it once that was read.
-/
structure Pending where
  flag : Flag
  value? : Option String
  deriving DecidableEq, Repr

def accept (o : Options) (f : Flag) (value : String) : Except ArgumentError Options :=
  let given := o.values f
  if !f.repeats && !given.isEmpty then .error .conflict
  else
    let added := if f.isDelimited then Text.splitAt ',' value else [value]
    if f.takesPath && added.contains "" then .error .invalidValue
    else .ok (o.assign (given ++ added) f)

def settle (o : Options) : Option Pending → Except ArgumentError Options
  | none => .ok o
  | some ⟨_, none⟩ => .error .invalidValue
  | some ⟨f, some value⟩ => o.accept f value

def readWords (o : Options) (pending? : Option Pending) :
    List String → Except ArgumentError Options
  | [] => o.settle pending?
  | word :: words =>
    match Word.ofText word with
    | .flag f (some value) => do
      let o ← o.settle pending?
      let o ← o.accept f value
      readWords o none words
    | .flag f none => do
      let o ← o.settle pending?
      readWords o (some ⟨f, none⟩) words
    | .request .unneededValue => .error .unneededValue
    | .request e => do
      let _ ← o.settle pending?
      .error e
    | .escape => if words.isEmpty then o.settle pending? else .error .unknown
    | .value text =>
      match pending? with
      | some ⟨f, none⟩ => readWords o (some ⟨f, some text⟩) words
      | _ => .error .unknown
    | .unknown => .error .unknown

def ofWords (words : List String) : Except ArgumentError Options :=
  readWords {} none words

example :
    ofWords ["-Ia", "--outdir", "o"] = .ok { includes := [⟨"a"⟩], outDir? := some ⟨"o"⟩ } := by
  cbv
example : ofWords ["--outdir", "", "x"] = .error .unknown := by cbv
example : ofWords ["--outdir", "", "--help"] = .error .invalidValue := by cbv

end Options

end Interop
