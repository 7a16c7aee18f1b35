import Interop.Number.Double
import Interop.Text.Quoted
import Interop.Yaml.Token
import Interop.Yaml.Cursor

/-!
This module contains the meaning of scalars: a plain one can be nothing, a truth value or a number,
all others are texts.
-/

namespace Interop.Yaml

inductive Scalar where
  | null
  | bool (value : Bool)
  | natural (value : Nat)
  /-- The negative of a number that was written with a minus. -/
  | negative (value : Nat)
  | float (value : Double)
  | text (value : String)
  deriving DecidableEq, Repr

namespace Scalar

def describe : Scalar → String
  | null => "unit value"
  | bool b => "boolean `" ++ (if b then "true" else "false") ++ "`"
  | natural n => s!"integer `{n}`"
  | negative n => "integer `" ++ toString (-(n : Int)) ++ "`"
  | float x => "floating point `" ++ x.text ++ "`"
  | text s => "string " ++ Text.quote s

/--
Equality as keys of a mapping know it.
-/
def same : Scalar → Scalar → Bool
  | natural m, negative n | negative n, natural m => m == 0 && n == 0
  | float x, float y => x.same y
  | a, b => a == b

def null? (s : String) : Option Unit :=
  if ["null", "Null", "NULL", "~"].contains s then some () else none

def bool? (s : String) : Option Bool :=
  if ["true", "True", "TRUE"].contains s then some true
  else if ["false", "False", "FALSE"].contains s then some false
  else none

/--
The value of some digits, at least one.
-/
def digits? (radix : Nat) (cs : List Char) : Option Nat :=
  if cs.isEmpty then none
  else cs.foldlM add 0
where
  add (n : Nat) (c : Char) : Option Nat :=
    (hexValue? c).bind fun d => if d < radix then some (n * radix + d) else none

def afterSign : List Char → List Char
  | '+' :: cs | '-' :: cs => cs
  | cs => cs

/--
Digits that start with a zero in vain are a text.
-/
def isPaddedDigits (cs : List Char) : Bool :=
  match afterSign cs with
  | '0' :: rest => !rest.isEmpty && rest.all (·.isDigit)
  | _ => false

/--
The value of a number with or without a base in front.
-/
def magnitude? : List Char → Option Nat
  | '0' :: 'x' :: cs => digits? 16 cs
  | '0' :: 'o' :: cs => digits? 8 cs
  | '0' :: 'b' :: cs => digits? 2 cs
  | cs => if isPaddedDigits cs then none else digits? 10 cs

/--
What a text is as an integer.
-/
inductive Integer where
  | none
  | some (value : Scalar)
  /-- It is one of more than 64 and at most 128 bits, and no number that is known. -/
  | tooWide
  deriving DecidableEq, Repr

def integer (cs : List Char) : Integer :=
  match cs with
  | '-' :: cs =>
    match magnitude? cs with
    | none => .none
    | some n =>
      if n ≤ Nat.pow 2 63 then .some (negative n)
        else if n ≤ Nat.pow 2 127 then .tooWide else .none
  | cs =>
    let cs :=
      match cs with
      | '+' :: cs => cs
      | cs => cs
    match magnitude? cs with
    | none => .none
    | some n =>
      if n < Nat.pow 2 64 then .some (natural n) else if n < Nat.pow 2 128 then .tooWide else .none

/--
The value of digits, if there are any or none are needed.
-/
def decimalValue (cs : List Char) : Nat :=
  cs.foldl (fun n c => n * 10 + (c.toNat - '0'.toNat)) 0

/--
The exponent behind the digits of a float.
-/
def exponent? : List Char → Option Int
  | [] => some 0
  | c :: cs =>
    if c == 'e' || c == 'E' then
      let digits := afterSign cs
      if digits.isEmpty || !digits.all (·.isDigit) then none
      else
        let value : Int := decimalValue digits
        some (if cs.head? == some '-' then -value else value)
    else none

/--
A finite float in decimal notation.
-/
def decimal? (cs : List Char) : Option Double :=
  let isNegative := cs.head? == some '-'
  let cs := if isNegative then cs.drop 1 else cs
  let whole := cs.takeWhile (·.isDigit)
  let (part, rest) :=
    match cs.dropWhile Char.isDigit with
    | '.' :: cs => (cs.takeWhile Char.isDigit, cs.dropWhile Char.isDigit)
    | cs => ([], cs)
  if whole.isEmpty && part.isEmpty then none
  else
    (exponent? rest).bind fun e =>
      match Double.ofDecimal isNegative (decimalValue (whole ++ part)) (e - part.length) with
      | .finite n m e => some (.finite n m e)
      | _ => none

def float? (s : String) : Option Double :=
  let unsigned := if s.toList.head? == some '+' then String.ofList (s.toList.drop 1) else s
  if unsigned != s && (unsigned.toList.head? == some '+' || unsigned.toList.head? == some '-') then
    none
  else if [".inf", ".Inf", ".INF"].contains unsigned then some (.infinity false)
  else if ["-.inf", "-.Inf", "-.INF"].contains s then some (.infinity true)
  else if [".nan", ".NaN", ".NAN"].contains s then some .nan
  else decimal? unsigned.toList

/--
The meaning of a plain scalar without a tag. There is none for an integer that is too wide.
-/
def ofPlain (s : String) : Option Scalar :=
  if s = "" ∨ (null? s).isSome then some null
  else
    match bool? s with
    | some b => some (bool b)
    | none =>
      match integer s.toList with
      | .some n => some n
      | .tooWide => none
      | .none =>
        if isPaddedDigits s.toList then some (text s)
        else
          match float? s with
          | some x => some (float x)
          | none => some (text s)

def coreTag (name : String) : Tag :=
  bytesOf ("tag:yaml.org,2002:" ++ name)

/--
The meaning of a scalar. There is none if it contradicts its tag.
-/
def resolve (tag? : Option Tag) (s : String) (plain : Bool) : Option Scalar :=
  match tag? with
  | none => if plain then ofPlain s else some (text s)
  | some tag =>
    if tag = coreTag "bool" then (bool? s).map bool
    else if tag = coreTag "int" then
      match integer s.toList with
      | .some n => some n
      | _ => none
    else if tag = coreTag "float" then (float? s).map float
    else if tag = coreTag "null" then (null? s).map fun _ => null
    else if tag.head? = some '!'.toNat.toUInt8 ∧ plain then ofPlain s
    else some (text s)

example : ofPlain "0x1F" = some (natural 31) := by decide +kernel
example : ofPlain "017" = some (text "017") := by decide +kernel

end Scalar

end Interop.Yaml
