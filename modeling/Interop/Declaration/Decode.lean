import Interop.Yaml.Value

/-!
This module contains the decoding of values into records, lists, words and numbers, with the
messages for values that are something else.
-/

namespace Interop.Decode

open Yaml (Value Scalar)

abbrev Result (α : Type) := Except String α

def mismatch (v : Value) (expected : String) : Result α :=
  .error ("invalid type: " ++ v.describe ++ ", expected " ++ expected)

def outOfRange (what expected : String) : Result α :=
  .error ("invalid value: " ++ what ++ ", expected " ++ expected)

def ticked (s : String) : String := "`" ++ s ++ "`"

def alternatives (names : List String) : String :=
  match names with
  | [a] => ticked a
  | [a, b] => ticked a ++ " or " ++ ticked b
  | names => "one of " ++ String.intercalate ", " (names.map ticked)

def unknownVariant (name : String) (names : List String) : String :=
  "unknown variant " ++ ticked name ++ ", expected " ++ alternatives names

def missingField (name : String) : String :=
  "missing field " ++ ticked name

def duplicateField (name : String) : String :=
  "duplicate field " ++ ticked name

def plural (n : Nat) (word : String) : String :=
  toString n ++ " " ++ word ++ if n = 1 then "" else "s"

def text : Value → Result String
  | .scalar (.text s) => .ok s
  | v => mismatch v "a string"

def bool : Value → Result Bool
  | .scalar (.bool b) => .ok b
  | v => mismatch v "a boolean"

/--
An integer of 64 bits with a sign.
-/
def int64 : Value → Result Int
  | .scalar (.natural n) =>
    if n < Nat.pow 2 63 then .ok n else outOfRange (Scalar.natural n).describe "i64"
  | .scalar (.negative n) => .ok (-(n : Int))
  | v => mismatch v "i64"

/--
A natural number of 8 bits.
-/
def byte : Value → Result Nat
  | .scalar (.natural n) =>
    if n < 256 then .ok n else outOfRange (Scalar.natural n).describe "u8"
  | .scalar (.negative n) =>
    if n = 0 then .ok 0 else outOfRange (Scalar.negative n).describe "u8"
  | v => mismatch v "u8"

def optional (decode : Value → Result α) : Value → Result (Option α)
  | .scalar .null => .ok none
  | v => (decode v).map some

def list (decode : Value → Result α) : Value → Result (List α)
  | .sequence items => items.mapM decode
  | v => mismatch v "a sequence"

/--
One of some words, by its place among them. A word may also be written as the key of a mapping with
nothing behind it, or there as its place.
-/
def word (names : List String) : Value → Result Nat
  | .scalar (.text s) => ofText s
  | .mapping [(k, v)] => do
    let place ← ofKey k
    match v with
    | .scalar .null | .mapping [] => return place
    | v => mismatch v "unit"
  | .mapping _ => outOfRange "map" "map with a single key"
  | v => mismatch v "string or map"
where
  ofText (s : String) : Result Nat :=
    match names.findIdx? (· = s) with
    | some place => .ok place
    | none => .error (unknownVariant s names)
  ofKey : Value → Result Nat
    | .scalar (.text s) => ofText s
    | .scalar (.natural n) =>
      if n < names.length then .ok n
      else
        outOfRange (Scalar.natural n).describe s!"variant index 0 <= i < {names.length}"
    | k => mismatch k "variant identifier"

structure FieldSpec where
  name : String
  required : Bool
  deriving DecidableEq, Repr

def required (name : String) : FieldSpec := ⟨name, true⟩

def optionalField (name : String) : FieldSpec := ⟨name, false⟩

/--
A record: its fields in order, what it is before any field is read, and what a field's value makes
of it.
-/
structure RecordSpec (α : Type) where
  name : String
  fields : List FieldSpec
  initial : α
  set : α → String → Value → Result α

namespace RecordSpec

def fieldNames (r : RecordSpec α) : List String :=
  r.fields.map (·.name)

/--
The field that a key names, by its name or its place. Other names are passed over.
-/
def fieldOf (r : RecordSpec α) : Value → Result (Option String)
  | .scalar (.text s) => .ok (if s ∈ r.fieldNames then some s else none)
  | .scalar (.natural n) => .ok r.fieldNames[n]?
  | k => mismatch k "field identifier"

/--
The fields of a mapping in the order in which it has them.
-/
def ofEntries (r : RecordSpec α) (acc : α) (seen : List String) :
    List (Value × Value) → Result α
  | [] =>
    match r.fields.find? fun f => f.required && !seen.contains f.name with
    | some f => .error (missingField f.name)
    | none => .ok acc
  | (k, v) :: es => do
    match ← r.fieldOf k with
    | none => r.ofEntries acc seen es
    | some name =>
      if seen.contains name then .error (duplicateField name)
      else
        let acc ← r.set acc name v
        r.ofEntries acc (name :: seen) es

/--
The fields of a sequence in the order of their declaration, `index` of which were read.
-/
def ofItems (r : RecordSpec α) (index : Nat) (acc : α) : List FieldSpec → List Value → Result α
  | [], [] => .ok acc
  | [], extra =>
    .error <| "invalid length " ++ toString (index + extra.length) ++ ", expected "
      ++ plural index "element" ++ " in sequence"
  | f :: fs, [] =>
    if f.required then
      .error <| "invalid length " ++ toString index ++ ", expected " ++ r.name ++ " with "
        ++ plural r.fields.length "element"
    else r.ofItems (index + 1) acc fs []
  | f :: fs, v :: vs => do
    let acc ← r.set acc f.name v
    r.ofItems (index + 1) acc fs vs

def decode (r : RecordSpec α) : Value → Result α
  | .mapping entries => r.ofEntries r.initial [] entries
  | .sequence items => r.ofItems 0 r.initial r.fields items
  | v => mismatch v r.name

end RecordSpec

end Interop.Decode
