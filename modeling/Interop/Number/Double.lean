/-!
This module contains binary floating point numbers of 53 bits: the one nearest to a decimal number,
and the shortest decimal number that it is nearest to. All of it is arithmetic of natural numbers.
-/

namespace Interop

/--
A number of the format with 53 bits and exponents from -1074 on.
-/
inductive Double where
  | nan
  | infinity (negative : Bool)
  /-- The number `mantissa * 2 ^ exponent` or its negative. -/
  | finite (negative : Bool) (mantissa : Nat) (exponent : Int)
  deriving DecidableEq, Repr

namespace Double

/--
The integer nearest to `num / den`, the even one of two.
-/
def roundDiv (num den : Nat) : Nat :=
  let q := num / den
  let r := num % den
  if 2 * r < den then q
  else if den < 2 * r then q + 1
  else if q % 2 = 0 then q else q + 1

def leastExponent : Int := -1074

def greatestExponent : Int := 971

def bits : Nat := 53

/--
The fraction `num / den` divided by a power of two.
-/
def scaleTwo (num den : Nat) (e : Int) : Nat × Nat :=
  if 0 ≤ e then (num, den * Nat.pow 2 e.toNat) else (num * Nat.pow 2 (-e).toNat, den)

/--
The exponent at which `num / den` has 53 bits before the point, or one more.
-/
def exponentFor (num den : Nat) : Int :=
  max leastExponent ((Nat.log2 num : Int) - Nat.log2 den - bits)

/--
The double nearest to `num / den`, where `num` and `den` are positive.
-/
def ofFraction (negative : Bool) (num den : Nat) : Double :=
  let guess := exponentFor num den
  let (n, d) := scaleTwo num den guess
  let e := if n / d < Nat.pow 2 bits then guess else guess + 1
  let (n, d) := scaleTwo num den e
  let m := roundDiv n d
  let (m, e) := if m = Nat.pow 2 bits then (Nat.pow 2 (bits - 1), e + 1) else (m, e)
  if greatestExponent < e then .infinity negative else .finite negative m e

/--
The double nearest to `digits * 10 ^ exponent`.
-/
def ofDecimal (negative : Bool) (digits : Nat) (exponent : Int) : Double :=
  let magnitude := exponent + (Nat.toDigits 10 digits).length
  if digits = 0 ∨ magnitude < -400 then .finite negative 0 leastExponent
  else if 400 < magnitude then .infinity negative
  else if 0 ≤ exponent then ofFraction negative (digits * Nat.pow 10 exponent.toNat) 1
  else ofFraction negative digits (Nat.pow 10 (-exponent).toNat)

/--
The fraction `num / den` divided by a power of ten.
-/
def scaleTen (num den : Nat) (p : Int) : Nat × Nat :=
  if 0 ≤ p then (num, den * Nat.pow 10 p.toNat) else (num * Nat.pow 10 (-p).toNat, den)

/--
The decimal with unit `10 ^ p` that is nearest to `num / den` among the two around it, if `value` is
the double nearest to it.
-/
def decimalAt? (value : Double) (num den : Nat) (p : Int) : Option (Nat × Int) :=
  let (n, d) := scaleTen num den p
  let q := n / d
  let near (digits : Nat) : Bool := ofDecimal false digits p == value
  match near q, near (q + 1) with
  | true, true => if 2 * (n % d) ≤ d then some (q, p) else some (q + 1, p)
  | true, false => some (q, p)
  | false, true => some (q + 1, p)
  | false, false => none

/--
The first decimal among the units from `10 ^ p` down; 17 digits always suffice.
-/
def decimalFrom (value : Double) (num den : Nat) (p : Int) : Nat → Nat × Int
  | 0 => (0, 0)
  | steps + 1 =>
    match decimalAt? value num den p with
    | some r => r
    | none => decimalFrom value num den (p - 1) steps

/--
The shortest decimal that reads back as the positive number `mantissa * 2 ^ exponent`.
-/
def shortest (mantissa : Nat) (exponent : Int) : Nat × Int :=
  let (num, den) := scaleTwo mantissa 1 (-exponent)
  decimalFrom (.finite false mantissa exponent) num den 309 640

/--
The decimal notation without an exponent.
-/
def positional (digits : Nat) (exponent : Int) : String :=
  let text := Nat.toDigits 10 digits
  if 0 ≤ exponent then String.ofList (text ++ List.replicate exponent.toNat '0')
  else
    let places := (-exponent).toNat
    let text := List.replicate (places + 1 - text.length) '0' ++ text
    String.ofList (text.take (text.length - places) ++ '.' :: text.drop (text.length - places))

/--
The notation with the fewest digits. A finite number always has a point.
-/
def text : Double → String
  | nan => "NaN"
  | infinity negative => if negative then "-inf" else "inf"
  | finite negative m e =>
    let (digits, p) := if m = 0 then (0, 0) else shortest m e
    let unsigned := positional digits p
    let withPoint := if unsigned.toList.contains '.' then unsigned else unsigned ++ ".0"
    if negative then "-" ++ withPoint else withPoint

/--
Equality as keys of a mapping know it: there is one zero.
-/
def same : Double → Double → Bool
  | finite n m e, finite n' m' e' => m == 0 && m' == 0 || n == n' && m == m' && e == e'
  | a, b => a == b

example : (ofDecimal false 15 (-1)).text = "1.5" := by decide +kernel
example : (ofDecimal true 8 0).text = "-8.0" := by decide +kernel

end Double

end Interop
