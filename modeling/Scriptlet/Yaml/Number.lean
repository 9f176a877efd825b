import Scriptlet.Yaml.Cursor

/-!
# Numbers

- `Yaml.integer?` : the integer that some characters write
- `Yaml.float?` : the whole part of the decimal number that they write
-/

namespace Scriptlet
namespace Yaml

def signedBound : Nat := Nat.pow 2 63

def unsignedBound : Nat := Nat.pow 2 64

/-- The lowest number of 64 bits, which also stands for all numbers below it. -/
def lowest : Int := -(signedBound : Int)

/-! ## Integers -/

def digitsIn? (base : Nat) (digits : List Char) : Option Nat :=
  if digits.isEmpty then none
  else
    digits.foldl (fun acc c => do
      let value ← acc
      let digit ← hexDigit? c
      if digit < base then some (value * base + digit) else none) (some 0)

def natural? : List Char → Option Nat
  | '0' :: 'x' :: digits | '0' :: 'X' :: digits => digitsIn? 16 digits
  | '0' :: 'b' :: digits | '0' :: 'B' :: digits => digitsIn? 2 digits
  | '0' :: 'o' :: digits | '0' :: 'O' :: digits => digitsIn? 8 digits
  | '0' :: c :: digits => digitsIn? 8 (c :: digits)
  | digits => digitsIn? 10 digits

/-- An integer that fits into 64 bits, signed, or unsigned if it has no sign. -/
def integer? : List Char → Option Int
  | '-' :: digits => do
    let n ← natural? digits
    if n ≤ signedBound then some (-n) else none
  | '+' :: digits => do
    let n ← natural? digits
    if n < signedBound then some n else none
  | digits => do
    let n ← natural? digits
    if n < unsignedBound then some n else none

def lateSigned? : List Char → Option Int
  | '0' :: letter :: sign :: digits =>
    let base := if letter = 'b' then 2 else if letter = 'o' then 8 else 0
    match digitsIn? base digits with
    | some n =>
      if sign = '-' && decide (n ≤ signedBound) then some (-n)
      else if sign = '+' && decide (n < signedBound) then some n
      else none
    | none => none
  | _ => none

/-! ## Decimal numbers -/

/-- The value of the digits of an exponent. Digits behind the fifth do not matter and do not
count. -/
def exponentDigits? (digits : List Char) : Option Nat :=
  if digits.isEmpty || !digits.all isDecimalDigit then none
  else some (digits.foldl (fun n c => if n < 10000 then n * 10 + (c.toNat - 48) else n) 0)

def exponent? : List Char → Option Int
  | [] => some 0
  | c :: rest =>
    if c = 'e' || c = 'E' then
      match rest with
      | '-' :: digits => (exponentDigits? digits).map fun n => -(n : Int)
      | '+' :: digits => (exponentDigits? digits).map fun n => (n : Int)
      | digits => (exponentDigits? digits).map fun n => (n : Int)
    else none

def roundQuotient (a b : Nat) : Nat :=
  let quotient := a / b
  let twice := 2 * (a % b)
  if twice < b ∨ (twice = b ∧ quotient % 2 = 0) then quotient else quotient + 1

/-- The whole part of a quotient that is first rounded to 53 binary digits. -/
def roundedWhole (a b : Nat) : Nat :=
  let digits := (a / b).log2
  if 2 * a < b then 0
  else if a < b then
    roundQuotient (a * Nat.pow 2 53) b / Nat.pow 2 53
  else if digits ≤ 52 then
    roundQuotient (a * Nat.pow 2 (52 - digits)) b / Nat.pow 2 (52 - digits)
  else
    roundQuotient a (b * Nat.pow 2 (digits - 52)) * Nat.pow 2 (digits - 52)

def floatBound : Nat := (Nat.pow 2 54 - 1) * Nat.pow 2 970

/-- The size of the whole part of a decimal number with the given digits and exponent, unless it is
beyond the range of decimal numbers. -/
def wholePart? (digits : Nat) (exponent : Int) : Option Nat :=
  if digits = 0 then some 0
  else if 400 < exponent then none
  else if 0 ≤ exponent then
    let whole := digits * Nat.pow 10 exponent.toNat
    if whole < floatBound then some (roundedWhole whole 1) else none
  else
    let places := (-exponent).toNat
    if digits.log2 + 1 < places then some 0
    else if digits / Nat.pow 10 places < floatBound then
      some (roundedWhole digits (Nat.pow 10 places))
    else none

def unsignedFloat? (chars : List Char) : Option Nat :=
  let whole := chars.takeWhile isDecimalDigit
  let rest := chars.dropWhile isDecimalDigit
  let (fraction, rest) := match rest with
    | '.' :: rest => (rest.takeWhile isDecimalDigit, rest.dropWhile isDecimalDigit)
    | rest => ([], rest)
  if whole.isEmpty && fraction.isEmpty then none
  else do
    let exponent ← exponent? rest
    let digits ← digitsIn? 10 (whole ++ fraction)
    wholePart? digits (exponent - fraction.length)

def float? : List Char → Option Int
  | '-' :: rest => (unsignedFloat? rest).map fun n => -(n : Int)
  | '+' :: rest => (unsignedFloat? rest).map fun n => (n : Int)
  | rest => (unsignedFloat? rest).map fun n => (n : Int)

/-- Whether every underscore stands between two digits; `digit` tells that one stands before. -/
def underscoresFit (digit : Bool) : List Char → Bool
  | [] => true
  | '_' :: c :: rest => digit && isDecimalDigit c && underscoresFit true rest
  | ['_'] => false
  | c :: rest => underscoresFit (isDecimalDigit c) rest

def pointFloat? (chars : List Char) : Option Int :=
  if underscoresFit false chars then
    (unsignedFloat? (chars.filter (· != '_'))).map fun n => (n : Int)
  else none

end Yaml
end Scriptlet
