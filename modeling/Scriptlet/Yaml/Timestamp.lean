import Scriptlet.Yaml.Cursor

/-!
# Points in time

- `Yaml.isTimestamp` : whether a scalar names a day, or a moment of a day
-/

namespace Scriptlet
namespace Yaml

def daysIn (year month : Nat) : Nat :=
  if month = 2 then
    if year % 4 = 0 ∧ (year % 100 ≠ 0 ∨ year % 400 = 0) then 29 else 28
  else if month = 4 ∨ month = 6 ∨ month = 9 ∨ month = 11 then 30 else 31

def decimalValue (digits : List Char) : Nat :=
  digits.foldl (fun n c => n * 10 + (c.toNat - 48)) 0

def shortNumber? : List Char → Option (Nat × List Char)
  | a :: b :: rest =>
    if !isDecimalDigit a then none
    else if isDecimalDigit b then some (decimalValue [a, b], rest)
    else some (decimalValue [a], b :: rest)
  | [a] => if isDecimalDigit a then some (decimalValue [a], []) else none
  | [] => none

def after? (c : Char) : List Char → Option (List Char)
  | d :: rest => if c = d then some rest else none
  | [] => none

def afterDate? (chars : List Char) : Option (List Char) := do
  let year := chars.takeWhile isDecimalDigit
  if year.length ≠ 4 then none
  let rest ← after? '-' (chars.dropWhile isDecimalDigit)
  let (month, rest) ← shortNumber? rest
  let rest ← after? '-' rest
  let (day, rest) ← shortNumber? rest
  if 1 ≤ month ∧ month ≤ 12 ∧ 1 ≤ day ∧ day ≤ daysIn (decimalValue year) month then some rest
  else none

def afterFraction : List Char → List Char
  | c :: d :: rest =>
    if (c = '.' || c = ',') && isDecimalDigit d then rest.dropWhile isDecimalDigit
    else c :: d :: rest
  | rest => rest

def afterTime? (chars : List Char) : Option (List Char) := do
  let (hour, rest) ← shortNumber? chars
  let rest ← after? ':' rest
  let (minute, rest) ← shortNumber? rest
  let rest ← after? ':' rest
  let (second, rest) ← shortNumber? rest
  if hour < 24 ∧ minute < 60 ∧ second < 60 then some (afterFraction rest) else none

def isZone : List Char → Bool
  | ['Z'] => true
  | [sign, a, b, ':', c, d] =>
    (sign == '+' || sign == '-') && [a, b, c, d].all isDecimalDigit &&
      decide (decimalValue [a, b] ≤ 24) && decide (decimalValue [c, d] ≤ 60)
  | _ => false

/-- Whether a scalar names a day, or a moment of a day: with a letter in front of the time and a
zone behind it, or with spaces and no zone. -/
def isTimestamp (chars : List Char) : Bool :=
  match afterDate? chars with
  | none => false
  | some [] => true
  | some (c :: rest) =>
    if c = 'T' || c = 't' then ((afterTime? rest).map isZone).getD false
    else if c = ' ' then ((afterTime? (rest.dropWhile (· == ' '))).map List.isEmpty).getD false
    else false

end Yaml
end Scriptlet
