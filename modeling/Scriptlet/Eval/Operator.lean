import Scriptlet.Value.Equal

/-!
# Operators on values

Integers have 64 bits and wrap around; division goes towards zero. The operands are never signals.

- `evalUnary`, `evalBinary` : operators
- `evalIndex` : items of arrays and values of hashes
-/

namespace Scriptlet

def evalUnary (op : UnaryOp) (operand : Value) : Value :=
  match op, operand with
  | .not, v => .bool (!v.isTruthy)
  | .neg, .int n => .int (-n)
  | .pos, .int n => .int n
  | op, v => .error (.unknownUnary op v.type)

def evalIntegers (op : BinaryOp) (a b : Int64) : Value :=
  match op with
  | .add => .int (a + b)
  | .sub => .int (a - b)
  | .mul => .int (a * b)
  | .div => if b = 0 then .error .divisionByZero else .int (a / b)
  | .gt => .bool (decide (b < a))
  | .ge => .bool (decide (b ≤ a))
  | .lt => .bool (decide (a < b))
  | .le => .bool (decide (a ≤ b))
  | .ne => .bool (a != b)
  | .eq => .bool (a == b)
  | .other symbol => .error (.unknownBinary (.other symbol) .integer .integer)

def evalStrings (op : BinaryOp) (a b : String) : Value :=
  match op with
  | .add => .str (a ++ b)
  | .eq => .bool (a == b)
  | .ne => .bool (a != b)
  | op => .error (.typeMismatch op .string .string)

/-- An operator between its operands. Any two values can be compared for equality. -/
def evalBinary (op : BinaryOp) (left right : Value) : Value :=
  match left, right with
  | .int a, .int b => evalIntegers op a b
  | .str a, .str b => evalStrings op a b
  | left, right =>
    match op with
    | .eq => .bool (left.equal right)
    | .ne => .bool (!left.equal right)
    | op =>
      if left.type = right.type then .error (.unknownBinary op left.type right.type)
      else .error (.typeMismatch op left.type right.type)

/-- The item at a place that counts from zero, null outside the array. -/
def itemAt (items : List Value) (place : Int64) : Value :=
  if place < 0 then .null else items.getD place.toInt.toNat .null

/-- An item of an array or a value of a hash, null if it is not there. -/
def evalIndex (target key : Value) : Value :=
  match target with
  | .array items =>
    match key with
    | .int place => itemAt items place
    | key => .error (.arrayIndex key.type)
  | .hash entries =>
    match key.key? with
    | some k => (Entries.get? k entries).getD .null
    | none => .error (.unusableKey key.type)
  | target => .error (.notIndexable target.type)

end Scriptlet
