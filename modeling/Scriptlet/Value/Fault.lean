import Scriptlet.Tree.Basic

/-!
# Types of values and evaluation errors

- `ValueType` : the variants of values, with their names
- `Fault` : what can go wrong in an evaluation
- `Fault.message` : how it is worded
-/

namespace Scriptlet

inductive ValueType
  | integer
  | boolean
  | string
  | null
  | array
  | hash
  | returned
  | broke
  | function
  | builtin
  | error
  | absent
  deriving DecidableEq, Repr

def ValueType.name : ValueType → String
  | .integer => "INTEGER"
  | .boolean => "BOOLEAN"
  | .string => "STRING"
  | .null => "NULL"
  | .array => "ARRAY"
  | .hash => "HASH"
  | .returned => "RETURN_VALUE"
  | .broke => "BREAK"
  | .function => "FUNCTION"
  | .builtin => "BUILTIN"
  | .error => "ERROR"
  | .absent => "ABSENT"

inductive Fault
  | recursionLimit
  | unknownName (name : String)
  | unknownUnary (op : UnaryOp) (operand : ValueType)
  | unknownBinary (op : BinaryOp) (left right : ValueType)
  | typeMismatch (op : BinaryOp) (left right : ValueType)
  | divisionByZero
  | notAFunction (found : ValueType)
  | argumentCount (expected found : Nat)
  | notIndexable (found : ValueType)
  | arrayIndex (key : ValueType)
  | unusableKey (key : ValueType)
  | breakOutsideLoop
  | invalidExpression
  | unsupportedArgument (function : String) (found : ValueType)
  | argumentType (function : String) (wanted found : ValueType)
  | firstArgumentType (function : String) (wanted found : ValueType)
  | secondArgumentType (function : String) (wanted found : ValueType)
  | someArgumentType (function : String) (wanted found : ValueType)
  | separatorType (found : ValueType)
  | noArguments (function : String)
  | custom (text : String)
  deriving DecidableEq, Repr

namespace Fault

def ticked (name : String) : String :=
  "\x60" ++ name ++ "\x60"

def operation (op : BinaryOp) (left right : ValueType) : String :=
  left.name ++ " " ++ op.symbol ++ " " ++ right.name

def mismatch (wanted found : ValueType) : String :=
  " must be " ++ wanted.name ++ ", got " ++ found.name

def message : Fault → String
  | .recursionLimit => "recursion limit exceeded"
  | .unknownName name => "identifier not found: " ++ name
  | .unknownUnary op operand => "unknown operator: " ++ op.symbol ++ operand.name
  | .unknownBinary op left right => "unknown operator: " ++ operation op left right
  | .typeMismatch op left right => "type mismatch: " ++ operation op left right
  | .divisionByZero => "division by zero"
  | .notAFunction found => "not a function: " ++ found.name
  | .argumentCount expected found =>
    "wrong number of arguments: expected " ++ expected.repr ++ ", got " ++ found.repr
  | .notIndexable found => "index operator not supported: " ++ found.name
  | .arrayIndex key => "index operator not supported: ARRAY[" ++ key.name ++ "]"
  | .unusableKey key => "unusable as hash key: " ++ key.name
  | .breakOutsideLoop => "break outside loop"
  | .invalidExpression => "invalid expression"
  | .unsupportedArgument function found =>
    "argument to " ++ ticked function ++ " not supported, got " ++ found.name
  | .argumentType function wanted found =>
    "argument to " ++ ticked function ++ mismatch wanted found
  | .firstArgumentType function wanted found =>
    "first argument to " ++ ticked function ++ mismatch wanted found
  | .secondArgumentType function wanted found =>
    "second argument to " ++ ticked function ++ mismatch wanted found
  | .someArgumentType function wanted found =>
    "arguments to " ++ ticked function ++ mismatch wanted found
  | .separatorType found => "separator needs to be of type STRING, got " ++ found.name
  | .noArguments function => ticked function ++ " expects at least one argument"
  | .custom text => text

end Fault

end Scriptlet
