import Scriptlet.Value.Fault

/-!
# Values

- `Key` : what may stand as a key in a hash
- `Closure` : a function of the language with the scope where it was made
- `Value` : everything that an evaluation can produce

Errors, returns and breaks are values too. Such a value is a *signal*: it stops what is going on and
is handed outwards until something takes it.
-/

namespace Scriptlet

/-- The keys of hashes. Two keys are the same exactly when they are equal values. -/
inductive Key
  | int (value : Int64)
  | str (value : String)
  deriving DecidableEq

/-- A function made by a function literal. The number `id` tells apart functions that were made at
different times, and `scope` is where its free names are looked up. -/
structure Closure where
  id : Nat
  params : List Ident
  body : Block
  scope : Nat

/-- A function of the host. The one in the table has the serial number zero; others of the same name
differ from it. -/
structure Builtin where
  name : String
  serial : Nat
  deriving DecidableEq

/-- Values. A hash holds its entries in the order in which their keys first came; `absent` is no
value at all, as a host function without a result gives it. -/
inductive Value
  | int (value : Int64)
  | bool (value : Bool)
  | str (value : String)
  | null
  | array (items : List Value)
  | hash (entries : List (Key × Value))
  | function (closure : Closure)
  | builtin (builtin : Builtin)
  | error (fault : Fault)
  | returned (value : Value)
  | broke
  | absent

instance : Inhabited Value := ⟨.null⟩

def Key.toValue : Key → Value
  | .int n => .int n
  | .str s => .str s

namespace Value

def type : Value → ValueType
  | .int _ => .integer
  | .bool _ => .boolean
  | .str _ => .string
  | .null => .null
  | .array _ => .array
  | .hash _ => .hash
  | .function _ => .function
  | .builtin _ => .builtin
  | .error _ => .error
  | .returned _ => .returned
  | .broke => .broke
  | .absent => .absent

/-- Whether a value stops what is going on. -/
def isSignal : Value → Bool
  | .error _ | .returned _ | .broke => true
  | _ => false

/-- Everything counts as true but false and null. -/
def isTruthy : Value → Bool
  | .bool b => b
  | .null => false
  | _ => true

def key? : Value → Option Key
  | .int n => some (.int n)
  | .str s => some (.str s)
  | _ => none

/-- What a host function without a result gives is null. -/
def orNull : Value → Value
  | .absent => .null
  | v => v

/-- What becomes of a signal that leaves a function or a program: a return gives its value, and a
break has no loop to leave. -/
def settle : Value → Value
  | .returned v => v
  | .broke => .error .breakOutsideLoop
  | v => v

/-- What becomes of a signal that leaves a loop: a break ends it with null. -/
def loopExit : Value → Value
  | .broke => .null
  | v => v

end Value

end Scriptlet
