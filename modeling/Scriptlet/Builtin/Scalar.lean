import Scriptlet.Builtin.Basic
import Scriptlet.Text.Blank
import Scriptlet.Text.Case
import Scriptlet.Text.Split
import Scriptlet.Value.Inspect

/-!
# Host functions on texts and integers
-/

namespace Scriptlet
namespace Builtin

/-! ## Texts -/

/-- The texts of an array's items with a separator between neighbours. -/
def join : List Value → Value
  | [.array items, .str sep] => .str (sep.intercalate (items.map Value.inspect))
  | [.array _, v] => .error (.separatorType v.type)
  | [v, _] => .error (.firstArgumentType "join" .array v.type)
  | args => wrongCount 2 args

def split : List Value → Value
  | [.str s, .str sep] => .array ((Text.splitText s sep).map Value.str)
  | [.str _, v] => .error (.separatorType v.type)
  | [v, _] => .error (.firstArgumentType "split" .string v.type)
  | args => wrongCount 2 args

/-- A function from a text to a text, under the given name. -/
def onText (name : String) (f : String → String) : List Value → Value
  | [.str s] => .str (f s)
  | [v] => .error (.argumentType name .string v.type)
  | args => wrongCount 1 args

def upper : List Value → Value := onText "upper" Text.upperText

def lower : List Value → Value := onText "lower" Text.lowerText

def trim : List Value → Value := onText "trim" Text.trimText

/-! ## Integers -/

/-- The absolute value. The smallest integer has none in range and stays as it is. -/
def abs : List Value → Value
  | [.int n] => .int (if n < 0 then -n else n)
  | [v] => .error (.argumentType "abs" .integer v.type)
  | args => wrongCount 1 args

def combineAll (name : String) (f : Int64 → Int64 → Int64) (acc : Int64) : List Value → Value
  | [] => .int acc
  | .int n :: rest => combineAll name f (f acc n) rest
  | v :: _ => .error (.someArgumentType name .integer v.type)

def combine (name : String) (f : Int64 → Int64 → Int64) : List Value → Value
  | [] => .error (.noArguments name)
  | .int n :: rest => combineAll name f n rest
  | v :: _ => .error (.someArgumentType name .integer v.type)

def min : List Value → Value := combine "min" fun a b => if b < a then b else a

def max : List Value → Value := combine "max" fun a b => if a < b then b else a

end Builtin
end Scriptlet
