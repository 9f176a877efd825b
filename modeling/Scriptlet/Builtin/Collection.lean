import Scriptlet.Builtin.Basic
import Scriptlet.Text.Split
import Scriptlet.Value.Equal

/-!
# Host functions on strings, arrays and hashes as collections

None of them changes its arguments: `rest` and `push` make new arrays.
-/

namespace Scriptlet
namespace Builtin

def len : List Value → Value
  | [.str s] => .int (Int64.ofNat s.length)
  | [.array items] => .int (Int64.ofNat items.length)
  | [.hash entries] => .int (Int64.ofNat entries.length)
  | [v] => .error (.unsupportedArgument "len" v.type)
  | args => wrongCount 1 args

/-- The first item of an array, null if it has none. -/
def first : List Value → Value
  | [.array items] => items.headD .null
  | [v] => .error (.argumentType "first" .array v.type)
  | args => wrongCount 1 args

def last : List Value → Value
  | [.array items] => items.getLastD .null
  | [v] => .error (.argumentType "last" .array v.type)
  | args => wrongCount 1 args

/-- An array without its first item, null if it has none. -/
def rest : List Value → Value
  | [.array []] => .null
  | [.array (_ :: items)] => .array items
  | [v] => .error (.argumentType "rest" .array v.type)
  | args => wrongCount 1 args

def push : List Value → Value
  | [.array items, v] => .array (items ++ [v])
  | [v, _] => .error (.argumentType "push" .array v.type)
  | args => wrongCount 2 args

def keys : List Value → Value
  | [.hash entries] => .array (Entries.keys entries)
  | [v] => .error (.argumentType "keys" .hash v.type)
  | args => wrongCount 1 args

def values : List Value → Value
  | [.hash entries] => .array (Entries.values entries)
  | [v] => .error (.argumentType "values" .hash v.type)
  | args => wrongCount 1 args

/-- Whether a string has a part, an array an equal item or a hash a key. -/
def contains : List Value → Value
  | [.str s, .str sought] => .bool (Text.containsText s sought)
  | [.str _, v] => .error (.secondArgumentType "contains" .string v.type)
  | [.array items, v] => .bool (items.any (·.equal v))
  | [.hash entries, v] =>
    match v.key? with
    | some key => .bool (Entries.get? key entries).isSome
    | none => .error (.unusableKey v.type)
  | [v, _] => .error (.unsupportedArgument "contains" v.type)
  | args => wrongCount 2 args

end Builtin
end Scriptlet
