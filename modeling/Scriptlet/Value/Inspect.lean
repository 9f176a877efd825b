import Scriptlet.Text.Quoted
import Scriptlet.Tree.Printer
import Scriptlet.Value.Basic

/-!
# The text of a value

A string shows as itself on its own, and quoted inside an array or a hash.

- `Value.inspect` : the text of a value on its own
- `Value.inspectNested` : its text inside an array or a hash
-/

namespace Scriptlet

def Key.inspect : Key → String
  | .int n => n.toInt.repr
  | .str s => Text.quoteText s

mutual

/-- The text of a value; `nested` tells whether it stands inside an array or a hash. -/
def Value.inspectIn (nested : Bool) : Value → String
  | .int n => n.toInt.repr
  | .bool b => cond b "true" "false"
  | .str s => cond nested (Text.quoteText s) s
  | .null => "null"
  | .array items => "[" ++ ", ".intercalate (inspectItems items) ++ "]"
  | .hash entries => "\x7b" ++ ", ".intercalate (inspectEntries entries) ++ "\x7d"
  | .function closure => "fn(" ++ renderParams closure.params ++ ") \x7b...\x7d"
  | .builtin builtin => "builtin " ++ builtin.name
  | .error fault => "ERROR: " ++ fault.message
  | .returned value => value.inspectIn false
  | .broke => "break"
  | .absent => ""

def inspectItems : List Value → List String
  | [] => []
  | item :: rest => item.inspectIn true :: inspectItems rest

def inspectEntries : List (Key × Value) → List String
  | [] => []
  | entry :: rest => inspectEntry entry :: inspectEntries rest

def inspectEntry : Key × Value → String
  | (key, value) => key.inspect ++ ": " ++ value.inspectIn true

end

namespace Value

def inspect (value : Value) : String :=
  value.inspectIn false

def inspectNested (value : Value) : String :=
  value.inspectIn true

end Value

end Scriptlet
