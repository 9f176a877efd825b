import Scriptlet.Builtin.Collection
import Scriptlet.Builtin.Scalar

/-!
# The standard table of host functions

The table is in the order of the names.
-/

namespace Scriptlet
namespace Builtin

def type : List Value → Value
  | [v] => .str v.type.name
  | args => wrongCount 1 args

def str : List Value → Value
  | [v] => .str v.inspect
  | args => wrongCount 1 args

def puts : Native :=
  fun args => ⟨.null, args.map Value.inspect⟩

end Builtin

def Builtins.standard : Builtins :=
  ⟨[("abs", .quiet Builtin.abs), ("contains", .quiet Builtin.contains),
    ("first", .quiet Builtin.first), ("join", .quiet Builtin.join), ("keys", .quiet Builtin.keys),
    ("last", .quiet Builtin.last), ("len", .quiet Builtin.len), ("lower", .quiet Builtin.lower),
    ("max", .quiet Builtin.max), ("min", .quiet Builtin.min), ("push", .quiet Builtin.push),
    ("puts", Builtin.puts), ("rest", .quiet Builtin.rest), ("split", .quiet Builtin.split),
    ("str", .quiet Builtin.str), ("trim", .quiet Builtin.trim), ("type", .quiet Builtin.type),
    ("upper", .quiet Builtin.upper), ("values", .quiet Builtin.values)]⟩

end Scriptlet
