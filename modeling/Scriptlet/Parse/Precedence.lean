import Scriptlet.Token.Basic

/-!
# Precedence

An operator with a larger precedence takes its operands first. A call and an index behave like
operators behind their operand.
-/

namespace Scriptlet
namespace Precedence

def lowest : Nat := 1
def equality : Nat := 2
def comparison : Nat := 3
def sum : Nat := 4
def product : Nat := 5
def unary : Nat := 6
def call : Nat := 7
def index : Nat := 8

/-- How tightly a token of the given kind takes the expression in front of it. -/
def ofKind : Token.Kind → Nat
  | .equal | .notEqual => equality
  | .less | .lessEqual | .greater | .greaterEqual => comparison
  | .plus | .minus => sum
  | .slash | .star => product
  | .openParen => call
  | .openBracket => index
  | _ => lowest

end Precedence
end Scriptlet
