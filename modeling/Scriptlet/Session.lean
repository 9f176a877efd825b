import Scriptlet.Builtin.Standard
import Scriptlet.Eval.Node
import Scriptlet.Parse.Program

/-!
# Sessions

A session evaluates one program after another in the same global scope.

- `Session` : the state between two programs
- `Session.run` : evaluates a program
-/

namespace Scriptlet

def defaultMaxDepth : Nat := 10000

/-- The number of levels for a requested limit. A limit below one stands for the default. -/
def levelsFor (limit : Int) : Nat :=
  if 1 ≤ limit then limit.toNat else defaultMaxDepth

/-- A number of turns that no loop takes in the lifetime of a machine. -/
def ampleTurns : Nat := Nat.pow 2 62

/-- What lasts from one program to the next. -/
structure Session where
  machine : Machine
  levels : Nat
  store : Store

namespace Session

def new (builtins : Builtins) (limit : Int) : Session :=
  ⟨⟨builtins, ampleTurns⟩, levelsFor limit, .initial⟩

/-- Evaluates a program in the global scope. There is no outcome when a loop takes too many
turns. -/
def run (session : Session) (program : Program) : Option (Value × Session) :=
  match evalProgram session.machine session.levels program Store.global session.store with
  | some (value, store) => some (value, { session with store := store })
  | none => none

def printedSince (session earlier : Session) : String :=
  session.store.printedText earlier.store.printed.size

end Session

end Scriptlet
