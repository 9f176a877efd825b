import Scriptlet.Value.Basic

/-!
# Host functions

A host function answers its arguments with a value and may print lines. It sees and changes nothing
else.

- `Reply` : what a host function answers
- `Builtins` : a table of host functions by name
-/

namespace Scriptlet

/-- The answer of a host function: its value and the lines that it prints. -/
structure Reply where
  value : Value
  lines : List String

abbrev Native := List Value → Reply

def Native.quiet (f : List Value → Value) : Native :=
  fun args => ⟨f args, []⟩

structure Builtins where
  entries : List (String × Native)

namespace Builtins

def find? (builtins : Builtins) (name : String) : Option Native :=
  builtins.entries.lookup name

def names (builtins : Builtins) : List String :=
  builtins.entries.map Prod.fst

def empty : Builtins := ⟨[]⟩

end Builtins

def wrongCount (expected : Nat) (args : List Value) : Value :=
  .error (.argumentCount expected args.length)

end Scriptlet
