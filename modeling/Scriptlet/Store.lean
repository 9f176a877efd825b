import Scriptlet.Value.Basic

/-!
# Scopes

A scope binds names to values and may lie inside an outer scope. The scopes of a run are numbered in
the order in which they were made.

- `Scope` : one scope
- `Store` : all scopes of a run, with what was printed
- `Store.find` : the value of a name, looked up from a scope outwards
- `Store.bind` : a binding in one scope
-/

namespace Scriptlet

/-- The bindings of one scope, at most one for each name, and the number of the scope around it. -/
structure Scope where
  outer : Option Nat
  vars : List (String × Value)

namespace Scope

def get? (scope : Scope) (name : String) : Option Value :=
  scope.vars.lookup name

def bindIn (name : String) (value : Value) : List (String × Value) → List (String × Value)
  | [] => [(name, value)]
  | entry :: rest =>
    if entry.1 = name then (name, value) :: rest else entry :: bindIn name value rest

def bind (scope : Scope) (name : String) (value : Value) : Scope :=
  { scope with vars := bindIn name value scope.vars }

end Scope

/-- What a run has made so far: its scopes, how many functions, and the lines that it printed. -/
structure Store where
  scopes : Array Scope
  closures : Nat
  printed : Array String

namespace Store

/-- A store with one empty scope, the global one. -/
def initial : Store :=
  ⟨#[⟨none, []⟩], 0, #[]⟩

def global : Nat := 0

/-- Makes a scope with the given bindings; its number is the number of scopes so far. -/
def newScope (store : Store) (outer : Option Nat) : Store :=
  { store with scopes := store.scopes.push ⟨outer, []⟩ }

/-- Looks a name up from a scope outwards, through at most `fuel` scopes. -/
def findFrom (store : Store) (name : String) : Nat → Nat → Option Value
  | 0, _ => none
  | fuel + 1, id =>
    match store.scopes[id]? with
    | none => none
    | some scope =>
      match scope.get? name with
      | some value => some value
      | none =>
        match scope.outer with
        | some outer => store.findFrom name fuel outer
        | none => none

/-- The value of a name in the nearest scope that binds it. Outer scopes are older, so no way
outwards is longer than the store. -/
def find (store : Store) (id : Nat) (name : String) : Option Value :=
  store.findFrom name store.scopes.size id

/-- Binds a name in a scope. -/
def bind (store : Store) (id : Nat) (name : String) (value : Value) : Store :=
  { store with scopes := store.scopes.modify id fun scope => scope.bind name value }

def print (store : Store) (lines : List String) : Store :=
  { store with printed := store.printed ++ lines }

/-- The text of the lines that were printed, from the given one on. -/
def printedText (store : Store) (first : Nat) : String :=
  String.join ((store.printed.toList.drop first).map (· ++ "\n"))

end Store

end Scriptlet
