import Scriptlet.Token.Basic

/-!
# Diagnostics

- `Diagnostic.Cause` : what can be wrong with a source text
- `Diagnostic` : a cause and the place of the token that shows it
- `Diagnostic.render` : the line that reports it
-/

namespace Scriptlet

def maxNesting : Nat := 1024

inductive Diagnostic.Cause
  | lexical (text : String)
  | unexpected (wanted found : Token.Kind)
  | noOperand (found : Token.Kind)
  | integerRange (digits : String)
  | tooDeep
  deriving DecidableEq, Repr

def Diagnostic.Cause.message : Diagnostic.Cause → String
  | .lexical text => text
  | .unexpected wanted found =>
    "expected next token to be " ++ wanted.name ++ ", got " ++ found.name ++ " instead"
  | .noOperand found => "no prefix parse function for " ++ found.name
  | .integerRange digits => "could not parse \"" ++ digits ++ "\" as integer"
  | .tooDeep => "expression nesting too deep (limit " ++ maxNesting.repr ++ ")"

/-- Something wrong with a source text, at the token that shows it. -/
structure Diagnostic where
  pos : Pos
  cause : Diagnostic.Cause
  deriving DecidableEq, Repr

namespace Diagnostic

def message (diagnostic : Diagnostic) : String :=
  diagnostic.cause.message

/-- The place and the message, behind the name of the file if it has one. -/
def render (diagnostic : Diagnostic) (file : String) : String :=
  (if file.isEmpty then "" else file ++ ":") ++
    diagnostic.pos.row.repr ++ ":" ++ diagnostic.pos.col.repr ++ ": " ++ diagnostic.message

end Diagnostic

end Scriptlet
