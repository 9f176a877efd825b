import Scriptlet.Parse.Diagnostic
import Scriptlet.Report
import Scriptlet.Tree.Basic

/-!
# Reading position

Reading looks at the current token and one token ahead. The last token is the end of file, and
there it stays.

- `Parse.State` : the current token, the tokens ahead and the diagnostics so far
- `State.expect` : a step onto a token that has to be there
-/

namespace Scriptlet
namespace Parse

structure State where
  cur : Token
  ahead : List Token
  report : Report Diagnostic

namespace State

def ofTokens : List Token → State
  | [] => ⟨⟨.eof, "", .start⟩, [], .empty⟩
  | token :: rest => ⟨token, rest, .empty⟩

def peek (s : State) : Token :=
  s.ahead.headD s.cur

def advance (s : State) : State :=
  match s.ahead with
  | [] => s
  | token :: rest => { s with cur := token, ahead := rest }

def fault (s : State) (token : Token) (cause : Diagnostic.Cause) : State :=
  { s with report := s.report.add (some ⟨token.pos, cause⟩) }

/-- Steps onto the next token if it has the given kind; otherwise stays and reports it. -/
def expect (s : State) (kind : Token.Kind) : Except State State :=
  let next := s.peek
  if next.kind = kind then .ok s.advance
  else if next.kind.isError then .error (s.fault next (.lexical next.text))
  else .error (s.fault next (.unexpected kind next.kind))

def skipSemicolon (s : State) : State :=
  if s.peek.kind = .semicolon then s.advance else s

/-- Steps onto the last token. -/
def drain (s : State) : State :=
  { s with cur := s.ahead.getLastD s.cur, ahead := [] }

/-- A place without an expression, at the current token. -/
def bad (s : State) : Expr × State :=
  (.bad s.cur, s)

def ident (s : State) : Ident :=
  ⟨s.cur, s.cur.text⟩

end State

end Parse
end Scriptlet
