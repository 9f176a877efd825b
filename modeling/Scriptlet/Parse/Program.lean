import Scriptlet.Parse.Expr
import Scriptlet.Token.Cursor

/-!
# Reading programs

- `parseTokens` : the program in a list of tokens
- `parse` : the program in a source text

Reading always comes to the end of the source, so a program is meant only if there are no
diagnostics with it.
-/

namespace Scriptlet

namespace Parse

def isEof : Token.Kind → Bool
  | .eof => true
  | _ => false

/-- Reads all statements; the state behind them holds the diagnostics. -/
def program (tokens : List Token) : Program × State :=
  let bound := tokens.length
  let (stmts, s) := statements (expr bound maxNesting) isEof [] bound (.ofTokens tokens)
  (⟨stmts⟩, s)

end Parse

def parseTokens (tokens : List Token) : Program × List Diagnostic :=
  let (program, s) := Parse.program tokens
  (program, s.report.toList)

def parse (src : String) : Program × List Diagnostic :=
  parseTokens (tokenize src)

end Scriptlet
