import Scriptlet.Token.Cursor

/-!
# Inputs that need more lines

An input goes on in the next line while brackets are open in it or a quoted text is not closed.
-/

namespace Scriptlet
namespace Repl

def bracketWeight : Token.Kind → Int
  | .openParen | .openBracket | .openBrace => 1
  | .closeParen | .closeBracket | .closeBrace => -1
  | _ => 0

/-- The number of open brackets less the number of closed ones. -/
def openBrackets (tokens : List Token) : Int :=
  tokens.foldl (fun depth token => depth + bracketWeight token.kind) 0

def hasOpenText (tokens : List Token) : Bool :=
  tokens.any fun token => token.kind == .unterminated

/-- Whether an input needs more lines. -/
def incomplete (src : String) : Bool :=
  let tokens := tokenize src
  hasOpenText tokens || decide (0 < openBrackets tokens)

end Repl
end Scriptlet
