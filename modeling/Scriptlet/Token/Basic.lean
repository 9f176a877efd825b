/-!
# Tokens

- `Pos` : a place in a source text
- `Token.Kind` : what sort of word a token is, with its name in messages
- `Token` : a kind, the text it carries and where it starts
-/

namespace Scriptlet

/-! ## Places -/

/-- A place in a source text. Rows and columns count from one, columns in characters. -/
structure Pos where
  row : Nat
  col : Nat
  deriving DecidableEq, Repr

namespace Pos

def start : Pos := ⟨1, 1⟩

def after (pos : Pos) (c : Char) : Pos :=
  if c = '\n' then ⟨pos.row + 1, 1⟩ else ⟨pos.row, pos.col + 1⟩

def afterAll (pos : Pos) (cs : List Char) : Pos :=
  cs.foldl after pos

end Pos

/-! ## Kinds -/

/-- The sorts of tokens. The last three are a character outside the language, a quoted text without
its closing quote, and the end of the source. -/
inductive Token.Kind
  | letKw
  | fnKw
  | whileKw
  | breakKw
  | ifKw
  | elseKw
  | returnKw
  | trueKw
  | falseKw
  | openBrace
  | closeBrace
  | openBracket
  | closeBracket
  | openParen
  | closeParen
  | colon
  | semicolon
  | comma
  | minus
  | plus
  | star
  | slash
  | equal
  | notEqual
  | greater
  | less
  | greaterEqual
  | lessEqual
  | assign
  | bang
  | ident
  | int
  | str
  | illegal
  | unterminated
  | eof
  deriving DecidableEq, Repr

namespace Token.Kind

/-- The name of a kind in messages. Keywords and punctuation are named by their spelling. -/
def name : Kind → String
  | .letKw => "let"
  | .fnKw => "fn"
  | .whileKw => "while"
  | .breakKw => "break"
  | .ifKw => "if"
  | .elseKw => "else"
  | .returnKw => "return"
  | .trueKw => "true"
  | .falseKw => "false"
  | .openBrace => "\x7b"
  | .closeBrace => "\x7d"
  | .openBracket => "["
  | .closeBracket => "]"
  | .openParen => "("
  | .closeParen => ")"
  | .colon => ":"
  | .semicolon => ";"
  | .comma => ","
  | .minus => "-"
  | .plus => "+"
  | .star => "*"
  | .slash => "/"
  | .equal => "=="
  | .notEqual => "!="
  | .greater => ">"
  | .less => "<"
  | .greaterEqual => ">="
  | .lessEqual => "<="
  | .assign => "="
  | .bang => "!"
  | .ident => "identifier"
  | .int => "int"
  | .str => "string"
  | .illegal => "error"
  | .unterminated => "error"
  | .eof => "end of file"

/-- Tokens of these kinds carry the message of a lexical error as their text. -/
def isError : Kind → Bool
  | .illegal | .unterminated => true
  | _ => false

def keywords : List (String × Kind) := [
  ("let", .letKw), ("if", .ifKw), ("else", .elseKw), ("fn", .fnKw), ("while", .whileKw),
  ("return", .returnKw), ("break", .breakKw), ("true", .trueKw), ("false", .falseKw)]

def ofWord (word : String) : Kind :=
  (keywords.lookup word).getD .ident

/-- The punctuation that never begins a longer token. -/
def ofSingle? : Char → Option Kind
  | '\x7b' => some .openBrace
  | '\x7d' => some .closeBrace
  | '[' => some .openBracket
  | ']' => some .closeBracket
  | '(' => some .openParen
  | ')' => some .closeParen
  | ':' => some .colon
  | ';' => some .semicolon
  | ',' => some .comma
  | '+' => some .plus
  | '-' => some .minus
  | '*' => some .star
  | '/' => some .slash
  | _ => none

/-- The punctuation that takes up an equals sign directly behind it: the kind alone and the kind
with the sign. -/
def ofEquality? : Char → Option (Kind × Kind)
  | '=' => some (.assign, .equal)
  | '!' => some (.bang, .notEqual)
  | '<' => some (.less, .lessEqual)
  | '>' => some (.greater, .greaterEqual)
  | _ => none

end Token.Kind

/-! ## Tokens -/

/-- A token: for a quoted text the text is the decoded one, for a lexical error its message. -/
structure Token where
  kind : Token.Kind
  text : String
  pos : Pos
  deriving DecidableEq, Repr

end Scriptlet
