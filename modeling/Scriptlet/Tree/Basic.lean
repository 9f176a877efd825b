import Scriptlet.Token.Basic

/-!
# Program trees

A program is a list of statements; statements hold expressions, and expressions hold blocks of
statements. Every node keeps the token it started from.

- `UnaryOp`, `BinaryOp` : operators
- `Expr`, `Stmt`, `Block` : the nodes
- `Program` : the statements of a source text
-/

namespace Scriptlet

/-! ## Operators -/

/-- An operator in front of its operand. A tree may also carry a symbol that the language gives no
meaning. -/
inductive UnaryOp
  | not
  | neg
  | pos
  | other (symbol : String)
  deriving DecidableEq, Repr

namespace UnaryOp

def symbol : UnaryOp → String
  | .not => "!"
  | .neg => "-"
  | .pos => "+"
  | .other symbol => symbol

def ofSymbol : String → UnaryOp
  | "!" => .not
  | "-" => .neg
  | "+" => .pos
  | symbol => .other symbol

def ofKind? : Token.Kind → Option UnaryOp
  | .bang => some .not
  | .minus => some .neg
  | .plus => some .pos
  | _ => none

end UnaryOp

/-- An operator between its operands. A tree may also carry a symbol that the language gives no
meaning. -/
inductive BinaryOp
  | add
  | sub
  | mul
  | div
  | eq
  | ne
  | lt
  | le
  | gt
  | ge
  | other (symbol : String)
  deriving DecidableEq, Repr

namespace BinaryOp

def symbol : BinaryOp → String
  | .add => "+"
  | .sub => "-"
  | .mul => "*"
  | .div => "/"
  | .eq => "=="
  | .ne => "!="
  | .lt => "<"
  | .le => "<="
  | .gt => ">"
  | .ge => ">="
  | .other symbol => symbol

def ofSymbol : String → BinaryOp
  | "+" => .add
  | "-" => .sub
  | "*" => .mul
  | "/" => .div
  | "==" => .eq
  | "!=" => .ne
  | "<" => .lt
  | "<=" => .le
  | ">" => .gt
  | ">=" => .ge
  | symbol => .other symbol

def ofKind? : Token.Kind → Option BinaryOp
  | .plus => some .add
  | .minus => some .sub
  | .star => some .mul
  | .slash => some .div
  | .equal => some .eq
  | .notEqual => some .ne
  | .less => some .lt
  | .lessEqual => some .le
  | .greater => some .gt
  | .greaterEqual => some .ge
  | _ => none

end BinaryOp

/-! ## Nodes -/

structure Ident where
  token : Token
  name : String

mutual

/-- Expressions. `bad` stands where the source had no expression, at the token where reading
stopped; `missing` stands where a tree has no expression at all. -/
inductive Expr
  | ident (id : Ident)
  | int (token : Token) (value : Int64)
  | str (token : Token) (value : String)
  | bool (token : Token) (value : Bool)
  | bad (token : Token)
  | missing
  | unary (token : Token) (op : UnaryOp) (operand : Expr)
  | binary (token : Token) (op : BinaryOp) (left right : Expr)
  | ifThen (token : Token) (test : Expr) (yes : Block)
  | ifElse (token : Token) (test : Expr) (yes no : Block)
  | whileDo (token : Token) (test : Expr) (body : Block)
  | function (token : Token) (params : List Ident) (body : Block)
  | call (token : Token) (callee : Expr) (args : List Expr)
  | array (token : Token) (items : List Expr)
  | hash (token : Token) (pairs : List (Expr × Expr))
  | index (token : Token) (target key : Expr)

inductive Stmt
  | define (token : Token) (name : Ident) (value : Expr)
  | returnNothing (token : Token)
  | returnValue (token : Token) (value : Expr)
  | breakLoop (token : Token)
  | expr (token : Token) (value : Expr)
  | block (body : Block)

inductive Block
  | mk (token : Token) (stmts : List Stmt)

end

structure Program where
  stmts : List Stmt

instance : Inhabited Expr := ⟨.missing⟩

instance : Inhabited Block := ⟨.mk ⟨.openBrace, "\x7b", .start⟩ []⟩

instance : Inhabited Stmt := ⟨.block default⟩

namespace Block

def token : Block → Token
  | .mk token _ => token

def stmts : Block → List Stmt
  | .mk _ stmts => stmts

end Block

def Expr.token? : Expr → Option Token
  | .ident id => some id.token
  | .int token _ | .str token _ | .bool token _ | .bad token => some token
  | .missing => none
  | .unary token .. | .binary token .. | .ifThen token .. | .ifElse token .. => some token
  | .whileDo token .. | .function token .. | .call token .. | .array token .. => some token
  | .hash token .. | .index token .. => some token

def Stmt.token : Stmt → Token
  | .define token .. | .returnNothing token | .returnValue token .. => token
  | .breakLoop token | .expr token .. => token
  | .block body => body.token

namespace Program

def token? (program : Program) : Option Token :=
  program.stmts.head?.map Stmt.token

def literal (program : Program) : String :=
  (program.token?.map Token.text).getD ""

end Program

end Scriptlet
