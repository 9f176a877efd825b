import Scriptlet.Tree.Basic

/-!
# The text of a tree

Operators are written with parentheses around them, statements with semicolons between them.

- `Expr.render`, `Stmt.render`, `Block.render` : the text of a node
- `Program.render` : the text of a program
-/

namespace Scriptlet

def renderParams (params : List Ident) : String :=
  ", ".intercalate (params.map Ident.name)

mutual

/-- The text of an expression. A string literal stands between quotes as it is, without escapes. -/
def Expr.render : Expr → String
  | .ident id => id.name
  | .int token _ => token.text
  | .str _ value => "\"" ++ value ++ "\""
  | .bool token _ => token.text
  | .bad _ => "<bad expression>"
  | .missing => ""
  | .unary _ op operand => "(" ++ op.symbol ++ operand.render ++ ")"
  | .binary _ op left right =>
    "(" ++ left.render ++ " " ++ op.symbol ++ " " ++ right.render ++ ")"
  | .ifThen _ test yes => "if " ++ test.render ++ " " ++ yes.render
  | .ifElse _ test yes no => "if " ++ test.render ++ " " ++ yes.render ++ " else " ++ no.render
  | .whileDo _ test body => "while " ++ test.render ++ " " ++ body.render
  | .function token params body =>
    token.text ++ "(" ++ renderParams params ++ ") " ++ body.render
  | .call _ callee args => callee.render ++ "(" ++ ", ".intercalate (renderExprs args) ++ ")"
  | .array _ items => "[" ++ ", ".intercalate (renderExprs items) ++ "]"
  | .hash _ pairs => "\x7b" ++ ", ".intercalate (renderPairs pairs) ++ "\x7d"
  | .index _ target key => "(" ++ target.render ++ "[" ++ key.render ++ "])"

def Stmt.render : Stmt → String
  | .define token name value => token.text ++ " " ++ name.name ++ " = " ++ value.render
  | .returnNothing token => token.text
  | .returnValue token value => token.text ++ " " ++ value.render
  | .breakLoop token => token.text
  | .expr _ value => value.render
  | .block body => body.render

def Block.render : Block → String
  | .mk _ stmts => "\x7b " ++ "; ".intercalate (renderStmts stmts) ++ " \x7d"

def renderStmts : List Stmt → List String
  | [] => []
  | stmt :: rest => stmt.render :: renderStmts rest

def renderExprs : List Expr → List String
  | [] => []
  | expr :: rest => expr.render :: renderExprs rest

def renderPairs : List (Expr × Expr) → List String
  | [] => []
  | pair :: rest => renderPair pair :: renderPairs rest

def renderPair : Expr × Expr → String
  | (key, value) => key.render ++ ": " ++ value.render

end

def Program.render (program : Program) : String :=
  "; ".intercalate (renderStmts program.stmts)

end Scriptlet
