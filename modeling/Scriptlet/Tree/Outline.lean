import Scriptlet.Tree.Basic

/-!
# The outline of a tree

The outline lists the nodes of a tree in preorder, each with its depth.

- `OutlineRow` : one node
- `Program.outline` : all nodes of a program
-/

namespace Scriptlet

/-- One node of an outline: how deep it stands, what it is, what it holds itself and its token. A
place without an expression has no token. -/
structure OutlineRow where
  depth : Nat
  label : String
  value : String
  token? : Option Token

namespace Outline

def identRow (depth : Nat) (id : Ident) : OutlineRow :=
  ⟨depth, "Ident", id.name, some id.token⟩

mutual

def ofExpr (depth : Nat) (tail : List OutlineRow) : Expr → List OutlineRow
  | .ident id => identRow depth id :: tail
  | .int token value => ⟨depth, "Int", value.toInt.repr, some token⟩ :: tail
  | .str token value => ⟨depth, "Str", value, some token⟩ :: tail
  | .bool token value => ⟨depth, "Bool", cond value "true" "false", some token⟩ :: tail
  | .bad token => ⟨depth, "Bad", "", some token⟩ :: tail
  | .missing => ⟨depth, "Missing", "", none⟩ :: tail
  | .unary token op operand =>
    ⟨depth, "Prefix", op.symbol, some token⟩ :: ofExpr (depth + 1) tail operand
  | .binary token op left right =>
    ⟨depth, "Infix", op.symbol, some token⟩ ::
      ofExpr (depth + 1) (ofExpr (depth + 1) tail right) left
  | .ifThen token test yes =>
    ⟨depth, "If", "", some token⟩ ::
      ofExpr (depth + 1) (ofBlock (depth + 1) tail yes) test
  | .ifElse token test yes no =>
    ⟨depth, "If", "", some token⟩ ::
      ofExpr (depth + 1) (ofBlock (depth + 1) (ofBlock (depth + 1) tail no) yes) test
  | .whileDo token test body =>
    ⟨depth, "While", "", some token⟩ ::
      ofExpr (depth + 1) (ofBlock (depth + 1) tail body) test
  | .function token params body =>
    ⟨depth, "Fn", "", some token⟩ ::
      (params.map (identRow (depth + 1)) ++ ofBlock (depth + 1) tail body)
  | .call token callee args =>
    ⟨depth, "Call", "", some token⟩ ::
      ofExpr (depth + 1) (ofExprs (depth + 1) tail args) callee
  | .array token items => ⟨depth, "Array", "", some token⟩ :: ofExprs (depth + 1) tail items
  | .hash token pairs => ⟨depth, "Hash", "", some token⟩ :: ofPairs (depth + 1) tail pairs
  | .index token target key =>
    ⟨depth, "Index", "", some token⟩ ::
      ofExpr (depth + 1) (ofExpr (depth + 1) tail key) target

def ofStmt (depth : Nat) (tail : List OutlineRow) : Stmt → List OutlineRow
  | .define token name value =>
    ⟨depth, "Let", "", some token⟩ :: identRow (depth + 1) name :: ofExpr (depth + 1) tail value
  | .returnNothing token => ⟨depth, "Return", "", some token⟩ :: tail
  | .returnValue token value =>
    ⟨depth, "Return", "", some token⟩ :: ofExpr (depth + 1) tail value
  | .breakLoop token => ⟨depth, "Break", "", some token⟩ :: tail
  | .expr token value => ⟨depth, "ExprStmt", "", some token⟩ :: ofExpr (depth + 1) tail value
  | .block body => ofBlock depth tail body

def ofBlock (depth : Nat) (tail : List OutlineRow) : Block → List OutlineRow
  | .mk token stmts => ⟨depth, "Block", "", some token⟩ :: ofStmts (depth + 1) tail stmts

def ofStmts (depth : Nat) (tail : List OutlineRow) : List Stmt → List OutlineRow
  | [] => tail
  | stmt :: rest => ofStmt depth (ofStmts depth tail rest) stmt

def ofExprs (depth : Nat) (tail : List OutlineRow) : List Expr → List OutlineRow
  | [] => tail
  | expr :: rest => ofExpr depth (ofExprs depth tail rest) expr

def ofPairs (depth : Nat) (tail : List OutlineRow) : List (Expr × Expr) → List OutlineRow
  | [] => tail
  | pair :: rest => ofPair depth (ofPairs depth tail rest) pair

def ofPair (depth : Nat) (tail : List OutlineRow) : Expr × Expr → List OutlineRow
  | (key, value) => ofExpr depth (ofExpr depth tail value) key

end

end Outline

def Program.outline (program : Program) : List OutlineRow :=
  Outline.ofStmts 0 [] program.stmts

end Scriptlet
