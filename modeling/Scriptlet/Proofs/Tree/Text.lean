import Mathlib.Data.List.Forall2
import Scriptlet.Proofs.Tree
import Scriptlet.Tree.Printer

/-!
# Trees and their texts

How deep the text of a tree is, and which trees have the same text. Two things are lost in the text:
a string literal is written without escapes, and a test is written without parentheses of its own,
so it needs those of an operator or an index.

- `Expr.textDepth` : how many expressions lie inside each other in the text of an expression
- `Expr.isPlain`, `Expr.isGuarded` : literals and tests whose text can be read
- `Program.SameTree` : programs that differ in their tokens alone
- `Expr.Alike`, `Stmt.Alike` : trees that differ in their tokens alone, and not in their text
-/

namespace Scriptlet

/-! ## Texts that can be read -/

mutual

/-- How many expressions lie inside each other in the text of an expression. Operators and indices
have parentheses around them, which the tests of conditionals and loops share with these. -/
def Expr.textDepth : Expr → Nat
  | .ident _ | .int .. | .str .. | .bool .. | .bad _ | .missing => 1
  | .unary _ _ operand => operand.textDepth + 2
  | .binary _ _ left right => max (left.textDepth + 1) (right.textDepth + 2)
  | .ifThen _ test yes => max test.textDepth (yes.textDepth + 1)
  | .ifElse _ test yes no => max test.textDepth (max yes.textDepth no.textDepth + 1)
  | .whileDo _ test body => max test.textDepth (body.textDepth + 1)
  | .function _ _ body => body.textDepth + 1
  | .call _ callee args => max callee.textDepth (exprsTextDepth args + 1)
  | .array _ items => exprsTextDepth items + 1
  | .hash _ pairs => pairsTextDepth pairs + 1
  | .index _ target key => max (target.textDepth + 1) (key.textDepth + 2)

def Stmt.textDepth : Stmt → Nat
  | .define _ _ value | .returnValue _ value | .expr _ value => value.textDepth
  | .returnNothing _ | .breakLoop _ => 0
  | .block body => body.textDepth

def Block.textDepth : Block → Nat
  | .mk _ stmts => stmtsTextDepth stmts

def stmtsTextDepth : List Stmt → Nat
  | [] => 0
  | stmt :: rest => max stmt.textDepth (stmtsTextDepth rest)

def exprsTextDepth : List Expr → Nat
  | [] => 0
  | expr :: rest => max expr.textDepth (exprsTextDepth rest)

def pairsTextDepth : List (Expr × Expr) → Nat
  | [] => 0
  | pair :: rest => max (pairTextDepth pair) (pairsTextDepth rest)

def pairTextDepth : Expr × Expr → Nat
  | (key, value) => max key.textDepth value.textDepth

end

namespace Expr

/-- Whether an expression is no string literal with a quote or a backslash in it. -/
def isPlain : Expr → Bool
  | .str _ text => text.toList.all fun c => c != '"' && c != '\\'
  | _ => true

def isEnclosed : Expr → Bool
  | .unary .. | .binary .. | .index .. => true
  | _ => false

/-- Whether an expression is no conditional or loop whose test lacks parentheses in its text. -/
def isGuarded : Expr → Bool
  | .ifThen _ test _ | .ifElse _ test _ _ | .whileDo _ test _ => test.isEnclosed
  | _ => true

end Expr

/-! ## Trees with other tokens and the same text -/

def Token.forget (_ : Token) : Token :=
  ⟨.eof, "", .start⟩

/-- Programs that differ only in the tokens that their nodes keep. -/
def Program.SameTree (program program' : Program) : Prop :=
  program.mapTokens Token.forget = program'.mapTokens Token.forget

/-- Expressions that differ in their tokens alone, and not in their text. -/
structure Expr.Alike (e e' : Expr) : Prop where
  tree : e.SameTree e'
  text : e.render = e'.render

/-- Statements that differ in their tokens alone, and not in their text. -/
structure Stmt.Alike (st st' : Stmt) : Prop where
  tree : st.mapTokens Token.forget = st'.mapTokens Token.forget
  text : st.render = st'.render

/-- Pairs of expressions that differ in their tokens alone. -/
structure PairAlike (pair pair' : Expr × Expr) : Prop where
  key : pair.1.Alike pair'.1
  value : pair.2.Alike pair'.2

section Lists

variable {es es' : List Expr} {pairs pairs' : List (Expr × Expr)} {sts sts' : List Stmt}

theorem exprs_alike (h : List.Forall₂ Expr.Alike es es') :
    mapTokensExprs Token.forget es = mapTokensExprs Token.forget es' ∧
      renderExprs es = renderExprs es' := by
  induction h with
  | nil => exact ⟨rfl, rfl⟩
  | cons first _ ih =>
      refine ⟨?_, ?_⟩
      · rw [mapTokensExprs, mapTokensExprs, ih.1]
        exact congrArg (· :: _) first.tree
      · rw [renderExprs, renderExprs, first.text, ih.2]

theorem pairs_alike (h : List.Forall₂ PairAlike pairs pairs') :
    mapTokensPairs Token.forget pairs = mapTokensPairs Token.forget pairs' ∧
      renderPairs pairs = renderPairs pairs' := by
  induction h with
  | nil => exact ⟨rfl, rfl⟩
  | @cons pair pair' _ _ first _ ih =>
      rcases pair with ⟨k, v⟩
      rcases pair' with ⟨k', v'⟩
      refine ⟨?_, ?_⟩
      · rw [mapTokensPairs, mapTokensPairs, ih.1]
        exact congrArg (· :: _) (Prod.ext first.key.tree first.value.tree)
      · rw [renderPairs, renderPairs, renderPair, renderPair, first.key.text, first.value.text, ih.2]

theorem stmts_alike (h : List.Forall₂ Stmt.Alike sts sts') :
    mapTokensStmts Token.forget sts = mapTokensStmts Token.forget sts' ∧
      renderStmts sts = renderStmts sts' := by
  induction h with
  | nil => exact ⟨rfl, rfl⟩
  | cons first _ ih =>
      refine ⟨?_, ?_⟩
      · rw [mapTokensStmts, mapTokensStmts, ih.1, first.tree]
      · rw [renderStmts, renderStmts, first.text, ih.2]

end Lists

namespace Expr.Alike

variable {e e' left left' right right' : Expr} (t t' : Token)

theorem unary (op : UnaryOp) (h : e'.Alike e) : (Expr.unary t' op e').Alike (.unary t op e) :=
  ⟨congrArg (Expr.unary _ op) h.tree, by rw [Expr.render, Expr.render, h.text]⟩

theorem binary (op : BinaryOp) (hl : left'.Alike left) (hr : right'.Alike right) :
    (Expr.binary t' op left' right').Alike (.binary t op left right) :=
  ⟨congrArg₂ (Expr.binary _ op) hl.tree hr.tree, by rw [Expr.render, Expr.render, hl.text, hr.text]⟩

theorem index (hl : left'.Alike left) (hr : right'.Alike right) :
    (Expr.index t' left' right').Alike (.index t left right) :=
  ⟨congrArg₂ (Expr.index _) hl.tree hr.tree, by rw [Expr.render, Expr.render, hl.text, hr.text]⟩

theorem call {args args' : List Expr} (h : e'.Alike e)
    (hargs : List.Forall₂ Expr.Alike args' args) :
    (Expr.call t' e' args').Alike (.call t e args) := by
  have hlist := exprs_alike hargs
  exact ⟨congrArg₂ (Expr.call _) h.tree hlist.1,
    by rw [Expr.render, Expr.render, h.text, hlist.2]⟩

theorem array {items items' : List Expr} (h : List.Forall₂ Expr.Alike items' items) :
    (Expr.array t' items').Alike (.array t items) := by
  have hlist := exprs_alike h
  exact ⟨congrArg (Expr.array _) hlist.1, by rw [Expr.render, Expr.render, hlist.2]⟩

theorem hash {pairs pairs' : List (Expr × Expr)} (h : List.Forall₂ PairAlike pairs' pairs) :
    (Expr.hash t' pairs').Alike (.hash t pairs) := by
  have hlist := pairs_alike h
  exact ⟨congrArg (Expr.hash _) hlist.1, by rw [Expr.render, Expr.render, hlist.2]⟩

end Expr.Alike

/-- Blocks that differ in their tokens alone, and not in their text. -/
structure Block.Alike (b b' : Block) : Prop where
  tree : b.mapTokens Token.forget = b'.mapTokens Token.forget
  text : b.render = b'.render

theorem Block.alike_mk {sts sts' : List Stmt} (t t' : Token)
    (h : List.Forall₂ Stmt.Alike sts' sts) : (Block.mk t' sts').Alike (.mk t sts) := by
  have hlist := stmts_alike h
  exact ⟨congrArg (Block.mk _) hlist.1, by rw [Block.render, Block.render, hlist.2]⟩

namespace Expr.Alike

variable {e e' : Expr} {yes yes' no no' : Block} (t t' : Token)

theorem ifThen (h : e'.Alike e) (hyes : yes'.Alike yes) :
    (Expr.ifThen t' e' yes').Alike (.ifThen t e yes) :=
  ⟨congrArg₂ (Expr.ifThen _) h.tree hyes.tree,
    by rw [Expr.render, Expr.render, h.text, hyes.text]⟩

theorem ifElse (h : e'.Alike e) (hyes : yes'.Alike yes) (hno : no'.Alike no) :
    (Expr.ifElse t' e' yes' no').Alike (.ifElse t e yes no) := by
  have htree := congr (congrArg₂ (Expr.ifElse (Token.forget t)) h.tree hyes.tree) hno.tree
  exact ⟨htree, by rw [Expr.render, Expr.render, h.text, hyes.text, hno.text]⟩

theorem whileDo (h : e'.Alike e) (hyes : yes'.Alike yes) :
    (Expr.whileDo t' e' yes').Alike (.whileDo t e yes) :=
  ⟨congrArg₂ (Expr.whileDo _) h.tree hyes.tree,
    by rw [Expr.render, Expr.render, h.text, hyes.text]⟩

theorem function {params params' : List Ident} (text : t'.text = t.text)
    (names : params'.map Ident.name = params.map Ident.name) (h : yes'.Alike yes) :
    (Expr.function t' params' yes').Alike (.function t params yes) := by
  -- Without its token a parameter is its name.
  have hparams (ids : List Ident) : ids.map (Ident.mapToken Token.forget) =
      (ids.map Ident.name).map fun name => ⟨⟨.eof, "", .start⟩, name⟩ := by
    rw [List.map_map]
    rfl
  refine ⟨?_, ?_⟩
  · refine congrArg₂ (Expr.function _) ?_ h.tree
    calc params'.map (Ident.mapToken Token.forget)
        = (params'.map Ident.name).map _ := hparams params'
      _ = (params.map Ident.name).map _ := by rw [names]
      _ = params.map (Ident.mapToken Token.forget) := (hparams params).symm
  · rw [Expr.render, Expr.render, renderParams, renderParams, names, text, h.text]

end Expr.Alike

end Scriptlet
