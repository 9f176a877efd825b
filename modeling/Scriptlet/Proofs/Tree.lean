import Scriptlet.Tree.Basic

/-!
# Trees as a whole

- `Expr.mapTokens`, `Stmt.mapTokens` : a tree with other tokens at its nodes
- `Expr.mapTokens_id`, `Expr.mapTokens_mapTokens` : with the same tokens, and with other ones twice
- `Expr.SameTree` : trees that differ only in the tokens that their nodes keep
- `Expr.hasBad`, `Stmt.hasBad` : whether some part of a tree stands for something that could not be
  read
- `Expr.inner`, `Stmt.exprs` : all expressions in a tree
-/

namespace Scriptlet

/-! ## Tokens at the nodes -/

def Ident.mapToken (f : Token → Token) (id : Ident) : Ident :=
  ⟨f id.token, id.name⟩

mutual

def Expr.mapTokens (f : Token → Token) : Expr → Expr
  | .ident id => .ident (id.mapToken f)
  | .int token value => .int (f token) value
  | .str token value => .str (f token) value
  | .bool token value => .bool (f token) value
  | .bad token => .bad (f token)
  | .missing => .missing
  | .unary token op operand => .unary (f token) op (operand.mapTokens f)
  | .binary token op left right => .binary (f token) op (left.mapTokens f) (right.mapTokens f)
  | .ifThen token test yes => .ifThen (f token) (test.mapTokens f) (yes.mapTokens f)
  | .ifElse token test yes no =>
    .ifElse (f token) (test.mapTokens f) (yes.mapTokens f) (no.mapTokens f)
  | .whileDo token test body => .whileDo (f token) (test.mapTokens f) (body.mapTokens f)
  | .function token params body =>
    .function (f token) (params.map (Ident.mapToken f)) (body.mapTokens f)
  | .call token callee args => .call (f token) (callee.mapTokens f) (mapTokensExprs f args)
  | .array token items => .array (f token) (mapTokensExprs f items)
  | .hash token pairs => .hash (f token) (mapTokensPairs f pairs)
  | .index token target key => .index (f token) (target.mapTokens f) (key.mapTokens f)

def Stmt.mapTokens (f : Token → Token) : Stmt → Stmt
  | .define token name value => .define (f token) (name.mapToken f) (value.mapTokens f)
  | .returnNothing token => .returnNothing (f token)
  | .returnValue token value => .returnValue (f token) (value.mapTokens f)
  | .breakLoop token => .breakLoop (f token)
  | .expr token value => .expr (f token) (value.mapTokens f)
  | .block body => .block (body.mapTokens f)

def Block.mapTokens (f : Token → Token) : Block → Block
  | .mk token stmts => .mk (f token) (mapTokensStmts f stmts)

def mapTokensStmts (f : Token → Token) : List Stmt → List Stmt
  | [] => []
  | stmt :: rest => stmt.mapTokens f :: mapTokensStmts f rest

def mapTokensExprs (f : Token → Token) : List Expr → List Expr
  | [] => []
  | expr :: rest => expr.mapTokens f :: mapTokensExprs f rest

def mapTokensPairs (f : Token → Token) : List (Expr × Expr) → List (Expr × Expr)
  | [] => []
  | pair :: rest => mapTokensPair f pair :: mapTokensPairs f rest

def mapTokensPair (f : Token → Token) : Expr × Expr → Expr × Expr
  | (key, value) => (key.mapTokens f, value.mapTokens f)

end

def Program.mapTokens (f : Token → Token) (program : Program) : Program :=
  ⟨mapTokensStmts f program.stmts⟩

mutual

theorem Expr.mapTokens_id : ∀ e : Expr, e.mapTokens id = e
  | .ident _ | .int .. | .str .. | .bool .. | .bad _ | .missing => rfl
  | .unary _ _ operand => by simp [Expr.mapTokens, operand.mapTokens_id]
  | .binary _ _ left right => by simp [Expr.mapTokens, left.mapTokens_id, right.mapTokens_id]
  | .ifThen _ test yes => by simp [Expr.mapTokens, test.mapTokens_id, yes.mapTokens_id]
  | .ifElse _ test yes no => by
      simp [Expr.mapTokens, test.mapTokens_id, yes.mapTokens_id, no.mapTokens_id]
  | .whileDo _ test body => by simp [Expr.mapTokens, test.mapTokens_id, body.mapTokens_id]
  | .function _ params body => by
      have hparams : params.map (Ident.mapToken id) = params := List.map_id params
      simp [Expr.mapTokens, hparams, body.mapTokens_id]
  | .call _ callee args => by simp [Expr.mapTokens, callee.mapTokens_id, mapTokensExprs_id args]
  | .array _ items => by simp [Expr.mapTokens, mapTokensExprs_id items]
  | .hash _ pairs => by simp [Expr.mapTokens, mapTokensPairs_id pairs]
  | .index _ target key => by simp [Expr.mapTokens, target.mapTokens_id, key.mapTokens_id]

theorem Stmt.mapTokens_id : ∀ st : Stmt, st.mapTokens id = st
  | .define _ _ value => by simp [Stmt.mapTokens, Ident.mapToken, value.mapTokens_id]
  | .returnNothing _ | .breakLoop _ => rfl
  | .returnValue _ value => by simp [Stmt.mapTokens, value.mapTokens_id]
  | .expr _ value => by simp [Stmt.mapTokens, value.mapTokens_id]
  | .block body => by simp [Stmt.mapTokens, body.mapTokens_id]

theorem Block.mapTokens_id : ∀ b : Block, b.mapTokens id = b
  | .mk _ stmts => by simp [Block.mapTokens, mapTokensStmts_id stmts]

theorem mapTokensStmts_id : ∀ sts : List Stmt, mapTokensStmts id sts = sts
  | [] => rfl
  | st :: rest => by simp [mapTokensStmts, st.mapTokens_id, mapTokensStmts_id rest]

theorem mapTokensExprs_id : ∀ es : List Expr, mapTokensExprs id es = es
  | [] => rfl
  | e :: rest => by simp [mapTokensExprs, e.mapTokens_id, mapTokensExprs_id rest]

theorem mapTokensPairs_id : ∀ pairs : List (Expr × Expr), mapTokensPairs id pairs = pairs
  | [] => rfl
  | (key, value) :: rest => by
      simp [mapTokensPairs, mapTokensPair, key.mapTokens_id, value.mapTokens_id,
        mapTokensPairs_id rest]

end

section Twice

variable (f h : Token → Token)

theorem mapToken_params (params : List Ident) :
    (params.map (Ident.mapToken h)).map (Ident.mapToken f) =
      params.map (Ident.mapToken (f ∘ h)) :=
  List.map_map

mutual

/-- Replacing tokens twice is replacing them once. -/
theorem Expr.mapTokens_mapTokens :
    ∀ e : Expr, (e.mapTokens h).mapTokens f = e.mapTokens (f ∘ h)
  | .ident _ | .int .. | .str .. | .bool .. | .bad _ | .missing => rfl
  | .unary _ _ operand => by simp [Expr.mapTokens, operand.mapTokens_mapTokens]
  | .binary _ _ left right => by
      simp [Expr.mapTokens, left.mapTokens_mapTokens, right.mapTokens_mapTokens]
  | .ifThen _ test yes => by
      simp [Expr.mapTokens, test.mapTokens_mapTokens, yes.mapTokens_mapTokens]
  | .ifElse _ test yes no => by
      simp [Expr.mapTokens, test.mapTokens_mapTokens, yes.mapTokens_mapTokens,
        no.mapTokens_mapTokens]
  | .whileDo _ test body => by
      simp [Expr.mapTokens, test.mapTokens_mapTokens, body.mapTokens_mapTokens]
  | .function _ params body => by
      rw [Expr.mapTokens, Expr.mapTokens, mapToken_params, body.mapTokens_mapTokens]
      rfl
  | .call _ callee args => by
      simp [Expr.mapTokens, callee.mapTokens_mapTokens, mapTokensExprs_mapTokensExprs args]
  | .array _ items => by simp [Expr.mapTokens, mapTokensExprs_mapTokensExprs items]
  | .hash _ pairs => by simp [Expr.mapTokens, mapTokensPairs_mapTokensPairs pairs]
  | .index _ target key => by
      simp [Expr.mapTokens, target.mapTokens_mapTokens, key.mapTokens_mapTokens]

theorem Stmt.mapTokens_mapTokens :
    ∀ st : Stmt, (st.mapTokens h).mapTokens f = st.mapTokens (f ∘ h)
  | .define _ _ value => by simp [Stmt.mapTokens, Ident.mapToken, value.mapTokens_mapTokens]
  | .returnNothing _ | .breakLoop _ => rfl
  | .returnValue _ value => by simp [Stmt.mapTokens, value.mapTokens_mapTokens]
  | .expr _ value => by simp [Stmt.mapTokens, value.mapTokens_mapTokens]
  | .block body => by simp [Stmt.mapTokens, body.mapTokens_mapTokens]

theorem Block.mapTokens_mapTokens :
    ∀ b : Block, (b.mapTokens h).mapTokens f = b.mapTokens (f ∘ h)
  | .mk _ stmts => by simp [Block.mapTokens, mapTokensStmts_mapTokensStmts stmts]

theorem mapTokensStmts_mapTokensStmts :
    ∀ sts : List Stmt, mapTokensStmts f (mapTokensStmts h sts) = mapTokensStmts (f ∘ h) sts
  | [] => rfl
  | st :: rest => by
      simp [mapTokensStmts, st.mapTokens_mapTokens, mapTokensStmts_mapTokensStmts rest]

theorem mapTokensExprs_mapTokensExprs :
    ∀ es : List Expr, mapTokensExprs f (mapTokensExprs h es) = mapTokensExprs (f ∘ h) es
  | [] => rfl
  | e :: rest => by
      simp [mapTokensExprs, e.mapTokens_mapTokens, mapTokensExprs_mapTokensExprs rest]

theorem mapTokensPairs_mapTokensPairs :
    ∀ pairs : List (Expr × Expr),
      mapTokensPairs f (mapTokensPairs h pairs) = mapTokensPairs (f ∘ h) pairs
  | [] => rfl
  | (key, value) :: rest => by
      simp [mapTokensPairs, mapTokensPair, key.mapTokens_mapTokens, value.mapTokens_mapTokens,
        mapTokensPairs_mapTokensPairs rest]

end

theorem mapTokensStmts_eq_map (sts : List Stmt) :
    mapTokensStmts f sts = sts.map (Stmt.mapTokens f) := by
  induction sts with
  | nil => rfl
  | cons st rest ih => rw [mapTokensStmts, List.map_cons, ih]

theorem mapTokensExprs_eq_map (es : List Expr) :
    mapTokensExprs f es = es.map (Expr.mapTokens f) := by
  induction es with
  | nil => rfl
  | cons e rest ih => rw [mapTokensExprs, List.map_cons, ih]

theorem mapTokensPairs_eq_map (pairs : List (Expr × Expr)) :
    mapTokensPairs f pairs = pairs.map (mapTokensPair f) := by
  induction pairs with
  | nil => rfl
  | cons pair rest ih => rw [mapTokensPairs, List.map_cons, ih]

theorem mapTokensStmts_append (sts sts' : List Stmt) :
    mapTokensStmts f (sts ++ sts') = mapTokensStmts f sts ++ mapTokensStmts f sts' := by
  simp only [mapTokensStmts_eq_map, List.map_append]

end Twice

def Expr.forgetTokens (e : Expr) : Expr :=
  e.mapTokens fun _ => ⟨.eof, "", .start⟩

/-- Trees that differ only in the tokens that their nodes keep. -/
def Expr.SameTree (e e' : Expr) : Prop :=
  e.forgetTokens = e'.forgetTokens

/-! ## Parts that could not be read -/

mutual

def Expr.hasBad : Expr → Bool
  | .ident _ | .int .. | .str .. | .bool .. | .missing => false
  | .bad _ => true
  | .unary _ _ operand => operand.hasBad
  | .binary _ _ left right => left.hasBad || right.hasBad
  | .ifThen _ test yes => test.hasBad || yes.hasBad
  | .ifElse _ test yes no => test.hasBad || yes.hasBad || no.hasBad
  | .whileDo _ test body => test.hasBad || body.hasBad
  | .function _ _ body => body.hasBad
  | .call _ callee args => callee.hasBad || exprsHaveBad args
  | .array _ items => exprsHaveBad items
  | .hash _ pairs => pairsHaveBad pairs
  | .index _ target key => target.hasBad || key.hasBad

def Stmt.hasBad : Stmt → Bool
  | .define _ _ value | .returnValue _ value | .expr _ value => value.hasBad
  | .returnNothing _ | .breakLoop _ => false
  | .block body => body.hasBad

def Block.hasBad : Block → Bool
  | .mk _ stmts => stmtsHaveBad stmts

def stmtsHaveBad : List Stmt → Bool
  | [] => false
  | stmt :: rest => stmt.hasBad || stmtsHaveBad rest

def exprsHaveBad : List Expr → Bool
  | [] => false
  | expr :: rest => expr.hasBad || exprsHaveBad rest

def pairsHaveBad : List (Expr × Expr) → Bool
  | [] => false
  | pair :: rest => pairHasBad pair || pairsHaveBad rest

def pairHasBad : Expr × Expr → Bool
  | (key, value) => key.hasBad || value.hasBad

end

def Program.hasBad (program : Program) : Bool :=
  stmtsHaveBad program.stmts

/-! ## Expressions in a tree -/

mutual

def Expr.inner : Expr → List Expr
  | .ident _ | .int .. | .str .. | .bool .. | .bad _ | .missing => []
  | .unary _ _ operand => operand :: operand.inner
  | .binary _ _ left right => left :: left.inner ++ right :: right.inner
  | .ifThen _ test yes => test :: test.inner ++ yes.exprs
  | .ifElse _ test yes no => test :: test.inner ++ (yes.exprs ++ no.exprs)
  | .whileDo _ test body => test :: test.inner ++ body.exprs
  | .function _ _ body => body.exprs
  | .call _ callee args => callee :: callee.inner ++ exprsInList args
  | .array _ items => exprsInList items
  | .hash _ pairs => exprsInPairs pairs
  | .index _ target key => target :: target.inner ++ key :: key.inner

def Stmt.exprs : Stmt → List Expr
  | .define _ _ value | .returnValue _ value | .expr _ value => value :: value.inner
  | .returnNothing _ | .breakLoop _ => []
  | .block body => body.exprs

def Block.exprs : Block → List Expr
  | .mk _ stmts => exprsInStmts stmts

def exprsInStmts : List Stmt → List Expr
  | [] => []
  | stmt :: rest => stmt.exprs ++ exprsInStmts rest

def exprsInList : List Expr → List Expr
  | [] => []
  | expr :: rest => expr :: expr.inner ++ exprsInList rest

def exprsInPairs : List (Expr × Expr) → List Expr
  | [] => []
  | pair :: rest => exprsInPair pair ++ exprsInPairs rest

def exprsInPair : Expr × Expr → List Expr
  | (key, value) => key :: key.inner ++ value :: value.inner

end

theorem exprsInStmts_eq_flatMap (sts : List Stmt) : exprsInStmts sts = sts.flatMap Stmt.exprs := by
  induction sts with
  | nil => rfl
  | cons st rest ih => rw [exprsInStmts, List.flatMap_cons, ih]

theorem exprsInList_eq_flatMap (es : List Expr) :
    exprsInList es = es.flatMap fun e => e :: e.inner := by
  induction es with
  | nil => rfl
  | cons e rest ih => rw [exprsInList, List.flatMap_cons, ih]

theorem exprsInPairs_eq_flatMap (pairs : List (Expr × Expr)) :
    exprsInPairs pairs = pairs.flatMap exprsInPair := by
  induction pairs with
  | nil => rfl
  | cons pair rest ih => rw [exprsInPairs, List.flatMap_cons, ih]

def Program.exprs (program : Program) : List Expr :=
  exprsInStmts program.stmts

end Scriptlet
