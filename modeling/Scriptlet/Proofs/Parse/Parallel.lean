import Scriptlet.Proofs.Parse.Span
import Scriptlet.Proofs.Tree

/-!
# Two readings side by side

Reading looks at nothing but the kinds and texts of tokens. So two readings whose tokens agree in
these go the same way: they give the same tree up to tokens, and report the same causes at tokens
that correspond to each other.

What holds of their states on the way depends on the current token. It is fresh right behind a step;
once it has its place in a tree or in a report it is done, and the next token comes up. No step is
taken from a token that is not done. A relation between fresh states and one between done states
that cover the single steps so cover all of reading.

- `Diagnostic.Cause.Shown` : the causes that a token can show
- `Parallel` : relations that cover the single steps of two readings
- `Same`, `Both` : the outcomes of two readings
- `Parallel.reader_expr` : the relations cover expressions
- `Parallel.program` : the relations cover programs
-/

namespace Scriptlet

/-- The causes that a token can show, apart from its place in a tree. -/
inductive Diagnostic.Cause.Shown (token : Token) : Diagnostic.Cause → Prop
  | lexical (error : token.kind.isError = true) : Shown token (.lexical token.text)
  | unexpected (plain : token.kind.isError = false) (wanted : Token.Kind) :
      Shown token (.unexpected wanted token.kind)
  | noOperand (plain : token.kind.isError = false) : Shown token (.noOperand token.kind)
  | integerRange (int : token.kind = .int) : Shown token (.integerRange token.text)

namespace Parse

/-- Relations between the states of two readings that cover every step. The tokens of the second one
are those of the first one under a function that keeps kinds and texts. -/
structure Parallel (bound : Nat) (f : Token → Token) (Fresh Done : State → State → Prop) : Prop where
  kind (token : Token) : (f token).kind = token.kind
  text (token : Token) : (f token).text = token.text
  ready {s s' : State} : Fresh s s' → Ready bound s
  cur {s s' : State} : Fresh s s' → s'.cur = f s.cur
  cur_done {s s' : State} : Done s s' → s'.cur = f s.cur
  peek {s s' : State} : Done s s' → s'.peek = f s.peek
  /-- A token without a lexical error may be left without a report. -/
  keep {s s' : State} : Fresh s s' → s.cur.kind.isError = false → Done s s'
  advance {s s' : State} : Done s s' → Fresh s.advance s'.advance
  faultCur {s s' : State} {cause : Diagnostic.Cause} : Fresh s s' → cause.Shown s.cur →
    Done (s.fault s.cur cause) (s'.fault s'.cur cause)
  faultPeek {s s' : State} {cause : Diagnostic.Cause} : Done s s' → cause.Shown s.peek →
    Done (s.fault s.peek cause) (s'.fault s'.peek cause)
  tooDeep {s s' : State} : Fresh s s' → Done (tooDeep s).2 (tooDeep s').2

/-! ## Outcomes -/

section Outcomes

variable {α β : Type}

/-- Two outcomes with corresponding results in related states. -/
structure Same (g : α → α) (Done : State → State → Prop) (r r' : α × State) : Prop where
  result : r'.1 = g r.1
  state : Done r.2 r'.2

/-- Two outcomes of a form that may stop short. -/
inductive Both (g : α → α) (Done : State → State → Prop) :
    Except State (α × State) → Except State (α × State) → Prop
  | ok {r r' : α × State} (same : Same g Done r r') : Both g Done (.ok r) (.ok r')
  | error {s s' : State} (done : Done s s') : Both g Done (.error s) (.error s')

/-- Two runs that go together, and what follows each of them. -/
theorem Both.bind {g : α → α} {h : β → β} {Done : State → State → Prop}
    {x x' : Except State (α × State)} {next next' : α × State → Except State (β × State)}
    (first : Both g Done x x')
    (rest : ∀ a s s', Done s s' → Both h Done (next (a, s)) (next' (g a, s'))) :
    Both h Done (x >>= next) (x' >>= next') := by
  cases first with
  | error done => exact .error done
  | @ok r r' same =>
      rcases r' with ⟨a', s'⟩
      cases same.result
      exact rest r.1 r.2 s' same.state

end Outcomes

/-- Two readers of expressions that go side by side. -/
structure Reader (f : Token → Token) (Fresh Done : State → State → Prop) (sub : ExprReader) :
    Prop where
  along (precedence : Nat) (s : State) : Extends s (sub precedence s).2
  same {precedence : Nat} {s s' : State} (low : Precedence.lowest ≤ precedence)
    (fresh : Fresh s s') :
    Same (Expr.mapTokens f) Done (sub precedence s) (sub precedence s')

namespace Parallel

variable {bound : Nat} {f : Token → Token} {Fresh Done : State → State → Prop}
variable (p : Parallel bound f Fresh Done) {s s' : State}
include p

/-! ## Single steps -/

theorem kind_cur (fresh : Fresh s s') : s'.cur.kind = s.cur.kind := by
  rw [p.cur fresh, p.kind]

theorem kind_peek (done : Done s s') : s'.peek.kind = s.peek.kind := by
  rw [p.peek done, p.kind]

theorem ident (done : Done s s') : s'.ident = s.ident.mapToken f := by
  unfold State.ident
  rw [p.cur_done done, p.text]
  rfl

/-- A token of a kind that is no error is never reported on its own account. -/
theorem keep_kind {kind : Token.Kind} (fresh : Fresh s s') (eq : s.cur.kind = kind)
    (plain : kind.isError = false) : Done s s' :=
  p.keep fresh (eq ▸ plain)

/-- A step onto a token whose kind is known. -/
theorem take {kind : Token.Kind} (done : Done s s') (eq : s.peek.kind = kind)
    (plain : kind.isError = false) : Done s.advance s'.advance := by
  refine p.keep_kind (p.advance done) ?_ plain
  rw [State.cur_advance, eq]

theorem bad (done : Done s s') : Same (Expr.mapTokens f) Done s.bad s'.bad :=
  ⟨congrArg Expr.bad (p.cur_done done), done⟩

/-- Where one side is given up, so is the other. -/
theorem orBad {x x' : Except State (Expr × State)} (h : Both (Expr.mapTokens f) Done x x') :
    Same (Expr.mapTokens f) Done (orBad x) (orBad x') := by
  cases h with
  | ok same => exact same
  | error done => exact p.bad done

/-- A kind that is no error is expected on both sides or on neither. -/
theorem expect {β : Type} {h : β → β} {kind : Token.Kind}
    {next next' : State → Except State (β × State)} (plain : kind.isError = false)
    (done : Done s s') (rest : ∀ t t', Done t t' → Both h Done (next t) (next' t')) :
    Both h Done (s.expect kind >>= next) (s'.expect kind >>= next') := by
  unfold State.expect
  simp only [p.kind_peek done]
  by_cases hkind : s.peek.kind = kind
  · rw [if_pos hkind, if_pos hkind]
    exact rest _ _ (p.take done hkind plain)
  · rw [if_neg hkind, if_neg hkind]
    -- The token that is not the expected one is reported by its kind, or by its text if it is an
    -- error itself.
    cases herror : s.peek.kind.isError with
    | true =>
        have htext : s'.peek.text = s.peek.text := by rw [p.peek done, p.text]
        simp only [if_true, htext]
        exact .error (p.faultPeek done (.lexical herror))
    | false =>
        simp only [Bool.false_eq_true, if_false]
        exact .error (p.faultPeek done (.unexpected herror kind))

theorem skipSemicolon (done : Done s s') : Done s.skipSemicolon s'.skipSemicolon := by
  unfold State.skipSemicolon
  rw [p.kind_peek done]
  split
  · next hkind => exact p.take done hkind rfl
  · exact done

/-! ## One level -/

section Level

variable {sub : ExprReader} (inner : Reader f Fresh Done sub)
include inner

/-- An expression behind a token that is done. -/
theorem read (done : Done s s') {precedence : Nat} (low : Precedence.lowest ≤ precedence) :
    Same (Expr.mapTokens f) Done (sub precedence s.advance) (sub precedence s'.advance) :=
  inner.same low (p.advance done)

/-! ### Statements -/

theorem define (done : Done s s') :
    Both (Stmt.mapTokens f) Done (define sub s) (define sub s') := by
  unfold Parse.define
  refine p.expect rfl done fun t t' ht => ?_
  refine p.expect rfl ht fun u u' hu => ?_
  -- The equals sign has its place, so the value starts at a fresh token.
  have hvalue := p.read inner hu (Nat.le_refl Precedence.lowest)
  refine .ok ⟨?_, p.skipSemicolon hvalue.state⟩
  simp only [p.cur_done done, p.ident ht, hvalue.result]
  rfl

theorem returning (done : Done s s') :
    Same (Stmt.mapTokens f) Done (returning sub s) (returning sub s') := by
  have hnothing : Same (Stmt.mapTokens f) Done (.returnNothing s.cur, s.skipSemicolon)
      (.returnNothing s'.cur, s'.skipSemicolon) :=
    ⟨congrArg Stmt.returnNothing (p.cur_done done), p.skipSemicolon done⟩
  have hvalue := p.read inner done (Nat.le_refl Precedence.lowest)
  unfold Parse.returning
  simp only [p.kind_peek done]
  split
  · exact hnothing
  · exact hnothing
  · exact hnothing
  · refine ⟨?_, p.skipSemicolon hvalue.state⟩
    simp only [p.cur_done done, hvalue.result]
    rfl

/-- A statement with other tokens is the same statement with these tokens. -/
theorem statement (fresh : Fresh s s') :
    Same (Option.map (Stmt.mapTokens f)) Done (statement sub s) (statement sub s') := by
  have hcur := p.cur fresh
  unfold Parse.statement
  rw [p.kind_cur fresh]
  -- A word or a semicolon is done as soon as it is seen. Everywhere else the first token is left to
  -- the expression that starts with it, still fresh.
  cases hkind : s.cur.kind with
  | letKw =>
      have hdefine := p.define inner (p.keep_kind fresh hkind rfl)
      dsimp only
      generalize Parse.define sub s = x at hdefine ⊢
      generalize Parse.define sub s' = x' at hdefine ⊢
      cases hdefine with
      | ok same => exact ⟨congrArg some same.result, same.state⟩
      | error done => exact ⟨rfl, done⟩
  | returnKw =>
      have hreturn := p.returning inner (p.keep_kind fresh hkind rfl)
      exact ⟨congrArg some hreturn.result, hreturn.state⟩
  | breakKw =>
      exact ⟨congrArg (some ∘ Stmt.breakLoop) hcur, p.skipSemicolon (p.keep_kind fresh hkind rfl)⟩
  | semicolon => exact ⟨rfl, p.keep_kind fresh hkind rfl⟩
  | _ =>
      have hvalue := inner.same (Nat.le_refl Precedence.lowest) fresh
      refine ⟨?_, p.skipSemicolon hvalue.state⟩
      simp only [hcur, hvalue.result]
      rfl

/-- Statements up to the token that ends them, which comes before the fuel is used up. -/
theorem statements {stop : Token.Kind → Bool} (atEnd : stop .eof = true)
    (plain : ∀ kind, stop kind = true → kind.isError = false) {fuel : Nat} (fresh : Fresh s s')
    (room : s.ahead.length < fuel) (found : List Stmt) :
    Same (List.map (Stmt.mapTokens f)) Done (statements sub stop found fuel s)
      (statements sub stop (found.map (Stmt.mapTokens f)) fuel s') := by
  -- The induction is on the fuel, with the tokens ahead as what it has to last for.
  induction fuel generalizing s s' found with
  | zero => exact absurd room (Nat.not_lt_zero _)
  | succ fuel ih =>
      by_cases hstop : stop s.cur.kind = true
      · have hstop' : stop s'.cur.kind = true := p.kind_cur fresh ▸ hstop
        rw [statements_of_stop hstop, statements_of_stop hstop']
        exact ⟨List.map_reverse.symm, p.keep fresh (plain _ hstop)⟩
      · have hstop' : ¬ stop s'.cur.kind = true := p.kind_cur fresh ▸ hstop
        rw [statements_of_not_stop hstop, statements_of_not_stop hstop']
        have hstmt := p.statement inner fresh
        -- The step behind a statement takes a token, as the statement does not start at the end.
        have hinside := ne_eof_of_not_stop atEnd hstop
        have hfewer := length_ahead_advance_lt (p.ready fresh) hinside
          (stepwise_extends.statement inner.along s)
        have hfound : (Parse.statement sub s').1.toList ++ found.map (Stmt.mapTokens f) =
            ((Parse.statement sub s).1.toList ++ found).map (Stmt.mapTokens f) := by
          rw [hstmt.result, List.map_append, Option.toList_map]
        rw [hfound]
        exact ih (p.advance hstmt.state) (by omega) _

/-- So is a block, whose loop has the same turns on both sides. -/
theorem block (done : Done s s') :
    Same (Block.mapTokens f) Done (block bound sub s) (block bound sub s') := by
  have hfresh := p.advance done
  have hplain : ∀ kind, endsBlock kind = true → kind.isError = false := by
    intro kind h
    cases kind with
    | closeBrace | eof => rfl
    | _ => cases h
  have hstmts := p.statements inner rfl hplain hfresh (p.ready hfresh).room []
  refine ⟨?_, hstmts.state⟩
  have hresult := hstmts.result
  unfold Parse.block Block.mapTokens
  simp only [p.cur_done done, mapTokensStmts_eq_map]
  exact congrArg (Block.mk (f s.cur)) hresult

/-! ### Operands -/

omit inner in
/-- A number that is out of range is so on both sides. -/
theorem integer (fresh : Fresh s s') (int : s.cur.kind = .int) :
    Same (Expr.mapTokens f) Done (integer s) (integer s') := by
  have htext : s'.cur.text = s.cur.text := by rw [p.cur fresh, p.text]
  unfold Parse.integer
  rw [htext]
  cases integer? s.cur.text with
  | some value =>
      exact ⟨congrArg (Expr.int · value) (p.cur fresh), p.keep_kind fresh int rfl⟩
  | none => exact p.bad (p.faultCur fresh (.integerRange int))

theorem grouped (done : Done s s') :
    Both (Expr.mapTokens f) Done (grouped sub s) (grouped sub s') := by
  unfold Parse.grouped
  have hinner := p.read inner done (Nat.le_refl Precedence.lowest)
  refine p.expect rfl hinner.state fun t t' ht => ?_
  exact .ok ⟨hinner.result, ht⟩

theorem unary (op : UnaryOp) (done : Done s s') :
    Same (Expr.mapTokens f) Done (unary sub op s) (unary sub op s') := by
  have hoperand := p.read inner done lowest_le_unary
  refine ⟨?_, hoperand.state⟩
  unfold Parse.unary
  simp only [p.cur_done done, hoperand.result]
  rfl

theorem condition (done : Done s s') :
    Both (Expr.mapTokens f) Done (condition sub s) (condition sub s') := by
  unfold Parse.condition
  refine p.expect rfl done fun t t' ht => ?_
  have htest := p.read inner ht (Nat.le_refl Precedence.lowest)
  refine p.expect rfl htest.state fun u u' hu => ?_
  exact .ok ⟨htest.result, hu⟩

theorem conditional (done : Done s s') :
    Both (Expr.mapTokens f) Done (conditional bound sub s) (conditional bound sub s') := by
  unfold Parse.conditional
  refine (p.condition inner done).bind fun test t t' ht => ?_
  refine p.expect rfl ht fun u u' hu => ?_
  have hyes := p.block inner hu
  simp only [p.kind_peek hyes.state, p.cur_done done, hyes.result]
  split
  · next helse =>
      refine p.expect rfl (p.take hyes.state helse rfl) fun v v' hv => ?_
      have hno := p.block inner hv
      refine .ok ⟨?_, hno.state⟩
      simp only [hno.result]
      rfl
  · exact .ok ⟨rfl, hyes.state⟩

theorem whileLoop (done : Done s s') :
    Both (Expr.mapTokens f) Done (whileLoop bound sub s) (whileLoop bound sub s') := by
  unfold Parse.whileLoop
  refine (p.condition inner done).bind fun test t t' ht => ?_
  refine p.expect rfl ht fun u u' hu => ?_
  have hbody := p.block inner hu
  simp only [p.cur_done done, hbody.result]
  exact .ok ⟨rfl, hbody.state⟩

omit inner in
theorem moreParams (done : Done s s') (fuel : Nat) (found : List Ident) :
    Both (List.map (Ident.mapToken f)) Done (moreParams found fuel s)
      (moreParams (found.map (Ident.mapToken f)) fuel s') := by
  induction fuel generalizing s s' found with
  | zero => exact p.expect rfl done fun t t' ht => .ok ⟨List.map_reverse.symm, ht⟩
  | succ fuel ih =>
      unfold Parse.moreParams
      rw [p.kind_peek done]
      split
      · next hcomma =>
          refine p.expect rfl (p.take done hcomma rfl) fun t t' ht => ?_
          rw [p.ident ht, ← List.map_cons]
          exact ih ht _
      · exact p.expect rfl done fun t t' ht => .ok ⟨List.map_reverse.symm, ht⟩

omit inner in
theorem params (done : Done s s') :
    Both (List.map (Ident.mapToken f)) Done (params bound s) (params bound s') := by
  unfold Parse.params
  rw [p.kind_peek done]
  split
  · next hclose => exact .ok ⟨rfl, p.take done hclose rfl⟩
  · refine p.expect rfl done fun t t' ht => ?_
    rw [p.ident ht]
    exact p.moreParams ht bound [t.ident]

theorem function (done : Done s s') :
    Both (Expr.mapTokens f) Done (function bound sub s) (function bound sub s') := by
  unfold Parse.function
  refine p.expect rfl done fun t t' ht => ?_
  refine (p.params ht).bind fun names u u' hu => ?_
  refine p.expect rfl hu fun v v' hv => ?_
  have hbody := p.block inner hv
  simp only [p.cur_done done, hbody.result]
  exact .ok ⟨rfl, hbody.state⟩

theorem moreExprs {close : Token.Kind} (plain : close.isError = false) (done : Done s s')
    (fuel : Nat) (found : List Expr) :
    Both (List.map (Expr.mapTokens f)) Done (moreExprs sub close found fuel s)
      (moreExprs sub close (found.map (Expr.mapTokens f)) fuel s') := by
  induction fuel generalizing s s' found with
  | zero => exact p.expect plain done fun t t' ht => .ok ⟨List.map_reverse.symm, ht⟩
  | succ fuel ih =>
      unfold Parse.moreExprs
      rw [p.kind_peek done]
      split
      · next hcomma =>
          have hitem := p.read inner (p.take done hcomma rfl) (Nat.le_refl Precedence.lowest)
          simp only [hitem.result, ← List.map_cons]
          exact ih hitem.state _
      · exact p.expect plain done fun t t' ht => .ok ⟨List.map_reverse.symm, ht⟩

theorem exprList {close : Token.Kind} (plain : close.isError = false) (done : Done s s') :
    Both (List.map (Expr.mapTokens f)) Done (exprList bound sub close s)
      (exprList bound sub close s') := by
  unfold Parse.exprList
  rw [p.kind_peek done]
  split
  · next hclose => exact .ok ⟨rfl, p.take done hclose plain⟩
  · have hitem := p.read inner done (Nat.le_refl Precedence.lowest)
    simp only [hitem.result]
    exact p.moreExprs inner plain hitem.state bound [_]

theorem array (done : Done s s') :
    Both (Expr.mapTokens f) Done (array bound sub s) (array bound sub s') := by
  unfold Parse.array
  refine (p.exprList inner rfl done).bind fun items t t' ht => ?_
  refine .ok ⟨?_, ht⟩
  simp only [p.cur_done done, Expr.mapTokens, mapTokensExprs_eq_map]

theorem pair (done : Done s s') :
    Both (mapTokensPair f) Done (pair sub s) (pair sub s') := by
  unfold Parse.pair
  have hkey := p.read inner done (Nat.le_refl Precedence.lowest)
  refine p.expect rfl hkey.state fun t t' ht => ?_
  have hvalue := p.read inner ht (Nat.le_refl Precedence.lowest)
  refine .ok ⟨?_, hvalue.state⟩
  simp only [hkey.result, hvalue.result]
  rfl

theorem pairs (done : Done s s') (fuel : Nat) (found : List (Expr × Expr)) :
    Both (List.map (mapTokensPair f)) Done (pairs sub found fuel s)
      (pairs sub (found.map (mapTokensPair f)) fuel s') := by
  induction fuel generalizing s s' found with
  | zero => exact p.expect rfl done fun t t' ht => .ok ⟨List.map_reverse.symm, ht⟩
  | succ fuel ih =>
      unfold Parse.pairs
      rw [p.kind_peek done]
      split
      · next hclose => exact .ok ⟨List.map_reverse.symm, p.take done hclose rfl⟩
      · refine (p.pair inner done).bind fun entry t t' ht => ?_
        -- A comma may stand behind the last entry, so a closing brace is looked for on both sides
        -- of it.
        simp only [p.kind_peek ht, ← List.map_cons]
        split
        · exact ih ht _
        · exact p.expect rfl ht fun u u' hu => ih hu _

theorem hash (done : Done s s') :
    Both (Expr.mapTokens f) Done (hash bound sub s) (hash bound sub s') := by
  unfold Parse.hash
  refine (p.pairs inner done bound []).bind fun entries t t' ht => ?_
  refine .ok ⟨?_, ht⟩
  simp only [p.cur_done done, Expr.mapTokens, mapTokensPairs_eq_map]

/-- Every operand with other tokens is the same operand with these tokens. -/
theorem operand (fresh : Fresh s s') :
    Both (Expr.mapTokens f) Done (operand bound sub s) (operand bound sub s') := by
  have hcur := p.cur fresh
  have htext : s'.cur.text = s.cur.text := by rw [hcur, p.text]
  unfold Parse.operand
  simp only [p.kind_cur fresh]
  -- A token that starts an operand has its place there; every other token is reported, and an error
  -- by its own text.
  cases hkind : s.cur.kind with
  | ident =>
      have hdone := p.keep_kind fresh hkind rfl
      exact .ok ⟨congrArg Expr.ident (p.ident hdone), hdone⟩
  | int => exact .ok (p.integer fresh hkind)
  | str =>
      refine .ok ⟨?_, p.keep_kind fresh hkind rfl⟩
      simp only [hcur, p.text]
      rfl
  | trueKw => exact .ok ⟨congrArg (Expr.bool · true) hcur, p.keep_kind fresh hkind rfl⟩
  | falseKw => exact .ok ⟨congrArg (Expr.bool · false) hcur, p.keep_kind fresh hkind rfl⟩
  | openParen => exact .ok (p.orBad (p.grouped inner (p.keep_kind fresh hkind rfl)))
  | bang => exact .ok (p.unary inner .not (p.keep_kind fresh hkind rfl))
  | minus => exact .ok (p.unary inner .neg (p.keep_kind fresh hkind rfl))
  | plus => exact .ok (p.unary inner .pos (p.keep_kind fresh hkind rfl))
  | ifKw => exact .ok (p.orBad (p.conditional inner (p.keep_kind fresh hkind rfl)))
  | whileKw => exact .ok (p.orBad (p.whileLoop inner (p.keep_kind fresh hkind rfl)))
  | fnKw => exact .ok (p.orBad (p.function inner (p.keep_kind fresh hkind rfl)))
  | openBracket => exact .ok (p.orBad (p.array inner (p.keep_kind fresh hkind rfl)))
  | openBrace => exact .ok (p.orBad (p.hash inner (p.keep_kind fresh hkind rfl)))
  | illegal | unterminated =>
      simp only [htext]
      exact .error (p.faultCur fresh (.lexical (by rw [hkind]; rfl)))
  | _ =>
      have hshown : Diagnostic.Cause.Shown s.cur (.noOperand s.cur.kind) :=
        .noOperand (by rw [hkind]; rfl)
      rw [hkind] at hshown
      exact .error (p.faultCur fresh hshown)

/-! ### Operators -/

theorem call (callee : Expr) (done : Done s s') :
    Both (Expr.mapTokens f) Done (call bound sub callee s)
      (call bound sub (callee.mapTokens f) s') := by
  unfold Parse.call
  refine (p.exprList inner rfl done).bind fun args t t' ht => ?_
  refine .ok ⟨?_, ht⟩
  simp only [p.cur_done done, Expr.mapTokens, mapTokensExprs_eq_map]

theorem index (target : Expr) (done : Done s s') :
    Both (Expr.mapTokens f) Done (index sub target s) (index sub (target.mapTokens f) s') := by
  unfold Parse.index
  have hkey := p.read inner done (Nat.le_refl Precedence.lowest)
  refine p.expect rfl hkey.state fun t t' ht => ?_
  refine .ok ⟨?_, ht⟩
  simp only [p.cur_done done, hkey.result]
  rfl

theorem operator (sequel : Sequel) (left : Expr) (done : Done s s') :
    Same (Expr.mapTokens f) Done (operator bound sub sequel left s)
      (operator bound sub sequel (left.mapTokens f) s') := by
  cases sequel with
  | call => exact p.orBad (p.call inner left done)
  | index => exact p.orBad (p.index inner left done)
  | binary op =>
      have hkind : s'.cur.kind = s.cur.kind := by rw [p.cur_done done, p.kind]
      have hright := p.read inner done (lowest_le_ofKind s.cur.kind)
      simp only [Parse.operator, binary, hkind]
      refine ⟨?_, hright.state⟩
      simp only [p.cur_done done, hright.result]
      rfl

/-- So is what the operators behind it make of it. -/
theorem operators {precedence : Nat} (low : Precedence.lowest ≤ precedence) (done : Done s s')
    (fuel : Nat) (left : Expr) :
    Same (Expr.mapTokens f) Done (operators bound sub precedence fuel left s)
      (operators bound sub precedence fuel (left.mapTokens f) s') := by
  induction fuel generalizing s s' left with
  | zero => exact ⟨rfl, done⟩
  | succ fuel ih =>
      have hkind := p.kind_peek done
      by_cases hbinds : precedence < Precedence.ofKind s.peek.kind
      · rcases Sequel.exists_of_binds low hbinds with ⟨sequel, hstarts⟩
        -- What starts a sequel is no error.
        have hplain : s.peek.kind.isError = false := by
          cases hpeek : s.peek.kind with
          | illegal | unterminated =>
              rw [hpeek] at hstarts
              cases hstarts
          | _ => rfl
        have hoperator := p.operator inner sequel left (p.take done rfl hplain)
        rw [operators_of_sequel hstarts hbinds,
          operators_of_sequel (by rw [hkind]; exact hstarts) (by rw [hkind]; exact hbinds),
          hoperator.result]
        exact ih hoperator.state _
      · rw [operators_of_stop (Nat.not_lt.1 hbinds),
          operators_of_stop (by rw [hkind]; exact Nat.not_lt.1 hbinds)]
        exact ⟨rfl, done⟩

/-- So is an expression, if the expressions inside it are. -/
theorem exprLevel {precedence : Nat} (low : Precedence.lowest ≤ precedence) (fresh : Fresh s s') :
    Same (Expr.mapTokens f) Done (exprLevel bound sub precedence s)
      (exprLevel bound sub precedence s') := by
  have hoperand := p.operand inner fresh
  unfold Parse.exprLevel
  generalize Parse.operand bound sub s = x at hoperand ⊢
  generalize Parse.operand bound sub s' = x' at hoperand ⊢
  cases hoperand with
  | error done => exact p.bad done
  | @ok r r' same =>
      rcases r' with ⟨left', t'⟩
      cases same.result
      exact p.operators inner low same.state bound r.1

end Level

/-! ## All levels -/

/-- Expressions of any depth, by induction on the levels that are left. -/
theorem reader_expr (levels : Nat) : Reader f Fresh Done (expr bound levels) := by
  refine ⟨stepwise_extends.expr bound levels, ?_⟩
  induction levels with
  -- Below the last level nothing is read, and the fresh token is where reading is given up.
  | zero =>
      intro precedence s s' _ fresh
      have hdone := p.tooDeep fresh
      exact ⟨congrArg Expr.bad (p.cur_done hdone), hdone⟩
  | succ levels ih =>
      intro precedence s s' low fresh
      exact p.exprLevel ⟨stepwise_extends.expr bound levels, ih⟩ low fresh

end Parallel

/-- Two programs that are read side by side have the same tree up to tokens, and in the end their
states are still related. -/
theorem Parallel.program {tokens tokens' : List Token} {f : Token → Token}
    {Fresh Done : State → State → Prop} (p : Parallel tokens.length f Fresh Done)
    (length : tokens'.length = tokens.length)
    (fresh : Fresh (.ofTokens tokens) (.ofTokens tokens')) :
    Same (Program.mapTokens f) Done (program tokens) (program tokens') := by
  have hplain : ∀ kind, isEof kind = true → kind.isError = false := by
    intro kind h
    cases kind with
    | eof => rfl
    | _ => cases h
  have hstmts := p.statements (p.reader_expr maxNesting) rfl hplain fresh (p.ready fresh).room []
  unfold Parse.program
  simp only [length]
  refine ⟨?_, hstmts.state⟩
  unfold Program.mapTokens
  simp only [mapTokensStmts_eq_map]
  exact congrArg Program.mk hstmts.result

end Parse
end Scriptlet
