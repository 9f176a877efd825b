import Scriptlet.Parse.Program
import Scriptlet.Proofs.Parse.CompleteForms

/-!
# Renderings are read back

Reading a rendering of a program gives exactly that program and reports nothing, as long as no more
expressions lie inside each other than reading allows. What a precedence leaves to its surroundings
is never taken up, and what it takes is never left.

- `Place.Fits` : the precedences at which an expression is read in full at its place
- `FetchesPart` : parts of a program that are read back
- `fetchesPart_of_rendering` : every rendering is read back
- `parseTokens_of_rendering` : a rendering of a program gives that program
- `parseTokens_of_renderedAs` : an expression on its own, whatever tokens its nodes keep
-/

namespace Scriptlet

/-! ## Precedences that fit -/

/-- An expression is read in full at a precedence if its own operator binds more tightly, and its
last operand ends where the next operator does not bind more tightly than its own. -/
structure Expr.Whole (e : Expr) (precedence next : Nat) : Prop where
  enters : (Place.behind precedence).Admits e
  leaves : (Place.front next).Admits e

/-- The precedences of reading and of the next token that suit a place. -/
def Place.Fits : Place → Nat → Nat → Prop
  | .front p, precedence, next => precedence < p ∧ next ≤ p
  | .behind p, precedence, next => precedence ≤ p ∧ next ≤ p ∧ p ≤ Precedence.unary

/-- What stands at a place without parentheses is read in full there. -/
theorem Place.Fits.whole {place : Place} {precedence next : Nat} {e : Expr}
    (fits : place.Fits precedence next) (admitted : place.Admits e) : e.Whole precedence next := by
  cases e with
  | unary =>
      refine ⟨trivial, ?_⟩
      cases place with
      -- Nothing in front keeps a prefix operator out; its operand must leave the next token alone.
      | front p => exact Nat.le_trans fits.2 admitted
      | behind p => exact Nat.le_trans fits.2.1 fits.2.2
  | binary =>
      cases place with
      | front p => exact ⟨Nat.lt_of_lt_of_le fits.1 admitted, Nat.le_trans fits.2 admitted⟩
      | behind p =>
          exact ⟨Nat.lt_of_le_of_lt fits.1 admitted,
            Nat.le_trans fits.2.1 (Nat.le_of_lt admitted)⟩
  | _ => exact ⟨trivial, trivial⟩

namespace Parse

/-! ## Operators behind an operand -/

/-- An expression that is read up to the operators behind it. -/
def FetchesLead (bound levels precedence : Nat) (e : Expr) (cut : Bool) (ts : List Token)
    (next : Token) : Prop :=
  ∀ ⦃more : List Token⦄ ⦃s : State⦄, Behind cut next more → ts.length + more.length < bound →
    s.tokens = ts ++ next :: more →
    ∃ s' fuel,
      exprLevel bound (expr bound levels) precedence s =
        operators bound (expr bound levels) precedence fuel e s' ∧
      more.length < fuel ∧ Goes cut next more s s'

section Level

variable {bound levels precedence : Nat} {cut : Bool} {ts us : List Token} {next : Token}

/-- An operand alone is an expression at every level. -/
theorem FetchesOperand.lead {e : Expr} (fetch : FetchesOperand bound (expr bound levels) e cut ts) :
    FetchesLead bound levels precedence e cut ts next := by
  intro more s behind room tokens
  rcases fetch behind room tokens with ⟨s', heq, hgo⟩
  refine ⟨s', bound, ?_, by omega, hgo⟩
  simp only [exprLevel, heq]

/-- An operator in front starts a unary expression. -/
theorem operand_of_unary {sub : ExprReader} {op : UnaryOp} {s : State}
    (is_op : UnaryOp.ofKind? s.cur.kind = some op) :
    operand bound sub s = .ok (unary sub op s) := by
  cases hkind : s.cur.kind <;> rw [hkind] at is_op <;> cases is_op <;> simp only [operand, hkind]

/-- A unary expression is read back, if what follows binds no tighter than the operator in front. -/
theorem unary_lead {op : UnaryOp} {e : Expr} (sign : Token)
    (is_op : UnaryOp.ofKind? sign.kind = some op)
    (fetch : Fetches bound (expr bound levels) Precedence.unary e cut ts)
    (stop : Precedence.ofKind next.kind ≤ Precedence.unary) :
    FetchesLead bound levels precedence (.unary sign op e) cut (sign :: ts) next := by
  intro more s behind room tokens
  obtain ⟨hcur, hahead⟩ := List.cons.inj tokens
  simp only [List.length_cons] at room
  rcases fetch.advance behind stop (by omega) hahead with ⟨s', heq, hgo⟩
  have hoperand : operand bound (expr bound levels) s = .ok (.unary sign op e, s') := by
    rw [operand_of_unary (by rw [hcur]; exact is_op)]
    simp only [unary, heq, hcur]
  refine ⟨s', bound, ?_, by omega, hgo⟩
  simp only [exprLevel, hoperand]

/-- One more operator is taken up. -/
theorem operators_of_ahead {sub : ExprReader} {fuel : Nat} {left e : Expr} {sign : Token}
    {rest : List Token} {s s' : State} {sequel : Sequel} (ahead : s.ahead = sign :: rest)
    (starts : Sequel.ofKind? sign.kind = some sequel)
    (binds : precedence < Precedence.ofKind sign.kind)
    (eq : operator bound sub sequel left ⟨sign, rest, s.report⟩ = (e, s')) :
    operators bound sub precedence (fuel + 1) left s = operators bound sub precedence fuel e s' := by
  have hpeek := State.peek_of_ahead ahead
  rw [operators_of_sequel (by rw [hpeek]; exact starts) (by rw [hpeek]; exact binds),
    State.advance_of_ahead ahead, eq]

/-- An operator that is read back behind what stands in front of it. -/
theorem FetchesLead.operator {left e : Expr} {sign : Token} {sequel : Sequel}
    (front : FetchesLead bound levels precedence left false ts sign)
    (starts : Sequel.ofKind? sign.kind = some sequel)
    (binds : precedence < Precedence.ofKind sign.kind)
    (reads : ∀ ⦃more : List Token⦄ (report : Report Diagnostic), Behind cut next more →
      us.length + more.length < bound →
      ∃ s', operator bound (expr bound levels) sequel left ⟨sign, us ++ next :: more, report⟩ =
          (e, s') ∧
        Lands cut next more s' ∧ s'.report = report) :
    FetchesLead bound levels precedence e cut (ts ++ sign :: us) next := by
  intro more s behind room tokens
  simp only [List.length_append, List.length_cons] at room
  simp only [List.append_assoc, List.cons_append] at tokens
  have hroom : ts.length + (us ++ next :: more).length < bound := by
    simp only [List.length_append, List.length_cons]
    omega
  rcases front ⟨(Sequel.ne_of_starts starts).2.2, nofun⟩ hroom tokens with
    ⟨s₁, fuel, heq, henough, hgo⟩
  simp only [List.length_append, List.length_cons] at henough
  -- The sign and the next token are still ahead, so there is fuel for another turn.
  obtain ⟨fuel, rfl⟩ : ∃ f, fuel = f + 1 := ⟨fuel - 1, by omega⟩
  rcases reads s₁.report behind (by omega) with ⟨s', hop, hlands, hreport⟩
  refine ⟨s', fuel, ?_, by omega, hlands, hreport.trans hgo.report⟩
  rw [heq, operators_of_ahead hgo.lands starts binds hop]

/-- An operator takes up an operand behind it, as far as its precedence reaches. -/
theorem operator_of_binary {sub : ExprReader} {op : BinaryOp} {left : Expr} {s : State}
    (is_op : BinaryOp.ofKind? s.cur.kind = some op) :
    operator bound sub (.binary op) left s =
      (.binary s.cur op left (sub op.precedence s.advance).1,
        (sub op.precedence s.advance).2) := by
  rw [← BinaryOp.precedence_of_ofKind? is_op]
  rfl

/-- A binary expression is read back: its operator binds tighter than the level asks for, and what
follows no tighter than the operator. -/
theorem binary_lead {op : BinaryOp} {left right : Expr} {sign : Token}
    (front : FetchesLead bound levels precedence left false ts sign)
    (is_op : BinaryOp.ofKind? sign.kind = some op) (binds : precedence < op.precedence)
    (behind : Fetches bound (expr bound levels) op.precedence right cut us)
    (stop : Precedence.ofKind next.kind ≤ op.precedence) :
    FetchesLead bound levels precedence (.binary sign op left right) cut (ts ++ sign :: us)
      next := by
  have hprec := BinaryOp.precedence_of_ofKind? is_op
  refine front.operator (Sequel.ofKind?_eq_binary_iff.2 is_op) (by rw [hprec]; exact binds) ?_
  intro more report hbehind room
  rcases behind.advance (s := ⟨sign, us ++ next :: more, report⟩) hbehind stop room rfl with
    ⟨s', heq, hgo⟩
  refine ⟨s', ?_, hgo.lands, hgo.report⟩
  rw [operator_of_binary is_op, heq]

/-- A call is read back at every level below that of calls. -/
theorem call_lead {callee : Expr} {args : List Expr} (opening : Token.Of .openParen)
    (front : FetchesLead bound levels precedence callee false ts opening.val)
    (binds : precedence < Precedence.call) (items : FetchesList bound (expr bound levels) args us)
    (head : ListHead args us) (closing : Token.Of .closeParen) :
    FetchesLead bound levels precedence (.call opening callee args) false
      (ts ++ opening.val :: (us ++ [closing.val])) next := by
  refine front.operator (Sequel.ofKind?_openParen opening)
    (by rw [opening.property]; exact binds) ?_
  intro more report _ room
  simp only [List.length_append, List.length_cons, List.length_nil] at room
  have hlist := exprList_of_ahead (s := ⟨opening.val, us ++ closing.val :: next :: more, report⟩)
    closes_closeParen items head closing (by simp only [List.length_cons]; omega) rfl
  refine ⟨⟨closing.val, next :: more, report⟩, ?_, rfl, rfl⟩
  simp only [operator, call, List.append_assoc, List.cons_append,
    List.nil_append, hlist, bind, Except.bind, pure, Except.pure, orBad]

/-- An index is read back at every level below that of indices. -/
theorem index_lead {target key : Expr} (opening : Token.Of .openBracket)
    (front : FetchesLead bound levels precedence target false ts opening.val)
    (binds : precedence < Precedence.index)
    (inner : Fetches bound (expr bound levels) Precedence.lowest key false us)
    (closing : Token.Of .closeBracket) :
    FetchesLead bound levels precedence (.index opening target key) false
      (ts ++ opening.val :: (us ++ [closing.val])) next := by
  refine front.operator (Sequel.ofKind?_openBracket opening)
    (by rw [opening.property]; exact binds) ?_
  intro more report _ room
  simp only [List.length_append, List.length_cons, List.length_nil] at room
  rcases inner.between (s := ⟨opening.val, us ++ closing.val :: next :: more, report⟩) closing rfl
    (by simp) (by simp only [List.length_cons]; omega) rfl with ⟨s₁, heq, hahead, hreport⟩
  have hclose := State.expect_of_ahead closing hahead
  refine ⟨⟨closing.val, next :: more, report⟩, ?_, rfl, rfl⟩
  simp only [operator, index, List.append_assoc, List.cons_append,
    List.nil_append, heq, hclose, hreport, bind, Except.bind, pure, Except.pure, orBad]

end Level

/-! ## Every rendering is read back -/

/-- Parts of a program that are read back, with at most `n` expressions inside each other. -/
def FetchesPart (bound n : Nat) : Part → Bool → List Token → Prop
  | .bare e, cut, ts => ∀ ⦃levels precedence : Nat⦄ ⦃next : Token⦄, n ≤ levels + 1 →
      precedence ≤ Precedence.unary → e.Whole precedence (Precedence.ofKind next.kind) →
      FetchesLead bound levels precedence e cut ts next
  | .expr place e, cut, ts => ∀ ⦃levels precedence : Nat⦄ ⦃next : Token⦄, n ≤ levels + 1 →
      precedence ≤ Precedence.unary → place.Fits precedence (Precedence.ofKind next.kind) →
      FetchesLead bound levels precedence e cut ts next
  | .list es, _, ts => ∀ ⦃levels : Nat⦄, n ≤ levels → FetchesList bound (expr bound levels) es ts
  | .entries pairs, _, ts => ∀ ⦃levels : Nat⦄, n ≤ levels →
      FetchesEntries bound (expr bound levels) pairs ts
  | .stmt st, cut, ts => ∀ ⦃levels : Nat⦄, n ≤ levels →
      FetchesStmt bound (expr bound levels) st cut ts
  | .stmts sts, cut, ts => ∀ ⦃levels : Nat⦄, n ≤ levels →
      FetchesStmts bound (expr bound levels) sts cut ts
  | .block b, cut, ts => ∀ ⦃levels : Nat⦄, n ≤ levels →
      FetchesBlock bound (expr bound levels) b cut ts

section Parts

variable {bound levels : Nat} {cut : Bool} {ts : List Token}

/-- An expression with nothing behind it that its precedence takes up. -/
theorem fetches_of_part {p : Nat} {e : Expr} {r : Rendering (.expr (.behind p) e) cut ts}
    (ih : FetchesPart bound r.nesting (.expr (.behind p) e) cut ts) (small : r.nesting ≤ levels)
    (high : p ≤ Precedence.unary) : Fetches bound (expr bound levels) p e cut ts := by
  intro next more s behind stop room tokens
  -- An expression needs a level for itself, so there is one to spend.
  have hpos := r.one_le_nesting rfl
  obtain ⟨levels, rfl⟩ : ∃ l, levels = l + 1 := ⟨levels - 1, by omega⟩
  rcases ih small high ⟨Nat.le_refl p, stop, high⟩ behind room tokens with
    ⟨s', fuel, heq, -, hgo⟩
  refine ⟨s', ?_, hgo⟩
  have hstop : Precedence.ofKind s'.peek.kind ≤ p := by
    rw [hgo.peek]
    exact stop
  calc expr bound (levels + 1) p s
      = operators bound (expr bound levels) p fuel e s' := heq
    _ = (e, s') := operators_of_stop hstop fuel e

end Parts

/-- Every rendering is read back as the part it renders, given as many levels as the part is nested
deep. -/
theorem fetchesPart_of_rendering (bound : Nat) {part : Part} {cut : Bool} {ts : List Token}
    (r : Rendering part cut ts) : FetchesPart bound r.nesting part cut ts := by
  -- Induction on the rendering, for all precedences and all tokens behind it. Operators do not
  -- start a reading of their own for what stands in front of them, so `FetchesLead` is what is
  -- carried along.
  induction r with
  | ident name =>
      intro levels precedence next _ _ _
      exact (ident_fetches name).lead
  | int digits value numeral =>
      intro levels precedence next _ _ _
      exact (int_fetches digits numeral).lead
  | str text =>
      intro levels precedence next _ _ _
      exact (str_fetches text).lead
  | trueWord word =>
      intro levels precedence next _ _ _
      exact (trueWord_fetches word).lead
  | falseWord word =>
      intro levels precedence next _ _ _
      exact (falseWord_fetches word).lead
  | unary sign is_op operand ih =>
      intro levels precedence next small _ whole
      have hfetch := fetches_of_part ih (Nat.le_of_succ_le_succ small) (Nat.le_refl _)
      exact unary_lead sign is_op hfetch whole.leaves
  | binary front sign is_op behind ihfront ihbehind =>
      intro levels precedence next small high whole
      simp only [Rendering.nesting, Nat.max_le, Nat.add_le_add_iff_right] at small
      have hprec := BinaryOp.precedence_of_ofKind? is_op
      -- The operand in front is read at the same precedence, up to the sign.
      have hfits : (Place.front _).Fits precedence (Precedence.ofKind sign.kind) :=
        ⟨whole.enters, Nat.le_of_eq hprec⟩
      have hright := fetches_of_part ihbehind small.2 (BinaryOp.precedence_le_unary _)
      exact binary_lead (ihfront small.1 high hfits) is_op whole.enters hright whole.leaves
  | ifThen word opening condition closing body ihcondition ihbody =>
      intro levels precedence next small _ _
      simp only [Rendering.nesting, Nat.max_le, Nat.add_le_add_iff_right] at small
      rcases body.head_block with ⟨brace, us, rfl⟩
      have htest := fetches_of_part ihcondition small.1 lowest_le_unary
      exact (ifThen_fetches word opening htest closing (ihbody small.2)).lead
  | ifElse word opening condition closing body other otherBody ihcondition ihbody ihother =>
      intro levels precedence next small _ _
      simp only [Rendering.nesting, Nat.max_le, Nat.add_le_add_iff_right] at small
      rcases body.head_block with ⟨brace, us, rfl⟩
      rcases otherBody.head_block with ⟨brace', vs, rfl⟩
      have htest := fetches_of_part ihcondition small.1 lowest_le_unary
      exact (ifElse_fetches word opening htest closing (ihbody small.2.1) other
        (ihother small.2.2)).lead
  | whileDo word opening condition closing body ihcondition ihbody =>
      intro levels precedence next small _ _
      simp only [Rendering.nesting, Nat.max_le, Nat.add_le_add_iff_right] at small
      rcases body.head_block with ⟨brace, us, rfl⟩
      have htest := fetches_of_part ihcondition small.1 lowest_le_unary
      exact (whileDo_fetches word opening htest closing (ihbody small.2)).lead
  | function word opening names closing body ihbody =>
      intro levels precedence next small _ _
      rcases body.head_block with ⟨brace, us, rfl⟩
      exact (function_fetches word opening names closing
        (ihbody (Nat.le_of_succ_le_succ small))).lead
  | call front opening items closing ihfront ihitems =>
      intro levels precedence next small high _
      simp only [Rendering.nesting, Nat.max_le, Nat.add_le_add_iff_right] at small
      -- Calls bind more tightly than every precedence at which an expression is read.
      have hbinds : precedence < Precedence.call := Nat.lt_of_le_of_lt high (by decide)
      have hfits : (Place.front Precedence.call).Fits precedence
          (Precedence.ofKind opening.val.kind) := by
        rw [opening.property]
        exact ⟨hbinds, Nat.le_refl _⟩
      exact call_lead opening (ihfront small.1 high hfits) hbinds (ihitems small.2) items.head_list
        closing
  | array opening items closing ihitems =>
      intro levels precedence next small _ _
      exact (array_fetches opening (ihitems (Nat.le_of_succ_le_succ small)) items.head_list
        closing).lead
  | hash opening items closing ihitems =>
      intro levels precedence next small _ _
      exact (hash_fetches opening (ihitems (Nat.le_of_succ_le_succ small)) closing).lead
  | index front opening inner closing ihfront ihinner =>
      intro levels precedence next small high _
      simp only [Rendering.nesting, Nat.max_le, Nat.add_le_add_iff_right] at small
      have hbinds : precedence < Precedence.index := Nat.lt_of_le_of_lt high (by decide)
      have hfits : (Place.front Precedence.index).Fits precedence
          (Precedence.ofKind opening.val.kind) := by
        rw [opening.property]
        exact ⟨hbinds, Nat.le_refl _⟩
      have hkey := fetches_of_part ihinner small.2 lowest_le_unary
      exact index_lead opening (ihfront small.1 high hfits) hbinds hkey closing
  -- Without parentheses the place has to admit the expression; inside them everything is read anew.
  | plain admitted inner ih =>
      intro levels precedence next small high fits
      exact ih small high (fits.whole admitted)
  | parens opening inner closing ih =>
      intro levels precedence next small _ _
      have hinner := fetches_of_part ih (Nat.le_of_succ_le_succ small) lowest_le_unary
      exact (grouped_fetches opening hinner closing).lead
  -- An empty list is dealt with before the loop over its items starts.
  | listNil =>
      intro levels _ close found fuel closing more s _ hne
      exact absurd rfl hne
  | listLast item ih =>
      intro levels small
      exact listLast_fetches (fetches_of_part ih small lowest_le_unary)
  | listCons item comma rest ihitem ihrest =>
      intro levels small
      simp only [Rendering.nesting, Nat.max_le] at small
      exact listCons_fetches (fetches_of_part ihitem small.1 lowest_le_unary) comma
        (ihrest small.2)
  | entriesNil =>
      intro levels _
      exact entriesNil_fetches
  | entriesLast key colon value ihkey ihvalue =>
      intro levels small
      simp only [Rendering.nesting, Nat.max_le] at small
      rcases key.head_expr rfl with ⟨first, rest, rfl, hfirst⟩
      exact entriesLast_fetches hfirst (fetches_of_part ihkey small.1 lowest_le_unary) colon
        (fetches_of_part ihvalue small.2 lowest_le_unary)
  | entriesCons key colon value comma rest ihkey ihvalue ihrest =>
      intro levels small
      simp only [Rendering.nesting, Nat.max_le] at small
      rcases key.head_expr rfl with ⟨first, rest, rfl, hfirst⟩
      exact entriesCons_fetches hfirst (fetches_of_part ihkey small.1.1 lowest_le_unary) colon
        (fetches_of_part ihvalue small.1.2 lowest_le_unary) comma (ihrest small.2)
  | define word name sign value ih =>
      intro levels small
      exact define_fetches word name sign (fetches_of_part ih small lowest_le_unary)
  | returnNothing word =>
      intro levels _
      exact returnNothing_fetches word
  | returnValue word value ih =>
      intro levels small
      rcases value.head_expr rfl with ⟨first, rest, rfl, hfirst⟩
      exact returnValue_fetches word hfirst (fetches_of_part ih small lowest_le_unary)
  | breakLoop word =>
      intro levels _
      exact breakLoop_fetches word
  | exprStmt value ih =>
      intro levels small
      rcases value.head_expr rfl with ⟨first, rest, heq, hfirst⟩
      obtain ⟨rfl, rfl⟩ := List.cons.inj heq
      exact exprStmt_fetches hfirst (fetches_of_part ih small lowest_le_unary)
  | stmtsNil =>
      intro levels _
      exact stmtsNil_fetches
  | semicolon sign rest ih =>
      intro levels small
      exact semicolon_fetches sign (ih small)
  | stmtsCons head rest apart ihhead ihrest =>
      intro levels small
      simp only [Rendering.nesting, Nat.max_le] at small
      rcases head.head_stmt with ⟨first, ts, rfl, hfirst⟩
      exact stmtsCons_fetches hfirst (ihhead small.1) (ihrest small.2) rest.head_stmts apart
  | stmtsCut head ih =>
      intro levels small
      rcases head.head_stmt with ⟨first, ts, rfl, hfirst⟩
      exact stmtsCut_fetches hfirst (ih small)
  | block opening body closing ih =>
      intro levels small
      exact block_fetches opening (ih small) closing
  | blockCut opening body ih =>
      intro levels small
      exact blockCut_fetches opening (ih small)

/-! ## Programs -/

/-- Reading a rendering of a program gives that program. -/
theorem parseTokens_of_rendering {sts : List Stmt} {cut : Bool} {ts : List Token} {eof : Token}
    (r : Rendering (.stmts sts) cut ts) (small : r.nesting ≤ maxNesting)
    (isEnd : eof.kind = .eof) : parseTokens (ts ++ [eof]) = (⟨sts⟩, []) := by
  have htokens : (State.ofTokens (ts ++ [eof])).tokens = ts ++ [eof] := by
    cases ts <;> rfl
  have hreport : (State.ofTokens (ts ++ [eof])).report = .empty := by
    cases ts <;> rfl
  have hstop : isEof eof.kind = true := by rw [isEnd]; rfl
  have hstmts := fetchesPart_of_rendering (ts ++ [eof]).length r small [] (ts ++ [eof]).length
    ends_isEof hstop (fun _ => ⟨isEnd, rfl⟩) (by simp) (by simp) htokens
  simp only [parseTokens, program, hstmts, hreport, List.reverse_nil, List.nil_append]
  rfl

/-- A rendering of an expression is a program of one statement. -/
theorem parseTokens_of_expr {e : Expr} {first : Token} {ts : List Token} {eof : Token}
    (r : Rendering (.expr (.behind Precedence.lowest) e) false (first :: ts))
    (small : r.nesting ≤ maxNesting) (isEnd : eof.kind = .eof) :
    parseTokens (first :: ts ++ [eof]) = (⟨[.expr first e]⟩, []) := by
  let stmts : Rendering (.stmts [.expr first e]) false (first :: ts ++ []) :=
    .stmtsCons (.exprStmt r) .stmtsNil nofun
  have hnesting : stmts.nesting ≤ maxNesting := Nat.max_le.2 ⟨small, Nat.zero_le _⟩
  have hparse := parseTokens_of_rendering stmts hnesting isEnd
  rwa [List.append_nil] at hparse

/-- Semicolons on their own render no statement. -/
theorem exists_semicolons {semicolons : List Token}
    (signs : ∀ sign ∈ semicolons, sign.kind = .semicolon) :
    ∃ r : Rendering (.stmts []) false semicolons, r.nesting = 0 := by
  induction semicolons with
  | nil => exact ⟨.stmtsNil, rfl⟩
  | cons sign rest ih =>
      rcases ih fun other hother => signs other (List.mem_cons_of_mem _ hother) with ⟨r, hr⟩
      exact ⟨.semicolon ⟨sign, signs sign List.mem_cons_self⟩ r, hr⟩

/-- A rendering of an expression, with any number of semicolons behind it, is read as a program of
one statement, and the tree in it is that of the expression. -/
theorem parseTokens_of_renderedAs {e : Expr} {ts semicolons : List Token} {eof : Token}
    (rendered : e.RenderedAs maxNesting ts)
    (signs : ∀ sign ∈ semicolons, sign.kind = .semicolon) (isEnd : eof.kind = .eof) :
    ∃ first e', parseTokens (ts ++ semicolons ++ [eof]) = (⟨[.expr first e']⟩, []) ∧
      e'.SameTree e := by
  rcases rendered with ⟨e', r, hsame, hsmall⟩
  rcases r.head_expr rfl with ⟨first, us, rfl, -⟩
  -- The program is this one statement, followed by a row of no statements.
  rcases exists_semicolons signs with ⟨rest, hrest⟩
  have hapart : ∀ next ∈ semicolons.head?, (Stmt.expr first e').MayPrecede next.kind := by
    intro next hnext
    rw [signs next (List.mem_of_mem_head? hnext)]
    exact rfl
  have hnesting : (Rendering.stmtsCons (.exprStmt r) rest hapart).nesting ≤ maxNesting := by
    simp only [Rendering.nesting, hrest, Nat.max_le]
    exact ⟨hsmall, Nat.zero_le _⟩
  exact ⟨first, e', parseTokens_of_rendering _ hnesting isEnd, hsame⟩

/-- Subtraction associates to the left, so its second operand needs parentheses to be another one,
and a product needs them to hold a difference. -/
theorem parseTokens_of_renderedAs_difference :
    let t (kind : Token.Kind) (text : String) : Token := ⟨kind, text, .start⟩
    let word : Token := ⟨.eof, "", .start⟩
    let ts := [t .ident "a", t .minus "-", t .openParen "(", t .ident "b", t .minus "-",
      t .int "1", t .closeParen ")", t .star "*", t .minus "-", t .ident "c"]
    let e : Expr := .binary word .sub (.ident ⟨word, "a"⟩)
      (.binary word .mul (.binary word .sub (.ident ⟨word, "b"⟩) (.int word 1))
        (.unary word .neg (.ident ⟨word, "c"⟩)))
    e.RenderedAs maxNesting ts ∧
      ∃ first e', parseTokens (ts ++ [t .semicolon ";"] ++ [t .eof ""]) =
        (⟨[.expr first e']⟩, []) ∧ e'.SameTree e := by
  intro t word ts e
  let name (text : String) (place : Place) : Rendering
      (.expr place (.ident ⟨t .ident text, text⟩)) false [t .ident text] :=
    .plain (Place.admits_of_isOperation_eq_false rfl place) (.ident ⟨t .ident text, rfl⟩)
  let one : Rendering (.expr (.behind Precedence.sum) (.int (t .int "1") 1)) false [t .int "1"] :=
    .plain trivial (.int ⟨t .int "1", rfl⟩ 1
      (show Numeral "1" 1 from ⟨⟨by simp, by simp⟩, rfl⟩))
  let difference := Rendering.binary (name "b" _) (t .minus "-") rfl one
  let negated := Rendering.unary (t .minus "-") rfl (name "c" _)
  have rendered : e.RenderedAs maxNesting ts := by
    refine ⟨_, .plain ?_ (.binary (name "a" _) (t .minus "-") rfl (.plain ?_ (.binary
      (.parens ⟨t .openParen "(", rfl⟩ (.plain ?_ difference) ⟨t .closeParen ")", rfl⟩)
      (t .star "*") rfl (.plain ?_ negated)))), rfl, ?_⟩
    · exact (by decide : Precedence.lowest < Precedence.sum)
    · exact (by decide : Precedence.sum < Precedence.product)
    · exact (by decide : Precedence.lowest < Precedence.sum)
    · exact trivial
    · decide
  exact ⟨rendered, parseTokens_of_renderedAs rendered (by decide) rfl⟩

end Parse
end Scriptlet
