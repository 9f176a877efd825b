import Scriptlet.Proofs.Parse.Completeness

/-!
# Reading that is given up

An expression that lies too deep ends all reading: the end of file is the current token from there
on, and nothing more is reported. Every form around the expression ends in that state, whatever
tokens it still lacks.

- `State.lost` : the state behind an expression that lies too deep
- `GivesUpAs`, `GivesUp` : reading ends in that state, whatever stands behind a token
- `GivesUpStmts`, `GivesUpOperand` : the same for rows of statements and for operands
- `GivesUpList`, `GivesUpEntries` : the same inside brackets
-/

namespace Scriptlet

/-- A sealed report takes no more findings. -/
@[simp] theorem Report.add_close {α : Type} (report : Report α) (last next : Option α) :
    (report.close last).add next = report.close last := by
  cases next <;> rfl

namespace Parse

/-! ## The state behind an expression that lies too deep -/

/-- All tokens but the end of file are used up, and the last finding is that expressions nest too
deeply. -/
def State.lost (eof : Token.Of .eof) (token : Token) (report : Report Diagnostic) : State :=
  ⟨eof.val, [], report.close (some ⟨token.pos, .tooDeep⟩)⟩

section Lost

variable {eof : Token.Of .eof} {token : Token} {report : Report Diagnostic} {sub : ExprReader}

/-- Behind the end of the input there is nothing to advance to. -/
@[simp] theorem State.advance_lost : (lost eof token report).advance = lost eof token report := rfl

@[simp] theorem State.peek_kind_lost : (lost eof token report).peek.kind = .eof := eof.property

@[simp] theorem State.skipSemicolon_lost :
    (lost eof token report).skipSemicolon = lost eof token report := by
  simp [State.skipSemicolon]

/-- Nothing is found at the end of file, and that is not reported. -/
theorem State.expect_lost {kind : Token.Kind} (more : kind ≠ .eof) :
    (lost eof token report).expect kind = .error (lost eof token report) := by
  have hpeek : (lost eof token report).peek.kind ≠ kind := by
    rw [State.peek_kind_lost]
    exact more.symm
  -- The report is sealed, so the fault leaves it as it is.
  have hfault (cause : Diagnostic.Cause) (found : Token) :
      (lost eof token report).fault found cause = lost eof token report := by
    simp [State.fault, State.lost]
  simp only [State.expect, hpeek, if_false, hfault, ite_self]

/-- A form that lacks something at the end of file leaves a bad expression there. -/
theorem orBad_lost :
    orBad (.error (.lost eof token report)) = (.bad eof, .lost eof token report) := rfl

/-- No operator follows once the reader has given up. -/
theorem operators_lost {bound precedence : Nat} (low : Precedence.lowest ≤ precedence)
    (fuel : Nat) (left : Expr) :
    operators bound sub precedence fuel left (.lost eof token report) =
      (left, .lost eof token report) := by
  apply operators_of_stop
  rw [State.peek_kind_lost]
  exact low

/-- No statement does. -/
theorem statements_lost {stop : Token.Kind → Bool} (stops : stop .eof = true) (found : List Stmt)
    (fuel : Nat) :
    statements sub stop found fuel (.lost eof token report) =
      (found.reverse, .lost eof token report) := by
  apply statements_of_stop
  rw [State.lost, eof.property]
  exact stops

/-- A list cannot be closed any more. -/
theorem moreExprs_lost {close : Token.Kind} (more : close ≠ .eof) (found : List Expr) (fuel : Nat) :
    moreExprs sub close found fuel (.lost eof token report) = .error (.lost eof token report) := by
  -- No comma stands at the end of file, so the loop asks for the closing bracket at once.
  cases fuel with
  | zero => simp only [moreExprs, State.expect_lost more, bind, Except.bind]
  | succ fuel =>
      simp only [moreExprs, State.peek_kind_lost, reduceCtorEq, if_false, State.expect_lost more,
        bind, Except.bind]

/-- Giving up passes over all tokens but the end of the input. -/
theorem tooDeep_of_tokens {rest : List Token} {s : State}
    (tokens : s.tokens = token :: (rest ++ [eof.val])) :
    tooDeep s = (.bad eof, .lost eof token s.report) := by
  rcases s with ⟨cur, ahead, report⟩
  obtain ⟨rfl, rfl⟩ := List.cons.inj tokens
  simp [tooDeep, State.drain, State.bad, State.lost]

end Lost

/-! ## Giving up -/

/-- The first token of a row up to a given one. -/
theorem exists_rest_of_headD (before : List Token) (token : Token) (more : List Token) :
    ∃ rest, before ++ token :: more = before.headD token :: rest := by
  cases before with
  | nil => exact ⟨more, rfl⟩
  | cons first before => exact ⟨before ++ token :: more, rfl⟩

/-- If reading comes to the given token, it loses all that stands behind it. -/
def GivesUpAs {β : Type} (eof : Token.Of .eof) (before : List Token) (token : Token)
    (read : Nat → State → β) (outcome : State → β) : Prop :=
  ∀ ⦃bound : Nat⦄ ⦃rest : List Token⦄ ⦃s : State⦄, before.length + rest.length + 2 ≤ bound →
    s.tokens = before ++ token :: (rest ++ [eof.val]) →
    read bound s = outcome (.lost eof token s.report)

/-- Reading is given up at a token, with a tree that does not depend on what stands behind it. -/
def GivesUp {α : Type} (before : List Token) (token : Token) (read : Nat → State → α × State) :
    Prop :=
  ∀ eof : Token.Of .eof, ∃ tree, GivesUpAs eof before token read (Prod.mk tree)

/-- The tokens begin behind the current one. -/
theorem GivesUpAs.advance {β : Type} {eof : Token.Of .eof} {before : List Token} {token : Token}
    {read : Nat → State → β} {outcome : State → β} {rest : List Token} {s : State}
    (up : GivesUpAs eof before token read outcome) (bound : Nat)
    (room : before.length + rest.length + 2 ≤ bound)
    (ahead : s.ahead = before ++ token :: (rest ++ [eof.val])) :
    read bound s.advance = outcome (.lost eof token s.report) := by
  have htokens : s.advance.tokens = before ++ token :: (rest ++ [eof.val]) := by
    rw [State.tokens_advance (by simp [ahead]), ahead]
  rw [up room htokens, s.report_advance]

section Forms

variable {sub : Nat → ExprReader} {before : List Token} {token : Token}

/-! ## Statements -/

/-- A definition gives up where its value does. -/
theorem define_givesUp (word : Token.Of .letKw) (name : Token.Of .ident) (sign : Token.Of .assign)
    (value : GivesUp before token fun bound => sub bound Precedence.lowest) :
    GivesUp (word.val :: name.val :: sign.val :: before) token fun bound =>
      statement (sub bound) := by
  intro eof
  rcases value eof with ⟨e, hvalue⟩
  refine ⟨some (.define word ⟨name, name.val.text⟩ e), ?_⟩
  intro bound rest s room tokens
  obtain ⟨hcur, hahead⟩ := List.cons.inj tokens
  simp only [List.length_cons] at room
  have hname := State.expect_of_ahead name hahead
  have heq := hvalue.advance (s := ⟨sign.val, before ++ token :: (rest ++ [eof.val]), s.report⟩)
    bound (by omega) rfl
  have hdefine : define (sub bound) s =
      .ok (.define word ⟨name, name.val.text⟩ e, .lost eof token s.report) := by
    simp only [define, hname, bind, Except.bind, List.append_eq, List.cons_append, State.expect_mk,
      heq, pure, Except.pure, State.ident, hcur, State.skipSemicolon_lost]
  simp only [statement, hcur, word.property, hdefine]

/-- A return gives up where its value does. -/
theorem returnValue_givesUp (word : Token.Of .returnKw)
    (starts : (before.headD token).kind.startsExpr = true)
    (value : GivesUp before token fun bound => sub bound Precedence.lowest) :
    GivesUp (word.val :: before) token fun bound => statement (sub bound) := by
  intro eof
  rcases value eof with ⟨e, hvalue⟩
  refine ⟨some (.returnValue word e), ?_⟩
  intro bound rest s room tokens
  obtain ⟨hcur, hahead⟩ := List.cons.inj tokens
  simp only [List.length_cons] at room
  have heq := hvalue.advance bound (by omega) hahead
  rcases exists_rest_of_headD before token (rest ++ [eof.val]) with ⟨more, hmore⟩
  have hreturn : returning (sub bound) s = _ := returning_of_startsExpr (hahead.trans hmore) starts
  simp only [statement, hcur, word.property, hreturn, heq, State.skipSemicolon_lost]

/-- An expression in the place of a statement gives up where it does. -/
theorem exprStmt_givesUp (starts : (before.headD token).kind.startsExpr = true)
    (value : GivesUp before token fun bound => sub bound Precedence.lowest) :
    GivesUp before token fun bound => statement (sub bound) := by
  intro eof
  rcases value eof with ⟨e, hvalue⟩
  refine ⟨some (.expr (before.headD token) e), ?_⟩
  intro bound rest s room tokens
  rcases exists_rest_of_headD before token (rest ++ [eof.val]) with ⟨more, hmore⟩
  have hcur : s.cur = before.headD token := (List.cons.inj (tokens.trans hmore)).1
  simp only [statement_of_startsExpr (by rw [hcur]; exact starts), hvalue room tokens, hcur,
    State.skipSemicolon_lost]

/-! ## Statements in a row -/

/-- A row of statements in which reading is given up, behind those that were found before. -/
def GivesUpStmts (sub : Nat → ExprReader) (before : List Token) (token : Token) : Prop :=
  ∀ (eof : Token.Of .eof) ⦃stop : Token.Kind → Bool⦄ (found : List Stmt), Ends stop →
    stop .eof = true →
    ∃ sts, ∀ fuel : Nat, before.length < fuel →
      GivesUpAs eof before token (fun bound => statements (sub bound) stop found fuel)
        (Prod.mk sts)

/-- Reading is given up in the next statement. -/
theorem stmtsHead_givesUp (starts : (before.headD token).kind.startsStmt = true)
    (head : GivesUp before token fun bound => statement (sub bound)) :
    GivesUpStmts sub before token := by
  intro eof stop found ends stops
  rcases head eof with ⟨st, hhead⟩
  refine ⟨(st.toList ++ found).reverse, ?_⟩
  intro fuel enough bound rest s room tokens
  obtain ⟨fuel, rfl⟩ : ∃ f, fuel = f + 1 := ⟨fuel - 1, by omega⟩
  rcases exists_rest_of_headD before token (rest ++ [eof.val]) with ⟨more, hmore⟩
  have hgoes : stop s.cur.kind = false := by
    rw [(List.cons.inj (tokens.trans hmore)).1]
    exact ends.go_on (.inr starts)
  have heq := hhead room tokens
  -- The row ends at the end of file, with this statement as its last one.
  cases st with
  | none =>
      simp only [statements, hgoes, Bool.false_eq_true, if_false, heq, State.advance_lost,
        statements_lost stops, Option.toList_none, List.nil_append]
  | some st =>
      simp only [statements, hgoes, Bool.false_eq_true, if_false, heq, State.advance_lost,
        statements_lost stops, Option.toList_some, List.cons_append, List.nil_append]

/-- A semicolon in front makes no difference. -/
theorem semicolon_givesUp (sign : Token.Of .semicolon) (later : GivesUpStmts sub before token) :
    GivesUpStmts sub (sign.val :: before) token := by
  intro eof stop found ends stops
  rcases later eof found ends stops with ⟨sts, hlater⟩
  refine ⟨sts, ?_⟩
  intro fuel enough bound rest s room tokens
  obtain ⟨hcur, hahead⟩ := List.cons.inj tokens
  simp only [List.length_cons] at room enough
  obtain ⟨fuel, rfl⟩ : ∃ f, fuel = f + 1 := ⟨fuel - 1, by omega⟩
  simp only [statements_of_semicolon ends (by rw [hcur, sign.property])]
  exact (hlater fuel (by omega)).advance bound (by omega) hahead

/-- Reading is given up behind a statement that is read back. -/
theorem stmtsRest_givesUp {st : Stmt} {first : Token} {ts : List Token}
    (starts : first.kind.startsStmt = true)
    (head : ∀ bound, FetchesStmt bound (sub bound) st false (first :: ts))
    (noElse : (before.headD token).kind ≠ .elseKw)
    (apart : st.MayPrecede (before.headD token).kind) (later : GivesUpStmts sub before token) :
    GivesUpStmts sub (first :: ts ++ before) token := by
  intro eof stop found ends stops
  rcases later eof (st :: found) ends stops with ⟨sts, hlater⟩
  refine ⟨sts, ?_⟩
  intro fuel enough bound rest s room tokens
  simp only [List.cons_append, List.length_cons, List.length_append] at room enough
  obtain ⟨fuel, rfl⟩ : ∃ f, fuel = f + 1 := ⟨fuel - 1, by omega⟩
  have hcur : s.cur = first := (List.cons.inj tokens).1
  have hgoes : stop s.cur.kind = false := by
    rw [hcur]
    exact ends.go_on (.inr starts)
  -- The statement ends in front of the first token of the rest.
  rcases exists_rest_of_headD before token (rest ++ [eof.val]) with ⟨more, hmore⟩
  have hlength := congrArg List.length hmore
  simp only [List.length_append, List.length_cons, List.length_nil] at hlength
  have htokens : s.tokens = (first :: ts) ++ before.headD token :: more := by
    rw [tokens, List.append_assoc, hmore]
  rcases head bound ⟨noElse, nofun⟩ apart (by simp only [List.length_cons]; omega) htokens with
    ⟨s', heq, hgo⟩
  have hahead : s'.ahead = before ++ token :: (rest ++ [eof.val]) := by rw [hgo.lands, hmore]
  rcases exists_statements_skipSemicolon (sub bound) ends (st :: found) fuel s' with
    ⟨turns, hturns, hskip⟩
  have hrest := (hlater turns (by omega)).advance bound (by omega) hahead
  rw [hgo.report] at hrest
  simp only [statements, hgoes, Bool.false_eq_true, if_false, heq, hskip, hrest]

/-- A block gives up where one of its statements does. -/
theorem block_givesUp (opening : Token.Of .openBrace) (body : GivesUpStmts sub before token) :
    GivesUp (opening.val :: before) token fun bound => block bound (sub bound) := by
  intro eof
  rcases body eof [] ends_endsBlock rfl with ⟨sts, hbody⟩
  refine ⟨.mk opening sts, ?_⟩
  intro bound rest s room tokens
  obtain ⟨hcur, hahead⟩ := List.cons.inj tokens
  simp only [List.length_cons] at room
  have heq := (hbody bound (by omega)).advance bound (by omega) hahead
  simp only [block, heq, hcur]

/-! ## Operands -/

def GivesUpOperand (sub : Nat → ExprReader) (before : List Token) (token : Token) : Prop :=
  ∀ eof : Token.Of .eof, ∃ e,
    GivesUpAs eof before token (fun bound => operand bound (sub bound)) fun s => .ok (e, s)

/-- A unary expression gives up where its operand does. -/
theorem unary_givesUp {op : UnaryOp} (sign : Token) (is_op : UnaryOp.ofKind? sign.kind = some op)
    (inner : GivesUp before token fun bound => sub bound Precedence.unary) :
    GivesUpOperand sub (sign :: before) token := by
  intro eof
  rcases inner eof with ⟨e, hinner⟩
  refine ⟨.unary sign op e, ?_⟩
  intro bound rest s room tokens
  obtain ⟨hcur, hahead⟩ := List.cons.inj tokens
  simp only [List.length_cons] at room
  have heq := hinner.advance bound (by omega) hahead
  simp only [operand_of_unary (by rw [hcur]; exact is_op), unary, heq, hcur]

/-- Parentheses give up where what is in them does. -/
theorem grouped_givesUp (opening : Token.Of .openParen)
    (inner : GivesUp before token fun bound => sub bound Precedence.lowest) :
    GivesUpOperand sub (opening.val :: before) token := by
  intro eof
  rcases inner eof with ⟨e, hinner⟩
  refine ⟨.bad eof, ?_⟩
  intro bound rest s room tokens
  obtain ⟨hcur, hahead⟩ := List.cons.inj tokens
  simp only [List.length_cons] at room
  have heq := hinner.advance bound (by omega) hahead
  simp only [operand, hcur, opening.property, grouped, heq, State.expect_lost, ne_eq, reduceCtorEq,
    not_false_eq_true, bind, Except.bind, orBad_lost]

/-! ## Conditionals, loops and functions -/

/-- The test of a conditional or loop, whatever word stands in front of it. -/
theorem condition_givesUp (word : Token) (opening : Token.Of .openParen)
    (test : GivesUp before token fun bound => sub bound Precedence.lowest) (eof : Token.Of .eof) :
    GivesUpAs eof (word :: opening.val :: before) token (fun bound => condition (sub bound))
      .error := by
  rcases test eof with ⟨e, htest⟩
  intro bound rest s room tokens
  obtain ⟨-, hahead⟩ := List.cons.inj tokens
  simp only [List.length_cons] at room
  have heq := htest.advance (s := ⟨opening.val, before ++ token :: (rest ++ [eof.val]), s.report⟩)
    bound (by omega) rfl
  simp only [condition, State.expect_of_ahead opening hahead, List.append_eq, heq,
    State.expect_lost, ne_eq, reduceCtorEq, not_false_eq_true, bind, Except.bind]

/-- A conditional gives up where its condition does. -/
theorem ifTest_givesUp (word : Token.Of .ifKw) (opening : Token.Of .openParen)
    (test : GivesUp before token fun bound => sub bound Precedence.lowest) :
    GivesUpOperand sub (word.val :: opening.val :: before) token := by
  intro eof
  refine ⟨.bad eof, ?_⟩
  intro bound rest s room tokens
  have hcur : s.cur = word.val := (List.cons.inj tokens).1
  have htest := condition_givesUp word.val opening test eof room tokens
  simp only [operand, hcur, word.property, conditional, htest, bind, Except.bind, orBad_lost]

/-- So does a loop. -/
theorem whileTest_givesUp (word : Token.Of .whileKw) (opening : Token.Of .openParen)
    (test : GivesUp before token fun bound => sub bound Precedence.lowest) :
    GivesUpOperand sub (word.val :: opening.val :: before) token := by
  intro eof
  refine ⟨.bad eof, ?_⟩
  intro bound rest s room tokens
  have hcur : s.cur = word.val := (List.cons.inj tokens).1
  have htest := condition_givesUp word.val opening test eof room tokens
  simp only [operand, hcur, word.property, whileLoop, htest, bind, Except.bind, orBad_lost]

/-- A block behind the current token. -/
theorem GivesUpAs.expect_block {eof : Token.Of .eof} {b : Block}
    (up : GivesUpAs eof before token (fun bound => block bound (sub bound)) (Prod.mk b))
    (brace : (before.headD token).kind = .openBrace) (cur : Token) (report : Report Diagnostic)
    {bound : Nat} {rest : List Token} (room : before.length + rest.length + 2 ≤ bound) :
    ∃ s, State.expect ⟨cur, before ++ token :: (rest ++ [eof.val]), report⟩ .openBrace = .ok s ∧
      block bound (sub bound) s = (b, .lost eof token report) := by
  rcases exists_rest_of_headD before token (rest ++ [eof.val]) with ⟨more, hmore⟩
  refine ⟨⟨before.headD token, more, report⟩, ?_, up room hmore.symm⟩
  rw [hmore]
  exact State.expect_mk cur ⟨before.headD token, brace⟩ more report

/-- A conditional whose condition can be read gives up where its block does. -/
theorem ifBody_givesUp {test : Expr} {ts : List Token} (word : Token.Of .ifKw)
    (opening : Token.Of .openParen)
    (fetch : ∀ bound, Fetches bound (sub bound) Precedence.lowest test false ts)
    (closing : Token.Of .closeParen) (brace : (before.headD token).kind = .openBrace)
    (body : GivesUp before token fun bound => block bound (sub bound)) :
    GivesUpOperand sub (word.val :: opening.val :: (ts ++ closing.val :: before)) token := by
  intro eof
  rcases body eof with ⟨yes, hbody⟩
  refine ⟨.ifThen word test yes, ?_⟩
  intro bound rest s room tokens
  obtain ⟨hcur, hahead⟩ := List.cons.inj tokens
  simp only [List.length_cons, List.length_append] at room
  simp only [List.append_eq, List.cons_append, List.append_assoc] at hahead
  have hcond := condition_of_ahead opening (fetch bound) closing
    (by simp only [List.length_append, List.length_cons, List.length_nil]; omega) hahead
  have hroom : before.length + rest.length + 2 ≤ bound := by omega
  rcases hbody.expect_block brace closing.val s.report hroom with ⟨s₁, hbrace, hblock⟩
  -- There is no `else` at the end of file, even if one was written behind the block.
  simp only [operand, hcur, word.property, conditional, hcond, hbrace, hblock,
    State.peek_kind_lost, reduceCtorEq, if_false, bind, Except.bind, pure, Except.pure, orBad]

/-- One whose first block can be read gives up where the second does. -/
theorem elseBody_givesUp {test : Expr} {yes : Block} {ts us : List Token}
    {first : Token.Of .openBrace} (word : Token.Of .ifKw) (opening : Token.Of .openParen)
    (fetch : ∀ bound, Fetches bound (sub bound) Precedence.lowest test false ts)
    (closing : Token.Of .closeParen)
    (body : ∀ bound, FetchesBlock bound (sub bound) yes false (first.val :: us))
    (other : Token.Of .elseKw) (brace : (before.headD token).kind = .openBrace)
    (otherBody : GivesUp before token fun bound => block bound (sub bound)) :
    GivesUpOperand sub (word.val :: opening.val :: (ts ++ closing.val :: (first.val :: us ++
      other.val :: before))) token := by
  intro eof
  rcases otherBody eof with ⟨no, hother⟩
  refine ⟨.ifElse word test yes no, ?_⟩
  intro bound rest s room tokens
  obtain ⟨hcur, hahead⟩ := List.cons.inj tokens
  simp only [List.length_cons, List.length_append] at room
  simp only [List.append_eq, List.cons_append, List.append_assoc] at hahead
  have hcond := condition_of_ahead opening (fetch bound) closing
    (by simp only [List.length_append, List.length_cons, List.length_nil]; omega) hahead
  have hbehind : us.length + 1 + (before ++ token :: (rest ++ [eof.val])).length < bound := by
    simp only [List.length_append, List.length_cons, List.length_nil]
    omega
  -- The first block ends right before the `else`.
  rcases (body bound).advance closing.val s.report nofun hbehind with
    ⟨s₁, hbrace, hblock, hlands, hreport⟩
  have hpeek : s₁.peek.kind = .elseKw := by
    rw [State.peek_of_ahead hlands, other.property]
  have hadvance := State.advance_of_ahead hlands
  rw [hreport] at hadvance
  have hroom : before.length + rest.length + 2 ≤ bound := by omega
  rcases hother.expect_block brace other.val s.report hroom with ⟨s₂, hbrace', hblock'⟩
  simp only [operand, hcur, word.property, conditional, hcond, hbrace, hblock, hpeek, hadvance,
    hbrace', hblock', bind, Except.bind, pure, Except.pure, if_true, orBad]

/-- A loop whose condition can be read gives up where its block does. -/
theorem whileBody_givesUp {test : Expr} {ts : List Token} (word : Token.Of .whileKw)
    (opening : Token.Of .openParen)
    (fetch : ∀ bound, Fetches bound (sub bound) Precedence.lowest test false ts)
    (closing : Token.Of .closeParen) (brace : (before.headD token).kind = .openBrace)
    (body : GivesUp before token fun bound => block bound (sub bound)) :
    GivesUpOperand sub (word.val :: opening.val :: (ts ++ closing.val :: before)) token := by
  intro eof
  rcases body eof with ⟨turn, hbody⟩
  refine ⟨.whileDo word test turn, ?_⟩
  intro bound rest s room tokens
  obtain ⟨hcur, hahead⟩ := List.cons.inj tokens
  simp only [List.length_cons, List.length_append] at room
  simp only [List.append_eq, List.cons_append, List.append_assoc] at hahead
  have hcond := condition_of_ahead opening (fetch bound) closing
    (by simp only [List.length_append, List.length_cons, List.length_nil]; omega) hahead
  have hroom : before.length + rest.length + 2 ≤ bound := by omega
  rcases hbody.expect_block brace closing.val s.report hroom with ⟨s₁, hbrace, hblock⟩
  simp only [operand, hcur, word.property, whileLoop, hcond, hbrace, hblock, bind, Except.bind,
    pure, Except.pure, orBad]

/-- A function literal gives up where its block does. -/
theorem functionBody_givesUp {names : List Ident} {ts : List Token} (word : Token.Of .fnKw)
    (opening : Token.Of .openParen) (list : ParamList names ts) (closing : Token.Of .closeParen)
    (brace : (before.headD token).kind = .openBrace)
    (body : GivesUp before token fun bound => block bound (sub bound)) :
    GivesUpOperand sub (word.val :: opening.val :: (ts ++ closing.val :: before)) token := by
  intro eof
  rcases body eof with ⟨code, hbody⟩
  refine ⟨.function word names code, ?_⟩
  intro bound rest s room tokens
  obtain ⟨hcur, hahead⟩ := List.cons.inj tokens
  simp only [List.length_cons, List.length_append] at room
  simp only [List.append_eq, List.cons_append, List.append_assoc] at hahead
  have hparams := params_of_ahead
    (s := ⟨opening.val, ts ++ closing.val :: (before ++ token :: (rest ++ [eof.val])), s.report⟩)
    list closing (show ts.length ≤ bound by omega) rfl
  have hroom : before.length + rest.length + 2 ≤ bound := by omega
  rcases hbody.expect_block brace closing.val s.report hroom with ⟨s₁, hbrace, hblock⟩
  simp only [operand, hcur, word.property, function, State.expect_of_ahead opening hahead, hparams,
    hbrace, hblock, bind, Except.bind, pure, Except.pure, orBad]

/-! ## Lists in brackets -/

/-- Expressions with commas between them in which reading is given up, behind those that were found
before. -/
def GivesUpList (sub : Nat → ExprReader) (before : List Token) (token : Token) : Prop :=
  ∀ (eof : Token.Of .eof) ⦃close : Token.Kind⦄ (sign : Token) (found : List Expr) (fuel : Nat),
    close ≠ .eof → before.length ≤ fuel →
    GivesUpAs eof (sign :: before) token
      (fun bound s => moreExprs (sub bound) close ((sub bound Precedence.lowest s.advance).1 :: found)
        fuel (sub bound Precedence.lowest s.advance).2) .error

/-- Reading is given up in the next expression. -/
theorem listItem_givesUp (item : GivesUp before token fun bound => sub bound Precedence.lowest) :
    GivesUpList sub before token := by
  intro eof close sign found fuel more _ bound rest s room tokens
  rcases item eof with ⟨e, hitem⟩
  obtain ⟨-, hahead⟩ := List.cons.inj tokens
  simp only [List.length_cons] at room
  have heq := hitem.advance bound (by omega) hahead
  simp only [heq, moreExprs_lost more]

/-- Reading is given up behind an expression that is read back. -/
theorem listRest_givesUp {e : Expr} {ts : List Token}
    (item : ∀ bound, Fetches bound (sub bound) Precedence.lowest e false ts)
    (comma : Token.Of .comma) (later : GivesUpList sub before token) :
    GivesUpList sub (ts ++ comma.val :: before) token := by
  intro eof close sign found fuel more enough bound rest s room tokens
  obtain ⟨-, hahead⟩ := List.cons.inj tokens
  simp only [List.length_append, List.length_cons] at room enough
  simp only [List.append_eq, List.append_assoc, List.cons_append] at hahead
  obtain ⟨fuel, rfl⟩ : ∃ f, fuel = f + 1 := ⟨fuel - 1, by omega⟩
  rcases (item bound).between comma rfl (by simp)
    (by simp only [List.length_append, List.length_cons, List.length_nil]; omega) hahead with
    ⟨s', heq, hahead', hreport⟩
  have hpeek : s'.peek.kind = .comma := by
    rw [State.peek_of_ahead hahead', comma.property]
  -- From the comma on the rest is read like a list of its own, with one more item found.
  have hroom : (comma.val :: before).length + rest.length + 2 ≤ bound := by
    simp only [List.length_cons]
    omega
  have hlater := later eof comma.val (e :: found) fuel more (by omega)
    (s := ⟨comma.val, before ++ token :: (rest ++ [eof.val]), s.report⟩) hroom rfl
  simp only [heq, moreExprs, hpeek, if_true, State.advance_of_ahead hahead', hreport, hlater]

/-- A whole list, from the opening bracket on. -/
theorem exprList_givesUp {close : Token.Kind} (closes : Closes close) (more : close ≠ .eof)
    (opening : Token) (starts : (before.headD token).kind.startsExpr = true)
    (items : GivesUpList sub before token) (eof : Token.Of .eof) :
    GivesUpAs eof (opening :: before) token (fun bound => exprList bound (sub bound) close)
      .error := by
  intro bound rest s room tokens
  rcases exists_rest_of_headD before token (rest ++ [eof.val]) with ⟨later, hlater⟩
  have hpeek : s.peek.kind ≠ close := by
    rw [State.peek_of_ahead ((List.cons.inj tokens).2.trans hlater)]
    exact Token.Kind.ne_of_startsExpr starts closes.noStart
  have hitems := items eof opening [] bound more (by simp only [List.length_cons] at room; omega)
    room tokens
  simp only [exprList, hpeek, if_false, hitems]

/-- An array literal gives up where one of its items does. -/
theorem array_givesUp (opening : Token.Of .openBracket)
    (starts : (before.headD token).kind.startsExpr = true)
    (items : GivesUpList sub before token) : GivesUpOperand sub (opening.val :: before) token := by
  intro eof
  refine ⟨.bad eof, ?_⟩
  intro bound rest s room tokens
  have hcur : s.cur = opening.val := (List.cons.inj tokens).1
  have hlist := exprList_givesUp closes_closeBracket (by simp) opening.val starts items eof room
    tokens
  simp only [operand, hcur, opening.property, array, hlist, bind, Except.bind, orBad_lost]

/-! ## Hashes -/

/-- Entries in which reading is given up, behind those that were found before. -/
def GivesUpEntries (sub : Nat → ExprReader) (before : List Token) (token : Token) : Prop :=
  ∀ (eof : Token.Of .eof) (sign : Token) (found : List (Expr × Expr)) (fuel : Nat),
    before.length < fuel →
    GivesUpAs eof (sign :: before) token (fun bound => pairs (sub bound) found fuel) .error

/-- The entries of a hash literal give up where the first key does. -/
theorem entryKey_givesUp (starts : (before.headD token).kind.startsExpr = true)
    (key : GivesUp before token fun bound => sub bound Precedence.lowest) :
    GivesUpEntries sub before token := by
  intro eof sign found fuel enough bound rest s room tokens
  rcases key eof with ⟨k, hkey⟩
  obtain ⟨-, hahead⟩ := List.cons.inj tokens
  simp only [List.length_cons] at room
  obtain ⟨fuel, rfl⟩ : ∃ f, fuel = f + 1 := ⟨fuel - 1, by omega⟩
  rcases exists_rest_of_headD before token (rest ++ [eof.val]) with ⟨more, hmore⟩
  have hopen := peek_ne_closeBrace starts (hahead.trans hmore)
  have heq := hkey.advance bound (by omega) hahead
  simp only [pairs, hopen, if_false, pair, heq, State.expect_lost, ne_eq, reduceCtorEq,
    not_false_eq_true, bind, Except.bind]

/-- If the key can be read, they give up where the value does. -/
theorem entryValue_givesUp {k : Expr} {first : Token} {ts : List Token}
    (starts : first.kind.startsExpr = true)
    (key : ∀ bound, Fetches bound (sub bound) Precedence.lowest k false (first :: ts))
    (colon : Token.Of .colon)
    (value : GivesUp before token fun bound => sub bound Precedence.lowest) :
    GivesUpEntries sub (first :: ts ++ colon.val :: before) token := by
  intro eof sign found fuel enough bound rest s room tokens
  rcases value eof with ⟨v, hvalue⟩
  obtain ⟨-, hahead⟩ := List.cons.inj tokens
  simp only [List.cons_append, List.length_append, List.length_cons] at room
  simp only [List.append_eq, List.cons_append, List.append_assoc] at hahead
  obtain ⟨fuel, rfl⟩ : ∃ f, fuel = f + 1 := ⟨fuel - 1, by omega⟩
  have hopen := peek_ne_closeBrace starts hahead
  rcases (key bound).between colon rfl (by simp)
    (by simp only [List.length_append, List.length_cons, List.length_nil]; omega) hahead with
    ⟨s₁, hkey, hahead₁, hreport⟩
  have heq := hvalue.advance
    (s := ⟨colon.val, before ++ token :: (rest ++ [eof.val]), s.report⟩) bound (by omega) rfl
  -- Behind the value neither a brace nor a comma is found.
  simp only [pairs, hopen, if_false, pair, hkey, State.expect_of_ahead colon hahead₁, heq, hreport,
    State.peek_kind_lost, State.expect_lost, ne_eq, reduceCtorEq, not_false_eq_true, bind,
    Except.bind, pure, Except.pure]

/-- If the first entry can be read, they give up where the others do. -/
theorem entriesRest_givesUp {k v : Expr} {first : Token} {ts us : List Token}
    (starts : first.kind.startsExpr = true)
    (key : ∀ bound, Fetches bound (sub bound) Precedence.lowest k false (first :: ts))
    (colon : Token.Of .colon)
    (value : ∀ bound, Fetches bound (sub bound) Precedence.lowest v false us)
    (comma : Token.Of .comma) (later : GivesUpEntries sub before token) :
    GivesUpEntries sub (first :: ts ++ colon.val :: (us ++ comma.val :: before)) token := by
  intro eof sign found fuel enough bound rest s room tokens
  obtain ⟨-, hahead⟩ := List.cons.inj tokens
  simp only [List.cons_append, List.length_append, List.length_cons] at room enough
  simp only [List.append_eq, List.cons_append, List.append_assoc] at hahead
  obtain ⟨fuel, rfl⟩ : ∃ f, fuel = f + 1 := ⟨fuel - 1, by omega⟩
  have hopen := peek_ne_closeBrace starts hahead
  rcases pair_of_ahead (key bound) colon (value bound) comma rfl (by simp)
    (by simp only [List.length_append, List.length_cons, List.length_nil]; omega) hahead with
    ⟨s', hpair, hahead', hreport⟩
  have hpeek : s'.peek.kind ≠ .closeBrace := by
    rw [State.peek_of_ahead hahead', comma.property]
    simp
  have hcomma := State.expect_of_ahead comma hahead'
  have hroom : (comma.val :: before).length + rest.length + 2 ≤ bound := by
    simp only [List.length_cons]
    omega
  have hlater := later eof comma.val ((k, v) :: found) fuel (by omega)
    (s := ⟨comma.val, before ++ token :: (rest ++ [eof.val]), s.report⟩) hroom rfl
  simp only [pairs, hopen, if_false, hpair, hpeek, hcomma, hreport, hlater, bind, Except.bind]

/-- A hash literal gives up where its entries do. -/
theorem hash_givesUp (opening : Token.Of .openBrace) (items : GivesUpEntries sub before token) :
    GivesUpOperand sub (opening.val :: before) token := by
  intro eof
  refine ⟨.bad eof, ?_⟩
  intro bound rest s room tokens
  have hcur : s.cur = opening.val := (List.cons.inj tokens).1
  have hpairs := items eof opening.val [] bound (by simp only [List.length_cons] at room; omega)
    room tokens
  simp only [operand, hcur, opening.property, hash, hpairs, bind, Except.bind, orBad_lost]

end Forms

/-! ## Operators behind an operand -/

section Level

variable {levels precedence : Nat} {before ts : List Token} {token : Token}

/-- An expression gives up where its first operand does: no operator is read after that. -/
theorem GivesUpOperand.lead {sub : Nat → ExprReader} (up : GivesUpOperand sub before token)
    (low : Precedence.lowest ≤ precedence) :
    GivesUp before token fun bound => exprLevel bound (sub bound) precedence := by
  intro eof
  rcases up eof with ⟨e, hup⟩
  refine ⟨e, ?_⟩
  intro bound rest s room tokens
  simp only [exprLevel, hup room tokens, operators_lost low]

/-- An operator that gives up behind what stands in front of it. -/
theorem operator_givesUp {left : Expr} {sign : Token} {sequel : Sequel}
    (low : Precedence.lowest ≤ precedence)
    (front : ∀ bound, FetchesLead bound levels precedence left false ts sign)
    (starts : Sequel.ofKind? sign.kind = some sequel)
    (binds : precedence < Precedence.ofKind sign.kind)
    (up : GivesUp (sign :: before) token fun bound =>
      operator bound (expr bound levels) sequel left) :
    GivesUp (ts ++ sign :: before) token fun bound =>
      exprLevel bound (expr bound levels) precedence := by
  intro eof
  rcases up eof with ⟨e, hup⟩
  refine ⟨e, ?_⟩
  intro bound rest s room tokens
  simp only [List.length_append, List.length_cons] at room
  simp only [List.append_assoc, List.cons_append] at tokens
  have hfront : ts.length + (before ++ token :: (rest ++ [eof.val])).length < bound := by
    simp only [List.length_append, List.length_cons, List.length_nil]
    omega
  rcases front bound ⟨(Sequel.ne_of_starts starts).2.2, nofun⟩ hfront tokens with
    ⟨s₁, fuel, heq, henough, hgo⟩
  -- The sign is still ahead, so there is fuel for its turn; behind it nothing binds any more.
  obtain ⟨fuel, rfl⟩ : ∃ f, fuel = f + 1 := ⟨fuel - 1, by omega⟩
  have hroom : (sign :: before).length + rest.length + 2 ≤ bound := by
    simp only [List.length_cons]
    omega
  have hop := hup (s := ⟨sign, before ++ token :: (rest ++ [eof.val]), s₁.report⟩) hroom rfl
  simp only [heq, operators_of_ahead hgo.lands starts binds hop, operators_lost low, hgo.report]

/-- A binary expression whose left operand can be read gives up where the right one does. -/
theorem binary_givesUp {op : BinaryOp} {left : Expr} {sign : Token}
    (low : Precedence.lowest ≤ precedence)
    (front : ∀ bound, FetchesLead bound levels precedence left false ts sign)
    (is_op : BinaryOp.ofKind? sign.kind = some op) (binds : precedence < op.precedence)
    (behind : GivesUp before token fun bound => expr bound levels op.precedence) :
    GivesUp (ts ++ sign :: before) token fun bound =>
      exprLevel bound (expr bound levels) precedence := by
  have hprec := BinaryOp.precedence_of_ofKind? is_op
  refine operator_givesUp low front (Sequel.ofKind?_eq_binary_iff.2 is_op)
    (by rw [hprec]; exact binds) ?_
  intro eof
  rcases behind eof with ⟨right, hbehind⟩
  refine ⟨.binary sign op left right, ?_⟩
  intro bound rest s room tokens
  obtain ⟨hcur, hahead⟩ := List.cons.inj tokens
  simp only [List.length_cons] at room
  have heq := hbehind.advance bound (by omega) hahead
  simp only [operator_of_binary (by rw [hcur]; exact is_op), heq, hcur]

/-- A call gives up where one of its arguments does. -/
theorem call_givesUp {callee : Expr} (low : Precedence.lowest ≤ precedence)
    (opening : Token.Of .openParen)
    (front : ∀ bound, FetchesLead bound levels precedence callee false ts opening.val)
    (binds : precedence < Precedence.call) (starts : (before.headD token).kind.startsExpr = true)
    (items : GivesUpList (fun bound => expr bound levels) before token) :
    GivesUp (ts ++ opening.val :: before) token fun bound =>
      exprLevel bound (expr bound levels) precedence := by
  refine operator_givesUp low front (Sequel.ofKind?_openParen opening)
    (by rw [opening.property]; exact binds) ?_
  intro eof
  refine ⟨.bad eof, ?_⟩
  intro bound rest s room tokens
  have hlist := exprList_givesUp closes_closeParen (by simp) opening.val starts items eof room
    tokens
  simp only [operator, call, hlist, bind, Except.bind, orBad_lost]

/-- An index gives up where its key does. -/
theorem index_givesUp {target : Expr} (low : Precedence.lowest ≤ precedence)
    (opening : Token.Of .openBracket)
    (front : ∀ bound, FetchesLead bound levels precedence target false ts opening.val)
    (binds : precedence < Precedence.index)
    (inner : GivesUp before token fun bound => expr bound levels Precedence.lowest) :
    GivesUp (ts ++ opening.val :: before) token fun bound =>
      exprLevel bound (expr bound levels) precedence := by
  refine operator_givesUp low front (Sequel.ofKind?_openBracket opening)
    (by rw [opening.property]; exact binds) ?_
  intro eof
  rcases inner eof with ⟨key, hinner⟩
  refine ⟨.bad eof, ?_⟩
  intro bound rest s room tokens
  have hahead := (List.cons.inj tokens).2
  simp only [List.length_cons] at room
  have heq := hinner.advance bound (by omega) hahead
  simp only [operator, index, heq, State.expect_lost, ne_eq, reduceCtorEq,
    not_false_eq_true, bind, Except.bind, orBad_lost]

end Level

end Parse
end Scriptlet
