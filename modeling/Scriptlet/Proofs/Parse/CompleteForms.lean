import Scriptlet.Proofs.Parse.Numeral
import Scriptlet.Proofs.Parse.Span

/-!
# Renderings of statements and operands are read back

Reading a rendering of a statement, a block or an operand gives its tree and reports nothing,
provided that renderings of the expressions inside are read back.

- `AtEnd`, `Behind` : which tokens may stand behind a rendering
- `Goes` : reading over a rendering changes nothing but the position
- `Fetches`, `FetchesStmt`, `FetchesStmts`, `FetchesBlock` : renderings that are read back
- `FetchesList`, `FetchesEntries` : the same inside brackets
- `FetchesOperand` : renderings that are read back as operands
-/

namespace Scriptlet
namespace Parse

/-! ## Where reading goes on -/

/-- Behind a rendering that is cut there is nothing but the end of file. -/
def AtEnd (cut : Bool) (next : Token) (more : List Token) : Prop :=
  cut = true → next.kind = .eof ∧ more = []

/-- The next token and those behind it; an expression or a statement never has `else` behind it. -/
structure Behind (cut : Bool) (next : Token) (more : List Token) : Prop where
  noElse : next.kind ≠ .elseKw
  atEnd : AtEnd cut next more

/-- Where reading stops: on the last token of a rendering, or on the end of file if it is cut. -/
def Lands : Bool → Token → List Token → State → Prop
  | false, next, more, s => s.ahead = next :: more
  | true, next, _, s => s.cur = next ∧ s.ahead = []

/-- Reading goes over a rendering and reports nothing. -/
structure Goes (cut : Bool) (next : Token) (more : List Token) (s s' : State) : Prop where
  lands : Lands cut next more s'
  report : s'.report = s.report

/-- Advancing reports nothing. -/
theorem State.report_advance (s : State) : s.advance.report = s.report := by
  rcases s with ⟨cur, _ | ⟨next, rest⟩, report⟩ <;> rfl

/-- A token that is expected and stands ahead. -/
theorem State.expect_of_ahead {s : State} {kind : Token.Kind} {more : List Token}
    (token : Token.Of kind) (ahead : s.ahead = token.val :: more) :
    s.expect kind = .ok ⟨token.val, more, s.report⟩ := by
  have hpeek : s.peek.kind = kind := by rw [State.peek_of_ahead ahead, token.property]
  simp only [State.expect, hpeek, if_true, State.advance_of_ahead ahead]

/-- A token that is expected and comes next is taken. -/
theorem State.expect_mk {kind : Token.Kind} (cur : Token) (token : Token.Of kind)
    (more : List Token) (report : Report Diagnostic) :
    State.expect ⟨cur, token.val :: more, report⟩ kind = .ok ⟨token.val, more, report⟩ :=
  State.expect_of_ahead token rfl

namespace Goes

variable {cut : Bool} {next : Token} {more : List Token} {s s₁ s' : State}

theorem peek (go : Goes cut next more s s') : s'.peek = next := by
  cases cut with
  | false => exact State.peek_of_ahead go.lands
  | true => exact (State.peek_of_nil go.lands.2).trans go.lands.1

/-- What was read before makes no difference, if nothing was reported on the way. -/
theorem of_report (go : Goes cut next more s₁ s') (same : s₁.report = s.report) :
    Goes cut next more s s' :=
  ⟨go.lands, go.report.trans same⟩

end Goes

/-- A rendering that a reader gives back as its expression, whatever follows that the precedence
does not take up. -/
def Fetches (bound : Nat) (sub : ExprReader) (precedence : Nat) (e : Expr) (cut : Bool)
    (ts : List Token) : Prop :=
  ∀ ⦃next : Token⦄ ⦃more : List Token⦄ ⦃s : State⦄, Behind cut next more →
    Precedence.ofKind next.kind ≤ precedence → ts.length + more.length < bound →
    s.tokens = ts ++ next :: more →
    ∃ s', sub precedence s = (e, s') ∧ Goes cut next more s s'

namespace Fetches

variable {bound precedence : Nat} {sub : ExprReader} {e : Expr} {cut : Bool} {ts : List Token}
variable {next : Token} {more : List Token} {s : State}

/-- The rendering begins behind the current token. -/
theorem advance (fetch : Fetches bound sub precedence e cut ts) (behind : Behind cut next more)
    (stop : Precedence.ofKind next.kind ≤ precedence) (room : ts.length + more.length < bound)
    (ahead : s.ahead = ts ++ next :: more) :
    ∃ s', sub precedence s.advance = (e, s') ∧ Goes cut next more s s' := by
  have htokens : s.advance.tokens = ts ++ next :: more := by
    rw [State.tokens_advance (by simp [ahead]), ahead]
  rcases fetch behind stop room htokens with ⟨s', heq, hgo⟩
  exact ⟨s', heq, hgo.of_report s.report_advance⟩

/-- The rendering stands between the current token and an expected one. -/
theorem between {kind : Token.Kind} (fetch : Fetches bound sub Precedence.lowest e false ts)
    (closing : Token.Of kind) (loose : Precedence.ofKind kind = Precedence.lowest)
    (noElse : kind ≠ .elseKw) (room : ts.length + more.length < bound)
    (ahead : s.ahead = ts ++ closing.val :: more) :
    ∃ s', sub Precedence.lowest s.advance = (e, s') ∧ s'.ahead = closing.val :: more ∧
      s'.report = s.report := by
  have behind : Behind false closing.val more := ⟨by rwa [closing.property], nofun⟩
  have hstop : Precedence.ofKind closing.val.kind ≤ Precedence.lowest :=
    Nat.le_of_eq (by rw [closing.property, loose])
  rcases fetch.advance behind hstop room ahead with ⟨s', heq, hgo⟩
  exact ⟨s', heq, hgo.lands, hgo.report⟩

end Fetches

section Level

variable {bound : Nat} {sub : ExprReader}

/-! ## Statements -/

/-- A statement that is read back, up to the semicolon behind it. -/
def FetchesStmt (bound : Nat) (sub : ExprReader) (st : Stmt) (cut : Bool) (ts : List Token) : Prop :=
  ∀ ⦃next : Token⦄ ⦃more : List Token⦄ ⦃s : State⦄, Behind cut next more →
    st.MayPrecede next.kind → ts.length + more.length < bound → s.tokens = ts ++ next :: more →
    ∃ s', statement sub s = (some st, s'.skipSemicolon) ∧ Goes cut next more s s'

/-- A definition is read back from its tokens. -/
theorem define_fetches {e : Expr} {cut : Bool} {ts : List Token} (word : Token.Of .letKw)
    (name : Token.Of .ident) (sign : Token.Of .assign)
    (value : Fetches bound sub Precedence.lowest e cut ts) :
    FetchesStmt bound sub (.define word ⟨name, name.val.text⟩ e) cut
      (word.val :: name.val :: sign.val :: ts) := by
  intro next more s behind apart room tokens
  obtain ⟨hcur, hahead⟩ := List.cons.inj tokens
  have hroom : ts.length + more.length < bound := by
    simp only [List.length_cons] at room
    omega
  have hname := State.expect_of_ahead name hahead
  rcases value.advance (s := ⟨sign.val, ts ++ next :: more, s.report⟩) behind
    (Nat.le_of_eq apart) hroom rfl with ⟨s', heq, hgo⟩
  refine ⟨s', ?_, hgo.of_report rfl⟩
  have hdefine :
      define sub s = .ok (.define word ⟨name, name.val.text⟩ e, s'.skipSemicolon) := by
    simp only [define, hname, bind, Except.bind, List.append_eq, List.cons_append, State.expect_mk,
      heq, pure, Except.pure, State.ident, hcur]
  simp only [statement, hcur, word.property, hdefine]

/-- A return of nothing is read back: no expression begins behind it. -/
theorem returnNothing_fetches (word : Token.Of .returnKw) :
    FetchesStmt bound sub (.returnNothing word) false [word.val] := by
  intro next more s _ apart _ tokens
  obtain ⟨hcur, hahead⟩ := List.cons.inj tokens
  refine ⟨s, ?_, hahead, rfl⟩
  have hreturn : returning sub s = (.returnNothing word, s.skipSemicolon) := by
    have hpeek := State.peek_of_ahead hahead
    rcases apart with hkind | hkind | hkind <;> simp only [returning, hpeek, hkind, hcur]
  simp only [statement, hcur, word.property, hreturn]

/-- A token with which an expression begins does not end a return. -/
theorem returning_of_startsExpr {s : State} {first : Token} {rest : List Token}
    (ahead : s.ahead = first :: rest) (starts : first.kind.startsExpr = true) :
    returning sub s =
      (.returnValue s.cur (sub Precedence.lowest s.advance).1,
        (sub Precedence.lowest s.advance).2.skipSemicolon) := by
  -- None of the three tokens that end a return can begin an expression.
  have hpeek := State.peek_of_ahead ahead
  simp only [returning, hpeek]
  split
  · next hkind => exact absurd hkind (Token.Kind.ne_of_startsExpr starts rfl)
  · next hkind => exact absurd hkind (Token.Kind.ne_of_startsExpr starts rfl)
  · next hkind => exact absurd hkind (Token.Kind.ne_of_startsExpr starts rfl)
  · rfl

/-- A return of a value is read back. -/
theorem returnValue_fetches {e : Expr} {cut : Bool} {first : Token} {ts : List Token}
    (word : Token.Of .returnKw) (starts : first.kind.startsExpr = true)
    (value : Fetches bound sub Precedence.lowest e cut (first :: ts)) :
    FetchesStmt bound sub (.returnValue word e) cut (word.val :: first :: ts) := by
  intro next more s behind apart room tokens
  obtain ⟨hcur, hahead⟩ := List.cons.inj tokens
  have hroom : (first :: ts).length + more.length < bound := by
    simp only [List.length_cons] at room ⊢
    omega
  rcases value.advance behind (Nat.le_of_eq apart) hroom hahead with ⟨s', heq, hgo⟩
  refine ⟨s', ?_, hgo⟩
  have hreturn : returning sub s = _ := returning_of_startsExpr hahead starts
  simp only [statement, hcur, word.property, hreturn, heq]

/-- A break is read back. -/
theorem breakLoop_fetches (word : Token.Of .breakKw) :
    FetchesStmt bound sub (.breakLoop word) false [word.val] := by
  intro next more s _ _ _ tokens
  obtain ⟨hcur, hahead⟩ := List.cons.inj tokens
  refine ⟨s, ?_, hahead, rfl⟩
  simp only [statement, hcur, word.property]

/-- A token with which an expression begins starts a statement that is one. -/
theorem statement_of_startsExpr {s : State} (starts : s.cur.kind.startsExpr = true) :
    statement sub s =
      (some (.expr s.cur (sub Precedence.lowest s).1),
        (sub Precedence.lowest s).2.skipSemicolon) := by
  -- The words of the other statements and the semicolon begin no expression.
  simp only [statement]
  split
  · next hkind => exact absurd hkind (Token.Kind.ne_of_startsExpr starts rfl)
  · next hkind => exact absurd hkind (Token.Kind.ne_of_startsExpr starts rfl)
  · next hkind => exact absurd hkind (Token.Kind.ne_of_startsExpr starts rfl)
  · next hkind => exact absurd hkind (Token.Kind.ne_of_startsExpr starts rfl)
  · rfl

/-- An expression in the place of a statement is read back. -/
theorem exprStmt_fetches {e : Expr} {cut : Bool} {first : Token} {ts : List Token}
    (starts : first.kind.startsExpr = true)
    (value : Fetches bound sub Precedence.lowest e cut (first :: ts)) :
    FetchesStmt bound sub (.expr first e) cut (first :: ts) := by
  intro next more s behind apart room tokens
  obtain ⟨hcur, -⟩ := List.cons.inj tokens
  rcases value behind (Nat.le_of_eq apart) room tokens with ⟨s', heq, hgo⟩
  refine ⟨s', ?_, hgo⟩
  rw [statement_of_startsExpr (by rw [hcur]; exact starts), heq, hcur]

/-! ## Statements in a row -/

/-- The tokens at which a row of statements can end. -/
def Ends (stop : Token.Kind → Bool) : Prop :=
  ∀ kind, stop kind = true → kind = .closeBrace ∨ kind = .eof

theorem ends_endsBlock : Ends endsBlock := by
  intro kind h
  cases kind <;> first | exact .inl rfl | exact .inr rfl | cases h

theorem ends_isEof : Ends isEof := by
  intro kind h
  cases kind <;> first | exact .inr rfl | cases h

/-- Neither a semicolon nor the beginning of a statement ends a row of statements. -/
theorem Ends.go_on {stop : Token.Kind → Bool} (ends : Ends stop) {kind : Token.Kind}
    (starts : kind = .semicolon ∨ kind.startsStmt = true) : stop kind = false := by
  cases hstop : stop kind with
  | false => rfl
  | true =>
      rcases ends kind hstop with rfl | rfl
      · rcases starts with h | h <;> cases h
      · rcases starts with h | h <;> cases h

/-- Statements that are read back, behind those that were found before. -/
def FetchesStmts (bound : Nat) (sub : ExprReader) (sts : List Stmt) (cut : Bool)
    (ts : List Token) : Prop :=
  ∀ ⦃stop : Token.Kind → Bool⦄ (found : List Stmt) (fuel : Nat) ⦃next : Token⦄
    ⦃more : List Token⦄ ⦃s : State⦄, Ends stop → stop next.kind = true → AtEnd cut next more →
    ts.length + more.length < bound → ts.length ≤ fuel → s.tokens = ts ++ next :: more →
    statements sub stop found fuel s = (found.reverse ++ sts, ⟨next, more, s.report⟩)

/-- An empty row of statements is read back from no tokens. -/
theorem stmtsNil_fetches : FetchesStmts bound sub [] false [] := by
  intro stop found fuel next more s _ hstop _ _ _ tokens
  obtain ⟨hcur, hahead⟩ := List.cons.inj tokens
  rw [statements_of_stop (by rw [hcur]; exact hstop), List.append_nil, ← hcur, ← hahead]

/-- A semicolon on its own is passed over. -/
theorem statements_of_semicolon {stop : Token.Kind → Bool} (ends : Ends stop) {found : List Stmt}
    {fuel : Nat} {s : State} (h : s.cur.kind = .semicolon) :
    statements sub stop found (fuel + 1) s = statements sub stop found fuel s.advance := by
  have hgo : stop .semicolon = false := ends.go_on (.inl rfl)
  simp only [statements, statement, h, hgo, Bool.false_eq_true, if_false]

/-- A semicolon on its own leaves no statement behind. -/
theorem semicolon_fetches {sts : List Stmt} {cut : Bool} {ts : List Token}
    (sign : Token.Of .semicolon) (rest : FetchesStmts bound sub sts cut ts) :
    FetchesStmts bound sub sts cut (sign.val :: ts) := by
  intro stop found fuel next more s ends hstop atEnd room enough tokens
  obtain ⟨hcur, hahead⟩ := List.cons.inj tokens
  simp only [List.length_cons] at room enough
  obtain ⟨fuel, rfl⟩ : ∃ f, fuel = f + 1 := ⟨fuel - 1, by omega⟩
  have htokens : s.advance.tokens = ts ++ next :: more := by
    rw [State.tokens_advance (by simp [hahead]), hahead]
    rfl
  rw [statements_of_semicolon ends (by rw [hcur, sign.property]),
    rest found fuel ends hstop atEnd (by omega) (by omega) htokens, s.report_advance]

/-- Between two statements at most one semicolon is taken up by the first one. If there is one, it
could as well be left to the rest, which is then read with one more turn. -/
theorem exists_statements_skipSemicolon (sub : ExprReader) {stop : Token.Kind → Bool}
    (ends : Ends stop) (found : List Stmt) (fuel : Nat) (s : State) :
    ∃ turns, fuel ≤ turns ∧ statements sub stop found fuel s.skipSemicolon.advance =
      statements sub stop found turns s.advance := by
  by_cases hsemi : s.peek.kind = .semicolon
  · refine ⟨fuel + 1, Nat.le_succ _, ?_⟩
    rw [statements_of_semicolon ends (by rw [State.cur_advance, hsemi])]
    simp only [State.skipSemicolon, hsemi, if_true]
  · refine ⟨fuel, Nat.le_refl _, ?_⟩
    simp only [State.skipSemicolon, hsemi, if_false]

/-- A statement in front of others is read back, if it may stand in front of what comes next. -/
theorem stmtsCons_fetches {st : Stmt} {sts : List Stmt} {cut : Bool} {first : Token}
    {ts us : List Token} (starts : first.kind.startsStmt = true)
    (head : FetchesStmt bound sub st false (first :: ts))
    (rest : FetchesStmts bound sub sts cut us)
    (heads : ∀ token ∈ us.head?, token.kind = .semicolon ∨ token.kind.startsStmt = true)
    (apart : ∀ token ∈ us.head?, st.MayPrecede token.kind) :
    FetchesStmts bound sub (st :: sts) cut (first :: ts ++ us) := by
  intro stop found fuel next more s ends hstop atEnd room enough tokens
  simp only [List.cons_append, List.length_cons, List.length_append] at room enough
  obtain ⟨fuel, rfl⟩ : ∃ f, fuel = f + 1 := ⟨fuel - 1, by omega⟩
  have hcur : s.cur = first := (List.cons.inj tokens).1
  -- What stands behind the statement: the rest, or the end of the row.
  obtain ⟨next', more', hbehind, hnext, hapart⟩ : ∃ next' more',
      us ++ next :: more = next' :: more' ∧ next'.kind ≠ .elseKw ∧ st.MayPrecede next'.kind := by
    cases us with
    | nil =>
        have hend := ends _ hstop
        refine ⟨next, more, rfl, ?_, st.mayPrecede_of_end hend⟩
        rcases hend with h | h <;> simp [h]
    | cons token us =>
        refine ⟨token, us ++ next :: more, rfl, ?_, apart token rfl⟩
        intro helse
        have hstarts := heads token rfl
        rw [helse] at hstarts
        rcases hstarts with h | h <;> cases h
  have htokens : s.tokens = (first :: ts) ++ next' :: more' := by
    rw [tokens, List.append_assoc, hbehind]
  have hlength := congrArg List.length hbehind
  simp only [List.length_append, List.length_cons] at hlength
  rcases head ⟨hnext, nofun⟩ hapart (by simp only [List.length_cons]; omega) htokens with
    ⟨s', heq, hgo⟩
  have hgoes : stop s.cur.kind = false := by
    rw [hcur]
    exact ends.go_on (.inr starts)
  have hahead : s'.ahead = us ++ next :: more := by rw [hgo.lands, hbehind]
  have hadvance : s'.advance.tokens = us ++ next :: more := by
    rw [State.tokens_advance (by simp [hahead]), hahead]
  rcases exists_statements_skipSemicolon sub ends (st :: found) fuel s' with
    ⟨turns, hturns, hskip⟩
  have hrest := rest (st :: found) turns ends hstop atEnd (by omega) (by omega) hadvance
  rw [s'.report_advance, hgo.report] at hrest
  simp only [statements, hgoes, Bool.false_eq_true, if_false, heq, hskip, hrest, List.reverse_cons,
    List.append_assoc, List.cons_append, List.nil_append]

/-- A statement that ends with the source is the last one. -/
theorem stmtsCut_fetches {st : Stmt} {first : Token} {ts : List Token}
    (starts : first.kind.startsStmt = true) (head : FetchesStmt bound sub st true (first :: ts)) :
    FetchesStmts bound sub [st] true (first :: ts) := by
  intro stop found fuel next more s ends hstop atEnd room enough tokens
  simp only [List.length_cons] at enough
  obtain ⟨fuel, rfl⟩ : ∃ f, fuel = f + 1 := ⟨fuel - 1, by omega⟩
  have hcur : s.cur = first := (List.cons.inj tokens).1
  have hend := atEnd
  obtain ⟨heof, rfl⟩ := hend rfl
  rcases head ⟨by simp [heof], atEnd⟩ (st.mayPrecede_of_end (.inr heof)) room tokens with ⟨s', heq, hgo⟩
  have hgoes : stop s.cur.kind = false := by
    rw [hcur]
    exact ends.go_on (.inr starts)
  have hskip : s'.skipSemicolon = s' := by simp [State.skipSemicolon, hgo.peek, heof]
  -- The end of file stays the current token.
  have hstay : s'.advance = s' := State.advance_of_nil hgo.lands.2
  have hstop' : stop s'.cur.kind = true := by rw [hgo.lands.1]; exact hstop
  have hs' : s' = ⟨next, [], s.report⟩ := by
    rw [← hgo.lands.1, ← hgo.lands.2, ← hgo.report]
  simp only [statements, hgoes, Bool.false_eq_true, if_false, heq, hskip, hstay,
    statements_of_stop hstop', List.reverse_cons]
  rw [hs']

def FetchesBlock (bound : Nat) (sub : ExprReader) (b : Block) (cut : Bool) (ts : List Token) :
    Prop :=
  ∀ ⦃next : Token⦄ ⦃more : List Token⦄ ⦃s : State⦄, AtEnd cut next more →
    ts.length + more.length < bound → s.tokens = ts ++ next :: more →
    ∃ s', block bound sub s = (b, s') ∧ Goes cut next more s s'

/-- A block is read back from its braces and what is between them. -/
theorem block_fetches {sts : List Stmt} {ts : List Token} (opening : Token.Of .openBrace)
    (body : FetchesStmts bound sub sts false ts) (closing : Token.Of .closeBrace) :
    FetchesBlock bound sub (.mk opening sts) false (opening.val :: (ts ++ [closing.val])) := by
  intro next more s _ room tokens
  obtain ⟨hcur, hahead⟩ := List.cons.inj tokens
  simp only [List.length_cons, List.length_append, List.length_nil] at room
  have htokens : s.advance.tokens = ts ++ closing.val :: next :: more := by
    rw [State.tokens_advance (by simp [hahead]), hahead]
    simp
  have hstop : endsBlock closing.val.kind = true := by rw [closing.property]; rfl
  have hbody := body [] bound ends_endsBlock hstop nofun
    (by simp only [List.length_cons]; omega) (by omega) htokens
  refine ⟨⟨closing.val, next :: more, s.report⟩, ?_, rfl, rfl⟩
  simp only [block, hbody, s.report_advance, hcur, List.reverse_nil, List.nil_append]

/-- A block that ends with the source is read back without its closing brace. -/
theorem blockCut_fetches {sts : List Stmt} {cut : Bool} {ts : List Token}
    (opening : Token.Of .openBrace) (body : FetchesStmts bound sub sts cut ts) :
    FetchesBlock bound sub (.mk opening sts) true (opening.val :: ts) := by
  intro next more s atEnd room tokens
  obtain ⟨hcur, hahead⟩ := List.cons.inj tokens
  simp only [List.length_cons] at room
  -- The statements run up to the end of file, whether they lack braces themselves or not.
  obtain ⟨heof, rfl⟩ := atEnd rfl
  have htokens : s.advance.tokens = ts ++ [next] := by
    rw [State.tokens_advance (by simp [hahead]), hahead]
    rfl
  have hstop : endsBlock next.kind = true := by rw [heof]; rfl
  have hbody := body [] bound ends_endsBlock hstop
    (fun _ => ⟨heof, rfl⟩) (by omega) (by omega) htokens
  refine ⟨⟨next, [], s.report⟩, ?_, ⟨rfl, rfl⟩, rfl⟩
  simp only [block, hbody, s.report_advance, hcur, List.reverse_nil, List.nil_append]

/-! ## Operands -/

def FetchesOperand (bound : Nat) (sub : ExprReader) (e : Expr) (cut : Bool) (ts : List Token) :
    Prop :=
  ∀ ⦃next : Token⦄ ⦃more : List Token⦄ ⦃s : State⦄, Behind cut next more →
    ts.length + more.length < bound → s.tokens = ts ++ next :: more →
    ∃ s', operand bound sub s = .ok (e, s') ∧ Goes cut next more s s'

/-- An operand of a single token. -/
theorem FetchesOperand.of_token {e : Expr} {token : Token}
    (single : ∀ s : State, s.cur = token → operand bound sub s = .ok (e, s)) :
    FetchesOperand bound sub e false [token] := by
  intro next more s _ _ tokens
  obtain ⟨hcur, hahead⟩ := List.cons.inj tokens
  exact ⟨s, single s hcur, hahead, rfl⟩

/-- A name is read back. -/
theorem ident_fetches (name : Token.Of .ident) :
    FetchesOperand bound sub (.ident ⟨name, name.val.text⟩) false [name.val] := by
  apply FetchesOperand.of_token
  intro s hcur
  simp only [operand, hcur, name.property, State.ident]

/-- A number is read back from its numeral. -/
theorem int_fetches (digits : Token.Of .int) {value : Int64}
    (numeral : Numeral digits.val.text value) :
    FetchesOperand bound sub (.int digits value) false [digits.val] := by
  apply FetchesOperand.of_token
  intro s hcur
  have hvalue : integer? digits.val.text = some value :=
    (integer?_eq_some_iff numeral.1 value).2 numeral
  simp only [operand, hcur, digits.property, integer, hvalue]

/-- A string is read back. -/
theorem str_fetches (text : Token.Of .str) :
    FetchesOperand bound sub (.str text text.val.text) false [text.val] := by
  apply FetchesOperand.of_token
  intro s hcur
  simp only [operand, hcur, text.property]

theorem trueWord_fetches (word : Token.Of .trueKw) :
    FetchesOperand bound sub (.bool word true) false [word.val] := by
  apply FetchesOperand.of_token
  intro s hcur
  simp only [operand, hcur, word.property]

theorem falseWord_fetches (word : Token.Of .falseKw) :
    FetchesOperand bound sub (.bool word false) false [word.val] := by
  apply FetchesOperand.of_token
  intro s hcur
  simp only [operand, hcur, word.property]

/-- Parentheses are read back as what is in them. -/
theorem grouped_fetches {e : Expr} {ts : List Token} (opening : Token.Of .openParen)
    (inner : Fetches bound sub Precedence.lowest e false ts) (closing : Token.Of .closeParen) :
    FetchesOperand bound sub e false (opening.val :: (ts ++ [closing.val])) := by
  intro next more s _ room tokens
  obtain ⟨hcur, hahead⟩ := List.cons.inj tokens
  simp only [List.length_cons, List.length_append, List.length_nil] at room
  have hinside : s.ahead = ts ++ closing.val :: next :: more := by rw [hahead]; simp
  rcases inner.between closing rfl (by simp) (by simp only [List.length_cons]; omega) hinside with
    ⟨s₁, heq, hclose, hreport⟩
  refine ⟨⟨closing.val, next :: more, s.report⟩, ?_, rfl, rfl⟩
  simp only [operand, hcur, opening.property, grouped, heq,
    State.expect_of_ahead closing hclose, hreport, bind, Except.bind, pure, Except.pure, orBad]

/-! ## Conditionals, loops and functions -/

/-- A condition is read up to its closing parenthesis. -/
theorem condition_of_ahead {test : Expr} {ts more : List Token} {s : State}
    (opening : Token.Of .openParen) (fetch : Fetches bound sub Precedence.lowest test false ts)
    (closing : Token.Of .closeParen) (room : ts.length + more.length < bound)
    (ahead : s.ahead = opening.val :: (ts ++ closing.val :: more)) :
    condition sub s = .ok (test, ⟨closing.val, more, s.report⟩) := by
  rcases fetch.between (s := ⟨opening.val, ts ++ closing.val :: more, s.report⟩) closing rfl
    (by simp) room rfl with ⟨s₁, heq, hclose, hreport⟩
  simp only [condition, State.expect_of_ahead opening ahead, heq,
    State.expect_of_ahead closing hclose, hreport, bind, Except.bind, pure, Except.pure]

/-- A block behind the current token. -/
theorem FetchesBlock.advance {b : Block} {cut : Bool} {ts : List Token} {next : Token}
    {more : List Token} {brace : Token.Of .openBrace} (cur : Token) (report : Report Diagnostic)
    (fetch : FetchesBlock bound sub b cut (brace.val :: ts)) (atEnd : AtEnd cut next more)
    (room : ts.length + 1 + more.length < bound) :
    ∃ s', State.expect ⟨cur, brace.val :: (ts ++ next :: more), report⟩ .openBrace =
        .ok ⟨brace.val, ts ++ next :: more, report⟩ ∧
      block bound sub ⟨brace.val, ts ++ next :: more, report⟩ = (b, s') ∧
      Lands cut next more s' ∧ s'.report = report := by
  rcases fetch (s := ⟨brace.val, ts ++ next :: more, report⟩) atEnd room rfl with
    ⟨s', heq, hgo⟩
  exact ⟨s', State.expect_mk _ _ _ _, heq, hgo.lands, hgo.report⟩

/-- A conditional without `else` is read back, also if its block ends with the source. -/
theorem ifThen_fetches {test : Expr} {yes : Block} {cut : Bool} {ts us : List Token}
    {brace : Token.Of .openBrace} (word : Token.Of .ifKw) (opening : Token.Of .openParen)
    (fetch : Fetches bound sub Precedence.lowest test false ts) (closing : Token.Of .closeParen)
    (body : FetchesBlock bound sub yes cut (brace.val :: us)) :
    FetchesOperand bound sub (.ifThen word test yes) cut
      (word.val :: opening.val :: (ts ++ closing.val :: brace.val :: us)) := by
  intro next more s behind room tokens
  obtain ⟨hcur, hahead⟩ := List.cons.inj tokens
  simp only [List.length_cons, List.length_append] at room
  simp only [List.append_eq, List.cons_append, List.append_assoc] at hahead
  have hcond := condition_of_ahead opening fetch closing
    (by simp only [List.length_cons, List.length_append]; omega) hahead
  rcases body.advance closing.val s.report behind.atEnd (by omega) with
    ⟨s', hbrace, hblock, hlands, hreport⟩
  have hgo : Goes cut next more s s' := ⟨hlands, hreport⟩
  -- An `else` behind the block would have been taken up.
  have hpeek : s'.peek.kind ≠ .elseKw := by
    rw [hgo.peek]
    exact behind.noElse
  refine ⟨s', ?_, hgo⟩
  simp only [operand, hcur, word.property, conditional, hcond, hbrace, hblock, hpeek, bind,
    Except.bind, pure, Except.pure, if_false, orBad]

/-- A conditional with both blocks is read back. -/
theorem ifElse_fetches {test : Expr} {yes no : Block} {cut : Bool} {ts us vs : List Token}
    {brace brace' : Token.Of .openBrace} (word : Token.Of .ifKw) (opening : Token.Of .openParen)
    (fetch : Fetches bound sub Precedence.lowest test false ts) (closing : Token.Of .closeParen)
    (body : FetchesBlock bound sub yes false (brace.val :: us)) (other : Token.Of .elseKw)
    (otherBody : FetchesBlock bound sub no cut (brace'.val :: vs)) :
    FetchesOperand bound sub (.ifElse word test yes no) cut
      (word.val :: opening.val :: (ts ++ closing.val :: (brace.val :: us ++
        other.val :: brace'.val :: vs))) := by
  intro next more s behind room tokens
  obtain ⟨hcur, hahead⟩ := List.cons.inj tokens
  simp only [List.length_cons, List.length_append] at room
  simp only [List.append_eq, List.cons_append, List.append_assoc] at hahead
  have hcond := condition_of_ahead opening fetch closing
    (by simp only [List.length_cons, List.length_append]; omega) hahead
  have hroom : us.length + 1 + (brace'.val :: (vs ++ next :: more)).length < bound := by
    simp only [List.length_cons, List.length_append]
    omega
  -- The first block ends right before the `else`.
  rcases body.advance closing.val s.report nofun hroom with ⟨s₁, hbrace, hblock, hlands, hreport⟩
  have hpeek : s₁.peek.kind = .elseKw := by
    rw [State.peek_of_ahead hlands, other.property]
  have hadvance := State.advance_of_ahead hlands
  rw [hreport] at hadvance
  rcases otherBody.advance other.val s.report behind.atEnd (by omega) with
    ⟨s', hbrace', hblock', hlands', hreport'⟩
  refine ⟨s', ?_, hlands', hreport'⟩
  simp only [operand, hcur, word.property, conditional, hcond, hbrace, hblock, hpeek, hadvance,
    hbrace', hblock', bind, Except.bind, pure, Except.pure, if_true, orBad]

/-- A loop is read back. -/
theorem whileDo_fetches {test : Expr} {turn : Block} {cut : Bool} {ts us : List Token}
    {brace : Token.Of .openBrace} (word : Token.Of .whileKw) (opening : Token.Of .openParen)
    (fetch : Fetches bound sub Precedence.lowest test false ts) (closing : Token.Of .closeParen)
    (body : FetchesBlock bound sub turn cut (brace.val :: us)) :
    FetchesOperand bound sub (.whileDo word test turn) cut
      (word.val :: opening.val :: (ts ++ closing.val :: brace.val :: us)) := by
  intro next more s behind room tokens
  obtain ⟨hcur, hahead⟩ := List.cons.inj tokens
  simp only [List.length_cons, List.length_append] at room
  simp only [List.append_eq, List.cons_append, List.append_assoc] at hahead
  have hcond := condition_of_ahead opening fetch closing
    (by simp only [List.length_cons, List.length_append]; omega) hahead
  rcases body.advance closing.val s.report behind.atEnd (by omega) with
    ⟨s', hbrace, hblock, hlands, hreport⟩
  refine ⟨s', ?_, hlands, hreport⟩
  simp only [operand, hcur, word.property, whileLoop, hcond, hbrace, hblock, bind, Except.bind,
    pure, Except.pure, orBad]

/-- More parameters behind a name, up to the closing parenthesis. -/
theorem moreParams_of_list {params : List Ident} {ts : List Token} (list : ParamList params ts)
    (closing : Token.Of .closeParen) (more : List Token) (report : Report Diagnostic) :
    ∀ (found : List Ident) (fuel : Nat) (name : Token) (us : List Token), ts = name :: us →
      us.length ≤ fuel →
      moreParams (⟨name, name.text⟩ :: found) fuel ⟨name, us ++ closing.val :: more, report⟩ =
        .ok (found.reverse ++ params, ⟨closing.val, more, report⟩) := by
  -- Induction on the names. The current one has been found already, so the statement is about the
  -- rest of the list with that name in front of it.
  induction list with
  | nil => intro found fuel name us heq; cases heq
  | last name =>
      intro found fuel token us heq _
      obtain ⟨rfl, rfl⟩ := List.cons.inj heq
      have hclose : closing.val.kind ≠ .comma := by simp [closing.property]
      cases fuel with
      | zero =>
          simp only [moreParams, List.nil_append, State.expect_mk, bind, Except.bind, pure,
            Except.pure, List.reverse_cons]
      | succ fuel =>
          simp only [moreParams, List.nil_append, State.peek, List.headD_cons, hclose, if_false,
            State.expect_mk, bind, Except.bind, pure, Except.pure, List.reverse_cons]
  | @cons name comma param params ts rest ih =>
      intro found fuel token us heq enough
      obtain ⟨rfl, rfl⟩ := List.cons.inj heq
      -- A further name follows the comma.
      obtain ⟨name', us', rfl⟩ : ∃ (name' : Token.Of .ident) (us' : List Token),
          ts = name'.val :: us' := by
        cases rest with
        | last name' => exact ⟨name', _, rfl⟩
        | cons name' => exact ⟨name', _, rfl⟩
      simp only [List.length_cons] at enough
      obtain ⟨fuel, rfl⟩ : ∃ f, fuel = f + 1 := ⟨fuel - 1, by omega⟩
      have hnext := ih (⟨name.val, name.val.text⟩ :: found) fuel name'.val us' rfl (by omega)
      simp only [moreParams, List.cons_append, State.peek, List.headD_cons, comma.property,
        if_true, State.advance, State.expect_mk, bind, Except.bind, State.ident, hnext,
        List.reverse_cons, List.append_assoc, List.nil_append]

/-- A parameter list is read up to its closing parenthesis. -/
theorem params_of_ahead {names : List Ident} {ts more : List Token} {s : State}
    (list : ParamList names ts) (closing : Token.Of .closeParen) (room : ts.length ≤ bound)
    (ahead : s.ahead = ts ++ closing.val :: more) :
    params bound s = .ok (names, ⟨closing.val, more, s.report⟩) := by
  by_cases hnil : ts = []
  · subst hnil
    cases list
    have hpeek : s.peek.kind = .closeParen := by
      rw [State.peek_of_ahead ahead, closing.property]
    simp only [params, hpeek, if_true, State.advance_of_ahead ahead]
  · obtain ⟨name, us, rfl⟩ : ∃ (name : Token.Of .ident) (us : List Token), ts = name.val :: us := by
      cases list with
      | nil => exact absurd rfl hnil
      | last name => exact ⟨name, _, rfl⟩
      | cons name => exact ⟨name, _, rfl⟩
    have hpeek : s.peek.kind ≠ .closeParen := by
      rw [State.peek_of_ahead ahead, name.property]
      simp
    have hmore := moreParams_of_list list closing more s.report [] bound name.val us rfl
      (Nat.le_of_succ_le room)
    simp only [params, hpeek, if_false, State.expect_of_ahead name ahead, bind, Except.bind,
      State.ident, List.append_eq, hmore, List.reverse_nil, List.nil_append]

/-- A function literal is read back. -/
theorem function_fetches {names : List Ident} {code : Block} {cut : Bool} {ts us : List Token}
    {brace : Token.Of .openBrace} (word : Token.Of .fnKw) (opening : Token.Of .openParen)
    (list : ParamList names ts) (closing : Token.Of .closeParen)
    (body : FetchesBlock bound sub code cut (brace.val :: us)) :
    FetchesOperand bound sub (.function word names code) cut
      (word.val :: opening.val :: (ts ++ closing.val :: brace.val :: us)) := by
  intro next more s behind room tokens
  obtain ⟨hcur, hahead⟩ := List.cons.inj tokens
  simp only [List.length_cons, List.length_append] at room
  simp only [List.append_eq, List.cons_append, List.append_assoc] at hahead
  have hparams :
      params bound ⟨opening.val, ts ++ closing.val :: brace.val :: (us ++ next :: more), s.report⟩ =
        .ok (names, ⟨closing.val, brace.val :: (us ++ next :: more), s.report⟩) :=
    params_of_ahead list closing (by omega) rfl
  rcases body.advance closing.val s.report behind.atEnd (by omega) with
    ⟨s', hbrace, hblock, hlands, hreport⟩
  refine ⟨s', ?_, hlands, hreport⟩
  simp only [operand, hcur, word.property, function, State.expect_of_ahead opening hahead, hparams,
    hbrace, hblock, bind, Except.bind, pure, Except.pure, orBad]

/-! ## Lists in brackets -/

/-- Kinds of brackets that can close a list. -/
structure Closes (close : Token.Kind) : Prop where
  loose : Precedence.ofKind close = Precedence.lowest
  noComma : close ≠ .comma
  noElse : close ≠ .elseKw
  noStart : close.startsExpr = false

theorem closes_closeParen : Closes .closeParen := ⟨rfl, by simp, by simp, rfl⟩

theorem closes_closeBracket : Closes .closeBracket := ⟨rfl, by simp, by simp, rfl⟩

/-- Expressions with commas between them that are read back, behind those that were found before. -/
def FetchesList (bound : Nat) (sub : ExprReader) (es : List Expr) (ts : List Token) : Prop :=
  ∀ ⦃close : Token.Kind⦄ (found : List Expr) (fuel : Nat) ⦃closing : Token.Of close⦄
    ⦃more : List Token⦄ ⦃s : State⦄, Closes close → es ≠ [] → ts.length + more.length < bound →
    ts.length ≤ fuel → s.ahead = ts ++ closing.val :: more →
    moreExprs sub close ((sub Precedence.lowest s.advance).1 :: found) fuel
        (sub Precedence.lowest s.advance).2 =
      .ok (found.reverse ++ es, ⟨closing.val, more, s.report⟩)

/-- The last item of a list is read back. -/
theorem listLast_fetches {e : Expr} {ts : List Token}
    (item : Fetches bound sub Precedence.lowest e false ts) : FetchesList bound sub [e] ts := by
  intro close found fuel closing more s closes _ room _ ahead
  rcases item.between closing closes.loose closes.noElse room ahead with
    ⟨s', heq, hahead, hreport⟩
  have hpeek : s'.peek.kind ≠ .comma := by
    rw [State.peek_of_ahead hahead, closing.property]
    exact closes.noComma
  have hclose := State.expect_of_ahead closing hahead
  cases fuel with
  | zero =>
      simp only [heq, moreExprs, hclose, hreport, bind, Except.bind, pure, Except.pure,
        List.reverse_cons]
  | succ fuel =>
      simp only [heq, moreExprs, hpeek, if_false, hclose, hreport, bind, Except.bind, pure,
        Except.pure, List.reverse_cons]

/-- An item in front of others is read back, with the comma between them. -/
theorem listCons_fetches {e next : Expr} {es : List Expr} {ts us : List Token}
    (item : Fetches bound sub Precedence.lowest e false ts) (comma : Token.Of .comma)
    (rest : FetchesList bound sub (next :: es) us) :
    FetchesList bound sub (e :: next :: es) (ts ++ comma.val :: us) := by
  intro close found fuel closing more s closes _ room enough ahead
  simp only [List.length_append, List.length_cons] at room enough
  obtain ⟨fuel, rfl⟩ : ∃ f, fuel = f + 1 := ⟨fuel - 1, by omega⟩
  simp only [List.append_assoc, List.cons_append] at ahead
  rcases item.between comma rfl (by simp)
    (by simp only [List.length_append, List.length_cons]; omega) ahead with
    ⟨s', heq, hahead, hreport⟩
  have hpeek : s'.peek.kind = .comma := by
    rw [State.peek_of_ahead hahead, comma.property]
  -- From the comma on the rest is read like a list of its own, with one more item found.
  have hrest := rest (s := ⟨comma.val, us ++ closing.val :: more, s.report⟩) (e :: found) fuel
    closes (by simp) (by omega) (by omega) rfl
  simp only [heq, moreExprs, hpeek, if_true, State.advance_of_ahead hahead, hreport, hrest,
    List.reverse_cons, List.append_assoc, List.cons_append, List.nil_append]

/-- A whole list, from the opening bracket to the closing one. -/
theorem exprList_of_ahead {close : Token.Kind} (closes : Closes close) {es : List Expr}
    {ts more : List Token} {s : State} (items : FetchesList bound sub es ts)
    (head : ListHead es ts) (closing : Token.Of close) (room : ts.length + more.length < bound)
    (ahead : s.ahead = ts ++ closing.val :: more) :
    exprList bound sub close s = .ok (es, ⟨closing.val, more, s.report⟩) := by
  rcases head with ⟨rfl, rfl⟩ | ⟨hes, first, rest, rfl, hfirst⟩
  · have hpeek : s.peek.kind = close := by rw [State.peek_of_ahead ahead, closing.property]
    simp only [exprList, hpeek, if_true, State.advance_of_ahead ahead]
  · have hpeek : s.peek.kind ≠ close := by
      rw [State.peek_of_ahead ahead]
      exact Token.Kind.ne_of_startsExpr hfirst closes.noStart
    -- The first item is read before the loop starts, as in the loop itself.
    have hitems := items [] bound closes hes room (by omega) ahead
    simp only [exprList, hpeek, if_false, hitems, List.reverse_nil, List.nil_append]

/-- An array literal is read back. -/
theorem array_fetches {es : List Expr} {ts : List Token} (opening : Token.Of .openBracket)
    (items : FetchesList bound sub es ts)
    (head : ListHead es ts) (closing : Token.Of .closeBracket) :
    FetchesOperand bound sub (.array opening es) false (opening.val :: (ts ++ [closing.val])) := by
  intro next more s _ room tokens
  obtain ⟨hcur, hahead⟩ := List.cons.inj tokens
  simp only [List.length_cons, List.length_append, List.length_nil] at room
  simp only [List.append_eq, List.append_assoc, List.cons_append, List.nil_append] at hahead
  have hlist := exprList_of_ahead closes_closeBracket items head closing
    (by simp only [List.length_cons]; omega) hahead
  refine ⟨⟨closing.val, next :: more, s.report⟩, ?_, rfl, rfl⟩
  simp only [operand, hcur, opening.property, array, hlist, bind, Except.bind, pure, Except.pure,
    orBad]

/-! ## Hashes -/

/-- Entries that are read back, behind those that were found before. -/
def FetchesEntries (bound : Nat) (sub : ExprReader) (entries : List (Expr × Expr))
    (ts : List Token) : Prop :=
  ∀ (found : List (Expr × Expr)) (fuel : Nat) ⦃closing : Token.Of .closeBrace⦄
    ⦃more : List Token⦄ ⦃s : State⦄, ts.length + more.length < bound → ts.length ≤ fuel →
    s.ahead = ts ++ closing.val :: more →
    pairs sub found fuel s = .ok (found.reverse ++ entries, ⟨closing.val, more, s.report⟩)

/-- No entries are read back from no tokens. -/
theorem entriesNil_fetches : FetchesEntries bound sub [] [] := by
  intro found fuel closing more s _ _ ahead
  have hpeek : s.peek.kind = .closeBrace := by
    rw [State.peek_of_ahead ahead, closing.property]
  rw [pairs_of_close hpeek, State.advance_of_ahead ahead, List.append_nil]

/-- One entry, in front of a comma or the closing brace. -/
theorem pair_of_ahead {k v : Expr} {ts us more : List Token} {s : State} {kind : Token.Kind}
    (key : Fetches bound sub Precedence.lowest k false ts) (colon : Token.Of .colon)
    (value : Fetches bound sub Precedence.lowest v false us) (sign : Token.Of kind)
    (loose : Precedence.ofKind kind = Precedence.lowest) (noElse : kind ≠ .elseKw)
    (room : ts.length + us.length + more.length + 1 < bound)
    (ahead : s.ahead = ts ++ colon.val :: (us ++ sign.val :: more)) :
    ∃ s', pair sub s = .ok ((k, v), s') ∧ s'.ahead = sign.val :: more ∧ s'.report = s.report := by
  rcases key.between colon rfl (by simp)
    (by simp only [List.length_append, List.length_cons]; omega) ahead with
    ⟨s₁, heq₁, hahead₁, hreport₁⟩
  have hcolon := State.expect_of_ahead colon hahead₁
  rcases value.between (s := ⟨colon.val, us ++ sign.val :: more, s₁.report⟩) sign loose noElse
    (by omega) rfl with ⟨s', heq, hahead, hreport⟩
  refine ⟨s', ?_, hahead, hreport.trans hreport₁⟩
  simp only [pair, heq₁, hcolon, heq, bind, Except.bind, pure, Except.pure]

/-- A token with which an expression begins does not close a hash. -/
theorem peek_ne_closeBrace {s : State} {first : Token} {rest : List Token}
    (starts : first.kind.startsExpr = true) (ahead : s.ahead = first :: rest) :
    s.peek.kind ≠ .closeBrace := by
  rw [State.peek_of_ahead ahead]
  exact Token.Kind.ne_of_startsExpr starts rfl

/-- The last entry of a hash literal is read back. -/
theorem entriesLast_fetches {k v : Expr} {first : Token} {ts us : List Token}
    (starts : first.kind.startsExpr = true)
    (key : Fetches bound sub Precedence.lowest k false (first :: ts)) (colon : Token.Of .colon)
    (value : Fetches bound sub Precedence.lowest v false us) :
    FetchesEntries bound sub [(k, v)] (first :: ts ++ colon.val :: us) := by
  intro found fuel closing more s room enough ahead
  simp only [List.cons_append, List.length_append, List.length_cons] at room enough
  obtain ⟨fuel, rfl⟩ : ∃ f, fuel = f + 1 := ⟨fuel - 1, by omega⟩
  simp only [List.cons_append, List.append_assoc] at ahead
  have hopen := peek_ne_closeBrace starts ahead
  rcases pair_of_ahead key colon value closing rfl (by simp)
    (by simp only [List.length_cons]; omega) ahead with ⟨s', hpair, hahead, hreport⟩
  have hpeek : s'.peek.kind = .closeBrace := by
    rw [State.peek_of_ahead hahead, closing.property]
  simp only [pairs, hopen, if_false, hpair, hpeek, if_true, bind, Except.bind,
    pairs_of_close hpeek, State.advance_of_ahead hahead, hreport, List.reverse_cons]

/-- An entry in front of others is read back, with the comma between them. -/
theorem entriesCons_fetches {k v : Expr} {entries : List (Expr × Expr)} {first : Token}
    {ts us vs : List Token} (starts : first.kind.startsExpr = true)
    (key : Fetches bound sub Precedence.lowest k false (first :: ts)) (colon : Token.Of .colon)
    (value : Fetches bound sub Precedence.lowest v false us) (comma : Token.Of .comma)
    (rest : FetchesEntries bound sub entries vs) :
    FetchesEntries bound sub ((k, v) :: entries)
      (first :: ts ++ colon.val :: (us ++ comma.val :: vs)) := by
  intro found fuel closing more s room enough ahead
  simp only [List.cons_append, List.length_append, List.length_cons] at room enough
  obtain ⟨fuel, rfl⟩ : ∃ f, fuel = f + 1 := ⟨fuel - 1, by omega⟩
  simp only [List.cons_append, List.append_assoc] at ahead
  have hopen := peek_ne_closeBrace starts ahead
  rcases pair_of_ahead key colon value comma rfl (by simp)
    (by simp only [List.length_cons, List.length_append]; omega) ahead with
    ⟨s', hpair, hahead, hreport⟩
  have hpeek : s'.peek.kind ≠ .closeBrace := by
    rw [State.peek_of_ahead hahead, comma.property]
    simp
  have hcomma := State.expect_of_ahead comma hahead
  -- The rest may be empty: then the comma was the one behind the last entry.
  have hrest := rest (s := ⟨comma.val, vs ++ closing.val :: more, s.report⟩) ((k, v) :: found) fuel
    (by omega) (by omega) rfl
  simp only [pairs, hopen, if_false, hpair, hpeek, hcomma, hreport, hrest, bind, Except.bind,
    List.reverse_cons, List.append_assoc, List.cons_append, List.nil_append]

/-- A hash literal is read back. -/
theorem hash_fetches {entries : List (Expr × Expr)} {ts : List Token}
    (opening : Token.Of .openBrace) (items : FetchesEntries bound sub entries ts)
    (closing : Token.Of .closeBrace) :
    FetchesOperand bound sub (.hash opening entries) false
      (opening.val :: (ts ++ [closing.val])) := by
  intro next more s _ room tokens
  obtain ⟨hcur, hahead⟩ := List.cons.inj tokens
  simp only [List.length_cons, List.length_append, List.length_nil] at room
  simp only [List.append_eq, List.append_assoc, List.cons_append, List.nil_append] at hahead
  have hpairs := items [] bound (by simp only [List.length_cons]; omega) (by omega) hahead
  refine ⟨⟨closing.val, next :: more, s.report⟩, ?_, rfl, rfl⟩
  simp only [operand, hcur, opening.property, hash, hpairs, bind, Except.bind, pure, Except.pure,
    orBad, List.reverse_nil, List.nil_append]

end Level

end Parse
end Scriptlet
