import Scriptlet.Proofs.Parse.Numeral
import Scriptlet.Proofs.Parse.Span

/-!
# Statements and operands are read soundly

Where reading a statement, a block or an operand reports nothing, the tokens that it went over are a
rendering of the tree that it gives, provided that the expressions inside are read like that.

- `Sound` : readers whose clean outcomes are renderings
- `ReadStmt`, `ReadForm`, `ReadLead` : what reading a statement, a form and an operand leaves behind
- `statements_sound`, `block_sound` : statements in a row
- `operand_sound` : everything that an expression can start with
-/

namespace Scriptlet
namespace Parse

/-! ## Sound readers -/

/-- A reader whose clean outcomes are renderings with at most `n` expressions inside each other. It
stops where no operator can go on. -/
structure Sound (bound n : Nat) (sub : ExprReader) : Prop where
  extend (precedence : Nat) (s : State) : Extends s (sub precedence s).2
  reads {precedence : Nat} {s s' : State} {e : Expr} (eq : sub precedence s = (e, s'))
    (low : Precedence.lowest ≤ precedence) (ready : Ready bound s) (clean : s'.Clean) :
    ∃ cut ts, Took s ts cut s' ∧ Renders n (.expr (.behind precedence) e) cut ts ∧
      Precedence.ofKind s'.peek.kind ≤ precedence

section Level

variable {bound n : Nat} {sub : ExprReader} (inner : Sound bound n sub)
include inner

theorem Sound.extends_eq {precedence : Nat} {s s' : State} {e : Expr}
    (eq : sub precedence s = (e, s')) : Extends s s' := by
  have h := inner.extend precedence s
  rwa [eq] at h

/-- An expression that starts behind the current token. -/
theorem Sound.reads_behind {precedence : Nat} {s s' : State} {e : Expr} (ready : Ready bound s)
    (more : s.ahead ≠ []) (low : Precedence.lowest ≤ precedence)
    (eq : sub precedence s.advance = (e, s')) (clean : s'.Clean) :
    ∃ cut ts, Took s (s.cur :: ts) cut s' ∧ Renders n (.expr (.behind precedence) e) cut ts ∧
      Precedence.ofKind s'.peek.kind ≤ precedence ∧ Ready bound s' := by
  have ready₁ := ready.of_extends (extends_advance s)
  rcases inner.reads eq low ready₁ clean with ⟨cut, ts, htook, hrender, hstop⟩
  have htokens : s.tokens = [s.cur] ++ s.advance.tokens := by
    rw [State.tokens_advance more]
    rfl
  exact ⟨cut, ts, htook.prepend htokens, hrender, hstop, ready₁.of_extends (inner.extends_eq eq)⟩

/-- An expression that starts behind the current token and ends before an expected one. -/
theorem Sound.reads_expect {s s₁ s' : State} {e : Expr} {kind : Token.Kind}
    (ready : Ready bound s) (more : s.ahead ≠ [])
    (eq : sub Precedence.lowest s.advance = (e, s₁)) (inside : kind ≠ .eof)
    (close : s₁.expect kind = .ok s') (clean : s'.Clean) :
    ∃ ts, s.ahead = ts ++ s'.tokens ∧ Stepped bound kind s₁ s' ∧
      Renders n (.expr (.behind Precedence.lowest) e) false ts := by
  have hext := (extends_advance s).trans (inner.extends_eq eq)
  have hstep := stepped_expect (ready.of_extends hext) inside close
  rcases inner.reads_behind ready more (Nat.le_refl _) eq (hstep.clean clean) with
    ⟨cut, ts, htook, hrender, -, -⟩
  -- The expected token lies ahead, so the expression does not reach to the end of file.
  have hmore : s₁.ahead ≠ [] := by simp [hstep.ahead, State.tokens]
  rcases htook.closed hmore with ⟨rfl, htokens⟩
  refine ⟨ts, ?_, hstep, hrender⟩
  rw [hstep.ahead] at htokens
  exact List.cons.inj htokens |>.2

/-- What was read in parentheses is rendered with them, and may stand in every place. -/
theorem grouped_sound {s s' : State} {e : Expr} (ready : Ready bound s)
    (opening : s.cur.kind = .openParen) (eq : grouped sub s = .ok (e, s')) (clean : s'.Clean)
    (place : Place) :
    ∃ ts, Took s ts false s' ∧ Renders (n + 1) (.expr place e) false ts := by
  rcases hsub : sub Precedence.lowest s.advance with ⟨e₁, s₁⟩
  simp only [grouped, hsub] at eq
  rcases bind_eq_ok.1 eq with ⟨s₂, hclose, hret⟩
  cases hret
  have hmore := ready.ahead_ne_nil (by simp [opening])
  rcases inner.reads_expect ready hmore hsub (by simp) hclose clean with
    ⟨ts, htokens, hstep, r, hr⟩
  refine ⟨s.cur :: (ts ++ [s'.cur]), ⟨?_, hstep.more⟩, ?_⟩
  · simp [State.tokens, htokens]
  · refine ⟨.parens ⟨s.cur, opening⟩ r ⟨s'.cur, hstep.cur⟩, ?_⟩
    simp only [Rendering.nesting]
    omega

/-! ## Statements and blocks -/

omit inner in
/-- A statement that was read, up to the token behind it or to its semicolon. -/
inductive ReadStmt (n : Nat) (s : State) (st : Stmt) (s' : State) : Prop
  | loose (ts : List Token) (took : Took s ts false s') (render : Renders n (.stmt st) false ts)
      (apart : st.MayPrecede s'.peek.kind)
  | ended (ts : List Token) (sign : Token.Of .semicolon) (took : Took s (ts ++ [sign.val]) false s')
      (render : Renders n (.stmt st) false ts)
      (apart : st.MayPrecede .semicolon)
  | cut (ts : List Token) (took : Took s ts true s') (render : Renders n (.stmt st) true ts)

omit inner in
/-- A semicolon that is skipped belongs to the statement in front of it. -/
theorem ReadStmt.of_skip {s s₁ : State} {st : Stmt} {ts : List Token} {cut : Bool}
    (ready : Ready bound s₁) (took : Took s ts cut s₁) (render : Renders n (.stmt st) cut ts)
    (apart : st.MayPrecede s₁.peek.kind) : ReadStmt n s st s₁.skipSemicolon := by
  cases cut with
  | true =>
      -- Behind missing braces there is only the end of file, and no semicolon to skip.
      have heof : s₁.peek.kind = .eof := by
        rw [State.peek_of_nil took.2]
        exact ready.eof_of_nil took.2
      have hskip : s₁.skipSemicolon = s₁ := by simp [State.skipSemicolon, heof]
      rw [hskip]
      exact .cut ts took render
  | false =>
      rcases htokens : s₁.ahead with _ | ⟨next, rest⟩
      · exact absurd htokens took.2
      · have hpeek := State.peek_of_ahead htokens
        by_cases hsemi : next.kind = .semicolon
        · have hskip : s₁.skipSemicolon = ⟨next, rest, s₁.report⟩ := by
            simp [State.skipSemicolon, hpeek, hsemi, State.advance_of_ahead htokens]
          have hstream := ready.stream.tail (by simp [htokens])
          rw [htokens] at hstream
          -- The semicolon is not the last token: that would be the end of file.
          have hrest : rest ≠ [] := fun hnil => by
            simp [hstream.eof_iff.2 hnil] at hsemi
          rw [hskip]
          rw [hpeek, hsemi] at apart
          refine .ended ts ⟨next, hsemi⟩ ⟨?_, hrest⟩ render apart
          rw [took.1, htokens, List.append_assoc]
          rfl
        · have hskip : s₁.skipSemicolon = s₁ := by simp [State.skipSemicolon, hpeek, hsemi]
          rw [hskip]
          exact .loose ts took render apart

/-- A definition that was read without faults is what its tokens render. -/
theorem define_sound {s s' : State} {st : Stmt} (ready : Ready bound s)
    (word : s.cur.kind = .letKw) (eq : define sub s = .ok (st, s')) (clean : s'.Clean) :
    ReadStmt n s st s' := by
  unfold define at eq
  rcases bind_eq_ok.1 eq with ⟨s₁, hname, eq₁⟩
  rcases bind_eq_ok.1 eq₁ with ⟨s₂, hsign, eq₂⟩
  have step₁ := stepped_expect ready (by simp) hname
  have step₂ := stepped_expect step₁.ready (by simp) hsign
  rcases hsub : sub Precedence.lowest s₂.advance with ⟨e, s₃⟩
  simp only [hsub] at eq₂
  cases eq₂
  have hclean := (stepwise_extends.skipSemicolon s₃).clean clean
  rcases inner.reads_behind step₂.ready step₂.more (Nat.le_refl _) hsub hclean with
    ⟨cut, ts, htook, ⟨r, hr⟩, hstop, hready⟩
  -- The value was read from the sign on; the word and the name stand in front of it.
  have htokens : s.tokens = [s.cur, s₁.cur] ++ s₂.tokens := by
    simp [State.tokens, step₁.ahead, step₂.ahead]
  refine .of_skip hready (htook.prepend htokens)
    ⟨.define ⟨s.cur, word⟩ ⟨s₁.cur, step₁.cur⟩ ⟨s₂.cur, step₂.cur⟩ r, hr⟩ ?_
  exact Nat.le_antisymm hstop (lowest_le_ofKind _)

/-- So is a return. -/
theorem returning_sound {s s' : State} {st : Stmt} (ready : Ready bound s)
    (word : s.cur.kind = .returnKw) (eq : returning sub s = (st, s')) (clean : s'.Clean) :
    ReadStmt n s st s' := by
  have hmore := ready.ahead_ne_nil (by simp [word])
  have htook : Took s [s.cur] false s := ⟨rfl, hmore⟩
  -- The three tokens that end a return without a value are treated alike.
  have hnothing (hend : s.peek.kind = .semicolon ∨ s.peek.kind = .closeBrace ∨ s.peek.kind = .eof) :
      ReadStmt n s (.returnNothing s.cur) s.skipSemicolon :=
    .of_skip ready htook ⟨.returnNothing ⟨s.cur, word⟩, by simp [Rendering.nesting]⟩ hend
  unfold returning at eq
  simp only at eq
  split at eq
  · next hkind => cases eq; exact hnothing (.inl hkind)
  · next hkind => cases eq; exact hnothing (.inr (.inl hkind))
  · next hkind => cases eq; exact hnothing (.inr (.inr hkind))
  · rcases hsub : sub Precedence.lowest s.advance with ⟨e, s₁⟩
    simp only [hsub] at eq
    cases eq
    have hclean := (stepwise_extends.skipSemicolon s₁).clean clean
    rcases inner.reads_behind ready hmore (Nat.le_refl _) hsub hclean with
      ⟨cut, ts, htook, ⟨r, hr⟩, hstop, hready⟩
    refine .of_skip hready htook ⟨.returnValue ⟨s.cur, word⟩ r, hr⟩ ?_
    exact Nat.le_antisymm hstop (lowest_le_ofKind _)

/-- A statement that was read, or a lone semicolon. -/
theorem statement_sound {s s' : State} {result : Option Stmt} (ready : Ready bound s)
    (eq : statement sub s = (result, s')) (clean : s'.Clean) :
    (∃ st, result = some st ∧ ReadStmt n s st s') ∨
      (result = none ∧ s' = s ∧ s.cur.kind = .semicolon) := by
  unfold statement at eq
  split at eq
  · next word =>
      split at eq
      · next st s₁ hdefine =>
          cases eq
          exact .inl ⟨st, rfl, define_sound inner ready word hdefine clean⟩
      · next s₁ hdefine =>
          cases eq
          -- A definition that stops short leaves a report.
          have h := stepwise_extends.define inner.extend s
          rw [hdefine] at h
          exact absurd clean h.2
  · next word =>
      rcases hreturn : returning sub s with ⟨st, s₁⟩
      simp only [hreturn] at eq
      cases eq
      exact .inl ⟨st, rfl, returning_sound inner ready word hreturn clean⟩
  · next word =>
      cases eq
      have hmore := ready.ahead_ne_nil (by simp [word])
      have htook : Took s [s.cur] false s := ⟨rfl, hmore⟩
      refine .inl ⟨_, rfl, .of_skip ready htook ?_ trivial⟩
      exact ⟨.breakLoop ⟨s.cur, word⟩, by simp [Rendering.nesting]⟩
  · next hkind =>
      cases eq
      exact .inr ⟨rfl, rfl, hkind⟩
  · rcases hsub : sub Precedence.lowest s with ⟨e, s₁⟩
    simp only [hsub] at eq
    cases eq
    have hclean := (stepwise_extends.skipSemicolon s₁).clean clean
    have hready := ready.of_extends (inner.extends_eq hsub)
    rcases inner.reads hsub (Nat.le_refl _) ready hclean with ⟨cut, ts, htook, ⟨r, hr⟩, hstop⟩
    rcases Took.exists_tail htook r rfl with ⟨us, rfl⟩
    refine .inl ⟨_, rfl, .of_skip hready htook ⟨.exprStmt r, hr⟩ ?_⟩
    exact Nat.le_antisymm hstop (lowest_le_ofKind _)

omit inner in
/-- A statement in front of others that were read. -/
theorem ReadStmt.cons {s s₁ s' : State} {st : Stmt} {sts : List Stmt} {us : List Token}
    {cut : Bool} (head : ReadStmt n s st s₁) (open₁ : s₁.ahead ≠ [])
    (tokens : s₁.advance.tokens = us ++ s'.tokens) (rest : Renders n (.stmts sts) cut us) :
    ∃ ts, s.tokens = ts ++ s'.tokens ∧ Renders n (.stmts (st :: sts)) cut ts := by
  rw [State.tokens_advance open₁] at tokens
  rcases rest with ⟨r, hr⟩
  cases head with
  | loose ts took render apart =>
      rcases render with ⟨r₁, hr₁⟩
      have hapart : ∀ next ∈ us.head?, st.MayPrecede next.kind := by
        intro next hnext
        rcases us with _ | ⟨first, us⟩
        · simp at hnext
        · obtain rfl : first = next := by simpa using hnext
          rwa [State.peek_of_ahead tokens] at apart
      refine ⟨ts ++ us, by rw [took.1, tokens, List.append_assoc], .stmtsCons r₁ r hapart, ?_⟩
      simp only [Rendering.nesting]
      omega
  | ended ts sign took render apart =>
      rcases render with ⟨r₁, hr₁⟩
      have hapart : ∀ next ∈ (sign.val :: us).head?, st.MayPrecede next.kind := by
        intro next hnext
        obtain rfl : sign.val = next := by simpa using hnext
        rwa [sign.property]
      refine ⟨ts ++ sign.val :: us, ?_, .stmtsCons r₁ (.semicolon sign r) hapart, ?_⟩
      · rw [took.1, tokens]
        simp
      · simp only [Rendering.nesting]
        omega
  -- Missing braces leave nothing behind them that could be read.
  | cut ts took _ => exact absurd took.2 open₁

/-- Statements up to a token that ends them. Missing braces reach to the end of file. -/
theorem statements_sound {stop : Token.Kind → Bool} (stopEof : stop .eof = true)
    {found sts : List Stmt} {fuel : Nat} {s s' : State} (ready : Ready bound s)
    (room : s.ahead.length ≤ fuel) (eq : statements sub stop found fuel s = (sts, s'))
    (clean : s'.Clean) :
    ∃ cut ts more, sts = found.reverse ++ more ∧ s.tokens = ts ++ s'.tokens ∧
      stop s'.cur.kind = true ∧ (cut = true → s'.ahead = []) ∧
      Renders n (.stmts more) cut ts := by
  -- Induction on the turns of the loop. Every turn takes at least one token, so `room` keeps the
  -- fuel from running out before the tokens do, and what was found before stands in front of what
  -- is still to come.
  have hnil : Renders n (.stmts []) false [] := ⟨.stmtsNil, by simp [Rendering.nesting]⟩
  induction fuel generalizing found s with
  | zero =>
      obtain ⟨rfl, rfl⟩ : found.reverse = sts ∧ s = s' := by simpa [statements] using eq
      have hahead : s.ahead = [] := List.eq_nil_of_length_eq_zero (Nat.le_zero.1 room)
      refine ⟨false, [], [], by simp, rfl, ?_, by simp, hnil⟩
      rw [ready.eof_of_nil hahead, stopEof]
  | succ fuel ih =>
      unfold statements at eq
      split at eq
      · next hstop =>
          obtain ⟨rfl, rfl⟩ : found.reverse = sts ∧ s = s' := by simpa using eq
          exact ⟨false, [], [], by simp, rfl, hstop, by simp, hnil⟩
      · next hstop =>
          rcases hstmt : statement sub s with ⟨result, s₁⟩
          have hext : Extends s s₁ := by
            have h := stepwise_extends.statement inner.extend s
            rwa [hstmt] at h
          have hready := ready.of_extends hext
          have hroom : s₁.advance.ahead.length ≤ fuel := by
            have hlength := hext.1.length_le
            simp only [State.tokens, List.length_cons] at hlength
            rw [State.length_ahead_advance]
            omega
          -- Reports only grow, so the end being clean makes this statement clean.
          have hclean : s₁.Clean := by
            rw [hstmt] at eq
            have h := fun found => (extends_advance s₁).trans
              (stepwise_extends.statements inner.extend stop found fuel s₁.advance)
            cases result with
            | none => exact (by simpa [eq] using h found : Extends s₁ s').clean clean
            | some st => exact (by simpa [eq] using h (st :: found) : Extends s₁ s').clean clean
          rcases statement_sound inner ready hstmt hclean with ⟨st, rfl, hread⟩ | ⟨rfl, rfl, hsemi⟩
          · simp only [hstmt] at eq
            by_cases hahead : s₁.ahead = []
            · -- Only a statement that lacks braces ends at the end of file.
              have hstop₁ : stop s₁.cur.kind = true := by rw [hready.eof_of_nil hahead, stopEof]
              rw [State.advance_of_nil hahead, statements_of_stop hstop₁] at eq
              obtain ⟨rfl, rfl⟩ : (st :: found).reverse = sts ∧ s₁ = s' := by simpa using eq
              cases hread with
              | loose _ took => exact absurd hahead took.2
              | ended _ _ took => exact absurd hahead took.2
              | cut ts took render =>
                  rcases render with ⟨r, hr⟩
                  exact ⟨true, ts, [st], by simp, took.1, hstop₁, fun _ => hahead, .stmtsCut r, hr⟩
            · rcases ih (hready.of_extends (extends_advance s₁)) hroom eq with
                ⟨cut, us, more, hsts, htokens, hstop', hcut, hrest⟩
              rcases hread.cons hahead htokens hrest with ⟨ts, htokens', hrender⟩
              exact ⟨cut, ts, st :: more, by simp [hsts], htokens', hstop', hcut, hrender⟩
          · simp only [hstmt] at eq
            rcases ih (hready.of_extends (extends_advance _)) hroom eq with
              ⟨cut, us, more, hsts, htokens, hstop', hcut, r, hr⟩
            -- A lone semicolon makes no statement, but its token is part of the rendering.
            have hahead := ready.ahead_ne_nil (by simp [hsemi])
            rw [State.tokens_advance hahead] at htokens
            refine ⟨cut, s₁.cur :: us, more, hsts, ?_, hstop', hcut, .semicolon ⟨s₁.cur, hsemi⟩ r, hr⟩
            simp [State.tokens, htokens]

/-- So is a block, perhaps cut by the end of the source. -/
theorem block_sound {s s' : State} {b : Block} (ready : Ready bound s)
    (opening : s.cur.kind = .openBrace) (eq : block bound sub s = (b, s')) (clean : s'.Clean) :
    ∃ cut ts, Took s ts cut s' ∧ Renders n (.block b) cut ts := by
  have hmore := ready.ahead_ne_nil (by simp [opening])
  have ready₁ := ready.of_extends (extends_advance s)
  have hroom : s.advance.ahead.length ≤ bound := by
    have h := ready₁.room
    simp only [State.tokens, List.length_cons] at h
    omega
  rcases hstmts : statements sub endsBlock [] bound s.advance with ⟨sts, s₁⟩
  simp only [block, hstmts] at eq
  obtain ⟨rfl, rfl⟩ : Block.mk s.cur sts = b ∧ s₁ = s' := by simpa using eq
  rcases statements_sound inner rfl ready₁ hroom hstmts clean with
    ⟨cut, ts, more, hsts, htokens, hstop, hcut, r, hr⟩
  obtain rfl : sts = more := by simpa using hsts
  rw [State.tokens_advance hmore] at htokens
  have ready' : Ready bound s₁ := by
    have h := ready₁.of_extends
      (stepwise_extends.statements inner.extend endsBlock [] bound s.advance)
    rwa [hstmts] at h
  by_cases hbrace : s₁.cur.kind = .closeBrace
  -- A closing brace is not the end of file, so nothing inside the block was cut.
  · have hmore' := ready'.ahead_ne_nil (by simp [hbrace])
    obtain rfl : cut = false := by
      cases cut with
      | false => rfl
      | true => exact absurd (hcut rfl) hmore'
    refine ⟨false, s.cur :: (ts ++ [s₁.cur]), ⟨?_, hmore'⟩, ?_⟩
    · simp [State.tokens, htokens]
    · exact ⟨.block ⟨s.cur, opening⟩ r ⟨s₁.cur, hbrace⟩, hr⟩
  -- Without a brace the statements ran into the end of file.
  · have heof : s₁.cur.kind = .eof := by
      revert hstop hbrace
      cases s₁.cur.kind <;> simp [endsBlock]
    refine ⟨true, s.cur :: ts, ⟨?_, ready'.stream.eof_iff.1 heof⟩, ?_⟩
    · simp [State.tokens, htokens]
    · exact ⟨.blockCut ⟨s.cur, opening⟩ r, hr⟩

/-! ## Operands -/

omit inner in
/-- A form without an operator at its root was read. -/
def ReadForm (n : Nat) (s : State) (e : Expr) (s' : State) : Prop :=
  ∃ cut ts, Took s ts cut s' ∧ e.isOperation = false ∧ Renders (n + 1) (.bare e) cut ts

/-- A condition in parentheses behind the current token. -/
theorem condition_sound {s s' : State} {test : Expr} (ready : Ready bound s)
    (eq : condition sub s = .ok (test, s')) (clean : s'.Clean) :
    ∃ (opening : Token.Of .openParen) (ts : List Token),
      s.ahead = opening.val :: (ts ++ s'.tokens) ∧ s'.cur.kind = .closeParen ∧
      Renders n (.expr (.behind Precedence.lowest) test) false ts := by
  unfold condition at eq
  rcases bind_eq_ok.1 eq with ⟨s₁, hopen, eq₁⟩
  have step₁ := stepped_expect ready (by simp) hopen
  rcases hsub : sub Precedence.lowest s₁.advance with ⟨e, s₂⟩
  simp only [hsub] at eq₁
  rcases bind_eq_ok.1 eq₁ with ⟨s₃, hclose, hret⟩
  cases hret
  rcases inner.reads_expect step₁.ready step₁.more hsub (by simp) hclose clean with
    ⟨ts, htokens, hstep, hrender⟩
  refine ⟨⟨s₁.cur, step₁.cur⟩, ts, ?_, hstep.cur, hrender⟩
  simp [step₁.ahead, htokens, State.tokens]

/-- A block behind the current token. -/
theorem expect_block_sound {s s₁ s' : State} {b : Block} (ready : Ready bound s)
    (opening : s.expect .openBrace = .ok s₁) (eq : block bound sub s₁ = (b, s'))
    (clean : s'.Clean) :
    ∃ cut ts, Took s (s.cur :: ts) cut s' ∧ Renders n (.block b) cut ts ∧ Ready bound s' ∧
      s.Clean := by
  have step := stepped_expect ready (by simp) opening
  rcases block_sound inner step.ready step.cur eq clean with ⟨cut, ts, htook, hrender⟩
  have htokens : s.tokens = [s.cur] ++ s₁.tokens := by simp [State.tokens, step.ahead]
  have hext : Extends s₁ s' := by
    have h := stepwise_extends.block bound inner.extend s₁
    rwa [eq] at h
  exact ⟨cut, ts, htook.prepend htokens, hrender, step.ready.of_extends hext,
    step.clean (hext.clean clean)⟩

/-- A condition and a block behind the current token, as in conditionals and loops. -/
theorem guarded_sound {s s₁ s₂ s' : State} {test : Expr} {b : Block} (ready : Ready bound s)
    (guard : condition sub s = .ok (test, s₁)) (opening : s₁.expect .openBrace = .ok s₂)
    (eq : block bound sub s₂ = (b, s')) (clean : s'.Clean) :
    ∃ (left : Token.Of .openParen) (ts : List Token) (right : Token.Of .closeParen) (cut : Bool)
      (us : List Token), Took s (s.cur :: left.val :: (ts ++ right.val :: us)) cut s' ∧
      Renders n (.expr (.behind Precedence.lowest) test) false ts ∧
      Renders n (.block b) cut us ∧ Ready bound s' := by
  have ready₁ : Ready bound s₁ := by
    have h := stepwise_extends.condition inner.extend s
    rw [guard] at h
    exact ready.of_extends h
  rcases expect_block_sound inner ready₁ opening eq clean with
    ⟨cut, us, htook, hbody, ready', clean₁⟩
  rcases condition_sound inner ready guard clean₁ with ⟨left, ts, htokens, hclose, htest⟩
  have htokens' : s.tokens = (s.cur :: left.val :: ts) ++ s₁.tokens := by
    simp [State.tokens, htokens]
  refine ⟨left, ts, ⟨s₁.cur, hclose⟩, cut, us, ?_, htest, hbody, ready'⟩
  have h := htook.prepend htokens'
  simpa using h

/-- So is a conditional. -/
theorem conditional_sound {s s' : State} {e : Expr} (ready : Ready bound s)
    (word : s.cur.kind = .ifKw) (eq : conditional bound sub s = .ok (e, s'))
    (clean : s'.Clean) : ReadForm n s e s' := by
  unfold conditional at eq
  rcases bind_eq_ok.1 eq with ⟨⟨test, s₁⟩, hguard, eq₁⟩
  rcases bind_eq_ok.1 eq₁ with ⟨s₂, hopen, eq₂⟩
  rcases hyes : block bound sub s₂ with ⟨yes, s₃⟩
  simp only [hyes] at eq₂
  split at eq₂
  · next helse =>
      rcases bind_eq_ok.1 eq₂ with ⟨s₄, hopen₄, eq₄⟩
      rcases hno : block bound sub s₄ with ⟨no, s₅⟩
      simp only [hno] at eq₄
      cases eq₄
      -- The first block has to be clean before it can be known to end at the `else`, and that it is
      -- clean follows from the second one, which is therefore looked at first.
      have ready₃ : Ready bound s₃ := by
        have h := stepwise_extends.condition inner.extend s
        have h' := stepwise_extends.block bound inner.extend s₂
        rw [hguard] at h
        rw [hyes] at h'
        exact (stepped_expect (ready.of_extends h) (by simp) hopen).ready.of_extends h'
      have step := stepped_advance ready₃ (by simp) helse
      rcases expect_block_sound inner step.ready hopen₄ hno clean with
        ⟨cut, vs, htook₄, ⟨r₄, hr₄⟩, -, clean₄⟩
      rcases guarded_sound inner ready hguard hopen hyes (step.clean clean₄) with
        ⟨left, ts, right, cut₃, us, htook₃, ⟨r₁, hr₁⟩, ⟨r₂, hr₂⟩, -⟩
      -- An `else` lies behind the first block, so that one has its braces.
      rcases htook₃.closed (by simp [step.ahead, State.tokens]) with ⟨rfl, htokens₃⟩
      rw [step.ahead] at htokens₃
      have htook := htook₄.prepend htokens₃
      refine ⟨cut, s.cur :: left.val :: (ts ++ right.val :: (us ++ s₃.advance.cur :: vs)), ?_, rfl, ?_⟩
      · simpa using htook
      · refine ⟨.ifElse ⟨s.cur, word⟩ left r₁ right r₂ ⟨s₃.advance.cur, step.cur⟩ r₄, ?_⟩
        simp only [Rendering.nesting]
        omega
  · cases eq₂
    rcases guarded_sound inner ready hguard hopen hyes clean with
      ⟨left, ts, right, cut, us, htook, ⟨r₁, hr₁⟩, ⟨r₂, hr₂⟩, -⟩
    refine ⟨cut, _, htook, rfl, .ifThen ⟨s.cur, word⟩ left r₁ right r₂, ?_⟩
    simp only [Rendering.nesting]
    omega

/-- So is a loop. -/
theorem whileLoop_sound {s s' : State} {e : Expr} (ready : Ready bound s)
    (word : s.cur.kind = .whileKw) (eq : whileLoop bound sub s = .ok (e, s'))
    (clean : s'.Clean) : ReadForm n s e s' := by
  unfold whileLoop at eq
  rcases bind_eq_ok.1 eq with ⟨⟨test, s₁⟩, hguard, eq₁⟩
  rcases bind_eq_ok.1 eq₁ with ⟨s₂, hopen, eq₂⟩
  rcases hbody : block bound sub s₂ with ⟨body, s₃⟩
  simp only [hbody] at eq₂
  cases eq₂
  rcases guarded_sound inner ready hguard hopen hbody clean with
    ⟨left, ts, right, cut, us, htook, ⟨r₁, hr₁⟩, ⟨r₂, hr₂⟩, -⟩
  refine ⟨cut, _, htook, rfl, .whileDo ⟨s.cur, word⟩ left r₁ right r₂, ?_⟩
  simp only [Rendering.nesting]
  omega

omit inner in
/-- Parameter names from the current one to the closing parenthesis. -/
theorem moreParams_sound {found params : List Ident} {fuel : Nat} {s s' : State}
    (ready : Ready bound s) (name : s.cur.kind = .ident)
    (eq : moreParams (s.ident :: found) fuel s = .ok (params, s')) :
    ∃ ts more, params = found.reverse ++ s.ident :: more ∧ s.tokens = ts ++ s'.tokens ∧
      s'.cur.kind = .closeParen ∧ Ready bound s' ∧ ParamList (s.ident :: more) ts := by
  induction fuel generalizing found s with
  | zero =>
      rcases bind_eq_ok.1 eq with ⟨s₁, hclose, hret⟩
      cases hret
      have step := stepped_expect ready (by simp) hclose
      refine ⟨[s.cur], [], by simp, ?_, step.cur, step.ready, .last ⟨s.cur, name⟩⟩
      simp [State.tokens, step.ahead]
  | succ fuel ih =>
      unfold moreParams at eq
      split at eq
      · next hcomma =>
          have step₁ := stepped_advance ready (by simp) hcomma
          rcases bind_eq_ok.1 eq with ⟨s₂, hname, eq₂⟩
          have step₂ := stepped_expect step₁.ready (by simp) hname
          -- From the name behind the comma on the loop starts anew.
          rcases ih step₂.ready step₂.cur eq₂ with
            ⟨ts, more, hparams, htokens, hclose, hready, hlist⟩
          refine ⟨s.cur :: s.advance.cur :: ts, s₂.ident :: more, by simp [hparams], ?_, hclose,
            hready, .cons ⟨s.cur, name⟩ ⟨s.advance.cur, step₁.cur⟩ hlist⟩
          rw [List.cons_append, List.cons_append, ← htokens, ← step₂.ahead]
          exact congrArg (s.cur :: ·) step₁.ahead
      · rcases bind_eq_ok.1 eq with ⟨s₁, hclose, hret⟩
        cases hret
        have step := stepped_expect ready (by simp) hclose
        refine ⟨[s.cur], [], by simp, ?_, step.cur, step.ready, .last ⟨s.cur, name⟩⟩
        simp [State.tokens, step.ahead]

omit inner in
/-- A parameter list behind the current token. -/
theorem params_sound {names : List Ident} {s s' : State} (ready : Ready bound s)
    (eq : params bound s = .ok (names, s')) :
    ∃ ts, s.ahead = ts ++ s'.tokens ∧ s'.cur.kind = .closeParen ∧ Ready bound s' ∧
      ParamList names ts := by
  unfold params at eq
  split at eq
  · next hclose =>
      cases eq
      have step := stepped_advance ready (by simp) hclose
      exact ⟨[], step.ahead, step.cur, step.ready, .nil⟩
  · rcases bind_eq_ok.1 eq with ⟨s₁, hname, eq₁⟩
    have step := stepped_expect ready (by simp) hname
    rcases moreParams_sound step.ready step.cur eq₁ with
      ⟨ts, more, hnames, htokens, hclose, hready, hlist⟩
    obtain rfl : names = s₁.ident :: more := by simpa using hnames
    exact ⟨ts, by rw [step.ahead, htokens], hclose, hready, hlist⟩

/-- So is a function literal. -/
theorem function_sound {s s' : State} {e : Expr} (ready : Ready bound s)
    (word : s.cur.kind = .fnKw) (eq : function bound sub s = .ok (e, s'))
    (clean : s'.Clean) : ReadForm n s e s' := by
  unfold function at eq
  rcases bind_eq_ok.1 eq with ⟨s₁, hopen, eq₁⟩
  rcases bind_eq_ok.1 eq₁ with ⟨⟨names, s₂⟩, hparams, eq₂⟩
  rcases bind_eq_ok.1 eq₂ with ⟨s₃, hbrace, eq₃⟩
  rcases hbody : block bound sub s₃ with ⟨body, s₄⟩
  simp only [hbody] at eq₃
  cases eq₃
  have step₁ := stepped_expect ready (by simp) hopen
  rcases params_sound step₁.ready hparams with ⟨ts, htokens, hclose, ready₂, hlist⟩
  rcases expect_block_sound inner ready₂ hbrace hbody clean with ⟨cut, us, htook, ⟨r, hr⟩, -, -⟩
  have htokens' : s.tokens = (s.cur :: s₁.cur :: ts) ++ s₂.tokens := by
    simp [State.tokens, step₁.ahead, htokens]
  refine ⟨cut, s.cur :: s₁.cur :: (ts ++ s₂.cur :: us), ?_, rfl, ?_⟩
  · simpa using htook.prepend htokens'
  · exact ⟨.function ⟨s.cur, word⟩ ⟨s₁.cur, step₁.cur⟩ hlist ⟨s₂.cur, hclose⟩ r,
      Nat.succ_le_succ hr⟩

omit inner in
/-- What stands behind an item of a list: nothing, or a comma and further items. -/
inductive ListTail (n : Nat) : List Expr → List Token → Prop
  | nil : ListTail n [] []
  | cons (comma : Token.Of .comma) {next : Expr} {es : List Expr} {us : List Token}
      (rest : Renders n (.list (next :: es)) false us) : ListTail n (next :: es) (comma.val :: us)

omit inner in
/-- An item and the tail of its list render a list. -/
theorem ListTail.renders {e : Expr} {es : List Expr} {ts us : List Token}
    (item : Renders n (.expr (.behind Precedence.lowest) e) false ts) (tail : ListTail n es us) :
    Renders n (.list (e :: es)) false (ts ++ us) := by
  rcases item with ⟨r, hr⟩
  cases tail with
  | nil =>
      rw [List.append_nil]
      exact ⟨.listLast r, hr⟩
  | cons comma rest =>
      rcases rest with ⟨r', hr'⟩
      exact ⟨.listCons r comma r', by simp only [Rendering.nesting]; omega⟩

/-- The items that were read without faults are those between the first one and the closing
bracket. -/
theorem moreExprs_sound {close : Token.Kind} (inside : close ≠ .eof) {found es : List Expr}
    {fuel : Nat} {s s' : State} (ready : Ready bound s)
    (eq : moreExprs sub close found fuel s = .ok (es, s')) (clean : s'.Clean) :
    ∃ ts more, es = found.reverse ++ more ∧ s.ahead = ts ++ s'.tokens ∧
      s'.cur.kind = close ∧ s'.ahead ≠ [] ∧ ListTail n more ts := by
  induction fuel generalizing found s with
  | zero =>
      rcases bind_eq_ok.1 eq with ⟨s₁, hclose, hret⟩
      cases hret
      have step := stepped_expect ready inside hclose
      exact ⟨[], [], by simp, step.ahead, step.cur, step.more, .nil⟩
  | succ fuel ih =>
      unfold moreExprs at eq
      split at eq
      · next hcomma =>
          have step := stepped_advance ready (by simp) hcomma
          rcases hsub : sub Precedence.lowest s.advance.advance with ⟨item, s₁⟩
          simp only [hsub] at eq
          have hext : Extends s₁ s' := by
            have h := stepwise_extends.moreExprs inner.extend close (item :: found) fuel s₁
            rwa [eq] at h
          rcases inner.reads_behind step.ready step.more (Nat.le_refl _) hsub (hext.clean clean)
            with ⟨cut, us, htook, hitem, -, ready₁⟩
          -- The item ends before the closing bracket or another comma, so it is not cut.
          rcases ih ready₁ eq with ⟨ts, more, hes, htokens, hclose, hmore, htail⟩
          rcases htook.closed (by simp [htokens, State.tokens]) with ⟨rfl, htokens₁⟩
          refine ⟨s.advance.cur :: (us ++ ts), item :: more, by simp [hes], ?_, hclose, hmore,
            .cons ⟨s.advance.cur, step.cur⟩ (htail.renders hitem)⟩
          rw [step.ahead, htokens₁, htokens]
          simp
      · rcases bind_eq_ok.1 eq with ⟨s₁, hclose, hret⟩
        cases hret
        have step := stepped_expect ready inside hclose
        exact ⟨[], [], by simp, step.ahead, step.cur, step.more, .nil⟩

/-- Expressions with commas between them, behind the current token. -/
theorem exprList_sound {close : Token.Kind} (inside : close ≠ .eof) {es : List Expr}
    {s s' : State} (ready : Ready bound s) (more : s.ahead ≠ [])
    (eq : exprList bound sub close s = .ok (es, s')) (clean : s'.Clean) :
    ∃ ts, s.ahead = ts ++ s'.tokens ∧ s'.cur.kind = close ∧ s'.ahead ≠ [] ∧
      Renders n (.list es) false ts := by
  unfold exprList at eq
  split at eq
  · next hclose =>
      cases eq
      have step := stepped_advance ready inside hclose
      exact ⟨[], step.ahead, step.cur, step.more, .listNil, Nat.zero_le n⟩
  · rcases hsub : sub Precedence.lowest s.advance with ⟨item, s₁⟩
    simp only [hsub] at eq
    have hext : Extends s₁ s' := by
      have h := stepwise_extends.moreExprs inner.extend close [item] bound s₁
      rwa [eq] at h
    rcases inner.reads_behind ready more (Nat.le_refl _) hsub (hext.clean clean) with
      ⟨cut, us, htook, hitem, -, ready₁⟩
    rcases moreExprs_sound inner inside ready₁ eq clean with
      ⟨ts, tail, hes, htokens, hclose, hmore, htail⟩
    rcases htook.closed (by simp [htokens, State.tokens]) with ⟨rfl, htokens₁⟩
    obtain rfl : es = item :: tail := by simpa using hes
    refine ⟨us ++ ts, ?_, hclose, hmore, htail.renders hitem⟩
    rw [htokens] at htokens₁
    simpa [State.tokens] using htokens₁

/-- An array literal that was read without faults is what its tokens render. -/
theorem array_sound {s s' : State} {e : Expr} (ready : Ready bound s)
    (opening : s.cur.kind = .openBracket) (eq : array bound sub s = .ok (e, s'))
    (clean : s'.Clean) : ReadForm n s e s' := by
  unfold array at eq
  rcases bind_eq_ok.1 eq with ⟨⟨es, s₁⟩, hlist, hret⟩
  cases hret
  have hmore := ready.ahead_ne_nil (by simp [opening])
  rcases exprList_sound inner (by simp) ready hmore hlist clean with
    ⟨ts, htokens, hclose, hmore', r, hr⟩
  refine ⟨false, s.cur :: (ts ++ [s'.cur]), ⟨by simp [State.tokens, htokens], hmore'⟩, rfl, ?_⟩
  exact ⟨.array ⟨s.cur, opening⟩ r ⟨s'.cur, hclose⟩, Nat.succ_le_succ hr⟩

/-- A key and its value behind the current token. -/
theorem pair_sound {s s' : State} {k v : Expr} (ready : Ready bound s) (more : s.ahead ≠ [])
    (eq : pair sub s = .ok ((k, v), s')) (clean : s'.Clean) :
    ∃ (ts : List Token) (colon : Token.Of .colon) (cut : Bool) (us : List Token),
      Took s (s.cur :: (ts ++ colon.val :: us)) cut s' ∧
      Renders n (.expr (.behind Precedence.lowest) k) false ts ∧
      Renders n (.expr (.behind Precedence.lowest) v) cut us ∧ Ready bound s' := by
  unfold pair at eq
  rcases hkey : sub Precedence.lowest s.advance with ⟨key, s₁⟩
  simp only [hkey] at eq
  rcases bind_eq_ok.1 eq with ⟨s₂, hcolon, eq₂⟩
  rcases hvalue : sub Precedence.lowest s₂.advance with ⟨value, s₃⟩
  simp only [hvalue] at eq₂
  cases eq₂
  have hext : Extends s₂ s' := (extends_advance s₂).trans (inner.extends_eq hvalue)
  rcases inner.reads_expect ready more hkey (by simp) hcolon (hext.clean clean) with
    ⟨ts, htokens, step, hkeyRenders⟩
  rcases inner.reads_behind step.ready step.more (Nat.le_refl _) hvalue clean with
    ⟨cut, us, htook, hvalueRenders, -, ready'⟩
  have htokens' : s.tokens = (s.cur :: ts) ++ s₂.tokens := by simp [State.tokens, htokens]
  refine ⟨ts, ⟨s₂.cur, step.cur⟩, cut, us, ?_, hkeyRenders, hvalueRenders, ready'⟩
  simpa using htook.prepend htokens'

/-- The entries of a hash, behind the current token. -/
theorem pairs_sound {found entries : List (Expr × Expr)} {fuel : Nat} {s s' : State}
    (ready : Ready bound s) (more : s.ahead ≠ [])
    (eq : pairs sub found fuel s = .ok (entries, s')) (clean : s'.Clean) :
    ∃ ts rest, entries = found.reverse ++ rest ∧ s.ahead = ts ++ s'.tokens ∧
      s'.cur.kind = .closeBrace ∧ s'.ahead ≠ [] ∧ Renders n (.entries rest) false ts := by
  have hnil : Renders n (.entries []) false [] := ⟨.entriesNil, Nat.zero_le n⟩
  induction fuel generalizing found s with
  | zero =>
      rcases bind_eq_ok.1 eq with ⟨s₁, hclose, hret⟩
      cases hret
      have step := stepped_expect ready (by simp) hclose
      exact ⟨[], [], by simp, step.ahead, step.cur, step.more, hnil⟩
  | succ fuel ih =>
      unfold pairs at eq
      split at eq
      · next hclose =>
          cases eq
          have step := stepped_advance ready (by simp) hclose
          exact ⟨[], [], by simp, step.ahead, step.cur, step.more, hnil⟩
      · rcases bind_eq_ok.1 eq with ⟨⟨⟨k, v⟩, s₁⟩, hpair, eq₁⟩
        simp only at eq₁
        split at eq₁
        · next hclose =>
            -- The brace closes the hash behind this entry; the loop looks at it once more before it
            -- ends.
            rw [pairs_of_close hclose] at eq₁
            cases eq₁
            rcases pair_sound inner ready more hpair ((extends_advance s₁).clean clean) with
              ⟨ts, colon, cut, us, htook, ⟨r₁, hr₁⟩, ⟨r₂, hr₂⟩, ready₁⟩
            have step := stepped_advance ready₁ (by simp) hclose
            rcases htook.closed (by simp [step.ahead, State.tokens]) with ⟨rfl, htokens⟩
            rw [step.ahead] at htokens
            refine ⟨ts ++ colon.val :: us, [(k, v)], by simp, (List.cons.inj htokens).2,
              step.cur, step.more, .entriesLast r₁ colon r₂, ?_⟩
            simp only [Rendering.nesting]
            omega
        · rcases bind_eq_ok.1 eq₁ with ⟨s₂, hcomma, eq₂⟩
          have ready₁ : Ready bound s₁ := by
            have h := stepwise_extends.pair inner.extend s
            rw [hpair] at h
            exact ready.of_extends h
          have step := stepped_expect ready₁ (by simp) hcomma
          have hext : Extends s₂ s' := by
            have h := stepwise_extends.pairs inner.extend ((k, v) :: found) fuel s₂
            rwa [eq₂] at h
          rcases pair_sound inner ready more hpair (step.clean (hext.clean clean)) with
            ⟨ts, colon, cut, us, htook, ⟨r₁, hr₁⟩, ⟨r₂, hr₂⟩, -⟩
          rcases htook.closed (by simp [step.ahead, State.tokens]) with ⟨rfl, htokens⟩
          -- Behind the comma either a further entry or the closing brace may stand, and `rest`
          -- covers both.
          rcases ih step.ready step.more eq₂ with
            ⟨vs, rest, hentries, htokens₂, hclose, hmore, r₃, hr₃⟩
          refine ⟨ts ++ colon.val :: (us ++ s₂.cur :: vs), (k, v) :: rest, by simp [hentries], ?_,
            hclose, hmore, .entriesCons r₁ colon r₂ ⟨s₂.cur, step.cur⟩ r₃, ?_⟩
          · rw [step.ahead] at htokens
            simpa [State.tokens, htokens₂] using (List.cons.inj htokens).2
          · simp only [Rendering.nesting]
            omega

/-- So is a hash literal. -/
theorem hash_sound {s s' : State} {e : Expr} (ready : Ready bound s)
    (opening : s.cur.kind = .openBrace) (eq : hash bound sub s = .ok (e, s'))
    (clean : s'.Clean) : ReadForm n s e s' := by
  unfold hash at eq
  rcases bind_eq_ok.1 eq with ⟨⟨entries, s₁⟩, hpairs, hret⟩
  cases hret
  have hmore := ready.ahead_ne_nil (by simp [opening])
  rcases pairs_sound inner ready hmore hpairs clean with
    ⟨ts, rest, hentries, htokens, hclose, hmore', r, hr⟩
  obtain rfl : entries = rest := by simpa using hentries
  refine ⟨false, s.cur :: (ts ++ [s'.cur]), ⟨by simp [State.tokens, htokens], hmore'⟩, rfl, ?_⟩
  exact ⟨.hash ⟨s.cur, opening⟩ r ⟨s'.cur, hclose⟩, Nat.succ_le_succ hr⟩

omit inner in
/-- A form that was not clean gives no expression. -/
theorem ok_of_orBad {s s' : State} {x : Except State (Expr × State)} {e : Expr}
    (h : Along Extends (fun s => ¬ s.Clean) s x) (eq : orBad x = (e, s')) (clean : s'.Clean) :
    x = .ok (e, s') := by
  cases x with
  | error s₁ =>
      cases eq
      exact absurd clean h.2
  | ok result => exact congrArg Except.ok eq

omit inner in
/-- An expression that was read so far: it may be what was looked for, and it may stand in front of
the next token if that is an operator. -/
def ReadLead (n precedence : Nat) (s : State) (e : Expr) (s' : State) : Prop :=
  ∃ cut ts, Took s ts cut s' ∧ Renders (n + 1) (.expr (.behind precedence) e) cut ts ∧
    Renders (n + 1) (.expr (.front (Precedence.ofKind s'.peek.kind)) e) cut ts

omit inner in
/-- A form that stands on its own is an operand at every level. -/
theorem ReadForm.lead {precedence : Nat} {s s' : State} {e : Expr} (h : ReadForm n s e s') :
    ReadLead n precedence s e s' := by
  rcases h with ⟨cut, ts, htook, hfree, r, hr⟩
  have hplace := Place.admits_of_isOperation_eq_false hfree
  exact ⟨cut, ts, htook, ⟨.plain (hplace _) r, hr⟩, ⟨.plain (hplace _) r, hr⟩⟩

omit inner in
/-- An operand of one token. -/
theorem ReadForm.of_token {s : State} {e : Expr} (ready : Ready bound s)
    (inside : s.cur.kind ≠ .eof) (free : e.isOperation = false)
    (r : Rendering (.bare e) false [s.cur]) (small : r.nesting = 1) : ReadForm n s e s :=
  ⟨false, [s.cur], ⟨rfl, ready.ahead_ne_nil inside⟩, free, r, by omega⟩

omit inner in
/-- A number that was read without faults is the value of its numeral. -/
theorem integer_sound {s s' : State} {e : Expr} (ready : Ready bound s)
    (digits : s.cur.kind = .int) (eq : integer s = (e, s')) (clean : s'.Clean) :
    ReadForm n s e s' := by
  unfold integer at eq
  split at eq
  · next value hvalue =>
      cases eq
      have hnumeral :=
        (integer?_eq_some_iff (ready.stream.digits_of_int digits) value).1 hvalue
      exact .of_token ready (by simp [digits]) rfl (.int ⟨s.cur, digits⟩ value hnumeral) rfl
  · cases eq
    exact absurd clean (s.not_clean_fault _ _)

/-- A unary expression that was read without faults is what its tokens render. -/
theorem unary_sound {precedence : Nat} {op : UnaryOp} {s s' : State} {e : Expr}
    (ready : Ready bound s) (is_op : UnaryOp.ofKind? s.cur.kind = some op)
    (eq : unary sub op s = (e, s')) (clean : s'.Clean) : ReadLead n precedence s e s' := by
  have hmore : s.ahead ≠ [] :=
    ready.ahead_ne_nil fun heof => by simp [heof, UnaryOp.ofKind?] at is_op
  rcases hsub : sub Precedence.unary s.advance with ⟨operand, s₁⟩
  simp only [unary, hsub] at eq
  cases eq
  rcases inner.reads_behind ready hmore (by decide) hsub clean with
    ⟨cut, ts, htook, ⟨r, hr⟩, hstop, -⟩
  refine ⟨cut, _, htook, ⟨.plain trivial (.unary s.cur is_op r), ?_⟩,
    ⟨.plain hstop (.unary s.cur is_op r), ?_⟩⟩
  · exact Nat.succ_le_succ hr
  · exact Nat.succ_le_succ hr

/-- So is every kind of operand. -/
theorem operand_sound {precedence : Nat} {s s' : State} {e : Expr} (ready : Ready bound s)
    (eq : operand bound sub s = .ok (e, s')) (clean : s'.Clean) :
    ReadLead n precedence s e s' := by
  unfold operand at eq
  simp only at eq
  split at eq
  · next hkind =>
      cases eq
      exact (ReadForm.of_token ready (by simp [hkind]) rfl (.ident ⟨s.cur, hkind⟩) rfl).lead
  · next hkind => exact (integer_sound ready hkind (Except.ok.inj eq) clean).lead
  · next hkind =>
      cases eq
      exact (ReadForm.of_token ready (by simp [hkind]) rfl (.str ⟨s.cur, hkind⟩) rfl).lead
  · next hkind =>
      cases eq
      exact (ReadForm.of_token ready (by simp [hkind]) rfl (.trueWord ⟨s.cur, hkind⟩) rfl).lead
  · next hkind =>
      cases eq
      exact (ReadForm.of_token ready (by simp [hkind]) rfl (.falseWord ⟨s.cur, hkind⟩) rfl).lead
  · next hkind =>
      have hok := ok_of_orBad (stepwise_extends.grouped inner.extend s) (Except.ok.inj eq) clean
      -- Parentheses lift every restriction of the place.
      have hgroup := grouped_sound inner ready hkind hok clean
      rcases hgroup (.behind precedence) with ⟨ts, htook, hwhole⟩
      rcases hgroup (.front (Precedence.ofKind s'.peek.kind)) with ⟨us, htook', hfront⟩
      obtain rfl : ts = us := List.append_cancel_right (htook.1.symm.trans htook'.1)
      exact ⟨false, ts, htook, hwhole, hfront⟩
  · next hkind =>
      have hop : UnaryOp.ofKind? s.cur.kind = some .not := by simp [hkind, UnaryOp.ofKind?]
      exact unary_sound inner ready hop (Except.ok.inj eq) clean
  · next hkind =>
      have hop : UnaryOp.ofKind? s.cur.kind = some .neg := by simp [hkind, UnaryOp.ofKind?]
      exact unary_sound inner ready hop (Except.ok.inj eq) clean
  · next hkind =>
      have hop : UnaryOp.ofKind? s.cur.kind = some .pos := by simp [hkind, UnaryOp.ofKind?]
      exact unary_sound inner ready hop (Except.ok.inj eq) clean
  · next hkind =>
      have hok := ok_of_orBad (stepwise_extends.conditional bound inner.extend s)
        (Except.ok.inj eq) clean
      exact (conditional_sound inner ready hkind hok clean).lead
  · next hkind =>
      have hok := ok_of_orBad (stepwise_extends.whileLoop bound inner.extend s)
        (Except.ok.inj eq) clean
      exact (whileLoop_sound inner ready hkind hok clean).lead
  · next hkind =>
      have hok := ok_of_orBad (stepwise_extends.function bound inner.extend s)
        (Except.ok.inj eq) clean
      exact (function_sound inner ready hkind hok clean).lead
  · next hkind =>
      have hok := ok_of_orBad (stepwise_extends.array bound inner.extend s)
        (Except.ok.inj eq) clean
      exact (array_sound inner ready hkind hok clean).lead
  · next hkind =>
      have hok := ok_of_orBad (stepwise_extends.hash bound inner.extend s)
        (Except.ok.inj eq) clean
      exact (hash_sound inner ready hkind hok clean).lead
  · cases eq
  · cases eq
  · cases eq

end Level

end Parse
end Scriptlet
