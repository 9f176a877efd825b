import Scriptlet.Proofs.Parse.SoundForms

/-!
# Reading is sound

Where reading reports nothing, the tokens that it went over are a rendering of the tree that it
gives: no token is dropped, none is used twice, and parentheses stand wherever precedence demands
them.

- `operators_sound` : an operand with the operators behind it
- `sound_expr` : expressions are read soundly at every level
- `parse_rendering` : a program without diagnostics is rendered by the tokens of its source
-/

namespace Scriptlet
namespace Parse

section Level

variable {bound n : Nat} {sub : ExprReader} (inner : Sound bound n sub)
include inner

/-! ## Operators -/

/-- A call that was read without faults is what its tokens render, the callee in front. -/
theorem call_sound {precedence : Nat} {s s₁ s' : State} {callee e : Expr} {ts : List Token}
    (ready : Ready bound s₁) (opening : s₁.cur.kind = .openParen)
    (tokens : s.tokens = ts ++ s₁.tokens)
    (front : Renders (n + 1) (.expr (.front Precedence.call) callee) false ts)
    (eq : call bound sub callee s₁ = .ok (e, s')) (clean : s'.Clean) :
    ReadLead n precedence s e s' := by
  unfold call at eq
  rcases bind_eq_ok.1 eq with ⟨⟨args, s₂⟩, hargs, hret⟩
  cases hret
  have hmore := ready.ahead_ne_nil (by simp [opening])
  rcases exprList_sound inner (by simp) ready hmore hargs clean with
    ⟨us, htokens, hclose, hmore', r₂, hr₂⟩
  rcases front with ⟨r₁, hr₁⟩
  refine ReadForm.lead ⟨false, ts ++ s₁.cur :: (us ++ [s'.cur]), ⟨?_, hmore'⟩, rfl, ?_⟩
  · rw [tokens]
    simp [State.tokens, htokens]
  · refine ⟨.call r₁ ⟨s₁.cur, opening⟩ r₂ ⟨s'.cur, hclose⟩, ?_⟩
    simp only [Rendering.nesting]
    omega

/-- So is an index. -/
theorem index_sound {precedence : Nat} {s s₁ s' : State} {target e : Expr} {ts : List Token}
    (ready : Ready bound s₁) (opening : s₁.cur.kind = .openBracket)
    (tokens : s.tokens = ts ++ s₁.tokens)
    (front : Renders (n + 1) (.expr (.front Precedence.index) target) false ts)
    (eq : index sub target s₁ = .ok (e, s')) (clean : s'.Clean) :
    ReadLead n precedence s e s' := by
  unfold index at eq
  rcases hsub : sub Precedence.lowest s₁.advance with ⟨key, s₂⟩
  simp only [hsub] at eq
  rcases bind_eq_ok.1 eq with ⟨s₃, hclose, hret⟩
  cases hret
  have hmore := ready.ahead_ne_nil (by simp [opening])
  rcases inner.reads_expect ready hmore hsub (by simp) hclose clean with
    ⟨us, htokens, step, r₂, hr₂⟩
  rcases front with ⟨r₁, hr₁⟩
  refine ReadForm.lead ⟨false, ts ++ s₁.cur :: (us ++ [s'.cur]), ⟨?_, step.more⟩, rfl, ?_⟩
  · rw [tokens]
    simp [State.tokens, htokens]
  · refine ⟨.index r₁ ⟨s₁.cur, opening⟩ r₂ ⟨s'.cur, step.cur⟩, ?_⟩
    simp only [Rendering.nesting]
    omega

/-- One more operator behind an expression. -/
theorem operator_sound {precedence : Nat} {s s₁ s' : State} {left e : Expr} (ready : Ready bound s₁)
    (lead : ReadLead n precedence s left s₁)
    (binds : precedence < Precedence.ofKind s₁.peek.kind) {sequel : Sequel}
    (starts : Sequel.ofKind? s₁.peek.kind = some sequel)
    (eq : operator bound sub sequel left s₁.advance = (e, s')) (clean : s'.Clean) :
    ReadLead n precedence s e s' := by
  -- The end of file starts nothing, so the token ahead is a real operator.
  have hinside : s₁.peek.kind ≠ .eof := (Sequel.ne_of_starts starts).2.1
  have step := stepped_advance ready hinside rfl
  rcases lead with ⟨cut, ts, htook, -, hfront⟩
  rcases htook.closed (by simp [step.ahead, State.tokens]) with ⟨rfl, htokens⟩
  rw [step.ahead] at htokens
  rw [← step.cur] at starts
  cases sequel with
  | call =>
      have hkind := Sequel.kind_of_call starts
      have hok := ok_of_orBad (stepwise_extends.call bound inner.extend left s₁.advance) eq clean
      -- The callee was known to fit in front of whatever comes next, which is now a call.
      rw [← step.cur, hkind] at hfront
      exact call_sound inner step.ready hkind htokens hfront hok clean
  | index =>
      have hkind := Sequel.kind_of_index starts
      have hok := ok_of_orBad (stepwise_extends.index inner.extend left s₁.advance) eq clean
      rw [← step.cur, hkind] at hfront
      exact index_sound inner step.ready hkind htokens hfront hok clean
  | binary op =>
      have hop := Sequel.ofKind?_eq_binary_iff.1 starts
      have hprec := BinaryOp.precedence_of_ofKind? hop
      rw [← step.cur, hprec] at binds hfront
      rcases hsub : sub (Precedence.ofKind s₁.advance.cur.kind) s₁.advance.advance with ⟨right, s₂⟩
      simp only [operator, binary, hsub] at eq
      cases eq
      rcases inner.reads_behind step.ready step.more (lowest_le_ofKind _) hsub clean with
        ⟨cut, us, htook', hright, hstop, -⟩
      rw [hprec] at hstop hright
      rcases hfront with ⟨r₁, hr₁⟩
      rcases hright with ⟨r₂, hr₂⟩
      -- What stands in front lies at the level of the operator itself, what stands behind one level
      -- down.
      have hsmall : (Rendering.binary r₁ s₁.advance.cur hop r₂).nesting ≤ n + 1 := by
        simp only [Rendering.nesting]
        omega
      -- The same rendering is admitted behind `precedence`, since the operator binds more tightly,
      -- and in front of the next token, since the operand behind the operator left that token alone.
      exact ⟨cut, _, htook'.prepend htokens, ⟨.plain binds (.binary r₁ _ hop r₂), hsmall⟩,
        ⟨.plain hstop (.binary r₁ _ hop r₂), hsmall⟩⟩

/-- All operators that bind tightly enough, up to a token that does not. -/
theorem operators_sound {precedence fuel : Nat} {s s₁ s' : State} {left e : Expr}
    (low : Precedence.lowest ≤ precedence) (ready : Ready bound s₁)
    (room : s₁.ahead.length ≤ fuel) (lead : ReadLead n precedence s left s₁)
    (eq : operators bound sub precedence fuel left s₁ = (e, s')) (clean : s'.Clean) :
    ReadLead n precedence s e s' ∧ Precedence.ofKind s'.peek.kind ≤ precedence := by
  induction fuel generalizing left s₁ with
  | zero =>
      obtain ⟨rfl, rfl⟩ : left = e ∧ s₁ = s' := by simpa [operators] using eq
      -- The fuel covers the tokens ahead, so running out of it means standing on the end of file.
      have hnil : s₁.ahead = [] := List.eq_nil_of_length_eq_zero (Nat.le_zero.1 room)
      refine ⟨lead, ?_⟩
      rw [State.peek_of_nil hnil, ready.eof_of_nil hnil]
      exact low
  | succ fuel ih =>
      by_cases hbinds : precedence < Precedence.ofKind s₁.peek.kind
      · rcases Sequel.exists_of_binds low hbinds with ⟨sequel, hstarts⟩
        rw [operators_of_sequel hstarts hbinds] at eq
        rcases hop : operator bound sub sequel left s₁.advance with ⟨left', s₂⟩
        rw [hop] at eq
        have hext : Extends s₁.advance s₂ := by
          have h := stepwise_extends.operator bound inner.extend sequel left s₁.advance
          rwa [hop] at h
        have hclean : s₂.Clean := by
          have h := stepwise_extends.operators bound inner.extend precedence fuel left' s₂
          rw [eq] at h
          exact h.clean clean
        -- The operator itself took one token.
        have hroom : s₂.ahead.length ≤ fuel := by
          have hlength := hext.1.length_le
          simp only [State.tokens, List.length_cons, State.length_ahead_advance] at hlength
          omega
        have ready₂ := (ready.of_extends (extends_advance s₁)).of_extends hext
        exact ih ready₂ hroom (operator_sound inner ready lead hbinds hstarts hop hclean) eq
      · rw [operators_of_stop (Nat.not_lt.1 hbinds)] at eq
        cases eq
        exact ⟨lead, Nat.not_lt.1 hbinds⟩

/-- One level on top of a sound reader is sound. -/
theorem sound_exprLevel : Sound bound (n + 1) (exprLevel bound sub) where
  extend := stepwise_extends.exprLevel bound inner.extend
  reads {precedence s s' e} eq low ready clean := by
    unfold exprLevel at eq
    split at eq
    · next left s₁ hoperand =>
        have hext : Extends s s₁ := by
          have h := stepwise_extends.operand bound inner.extend s
          rwa [hoperand] at h
        have hclean : s₁.Clean := by
          have h := stepwise_extends.operators bound inner.extend precedence bound left s₁
          rw [eq] at h
          exact h.clean clean
        have ready₁ := ready.of_extends hext
        have hroom : s₁.ahead.length ≤ bound := Nat.le_of_succ_le ready₁.room
        have hlead : ReadLead n precedence s left s₁ := operand_sound inner ready hoperand hclean
        rcases operators_sound inner low ready₁ hroom hlead eq clean with
          ⟨⟨cut, ts, htook, hwhole, -⟩, hstop⟩
        exact ⟨cut, ts, htook, hwhole, hstop⟩
    · next s₁ hoperand =>
        have h := stepwise_extends.operand bound inner.extend s
        rw [hoperand] at h
        cases eq
        exact absurd clean h.2

end Level

/-- Expressions are read soundly at every level. -/
theorem sound_expr (bound levels : Nat) : Sound bound levels (expr bound levels) := by
  induction levels with
  | zero =>
      refine ⟨stepwise_extends.expr bound 0, ?_⟩
      intro precedence s s' e eq _ _ clean
      -- With no level left every expression is reported as nested too deeply.
      have hdeep : (tooDeep s).2 = s' := congrArg Prod.snd eq
      exact absurd clean (hdeep ▸ s.not_clean_tooDeep)
  | succ levels ih => exact sound_exprLevel ih

/-! ## Programs -/

/-- Reading all statements of a token stream without a report. -/
theorem program_sound {tokens : List Token} (stream : TokenStream tokens)
    (clean : (program tokens).2.Clean) :
    ∃ cut ts eof, tokens = ts ++ [eof] ∧ eof.kind = .eof ∧
      Renders maxNesting (.stmts (program tokens).1.stmts) cut ts := by
  have htokens : (State.ofTokens tokens).tokens = tokens := by
    cases stream <;> rfl
  have ready := ready_ofTokens stream
  have hroom : (State.ofTokens tokens).ahead.length ≤ tokens.length := by
    have h := ready.room
    simp only [State.tokens, List.length_cons] at h
    omega
  rcases hstmts : statements (expr tokens.length maxNesting) isEof [] tokens.length
    (State.ofTokens tokens) with ⟨sts, s⟩
  have hprogram : program tokens = (⟨sts⟩, s) := by simp [program, hstmts]
  rw [hprogram] at clean
  rcases statements_sound (sound_expr _ _) rfl ready hroom hstmts clean with
    ⟨cut, ts, more, hsts, hrest, hstop, -, hrender⟩
  obtain rfl : sts = more := by simpa using hsts
  have heof : s.cur.kind = .eof := by
    revert hstop
    cases s.cur.kind <;> simp [isEof]
  -- In a stream only the last token is the end of file, so nothing is left unread.
  have hnil : s.ahead = [] := by
    have hsuffix : s.tokens <:+ (State.ofTokens tokens).tokens := ⟨ts, hrest.symm⟩
    have hstream := ready.stream.of_suffix hsuffix (by simp [State.tokens])
    exact hstream.eof_iff.1 heof
  refine ⟨cut, ts, s.cur, ?_, heof, ?_⟩
  · rw [← htokens, hrest, State.tokens, hnil]
  · rw [hprogram]
    exact hrender

/-- A report that lists nothing is empty. -/
theorem clean_program_of_quiet {tokens : List Token} (quiet : (parseTokens tokens).2 = []) :
    (program tokens).2.Clean := by
  have hentries : (program tokens).2.report.entries = #[] := by
    simpa [parseTokens, Report.toList] using quiet
  have hext := stepwise_extends.statements (stepwise_extends.expr tokens.length maxNesting) isEof []
    tokens.length (State.ofTokens tokens)
  have hstart : (State.ofTokens tokens).Clean := by
    cases tokens <;> rfl
  -- A report that differs from the empty one at the start has entries.
  rcases hext.2 with heq | hne
  · exact heq.trans hstart
  · exact absurd hentries hne

/-- A program without diagnostics is rendered by all tokens of its source but the end of file. Only
what the source lacks at its end can be missing, and nothing in the tree is unread. -/
theorem parse_rendering (src : String) (quiet : (parse src).2 = []) :
    ∃ (cut : Bool) (ts : List Token) (eof : Token)
      (r : Rendering (.stmts (parse src).1.stmts) cut ts),
      tokenize src = ts ++ [eof] ∧ eof.kind = .eof ∧ r.nesting ≤ maxNesting ∧
        (parse src).1.hasBad = false := by
  have hclean := clean_program_of_quiet quiet
  rcases program_sound (tokenStream_tokenize src) hclean with
    ⟨cut, ts, eof, htokens, heof, r, hnesting⟩
  exact ⟨cut, ts, eof, r, htokens, heof, hnesting, r.hasBad_eq_false⟩

/-- Parentheses that nothing demands, doubled and missing semicolons, a comma behind the last entry
of a hash and two open blocks. -/
theorem parse_rendering_loose_source :
    let src := "fn(a) \x7b ((a)) * -2;; \x7d([2])[0] while (!x) \x7b \x7b1: 2,\x7d; if (y) \x7b break"
    (parse src).2 = [] ∧ ∃ (cut : Bool) (ts : List Token) (eof : Token)
      (r : Rendering (.stmts (parse src).1.stmts) cut ts),
      tokenize src = ts ++ [eof] ∧ eof.kind = .eof ∧ r.nesting ≤ maxNesting ∧
        (parse src).1.hasBad = false := by
  intro src
  have quiet : (parse src).2 = [] := by decide
  exact ⟨quiet, parse_rendering src quiet⟩

end Parse
end Scriptlet
