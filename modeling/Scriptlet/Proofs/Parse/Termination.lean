import Scriptlet.Proofs.Parse.AuditForms

/-!
# Reading ends

Reading under audit always has an outcome, and it is the one of reading as such. The tokens of the
stream bound every loop, and the number of expressions under way bounds how deeply productions lie
inside each other. So every source text is read to its end.

- `follows_expression` : expressions of all levels under audit
- `program_ends` : reading takes all tokens
- `parse_terminates` : every source text is read, under all rules
-/

namespace Scriptlet
namespace Parse

/-! ## Expressions -/

section Nesting

open Audit

variable {bound nesting rank fuel : Nat} {j : Journal}

/-- One skipped token. -/
theorem drainTurn_turn (_ : Nat) (x : Unit) (j : Journal) (fits : j.Fits bound nesting rank) :
    Turn (drainTurn x) j ((), j.state.drain) fun _ s => ((), s.drain) := by
  by_cases hend : j.state.cur.kind = .eof
  · rw [State.drain_of_nil (fits.ready.stream.eof_iff.1 hend)]
    exact .ends (.look (.ite_pos hend (.pure _ _)))
  · refine .goes (y := ()) ?_ (extends_advance j.state)
      (length_ahead_advance_lt fits.ready hend (stepwise_extends.refl _))
      (by rw [State.drain_advance])
    exact .look (.ite_neg hend (.advance (.pure _ _)))

/-- Giving up is within the audit. -/
theorem gives_tooDeep (fits : j.Fits bound nesting rank) (enough : bound ≤ fuel) :
    (Audit.tooDeep fuel).Gives j (tooDeep j.state) := by
  let closed : State :=
    { j.state with report := j.state.report.close (some ⟨j.state.cur.pos, .tooDeep⟩) }
  have fits' : (j.on closed).Fits bound nesting rank :=
    ⟨⟨fits.ready.stream, fits.ready.room⟩, fits.depth, fits.small, fits.ranks⟩
  refine Gives.bind (.act _ j) ?_
  have hdrain := Gives.loop (fun _ _ s => ((), s.drain)) drainTurn_turn fits' enough ()
  exact hdrain.bind (.act State.bad _)

/-- Up to the nesting limit there is room for one level more. -/
theorem fits_enter_expression (ready : Ready bound j.state) (depth : j.depth = nesting)
    (small : nesting ≤ maxNesting) : (j.enter .expression).Fits bound (nesting + 1) rank := by
  refine ⟨ready, congrArg (· + 1) depth, Nat.succ_le_succ small, ?_⟩
  intro p hp
  have hinner : (j.enter .expression).inner = [] := rfl
  rw [hinner] at hp
  cases hp

/-- With room for all levels, expressions under audit are the expressions without. -/
theorem follows_expression (enough : bound ≤ fuel) {levels calls : Nat}
    (sum : nesting + levels = maxNesting) (lt : levels < calls) :
    Follows bound nesting (Audit.expression fuel calls) (expr bound levels) := by
  induction levels generalizing nesting calls with
  -- The expression behind the last level is one too many: it gives up, and nothing is read in it.
  | zero =>
      obtain ⟨calls, rfl⟩ : ∃ n, calls = n + 1 := ⟨calls - 1, by omega⟩
      refine ⟨?_, stepwise_extends.expr bound 0⟩
      intro precedence j low ready depth
      have fits : (j.enter .expression).Fits bound (nesting + 1) 4 :=
        fits_enter_expression ready depth (by omega)
      refine .expression fits (.ite_pos ?_ (gives_tooDeep fits enough))
      rw [fits.depth]
      omega
  | succ levels ih =>
      obtain ⟨calls, rfl⟩ : ∃ n, calls = n + 1 := ⟨calls - 1, by omega⟩
      have hinner := @ih (nesting + 1) calls (by omega) (by omega)
      refine ⟨?_, stepwise_extends.expr bound (levels + 1)⟩
      intro precedence j low ready depth
      have fits : (j.enter .expression).Fits bound (nesting + 1) 4 :=
        fits_enter_expression ready depth (by omega)
      exact .expression fits (.ite_neg (by rw [fits.depth]; omega) (hinner.level fits enough low))

/-- All statements are read, and reading stops at a token that stops them. -/
theorem stop_statements {sub : ExprReader} (along : ∀ precedence s, Extends s (sub precedence s).2)
    {stop : Token.Kind → Bool} (atEnd : stop .eof = true) {s : State} (ready : Ready bound s)
    {k : Nat} (room : s.ahead.length < k) (found : List Stmt) :
    stop (statements sub stop found k s).2.cur.kind = true := by
  induction k generalizing s found with
  | zero => exact absurd room (Nat.not_lt_zero _)
  | succ k ih =>
      by_cases hstop : stop s.cur.kind = true
      · rw [statements_of_stop hstop]
        exact hstop
      · have hinside := ne_eof_of_not_stop atEnd hstop
        have halong := stepwise_extends.statement along s
        have hfewer := length_ahead_advance_lt ready hinside halong
        rw [statements_of_not_stop hstop]
        exact ih (ready.of_extends (halong.trans (extends_advance _))) (by omega) _

end Nesting

/-! ## Programs -/

/-- A program is read to the end of the input. -/
theorem program_ends {tokens : List Token} (stream : TokenStream tokens) :
    (program tokens).2.cur.kind = .eof ∧ (program tokens).2.ahead = [] := by
  have hready := ready_ofTokens stream
  have hstop : isEof (program tokens).2.cur.kind = true :=
    stop_statements (stepwise_extends.expr tokens.length maxNesting) rfl hready hready.room []
  have hend : (program tokens).2.cur.kind = .eof := by
    revert hstop
    cases (program tokens).2.cur.kind <;> simp [isEof]
  have halong : Extends (.ofTokens tokens) (program tokens).2 :=
    stepwise_extends.statements (stepwise_extends.expr tokens.length maxNesting) isEof [] _ _
  exact ⟨hend, (hready.of_extends halong).stream.eof_iff.1 hend⟩

/-- Reading under audit, with as many turns as there are tokens, reads the program and comes out of
every production. -/
theorem auditTokens_eq {tokens : List Token} (stream : TokenStream tokens) {fuel : Nat}
    (enough : tokens.length ≤ fuel) (levels : maxNesting < fuel) :
    auditTokens fuel tokens = some ((program tokens).1, ⟨(program tokens).2, [], 0⟩) := by
  let start : Journal := ⟨.ofTokens tokens, [], 0⟩
  have fits : start.Fits tokens.length 0 4 :=
    ⟨ready_ofTokens stream, rfl, Nat.zero_le _, fun p hp => by cases hp⟩
  have inner := follows_expression enough (Nat.zero_add maxNesting) levels
  have hprogram : (Audit.program fuel).Gives start (program tokens) := by
    refine .within 2 fits (by decide) fun fits₂ => ?_
    have hstmts := Audit.Gives.loop
      (fun k found => statements (expr tokens.length maxNesting) isEof found k)
      (inner.statementTurn rfl) fits₂ enough []
    exact hstmts.bind (.pure _ _)
  exact hprogram

/-- Reading comes to an end for every source text, and keeps to all rules of the audit on its way:
expressions never nest too deeply, productions come about within themselves only by way of an
expression, and every turn of a loop that goes on takes a token. In the end all tokens but the end
of file are taken, and nothing is under way. -/
theorem parse_terminates (src : String) :
    ∃ journal : Journal,
      (∀ spare, auditTokens ((tokenize src).length + maxNesting + 1 + spare) (tokenize src) =
        some ((parse src).1, journal)) ∧
      journal.state.report.toList = (parse src).2 ∧
      journal.state.cur.kind = .eof ∧ journal.state.ahead = [] ∧
      journal.calls = [] ∧ journal.depth = 0 := by
  have hstream := tokenStream_tokenize src
  have hends := program_ends hstream
  have haudit (spare : Nat) :
      auditTokens ((tokenize src).length + maxNesting + 1 + spare) (tokenize src) =
        some ((program (tokenize src)).1, ⟨(program (tokenize src)).2, [], 0⟩) :=
    auditTokens_eq hstream (by omega) (by omega)
  have hparse : parse src =
      ((program (tokenize src)).1, (program (tokenize src)).2.report.toList) := by
    rw [parse, parseTokens]
  rw [hparse]
  generalize program (tokenize src) = r at hends haudit
  exact ⟨⟨r.2, [], 0⟩, haudit, rfl, hends.1, hends.2, rfl, rfl⟩

end Parse
end Scriptlet
