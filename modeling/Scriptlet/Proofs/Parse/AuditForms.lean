import Mathlib.Data.List.TakeWhile
import Scriptlet.Proofs.Parse.Audit

/-!
# Forms under audit

Every form of the grammar gives the same under audit as without, if the expressions in it do. So
loops end, and keep to their rule while they run: a turn that goes on takes a token from the stream.

The productions between two expressions have ranks, and every one of them calls only productions of
lower ranks or expressions. So none of them comes about within itself.

- `Audit.Gives` : a reading under audit that comes to a given result
- `Production.rank`, `Journal.Fits` : productions call others of lower ranks
- `Audit.Turn`, `Audit.Gives.loop` : one turn of a loop and the whole loop
- `Follows` : readers of expressions that give the same with and without audit
-/

namespace Scriptlet
namespace Parse

/-! ## Fewer tokens -/

section Fewer

variable {bound : Nat} {s s₁ : State}

theorem extends_of_expect {kind : Token.Kind} (h : s.expect kind = .ok s₁) : Extends s s₁ := by
  unfold State.expect at h
  simp only at h
  split at h
  · cases h
    exact extends_advance s
  · split at h <;> cases h

theorem extends_of_along {α : Type} {Faulted : State → Prop} {x : Except State (α × State)} {a : α}
    (h : Along Extends Faulted s x) (eq : x = .ok (a, s₁)) : Extends s s₁ := by
  rw [eq] at h
  exact h

/-- A step onto a token that is not the end of file takes a token, with all that follows. -/
theorem length_ahead_lt_of_peek (ready : Ready bound s) (inside : s.peek.kind ≠ .eof)
    (along : Extends s.advance s₁) : s₁.ahead.length < s.ahead.length := by
  have hmore : s.ahead ≠ [] := by
    intro hnil
    rw [State.peek_of_nil hnil] at inside
    exact inside (ready.eof_of_nil hnil)
  -- Nothing ever puts tokens back, so what follows the step has no more of them.
  have hpos : 0 < s.ahead.length := List.length_pos_iff.2 hmore
  have hle := along.length_ahead_le
  rw [s.length_ahead_advance] at hle
  omega

end Fewer

/-! ## Results under audit -/

namespace Audit

variable {α β σ : Type} {j : Journal}

/-- A reading under audit that comes to a result and a state. It leaves the productions that are
under way as they are. -/
def Gives (audit : Audit α) (j : Journal) (r : α × State) : Prop :=
  audit j = some (r.1, j.on r.2)

/-- An audit after another goes on with the journal of the first. -/
theorem bind_apply (audit : Audit α) (next : α → Audit β) (j : Journal) :
    (audit >>= next) j = (audit j).bind fun r => next r.1 r.2 :=
  rfl

/-- The outcome of a form that may stop short, without its fault. -/
def outcome : Except State (α × State) → Option α × State
  | .ok (a, s) => (some a, s)
  | .error s => (none, s)

namespace Gives

theorem pure (a : α) (j : Journal) : (Pure.pure a : Audit α).Gives j (a, j.state) :=
  rfl

/-- What is read after something else starts from the state behind it. -/
theorem bind {audit : Audit α} {next : α → Audit β} {r : α × State} {r' : β × State}
    (first : audit.Gives j r) (second : (next r.1).Gives (j.on r.2) r') :
    (audit >>= next).Gives j r' := by
  have hfirst : audit j = some (r.1, j.on r.2) := first
  have hsecond : next r.1 (j.on r.2) = some (r'.1, j.on r'.2) := second
  unfold Gives
  rw [bind_apply, hfirst, Option.bind_some, hsecond]

theorem map {audit : Audit α} {r : α × State} (h : audit.Gives j r) (f : α → β) :
    (f <$> audit).Gives j (f r.1, r.2) := by
  rw [map_eq_pure_bind]
  exact h.bind (pure (f r.1) (j.on r.2))

/-- Looking at the state changes nothing. -/
theorem look {next : State → Audit β} {r : β × State} (h : (next j.state).Gives j r) :
    (Audit.look >>= next).Gives j r :=
  h

/-- An action has its outcome, and no production begins or ends. -/
theorem act (f : State → α × State) (j : Journal) : (Audit.act f).Gives j (f j.state) :=
  rfl

theorem advance {next : Unit → Audit β} {r : β × State}
    (h : (next ()).Gives (j.on j.state.advance) r) : (Audit.advance >>= next).Gives j r :=
  bind (act (fun s => ((), s.advance)) j) h

theorem skipSemicolon {next : Unit → Audit β} {r : β × State}
    (h : (next ()).Gives (j.on j.state.skipSemicolon) r) :
    (Audit.skipSemicolon >>= next).Gives j r :=
  bind (act (fun s => ((), s.skipSemicolon)) j) h

/-- A token that has to be there, and is. -/
theorem expect_ok {kind : Token.Kind} {s : State} {yes no : Audit β} {r : β × State}
    (eq : j.state.expect kind = .ok s) (h : yes.Gives (j.on s) r) :
    (do if ← Audit.expect kind then yes else no : Audit β).Gives j r := by
  refine bind (act _ j) ?_
  rw [eq]
  exact h

/-- A token that has to be there, and is not. -/
theorem expect_error {kind : Token.Kind} {s : State} {yes no : Audit β} {r : β × State}
    (eq : j.state.expect kind = .error s) (h : no.Gives (j.on s) r) :
    (do if ← Audit.expect kind then yes else no : Audit β).Gives j r := by
  refine bind (act _ j) ?_
  rw [eq]
  exact h

/-- A step onto a token that has to be there, and what is made of it when it is not. -/
theorem expect {γ : Type} (result : Except State (γ × State) → β × State) {kind : Token.Kind}
    {next : State → Except State (γ × State)} {yes no : Audit β}
    (hyes : ∀ s, j.state.expect kind = .ok s → yes.Gives (j.on s) (result (next s)))
    (hno : ∀ s, no.Gives (j.on s) (result (.error s))) :
    (do if ← Audit.expect kind then yes else no : Audit β).Gives j
      (result (j.state.expect kind >>= next)) := by
  cases hexpect : j.state.expect kind with
  | ok s => exact expect_ok hexpect (hyes s hexpect)
  | error s => exact expect_error hexpect (hno s)

/-- The closing token of a list. -/
theorem closing (j : Journal) (close : Token.Kind) (found : List β) :
    (do if ← Audit.expect close then return .inr (some found.reverse) else return .inr none :
      Audit (σ ⊕ Option (List β))).Gives j
      (.inr (outcome (j.state.expect close >>= fun s => .ok (found.reverse, s))).1,
        (outcome (j.state.expect close >>= fun s => .ok (found.reverse, s))).2) := by
  cases hexpect : j.state.expect close with
  | ok s => exact expect_ok hexpect (pure _ _)
  | error s => exact expect_error hexpect (pure _ _)

theorem ite_pos {c : Prop} [Decidable c] {yes no : Audit β} {r : β × State} (hc : c)
    (h : yes.Gives j r) : (if c then yes else no).Gives j r := by
  rw [if_pos hc]
  exact h

theorem ite_neg {c : Prop} [Decidable c] {yes no : Audit β} {r : β × State} (hc : ¬ c)
    (h : no.Gives j r) : (if c then yes else no).Gives j r := by
  rw [if_neg hc]
  exact h

/-- Both branches, each where its condition holds. -/
theorem ite {γ : Type} (result : γ → β × State) {c : Prop} [Decidable c] {yes no : Audit β}
    {x y : γ} (hyes : c → yes.Gives j (result x)) (hno : ¬ c → no.Gives j (result y)) :
    (if c then yes else no).Gives j (result (if c then x else y)) := by
  by_cases hc : c
  · rw [if_pos hc, if_pos hc]
    exact hyes hc
  · rw [if_neg hc, if_neg hc]
    exact hno hc

/-- A part that may stop short, and what is made of it when it does. -/
theorem part {γ δ : Type} (result : Except State (γ × State) → β × State)
    {audit : Audit (Option δ)} {x : Except State (δ × State)} {next' : Option δ → Audit β}
    {next : δ × State → Except State (γ × State)} (h : audit.Gives j (outcome x))
    (hsome : ∀ a s, x = .ok (a, s) → (next' (some a)).Gives (j.on s) (result (next (a, s))))
    (hnone : ∀ s, (next' none).Gives (j.on s) (result (.error s))) :
    (audit >>= next').Gives j (result (x >>= next)) := by
  refine bind h ?_
  cases hx : x with
  | ok r => exact hsome r.1 r.2 hx
  | error s => exact hnone s

end Gives

end Audit

/-! ## Ranks -/

/-- Productions call others of lower ranks, or expressions. -/
def Production.rank : Production → Nat
  | .program | .grouped | .unary | .conditional | .whileLoop | .function | .array | .hash => 4
  | .binary | .call | .index | .name | .integer | .text | .truth => 4
  | .block => 3
  | .statement => 2
  | .define | .returning | .breaking | .exprStmt | .condition | .params | .exprList => 1
  | .expression => 0

theorem Production.ne_expression (p : Production) (h : 0 < p.rank) : p ≠ .expression := by
  rintro rfl
  exact Nat.lt_irrefl _ h

theorem Journal.state_enter (p : Production) (j : Journal) : (j.enter p).state = j.state :=
  rfl

/-- A journal between two expressions. As many expressions are under way as given, and productions
up to a rank may begin. -/
structure Journal.Fits (bound nesting rank : Nat) (j : Journal) : Prop where
  ready : Ready bound j.state
  depth : j.depth = nesting
  small : nesting ≤ maxNesting + 1
  ranks : ∀ p ∈ j.inner, rank < p.rank

namespace Journal.Fits

variable {bound nesting rank : Nat} {j : Journal}

/-- Reading on leaves room for the same productions. -/
theorem on (h : j.Fits bound nesting rank) {s : State} (along : Extends j.state s) :
    (j.on s).Fits bound nesting rank :=
  ⟨h.ready.of_extends along, h.depth, h.small, h.ranks⟩

theorem advance (h : j.Fits bound nesting rank) :
    (j.on j.state.advance).Fits bound nesting rank :=
  h.on (extends_advance j.state)

theorem expect (h : j.Fits bound nesting rank) {kind : Token.Kind} {s : State}
    (eq : j.state.expect kind = .ok s) : (j.on s).Fits bound nesting rank :=
  h.on (extends_of_expect eq)

/-- There is room for productions of lower ranks. -/
theorem mono (h : j.Fits bound nesting rank) {lower : Nat} (le : lower ≤ rank) :
    j.Fits bound nesting lower :=
  ⟨h.ready, h.depth, h.small, fun p hp => Nat.lt_of_le_of_lt le (h.ranks p hp)⟩

/-- Within a production there is room for those of lower ranks. -/
theorem enter {p : Production} (h : j.Fits bound nesting p.rank) {lower : Nat}
    (lt : lower < p.rank) : (j.enter p).Fits bound nesting lower := by
  have plain := p.ne_expression (Nat.zero_lt_of_lt lt)
  refine ⟨h.ready, ?_, h.small, ?_⟩
  · have hdepth : (j.enter p).depth = j.depth := if_neg plain
    exact hdepth.trans h.depth
  -- The new production stands in front of those under way, which have higher ranks still.
  · intro q hq
    have hinner : (j.enter p).inner = p :: j.inner :=
      List.takeWhile_cons_of_pos (by simp [plain])
    rw [hinner] at hq
    rcases List.mem_cons.1 hq with rfl | hq
    · exact lt
    · exact Nat.lt_trans lt (h.ranks q hq)

end Journal.Fits

namespace Audit

variable {α β σ : Type} {j : Journal} {bound nesting rank : Nat}

/-- A production may begin if it is not under way, and if expressions are not too deep. -/
theorem Gives.reading {p : Production} {body : Audit α} {r : α × State}
    (fresh : p ∉ j.inner) (small : (j.enter p).depth ≤ maxNesting + 1)
    (h : body.Gives (j.enter p) r) : (Audit.reading p body).Gives j r := by
  have hrules : ¬ (p ∈ j.inner ∨ maxNesting + 1 < (j.enter p).depth) :=
    not_or.2 ⟨fresh, Nat.not_lt.2 small⟩
  have hbody : body (j.enter p) = some (r.1, (j.enter p).on r.2) := h
  have hleave : ((j.enter p).on r.2).leave p = j.on r.2 := by
    by_cases hp : p = .expression
    · simp [Journal.leave, Journal.enter, Journal.on, hp]
    · simp [Journal.leave, Journal.enter, Journal.on, hp]
  unfold Gives Audit.reading
  rw [if_neg hrules, hbody, Option.map_some]
  exact congrArg (fun j' => some (r.1, j')) hleave

/-- A production that fits between two expressions may begin, and calls those of lower ranks. -/
theorem Gives.within {p : Production} {body : Audit α} {r : α × State} (lower : Nat)
    (fits : j.Fits bound nesting p.rank) (lt : lower < p.rank)
    (h : (j.enter p).Fits bound nesting lower → body.Gives (j.enter p) r) :
    (Audit.reading p body).Gives j r := by
  have hfits := fits.enter lt
  refine Gives.reading ?_ ?_ (h hfits)
  -- All productions under way have higher ranks, so this one is not among them.
  · intro hmem
    exact Nat.lt_irrefl _ (fits.ranks p hmem)
  · rw [hfits.depth]
    exact fits.small

/-- An expression may begin at any place that is not too deep. -/
theorem Gives.expression {body : Journal → Audit α} {r : α × State}
    (fits : (j.enter .expression).Fits bound nesting rank)
    (h : (body (j.enter .expression)).Gives (j.enter .expression) r) :
    (Audit.reading .expression (get >>= body)).Gives j r := by
  refine Gives.reading ?_ ?_ h
  · intro hmem
    simpa using List.mem_takeWhile_imp hmem
  · rw [fits.depth]
    exact fits.small

/-! ## Loops -/

/-- One turn of a loop against a step of the same loop without audit, which is given by its result
and by what goes on: the turn ends the loop with that result, or takes a token. -/
inductive Turn (turn : Audit (σ ⊕ α)) (j : Journal) (r : α × State)
    (more : σ → State → α × State) : Prop
  | ends (h : turn.Gives j (.inr r.1, r.2))
  | goes {y : σ} {s : State} (h : turn.Gives j (.inl y, s)) (along : Extends j.state s)
      (fewer : s.ahead.length < j.state.ahead.length) (eq : r = more y s)

/-- A loop whose turns take tokens gives what it gives without audit. -/
theorem Gives.turns {turn : σ → Audit (σ ⊕ α)} {run : Nat → σ → State → α × State}
    (step : ∀ k x j, j.Fits bound nesting rank → Turn (turn x) j (run (k + 1) x j.state) (run k))
    (fits : j.Fits bound nesting rank) {fuel k : Nat} (enough : j.state.ahead.length < fuel)
    (room : j.state.ahead.length < k) (x : σ) :
    (Audit.turns turn fuel x).Gives j (run k x j.state) := by
  -- Both counts stay above the number of tokens ahead, which falls with every turn.
  induction fuel generalizing k x j with
  | zero => exact absurd enough (Nat.not_lt_zero _)
  | succ fuel ih =>
      obtain ⟨k, rfl⟩ : ∃ n, k = n + 1 := ⟨k - 1, by omega⟩
      unfold Gives Audit.turns
      cases step k x j fits with
      -- Without another turn the loop has the result of the turn; otherwise the rule allows the
      -- next one, which starts with fewer tokens.
      | ends h =>
          have hturn : turn x j =
              some (.inr (run (k + 1) x j.state).1, j.on (run (k + 1) x j.state).2) := h
          rw [hturn]
      | @goes y s h along fewer eq =>
          have hturn : turn x j = some (.inl y, j.on s) := h
          have hfewer : (j.on s).state.ahead.length < j.state.ahead.length := fewer
          have hrest : (Audit.turns turn fuel y).Gives (j.on s) (run k y s) :=
            ih (fits.on along) (by omega) (by omega) y
          rw [hturn, eq]
          dsimp only
          rw [if_pos hfewer]
          exact hrest

/-- The loops have turns for all tokens. -/
theorem Gives.loop {turn : σ → Audit (σ ⊕ α)} (run : Nat → σ → State → α × State)
    (step : ∀ k x j, j.Fits bound nesting rank → Turn (turn x) j (run (k + 1) x j.state) (run k))
    (fits : j.Fits bound nesting rank) {fuel : Nat} (enough : bound ≤ fuel) (x : σ) :
    (Audit.turns turn fuel x).Gives j (run bound x j.state) := by
  have hroom : j.state.ahead.length < bound := fits.ready.room
  exact Gives.turns step fits (Nat.lt_of_lt_of_le hroom enough) hroom x

end Audit

/-! ## Forms -/

/-- A reader of expressions under audit that gives what another one gives without. -/
structure Follows (bound nesting : Nat) (sub' : Nat → Audit Expr) (sub : ExprReader) : Prop where
  gives {precedence : Nat} {j : Journal} : Precedence.lowest ≤ precedence → Ready bound j.state →
    j.depth = nesting → (sub' precedence).Gives j (sub precedence j.state)
  along (precedence : Nat) (s : State) : Extends s (sub precedence s).2

/-- A break statement under audit. -/
theorem Audit.gives_breaking {j : Journal} {bound nesting : Nat} (fits : j.Fits bound nesting 1) :
    Audit.breaking.Gives j (.breakLoop j.state.cur, j.state.skipSemicolon) :=
  .within 0 fits (by decide) fun _ => .look (.skipSemicolon (.pure _ _))

/-- One comma and the name behind it. -/
theorem Audit.paramTurn_turn {bound nesting : Nat} (k : Nat) (found : List Ident) (j : Journal)
    (fits : j.Fits bound nesting 0) :
    Turn (paramTurn found) j (outcome (moreParams found (k + 1) j.state))
      fun found s => outcome (moreParams found k s) := by
  by_cases hcomma : j.state.peek.kind = .comma
  · cases hname : j.state.advance.expect .ident with
    | ok s =>
        have halong := extends_of_expect hname
        refine .goes (y := s.ident :: found) (s := s) ?_ ((extends_advance _).trans halong)
          (length_ahead_lt_of_peek fits.ready (by simp [hcomma]) halong) ?_
        · exact .look (.ite_pos hcomma (.advance (.expect_ok hname (.look (.pure _ _)))))
        · rw [moreParams, if_pos hcomma, hname]
          rfl
    | error s =>
        rw [moreParams, if_pos hcomma, hname]
        exact .ends (.look (.ite_pos hcomma (.advance (.expect_error hname (.pure _ _)))))
  · rw [moreParams, if_neg hcomma]
    exact .ends (.look (.ite_neg hcomma (.closing j _ found)))

/-- A parameter list under audit. -/
theorem Audit.gives_params {j : Journal} {bound nesting fuel : Nat} (fits : j.Fits bound nesting 1)
    (enough : bound ≤ fuel) : (Audit.params fuel).Gives j (outcome (Parse.params bound j.state)) := by
  refine .within 0 fits (by decide) fun fits₀ => .look ?_
  refine .ite outcome (fun _ => .advance (.pure _ _)) fun _ => ?_
  refine .expect outcome (fun s₁ h₁ => .look ?_) fun s => .pure none _
  exact .loop (fun k found s => outcome (moreParams found k s)) paramTurn_turn (fits₀.expect h₁)
    enough _

namespace Follows

open Audit

variable {bound nesting rank fuel : Nat} {sub' : Nat → Audit Expr} {sub : ExprReader} {j : Journal}
variable (inner : Follows bound nesting sub' sub)
include inner

/-- An expression inside a production, and what is read behind it. -/
theorem bind {β : Type} {next : Expr → Audit β} {r : β × State} {precedence : Nat}
    (fits : j.Fits bound nesting rank) (le : Precedence.lowest ≤ precedence)
    (h : (next (sub precedence j.state).1).Gives (j.on (sub precedence j.state).2) r) :
    (sub' precedence >>= next).Gives j r :=
  Gives.bind (inner.gives le fits.ready fits.depth) h

/-- Behind an expression there is room for what there was room for in front of it. -/
theorem fits (fits : j.Fits bound nesting rank) (precedence : Nat) :
    (j.on (sub precedence j.state).2).Fits bound nesting rank :=
  fits.on (inner.along precedence j.state)

/-- A definition under audit gives the definition, or stops short where reading does. -/
theorem define (fits : j.Fits bound nesting 1) :
    (Audit.define sub').Gives j (outcome (define sub j.state)) := by
  refine .within 0 fits (by decide) fun fits₀ => .look ?_
  refine .expect outcome (fun s₁ h₁ => .look ?_) fun s => .pure none _
  refine .expect outcome (fun s₂ h₂ => .advance ?_) fun s => .pure none _
  have fits₂ := ((fits₀.expect h₁).expect h₂).advance
  exact inner.bind fits₂ (Nat.le_refl _) (.skipSemicolon (.pure _ _))

/-- A return under audit. -/
theorem returning (fits : j.Fits bound nesting 1) :
    (Audit.returning sub').Gives j (returning sub j.state) := by
  refine .within 0 fits (by decide) fun fits₀ => .look ?_
  unfold Parse.returning
  simp only [Journal.state_enter]
  cases j.state.peek.kind with
  | semicolon | closeBrace | eof => exact .skipSemicolon (.pure _ _)
  | _ => exact .advance (inner.bind fits₀.advance (Nat.le_refl _) (.skipSemicolon (.pure _ _)))

theorem exprStmt (fits : j.Fits bound nesting 1) :
    (Audit.exprStmt sub').Gives j
      (.expr j.state.cur (sub Precedence.lowest j.state).1,
        (sub Precedence.lowest j.state).2.skipSemicolon) := by
  refine .within 0 fits (by decide) fun fits₀ => .look ?_
  exact inner.bind fits₀ (Nat.le_refl _) (.skipSemicolon (.pure _ _))

/-- Every kind of statement under audit. -/
theorem statement (fits : j.Fits bound nesting 2) :
    (Audit.statement sub').Gives j (statement sub j.state) := by
  refine .within 1 fits (by decide) fun fits₁ => .look ?_
  unfold Parse.statement
  simp only [Journal.state_enter]
  cases j.state.cur.kind with
  | letKw =>
      have hdefine := inner.define fits₁
      rw [Journal.state_enter] at hdefine
      cases hstmt : Parse.define sub j.state with
      | ok r =>
          rw [hstmt] at hdefine
          exact hdefine
      | error s =>
          rw [hstmt] at hdefine
          exact hdefine
  | returnKw => exact (inner.returning fits₁).map some
  | breakKw => exact (gives_breaking fits₁).map some
  | semicolon => exact .pure none _
  | _ => exact (inner.exprStmt fits₁).map some

/-- One statement and the step behind it. -/
theorem statementTurn {stop : Token.Kind → Bool} (atEnd : stop .eof = true) (k : Nat)
    (found : List Stmt) (j : Journal) (fits : j.Fits bound nesting 2) :
    Turn (Audit.statementTurn sub' stop found) j (statements sub stop found (k + 1) j.state)
      fun found => statements sub stop found k := by
  by_cases hstop : stop j.state.cur.kind = true
  · rw [statements_of_stop hstop]
    exact .ends (.look (.ite_pos hstop (.pure _ _)))
  -- A statement may fail without a step; the step behind it takes its token all the same.
  · have hinside := ne_eof_of_not_stop atEnd hstop
    have halong := stepwise_extends.statement inner.along j.state
    refine .goes ?_ (halong.trans (extends_advance _))
      (length_ahead_advance_lt fits.ready hinside halong) (statements_of_not_stop hstop found k)
    exact .look (.ite_neg hstop ((inner.statement fits).bind (.advance (.pure _ _))))

/-- A block under audit. The loop over its statements has turns enough. -/
theorem block (fits : j.Fits bound nesting 3) (enough : bound ≤ fuel) :
    (Audit.block fuel sub').Gives j (block bound sub j.state) := by
  refine .within 2 fits (by decide) fun fits₂ => .look (.advance ?_)
  have hstmts := Gives.loop (fun k found => statements sub endsBlock found k)
    (inner.statementTurn rfl) fits₂.advance enough []
  exact hstmts.bind (.pure _ _)

/-! ## Operands -/

/-- Parentheses under audit. -/
theorem grouped (fits : j.Fits bound nesting 4) :
    (Audit.grouped sub').Gives j (orBad (grouped sub j.state)) := by
  refine .within 0 fits (by decide) fun fits₀ => .advance ?_
  refine inner.bind fits₀.advance (Nat.le_refl _) ?_
  exact .expect orBad (fun s _ => .pure _ _) fun s => .act State.bad _

theorem unary (fits : j.Fits bound nesting 4) (op : UnaryOp) :
    (Audit.unary sub' op).Gives j (unary sub op j.state) := by
  refine .within 0 fits (by decide) fun fits₀ => .look (.advance ?_)
  exact inner.bind fits₀.advance lowest_le_unary (.pure _ _)

theorem condition (fits : j.Fits bound nesting 1) :
    (Audit.condition sub').Gives j (outcome (condition sub j.state)) := by
  refine .within 0 fits (by decide) fun fits₀ => ?_
  refine .expect outcome (fun s₁ h₁ => .advance ?_) fun s => .pure none _
  refine inner.bind (fits₀.expect h₁).advance (Nat.le_refl _) ?_
  exact .expect outcome (fun s _ => .pure _ _) fun s => .pure none _

/-- A conditional under audit, with its block and the one behind `else`. -/
theorem conditional (fits : j.Fits bound nesting 4) (enough : bound ≤ fuel) :
    (Audit.conditional fuel sub').Gives j (orBad (conditional bound sub j.state)) := by
  refine .within 3 fits (by decide) fun fits₃ => .look ?_
  refine .part orBad (inner.condition (fits₃.mono (by decide))) (fun test s₁ h₁ => ?_) fun s =>
    .act State.bad _
  have fits₁ := fits₃.on (extends_of_along (stepwise_extends.condition inner.along _) h₁)
  refine .expect orBad (fun s₂ h₂ => ?_) fun s => .act State.bad _
  have fits₂ := fits₁.expect h₂
  refine (inner.block fits₂ enough).bind (.look ?_)
  refine .ite orBad (fun _ => .advance ?_) fun _ => .pure _ _
  have fits₄ := (fits₂.on (stepwise_extends.block bound inner.along s₂)).advance
  refine .expect orBad (fun s₃ h₃ => ?_) fun s => .act State.bad _
  exact (inner.block (fits₄.expect h₃) enough).bind (.pure _ _)

/-- A loop under audit. -/
theorem whileLoop (fits : j.Fits bound nesting 4) (enough : bound ≤ fuel) :
    (Audit.whileLoop fuel sub').Gives j (orBad (whileLoop bound sub j.state)) := by
  refine .within 3 fits (by decide) fun fits₃ => .look ?_
  refine .part orBad (inner.condition (fits₃.mono (by decide))) (fun test s₁ h₁ => ?_) fun s =>
    .act State.bad _
  have fits₁ := fits₃.on (extends_of_along (stepwise_extends.condition inner.along _) h₁)
  refine .expect orBad (fun s₂ h₂ => ?_) fun s => .act State.bad _
  exact (inner.block (fits₁.expect h₂) enough).bind (.pure _ _)

/-- A function literal under audit. -/
theorem function (fits : j.Fits bound nesting 4) (enough : bound ≤ fuel) :
    (Audit.function fuel sub').Gives j (orBad (function bound sub j.state)) := by
  refine .within 3 fits (by decide) fun fits₃ => .look ?_
  refine .expect orBad (fun s₁ h₁ => ?_) fun s => .act State.bad _
  have fits₁ := fits₃.expect h₁
  refine .part orBad (gives_params (fits₁.mono (by decide)) enough) (fun names s₂ h₂ => ?_) fun s =>
    .act State.bad _
  have fits₂ := fits₁.on (extends_of_along (stepwise_extends.params bound s₁) h₂)
  refine .expect orBad (fun s₃ h₃ => ?_) fun s => .act State.bad _
  exact (inner.block (fits₂.expect h₃) enough).bind (.pure _ _)

/-- One comma and the expression behind it. -/
theorem itemTurn {close : Token.Kind} (k : Nat) (found : List Expr) (j : Journal)
    (fits : j.Fits bound nesting 0) :
    Turn (Audit.itemTurn sub' close found) j
      (outcome (moreExprs sub close found (k + 1) j.state))
      fun found s => outcome (moreExprs sub close found k s) := by
  by_cases hcomma : j.state.peek.kind = .comma
  · have halong := (extends_advance j.state.advance).trans
      (inner.along Precedence.lowest j.state.advance.advance)
    rw [moreExprs, if_pos hcomma]
    refine .goes ?_ ((extends_advance j.state).trans halong)
      (length_ahead_lt_of_peek fits.ready (by simp [hcomma]) halong) rfl
    refine .look (.ite_pos hcomma (.advance (.advance ?_)))
    exact inner.bind fits.advance.advance (Nat.le_refl _) (.pure _ _)
  · rw [moreExprs, if_neg hcomma]
    exact .ends (.look (.ite_neg hcomma (.closing j _ found)))

/-- A list in brackets under audit, from one bracket to the other. -/
theorem exprList (fits : j.Fits bound nesting 1) (enough : bound ≤ fuel) (close : Token.Kind) :
    (Audit.exprList fuel sub' close).Gives j (outcome (exprList bound sub close j.state)) := by
  refine .within 0 fits (by decide) fun fits₀ => .look ?_
  refine .ite outcome (fun _ => .advance (.pure _ _)) fun _ => .advance ?_
  refine inner.bind fits₀.advance (Nat.le_refl _) ?_
  exact .loop (fun k found s => outcome (moreExprs sub close found k s)) inner.itemTurn
    (inner.fits fits₀.advance _) enough _

theorem array (fits : j.Fits bound nesting 4) (enough : bound ≤ fuel) :
    (Audit.array fuel sub').Gives j (orBad (array bound sub j.state)) := by
  refine .within 1 fits (by decide) fun fits₁ => .look ?_
  exact .part orBad (inner.exprList fits₁ enough _) (fun items s _ => .pure _ _) fun s =>
    .act State.bad _

theorem pair (fits : j.Fits bound nesting 0) :
    (Audit.pair sub').Gives j (outcome (pair sub j.state)) := by
  refine .advance (inner.bind fits.advance (Nat.le_refl _) ?_)
  refine .expect outcome (fun s₁ h₁ => .advance ?_) fun s => .pure none _
  exact inner.bind ((inner.fits fits.advance _).expect h₁).advance (Nat.le_refl _) (.pure _ _)

/-- An entry takes its colon. -/
theorem length_ahead_lt_of_pair {s s' : State} {entry : Expr × Expr} (ready : Ready bound s)
    (eq : Parse.pair sub s = .ok (entry, s')) : s'.ahead.length < s.ahead.length := by
  have halong := (extends_advance s).trans (inner.along Precedence.lowest s.advance)
  rcases bind_eq_ok.1 eq with ⟨s₁, hcolon, hvalue⟩
  cases hvalue
  -- The colon is not the end of file, so the step onto it takes it from the stream.
  have hstep := stepped_expect (ready.of_extends halong) (by decide) hcolon
  have hlt : s₁.ahead.length < s.ahead.length := by
    have hlength := congrArg List.length hstep.ahead
    have hle := halong.length_ahead_le
    simp only [State.tokens, List.length_cons] at hlength
    omega
  have hrest := (extends_advance s₁).trans (inner.along Precedence.lowest s₁.advance)
  exact Nat.lt_of_le_of_lt hrest.length_ahead_le hlt

/-- One entry, and the comma behind it. -/
theorem pairTurn (k : Nat) (found : List (Expr × Expr)) (j : Journal)
    (fits : j.Fits bound nesting 0) :
    Turn (Audit.pairTurn sub' found) j (outcome (pairs sub found (k + 1) j.state))
      fun found s => outcome (pairs sub found k s) := by
  by_cases hclose : j.state.peek.kind = .closeBrace
  · rw [pairs_of_close hclose]
    exact .ends (.look (.ite_pos hclose (.advance (.pure _ _))))
  · have hpair := inner.pair fits
    cases hentry : Parse.pair sub j.state with
    | error s =>
        rw [hentry] at hpair
        rw [pairs, if_neg hclose, hentry]
        exact .ends (.look (.ite_neg hclose (hpair.bind (.pure _ _))))
    | ok r =>
        rw [hentry] at hpair
        have halong := extends_of_along (stepwise_extends.pair inner.along j.state) hentry
        have hfewer := inner.length_ahead_lt_of_pair fits.ready hentry
        rw [pairs_of_pair hclose hentry]
        -- Behind an entry stands the closing brace, which the next turn takes, or a comma.
        by_cases hlast : r.2.peek.kind = .closeBrace
        · rw [if_pos hlast]
          refine .goes (y := r.1 :: found) (s := r.2) ?_ halong hfewer rfl
          exact .look (.ite_neg hclose (hpair.bind (.look (.ite_pos hlast (.pure _ _)))))
        · rw [if_neg hlast]
          cases hcomma : r.2.expect .comma with
          | error s =>
              refine .ends (.look (.ite_neg hclose (hpair.bind (.look (.ite_neg hlast ?_)))))
              exact .expect_error hcomma (.pure _ _)
          | ok s =>
              have hnext := extends_of_expect hcomma
              refine .goes (y := r.1 :: found) (s := s) ?_ (halong.trans hnext)
                (Nat.lt_of_le_of_lt hnext.length_ahead_le hfewer) rfl
              refine .look (.ite_neg hclose (hpair.bind (.look (.ite_neg hlast ?_))))
              exact .expect_ok hcomma (.pure _ _)

/-- A hash literal under audit. -/
theorem hash (fits : j.Fits bound nesting 4) (enough : bound ≤ fuel) :
    (Audit.hash fuel sub').Gives j (orBad (hash bound sub j.state)) := by
  refine .within 0 fits (by decide) fun fits₀ => .look ?_
  have hentries := Gives.loop (fun k found s => outcome (pairs sub found k s)) inner.pairTurn fits₀
    enough []
  exact .part orBad hentries (fun entries s _ => .pure _ _) fun s => .act State.bad _

/-- Every kind of operand under audit. -/
theorem operand (fits : j.Fits bound nesting 4) (enough : bound ≤ fuel) :
    (Audit.operand fuel sub').Gives j (outcome (operand bound sub j.state)) := by
  refine .look ?_
  unfold Parse.operand
  dsimp only
  cases j.state.cur.kind with
  | ident | str | trueKw | falseKw => exact (Gives.within 0 fits (by decide) fun _ => .pure _ _).map some
  | int => exact (Gives.within 0 fits (by decide) fun _ => .act Parse.integer _).map some
  | openParen => exact (inner.grouped fits).map some
  | bang => exact (inner.unary fits .not).map some
  | minus => exact (inner.unary fits .neg).map some
  | plus => exact (inner.unary fits .pos).map some
  | ifKw => exact (inner.conditional fits enough).map some
  | whileKw => exact (inner.whileLoop fits enough).map some
  | fnKw => exact (inner.function fits enough).map some
  | openBracket => exact (inner.array fits enough).map some
  | openBrace => exact (inner.hash fits enough).map some
  | _ => exact .act _ _

/-! ## Operators -/

/-- A call under audit. -/
theorem call (fits : j.Fits bound nesting 4) (enough : bound ≤ fuel) (callee : Expr) :
    (Audit.call fuel sub' callee).Gives j (orBad (call bound sub callee j.state)) := by
  refine .within 1 fits (by decide) fun fits₁ => .look ?_
  exact .part orBad (inner.exprList fits₁ enough _) (fun args s _ => .pure _ _) fun s =>
    .act State.bad _

/-- An index under audit. -/
theorem index (fits : j.Fits bound nesting 4) (target : Expr) :
    (Audit.index sub' target).Gives j (orBad (index sub target j.state)) := by
  refine .within 0 fits (by decide) fun fits₀ => .look (.advance ?_)
  refine inner.bind fits₀.advance (Nat.le_refl _) ?_
  exact .expect orBad (fun s _ => .pure _ _) fun s => .act State.bad _

/-- An operator under audit, with its operand behind it. -/
theorem binary (fits : j.Fits bound nesting 4) (op : BinaryOp) (left : Expr) :
    (Audit.binary sub' op left).Gives j
      (.binary j.state.cur op left
          (sub (Precedence.ofKind j.state.cur.kind) j.state.advance).1,
        (sub (Precedence.ofKind j.state.cur.kind) j.state.advance).2) := by
  refine .within 0 fits (by decide) fun fits₀ => .look (.advance ?_)
  exact inner.bind fits₀.advance (lowest_le_ofKind _) (.pure _ _)

/-- Every kind of sequel under audit. -/
theorem operator (fits : j.Fits bound nesting 4) (enough : bound ≤ fuel) (sequel : Sequel)
    (left : Expr) :
    (Audit.operator fuel sub' sequel left).Gives j (operator bound sub sequel left j.state) := by
  cases sequel with
  | binary op => exact inner.binary fits op left
  | call => exact inner.call fits enough left
  | index => exact inner.index fits left

/-- One operator with what stands behind it. -/
theorem operatorTurn (enough : bound ≤ fuel) {precedence : Nat}
    (low : Precedence.lowest ≤ precedence) (k : Nat) (left : Expr) (j : Journal)
    (fits : j.Fits bound nesting 4) :
    Turn (Audit.operatorTurn fuel sub' precedence left) j
      (operators bound sub precedence (k + 1) left j.state)
      fun left => operators bound sub precedence k left := by
  by_cases hbinds : precedence < Precedence.ofKind j.state.peek.kind
  -- The end of file binds least of all, so there is an operator to step onto.
  · rcases Sequel.exists_of_binds low hbinds with ⟨sequel, hsequel⟩
    obtain ⟨hsemicolon, hinside, -⟩ := Sequel.ne_of_starts hsequel
    have halong := stepwise_extends.operator bound inner.along sequel left j.state.advance
    rw [operators_of_sequel hsequel hbinds]
    refine .goes ?_ ((extends_advance j.state).trans halong)
      (length_ahead_lt_of_peek fits.ready hinside halong) rfl
    refine .look (.ite_pos ⟨hsemicolon, hbinds⟩ ?_)
    rw [hsequel]
    exact .advance ((inner.operator fits.advance enough sequel left).bind (.pure _ _))
  · rw [operators_of_stop (Nat.not_lt.1 hbinds)]
    exact .ends (.look (.ite_neg (fun hgoes => hbinds hgoes.2) (.pure _ _)))

/-- An operand and all operators behind it. -/
theorem level (fits : j.Fits bound nesting 4) (enough : bound ≤ fuel) {precedence : Nat}
    (low : Precedence.lowest ≤ precedence) :
    (do match ← Audit.operand fuel sub' with
      | none => bad
      | some left => turns (Audit.operatorTurn fuel sub' precedence) fuel left).Gives j
      (exprLevel bound sub precedence j.state) := by
  have hoperand := inner.operand fits enough
  have halong := stepwise_extends.operand bound inner.along j.state
  refine hoperand.bind ?_
  unfold exprLevel
  cases hleft : Parse.operand bound sub j.state with
  | error s => exact .act State.bad _
  | ok r =>
      exact .loop (fun k left => operators bound sub precedence k left)
        (inner.operatorTurn enough low) (fits.on (extends_of_along halong hleft)) enough r.1

end Follows

end Parse
end Scriptlet
