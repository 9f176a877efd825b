import Scriptlet.Parse.Precedence
import Scriptlet.Proofs.Grammar
import Scriptlet.Proofs.Parse.Progress

/-!
# Tokens between states

What reading does to the state of a parser, and which tokens lie between two states.

- `State.Clean` : nothing was reported so far
- `Extends` : what every step of reading does to the state
- `Ready` : states that stand in a stream of tokens, with room for all of them
- `Took` : the tokens from one state up to another
- `Stepped` : a step onto an expected token
-/

namespace Scriptlet
namespace Parse

/-! ## States along the way -/

namespace State

def tokens (s : State) : List Token :=
  s.cur :: s.ahead

/-- Nothing was reported so far. -/
def Clean (s : State) : Prop :=
  s.report = .empty

/-- A state with a fault is not clean. -/
theorem not_clean_fault (s : State) (token : Token) (cause : Diagnostic.Cause) :
    ¬ (s.fault token cause).Clean := by
  intro h
  have hreport : s.report.add (some ⟨token.pos, cause⟩) = .empty := h
  unfold Report.add at hreport
  simp only at hreport
  split at hreport
  -- A sealed report takes nothing more, but it is not the empty one.
  · next hsealed => simp [hreport, Report.empty] at hsealed
  · simp [Report.empty] at hreport

/-- Nor is one in which the reader has given up. -/
theorem not_clean_tooDeep (s : State) : ¬ (tooDeep s).2.Clean := by
  intro h
  have hsealed : (tooDeep s).2.report.sealed = false := by rw [h]; rfl
  simp [tooDeep, bad, drain, Report.close] at hsealed

theorem advance_of_ahead {s : State} {token : Token} {rest : List Token}
    (h : s.ahead = token :: rest) : s.advance = ⟨token, rest, s.report⟩ := by
  simp [advance, h]

theorem advance_of_nil {s : State} (h : s.ahead = []) : s.advance = s := by
  simp [advance, h]

theorem peek_of_ahead {s : State} {token : Token} {rest : List Token}
    (h : s.ahead = token :: rest) : s.peek = token := by
  simp [peek, h]

theorem peek_of_nil {s : State} (h : s.ahead = []) : s.peek = s.cur := by
  simp [peek, h]

/-- The token that is looked at ahead is the next one. -/
theorem cur_advance (s : State) : s.advance.cur = s.peek := by
  rcases s with ⟨cur, _ | ⟨next, rest⟩, report⟩
  · rfl
  · rfl

theorem length_ahead_advance (s : State) : s.advance.ahead.length = s.ahead.length - 1 := by
  rcases s with ⟨cur, _ | ⟨next, rest⟩, report⟩ <;> simp [advance]

/-- Advancing takes one token, as long as there is one. -/
theorem tokens_advance {s : State} (h : s.ahead ≠ []) : s.advance.tokens = s.ahead := by
  rcases s with ⟨cur, _ | ⟨next, rest⟩, report⟩
  · exact absurd rfl h
  · rfl

theorem drain_of_nil {s : State} (h : s.ahead = []) : s.drain = s := by
  rcases s with ⟨cur, ahead, report⟩
  cases h
  rfl

/-- Draining passes over the next token as well. -/
theorem drain_advance (s : State) : s.advance.drain = s.drain := by
  rcases s with ⟨cur, _ | ⟨next, rest⟩, report⟩
  · rfl
  · simp only [advance, drain, List.getLastD_cons]

end State

/-- Later states have fewer tokens ahead, and a report only grows. -/
def Extends (s s' : State) : Prop :=
  s'.tokens <:+ s.tokens ∧ (s'.report = s.report ∨ s'.report.entries ≠ #[])

namespace Extends

theorem trans {s s₁ s₂ : State} (h₁ : Extends s s₁) (h₂ : Extends s₁ s₂) : Extends s s₂ := by
  refine ⟨h₂.1.trans h₁.1, ?_⟩
  rcases h₂.2 with heq | hne
  · simpa [heq] using h₁.2
  · exact .inr hne

/-- What is clean in the end was clean before. -/
theorem clean {s s' : State} (h : Extends s s') (clean : s'.Clean) : s.Clean := by
  rcases h.2 with heq | hne
  · exact heq.symm.trans clean
  · rw [clean] at hne
    exact absurd rfl hne

end Extends

/-- Advancing goes on. -/
theorem extends_advance (s : State) : Extends s s.advance := by
  refine ⟨?_, .inl ?_⟩
  · rcases s with ⟨cur, _ | ⟨next, rest⟩, report⟩
    · exact List.suffix_refl _
    · exact List.suffix_cons _ _
  · rcases s with ⟨cur, _ | ⟨next, rest⟩, report⟩ <;> rfl

/-- So does a fault, which takes no token. -/
theorem extends_fault (s : State) (token : Token) (cause : Diagnostic.Cause) :
    Extends s (s.fault token cause) := by
  refine ⟨List.suffix_refl _, ?_⟩
  unfold State.fault Report.add
  simp only
  split
  · exact .inl rfl
  · exact .inr (by simp)

/-- So does giving up. -/
theorem extends_tooDeep (s : State) : Extends s (tooDeep s).2 := by
  refine ⟨?_, ?_⟩
  -- Giving up drops all tokens but the last one.
  · have hlast : [s.ahead.getLastD s.cur] <:+ s.cur :: s.ahead := by
      refine ⟨(s.cur :: s.ahead).dropLast, ?_⟩
      rw [← List.getLast_eq_getLastD (a := s.cur) (l := s.ahead) (by simp)]
      exact List.dropLast_concat_getLast (by simp)
    exact hlast
  · unfold tooDeep State.bad State.drain Report.close Report.add
    simp only
    split
    · next hsealed =>
        -- A sealed report takes no more entries and is sealed once more.
        refine .inl ?_
        rcases s with ⟨cur, ahead, ⟨entries, sealed⟩⟩
        simp_all
    · exact .inr (by simp)

/-- Every step of reading extends the state, and a fault is never clean. -/
theorem stepwise_extends : Stepwise Extends fun s => ¬ s.Clean where
  refl _ := ⟨List.suffix_refl _, .inl rfl⟩
  trans := Extends.trans
  advance := extends_advance
  fault s token cause _ := extends_fault s token cause
  faulted := State.not_clean_fault
  tooDeep := extends_tooDeep

/-! ## Tokens between states -/

/-- A state whose tokens are a stream, with room for all of them in every loop. -/
structure Ready (bound : Nat) (s : State) : Prop where
  stream : TokenStream s.tokens
  room : s.tokens.length ≤ bound

namespace Ready

variable {bound : Nat} {s s' : State}

/-- A state stays ready as reading goes on. -/
theorem of_extends (ready : Ready bound s) (h : Extends s s') : Ready bound s' :=
  ⟨ready.stream.of_suffix h.1 (by simp [State.tokens]), Nat.le_trans h.1.length_le ready.room⟩

/-- Before the end of the input there is more to read. -/
theorem ahead_ne_nil (ready : Ready bound s) (h : s.cur.kind ≠ .eof) : s.ahead ≠ [] :=
  fun hnil => h (ready.stream.eof_iff.2 hnil)

/-- Where nothing more is to read, the input is at its end. -/
theorem eof_of_nil (ready : Ready bound s) (h : s.ahead = []) : s.cur.kind = .eof :=
  ready.stream.eof_iff.2 h

end Ready

theorem tokens_ofTokens {tokens : List Token} (stream : TokenStream tokens) :
    (State.ofTokens tokens).tokens = tokens := by
  cases stream <;> rfl

/-- Reading starts ready. -/
theorem ready_ofTokens {tokens : List Token} (stream : TokenStream tokens) :
    Ready tokens.length (.ofTokens tokens) := by
  have htokens := tokens_ofTokens stream
  exact ⟨htokens.symm ▸ stream, Nat.le_of_eq (by rw [htokens])⟩

/-- The tokens from one state up to another: the second one stands on the last of them, or on the
end of file behind them if braces are missing there. -/
def Took (s : State) (ts : List Token) : Bool → State → Prop
  | false, s' => s.tokens = ts ++ s'.ahead ∧ s'.ahead ≠ []
  | true, s' => s.tokens = ts ++ s'.tokens ∧ s'.ahead = []

/-- There is a rendering with at most `n` expressions inside each other. -/
def Renders (n : Nat) (part : Part) (cut : Bool) (ts : List Token) : Prop :=
  ∃ r : Rendering part cut ts, r.nesting ≤ n

/-- What was taken with more behind it is not cut. -/
theorem Took.closed {s s' : State} {ts : List Token} {cut : Bool} (h : Took s ts cut s')
    (more : s'.ahead ≠ []) : cut = false ∧ s.tokens = ts ++ s'.ahead := by
  cases cut with
  | false => exact ⟨rfl, h.1⟩
  | true => exact absurd h.2 more

/-- The tokens of an expression start with the current one. -/
theorem Took.exists_tail {s s' : State} {ts : List Token} {cut : Bool} {part : Part}
    (h : Took s ts cut s') (r : Rendering part cut ts) (whole : part.isExpr = true) :
    ∃ us, ts = s.cur :: us := by
  rcases r.head_expr whole with ⟨first, us, rfl, -⟩
  cases cut with
  | false => exact ⟨us, by rw [(List.cons.inj h.1).1]⟩
  | true => exact ⟨us, by rw [(List.cons.inj h.1).1]⟩

/-- Tokens that were taken before are taken together with what follows. -/
theorem Took.prepend {s s₁ s' : State} {ts us : List Token} {cut : Bool}
    (h : Took s₁ us cut s') (eq : s.tokens = ts ++ s₁.tokens) : Took s (ts ++ us) cut s' := by
  cases cut with
  | false => exact ⟨by rw [eq, h.1, List.append_assoc], h.2⟩
  | true => exact ⟨by rw [eq, h.1, List.append_assoc], h.2⟩

/-- Two steps succeed just if both do. -/
theorem bind_eq_ok {ε α β : Type} {x : Except ε α} {f : α → Except ε β} {b : β} :
    x >>= f = .ok b ↔ ∃ a, x = .ok a ∧ f a = .ok b := by
  cases x with
  | error e => simp [bind, Except.bind]
  | ok a => simp [bind, Except.bind]

/-- A step onto the next token, which has the given kind and is not the last one. -/
structure Stepped (bound : Nat) (kind : Token.Kind) (s s' : State) : Prop where
  ahead : s.ahead = s'.tokens
  cur : s'.cur.kind = kind
  more : s'.ahead ≠ []
  report : s'.report = s.report
  ready : Ready bound s'

/-- If a step leaves no fault, there was none before it. -/
theorem Stepped.clean {bound : Nat} {kind : Token.Kind} {s s' : State}
    (step : Stepped bound kind s s') (clean : s'.Clean) : s.Clean :=
  step.report.symm.trans clean

/-- Stepping onto a token that is not the end of file. -/
theorem stepped_advance {bound : Nat} {s : State} {kind : Token.Kind} (ready : Ready bound s)
    (inside : kind ≠ .eof) (peek : s.peek.kind = kind) : Stepped bound kind s s.advance := by
  -- At the end of the stream the token ahead is the end of file itself, and not of this kind.
  have hmore : s.ahead ≠ [] := by
    intro hnil
    rw [State.peek_of_nil hnil, ready.eof_of_nil hnil] at peek
    exact inside peek.symm
  have hready := ready.of_extends (extends_advance s)
  have hkind : s.advance.cur.kind = kind := by rw [s.cur_advance, peek]
  refine ⟨(State.tokens_advance hmore).symm, hkind, ?_, ?_, hready⟩
  · exact hready.ahead_ne_nil (by rw [hkind]; exact inside)
  · rcases s with ⟨cur, _ | ⟨next, rest⟩, report⟩ <;> rfl

/-- An expected token that was there is the next one. -/
theorem stepped_expect {bound : Nat} {s s' : State} {kind : Token.Kind} (ready : Ready bound s)
    (inside : kind ≠ .eof) (eq : s.expect kind = .ok s') : Stepped bound kind s s' := by
  unfold State.expect at eq
  simp only at eq
  split at eq
  · next hkind =>
      cases eq
      exact stepped_advance ready inside hkind
  · split at eq <;> cases eq

/-! ## Where loops end -/

theorem ne_eof_of_not_stop {stop : Token.Kind → Bool} (atEnd : stop .eof = true) {kind : Token.Kind}
    (h : ¬ stop kind = true) : kind ≠ .eof := by
  rintro rfl
  exact h atEnd

/-- As reading goes on, no more is left to read. -/
theorem Extends.length_ahead_le {s s₁ : State} (h : Extends s s₁) :
    s₁.ahead.length ≤ s.ahead.length := by
  have hle := h.1.length_le
  simp only [State.tokens, List.length_cons] at hle
  omega

/-- What is read from a token that is not the last one, and a step behind it, take a token. -/
theorem length_ahead_advance_lt {bound : Nat} {s s₁ : State} (ready : Ready bound s)
    (inside : s.cur.kind ≠ .eof) (along : Extends s s₁) : s₁.advance.ahead.length < s.ahead.length := by
  have hpos : 0 < s.ahead.length := List.length_pos_iff.2 (ready.ahead_ne_nil inside)
  have hle := along.length_ahead_le
  rw [s₁.length_ahead_advance]
  omega

/-- A row of statements ends at the first token that stops it. -/
theorem statements_of_stop {sub : ExprReader} {stop : Token.Kind → Bool} {s : State}
    (h : stop s.cur.kind = true) (found : List Stmt) (fuel : Nat) :
    statements sub stop found fuel s = (found.reverse, s) := by
  cases fuel <;> simp [statements, h]

/-- Otherwise there is a statement, or none, and the row goes on behind it. -/
theorem statements_of_not_stop {sub : ExprReader} {stop : Token.Kind → Bool} {s : State}
    (h : ¬ stop s.cur.kind = true) (found : List Stmt) (fuel : Nat) :
    statements sub stop found (fuel + 1) s =
      statements sub stop ((statement sub s).1.toList ++ found) fuel (statement sub s).2.advance := by
  rw [statements, if_neg h]
  rcases statement sub s with ⟨_ | stmt, s'⟩
  · rfl
  · rfl

/-- A hash ends at the first closing brace. -/
theorem pairs_of_close {sub : ExprReader} {s : State} (h : s.peek.kind = .closeBrace)
    (found : List (Expr × Expr)) (fuel : Nat) :
    pairs sub found fuel s = .ok (found.reverse, s.advance) := by
  cases fuel with
  | zero => simp [pairs, State.expect, h, bind, Except.bind, pure, Except.pure]
  | succ fuel => simp [pairs, h]

/-- Otherwise there is an entry, and the hash goes on behind it. -/
theorem pairs_of_pair {sub : ExprReader} {s : State} {r : (Expr × Expr) × State}
    (h : ¬ s.peek.kind = .closeBrace) (eq : pair sub s = .ok r) (found : List (Expr × Expr))
    (fuel : Nat) :
    pairs sub found (fuel + 1) s =
      if r.2.peek.kind = .closeBrace then pairs sub (r.1 :: found) fuel r.2
      else r.2.expect .comma >>= fun s => pairs sub (r.1 :: found) fuel s := by
  rw [pairs, if_neg h, eq]
  rfl

/-! ## Sequels -/

namespace Sequel

variable {kind : Token.Kind}

/-- A call follows only at an opening parenthesis. -/
theorem kind_of_call (h : ofKind? kind = some .call) : kind = .openParen := by
  cases kind <;> first | rfl | cases h

/-- An index follows only at an opening bracket. -/
theorem kind_of_index (h : ofKind? kind = some .index) : kind = .openBracket := by
  cases kind <;> first | rfl | cases h

/-- A binary expression follows just at a binary operator. -/
theorem ofKind?_eq_binary_iff {op : BinaryOp} :
    ofKind? kind = some (.binary op) ↔ BinaryOp.ofKind? kind = some op := by
  constructor <;>
    · intro h
      cases kind <;> cases h <;> rfl

theorem ofKind?_openParen (opening : Token.Of .openParen) :
    ofKind? opening.val.kind = some .call := by
  rw [opening.property]
  rfl

theorem ofKind?_openBracket (opening : Token.Of .openBracket) :
    ofKind? opening.val.kind = some .index := by
  rw [opening.property]
  rfl

/-- Nothing of the kind ends a statement, a file or a branch. -/
theorem ne_of_starts {sequel : Sequel} (starts : ofKind? kind = some sequel) :
    kind ≠ .semicolon ∧ kind ≠ .eof ∧ kind ≠ .elseKw := by
  refine ⟨?_, ?_, ?_⟩ <;>
    · rintro rfl
      cases starts

/-- Whatever binds at all starts a sequel. -/
theorem exists_of_binds {precedence : Nat} (low : Precedence.lowest ≤ precedence)
    (binds : precedence < Precedence.ofKind kind) : ∃ sequel, ofKind? kind = some sequel := by
  have hbinds := Nat.lt_of_le_of_lt low binds
  cases kind <;> first | exact ⟨_, rfl⟩ | exact absurd hbinds (Nat.lt_irrefl _)

end Sequel

/-- An expression ends at the first token that does not bind tightly enough. -/
theorem operators_of_stop {bound precedence : Nat} {sub : ExprReader} {s : State}
    (h : Precedence.ofKind s.peek.kind ≤ precedence) (fuel : Nat) (left : Expr) :
    operators bound sub precedence fuel left s = (left, s) := by
  cases fuel with
  | zero => rfl
  | succ fuel => simp [operators, Nat.not_lt.2 h]

/-- A sequel that binds tightly enough is read, and then those behind it. -/
theorem operators_of_sequel {bound precedence : Nat} {sub : ExprReader} {s : State}
    {sequel : Sequel} (starts : Sequel.ofKind? s.peek.kind = some sequel)
    (binds : precedence < Precedence.ofKind s.peek.kind) (fuel : Nat) (left : Expr) :
    operators bound sub precedence (fuel + 1) left s =
      operators bound sub precedence fuel (operator bound sub sequel left s.advance).1
        (operator bound sub sequel left s.advance).2 := by
  rw [operators, if_pos ⟨(Sequel.ne_of_starts starts).1, binds⟩, starts]

theorem lowest_le_unary : Precedence.lowest ≤ Precedence.unary := by
  decide

theorem lowest_le_ofKind (kind : Token.Kind) : Precedence.lowest ≤ Precedence.ofKind kind := by
  cases kind <;> decide

end Parse
end Scriptlet
