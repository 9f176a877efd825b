import Scriptlet.Parse.Program

/-!
# What reading does to its state

Reading only ever steps onto the next token, reports a cause at the current token or the one behind
it, and gives up when expressions nest too deeply. So a relation between states that covers these
three covers every reading function.

- `Stepwise` : relations that cover the single steps
- `Along` : the outcome of a form that may stop short is reached along such a relation
- `Stepwise.expr`, `Stepwise.statements` : the relation covers whole expressions and statements
-/

namespace Scriptlet
namespace Parse

/-- A reflexive and transitive relation between states that covers every step of reading. A state
right behind a report is `Faulted`. -/
structure Stepwise (R : State → State → Prop) (Faulted : State → Prop) : Prop where
  refl (s : State) : R s s
  trans {s s₁ s₂ : State} : R s s₁ → R s₁ s₂ → R s s₂
  advance (s : State) : R s s.advance
  fault (s : State) (token : Token) (cause : Diagnostic.Cause) :
    token = s.cur ∨ token = s.peek → R s (s.fault token cause)
  faulted (s : State) (token : Token) (cause : Diagnostic.Cause) : Faulted (s.fault token cause)
  tooDeep (s : State) : R s (tooDeep s).2

/-- The outcome of a form that may stop short is reached along a relation; stopping short leaves a
faulted state. -/
def Along {α : Type} (R : State → State → Prop) (Faulted : State → Prop) (s : State) :
    Except State (α × State) → Prop
  | .ok (_, s') => R s s'
  | .error s' => R s s' ∧ Faulted s'

variable {R : State → State → Prop} {Faulted : State → Prop} {α β : Type}

namespace Along

/-- One step after another leads along the relation. -/
theorem bind {s : State} {x : Except State (α × State)}
    {f : α × State → Except State (β × State)} (first : Along R Faulted s x)
    (next : ∀ a s₁, R s s₁ → Along R Faulted s (f (a, s₁))) :
    Along R Faulted s (x >>= f) := by
  cases x with
  | error s₁ => exact first
  | ok result => exact next result.1 result.2 first

/-- Giving up leads along the relation, since faults do. -/
theorem orBad {s : State} {x : Except State (Expr × State)} (h : Along R Faulted s x) :
    R s (orBad x).2 := by
  cases x with
  | error s₁ => exact h.1
  | ok result => exact h

end Along

namespace Stepwise

variable (step : Stepwise R Faulted)
include step

/-! ## Sequences of steps -/

theorem along_of {s s₁ : State} {x : Except State (α × State)} (first : R s s₁)
    (rest : Along R Faulted s₁ x) : Along R Faulted s x := by
  cases x with
  | error s₂ => exact ⟨step.trans first rest.1, rest.2⟩
  | ok result => exact step.trans first rest

/-- A token that is expected is passed, or its lack is a fault. -/
theorem along_expect {s s₁ : State} {kind : Token.Kind} {f : State → Except State (α × State)}
    (first : R s s₁) (next : ∀ s₂, R s s₂ → Along R Faulted s (f s₂)) :
    Along R Faulted s (s₁.expect kind >>= f) := by
  unfold State.expect
  simp only
  split
  · exact next _ (step.trans first (step.advance s₁))
  · split
    · exact ⟨step.trans first (step.fault s₁ _ _ (.inr rfl)), step.faulted s₁ _ _⟩
    · exact ⟨step.trans first (step.fault s₁ _ _ (.inr rfl)), step.faulted s₁ _ _⟩

theorem skipSemicolon (s : State) : R s s.skipSemicolon := by
  unfold State.skipSemicolon
  split
  · exact step.advance s
  · exact step.refl s

/-! ## One level -/

section Level

variable (bound : Nat) {sub : ExprReader} (inner : ∀ precedence s, R s (sub precedence s).2)
include inner

/-- An expression behind the next token leads along the relation. -/
theorem read {s s₁ : State} (first : R s s₁) (precedence : Nat) :
    R s (sub precedence s₁.advance).2 :=
  step.trans first (step.trans (step.advance s₁) (inner precedence _))

theorem define (s : State) : Along R Faulted s (define sub s) := by
  unfold Parse.define
  refine step.along_expect (step.refl s) fun s₁ h₁ => ?_
  refine step.along_expect h₁ fun s₂ h₂ => ?_
  exact step.trans (step.read inner h₂ _) (step.skipSemicolon _)

theorem returning (s : State) : R s (returning sub s).2 := by
  unfold Parse.returning
  simp only
  split
  · exact step.skipSemicolon s
  · exact step.skipSemicolon s
  · exact step.skipSemicolon s
  · exact step.trans (step.read inner (step.refl s) _) (step.skipSemicolon _)

/-- Reading a statement leads along the relation, whatever the statement. -/
theorem statement (s : State) : R s (statement sub s).2 := by
  unfold Parse.statement
  split
  · have h := step.define inner s
    split
    · next heq => simpa [heq, Along] using h
    · next heq => exact (by simpa [heq, Along] using h : R s _ ∧ _).1
  · exact step.returning inner s
  · exact step.skipSemicolon s
  · exact step.refl s
  · exact step.trans (inner _ s) (step.skipSemicolon _)

/-- So do all turns of the loop over statements. -/
theorem statements (stop : Token.Kind → Bool) (found : List Stmt) (fuel : Nat) (s : State) :
    R s (statements sub stop found fuel s).2 := by
  induction fuel generalizing found s with
  -- Without fuel the loop stops where it is; with fuel it reads one statement and goes on behind
  -- it.
  | zero => exact step.refl s
  | succ fuel ih =>
      unfold Parse.statements
      split
      · exact step.refl s
      · have h := step.statement inner s
        split
        · next stmt s₁ heq =>
            rw [heq] at h
            exact step.trans h (step.trans (step.advance s₁) (ih _ _))
        · next s₁ heq =>
            rw [heq] at h
            exact step.trans h (step.trans (step.advance s₁) (ih _ _))

/-- So does a block. -/
theorem block (s : State) : R s (block bound sub s).2 :=
  step.trans (step.advance s) (step.statements inner _ _ _ _)

/-! ## Operands -/

theorem grouped (s : State) : Along R Faulted s (grouped sub s) := by
  unfold Parse.grouped
  exact step.along_expect (step.read inner (step.refl s) _) fun s₁ h₁ => h₁

theorem condition (s : State) : Along R Faulted s (condition sub s) := by
  unfold Parse.condition
  refine step.along_expect (step.refl s) fun s₁ h₁ => ?_
  exact step.along_expect (step.read inner h₁ _) fun s₂ h₂ => h₂

theorem conditional (s : State) : Along R Faulted s (conditional bound sub s) := by
  unfold Parse.conditional
  refine (step.condition inner s).bind fun test s₁ h₁ => ?_
  refine step.along_expect h₁ fun s₂ h₂ => ?_
  -- The first block is read either way; only the token behind it says whether there is another one.
  have h₃ := step.trans h₂ (step.block bound inner s₂)
  simp only
  split
  · refine step.along_expect (step.trans h₃ (step.advance _)) fun s₄ h₄ => ?_
    exact step.trans h₄ (step.block bound inner s₄)
  · exact h₃

theorem whileLoop (s : State) : Along R Faulted s (whileLoop bound sub s) := by
  unfold Parse.whileLoop
  refine (step.condition inner s).bind fun test s₁ h₁ => ?_
  refine step.along_expect h₁ fun s₂ h₂ => ?_
  exact step.trans h₂ (step.block bound inner s₂)

omit inner in
theorem moreParams (found : List Ident) (fuel : Nat) (s : State) :
    Along R Faulted s (moreParams found fuel s) := by
  induction fuel generalizing found s with
  | zero => exact step.along_expect (step.refl s) fun s₁ h₁ => h₁
  | succ fuel ih =>
      unfold Parse.moreParams
      split
      · exact step.along_expect (step.advance s) fun s₁ h₁ => step.along_of h₁ (ih _ s₁)
      · exact step.along_expect (step.refl s) fun s₁ h₁ => h₁

omit inner in
theorem params (s : State) : Along R Faulted s (params bound s) := by
  unfold Parse.params
  split
  · exact step.advance s
  · exact step.along_expect (step.refl s) fun s₁ h₁ => step.along_of h₁ (step.moreParams _ _ s₁)

theorem function (s : State) : Along R Faulted s (function bound sub s) := by
  unfold Parse.function
  refine step.along_expect (step.refl s) fun s₁ h₁ => ?_
  refine (step.along_of h₁ (step.params bound s₁)).bind fun names s₂ h₂ => ?_
  refine step.along_expect h₂ fun s₃ h₃ => ?_
  exact step.trans h₃ (step.block bound inner s₃)

theorem moreExprs (close : Token.Kind) (found : List Expr) (fuel : Nat) (s : State) :
    Along R Faulted s (moreExprs sub close found fuel s) := by
  induction fuel generalizing found s with
  | zero => exact step.along_expect (step.refl s) fun s₁ h₁ => h₁
  | succ fuel ih =>
      unfold Parse.moreExprs
      split
      -- A comma takes two steps before the item: onto the comma, and onto what follows it.
      · exact step.along_of (step.read inner (step.advance s) _) (ih _ _)
      · exact step.along_expect (step.refl s) fun s₁ h₁ => h₁

theorem exprList (close : Token.Kind) (s : State) :
    Along R Faulted s (exprList bound sub close s) := by
  unfold Parse.exprList
  split
  · exact step.advance s
  · exact step.along_of (step.read inner (step.refl s) _) (step.moreExprs inner _ _ _ _)

theorem array (s : State) : Along R Faulted s (array bound sub s) := by
  unfold Parse.array
  exact (step.exprList bound inner _ s).bind fun items s₁ h₁ => h₁

theorem pair (s : State) : Along R Faulted s (pair sub s) := by
  unfold Parse.pair
  refine step.along_expect (step.read inner (step.refl s) _) fun s₁ h₁ => ?_
  exact step.read inner h₁ _

theorem pairs (found : List (Expr × Expr)) (fuel : Nat) (s : State) :
    Along R Faulted s (pairs sub found fuel s) := by
  induction fuel generalizing found s with
  | zero => exact step.along_expect (step.refl s) fun s₁ h₁ => h₁
  | succ fuel ih =>
      unfold Parse.pairs
      split
      · exact step.advance s
      · refine (step.pair inner s).bind fun entry s₁ h₁ => ?_
        simp only
        split
        · exact step.along_of h₁ (ih _ s₁)
        · exact step.along_expect h₁ fun s₂ h₂ => step.along_of h₂ (ih _ s₂)

theorem hash (s : State) : Along R Faulted s (hash bound sub s) := by
  unfold Parse.hash
  exact (step.pairs inner _ _ s).bind fun entries s₁ h₁ => h₁

omit inner in
theorem integer (s : State) : R s (integer s).2 := by
  unfold Parse.integer
  split
  · exact step.refl s
  · exact step.fault s _ _ (.inl rfl)

/-- So does every kind of operand. -/
theorem operand (s : State) : Along R Faulted s (operand bound sub s) := by
  unfold Parse.operand
  simp only
  -- The cases come in the order of the kinds of tokens: operands of one token, then the forms that
  -- may stop short and turn into a bad expression, and last what no expression starts with.
  split
  · exact step.refl s
  · exact step.integer s
  · exact step.refl s
  · exact step.refl s
  · exact step.refl s
  · exact (step.grouped inner s).orBad
  · exact step.read inner (step.refl s) _
  · exact step.read inner (step.refl s) _
  · exact step.read inner (step.refl s) _
  · exact (step.conditional bound inner s).orBad
  · exact (step.whileLoop bound inner s).orBad
  · exact (step.function bound inner s).orBad
  · exact (step.array bound inner s).orBad
  · exact (step.hash bound inner s).orBad
  · exact ⟨step.fault s _ _ (.inl rfl), step.faulted s _ _⟩
  · exact ⟨step.fault s _ _ (.inl rfl), step.faulted s _ _⟩
  · exact ⟨step.fault s _ _ (.inl rfl), step.faulted s _ _⟩

/-! ## Operators -/

theorem call (callee : Expr) (s : State) : Along R Faulted s (call bound sub callee s) := by
  unfold Parse.call
  exact (step.exprList bound inner _ s).bind fun args s₁ h₁ => h₁

theorem index (target : Expr) (s : State) : Along R Faulted s (index sub target s) := by
  unfold Parse.index
  exact step.along_expect (step.read inner (step.refl s) _) fun s₁ h₁ => h₁

/-- So does every kind of sequel. -/
theorem operator (sequel : Sequel) (left : Expr) (s : State) :
    R s (operator bound sub sequel left s).2 := by
  cases sequel with
  | binary op => exact step.read inner (step.refl s) _
  | call => exact (step.call bound inner left s).orBad
  | index => exact (step.index inner left s).orBad

/-- So do all turns of the loop over operators. -/
theorem operators (precedence fuel : Nat) (left : Expr) (s : State) :
    R s (operators bound sub precedence fuel left s).2 := by
  induction fuel generalizing left s with
  | zero => exact step.refl s
  | succ fuel ih =>
      unfold Parse.operators
      split
      · split
        · next sequel _ =>
            exact step.trans (step.advance s)
              (step.trans (step.operator bound inner sequel left _) (ih _ _))
        · exact step.refl s
      · exact step.refl s

/-- So does an expression, if the expressions inside it do. -/
theorem exprLevel (precedence : Nat) (s : State) : R s (exprLevel bound sub precedence s).2 := by
  have h := step.operand bound inner s
  unfold Parse.exprLevel
  split
  · next left s₁ heq =>
      rw [heq] at h
      exact step.trans h (step.operators bound inner _ _ _ _)
  · next s₁ heq =>
      rw [heq] at h
      exact h.1

end Level

/-! ## All levels -/

/-- So do expressions of any depth, by induction on the levels that are left. -/
theorem expr (bound levels precedence : Nat) (s : State) :
    R s (expr bound levels precedence s).2 := by
  induction levels generalizing precedence s with
  | zero => exact step.tooDeep s
  | succ levels ih => exact step.exprLevel bound ih precedence s

end Stepwise

end Parse
end Scriptlet
