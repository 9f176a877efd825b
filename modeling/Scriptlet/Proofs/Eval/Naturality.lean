import Scriptlet.Proofs.Eval.Congruence
import Scriptlet.Proofs.Eval.Simulation

/-!
# Evaluation and the tokens in trees

Nothing in evaluation depends on the tokens that the nodes of a tree keep. With other tokens in the
program and in the store a run ends in the same way, with these tokens in the value and in the store
that it leaves.

- `Natural` : runs that differ in the tokens alone
- `natural_evalProgram` : programs with the standard table
-/

namespace Scriptlet

variable (f : Token → Token)

def mapOutcome (outcome : Option (Value × Store)) : Option (Value × Store) :=
  outcome.map fun found => (found.1.mapTokens f, found.2.mapTokens f)

/-- A run, and one that does the same with other tokens. -/
def Natural (_scope : Nat) (run run' : Run Value) : Prop :=
  ∀ store, run' (store.mapTokens f) = mapOutcome f (run store)

namespace Natural

variable {f} {scope : Nat} {run run' : Run Value}

/-- A value with other tokens is given where the value itself is given. -/
theorem pure (scope : Nat) {v w : Value} (h : w = v.mapTokens f) :
    Natural f scope (Pure.pure v) (Pure.pure w) := by
  intro store
  rw [h]
  rfl

/-- One run after another, both with other tokens. -/
theorem bind {next next' : Value → Run Value} (first : Natural f scope run run')
    (second : ∀ v, Natural f scope (next v) (next' (v.mapTokens f))) :
    Natural f scope (run >>= next) (run' >>= next') := by
  intro store
  rw [Run.bind_apply, Run.bind_apply, first store]
  rcases run store with _ | ⟨v, store₁⟩
  · rfl
  · exact second v store₁

/-- The same if a signal of the first run is handed on. -/
theorem andThen {next next' : Value → Run Value} (first : Natural f scope run run')
    (second : ∀ v, Natural f scope (next v) (next' (v.mapTokens f))) :
    Natural f scope (run.andThen next) (run'.andThen next') := by
  refine first.bind fun v => ?_
  rw [Value.isSignal_mapTokens]
  split
  · exact .pure scope rfl
  · exact second v

/-- A loop takes as many turns with other tokens. -/
theorem loop {test test' body body' : Run Value} (htest : Natural f scope test test')
    (hbody : Natural f scope body body') (turns : Nat) :
    Natural f scope (Run.loop test body turns) (Run.loop test' body' turns) := by
  induction turns with
  | zero => exact fun _ => rfl
  | succ turns ih =>
      refine htest.bind fun t => ?_
      rw [Value.isSignal_mapTokens, Value.isTruthy_mapTokens]
      split
      · exact .pure scope (Value.loopExit_mapTokens f t)
      · split
        · refine hbody.bind fun v => ?_
          rw [Value.isSignal_mapTokens]
          split
          · exact .pure scope (Value.loopExit_mapTokens f v)
          · exact ih
        · exact .pure scope rfl

end Natural

/-- Every step of evaluation does the same with other tokens. -/
theorem congruence_natural (turns : Nat) :
    Congruence ⟨.standard, turns⟩ ⟨.standard, turns⟩ f (Natural f) where
  pure scope v := .pure scope rfl
  andThen first second := first.andThen second
  settle h := h.bind fun v => .pure _ (Value.settle_mapTokens f v)
  loop htest hbody := htest.loop hbody turns
  lookup scope name := by
    intro store
    dsimp only
    rw [Eval.lookup_mapTokens]
    rfl
  define scope name v := by
    intro store
    dsimp only
    rw [Store.bind_mapTokens]
    rfl
  makeClosure scope params body := fun _ => rfl
  callNative scope name args := by
    cases hfind : Builtins.standard.find? name with
    | none => exact .none
    | some native =>
        refine .some fun store => ?_
        have hreply := natural_standard f hfind args
        unfold Eval.callNative
        rw [hreply]
        dsimp only
        rw [Value.orNull_mapTokens]
        rfl
  enter scope closure args hbody := by
    intro store
    dsimp only
    rw [Eval.enter_mapTokens, Store.size_mapTokens]
    exact hbody store.scopes.size (Eval.enter closure args store)

/-- A program with other tokens does the same. -/
theorem natural_evalProgram (turns levels : Nat) (program : Program) (scope : Nat) :
    Natural f scope (evalProgram ⟨.standard, turns⟩ levels program scope)
      (evalProgram ⟨.standard, turns⟩ levels (program.mapTokens f) scope) :=
  (congruence_natural f turns).evalProgram levels program scope

end Scriptlet
