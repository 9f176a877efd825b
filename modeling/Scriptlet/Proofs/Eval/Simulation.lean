import Scriptlet.Proofs.Eval.Raising
import Scriptlet.Proofs.Value.SignalFree

/-!
# Signals as values and as exceptions

Evaluation hands signals on as values and looks for them after every step; with exceptions there is
nothing to look for. From a store without signals the two do the same, and no signal ever gets into
the store or into another value.

- `Agrees` : outcomes that stand for each other
- `Follows`, `FollowsAll` : runs and attempts whose outcomes agree
- `Machine.Serves` : machines whose host functions answer alike
- `follows_evalLevel`, `follows_eval` : one level of evaluation, and all of them
- `evalProgram_eq_raisingProgram` : whole programs
-/

namespace Scriptlet

/-! ## Outcomes that agree -/

def Signal.valueOf : Except Signal Value → Value
  | .ok v => v
  | .error signal => signal.toValue

/-- The list, or the value that stands for the signal. -/
def Signal.valuesOf : Except Signal (List Value) → Except Value (List Value)
  | .ok values => .ok values
  | .error signal => .error signal.toValue

/-- The outcomes of a run and of an attempt agree: the store is the same and free of signals, and
the outcome of the run stands for that of the attempt. -/
inductive Agrees {α β : Type} (embed : Except Signal α → β) (good : α → Prop) :
    Option (β × Store) → Option (Except Signal α × Store) → Prop
  | none : Agrees embed good none none
  | ok (a : α) {store : Store} (isGood : good a) (free : store.isSignalFree = true) :
      Agrees embed good (some (embed (.ok a), store)) (some (.ok a, store))
  | raised (signal : Signal) {store : Store} (contained : signal.toValue.isContained = true)
      (free : store.isSignalFree = true) :
      Agrees embed good (some (embed (.error signal), store)) (some (.error signal, store))

/-- A run and an attempt that agree on every store without signals. -/
def Follows (run : Run Value) (attempt : Attempt Value) : Prop :=
  ∀ ⦃store : Store⦄, store.isSignalFree = true →
    Agrees Signal.valueOf (fun v => v.isSignalFree = true) (run store) (attempt store)

def FollowsAll (run : Run (Except Value (List Value))) (attempt : Attempt (List Value)) : Prop :=
  ∀ ⦃store : Store⦄, store.isSignalFree = true →
    Agrees Signal.valuesOf (fun values => ∀ v ∈ values, v.isSignalFree = true) (run store)
      (attempt store)

theorem Signal.isSignal_error (signal : Signal) :
    (valueOf (.error signal)).isSignal = true := by
  cases signal <;> rfl

/-- A value that is free of signals is none itself. -/
theorem Signal.not_isSignal_ok {v : Value} (free : v.isSignalFree = true) :
    ¬ (valueOf (.ok v)).isSignal = true :=
  Value.not_isSignal free

/-! ## Steps of runs and attempts -/

/-- One run after another, from a store. -/
theorem Run.bind_apply {α β : Type} (run : Run α) (next : α → Run β) (store : Store) :
    (run >>= next) store =
      match run store with
      | none => none
      | some (a, store') => next a store' := by
  have hbind : (run >>= next) store =
      (run store).bind fun outcome => next outcome.1 outcome.2 := rfl
  rw [hbind]
  rcases run store with _ | ⟨a, store'⟩ <;> rfl

/-- One attempt after another: a signal breaks off both. -/
theorem Attempt.bind_apply {α β : Type} (attempt : Attempt α) (next : α → Attempt β)
    (store : Store) :
    (attempt >>= next) store =
      match attempt store with
      | none => none
      | some (.ok a, store') => next a store'
      | some (.error signal, store') => some (.error signal, store') := by
  have hbind : (attempt >>= next) store =
      (attempt store).bind fun outcome => ExceptT.bindCont next outcome.1 outcome.2 := rfl
  rw [hbind]
  rcases attempt store with _ | ⟨signal | a, store'⟩ <;> rfl

/-- A handler sees the store as the signal left it. -/
theorem Attempt.tryCatch_apply (attempt : Attempt Value) (handle : Signal → Attempt Value)
    (store : Store) :
    (tryCatch attempt handle) store =
      match attempt store with
      | none => none
      | some (.ok v, store') => some (.ok v, store')
      | some (.error signal, store') => handle signal store' := by
  have hcatch : (tryCatch attempt handle) store = ExceptT.tryCatch attempt handle store := rfl
  rw [hcatch]
  rcases h : attempt store with _ | ⟨signal | v, store'⟩
  · simp only [ExceptT.tryCatch, ExceptT.mk, bind, StateT.bind, h, Option.bind_none]
  · simp only [ExceptT.tryCatch, ExceptT.mk, bind, StateT.bind, h, Option.bind_some]
  · simp only [ExceptT.tryCatch, ExceptT.mk, bind, StateT.bind, h, Option.bind_some]
    rfl

/-! ## Single steps -/

namespace Follows

/-- A value that both give at once. -/
theorem value {v : Value} (free : v.isSignalFree = true) : Follows (pure v) (pure v) := by
  intro store hstore
  exact .ok v free hstore

/-- A signal that one gives and the other raises. -/
theorem raise (signal : Signal) (contained : signal.toValue.isContained = true) :
    Follows (pure signal.toValue) (throw signal) := by
  intro store hstore
  exact .raised signal contained hstore

/-- An error that one gives and the other raises. -/
theorem error (fault : Fault) : Follows (pure (.error fault)) (throw (.error fault)) :=
  raise (.error fault) rfl

/-- An answer is a value for both, or an error for both. -/
theorem answer {v : Value} (h : v.IsAnswer) : Follows (pure v) (Attempt.answer v) := by
  rcases h with hfree | ⟨fault, rfl⟩
  · have hanswer : Attempt.answer v = pure v := by
      cases v <;> first | rfl | cases hfree
    rw [hanswer]
    exact value hfree
  · exact error fault

variable {run : Run Value} {attempt : Attempt Value}

/-- Both go on with the value; a signal is handed on by the run and breaks off the attempt. -/
theorem andThen {next : Value → Run Value} {next' : Value → Attempt Value}
    (first : Follows run attempt)
    (then_ : ∀ v, v.isSignalFree = true → Follows (next v) (next' v)) :
    Follows (run.andThen next) (attempt >>= next') := by
  intro store hstore
  have hfirst := first hstore
  unfold Run.andThen
  rw [Run.bind_apply, Attempt.bind_apply]
  generalize run store = outcome at hfirst ⊢
  generalize attempt store = outcome' at hfirst ⊢
  cases hfirst with
  | none => exact .none
  | ok v free hstore' =>
      dsimp only
      rw [if_neg (Signal.not_isSignal_ok free)]
      exact then_ v free hstore'
  | raised signal contained hstore' =>
      dsimp only
      rw [if_pos signal.isSignal_error]
      exact .raised signal contained hstore'

end Follows

/-- Both go on with the values of a list. -/
theorem FollowsAll.andThenAll {run : Run (Except Value (List Value))}
    {attempt : Attempt (List Value)} {next : List Value → Run Value}
    {next' : List Value → Attempt Value} (first : FollowsAll run attempt)
    (then_ : ∀ values, (∀ v ∈ values, v.isSignalFree = true) →
      Follows (next values) (next' values)) :
    Follows (run.andThenAll next) (attempt >>= next') := by
  intro store hstore
  have hfirst := first hstore
  unfold Run.andThenAll
  rw [Run.bind_apply, Attempt.bind_apply]
  generalize run store = outcome at hfirst ⊢
  generalize attempt store = outcome' at hfirst ⊢
  cases hfirst with
  | none => exact .none
  | ok values free hstore' => exact then_ values free hstore'
  | raised signal contained hstore' => exact .raised signal contained hstore'

/-- One more value for a list. -/
theorem FollowsAll.item {run : Run Value} {attempt : Attempt Value}
    {next : Value → Run (Except Value (List Value))} {next' : Value → Attempt (List Value)}
    (first : Follows run attempt)
    (then_ : ∀ v, v.isSignalFree = true → FollowsAll (next v) (next' v)) :
    FollowsAll (do let v ← run; if v.isSignal then return .error v else next v)
      (attempt >>= next') := by
  intro store hstore
  have hfirst := first hstore
  rw [Run.bind_apply, Attempt.bind_apply]
  generalize run store = outcome at hfirst ⊢
  generalize attempt store = outcome' at hfirst ⊢
  cases hfirst with
  | none => exact .none
  | ok v free hstore' =>
      dsimp only
      rw [if_neg (Signal.not_isSignal_ok free)]
      exact then_ v free hstore'
  | raised signal contained hstore' =>
      dsimp only
      rw [if_pos signal.isSignal_error]
      exact .raised signal contained hstore'

/-! ## Where signals are taken -/

/-- A call or a program takes returns and breaks. -/
theorem Follows.settle {run : Run Value} {attempt : Attempt Value} (h : Follows run attempt) :
    Follows (do let v ← run; return v.settle) attempt.settling := by
  intro store hstore
  have hrun := h hstore
  unfold Attempt.settling
  rw [Run.bind_apply, Attempt.tryCatch_apply]
  generalize run store = outcome at hrun ⊢
  generalize attempt store = outcome' at hrun ⊢
  cases hrun with
  | none => exact .none
  | ok v free hstore' =>
      have hsettle : v.settle = v := by
        cases v <;> first | rfl | cases free
      simp only [Signal.valueOf, hsettle]
      exact .ok v free hstore'
  | raised signal contained hstore' =>
      cases signal with
      | error fault => exact .raised (.error fault) rfl hstore'
      | returned v => exact .ok v contained hstore'
      | broke => exact .raised (.error .breakOutsideLoop) rfl hstore'

/-- One part of a turn: the run looks for a signal before it goes on, the attempt has the break
taken from outside. -/
theorem Follows.turn {run : Run Value} {attempt : Attempt Value} {next : Value → Run Value}
    {next' : Value → Attempt Value} (first : Follows run attempt)
    (then_ : ∀ v, v.isSignalFree = true → Follows (next v) (next' v).leaving) :
    Follows (do let v ← run; if v.isSignal then return v.loopExit else next v)
      (attempt >>= next').leaving := by
  intro store hstore
  have hfirst := first hstore
  unfold Attempt.leaving
  rw [Run.bind_apply, Attempt.tryCatch_apply, Attempt.bind_apply]
  generalize run store = outcome at hfirst ⊢
  generalize attempt store = outcome' at hfirst ⊢
  cases hfirst with
  | none => exact .none
  -- The handler around the whole turn is still the one that takes what the next part raises.
  | ok v free hstore' =>
      dsimp only
      rw [if_neg (Signal.not_isSignal_ok free)]
      have hthen := then_ v free hstore'
      unfold Attempt.leaving at hthen
      rwa [Attempt.tryCatch_apply] at hthen
  | raised signal contained hstore' =>
      dsimp only
      rw [if_pos signal.isSignal_error]
      cases signal with
      | error fault => exact .raised (.error fault) contained hstore'
      | returned v => exact .raised (.returned v) contained hstore'
      | broke => exact .ok Value.null rfl hstore'

/-- Loops take breaks, in the test as well as in the body. -/
theorem Follows.loop {test body : Run Value} {test' body' : Attempt Value}
    (hTest : Follows test test') (hBody : Follows body body') (turns : Nat) :
    Follows (Run.loop test body turns) (Attempt.loop test' body' turns).leaving := by
  induction turns with
  | zero =>
      intro store _
      exact .none
  | succ turns ih =>
      -- A turn is two parts, the test and the body, and the turns that follow it.
      refine hTest.turn ?_
      intro t _
      by_cases htruthy : t.isTruthy = true
      · simp only [htruthy, if_true]
        exact hBody.turn fun _ _ => ih
      · simp only [htruthy, Bool.false_eq_true, if_false]
        exact value rfl

/-! ## Lists of nodes -/

section Level

variable {deeper : Evaluator} {deeper' : Node → Nat → Attempt Value}
variable (inner : ∀ node scope, Follows (deeper node scope) (deeper' node scope))
include inner

/-- The values found so far stand in front of those that are still to come. -/
theorem followsAll_exprs (scope : Nat) (found : List Value) (es : List Expr)
    (free : ∀ v ∈ found, v.isSignalFree = true) :
    FollowsAll (Eval.exprs deeper scope found es) (do
      let values ← Raising.exprs deeper' scope es
      return found.reverse ++ values) := by
  induction es generalizing found with
  | nil =>
      intro store hstore
      have hfree : ∀ v ∈ found.reverse, v.isSignalFree = true := by simpa using free
      have hattempt : (do
          let values ← Raising.exprs deeper' scope []
          return found.reverse ++ values : Attempt (List Value)) = pure found.reverse := by
        simp [Raising.exprs]
      rw [hattempt]
      exact .ok found.reverse hfree hstore
  | cons e rest ih =>
      -- The run collects the values in front, in reverse, the attempt behind its calls: both give
      -- the same list.
      have hreorder : (do
          let values ← Raising.exprs deeper' scope (e :: rest)
          return found.reverse ++ values : Attempt (List Value)) = (do
          let v ← deeper' (.expr e) scope
          let values ← Raising.exprs deeper' scope rest
          return (v :: found).reverse ++ values) := by
        simp [Raising.exprs]
      rw [hreorder]
      refine .item (inner (.expr e) scope) fun v hv => ih (v :: found) ?_
      intro w hw
      rcases List.mem_cons.1 hw with rfl | hw
      · exact hv
      · exact free w hw

/-- Statements, where a signal ends the row in one way or the other. -/
theorem follows_stmts (scope : Nat) (last : Value) (sts : List Stmt)
    (free : last.isSignalFree = true) :
    Follows (Eval.stmts deeper scope last sts) (Raising.stmts deeper' scope last sts) := by
  induction sts generalizing last with
  | nil => exact .value free
  | cons st rest ih => exact (inner (.stmt st) scope).andThen fun v hv => ih v hv

/-- The entries of a hash literal. -/
theorem follows_pairs (scope : Nat) (entries : Entries) (pairs : List (Expr × Expr))
    (free : (Value.hash entries).isSignalFree = true) :
    Follows (Eval.pairs deeper scope entries pairs) (Raising.pairs deeper' scope entries pairs) := by
  induction pairs generalizing entries with
  | nil => exact .value free
  | cons pair rest ih =>
      rcases pair with ⟨key, value⟩
      -- A key that cannot be used is an error before the value is looked at.
      refine (inner (.expr key) scope).andThen fun k _ => ?_
      rcases hkey : k.key? with _ | key
      · exact .error _
      · refine (inner (.expr value) scope).andThen fun v hv => ?_
        exact ih _ (Entries.isSignalFree_insert free key hv)

/-- All values of a list, from its first item on. -/
theorem followsAll_exprs_nil (scope : Nat) (es : List Expr) :
    FollowsAll (Eval.exprs deeper scope [] es) (Raising.exprs deeper' scope es) := by
  have h := followsAll_exprs inner scope [] es (by simp)
  simpa using h

end Level

/-! ## Host functions -/

/-- A host function that answers arguments without signals like another one. -/
def Native.Serves (native native' : Native) : Prop :=
  ∀ args : List Value, (∀ v ∈ args, v.isSignalFree = true) →
    native args = native' args ∧ (native' args).value.IsAnswer

/-- Tables with the same names whose functions answer alike. -/
def Builtins.Serves (builtins builtins' : Builtins) : Prop :=
  ∀ name, Option.Rel Native.Serves (builtins.find? name) (builtins'.find? name)

/-- Machines with such tables whose loops take as many turns. -/
structure Machine.Serves (machine machine' : Machine) : Prop where
  builtins : machine.builtins.Serves machine'.builtins
  turns : machine.turns = machine'.turns

/-- A name means the same with either table. -/
theorem Builtins.Serves.lookup {builtins builtins' : Builtins} (serves : builtins.Serves builtins')
    (scope : Nat) (name : String) (store : Store) :
    Eval.lookup builtins scope name store = Eval.lookup builtins' scope name store := by
  unfold Eval.lookup
  split
  · rfl
  · rcases hfind : builtins.find? name with _ | native <;>
      rcases hfind' : builtins'.find? name with _ | native'
    · rfl
    · have h := serves name
      rw [hfind, hfind'] at h
      cases h
    · have h := serves name
      rw [hfind, hfind'] at h
      cases h
    · rfl

/-- Calls of host functions that answer alike. -/
theorem follows_callNative {native native' : Native} (serves : native.Serves native')
    {args : List Value} (free : ∀ v ∈ args, v.isSignalFree = true) :
    Follows (Eval.callNative native args) (Raising.callNative native' args) := by
  rcases serves args free with ⟨heq, hanswer⟩
  intro store hstore
  have hprint : (store.print (native' args).lines).isSignalFree = true :=
    Store.isSignalFree_print hstore _
  have hrun : Eval.callNative native args store =
      some ((native' args).value.orNull, store.print (native' args).lines) := by
    simp only [Eval.callNative, heq]
  rw [hrun]
  exact Follows.answer hanswer.orNull hprint

/-! ## Nodes -/

section Nodes

variable {machine machine' : Machine} {deeper : Evaluator} {deeper' : Node → Nat → Attempt Value}
variable (serves : machine.Serves machine')
variable (inner : ∀ node scope, Follows (deeper node scope) (deeper' node scope))

include inner in
/-- A call enters the body of the function with its arguments bound, and takes what leaves it. -/
theorem follows_callClosure (closure : Closure) {args : List Value}
    (free : ∀ v ∈ args, v.isSignalFree = true) :
    Follows (Eval.callClosure deeper closure args) (Raising.callClosure deeper' closure args) := by
  unfold Eval.callClosure Raising.callClosure
  split
  · intro store hstore
    -- The body runs in the scope that the call has just made, in a store with the arguments bound.
    have henter := Store.isSignalFree_enter hstore closure free
    exact (inner (.stmt (.block closure.body)) store.scopes.size).settle henter
  · exact .error _

include serves inner

/-- Calls of values, whichever kind of function they are. -/
theorem follows_apply {callee : Value} (calleeFree : callee.isSignalFree = true)
    {args : List Value} (free : ∀ v ∈ args, v.isSignalFree = true) :
    Follows (Eval.apply machine deeper callee args) (Raising.apply machine' deeper' callee args) := by
  cases callee with
  | function closure => exact follows_callClosure inner closure free
  | builtin builtin =>
      have hname := serves.builtins builtin.name
      unfold Eval.apply Raising.apply
      dsimp only
      rcases hfind : machine.builtins.find? builtin.name with _ | native <;>
        rcases hfind' : machine'.builtins.find? builtin.name with _ | native' <;>
        rw [hfind, hfind'] at hname
      · exact .error _
      · cases hname
      · cases hname
      · cases hname with
        | some h => exact follows_callNative h free
  | _ => exact .error _

/-- Call expressions, with the callee in front of the arguments. -/
theorem follows_call (scope : Nat) (callee : Expr) (args : List Expr) :
    Follows (Eval.call machine deeper scope callee args)
      (Raising.call machine' deeper' scope callee args) := by
  -- Both take the same way: a name of the table is looked up at once, any other callee is evaluated
  -- first.
  have hnative : Option.Rel Native.Serves (Eval.native? machine callee)
      (Eval.native? machine' callee) := by
    cases callee with
    | ident id => exact serves.builtins id.name
    | _ => exact .none
  unfold Eval.call Raising.call
  generalize Eval.native? machine callee = native at hnative ⊢
  generalize Eval.native? machine' callee = native' at hnative ⊢
  cases hnative with
  | some h =>
      refine (followsAll_exprs_nil inner scope args).andThenAll fun values free => ?_
      exact follows_callNative h free
  | none =>
      refine (inner (.expr callee) scope).andThen fun f hf => ?_
      refine (followsAll_exprs_nil inner scope args).andThenAll fun values free => ?_
      exact follows_apply serves inner hf free

omit serves in
/-- Every kind of statement. -/
theorem follows_stmt (scope : Nat) (st : Stmt) :
    Follows (Eval.stmt deeper scope st) (Raising.stmt deeper' scope st) := by
  cases st with
  | define _ name value =>
      refine (inner (.expr value) scope).andThen fun v hv => ?_
      intro store hstore
      exact .ok Value.null rfl (Store.isSignalFree_bind hstore hv scope name.name)
  | returnNothing => exact .raise (.returned .null) rfl
  | returnValue _ value =>
      exact (inner (.expr value) scope).andThen fun v hv => .raise (.returned v) hv
  | breakLoop => exact .raise .broke rfl
  | expr _ value => exact inner (.expr value) scope
  | block body => exact follows_stmts inner scope .null body.stmts rfl

/-- Every kind of expression. -/
theorem follows_expr (scope : Nat) (e : Expr) :
    Follows (Eval.expr machine deeper scope e) (Raising.expr machine' deeper' scope e) := by
  cases e with
  | ident id =>
      intro store hstore
      have hanswer := (plain_lookup hstore machine'.builtins scope id.name).isAnswer
      have hrun : Eval.expr machine deeper scope (.ident id) store =
          some (Eval.lookup machine'.builtins scope id.name store, store) := by
        simp only [Eval.expr, serves.builtins.lookup]
      rw [hrun]
      exact Follows.answer hanswer hstore
  | int => exact .value rfl
  | str => exact .value rfl
  | bool => exact .value rfl
  | bad => exact .error _
  | missing => exact .value rfl
  | unary _ op operand =>
      exact (inner (.expr operand) scope).andThen fun v _ => .answer (plain_evalUnary op v).isAnswer
  | binary _ op left right =>
      refine (inner (.expr left) scope).andThen fun l _ => ?_
      refine (inner (.expr right) scope).andThen fun r _ => ?_
      exact .answer (plain_evalBinary op l r).isAnswer
  | ifThen _ test yes =>
      refine (inner (.expr test) scope).andThen fun t _ => ?_
      split
      · exact inner (.stmt (.block yes)) scope
      · exact .value rfl
  | ifElse _ test yes no =>
      refine (inner (.expr test) scope).andThen fun t _ => ?_
      split
      · exact inner (.stmt (.block yes)) scope
      · exact inner (.stmt (.block no)) scope
  | whileDo _ test body =>
      -- The machines have the same bound on turns, so the loops come to no end together.
      have hloop := (inner (.expr test) scope).loop (inner (.stmt (.block body)) scope)
        machine.turns
      unfold Raising.expr
      rw [← serves.turns]
      exact hloop
  | function _ params body =>
      intro store hstore
      exact .ok (Value.function ⟨store.closures, params, body, scope⟩) rfl hstore
  | call _ callee args => exact follows_call serves inner scope callee args
  | array _ items =>
      refine (followsAll_exprs_nil inner scope items).andThenAll fun values free => ?_
      exact .value (Value.isSignalFree_array.2 free)
  | hash _ entries => exact follows_pairs inner scope [] entries rfl
  | index _ target key =>
      refine (inner (.expr target) scope).andThen fun t ht => ?_
      exact (inner (.expr key) scope).andThen fun k _ => .answer (plain_evalIndex ht k).isAnswer

/-- One level of evaluation follows one level with exceptions. -/
theorem follows_evalLevel (node : Node) (scope : Nat) :
    Follows (evalLevel machine deeper node scope) (raisingLevel machine' deeper' node scope) := by
  cases node with
  | stmt st => exact follows_stmt inner scope st
  | expr e => exact follows_expr serves inner scope e

end Nodes

/-! ## Whole runs -/

section Runs

variable {machine machine' : Machine} (serves : machine.Serves machine')
include serves

/-- Evaluation with any number of levels follows evaluation with exceptions. -/
theorem follows_eval (levels : Nat) (node : Node) (scope : Nat) :
    Follows (eval machine levels node scope) (raisingEval machine' levels node scope) := by
  induction levels generalizing node scope with
  | zero => exact .error _
  | succ levels ih => exact follows_evalLevel serves ih node scope

/-- A program follows the same program with exceptions. -/
theorem follows_evalProgram (levels : Nat) (program : Program) (scope : Nat) :
    Follows (evalProgram machine levels program scope)
      (raisingProgram machine' levels program scope) := by
  cases levels with
  | zero => exact .error _
  | succ levels =>
      have hstmts := follows_stmts (follows_eval serves levels) scope .null program.stmts rfl
      exact hstmts.settle

end Runs

theorem serves_standard (turns : Nat) :
    Machine.Serves ⟨.standard, turns⟩ ⟨.standard, turns⟩ := by
  refine ⟨?_, rfl⟩
  intro name
  cases hfind : Builtins.standard.find? name with
  | none => exact .none
  | some native => exact .some fun args free => ⟨rfl, tame_standard hfind args free⟩

/-- Outcomes that agree are the same once signals are values. -/
theorem Agrees.eq_map {outcome : Option (Value × Store)}
    {outcome' : Option (Except Signal Value × Store)} {good : Value → Prop}
    (h : Agrees Signal.valueOf good outcome outcome') :
    outcome = outcome'.map fun (result, store) => (Signal.valueOf result, store) := by
  cases h with
  | none => rfl
  | ok => rfl
  | raised => rfl

/-- Control flow by values is control flow by exceptions: from any store without signals, a program
gives the same result, prints the same lines and leaves the same bindings either way, or comes to no
end either way. -/
theorem evalProgram_eq_raisingProgram (turns levels : Nat) (program : Program) (scope : Nat)
    {store : Store} (free : store.isSignalFree = true) :
    evalProgram ⟨.standard, turns⟩ levels program scope store =
      (raisingProgram ⟨.standard, turns⟩ levels program scope store).map
        fun (result, store') => (Signal.valueOf result, store') := by
  have hfollows : Follows (evalProgram ⟨.standard, turns⟩ levels program scope)
      (raisingProgram ⟨.standard, turns⟩ levels program scope) :=
    follows_evalProgram (serves_standard turns) levels program scope
  exact (hfollows free).eq_map

/-- A break inside an array literal inside a loop inside a function, then a return out of the
program. -/
theorem evalProgram_eq_raisingProgram_nested :
    let t : Token := ⟨.eof, "", .start⟩
    let n : Expr := .ident ⟨t, "n"⟩
    let turn : Block := .mk t [.expr t (.call t (.ident ⟨t, "puts"⟩) [n]),
      .expr t (.array t [n, .ifThen t (.bool t true) (.mk t [.breakLoop t]), .bad t])]
    let program : Program := ⟨[.define t ⟨t, "f"⟩ (.function t [⟨t, "n"⟩]
        (.mk t [.expr t (.whileDo t (.bool t true) turn), .returnValue t n])),
      .returnValue t (.binary t .add (.call t (.ident ⟨t, "f"⟩) [n]) .missing)]⟩
    let store := Store.initial.bind Store.global "n" (.int 3)
    store.isSignalFree = true ∧
      evalProgram ⟨.standard, 5⟩ 20 program Store.global store =
        (raisingProgram ⟨.standard, 5⟩ 20 program Store.global store).map
          fun (result, store') => (Signal.valueOf result, store') := by
  intro t n turn program store
  have free : store.isSignalFree = true := by decide
  exact ⟨free, evalProgram_eq_raisingProgram 5 20 program Store.global free⟩

end Scriptlet
