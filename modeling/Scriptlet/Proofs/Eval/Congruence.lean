import Scriptlet.Proofs.Value.Tokens

/-!
# Relations that evaluation keeps

To compare two evaluations, or to say what all of them do, it is enough to look at the single steps:
values that are given at once, names that are looked up or bound, functions that are made, entered
and left, loops, host functions, and one step after another. A relation between runs that covers
these covers evaluation as a whole.

The runs on one side may be those of another machine, and of trees with other tokens in them.

- `Congruence` : relations between runs that cover the single steps
- `Congruence.evalLevel` : such a relation covers one level of evaluation
- `Congruence.eval`, `Congruence.evalProgram` : and all levels, of nodes and of programs
-/

namespace Scriptlet

/-- A relation between runs in the same scope that covers every step of evaluation. Where a run of
the first machine has a value, that of the second one has the value with the tokens mapped. -/
structure Congruence (machine machine' : Machine) (f : Token → Token)
    (Q : Nat → Run Value → Run Value → Prop) : Prop where
  pure (scope : Nat) (v : Value) : Q scope (pure v) (pure (v.mapTokens f))
  andThen {scope : Nat} {run run' : Run Value} {next next' : Value → Run Value} :
    Q scope run run' → (∀ v, Q scope (next v) (next' (v.mapTokens f))) →
      Q scope (run.andThen next) (run'.andThen next')
  settle {scope : Nat} {run run' : Run Value} : Q scope run run' →
    Q scope (do let v ← run; return v.settle) (do let v ← run'; return v.settle)
  loop {scope : Nat} {test test' body body' : Run Value} : Q scope test test' →
    Q scope body body' →
      Q scope (Run.loop test body machine.turns) (Run.loop test' body' machine'.turns)
  lookup (scope : Nat) (name : String) :
    Q scope (fun store => some (Eval.lookup machine.builtins scope name store, store))
      (fun store => some (Eval.lookup machine'.builtins scope name store, store))
  define (scope : Nat) (name : String) (v : Value) :
    Q scope (fun store => some (.null, store.bind scope name v))
      (fun store => some (.null, store.bind scope name (v.mapTokens f)))
  makeClosure (scope : Nat) (params : List Ident) (body : Block) :
    Q scope (Eval.makeClosure params body scope)
      (Eval.makeClosure (params.map (Ident.mapToken f)) (body.mapTokens f) scope)
  callNative (scope : Nat) (name : String) (args : List Value) :
    Option.Rel (fun native native' => Q scope (Eval.callNative native args)
      (Eval.callNative native' (args.map (Value.mapTokens f))))
      (machine.builtins.find? name) (machine'.builtins.find? name)
  enter {body body' : Nat → Run Value} (scope : Nat) (closure : Closure) (args : List Value) :
    (∀ inside, Q inside (body inside) (body' inside)) →
      Q scope (fun store => body store.scopes.size (Eval.enter closure args store))
        (fun store => body' store.scopes.size
          (Eval.enter (closure.mapTokens f) (args.map (Value.mapTokens f)) store))

namespace Eval

variable {deeper : Evaluator} {scope : Nat}

/-- Without expressions there is nothing in front of what follows. -/
theorem exprs_nil_andThenAll (found : List Value) (next : List Value → Run Value) :
    (exprs deeper scope found []).andThenAll next = next found.reverse :=
  rfl

/-- The first expression comes in front of the others and of what follows them. -/
theorem exprs_cons_andThenAll (found : List Value) (e : Expr) (rest : List Expr)
    (next : List Value → Run Value) :
    (exprs deeper scope found (e :: rest)).andThenAll next =
      (deeper (.expr e) scope).andThen fun v =>
        (exprs deeper scope (v :: found) rest).andThenAll next := by
  simp only [exprs, Run.andThenAll, Run.andThen, bind_assoc]
  congr 1
  funext v
  split
  · exact pure_bind _ _
  · rfl

/-- A call with as many arguments as parameters runs the body in the scope that it makes. -/
theorem callClosure_of_length (closure : Closure) {args : List Value}
    (h : args.length = closure.params.length) :
    callClosure deeper closure args = fun store =>
      (do let v ← deeper (.stmt (.block closure.body)) store.scopes.size; return v.settle)
        (enter closure args store) := by
  unfold callClosure
  rw [if_pos h]
  rfl

/-- A call with another number of arguments is an error, and runs nothing. -/
theorem callClosure_of_length_ne (closure : Closure) {args : List Value}
    (h : args.length ≠ closure.params.length) :
    callClosure deeper closure args =
      pure (.error (.argumentCount closure.params.length args.length)) := by
  unfold callClosure
  rw [if_neg h]

end Eval

/-- A program is a block whose signals end. -/
theorem evalProgram_eq_block (machine : Machine) (levels : Nat) (program : Program) (scope : Nat)
    (token : Token) :
    evalProgram machine levels program scope = do
      let v ← eval machine levels (.stmt (.block (.mk token program.stmts))) scope
      return v.settle := by
  cases levels <;> rfl

namespace Congruence

variable {machine machine' : Machine} {f : Token → Token}
variable {Q : Nat → Run Value → Run Value → Prop}
variable (congr : Congruence machine machine' f Q)
variable {deeper deeper' : Evaluator}
variable (inner : ∀ node scope, Q scope (deeper node scope) (deeper' (node.mapTokens f) scope))
include congr

omit inner in
theorem error (scope : Nat) (fault : Fault) :
    Q scope (Pure.pure (.error fault)) (Pure.pure (.error fault)) :=
  congr.pure scope (.error fault)

include inner

/-! ## Lists of nodes -/

/-- What follows a list of expressions is given the values of all of them. -/
theorem exprs (scope : Nat) (found : List Value) (es : List Expr)
    {next next' : List Value → Run Value}
    (hnext : ∀ values, Q scope (next values) (next' (values.map (Value.mapTokens f)))) :
    Q scope ((Eval.exprs deeper scope found es).andThenAll next)
      ((Eval.exprs deeper' scope (found.map (Value.mapTokens f)) (mapTokensExprs f es)).andThenAll
        next') := by
  induction es generalizing found with
  | nil =>
      have hfound := hnext found.reverse
      rw [List.map_reverse] at hfound
      exact hfound
  | cons e rest ih =>
      rw [Eval.exprs_cons_andThenAll, mapTokensExprs, Eval.exprs_cons_andThenAll]
      exact congr.andThen (inner (.expr e) scope) fun v => ih (v :: found)

/-- Such a relation covers statements one after another. -/
theorem stmts (scope : Nat) (last : Value) (sts : List Stmt) :
    Q scope (Eval.stmts deeper scope last sts)
      (Eval.stmts deeper' scope (last.mapTokens f) (mapTokensStmts f sts)) := by
  induction sts generalizing last with
  | nil => exact congr.pure scope last
  | cons st rest ih => exact congr.andThen (inner (.stmt st) scope) fun v => ih v

/-- It covers the entries of a hash literal, the key of each before its value. -/
theorem pairs (scope : Nat) (entries : Entries) (pairs : List (Expr × Expr)) :
    Q scope (Eval.pairs deeper scope entries pairs)
      (Eval.pairs deeper' scope (mapTokensEntries f entries) (mapTokensPairs f pairs)) := by
  induction pairs generalizing entries with
  | nil => exact congr.pure scope (.hash entries)
  | cons pair rest ih =>
      rcases pair with ⟨key, value⟩
      refine congr.andThen (inner (.expr key) scope) fun k => ?_
      -- Tokens make no difference to whether a value can be a key, and to which one.
      rw [Value.key?_mapTokens, Value.type_mapTokens]
      cases k.key? with
      | none => exact congr.error scope _
      | some key =>
          refine congr.andThen (inner (.expr value) scope) fun v => ?_
          rw [Entries.insert_mapTokens]
          exact ih _

/-! ## Calls -/

/-- It covers the body of a function in the scope of a call. -/
theorem callClosure (scope : Nat) (closure : Closure) (args : List Value) :
    Q scope (Eval.callClosure deeper closure args)
      (Eval.callClosure deeper' (closure.mapTokens f) (args.map (Value.mapTokens f))) := by
  have hparams : (closure.mapTokens f).params.length = closure.params.length := List.length_map _
  have hargs : (args.map (Value.mapTokens f)).length = args.length := List.length_map _
  by_cases hlength : args.length = closure.params.length
  · rw [Eval.callClosure_of_length closure hlength,
      Eval.callClosure_of_length (closure.mapTokens f) (by rw [hargs, hparams, hlength])]
    have hentered := congr.enter scope closure args fun inside =>
      congr.settle (inner (.stmt (.block closure.body)) inside)
    exact hentered
  · rw [Eval.callClosure_of_length_ne closure hlength,
      Eval.callClosure_of_length_ne (closure.mapTokens f) (by rwa [hargs, hparams]), hargs, hparams]
    exact congr.error scope _

theorem apply (scope : Nat) (callee : Value) (args : List Value) :
    Q scope (Eval.apply machine deeper callee args)
      (Eval.apply machine' deeper' (callee.mapTokens f) (args.map (Value.mapTokens f))) := by
  cases callee with
  | function closure => exact congr.callClosure inner scope closure args
  | builtin builtin =>
      have hnative := congr.callNative scope builtin.name args
      unfold Eval.apply
      simp only [Value.mapTokens]
      generalize machine.builtins.find? builtin.name = native at hnative ⊢
      generalize machine'.builtins.find? builtin.name = native' at hnative ⊢
      cases hnative with
      | none => exact congr.error scope _
      | some h => exact h
  | _ => exact congr.error scope _

/-- It covers a call, whose callee may be the name of a host function. -/
theorem call (scope : Nat) (callee : Expr) (args : List Expr) :
    Q scope (Eval.call machine deeper scope callee args)
      (Eval.call machine' deeper' scope (callee.mapTokens f) (mapTokensExprs f args)) := by
  -- Both sides take the same way: only names are looked up in the table, and a name stays the same.
  have hnative (values : List Value) : Option.Rel
      (fun native native' => Q scope (Eval.callNative native values)
        (Eval.callNative native' (values.map (Value.mapTokens f))))
      (Eval.native? machine callee) (Eval.native? machine' (callee.mapTokens f)) := by
    cases callee with
    | ident id => exact congr.callNative scope id.name values
    | _ => exact .none
  unfold Eval.call
  generalize Eval.native? machine callee = native at hnative ⊢
  generalize Eval.native? machine' (callee.mapTokens f) = native' at hnative ⊢
  cases native with
  | none =>
      cases native' with
      | none =>
          refine congr.andThen (inner (.expr callee) scope) fun v => ?_
          exact congr.exprs inner scope [] args fun values => congr.apply inner scope v values
      | some native' => cases hnative []
  | some native =>
      cases native' with
      | none => cases hnative []
      | some native' =>
          refine congr.exprs inner scope [] args fun values => ?_
          cases hnative values with
          | some h => exact h

/-! ## Nodes -/

/-- It covers every kind of statement. -/
theorem stmt (scope : Nat) (st : Stmt) :
    Q scope (Eval.stmt deeper scope st) (Eval.stmt deeper' scope (st.mapTokens f)) := by
  cases st with
  | define _ name value =>
      exact congr.andThen (inner (.expr value) scope) fun v => congr.define scope name.name v
  | returnNothing => exact congr.pure scope (.returned .null)
  | returnValue _ value =>
      exact congr.andThen (inner (.expr value) scope) fun v => congr.pure scope (.returned v)
  | breakLoop => exact congr.pure scope .broke
  | expr _ value => exact inner (.expr value) scope
  | block body =>
      have hstmts := congr.stmts inner scope .null body.stmts
      rw [← Block.stmts_mapTokens] at hstmts
      exact hstmts

/-- It covers every kind of expression. -/
theorem expr (scope : Nat) (e : Expr) :
    Q scope (Eval.expr machine deeper scope e)
      (Eval.expr machine' deeper' scope (e.mapTokens f)) := by
  cases e with
  | ident id => exact congr.lookup scope id.name
  | int _ value => exact congr.pure scope (.int value)
  | str _ value => exact congr.pure scope (.str value)
  | bool _ value => exact congr.pure scope (.bool value)
  | bad => exact congr.error scope _
  | missing => exact congr.pure scope .null
  | unary _ op operand =>
      refine congr.andThen (inner (.expr operand) scope) fun v => ?_
      rw [evalUnary_mapTokens]
      exact congr.pure scope _
  | binary _ op left right =>
      refine congr.andThen (inner (.expr left) scope) fun l => ?_
      refine congr.andThen (inner (.expr right) scope) fun r => ?_
      rw [evalBinary_mapTokens]
      exact congr.pure scope _
  | ifThen _ test yes =>
      refine congr.andThen (inner (.expr test) scope) fun t => ?_
      rw [Value.isTruthy_mapTokens]
      split
      · exact inner (.stmt (.block yes)) scope
      · exact congr.pure scope .null
  | ifElse _ test yes no =>
      refine congr.andThen (inner (.expr test) scope) fun t => ?_
      rw [Value.isTruthy_mapTokens]
      split
      · exact inner (.stmt (.block yes)) scope
      · exact inner (.stmt (.block no)) scope
  | whileDo _ test body =>
      exact congr.loop (inner (.expr test) scope) (inner (.stmt (.block body)) scope)
  | function _ params body => exact congr.makeClosure scope params body
  | call _ callee args => exact congr.call inner scope callee args
  | array _ items =>
      refine congr.exprs inner scope [] items fun values => ?_
      rw [← Value.mapTokens_array]
      exact congr.pure scope _
  | hash _ entries => exact congr.pairs inner scope [] entries
  | index _ target key =>
      refine congr.andThen (inner (.expr target) scope) fun t => ?_
      refine congr.andThen (inner (.expr key) scope) fun k => ?_
      rw [evalIndex_mapTokens]
      exact congr.pure scope _

/-- A relation that covers the single steps and the evaluators of the next level covers this
level. -/
theorem evalLevel (node : Node) (scope : Nat) :
    Q scope (evalLevel machine deeper node scope)
      (evalLevel machine' deeper' (node.mapTokens f) scope) := by
  cases node with
  | stmt st => exact congr.stmt inner scope st
  | expr e => exact congr.expr inner scope e

omit inner

/-- Such a relation covers evaluation with the same number of levels. -/
theorem eval (levels : Nat) (node : Node) (scope : Nat) :
    Q scope (eval machine levels node scope) (eval machine' levels (node.mapTokens f) scope) := by
  induction levels generalizing node scope with
  | zero => exact congr.error scope .recursionLimit
  | succ levels ih => exact congr.evalLevel ih node scope

/-- It covers programs. -/
theorem evalProgram (levels : Nat) (program : Program) (scope : Nat) :
    Q scope (evalProgram machine levels program scope)
      (evalProgram machine' levels (program.mapTokens f) scope) := by
  have token : Token := ⟨.eof, "", .start⟩
  rw [evalProgram_eq_block machine levels program scope token,
    evalProgram_eq_block machine' levels (program.mapTokens f) scope (f token)]
  exact congr.settle (congr.eval levels (.stmt (.block (.mk token program.stmts))) scope)

end Congruence

end Scriptlet
