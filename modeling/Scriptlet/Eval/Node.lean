import Scriptlet.Builtin.Basic
import Scriptlet.Eval.Operator
import Scriptlet.Eval.Run

/-!
# Evaluation

A node is evaluated by evaluating its parts one level deeper, from left to right, each at most once;
the number of levels is limited. `evalLevel` evaluates one level and takes the evaluator of the next
one, `deeper`.

- `Machine` : the host functions and the number of turns that a loop may take
- `eval` : the value of a node with a number of levels below it
- `evalProgram` : the value of a program
-/

namespace Scriptlet

/-- What stays the same throughout a run: the host functions, and how many turns each loop may take
before the run is given up. -/
structure Machine where
  builtins : Builtins
  turns : Nat

inductive Node
  | stmt (stmt : Stmt)
  | expr (expr : Expr)

/-- Evaluates a node in the scope with the given number. -/
abbrev Evaluator := Node → Nat → Run Value

namespace Eval

def callNative (native : Native) (args : List Value) : Run Value := fun store =>
  let reply := native args
  some (reply.value.orNull, store.print reply.lines)

/-- The value of a name: its binding, or else the host function of that name. -/
def lookup (builtins : Builtins) (scope : Nat) (name : String) (store : Store) : Value :=
  match store.find scope name with
  | some value => value
  | none =>
    match builtins.find? name with
    | some _ => .builtin ⟨name, 0⟩
    | none => .error (.unknownName name)

/-- A new scope for a call, with the arguments bound to the parameters in order. -/
def enter (closure : Closure) (args : List Value) (store : Store) : Store :=
  let scope := store.scopes.size
  (closure.params.zip args).foldl (fun store (param, arg) => store.bind scope param.name arg)
    (store.newScope (some closure.scope))

def makeClosure (params : List Ident) (body : Block) (scope : Nat) : Run Value := fun store =>
  some (.function ⟨store.closures, params, body, scope⟩,
    { store with closures := store.closures + 1 })

section Level

variable (machine : Machine) (deeper : Evaluator)

/-! ## Lists of nodes -/

/-- The values of expressions in order, behind those in `found`, which has the last one first; or
the first signal. -/
def exprs (scope : Nat) (found : List Value) : List Expr → Run (Except Value (List Value))
  | [] => return .ok found.reverse
  | expr :: rest => do
    let v ← deeper (.expr expr) scope
    if v.isSignal then return .error v else exprs scope (v :: found) rest

/-- The value of the last statement, or the first signal; `last` if there are no statements. -/
def stmts (scope : Nat) (last : Value) : List Stmt → Run Value
  | [] => return last
  | stmt :: rest => do
    let v ← deeper (.stmt stmt) scope
    if v.isSignal then return v else stmts scope v rest

/-- A hash with the given entries and those of the pairs, each key before its value. -/
def pairs (scope : Nat) (entries : Entries) : List (Expr × Expr) → Run Value
  | [] => return .hash entries
  | (key, value) :: rest => do
    let k ← deeper (.expr key) scope
    if k.isSignal then return k
    else
      match k.key? with
      | none => return .error (.unusableKey k.type)
      | some k =>
        let v ← deeper (.expr value) scope
        if v.isSignal then return v else pairs scope (entries.insert k v) rest

/-! ## Calls -/

def callClosure (closure : Closure) (args : List Value) : Run Value :=
  if args.length = closure.params.length then do
    let scope := (← get).scopes.size
    modify (enter closure args)
    let v ← deeper (.stmt (.block closure.body)) scope
    return v.settle
  else return .error (.argumentCount closure.params.length args.length)

def apply (callee : Value) (args : List Value) : Run Value :=
  match callee with
  | .function closure => callClosure deeper closure args
  | .builtin builtin =>
    match machine.builtins.find? builtin.name with
    | some native => callNative native args
    | none => return .error (.notAFunction .builtin)
  | callee => return .error (.notAFunction callee.type)

/-- The host function that a callee names. Such a name means the host function even where it is
bound. -/
def native? : Expr → Option Native
  | .ident id => machine.builtins.find? id.name
  | _ => none

/-- A call: the callee first, unless it names a host function, and then the arguments. -/
def call (scope : Nat) (callee : Expr) (args : List Expr) : Run Value :=
  match native? machine callee with
  | some native => (exprs deeper scope [] args).andThenAll fun args => callNative native args
  | none =>
    (deeper (.expr callee) scope).andThen fun callee =>
      (exprs deeper scope [] args).andThenAll fun args => apply machine deeper callee args

/-! ## Nodes -/

def stmt (scope : Nat) : Stmt → Run Value
  | .define _ name value =>
    (deeper (.expr value) scope).andThen fun v => fun store =>
      some (.null, store.bind scope name.name v)
  | .returnNothing _ => return .returned .null
  | .returnValue _ value => (deeper (.expr value) scope).andThen fun v => return .returned v
  | .breakLoop _ => return .broke
  | .expr _ value => deeper (.expr value) scope
  | .block body => stmts deeper scope .null body.stmts

def expr (scope : Nat) : Expr → Run Value
  | .ident id => fun store => some (lookup machine.builtins scope id.name store, store)
  | .int _ value => return .int value
  | .str _ value => return .str value
  | .bool _ value => return .bool value
  | .bad _ => return .error .invalidExpression
  | .missing => return .null
  | .unary _ op operand =>
    (deeper (.expr operand) scope).andThen fun v => return evalUnary op v
  | .binary _ op left right =>
    (deeper (.expr left) scope).andThen fun l =>
      (deeper (.expr right) scope).andThen fun r => return evalBinary op l r
  | .ifThen _ test yes =>
    (deeper (.expr test) scope).andThen fun t =>
      if t.isTruthy then deeper (.stmt (.block yes)) scope else return .null
  | .ifElse _ test yes no =>
    (deeper (.expr test) scope).andThen fun t =>
      if t.isTruthy then deeper (.stmt (.block yes)) scope
      else deeper (.stmt (.block no)) scope
  | .whileDo _ test body =>
    Run.loop (deeper (.expr test) scope) (deeper (.stmt (.block body)) scope) machine.turns
  | .function _ params body => makeClosure params body scope
  | .call _ callee args => call machine deeper scope callee args
  | .array _ items => (exprs deeper scope [] items).andThenAll fun values => return .array values
  | .hash _ entries => pairs deeper scope [] entries
  | .index _ target key =>
    (deeper (.expr target) scope).andThen fun t =>
      (deeper (.expr key) scope).andThen fun k => return evalIndex t k

end Level

end Eval

/-- The value of a node whose parts `deeper` evaluates. -/
def evalLevel (machine : Machine) (deeper : Evaluator) : Evaluator
  | .stmt stmt, scope => Eval.stmt deeper scope stmt
  | .expr expr, scope => Eval.expr machine deeper scope expr

/-- The value of a node in the scope with the given number, with a number of levels. -/
def eval (machine : Machine) : Nat → Evaluator
  | 0 => fun _ _ => return .error .recursionLimit
  | levels + 1 => evalLevel machine (eval machine levels)

/-- The value of a program in the scope with the given number. The program itself is the first
level. -/
def evalProgram (machine : Machine) (levels : Nat) (program : Program) (scope : Nat) : Run Value :=
  match levels with
  | 0 => return .error .recursionLimit
  | levels + 1 => do
    let v ← Eval.stmts (eval machine levels) scope .null program.stmts
    return v.settle

end Scriptlet
