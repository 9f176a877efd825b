import Scriptlet.Eval.Node

/-!
# Evaluation with exceptions

The language once more, with signals as exceptions: a return, a break and an error leave everything
that is going on at once, and no operand is looked at before it is used. Returns are taken by calls
and by the program, breaks by loops, and errors by nothing. A break that leaves a function or the
program becomes an error.

- `Signal` : the exceptions
- `Attempt` : runs that an exception may break off
- `Attempt.settling`, `Attempt.leaving` : where exceptions are taken
- `raisingEval`, `raisingProgram` : the value of a node and of a program
-/

namespace Scriptlet

/-- What breaks off an evaluation. -/
inductive Signal
  | error (fault : Fault)
  | returned (value : Value)
  | broke

def Signal.toValue : Signal → Value
  | .error fault => .error fault
  | .returned v => .returned v
  | .broke => .broke

/-- Runs that a signal may break off. What was done to the store until then stays done. -/
abbrev Attempt := ExceptT Signal Run

namespace Attempt

/-- Goes on with the answer of an operator or a host function, unless it is an error. -/
def answer : Value → Attempt Value
  | .error fault => throw (.error fault)
  | v => return v

/-- Takes what leaves a function or a program: a return gives its value, and a break has no loop to
leave. -/
def settling (attempt : Attempt Value) : Attempt Value :=
  tryCatch attempt fun
    | .returned v => return v
    | .broke => throw (.error .breakOutsideLoop)
    | .error fault => throw (.error fault)

/-- Takes what leaves a loop: a break gives null. -/
def leaving (attempt : Attempt Value) : Attempt Value :=
  tryCatch attempt fun
    | .broke => return .null
    | signal => throw signal

/-- Takes turns of a test and a body, at most `turns` of them, until the test fails. -/
def loop (test body : Attempt Value) : Nat → Attempt Value
  | 0 => ExceptT.mk fun _ => none
  | turns + 1 => do
    let t ← test
    if t.isTruthy then
      let _ ← body
      loop test body turns
    else return .null

end Attempt

namespace Raising

section Level

variable (machine : Machine) (deeper : Node → Nat → Attempt Value)

/-! ## Lists of nodes -/

def exprs (scope : Nat) : List Expr → Attempt (List Value)
  | [] => return []
  | expr :: rest => do
    let v ← deeper (.expr expr) scope
    let values ← exprs scope rest
    return v :: values

/-- The value of the last statement; `last` if there are no statements. -/
def stmts (scope : Nat) (last : Value) : List Stmt → Attempt Value
  | [] => return last
  | stmt :: rest => do
    let v ← deeper (.stmt stmt) scope
    stmts scope v rest

/-- A hash with the given entries and those of the pairs, each key before its value. -/
def pairs (scope : Nat) (entries : Entries) : List (Expr × Expr) → Attempt Value
  | [] => return .hash entries
  | (key, value) :: rest => do
    let k ← deeper (.expr key) scope
    match k.key? with
    | none => throw (.error (.unusableKey k.type))
    | some k =>
      let v ← deeper (.expr value) scope
      pairs scope (entries.insert k v) rest

/-! ## Calls -/

def callNative (native : Native) (args : List Value) : Attempt Value := do
  modify fun store => store.print (native args).lines
  Attempt.answer (native args).value.orNull

def callClosure (closure : Closure) (args : List Value) : Attempt Value :=
  if args.length = closure.params.length then do
    let scope := (← get).scopes.size
    modify (Eval.enter closure args)
    (deeper (.stmt (.block closure.body)) scope).settling
  else throw (.error (.argumentCount closure.params.length args.length))

def apply (callee : Value) (args : List Value) : Attempt Value :=
  match callee with
  | .function closure => callClosure deeper closure args
  | .builtin builtin =>
    match machine.builtins.find? builtin.name with
    | some native => callNative native args
    | none => throw (.error (.notAFunction .builtin))
  | callee => throw (.error (.notAFunction callee.type))

/-- A call: the callee first, unless it names a host function, and then the arguments. -/
def call (scope : Nat) (callee : Expr) (args : List Expr) : Attempt Value :=
  match Eval.native? machine callee with
  | some native => do
    let args ← exprs deeper scope args
    callNative native args
  | none => do
    let callee ← deeper (.expr callee) scope
    let args ← exprs deeper scope args
    apply machine deeper callee args

/-! ## Nodes -/

def stmt (scope : Nat) : Stmt → Attempt Value
  | .define _ name value => do
    let v ← deeper (.expr value) scope
    modify fun store => store.bind scope name.name v
    return .null
  | .returnNothing _ => throw (.returned .null)
  | .returnValue _ value => do
    let v ← deeper (.expr value) scope
    throw (.returned v)
  | .breakLoop _ => throw .broke
  | .expr _ value => deeper (.expr value) scope
  | .block body => stmts deeper scope .null body.stmts

def expr (scope : Nat) : Expr → Attempt Value
  | .ident id => do
    let store ← get
    Attempt.answer (Eval.lookup machine.builtins scope id.name store)
  | .int _ value => return .int value
  | .str _ value => return .str value
  | .bool _ value => return .bool value
  | .bad _ => throw (.error .invalidExpression)
  | .missing => return .null
  | .unary _ op operand => do
    let v ← deeper (.expr operand) scope
    Attempt.answer (evalUnary op v)
  | .binary _ op left right => do
    let l ← deeper (.expr left) scope
    let r ← deeper (.expr right) scope
    Attempt.answer (evalBinary op l r)
  | .ifThen _ test yes => do
    let t ← deeper (.expr test) scope
    if t.isTruthy then deeper (.stmt (.block yes)) scope else return .null
  | .ifElse _ test yes no => do
    let t ← deeper (.expr test) scope
    if t.isTruthy then deeper (.stmt (.block yes)) scope else deeper (.stmt (.block no)) scope
  | .whileDo _ test body =>
    (Attempt.loop (deeper (.expr test) scope) (deeper (.stmt (.block body)) scope)
      machine.turns).leaving
  | .function _ params body => ExceptT.lift (Eval.makeClosure params body scope)
  | .call _ callee args => call machine deeper scope callee args
  | .array _ items => do
    let values ← exprs deeper scope items
    return .array values
  | .hash _ entries => pairs deeper scope [] entries
  | .index _ target key => do
    let t ← deeper (.expr target) scope
    let k ← deeper (.expr key) scope
    Attempt.answer (evalIndex t k)

end Level

end Raising

def raisingLevel (machine : Machine) (deeper : Node → Nat → Attempt Value) :
    Node → Nat → Attempt Value
  | .stmt stmt, scope => Raising.stmt deeper scope stmt
  | .expr expr, scope => Raising.expr machine deeper scope expr

/-- The value of a node in the scope with the given number, with a number of levels. -/
def raisingEval (machine : Machine) : Nat → Node → Nat → Attempt Value
  | 0 => fun _ _ => throw (.error .recursionLimit)
  | levels + 1 => raisingLevel machine (raisingEval machine levels)

/-- The value of a program in the scope with the given number. The program itself is the first
level. -/
def raisingProgram (machine : Machine) (levels : Nat) (program : Program) (scope : Nat) :
    Attempt Value :=
  match levels with
  | 0 => throw (.error .recursionLimit)
  | levels + 1 => (Raising.stmts (raisingEval machine levels) scope .null program.stmts).settling

end Scriptlet
