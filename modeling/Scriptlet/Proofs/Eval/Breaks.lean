import Scriptlet.Proofs.Eval.Congruence
import Scriptlet.Proofs.Eval.Containment
import Scriptlet.Proofs.Value.Closures

/-!
# Breaks and the loops around them

A break leaves the nearest loop that is running, but it may not leave a function or a program. That
can be told from the text alone: every break has to lie in a loop, and in the same function as that
loop. A function is often called far from where it was made, also out of an array, and in the midst
of other loops; so the values in the store have to keep to the rule as well.

- `Expr.breaksEnclosed`, `Stmt.breaksEnclosed` : the rule, for code inside or outside of a loop
- `Value.Tidy` : values that may be bound under the rule
- `Value.MayLeave` : what may come out of code inside or outside of a loop
- `Orderly` : runs that bind tidy values only and give nothing else
- `orderly_evalLevel`, `orderly_eval` : one level of evaluation, and all levels
- `breaks_stay_in_loops` : a program under the rule never ends with a break
-/

namespace Scriptlet

/-! ## The rule -/

mutual

/-- Whether every break in an expression lies in a loop of the same function. `inLoop` says whether
there is such a loop around the expression. -/
def Expr.breaksEnclosed (inLoop : Bool) : Expr → Bool
  | .ident _ | .int .. | .str .. | .bool .. | .bad _ | .missing => true
  | .unary _ _ operand => operand.breaksEnclosed inLoop
  | .binary _ _ left right => left.breaksEnclosed inLoop && right.breaksEnclosed inLoop
  | .ifThen _ test yes => test.breaksEnclosed inLoop && yes.breaksEnclosed inLoop
  | .ifElse _ test yes no =>
    test.breaksEnclosed inLoop && yes.breaksEnclosed inLoop && no.breaksEnclosed inLoop
  | .whileDo _ test body => test.breaksEnclosed true && body.breaksEnclosed true
  -- The loops around a function do not count for its body.
  | .function _ _ body => body.breaksEnclosed false
  | .call _ callee args => callee.breaksEnclosed inLoop && exprsBreaksEnclosed inLoop args
  | .array _ items => exprsBreaksEnclosed inLoop items
  | .hash _ pairs => pairsBreaksEnclosed inLoop pairs
  | .index _ target key => target.breaksEnclosed inLoop && key.breaksEnclosed inLoop

/-- Whether every break in a statement lies in a loop of the same function. -/
def Stmt.breaksEnclosed (inLoop : Bool) : Stmt → Bool
  | .breakLoop _ => inLoop
  | .returnNothing _ => true
  | .define _ _ value | .returnValue _ value | .expr _ value => value.breaksEnclosed inLoop
  | .block body => body.breaksEnclosed inLoop

/-- Whether every break in a block lies in a loop of the same function. -/
def Block.breaksEnclosed (inLoop : Bool) : Block → Bool
  | .mk _ stmts => stmtsBreaksEnclosed inLoop stmts

def stmtsBreaksEnclosed (inLoop : Bool) : List Stmt → Bool
  | [] => true
  | st :: rest => st.breaksEnclosed inLoop && stmtsBreaksEnclosed inLoop rest

def exprsBreaksEnclosed (inLoop : Bool) : List Expr → Bool
  | [] => true
  | e :: rest => e.breaksEnclosed inLoop && exprsBreaksEnclosed inLoop rest

def pairsBreaksEnclosed (inLoop : Bool) : List (Expr × Expr) → Bool
  | [] => true
  | pair :: rest => pairBreaksEnclosed inLoop pair && pairsBreaksEnclosed inLoop rest

def pairBreaksEnclosed (inLoop : Bool) : Expr × Expr → Bool
  | (key, value) => key.breaksEnclosed inLoop && value.breaksEnclosed inLoop

end

def Node.breaksEnclosed (inLoop : Bool) : Node → Bool
  | .stmt st => st.breaksEnclosed inLoop
  | .expr e => e.breaksEnclosed inLoop

/-- Whether every break in a program lies in a loop of the same function, or of no function. -/
def Program.breaksEnclosed (program : Program) : Bool :=
  stmtsBreaksEnclosed false program.stmts

/-- The rule on breaks holds of statements just if it holds of each. -/
theorem stmtsBreaksEnclosed_iff {inLoop : Bool} {sts : List Stmt} :
    stmtsBreaksEnclosed inLoop sts = true ↔ ∀ st ∈ sts, st.breaksEnclosed inLoop = true := by
  induction sts with
  | nil => simp [stmtsBreaksEnclosed]
  | cons st rest ih => simp [stmtsBreaksEnclosed, ih]

/-- The same for expressions. -/
theorem exprsBreaksEnclosed_iff {inLoop : Bool} {es : List Expr} :
    exprsBreaksEnclosed inLoop es = true ↔ ∀ e ∈ es, e.breaksEnclosed inLoop = true := by
  induction es with
  | nil => simp [exprsBreaksEnclosed]
  | cons e rest ih => simp [exprsBreaksEnclosed, ih]

/-- The same for the keys and values of a hash literal. -/
theorem pairsBreaksEnclosed_iff {inLoop : Bool} {pairs : List (Expr × Expr)} :
    pairsBreaksEnclosed inLoop pairs = true ↔ ∀ pair ∈ pairs,
      pair.1.breaksEnclosed inLoop = true ∧ pair.2.breaksEnclosed inLoop = true := by
  induction pairs with
  | nil => simp [pairsBreaksEnclosed]
  | cons pair rest ih =>
      rcases pair with ⟨key, value⟩
      simp [pairsBreaksEnclosed, pairBreaksEnclosed, ih]

/-! ## Values -/

namespace Value

/-- No signal lies in a value, and every function in it has its breaks in loops of its own. -/
structure Tidy (v : Value) : Prop where
  free : v.isSignalFree = true
  functions : ∀ c ∈ v.closures, c.body.breaksEnclosed false = true

namespace Tidy

/-- A value without functions in it is tidy if there is no signal in it. -/
theorem of_nil {v : Value} (free : v.isSignalFree = true) (h : v.closures = []) : v.Tidy := by
  refine ⟨free, ?_⟩
  intro c hc
  rw [h] at hc
  cases hc

/-- A function is tidy if the rule on breaks holds of its body. -/
theorem function {closure : Closure} (h : closure.body.breaksEnclosed false = true) :
    (Value.function closure).Tidy := by
  refine ⟨rfl, ?_⟩
  intro c hc
  rw [closures, List.mem_singleton] at hc
  rwa [hc]

theorem array {items : List Value} (h : ∀ v ∈ items, v.Tidy) : (Value.array items).Tidy := by
  refine ⟨isSignalFree_array.2 fun v hv => (h v hv).free, ?_⟩
  intro c hc
  rcases mem_closures_array.1 hc with ⟨v, hv, hmem⟩
  exact (h v hv).functions c hmem

/-- A tidy hash stays tidy when a tidy value is written into it. -/
theorem insert {entries : Entries} (h : (hash entries).Tidy) (key : Key) {v : Value}
    (hv : v.Tidy) : (hash (entries.insert key v)).Tidy := by
  refine ⟨Entries.isSignalFree_insert h.free key hv.free, ?_⟩
  intro c hc
  rcases mem_closures_hash.1 hc with ⟨entry, hentry, hmem⟩
  rcases Entries.mem_insert hentry with rfl | hold
  · exact hv.functions c hmem
  · exact h.functions c (mem_closures_hash.2 ⟨entry, hold, hmem⟩)

end Tidy

/-- What may come out of code: a tidy value, on its own or returned, or an ordinary error; a break
only out of code in a loop. -/
inductive MayLeave (inLoop : Bool) : Value → Prop
  | value {v : Value} (tidy : v.Tidy) : MayLeave inLoop v
  | error {fault : Fault} (ordinary : fault.isOrdinary = true) : MayLeave inLoop (.error fault)
  | returned {v : Value} (tidy : v.Tidy) : MayLeave inLoop (.returned v)
  | broke (enclosed : inLoop = true) : MayLeave inLoop .broke

namespace MayLeave

variable {inLoop : Bool} {v : Value}

/-- What may leave code and is no signal is a tidy value. -/
theorem tidy (h : v.MayLeave inLoop) (quiet : ¬ v.isSignal = true) : v.Tidy := by
  cases h with
  | value tidy => exact tidy
  | error | returned | broke => exact absurd rfl quiet

/-- No break gets out of a loop. -/
theorem loopExit (h : v.MayLeave true) : v.loopExit.MayLeave inLoop := by
  cases h with
  | value tidy =>
      cases v with
      | broke => exact .value (.of_nil rfl rfl)
      | _ => exact .value tidy
  | error ordinary => exact .error ordinary
  | returned tidy => exact .returned tidy
  | broke => exact .value (.of_nil rfl rfl)

/-- Neither a return nor a break gets out of a function, and there is no break to begin with. -/
theorem settle (h : v.MayLeave false) : v.settle.MayLeave inLoop := by
  cases h with
  | value tidy =>
      cases v with
      | returned | broke => cases tidy.free
      | _ => exact .value tidy
  | error ordinary => exact .error ordinary
  | returned tidy => exact .value tidy
  | broke enclosed => cases enclosed

/-- What operators and host functions make of tidy values. -/
theorem of_plain (h : v.IsPlainAnswer) {vs : List Value} (hvs : ∀ w ∈ vs, w.Tidy)
    (made : v.MadeOf vs) : v.MayLeave inLoop := by
  rcases h with hfree | ⟨fault, rfl, hordinary⟩
  · refine .value ⟨hfree, ?_⟩
    intro c hc
    rcases made c hc with ⟨w, hw, hmem⟩
    exact (hvs w hw).functions c hmem
  · exact .error hordinary

end MayLeave

end Value

/-- A name has a tidy value, or it is unknown, which is an ordinary error. -/
theorem mayLeave_lookup {store : Store} (h : store.Binds Value.Tidy) (builtins : Builtins)
    (scope : Nat) (name : String) {inLoop : Bool} :
    (Eval.lookup builtins scope name store).MayLeave inLoop := by
  unfold Eval.lookup
  split
  · next hfind => exact .value (h.findFrom _ _ hfind)
  · split
    · exact .value (.of_nil rfl rfl)
    · exact .error rfl

/-! ## Runs -/

/-- From a store with tidy values, a run leads to such a store, and gives what may come out of code
inside or outside of a loop. -/
def Orderly (inLoop : Bool) (run : Run Value) : Prop :=
  ∀ ⦃store store' : Store⦄ ⦃v : Value⦄, store.Binds Value.Tidy → run store = some (v, store') →
    v.MayLeave inLoop ∧ store'.Binds Value.Tidy

namespace Orderly

variable {inLoop : Bool} {run test body : Run Value}

theorem pure {v : Value} (h : v.MayLeave inLoop) : Orderly inLoop (Pure.pure v) := by
  intro store store' w hstore eq
  cases eq
  exact ⟨h, hstore⟩

/-- An ordinary error may leave any code. -/
theorem error {fault : Fault} (ordinary : fault.isOrdinary = true) :
    Orderly inLoop (Pure.pure (.error fault)) :=
  .pure (.error ordinary)

/-- One orderly run after another is orderly. -/
theorem bind {within : Bool} {next : Value → Run Value} (first : Orderly within run)
    (second : ∀ v, v.MayLeave within → Orderly inLoop (next v)) :
    Orderly inLoop (run >>= next) := by
  intro store store' v hstore eq
  rcases Run.exists_of_bind_eq_some eq with ⟨w, store₁, hrun, hnext⟩
  rcases first hstore hrun with ⟨hw, hstore₁⟩
  exact second w hw hstore₁ hnext

/-- Only tidy values are gone on with, as everything else is a signal. -/
theorem andThen {next : Value → Run Value} (first : Orderly inLoop run)
    (second : ∀ v, v.Tidy → Orderly inLoop (next v)) : Orderly inLoop (run.andThen next) := by
  refine first.bind fun v hv => ?_
  split
  · exact .pure hv
  · next quiet => exact second v (hv.tidy quiet)

/-- What is orderly outside of loops is orderly anywhere once its signals have ended. -/
theorem settle (h : Orderly false run) :
    Orderly inLoop (do let v ← run; return v.settle) :=
  h.bind fun _ hv => .pure hv.settle

/-- Whatever a loop is in, its test and its body are in a loop. -/
theorem loop (htest : Orderly true test) (hbody : Orderly true body) (turns : Nat) :
    Orderly inLoop (Run.loop test body turns) := by
  induction turns with
  | zero =>
      intro store store' v hstore eq
      cases eq
  | succ turns ih =>
      refine htest.bind fun t ht => ?_
      split
      · exact .pure ht.loopExit
      · split
        · refine hbody.bind fun v hv => ?_
          split
          · exact .pure hv.loopExit
          · exact ih
        · exact .pure (.value (.of_nil rfl rfl))

end Orderly

/-! ## One level -/

/-- Evaluators whose runs are orderly wherever the rule is kept. -/
def Evaluator.IsOrderly (deeper : Evaluator) : Prop :=
  ∀ (node : Node) (scope : Nat) ⦃inLoop : Bool⦄, node.breaksEnclosed inLoop = true →
    Orderly inLoop (deeper node scope)

section Level

variable {inLoop : Bool}

/-- No host function makes a break, since none is given one. -/
theorem orderly_callNative {name : String} {native : Native}
    (hfind : Builtins.standard.find? name = some native) {args : List Value}
    (hargs : ∀ v ∈ args, v.Tidy) : Orderly inLoop (Eval.callNative native args) := by
  intro store store' v hstore eq
  cases eq
  have hplain := plain_standard hfind fun v hv => (hargs v hv).free
  have hmade : (native args).value.orNull.MadeOf args := by
    intro c hc
    rw [Value.closures_orNull] at hc
    exact conserves_standard hfind args c hc
  exact ⟨.of_plain hplain.orNull hargs hmade, hstore⟩

/-- Making a function runs nothing. -/
theorem orderly_makeClosure (params : List Ident) {body : Block}
    (h : body.breaksEnclosed false = true) (scope : Nat) :
    Orderly inLoop (Eval.makeClosure params body scope) := by
  intro store store' v hstore eq
  cases eq
  exact ⟨.value (.function h), hstore⟩

variable {deeper : Evaluator} (inner : deeper.IsOrderly)
include inner

/-- The body of a function is under the rule for code outside of loops, so a call is orderly
wherever it is made. -/
theorem orderly_callClosure {closure : Closure} (h : (Value.function closure).Tidy)
    {args : List Value} (hargs : ∀ v ∈ args, v.Tidy) :
    Orderly inLoop (Eval.callClosure deeper closure args) := by
  have hbody : closure.body.breaksEnclosed false = true := h.functions closure List.mem_cons_self
  by_cases hlength : args.length = closure.params.length
  · rw [Eval.callClosure_of_length closure hlength]
    intro store store' v hstore eq
    have hrun := inner (.stmt (.block closure.body)) store.scopes.size hbody
    exact hrun.settle (hstore.enter closure hargs) eq
  · rw [Eval.callClosure_of_length_ne closure hlength]
    exact .error rfl

/-- What follows a list of expressions is given tidy values only. -/
theorem orderly_exprs (scope : Nat) {found : List Value} (hfound : ∀ v ∈ found, v.Tidy)
    {es : List Expr} (enclosed : ∀ e ∈ es, e.breaksEnclosed inLoop = true)
    {next : List Value → Run Value}
    (hnext : ∀ values, (∀ v ∈ values, v.Tidy) → Orderly inLoop (next values)) :
    Orderly inLoop ((Eval.exprs deeper scope found es).andThenAll next) := by
  induction es generalizing found with
  | nil =>
      rw [Eval.exprs_nil_andThenAll]
      exact hnext _ fun v hv => hfound v (List.mem_reverse.1 hv)
  | cons e rest ih =>
      rcases List.forall_mem_cons.1 enclosed with ⟨hfirst, hrest⟩
      rw [Eval.exprs_cons_andThenAll]
      refine (inner (.expr e) scope hfirst).andThen fun v hv => ?_
      exact ih (List.forall_mem_cons.2 ⟨hv, hfound⟩) hrest

/-- Statements are orderly if each keeps to the rule on breaks. -/
theorem orderly_stmts (scope : Nat) {last : Value} (hlast : last.Tidy) {sts : List Stmt}
    (enclosed : ∀ st ∈ sts, st.breaksEnclosed inLoop = true) :
    Orderly inLoop (Eval.stmts deeper scope last sts) := by
  induction sts generalizing last with
  | nil => exact .pure (.value hlast)
  | cons st rest ih =>
      rcases List.forall_mem_cons.1 enclosed with ⟨hfirst, hrest⟩
      exact (inner (.stmt st) scope hfirst).andThen fun v hv => ih hv hrest

theorem orderly_pairs (scope : Nat) {entries : Entries} (hentries : (Value.hash entries).Tidy)
    {pairs : List (Expr × Expr)}
    (enclosed : ∀ pair ∈ pairs,
      pair.1.breaksEnclosed inLoop = true ∧ pair.2.breaksEnclosed inLoop = true) :
    Orderly inLoop (Eval.pairs deeper scope entries pairs) := by
  induction pairs generalizing entries with
  | nil => exact .pure (.value hentries)
  | cons pair rest ih =>
      rcases pair with ⟨key, value⟩
      rcases List.forall_mem_cons.1 enclosed with ⟨⟨hkey, hvalue⟩, hrest⟩
      refine (inner (.expr key) scope hkey).andThen fun k _ => ?_
      split
      · exact .error rfl
      · next key _ =>
          refine (inner (.expr value) scope hvalue).andThen fun v hv => ?_
          exact ih (hentries.insert key hv) hrest

variable {machine : Machine} (standard : machine.builtins = .standard)
include standard

/-- A call of a tidy value with tidy arguments is orderly. -/
theorem orderly_apply {callee : Value} (hcallee : callee.Tidy) {args : List Value}
    (hargs : ∀ v ∈ args, v.Tidy) : Orderly inLoop (Eval.apply machine deeper callee args) := by
  cases callee with
  | function closure => exact orderly_callClosure inner hcallee hargs
  | builtin builtin =>
      unfold Eval.apply
      simp only [standard]
      cases hfind : Builtins.standard.find? builtin.name with
      | none => exact .error rfl
      | some native => exact orderly_callNative hfind hargs
  | _ => exact .error rfl

theorem orderly_call (scope : Nat) {callee : Expr} (hcallee : callee.breaksEnclosed inLoop = true)
    {args : List Expr} (hargs : ∀ e ∈ args, e.breaksEnclosed inLoop = true) :
    Orderly inLoop (Eval.call machine deeper scope callee args) := by
  unfold Eval.call
  cases hname : Eval.native? machine callee with
  | none =>
      refine (inner (.expr callee) scope hcallee).andThen fun f hf => ?_
      refine orderly_exprs inner scope (List.forall_mem_nil _) hargs ?_
      intro values hvalues
      exact orderly_apply inner standard hf hvalues
  | some native =>
      -- Only a name is looked up in the table.
      cases callee with
      | ident id =>
          have hfind : Builtins.standard.find? id.name = some native := standard ▸ hname
          refine orderly_exprs inner scope (List.forall_mem_nil _) hargs ?_
          intro values hvalues
          exact orderly_callNative hfind hvalues
      | _ => cases hname

omit standard in
/-- A statement that keeps to the rule on breaks is orderly. -/
theorem orderly_stmt (scope : Nat) {st : Stmt} (enclosed : st.breaksEnclosed inLoop = true) :
    Orderly inLoop (Eval.stmt deeper scope st) := by
  cases st with
  | define _ name value =>
      refine (inner (.expr value) scope enclosed).andThen fun v hv => ?_
      intro store store' w hstore eq
      cases eq
      exact ⟨.value (.of_nil rfl rfl), hstore.bind hv scope name.name⟩
  | returnNothing => exact .pure (.returned (.of_nil rfl rfl))
  | returnValue _ value =>
      exact (inner (.expr value) scope enclosed).andThen fun v hv => .pure (.returned hv)
  | breakLoop => exact .pure (.broke enclosed)
  | expr _ value => exact inner (.expr value) scope enclosed
  | block body =>
      rcases body with ⟨token, stmts⟩
      exact orderly_stmts inner scope (.of_nil rfl rfl) (stmtsBreaksEnclosed_iff.1 enclosed)

/-- So is an expression that keeps to it. -/
theorem orderly_expr (scope : Nat) {e : Expr} (enclosed : e.breaksEnclosed inLoop = true) :
    Orderly inLoop (Eval.expr machine deeper scope e) := by
  -- The rule for an expression is the rule for all of its parts.
  cases e <;> simp only [Expr.breaksEnclosed, Bool.and_eq_true] at enclosed
  case ident id =>
      intro store store' v hstore eq
      cases eq
      exact ⟨mayLeave_lookup hstore machine.builtins scope id.name, hstore⟩
  case int | str | bool | missing => exact .pure (.value (.of_nil rfl rfl))
  case bad => exact .error rfl
  case unary op operand =>
      refine (inner (.expr operand) scope enclosed).andThen fun v _ => .pure ?_
      exact .of_plain (plain_evalUnary op v) (List.forall_mem_nil _)
        (.of_nil (closures_evalUnary op v))
  case binary op left right =>
      refine (inner (.expr left) scope enclosed.1).andThen fun l _ => ?_
      refine (inner (.expr right) scope enclosed.2).andThen fun r _ => .pure ?_
      exact .of_plain (plain_evalBinary op l r) (List.forall_mem_nil _)
        (.of_nil (closures_evalBinary op l r))
  case ifThen test yes =>
      refine (inner (.expr test) scope enclosed.1).andThen fun t _ => ?_
      split
      · exact inner (.stmt (.block yes)) scope enclosed.2
      · exact .pure (.value (.of_nil rfl rfl))
  case ifElse test yes no =>
      refine (inner (.expr test) scope enclosed.1.1).andThen fun t _ => ?_
      split
      · exact inner (.stmt (.block yes)) scope enclosed.1.2
      · exact inner (.stmt (.block no)) scope enclosed.2
  case whileDo test body =>
      exact .loop (inner (.expr test) scope enclosed.1)
        (inner (.stmt (.block body)) scope enclosed.2) machine.turns
  case function params body => exact orderly_makeClosure params enclosed scope
  case call callee args =>
      exact orderly_call inner standard scope enclosed.1 (exprsBreaksEnclosed_iff.1 enclosed.2)
  case array items =>
      refine orderly_exprs inner scope (List.forall_mem_nil _)
        (exprsBreaksEnclosed_iff.1 enclosed) ?_
      intro values hvalues
      exact .pure (.value (.array hvalues))
  case hash pairs =>
      exact orderly_pairs inner scope (.of_nil rfl rfl) (pairsBreaksEnclosed_iff.1 enclosed)
  case index target key =>
      refine (inner (.expr target) scope enclosed.1).andThen fun t ht => ?_
      refine (inner (.expr key) scope enclosed.2).andThen fun k _ => .pure ?_
      have htarget : ∀ w ∈ [t], w.Tidy := List.forall_mem_singleton.2 ht
      exact .of_plain (plain_evalIndex ht.free k) htarget (madeOf_evalIndex t k)

/-- Orderly evaluators make orderly evaluators of the next level. -/
theorem orderly_evalLevel : (evalLevel machine deeper).IsOrderly := by
  intro node scope inLoop enclosed
  cases node with
  | stmt st => exact orderly_stmt inner scope enclosed
  | expr e => exact orderly_expr inner standard scope enclosed

end Level

/-! ## All levels -/

/-- Evaluation is orderly with any number of levels. -/
theorem orderly_eval {machine : Machine} (standard : machine.builtins = .standard) (levels : Nat) :
    (eval machine levels).IsOrderly := by
  induction levels with
  | zero => exact fun _ _ _ _ => .error rfl
  | succ levels ih => exact orderly_evalLevel ih standard

/-- So is a program as a whole. -/
theorem orderly_evalProgram {machine : Machine} (standard : machine.builtins = .standard)
    (levels : Nat) {program : Program} (enclosed : program.breaksEnclosed = true) (scope : Nat)
    {inLoop : Bool} : Orderly inLoop (evalProgram machine levels program scope) := by
  cases levels with
  | zero => exact .error rfl
  | succ levels =>
      have hstmts := stmtsBreaksEnclosed_iff.1 enclosed
      exact (orderly_stmts (orderly_eval standard levels) scope (.of_nil rfl rfl) hstmts).settle

/-- A program in which every break lies in a loop of the same function, or of no function, does not
end with a break that had no loop to leave, however many levels and turns it may take. -/
theorem breaks_stay_in_loops {program : Program} (enclosed : program.breaksEnclosed = true)
    {turns levels : Nat} {v : Value} {store : Store}
    (eq : evalProgram ⟨.standard, turns⟩ levels program Store.global .initial = some (v, store)) :
    ∀ fault, v = .error fault → fault.message ≠ "break outside loop" := by
  intro fault hv
  have horderly : Orderly false (evalProgram ⟨.standard, turns⟩ levels program Store.global) :=
    orderly_evalProgram rfl levels enclosed Store.global
  have hleaves := (horderly (.initial _) eq).1
  rw [hv] at hleaves
  cases hleaves with
  | value tidy => cases tidy.free
  | error ordinary => exact Fault.message_ne ordinary

/-- A function with a loop and a break of its own is made in one loop, kept in an array and called
in another loop. Its result cannot be divided. -/
theorem breaks_stay_in_loops_kept_function :
    let t : Token := ⟨.eof, "", .start⟩
    let name (text : String) : Expr := .ident ⟨t, text⟩
    let block (stmts : List Stmt) : Block := .mk t stmts
    let quit : Stmt := .breakLoop t
    let f : Expr := .function t [⟨t, "x"⟩]
      (block [.expr t (.whileDo t (name "x") (block [.expr t (.array t
        [.ifThen t (name "x") (block [quit])])]))])
    let call : Expr := .call t (.index t (name "fs") (.int t 0)) [.bool t true]
    let program : Program := ⟨[
      .expr t (.whileDo t (.bool t true) (block [.define t ⟨t, "fs"⟩ (.array t [f]), quit])),
      .expr t (.whileDo t (.bool t true) (block [.expr t (.binary t .div call (.int t 2)), quit]))]⟩
    program.breaksEnclosed = true ∧
      ∃ fault store, evalProgram ⟨.standard, 1⟩ 18 program Store.global .initial =
        some (.error fault, store) ∧ fault.message ≠ "break outside loop" := by
  intro t name block quit f call program
  have henclosed : program.breaksEnclosed = true := rfl
  have hrun : ∃ store, evalProgram ⟨.standard, 1⟩ 18 program Store.global .initial =
      some (.error (.typeMismatch .div .null .integer), store) := ⟨_, rfl⟩
  rcases hrun with ⟨store, eq⟩
  exact ⟨henclosed, _, store, eq, breaks_stay_in_loops henclosed eq _ rfl⟩

end Scriptlet
