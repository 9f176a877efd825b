import Scriptlet.Proofs.Eval.Lockstep
import Scriptlet.Proofs.Tree

/-!
# Scopes and code under a discipline

Some facts about evaluation hold only of stores that are in order: functions lie in scopes and point
to scopes, and what they do when they are called depends on their code and on what lies there. A
discipline says which expressions may be evaluated, which scopes may be used and which scope may lie
around which. Where a store keeps to it, so does every store that evaluation leads to, and every
function that evaluation gives.

Two evaluations are compared, so that one of them may be watched or have other limits. They go in
lockstep, with the same store all the time.

- `Discipline` : which expressions and scopes may be used
- `Discipline.Keeps` : stores in which all scopes that may be used are in order
- `Discipline.Sound` : two runs that do the same in such stores, and keep them so
- `Discipline.lockstep` : a discipline as a case of two linked evaluations
- `Discipline.sound_evalLevel` : one level of evaluation
- `Discipline.sound_evalProgram` : all levels of a program
-/

namespace Scriptlet

/-- What may be used in a run. The number of scopes grows, and with it the scopes that may be used;
those that were there before are judged as before. -/
structure Discipline where
  allowed : Expr → Prop
  usable : Nat → Nat → Prop
  around : Nat → Nat → Prop
  base : Nat
  usable_mono {n m id : Nat} : n ≤ m → usable n id → usable m id
  usable_old {n m id : Nat} : id < n → usable m id → usable n id
  usable_new {n : Nat} : base ≤ n → usable (n + 1) n
  usable_outer {n id outer : Nat} : usable n id → around id outer → usable n outer
  around_new {n outer : Nat} : base ≤ n → usable n outer → around n outer

def Node.exprs : Node → List Expr
  | .stmt st => st.exprs
  | .expr e => e :: e.inner

namespace Discipline

variable (d : Discipline)

/-- Whether all expressions of a tree may be evaluated. -/
def Permits (es : List Expr) : Prop :=
  ∀ e ∈ es, d.allowed e

/-- Whether every function in a value may be called where there are `n` scopes. -/
def Admits (n : Nat) (v : Value) : Prop :=
  ∀ c ∈ v.closures, d.Permits c.body.exprs ∧ d.usable n c.scope

/-- Stores in which every scope that may be used binds admitted values and lies in a scope that may
lie around it. -/
structure Keeps (store : Store) : Prop where
  base : d.base ≤ store.scopes.size
  outer {id outer : Nat} {scope : Scope} (usable : d.usable store.scopes.size id)
    (eq : store.scopes[id]? = some scope) (link : scope.outer = some outer) : d.around id outer
  bound {id : Nat} {scope : Scope} {var : String × Value}
    (usable : d.usable store.scopes.size id) (eq : store.scopes[id]? = some scope)
    (mem : var ∈ scope.vars) : d.Admits store.scopes.size var.2

/-- Whether some loop may be evaluated. -/
def HasLoops : Prop :=
  ∃ token test body, d.allowed (.whileDo token test body)

variable {d}

/-- A value without functions is admitted everywhere. -/
theorem Admits.of_nil {n : Nat} {v : Value} (h : v.closures = []) : d.Admits n v := by
  intro c hc
  rw [h] at hc
  cases hc

/-! ## Runs -/

/-- What may come out of a run that starts with `n` scopes. Without loops there is an outcome. -/
structure Allows (d : Discipline) (n : Nat) (outcome : Option (Value × Store)) : Prop where
  ends (eq : outcome = none) : d.HasLoops
  keeps {v : Value} {store : Store} (eq : outcome = some (v, store)) :
    n ≤ store.scopes.size ∧ d.Keeps store ∧ d.Admits store.scopes.size v

/-- Two runs that do the same in stores that keep to the discipline, from `n` scopes on. -/
def Sound (d : Discipline) (n : Nat) (run run' : Run Value) : Prop :=
  ∀ ⦃store : Store⦄, n ≤ store.scopes.size → d.Keeps store →
    run' store = run store ∧ d.Allows store.scopes.size (run store)

/-- Two machines with the same host functions, which make no functions. Loops may take other numbers
of turns only where there are none. -/
structure Machines (d : Discipline) (machine machine' : Machine) : Prop where
  builtins : machine'.builtins = machine.builtins
  turns : d.HasLoops → machine'.turns = machine.turns
  conserves {name : String} {native : Native} (h : machine.builtins.find? name = some native) :
    native.Conserves

/-- Two evaluators that do the same, wherever nodes and scopes may be used. -/
def Evaluators (d : Discipline) (deeper deeper' : Evaluator) : Prop :=
  ∀ (node : Node) (scope : Nat) ⦃n : Nat⦄, d.usable n scope → d.Permits node.exprs →
    d.Sound n (deeper node scope) (deeper' node scope)

/-! ## In lockstep -/

/-- Statements may be evaluated just if each of them may. -/
theorem permits_stmts {sts : List Stmt} :
    d.Permits (exprsInStmts sts) ↔ ∀ st ∈ sts, d.Permits st.exprs := by
  rw [exprsInStmts_eq_flatMap]
  exact List.forall_mem_flatMap

/-- The same for expressions. -/
theorem permits_list {es : List Expr} :
    d.Permits (exprsInList es) ↔ ∀ e ∈ es, d.Permits (e :: e.inner) := by
  rw [exprsInList_eq_flatMap]
  exact List.forall_mem_flatMap

/-- The same for the entries of a hash literal. -/
theorem permits_pairs {pairs : List (Expr × Expr)} :
    d.Permits (exprsInPairs pairs) ↔ ∀ pair ∈ pairs, d.Permits (exprsInPair pair) := by
  rw [exprsInPairs_eq_flatMap]
  exact List.forall_mem_flatMap

/-- With a node, all nodes that its evaluation may lead to may be evaluated. -/
theorem Permits.parts {machine : Machine} {node : Node} (h : d.Permits node.exprs) :
    ∀ part ∈ node.parts machine, d.Permits part.exprs := by
  cases node with
  | stmt st =>
      cases st with
      | define | returnValue | expr => exact List.forall_mem_singleton.2 h
      | returnNothing | breakLoop => exact List.forall_mem_nil _
      | block body =>
          cases body with
          | mk _ stmts => exact List.forall_mem_map.2 (permits_stmts.1 h)
  | expr e =>
      rcases List.forall_mem_cons.1 h with ⟨-, hinner⟩
      cases e with
      | ident | int | str | bool | bad | missing => exact List.forall_mem_nil _
      | unary | function => exact List.forall_mem_singleton.2 hinner
      | binary | ifThen | whileDo | index =>
          rcases List.forall_mem_append.1 hinner with ⟨hfirst, hsecond⟩
          exact List.forall_mem_cons.2 ⟨hfirst, List.forall_mem_singleton.2 hsecond⟩
      | ifElse =>
          rcases List.forall_mem_append.1 hinner with ⟨htest, hblocks⟩
          rcases List.forall_mem_append.1 hblocks with ⟨hyes, hno⟩
          exact List.forall_mem_cons.2 ⟨htest,
            List.forall_mem_cons.2 ⟨hyes, List.forall_mem_singleton.2 hno⟩⟩
      | call _ callee args =>
          rcases List.forall_mem_append.1 hinner with ⟨hcallee, hargs⟩
          refine List.forall_mem_append.2 ⟨?_, List.forall_mem_map.2 (permits_list.1 hargs)⟩
          split
          · exact List.forall_mem_nil _
          · exact List.forall_mem_singleton.2 hcallee
      | array _ items => exact List.forall_mem_map.2 (permits_list.1 hinner)
      | hash _ pairs =>
          refine List.forall_mem_flatMap.2 ?_
          rintro ⟨key, value⟩ hpair
          rcases List.forall_mem_append.1 (permits_pairs.1 hinner _ hpair) with ⟨hkey, hvalue⟩
          exact List.forall_mem_cons.2 ⟨hkey, List.forall_mem_singleton.2 hvalue⟩

section Lockstep

variable {machine machine' : Machine} (machines : d.Machines machine machine')

/-- Under a discipline two evaluations have the same store all the time. -/
def lockstep : Lockstep machine machine' where
  permits node := d.Permits node.exprs
  loops := d.HasLoops
  usable := d.usable
  around := d.around
  base := d.base
  link store store' := store' = store
  builtins := machines.builtins
  conserves := machines.conserves
  turns := machines.turns
  permits_loop permits := ⟨_, _, _, permits _ List.mem_cons_self⟩
  permits_parts := Permits.parts
  usable_mono := d.usable_mono
  usable_old := d.usable_old
  usable_new := d.usable_new
  usable_outer := d.usable_outer
  around_new := d.around_new
  link_size link := by rw [link]
  link_closures link := by rw [link]
  link_find _ link _ := by rw [link]
  link_print _ link := by rw [link]
  link_countClosure link := by rw [link]
  link_define _ _ link _ := by rw [link]
  link_enter _ _ link _ := by rw [link]

theorem keeps_lockstep {store : Store} : (lockstep machines).Keeps store ↔ d.Keeps store :=
  ⟨fun h => ⟨h.base, h.outer, h.bound⟩, fun h => ⟨h.base, h.outer, h.bound⟩⟩

variable {n : Nat} {run run' : Run Value}

/-- What goes together in the lockstep of a discipline keeps to the discipline. -/
theorem sound_of_together (h : (lockstep machines).Together n run run') : d.Sound n run run' := by
  intro store size keeps
  have houtcomes := h size ((keeps_lockstep machines).2 keeps) rfl
  generalize run store = outcome at houtcomes ⊢
  generalize run' store = outcome' at houtcomes ⊢
  cases houtcomes with
  | none loops => exact ⟨rfl, fun _ => loops, by simp⟩
  | some le keeps' link admits =>
      cases link
      refine ⟨rfl, by simp, ?_⟩
      intro w store' eq
      cases eq
      exact ⟨le, (keeps_lockstep machines).1 keeps', admits⟩

/-- What keeps to the discipline goes together in its lockstep. -/
theorem together_of_sound (h : d.Sound n run run') : (lockstep machines).Together n run run' := by
  intro store store' size keeps link
  cases link
  rcases h size ((keeps_lockstep machines).1 keeps) with ⟨heq, hallows⟩
  rw [heq]
  rcases hrun : run store with _ | ⟨v, store'⟩
  · exact .none (hallows.ends hrun)
  · rcases hallows.keeps hrun with ⟨hle, hkeeps, hadmits⟩
    exact .some hle ((keeps_lockstep machines).2 hkeeps) rfl hadmits

variable {deeper deeper' : Evaluator}

theorem evaluators_lockstep (inner : d.Evaluators deeper deeper') :
    (lockstep machines).Evaluators deeper deeper' :=
  fun node scope _ usable permits =>
    together_of_sound machines (inner node scope usable permits)

include machines

theorem Sound.error (fault : Fault) :
    d.Sound n (Pure.pure (.error fault)) (Pure.pure (.error fault)) :=
  sound_of_together machines (.error fault)

theorem Sound.settle (h : d.Sound n run run') :
    d.Sound n (do let v ← run; return v.settle) (do let v ← run'; return v.settle) :=
  sound_of_together machines (together_of_sound machines h).settle

/-- Statements that may be evaluated keep to the discipline. -/
theorem sound_stmts (inner : d.Evaluators deeper deeper') {scope : Nat} (usable : d.usable n scope)
    {last : Value} (hlast : d.Admits n last) {sts : List Stmt}
    (permits : d.Permits (exprsInStmts sts)) :
    d.Sound n (Eval.stmts deeper scope last sts) (Eval.stmts deeper' scope last sts) :=
  sound_of_together machines (Lockstep.together_stmts (evaluators_lockstep machines inner) usable
    hlast (permits_stmts.1 permits))

/-- Evaluators that do the same and keep to the discipline make such evaluators of the next
level. -/
theorem sound_evalLevel (inner : d.Evaluators deeper deeper') :
    d.Evaluators (evalLevel machine deeper) (evalLevel machine' deeper') := by
  intro node scope n usable permits
  have hinner := evaluators_lockstep machines inner
  exact sound_of_together machines (Lockstep.together_evalLevel hinner node scope usable permits)

/-- A program that may be evaluated keeps to the discipline. -/
theorem sound_evalProgram (levels : Nat) {program : Program} {scope : Nat}
    (usable : d.usable n scope) (permits : d.Permits program.exprs) :
    d.Sound n (evalProgram machine levels program scope)
      (evalProgram machine' levels program scope) :=
  sound_of_together machines (Lockstep.together_evalProgram levels usable (permits_stmts.1 permits))

end Lockstep

end Discipline

end Scriptlet
