import Scriptlet.Proofs.Eval.Discipline

/-!
# Evaluation without loops

Only a loop can go on for ever: the number of levels limits calls, whatever is called. The code of a
call comes from a function, and functions come from the store, so it is not enough that a program
has no loops. No function that can be reached from its scope may have one either; other functions in
the store do not matter.

- `Expr.isLoop` : loops
- `Store.Visible` : the scopes that can be reached from a scope
- `Store.InReach` : these, and the scopes that come about during a run
- `Store.LoopFreeFrom` : no function that can be reached from a scope has a loop
- `evalProgram_of_loopFree` : there is an outcome, however many turns loops may take
-/

namespace Scriptlet

def Expr.isLoop : Expr → Bool
  | .whileDo .. => true
  | _ => false

namespace Store

/-- The scopes that can be reached from the one with the given number: that one, those around them,
and those of the functions that are bound in them, also inside of arrays and hashes. -/
inductive Visible (store : Store) (start : Nat) : Nat → Prop
  | here : Visible store start start
  | outer {id outer : Nat} {scope : Scope} (visible : Visible store start id)
      (eq : store.scopes[id]? = some scope) (link : scope.outer = some outer) :
      Visible store start outer
  | captured {id : Nat} {scope : Scope} {var : String × Value} {c : Closure}
      (visible : Visible store start id) (eq : store.scopes[id]? = some scope)
      (bound : var ∈ scope.vars) (mem : c ∈ var.2.closures) : Visible store start c.scope

/-- The scopes that a run may use: those that can be reached from the one where it starts, and those
that come about during the run. -/
def InReach (store : Store) (start id : Nat) : Prop :=
  store.Visible start id ∨ store.scopes.size ≤ id

/-- Every scope that is still to come about counts as in reach. -/
theorem inReach_new {store : Store} (start : Nat) {id : Nat} (le : store.scopes.size ≤ id) :
    store.InReach start id :=
  .inr le

/-- A scope of the store is not one that is still to come about. -/
theorem InReach.visible {store : Store} {start id : Nat} {scope : Scope}
    (h : store.InReach start id) (eq : store.scopes[id]? = some scope) :
    store.Visible start id := by
  rcases h with hvisible | hle
  · exact hvisible
  · exact absurd (Array.getElem?_eq_some_iff.1 eq).1 (Nat.not_lt.2 hle)

/-- No function that is bound in a scope that can be reached has a loop in it. -/
def LoopFreeFrom (store : Store) (start : Nat) : Prop :=
  ∀ ⦃id : Nat⦄ ⦃scope : Scope⦄, store.Visible start id → store.scopes[id]? = some scope →
    ∀ var ∈ scope.vars, ∀ c ∈ var.2.closures, ∀ e ∈ c.body.exprs, e.isLoop = false

end Store

namespace Discipline

/-- No loop may be evaluated. The scopes that may be used can be reached from the one where the run
starts, or come about during the run. -/
def loopFree (store : Store) (start : Nat) : Discipline where
  allowed e := e.isLoop = false
  usable _ id := store.Visible start id ∨ store.scopes.size ≤ id
  around _ outer := store.Visible start outer ∨ store.scopes.size ≤ outer
  base := store.scopes.size
  usable_mono _ usable := usable
  usable_old _ usable := usable
  usable_new le := .inr le
  usable_outer _ around := around
  around_new _ usable := usable

variable {store store' : Store} {start : Nat}

/-- The discipline leaves no loop to evaluate. -/
theorem not_hasLoops_loopFree : ¬ (loopFree store start).HasLoops := by
  rintro ⟨token, test, body, hallowed⟩
  cases hallowed

/-- The run starts in order. -/
theorem keeps_loopFree (free : store.LoopFreeFrom start) : (loopFree store start).Keeps store := by
  refine ⟨Nat.le_refl _, ?_, ?_⟩
  · intro id outer scope usable eq link
    exact .inl ((Store.InReach.visible usable eq).outer eq link)
  · intro id scope var usable eq mem c hc
    have hid := Store.InReach.visible usable eq
    exact ⟨free hid eq var mem c hc, .inl (hid.captured eq mem hc)⟩

/-- A store in order has no loops to offer to a scope that may be used. -/
theorem Keeps.loopFreeFrom (h : (loopFree store start).Keeps store') {id : Nat}
    (usable : (loopFree store start).usable store'.scopes.size id) : store'.LoopFreeFrom id := by
  intro id' scope visible eq var mem c hc
  -- What can be reached from a scope that may be used may be used as well.
  have husable : (loopFree store start).usable store'.scopes.size id' := by
    clear eq
    induction visible with
    | here => exact usable
    | outer _ eq link ih => exact h.outer ih eq link
    | captured _ eq mem hc ih => exact (h.bound ih eq mem _ hc).2
  exact (h.bound husable eq mem c hc).1

/-- Without loops, the number of their turns makes no difference between machines. -/
theorem machines_loopFree (turns turns' : Nat) :
    (loopFree store start).Machines ⟨.standard, turns⟩ ⟨.standard, turns'⟩ :=
  ⟨rfl, fun loops => absurd loops not_hasLoops_loopFree, conserves_standard⟩

end Discipline

/-- A program without loops, in a scope from where no loop can be reached, has an outcome with any
number of levels, and it is the same however many turns loops may take. No loop can be reached
behind it either, from that scope or from a function in the outcome. -/
theorem evalProgram_of_loopFree {program : Program} (plain : ∀ e ∈ program.exprs, e.isLoop = false)
    {store : Store} {scope : Nat} (free : store.LoopFreeFrom scope) (levels : Nat) :
    ∃ v store', (∀ turns, evalProgram ⟨.standard, turns⟩ levels program scope store =
        some (v, store')) ∧ store'.LoopFreeFrom scope ∧
      ∀ c ∈ v.closures, (∀ e ∈ c.body.exprs, e.isLoop = false) ∧ store'.LoopFreeFrom c.scope := by
  let d := Discipline.loopFree store scope
  have husable (n : Nat) : d.usable n scope := .inl .here
  have hsound (turns : Nat) := Discipline.sound_evalProgram
    (Discipline.machines_loopFree 0 turns) levels (husable store.scopes.size) plain
    (Nat.le_refl _) (Discipline.keeps_loopFree free)
  -- With no turns at all there is an outcome already, as no loop is met.
  rcases hrun : evalProgram ⟨.standard, 0⟩ levels program scope store with _ | ⟨v, store'⟩
  · exact absurd ((hsound 0).2.ends hrun) Discipline.not_hasLoops_loopFree
  · rcases (hsound 0).2.keeps hrun with ⟨-, hkeeps, hadmits⟩
    refine ⟨v, store', fun turns => (hsound turns).1.trans hrun, hkeeps.loopFreeFrom (husable _), ?_⟩
    intro c hc
    exact ⟨(hadmits c hc).1, hkeeps.loopFreeFrom (hadmits c hc).2⟩

/-- Two functions in a hash that call each other for ever, each passed to the other one, beside a
scope with a function that has a loop and that nothing leads to. -/
theorem evalProgram_of_loopFree_mutual :
    let t : Token := ⟨.eof, "", .start⟩
    let pick (name : String) : Expr := .index t (.ident ⟨t, "h"⟩) (.str t name)
    let swap (name : String) : Block := .mk t [.returnValue t (.call t (pick name)
      [.array t [.ident ⟨t, "x"⟩]])]
    let f : Value := .function ⟨0, [⟨t, "x"⟩], swap "g", 0⟩
    let g : Value := .function ⟨1, [⟨t, "x"⟩], swap "f", 0⟩
    let endless : Value := .function ⟨2, [], .mk t [.expr t (.whileDo t (.bool t true) (.mk t []))], 1⟩
    let store : Store := ⟨#[⟨none, [("h", .hash [(.str "f", f), (.str "g", g)])]⟩,
      ⟨some 0, [("endless", endless)]⟩], 3, #[]⟩
    let program : Program := ⟨[.expr t (.call t (pick "f") [pick "g"])]⟩
    (∀ e ∈ program.exprs, e.isLoop = false) ∧ store.LoopFreeFrom 0 ∧
      ∃ store', (∀ turns, evalProgram ⟨.standard, turns⟩ 9 program 0 store =
        some (.error .recursionLimit, store')) ∧ store'.LoopFreeFrom 0 := by
  intro t pick swap f g endless store program
  have hplain : ∀ e ∈ program.exprs, e.isLoop = false := by
    decide
  -- Both functions that are bound in the global scope were made there.
  have hcaptured : ∀ scope ∈ store.scopes[0]?, ∀ var ∈ scope.vars, ∀ c ∈ var.2.closures,
      c.scope = 0 := by
    decide
  have hcode : ∀ scope ∈ store.scopes[0]?, ∀ var ∈ scope.vars, ∀ c ∈ var.2.closures,
      ∀ e ∈ c.body.exprs, e.isLoop = false := by
    decide
  have hvisible {id : Nat} (h : store.Visible 0 id) : id = 0 := by
    induction h with
    | here => rfl
    | outer _ eq link ih =>
        subst ih
        cases eq
        cases link
    | captured _ eq bound mem ih =>
        subst ih
        exact hcaptured _ eq _ bound _ mem
  have hfree : store.LoopFreeFrom 0 := by
    intro id scope visible eq
    cases hvisible visible
    exact hcode scope eq
  rcases evalProgram_of_loopFree hplain hfree 9 with ⟨v, store', hruns, hafter, -⟩
  have hlimit : (evalProgram ⟨.standard, 0⟩ 9 program 0 store).map Prod.fst =
      some (.error .recursionLimit) := by
    rfl
  rw [hruns 0] at hlimit
  cases hlimit
  exact ⟨hplain, hfree, store', hruns, hafter⟩

end Scriptlet
