import Scriptlet.Proofs.Eval.Congruence
import Scriptlet.Proofs.Eval.Containment

/-!
# What evaluation leaves alone

Evaluating a node in a scope adds bindings to that scope, makes new scopes and prints lines. All
other scopes stay as they are, whoever holds a function that was made in them: a function is run in
a scope of its own, which is made when it is called.

- `Store.Extends` : stores with more scopes and lines, and nothing changed in the old ones
- `Store.Frame` : stores that differ from an earlier one in a single scope besides
- `Keeps` : runs that lead to such stores
- `keeps_eval`, `keeps_evalProgram` : evaluation does
- `eval_frame` : the same of nodes, programs and calls
-/

namespace Scriptlet

/-! ## Scopes with more bindings -/

/-- A scope after some bindings. No name is taken out of it. -/
structure Scope.Grows (scope scope' : Scope) : Prop where
  outer : scope'.outer = scope.outer
  bound {name : String} (h : (scope.get? name).isSome) : (scope'.get? name).isSome

namespace Scope

variable {scope scope₁ scope₂ : Scope}

theorem Grows.refl (scope : Scope) : scope.Grows scope :=
  ⟨rfl, id⟩

theorem Grows.trans (first : scope.Grows scope₁) (second : scope₁.Grows scope₂) :
    scope.Grows scope₂ :=
  ⟨second.outer.trans first.outer, fun h => second.bound (first.bound h)⟩

/-- A binding is found under its own name, and leaves the others where they are. -/
theorem lookup_bindIn (name : String) (v : Value) (vars : List (String × Value)) (other : String) :
    (bindIn name v vars).lookup other = if other = name then some v else vars.lookup other := by
  induction vars with
  | nil =>
      simp only [bindIn, List.lookup_cons, List.lookup_nil]
      by_cases hname : other = name
      · simp [hname]
      · simp [hname, beq_eq_false_iff_ne.2 hname]
  | cons entry rest ih =>
      rcases entry with ⟨key, old⟩
      simp only [bindIn]
      by_cases hkey : key = name
      · -- The binding is replaced, so no other name is affected.
        subst hkey
        rw [if_pos rfl, List.lookup_cons, List.lookup_cons]
        by_cases hname : other = key
        · simp [hname]
        · simp [hname, beq_eq_false_iff_ne.2 hname]
      · rw [if_neg hkey, List.lookup_cons, List.lookup_cons, ih]
        by_cases hother : other = key
        · simp [hother, hkey]
        · simp [beq_eq_false_iff_ne.2 hother]

/-- The same in a scope. -/
theorem get?_bind (scope : Scope) (name : String) (v : Value) (other : String) :
    (scope.bind name v).get? other = if other = name then some v else scope.get? other :=
  lookup_bindIn name v scope.vars other

/-- Binding a name takes none out of the scope. -/
theorem grows_bind (scope : Scope) (name : String) (v : Value) :
    scope.Grows (scope.bind name v) := by
  refine ⟨rfl, ?_⟩
  intro other h
  rw [get?_bind]
  split
  · rfl
  · exact h

end Scope

/-! ## Stores -/

namespace Store

variable {store store₁ store₂ : Store} {scope : Nat}

/-- A store with all that was there before: the old scopes unchanged, and the old lines in front. -/
structure Extends (store store' : Store) : Prop where
  scopes : ∀ id < store.scopes.size, store'.scopes[id]? = store.scopes[id]?
  size : store.scopes.size ≤ store'.scopes.size
  printed : store.printed.toList <+: store'.printed.toList

/-- A store with all that was there before, but for bindings that were added to one scope. -/
structure Frame (scope : Nat) (store store' : Store) : Prop where
  others : ∀ id < store.scopes.size, id ≠ scope → store'.scopes[id]? = store.scopes[id]?
  own {s : Scope} (h : store.scopes[scope]? = some s) :
    ∃ s', store'.scopes[scope]? = some s' ∧ s.Grows s'
  size : store.scopes.size ≤ store'.scopes.size
  printed : store.printed.toList <+: store'.printed.toList

/-- Leaving all scopes alone is leaving alone all scopes but one. -/
theorem Extends.frame (h : store.Extends store₁) (scope : Nat) : store.Frame scope store₁ where
  others id hid _ := h.scopes id hid
  own := by
    intro s hs
    have hscope : scope < store.scopes.size := (Array.getElem?_eq_some_iff.1 hs).1
    exact ⟨s, (h.scopes scope hscope).trans hs, .refl s⟩
  size := h.size
  printed := h.printed

theorem Extends.refl (store : Store) : store.Extends store :=
  ⟨fun _ _ => rfl, Nat.le_refl _, List.prefix_rfl⟩

/-- Changes of one and the same scope add up to a change of that scope. -/
theorem Frame.trans (first : store.Frame scope store₁) (second : store₁.Frame scope store₂) :
    store.Frame scope store₂ where
  others id hid hne :=
    (second.others id (Nat.lt_of_lt_of_le hid first.size) hne).trans (first.others id hid hne)
  own := by
    intro s hs
    rcases first.own hs with ⟨s₁, hs₁, hgrows₁⟩
    rcases second.own hs₁ with ⟨s₂, hs₂, hgrows₂⟩
    exact ⟨s₂, hs₂, hgrows₁.trans hgrows₂⟩
  size := Nat.le_trans first.size second.size
  printed := first.printed.trans second.printed

/-- What happens in a scope that is new leaves all old scopes alone. -/
theorem Extends.of_frame (first : store.Extends store₁)
    (second : store₁.Frame store.scopes.size store₂) : store.Extends store₂ where
  scopes id hid :=
    (second.others id (Nat.lt_of_lt_of_le hid first.size) (Nat.ne_of_lt hid)).trans
      (first.scopes id hid)
  size := Nat.le_trans first.size second.size
  printed := first.printed.trans second.printed

/-- Binding a name in a scope changes that scope alone. -/
theorem frame_bind (store : Store) (scope : Nat) (name : String) (v : Value) :
    store.Frame scope (store.bind scope name v) where
  others id _ hne := by
    have hmodify : (store.bind scope name v).scopes[id]? =
        (store.scopes.modify scope fun s => s.bind name v)[id]? := rfl
    rw [hmodify, Array.getElem?_modify, if_neg hne.symm]
  own := by
    intro s hs
    refine ⟨s.bind name v, ?_, s.grows_bind name v⟩
    have hmodify : (store.bind scope name v).scopes[scope]? =
        (store.scopes.modify scope fun s => s.bind name v)[scope]? := rfl
    rw [hmodify, Array.getElem?_modify, if_pos rfl, hs]
    rfl
  size := Nat.le_of_eq (Array.size_modify ..).symm
  printed := List.prefix_rfl

/-- A new scope leaves all old ones alone. -/
theorem extends_newScope (store : Store) (outer : Option Nat) :
    store.Extends (store.newScope outer) where
  scopes id hid := Array.getElem?_push_lt hid ▸ (Array.getElem?_eq_getElem hid).symm
  size := by
    unfold newScope
    rw [Array.size_push]
    exact Nat.le_succ _
  printed := List.prefix_rfl

/-- Printing leaves all scopes alone. -/
theorem extends_print (store : Store) (lines : List String) :
    store.Extends (store.print lines) where
  scopes _ _ := rfl
  size := Nat.le_refl _
  printed := ⟨lines, (Array.toList_appendList).symm⟩

/-- Entering a function makes a scope, and binds the arguments there. -/
theorem extends_enter (closure : Closure) (args : List Value) (store : Store) :
    store.Extends (Eval.enter closure args store) := by
  unfold Eval.enter
  generalize closure.params.zip args = bindings
  have hnew : store.Extends (store.newScope (some closure.scope)) := extends_newScope store _
  generalize store.newScope (some closure.scope) = inside at hnew
  induction bindings generalizing inside with
  | nil => exact hnew
  | cons binding rest ih => exact ih _ (hnew.of_frame (frame_bind inside _ _ _))

end Store

/-! ## Runs -/

/-- A run that changes one scope at most. -/
def Keeps (scope : Nat) (run : Run Value) : Prop :=
  ∀ ⦃store store' : Store⦄ ⦃v : Value⦄, run store = some (v, store') → store.Frame scope store'

namespace Keeps

variable {scope : Nat} {run test body : Run Value}

/-- A run that leaves all scopes alone changes one scope at most. -/
theorem of_extends
    (h : ∀ ⦃store store' : Store⦄ ⦃v : Value⦄, run store = some (v, store') →
      store.Extends store') (scope : Nat) : Keeps scope run := by
  intro store store' v eq
  exact (h eq).frame scope

theorem pure (scope : Nat) (v : Value) : Keeps scope (Pure.pure v) := by
  intro store store' w eq
  cases eq
  exact (Store.Extends.refl store).frame scope

/-- Two runs in the same scope, one after the other. -/
theorem bind {next : Value → Run Value} (first : Keeps scope run)
    (second : ∀ v, Keeps scope (next v)) : Keeps scope (run >>= next) := by
  intro store store' v eq
  rcases Run.exists_of_bind_eq_some eq with ⟨w, store₁, hrun, hnext⟩
  exact (first hrun).trans (second w hnext)

/-- The same if a signal of the first run is handed on. -/
theorem andThen {next : Value → Run Value} (first : Keeps scope run)
    (second : ∀ v, Keeps scope (next v)) : Keeps scope (run.andThen next) := by
  refine first.bind fun v => ?_
  split
  · exact .pure scope v
  · exact second v

/-- A loop changes no scope but the one of its test and its body. -/
theorem loop (htest : Keeps scope test) (hbody : Keeps scope body) (turns : Nat) :
    Keeps scope (Run.loop test body turns) := by
  induction turns with
  | zero => exact fun _ _ _ eq => nomatch eq
  | succ turns ih =>
      refine htest.bind fun t => ?_
      split
      · exact .pure scope _
      · split
        · refine hbody.bind fun v => ?_
          split
          · exact .pure scope _
          · exact ih
        · exact .pure scope _

end Keeps

/-- A call of a function that leaves all scopes but its own alone leaves all scopes alone. -/
theorem extends_of_keeps_enter {body : Nat → Run Value}
    (hbody : ∀ inside, Keeps inside (body inside))
    (closure : Closure) (args : List Value) {store store' : Store} {v : Value}
    (eq : body store.scopes.size (Eval.enter closure args store) = some (v, store')) :
    store.Extends store' :=
  (Store.extends_enter closure args store).of_frame (hbody store.scopes.size eq)

/-- A call changes the scope that it makes, which is none of the old ones. -/
theorem Keeps.enter {body : Nat → Run Value} (hbody : ∀ inside, Keeps inside (body inside))
    (scope : Nat) (closure : Closure) (args : List Value) :
    Keeps scope fun store => body store.scopes.size (Eval.enter closure args store) :=
  .of_extends (fun _ _ _ eq => extends_of_keeps_enter hbody closure args eq) scope

/-- Host functions leave all scopes alone. -/
theorem extends_callNative {native : Native} {args : List Value} {store store' : Store} {v : Value}
    (eq : Eval.callNative native args store = some (v, store')) : store.Extends store' := by
  cases eq
  exact store.extends_print _

/-- Every step of evaluation changes one scope at most. -/
theorem congruence_keeps (machine : Machine) :
    Congruence machine machine id fun scope run _ => Keeps scope run where
  pure scope v := .pure scope v
  andThen first second := first.andThen second
  settle h := h.bind fun v => .pure _ v.settle
  loop htest hbody := htest.loop hbody machine.turns
  lookup scope name := by
    intro store store' v eq
    cases eq
    exact (Store.Extends.refl store).frame scope
  define scope name v := by
    intro store store' w eq
    cases eq
    exact store.frame_bind scope name v
  makeClosure scope params body := by
    intro store store' v eq
    cases eq
    have hextends : store.Extends { store with closures := store.closures + 1 } :=
      ⟨fun _ _ => rfl, Nat.le_refl _, List.prefix_rfl⟩
    exact hextends.frame scope
  callNative scope name args := by
    cases machine.builtins.find? name with
    | none => exact .none
    | some native => exact .some (.of_extends (fun _ _ _ eq => extends_callNative eq) scope)
  enter scope closure args hbody := .enter hbody scope closure args

/-- Evaluating a node changes no scope but the one that it is evaluated in. -/
theorem keeps_eval (machine : Machine) (levels : Nat) (node : Node) (scope : Nat) :
    Keeps scope (eval machine levels node scope) :=
  (congruence_keeps machine).eval levels node scope

/-- Neither does a program. -/
theorem keeps_evalProgram (machine : Machine) (levels : Nat) (program : Program) (scope : Nat) :
    Keeps scope (evalProgram machine levels program scope) :=
  (congruence_keeps machine).evalProgram levels program scope

/-- A call changes nothing that was there before it. -/
theorem extends_apply (machine : Machine) (levels : Nat) (callee : Value) (args : List Value)
    {store store' : Store} {v : Value}
    (eq : Eval.apply machine (eval machine levels) callee args store = some (v, store')) :
    store.Extends store' := by
  -- A call that makes no scope gives an error, or prints.
  have herror {fault : Fault}
      (eq : (pure (.error fault) : Run Value) store = some (v, store')) : store.Extends store' := by
    cases eq
    exact .refl store
  cases callee with
  | function closure =>
      by_cases hlength : args.length = closure.params.length
      · have hbody (inside : Nat) : Keeps inside do
            let v ← eval machine levels (.stmt (.block closure.body)) inside
            return v.settle :=
          (keeps_eval machine levels _ inside).bind fun v => .pure inside v.settle
        unfold Eval.apply at eq
        simp only [Eval.callClosure_of_length closure hlength] at eq
        exact extends_of_keeps_enter hbody closure args eq
      · unfold Eval.apply at eq
        simp only [Eval.callClosure_of_length_ne closure hlength] at eq
        exact herror eq
  | builtin builtin =>
      unfold Eval.apply at eq
      cases hfind : machine.builtins.find? builtin.name with
      | none =>
          simp only [hfind] at eq
          exact herror eq
      | some native =>
          simp only [hfind] at eq
          exact extends_callNative eq
  | _ => exact herror eq

/-- Evaluating a node or a program in a scope changes no other scope of any store, takes nothing out
of that scope and puts it into no other one. A call changes no scope at all, whatever is called and
wherever it was made. -/
theorem eval_frame (machine : Machine) (levels : Nat) {store store' : Store} {v : Value} :
    (∀ node scope, eval machine levels node scope store = some (v, store') →
      store.Frame scope store') ∧
    (∀ program scope, evalProgram machine levels program scope store = some (v, store') →
      store.Frame scope store') ∧
    ∀ callee args, Eval.apply machine (eval machine levels) callee args store = some (v, store') →
      store.Extends store' := by
  refine ⟨?_, ?_, ?_⟩
  · intro node scope eq
    exact keeps_eval machine levels node scope eq
  · intro program scope eq
    exact keeps_evalProgram machine levels program scope eq
  · intro callee args eq
    exact extends_apply machine levels callee args eq

/-- Two functions share the scope that they were made in. One is called from the global scope, where
its result is bound; it binds a name that its own scope, the shared one and the global one have. -/
theorem eval_frame_shared_scope :
    let t : Token := ⟨.eof, "", .start⟩
    let machine : Machine := ⟨.standard, 3⟩
    let x : Expr := .ident ⟨t, "x"⟩
    let body : Block := .mk t [.define t ⟨t, "x"⟩ (.binary t .add x (.ident ⟨t, "y"⟩)),
      .returnValue t x]
    let f : Value := .function ⟨0, [⟨t, "y"⟩], body, 1⟩
    let g : Value := .function ⟨1, [], body, 1⟩
    let store : Store :=
      ⟨#[⟨none, [("x", .int 1), ("f", f)]⟩, ⟨some 0, [("x", .int 2), ("g", g)]⟩], 2, #["a"]⟩
    let node : Node := .stmt (.define t ⟨t, "x"⟩ (.call t (.ident ⟨t, "f"⟩) [.int t 5]))
    (∃ store', eval machine 9 node 0 store = some (.null, store') ∧ store.Frame 0 store' ∧
      store'.find 0 "x" = some (.int 7)) ∧
    ∃ store', Eval.apply machine (eval machine 9) f [.int 5] store = some (.int 7, store') ∧
      store.Extends store' := by
  intro t machine x body f g store node
  obtain ⟨store₁, heval, hfind⟩ : ∃ store', eval machine 9 node 0 store = some (.null, store') ∧
      store'.find 0 "x" = some (.int 7) := ⟨_, rfl, rfl⟩
  obtain ⟨store₂, happly⟩ : ∃ store',
      Eval.apply machine (eval machine 9) f [.int 5] store = some (.int 7, store') := ⟨_, rfl⟩
  exact ⟨⟨store₁, heval, (eval_frame machine 9).1 node 0 heval, hfind⟩,
    store₂, happly, (eval_frame machine 9).2.2 f [.int 5] happly⟩

end Scriptlet
