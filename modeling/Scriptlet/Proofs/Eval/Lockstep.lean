import Scriptlet.Proofs.Eval.Frame
import Scriptlet.Proofs.Value.Closures

/-!
# Two evaluations in lockstep

Two evaluations of the same node go on in the same way as long as they find the same values under
the names that the code looks up. Code comes from the node, and from functions that lie in the
store: so it has to be known which nodes may be evaluated, and which scopes may be used, which is
where the functions were made. Where a store is in order, so is every store that evaluation leads
to, and so is every function that evaluation gives.

The stores of the two evaluations may differ, as long as they are linked in a way that no step of
evaluation breaks. The machines may differ in the number of turns of loops, if there are no loops.

- `Node.parts` : the nodes whose evaluation a node may lead to
- `Lockstep` : which nodes and scopes may be used, and how two stores are linked
- `Lockstep.Keeps` : stores in which all scopes that may be used are in order
- `Lockstep.Together` : two runs with the same outcome and linked stores, which stay in order
- `Lockstep.together_evalLevel` : one level of evaluation
- `Lockstep.together_eval`, `Lockstep.together_evalProgram` : all levels, of nodes and of programs
-/

namespace Scriptlet

/-- The nodes whose evaluation a node may lead to, at once or when a function is called. A callee
that names a host function is not evaluated. -/
def Node.parts (machine : Machine) : Node → List Node
  | .stmt (.define _ _ value) | .stmt (.returnValue _ value) | .stmt (.expr _ value) =>
    [.expr value]
  | .stmt (.returnNothing _) | .stmt (.breakLoop _) => []
  | .stmt (.block body) => body.stmts.map .stmt
  | .expr (.unary _ _ operand) => [.expr operand]
  | .expr (.binary _ _ left right) => [.expr left, .expr right]
  | .expr (.ifThen _ test yes) => [.expr test, .stmt (.block yes)]
  | .expr (.ifElse _ test yes no) => [.expr test, .stmt (.block yes), .stmt (.block no)]
  | .expr (.whileDo _ test body) => [.expr test, .stmt (.block body)]
  | .expr (.function _ _ body) => [.stmt (.block body)]
  | .expr (.call _ callee args) =>
    (if (Eval.native? machine callee).isSome then [] else [.expr callee]) ++ args.map .expr
  | .expr (.array _ items) => items.map .expr
  | .expr (.hash _ pairs) => pairs.flatMap fun pair => [.expr pair.1, .expr pair.2]
  | .expr (.index _ target key) => [.expr target, .expr key]
  | .expr (.ident _) | .expr (.int ..) | .expr (.str ..) | .expr (.bool ..) => []
  | .expr (.bad _) | .expr .missing => []

/-- What may be used in two evaluations, and what links their stores. The number of scopes grows,
and with it the scopes that may be used; those that were there before are judged as before. -/
structure Lockstep (machine machine' : Machine) where
  permits : Node → Prop
  loops : Prop
  usable : Nat → Nat → Prop
  around : Nat → Nat → Prop
  base : Nat
  link : Store → Store → Prop
  /-- The machines have the same host functions, which make no functions. -/
  builtins : machine'.builtins = machine.builtins
  conserves {name : String} {native : Native} :
    machine.builtins.find? name = some native → native.Conserves
  turns : loops → machine'.turns = machine.turns
  permits_loop {token : Token} {test : Expr} {body : Block} :
    permits (.expr (.whileDo token test body)) → loops
  /-- The parts of a node may be evaluated with it. -/
  permits_parts {node : Node} : permits node → ∀ part ∈ node.parts machine, permits part
  usable_mono {n m id : Nat} : n ≤ m → usable n id → usable m id
  usable_old {n m id : Nat} : id < n → usable m id → usable n id
  usable_new {n : Nat} : base ≤ n → usable (n + 1) n
  usable_outer {n id outer : Nat} : usable n id → around id outer → usable n outer
  around_new {n outer : Nat} : base ≤ n → usable n outer → around n outer
  /-- Linked stores count alike, and are linked by the same names and by every change. -/
  link_size {store store' : Store} : link store store' → store'.scopes.size = store.scopes.size
  link_closures {store store' : Store} : link store store' → store'.closures = store.closures
  link_find {store store' : Store} {id : Ident} (scope : Nat) : link store store' →
    permits (.expr (.ident id)) → store'.find scope id.name = store.find scope id.name
  link_print {store store' : Store} (lines : List String) : link store store' →
    link (store.print lines) (store'.print lines)
  link_countClosure {store store' : Store} : link store store' →
    link { store with closures := store.closures + 1 }
      { store' with closures := store'.closures + 1 }
  link_define {store store' : Store} {token : Token} {name : Ident} {value : Expr} (scope : Nat)
    (v : Value) : link store store' → permits (.stmt (.define token name value)) →
      link (store.bind scope name.name v) (store'.bind scope name.name v)
  link_enter {store store' : Store} (closure : Closure) (args : List Value) : link store store' →
    base ≤ store.scopes.size →
      link (Eval.enter closure args store) (Eval.enter closure args store')

namespace Lockstep

variable {machine machine' : Machine} (l : Lockstep machine machine')

/-- Whether every function in a value may be called where there are `n` scopes. -/
def Admits (n : Nat) (v : Value) : Prop :=
  ∀ c ∈ v.closures, l.permits (.stmt (.block c.body)) ∧ l.usable n c.scope

/-- Stores in which every scope that may be used binds admitted values and lies in a scope that may
lie around it. -/
structure Keeps (store : Store) : Prop where
  base : l.base ≤ store.scopes.size
  outer {id outer : Nat} {scope : Scope} (usable : l.usable store.scopes.size id)
    (eq : store.scopes[id]? = some scope) (link : scope.outer = some outer) : l.around id outer
  bound {id : Nat} {scope : Scope} {var : String × Value}
    (usable : l.usable store.scopes.size id) (eq : store.scopes[id]? = some scope)
    (mem : var ∈ scope.vars) : l.Admits store.scopes.size var.2

variable {l}

/-! ## Values -/

namespace Admits

variable {n m : Nat} {v : Value}

/-- A value stays admitted when there are more scopes. -/
theorem mono (h : l.Admits n v) (le : n ≤ m) : l.Admits m v := by
  intro c hc
  exact ⟨(h c hc).1, l.usable_mono le (h c hc).2⟩

/-- A value without functions is always admitted. -/
theorem of_nil (h : v.closures = []) : l.Admits n v := by
  intro c hc
  rw [h] at hc
  cases hc

theorem of_closures {w : Value} (h : l.Admits n v) (eq : w.closures = v.closures) :
    l.Admits n w := by
  intro c hc
  exact h c (eq ▸ hc)

/-- A value is admitted if its functions come from admitted values. -/
theorem of_madeOf {vs : List Value} (h : ∀ w ∈ vs, l.Admits n w) (made : v.MadeOf vs) :
    l.Admits n v := by
  intro c hc
  rcases made c hc with ⟨w, hw, hmem⟩
  exact h w hw c hmem

theorem array {items : List Value} (h : ∀ v ∈ items, l.Admits n v) :
    l.Admits n (.array items) := by
  intro c hc
  rcases Value.mem_closures_array.1 hc with ⟨v, hv, hmem⟩
  exact h v hv c hmem

/-- A hash stays admitted when an admitted value is written into it. -/
theorem insert {entries : Entries} (h : l.Admits n (.hash entries)) (key : Key)
    (hv : l.Admits n v) : l.Admits n (.hash (entries.insert key v)) := by
  intro c hc
  rcases Value.mem_closures_hash.1 hc with ⟨entry, hentry, hmem⟩
  rcases Entries.mem_insert hentry with rfl | hold
  · exact hv c hmem
  · exact h c (Value.mem_closures_hash.2 ⟨entry, hold, hmem⟩)

end Admits

/-! ## Stores -/

namespace Keeps

variable {store : Store} {v : Value}

theorem print (h : l.Keeps store) (lines : List String) : l.Keeps (store.print lines) :=
  ⟨h.base, h.outer, h.bound⟩

theorem countClosure (h : l.Keeps store) :
    l.Keeps { store with closures := store.closures + 1 } :=
  ⟨h.base, h.outer, h.bound⟩

/-- A store keeps to the lockstep when an admitted value is bound in it. -/
theorem bind (h : l.Keeps store) (hv : l.Admits store.scopes.size v) (id : Nat) (name : String) :
    l.Keeps (store.bind id name v) := by
  have hsize : (store.bind id name v).scopes.size = store.scopes.size := Array.size_modify ..
  -- A scope of the new store is a scope of the old one, possibly with one more binding.
  have hold {id' : Nat} {scope : Scope} (eq : (store.bind id name v).scopes[id']? = some scope) :
      ∃ old, store.scopes[id']? = some old ∧ scope.outer = old.outer ∧
        ∀ var ∈ scope.vars, var = (name, v) ∨ var ∈ old.vars := by
    have hmodify : (store.bind id name v).scopes[id']? =
        (store.scopes.modify id fun s => s.bind name v)[id']? := rfl
    rw [hmodify, Array.getElem?_modify] at eq
    split at eq
    · rcases Option.map_eq_some_iff.1 eq with ⟨old, hold, rfl⟩
      exact ⟨old, hold, rfl, fun var hvar => Scope.mem_bindIn hvar⟩
    · exact ⟨scope, eq, rfl, fun var hvar => .inr hvar⟩
  refine ⟨hsize.symm ▸ h.base, ?_, ?_⟩
  · intro id' outer scope husable eq link
    rcases hold eq with ⟨old, heq, houter, -⟩
    exact h.outer (hsize ▸ husable) heq (houter ▸ link)
  · intro id' scope var husable eq hmem
    rcases hold eq with ⟨old, heq, -, hvars⟩
    rw [hsize] at husable ⊢
    rcases hvars var hmem with rfl | hvar
    · exact hv
    · exact h.bound husable heq hvar

/-- A new scope has to lie in one that can be used. -/
theorem newScope (h : l.Keeps store) {outer : Nat} (usable : l.usable store.scopes.size outer) :
    l.Keeps (store.newScope (some outer)) := by
  have hsize : (store.newScope (some outer)).scopes.size = store.scopes.size + 1 :=
    Array.size_push _
  have hget (id : Nat) : (store.newScope (some outer)).scopes[id]? =
      if id = store.scopes.size then some ⟨some outer, []⟩ else store.scopes[id]? :=
    Array.getElem?_push
  refine ⟨hsize.symm ▸ Nat.le_succ_of_le h.base, ?_, ?_⟩
  · intro id outer' scope husable eq link
    rw [hget] at eq
    split at eq
    · next hid =>
        cases eq
        cases link
        rw [hid]
        exact l.around_new h.base usable
    · have hid : id < store.scopes.size := (Array.getElem?_eq_some_iff.1 eq).1
      exact h.outer (l.usable_old hid husable) eq link
  · intro id scope var husable eq hmem
    rw [hget] at eq
    split at eq
    · cases eq
      cases hmem
    · have hid : id < store.scopes.size := (Array.getElem?_eq_some_iff.1 eq).1
      rw [hsize]
      exact (h.bound (l.usable_old hid husable) eq hmem).mono (Nat.le_succ _)

/-- A call makes one scope, and binds its arguments there. -/
theorem enter (h : l.Keeps store) {closure : Closure} {args : List Value}
    (usable : l.usable store.scopes.size closure.scope)
    (hargs : ∀ v ∈ args, l.Admits store.scopes.size v) :
    l.Keeps (Eval.enter closure args store) ∧
      (Eval.enter closure args store).scopes.size = store.scopes.size + 1 := by
  unfold Eval.enter
  -- The parameters are bound one by one, which makes no more scopes.
  refine List.foldlRecOn (motive := fun entered : Store =>
    l.Keeps entered ∧ entered.scopes.size = store.scopes.size + 1) _ _
      ⟨h.newScope usable, Array.size_push _⟩ ?_
  intro entered hentered binding hbinding
  have hadmits := hargs _ (List.of_mem_zip hbinding).2
  refine ⟨hentered.1.bind ?_ _ _, (Array.size_modify ..).trans hentered.2⟩
  rw [hentered.2]
  exact hadmits.mono (Nat.le_succ _)

/-- What is found from a usable scope outwards is admitted. -/
theorem findFrom (h : l.Keeps store) {name : String} (fuel : Nat) {id : Nat}
    (usable : l.usable store.scopes.size id) (eq : store.findFrom name fuel id = some v) :
    l.Admits store.scopes.size v := by
  induction fuel generalizing id with
  | zero => cases eq
  | succ fuel ih =>
      unfold Store.findFrom at eq
      split at eq
      · cases eq
      · next scope hscope =>
          split at eq
          · next value hget =>
              cases eq
              exact h.bound usable hscope (mem_of_lookup hget)
          -- Not bound here: the scope around this one may be used as well.
          · split at eq
            · next outer hlink => exact ih (l.usable_outer usable (h.outer usable hscope hlink)) eq
            · cases eq

/-- Whatever a name stands for in a usable scope is admitted. -/
theorem lookup (h : l.Keeps store) (builtins : Builtins) {scope : Nat}
    (usable : l.usable store.scopes.size scope) (name : String) :
    l.Admits store.scopes.size (Eval.lookup builtins scope name store) := by
  unfold Eval.lookup
  split
  · next value hfind => exact h.findFrom _ usable hfind
  · split
    · exact .of_nil rfl
    · exact .of_nil rfl

end Keeps

/-! ## Runs -/

/-- The outcomes of two runs that start with `n` scopes: the same value in linked stores, of which
the first one is in order. Only loops may leave them without an outcome. -/
inductive Outcomes (l : Lockstep machine machine') (n : Nat) :
    Option (Value × Store) → Option (Value × Store) → Prop
  | none (loops : l.loops) : Outcomes l n none none
  | some {v : Value} {store store' : Store} (le : n ≤ store.scopes.size) (keeps : l.Keeps store)
      (link : l.link store store') (admits : l.Admits store.scopes.size v) :
      Outcomes l n (some (v, store)) (some (v, store'))

theorem Outcomes.mono {n m : Nat} {outcome outcome' : Option (Value × Store)}
    (h : l.Outcomes m outcome outcome') (le : n ≤ m) : l.Outcomes n outcome outcome' := by
  cases h with
  | none loops => exact .none loops
  | some hle keeps link admits => exact .some (Nat.le_trans le hle) keeps link admits

/-- Two outcomes have the same value and linked stores, or there is none. -/
theorem Outcomes.rel {n : Nat} {outcome outcome' : Option (Value × Store)}
    (h : l.Outcomes n outcome outcome') :
    Option.Rel (fun found found' => found'.1 = found.1 ∧ l.link found.2 found'.2)
      outcome outcome' := by
  cases h with
  | none => exact .none
  | some _ _ link _ => exact .some ⟨rfl, link⟩

/-- Two runs with such outcomes, from `n` scopes on. -/
def Together (l : Lockstep machine machine') (n : Nat) (run run' : Run Value) : Prop :=
  ∀ ⦃store store' : Store⦄, n ≤ store.scopes.size → l.Keeps store → l.link store store' →
    l.Outcomes store.scopes.size (run store) (run' store')

namespace Together

variable {n m : Nat} {run run' test test' body body' : Run Value}

/-- Runs that go together do so from any later store on. -/
theorem mono (h : l.Together n run run') (le : n ≤ m) : l.Together m run run' := by
  intro store store' size keeps link
  exact h (Nat.le_trans le size) keeps link

/-- An admitted value goes together with itself. -/
theorem pure {v : Value} (admits : l.Admits n v) : l.Together n (Pure.pure v) (Pure.pure v) := by
  intro store store' size keeps link
  exact .some (Nat.le_refl _) keeps link (admits.mono size)

theorem error (fault : Fault) :
    l.Together n (Pure.pure (.error fault)) (Pure.pure (.error fault)) :=
  .pure (.of_nil rfl)

/-- What goes on with a value may count on all that the value was admitted for. -/
theorem bind {next next' : Value → Run Value} (first : l.Together n run run')
    (second : ∀ m v, n ≤ m → l.Admits m v → l.Together m (next v) (next' v)) :
    l.Together n (run >>= next) (run' >>= next') := by
  intro store store' size keeps link
  have hfirst := first size keeps link
  rw [Run.bind_apply, Run.bind_apply]
  generalize run store = outcome at hfirst ⊢
  generalize run' store' = outcome' at hfirst ⊢
  cases hfirst with
  | none loops => exact .none loops
  | some le keeps₁ link₁ admits =>
      have hsecond := second _ _ (Nat.le_trans size le) admits (Nat.le_refl _) keeps₁ link₁
      exact hsecond.mono le

/-- The same if a signal of the first run is handed on. -/
theorem andThen {next next' : Value → Run Value} (first : l.Together n run run')
    (second : ∀ m v, n ≤ m → l.Admits m v → l.Together m (next v) (next' v)) :
    l.Together n (run.andThen next) (run'.andThen next') := by
  refine first.bind fun m v hm hv => ?_
  split
  · exact .pure hv
  · exact second m v hm hv

theorem settle (h : l.Together n run run') :
    l.Together n (do let v ← run; return v.settle) (do let v ← run'; return v.settle) :=
  h.bind fun _ v _ hv => .pure (hv.of_closures v.closures_settle)

/-- Loops go together where loops are allowed. -/
theorem loop (allowed : l.loops) (htest : l.Together n test test')
    (hbody : l.Together n body body') (turns : Nat) :
    l.Together n (Run.loop test body turns) (Run.loop test' body' turns) := by
  induction turns generalizing n with
  | zero => exact fun _ _ _ _ _ => .none allowed
  | succ turns ih =>
      refine htest.bind fun m t hm ht => ?_
      split
      · exact .pure (ht.of_closures t.closures_loopExit)
      · split
        · refine (hbody.mono hm).bind fun k v hk hv => ?_
          split
          · exact .pure (hv.of_closures v.closures_loopExit)
          · exact ih (htest.mono (Nat.le_trans hm hk)) (hbody.mono (Nat.le_trans hm hk))
        · exact .pure (.of_nil rfl)

end Together

/-! ## One level -/

/-- Two evaluators that go together, wherever nodes and scopes may be used. -/
def Evaluators (l : Lockstep machine machine') (deeper deeper' : Evaluator) : Prop :=
  ∀ (node : Node) (scope : Nat) ⦃n : Nat⦄, l.usable n scope → l.permits node →
    l.Together n (deeper node scope) (deeper' node scope)

section Level

variable {deeper deeper' : Evaluator} (inner : l.Evaluators deeper deeper')
variable {n scope : Nat} (usable : l.usable n scope)

/-- Host functions make values of what is in their arguments. -/
theorem together_callNative {native : Native} (conserves : native.Conserves) {args : List Value}
    (hargs : ∀ v ∈ args, l.Admits n v) :
    l.Together n (Eval.callNative native args) (Eval.callNative native args) := by
  intro store store' size keeps link
  have hvalue : l.Admits store.scopes.size (native args).value.orNull := by
    have hmade := Admits.of_madeOf (fun w hw => (hargs w hw).mono size) (conserves args)
    exact hmade.of_closures (Value.closures_orNull _)
  exact .some (Nat.le_refl _) (keeps.print _) (l.link_print _ link) hvalue

include usable in
/-- A function may be made if its body may be evaluated. -/
theorem together_makeClosure (params : List Ident) {body : Block}
    (permits : l.permits (.stmt (.block body))) :
    l.Together n (Eval.makeClosure params body scope) (Eval.makeClosure params body scope) := by
  intro store store' size keeps link
  unfold Eval.makeClosure
  -- Both stores have made as many functions, so the new ones have the same number.
  rw [l.link_closures link]
  have hlink := l.link_countClosure link
  rw [l.link_closures link] at hlink
  refine .some (Nat.le_refl _) keeps.countClosure hlink ?_
  intro c hc
  rw [Value.closures, List.mem_singleton] at hc
  subst hc
  exact ⟨permits, l.usable_mono size usable⟩

include inner

/-- A call evaluates a body in a new scope, where all of it may be evaluated. -/
theorem together_callClosure {closure : Closure} (admits : l.Admits n (.function closure))
    {args : List Value} (hargs : ∀ v ∈ args, l.Admits n v) :
    l.Together n (Eval.callClosure deeper closure args) (Eval.callClosure deeper' closure args) := by
  rcases admits closure List.mem_cons_self with ⟨hpermits, husable⟩
  by_cases hlength : args.length = closure.params.length
  · rw [Eval.callClosure_of_length closure hlength, Eval.callClosure_of_length closure hlength]
    intro store store' size keeps link
    rcases keeps.enter (l.usable_mono size husable) (fun v hv => (hargs v hv).mono size) with
      ⟨hentered, hsize⟩
    have hlink := l.link_enter closure args link keeps.base
    -- The body runs in the scope that the call has made, which has the same number on both sides.
    have hbody : l.Together (store.scopes.size + 1)
        (deeper (.stmt (.block closure.body)) store.scopes.size)
        (deeper' (.stmt (.block closure.body)) store.scopes.size) :=
      inner _ _ (l.usable_new keeps.base) hpermits
    have hcall := hbody.settle (Nat.le_of_eq hsize.symm) hentered hlink
    rw [hsize] at hcall
    dsimp only
    rw [l.link_size link]
    exact hcall.mono (Nat.le_succ _)
  · rw [Eval.callClosure_of_length_ne closure hlength, Eval.callClosure_of_length_ne closure hlength]
    exact .error _

include usable

/-- What follows a list of expressions is given the values of all of them. -/
theorem together_exprs {found : List Value} (hfound : ∀ v ∈ found, l.Admits n v) {es : List Expr}
    (permits : ∀ e ∈ es, l.permits (.expr e)) {next next' : List Value → Run Value}
    (hnext : ∀ m values, n ≤ m → (∀ v ∈ values, l.Admits m v) →
      l.Together m (next values) (next' values)) :
    l.Together n ((Eval.exprs deeper scope found es).andThenAll next)
      ((Eval.exprs deeper' scope found es).andThenAll next') := by
  induction es generalizing n found with
  | nil =>
      rw [Eval.exprs_nil_andThenAll, Eval.exprs_nil_andThenAll]
      exact hnext n _ (Nat.le_refl n) fun v hv => hfound v (List.mem_reverse.1 hv)
  | cons e rest ih =>
      rcases List.forall_mem_cons.1 permits with ⟨hfirst, hrest⟩
      rw [Eval.exprs_cons_andThenAll, Eval.exprs_cons_andThenAll]
      refine (inner (.expr e) scope usable hfirst).andThen fun m v hm hv => ?_
      refine ih (l.usable_mono hm usable) ?_ hrest ?_
      · exact List.forall_mem_cons.2 ⟨hv, fun w hw => (hfound w hw).mono hm⟩
      · exact fun k values hk hvalues => hnext k values (Nat.le_trans hm hk) hvalues

/-- Statements go together one after another. -/
theorem together_stmts {last : Value} (hlast : l.Admits n last) {sts : List Stmt}
    (permits : ∀ st ∈ sts, l.permits (.stmt st)) :
    l.Together n (Eval.stmts deeper scope last sts) (Eval.stmts deeper' scope last sts) := by
  induction sts generalizing n last with
  | nil => exact .pure hlast
  | cons st rest ih =>
      rcases List.forall_mem_cons.1 permits with ⟨hfirst, hrest⟩
      refine (inner (.stmt st) scope usable hfirst).andThen fun m v hm hv => ?_
      exact ih (l.usable_mono hm usable) hv hrest

theorem together_pairs {entries : Entries} (hentries : l.Admits n (.hash entries))
    {pairs : List (Expr × Expr)}
    (permits : ∀ pair ∈ pairs, l.permits (.expr pair.1) ∧ l.permits (.expr pair.2)) :
    l.Together n (Eval.pairs deeper scope entries pairs)
      (Eval.pairs deeper' scope entries pairs) := by
  induction pairs generalizing n entries with
  | nil => exact .pure hentries
  | cons pair rest ih =>
      rcases pair with ⟨key, value⟩
      rcases List.forall_mem_cons.1 permits with ⟨⟨hkey, hvalue⟩, hrest⟩
      refine (inner (.expr key) scope usable hkey).andThen fun m k hm _ => ?_
      split
      · exact .error _
      · next key _ =>
          have hscope := l.usable_mono hm usable
          refine (inner (.expr value) scope hscope hvalue).andThen fun m' v hm' hv => ?_
          have hle := Nat.le_trans hm hm'
          exact ih (l.usable_mono hle usable) ((hentries.mono hle).insert key hv) hrest

omit usable in
/-- So does the call of an admitted value. -/
theorem together_apply {callee : Value} (hcallee : l.Admits n callee) {args : List Value}
    (hargs : ∀ v ∈ args, l.Admits n v) :
    l.Together n (Eval.apply machine deeper callee args)
      (Eval.apply machine' deeper' callee args) := by
  cases callee with
  | function closure => exact together_callClosure inner hcallee hargs
  | builtin builtin =>
      unfold Eval.apply
      simp only [l.builtins]
      cases hfind : machine.builtins.find? builtin.name with
      | none => exact .error _
      | some native => exact together_callNative (l.conserves hfind) hargs
  | _ => exact .error _

/-- The callee need not be evaluated if it names a host function. -/
theorem together_call {callee : Expr} {args : List Expr}
    (hcallee : Eval.native? machine callee = none → l.permits (.expr callee))
    (hargs : ∀ e ∈ args, l.permits (.expr e)) :
    l.Together n (Eval.call machine deeper scope callee args)
      (Eval.call machine' deeper' scope callee args) := by
  have hnative : Eval.native? machine' callee = Eval.native? machine callee := by
    cases callee with
    | ident id => exact congrArg (Builtins.find? · id.name) l.builtins
    | _ => rfl
  unfold Eval.call
  rw [hnative]
  cases hname : Eval.native? machine callee with
  | none =>
      refine (inner (.expr callee) scope usable (hcallee hname)).andThen fun m f hm hf => ?_
      refine together_exprs inner (l.usable_mono hm usable) (List.forall_mem_nil _) hargs ?_
      intro k values hk hvalues
      exact together_apply inner (hf.mono hk) hvalues
  | some native =>
      -- Only a name is looked up in the table.
      have hconserves : native.Conserves := by
        cases callee with
        | ident id => exact l.conserves hname
        | _ => cases hname
      refine together_exprs inner usable (List.forall_mem_nil _) hargs ?_
      intro k values _ hvalues
      exact together_callNative hconserves hvalues

/-- Every statement that may be evaluated goes together. -/
theorem together_stmt {st : Stmt} (permits : l.permits (.stmt st)) :
    l.Together n (Eval.stmt deeper scope st) (Eval.stmt deeper' scope st) := by
  have hparts := l.permits_parts permits
  cases st with
  | define _ name value =>
      refine (inner (.expr value) scope usable (hparts _ (.head _))).andThen fun m v _ hv => ?_
      intro store store' size keeps link
      have hsize : (store.bind scope name.name v).scopes.size = store.scopes.size :=
        Array.size_modify ..
      exact .some (Nat.le_of_eq hsize.symm) (keeps.bind (hv.mono size) _ _)
        (l.link_define scope v link permits) (.of_nil rfl)
  | returnNothing => exact .pure (.of_nil rfl)
  | returnValue _ value =>
      refine (inner (.expr value) scope usable (hparts _ (.head _))).andThen fun m v _ hv => ?_
      exact .pure (hv.of_closures rfl)
  | breakLoop => exact .pure (.of_nil rfl)
  | expr _ value => exact inner (.expr value) scope usable (hparts _ (.head _))
  | block body =>
      exact together_stmts inner usable (.of_nil rfl) (List.forall_mem_map.1 hparts)

/-- Every expression that may be evaluated goes together. -/
theorem together_expr {e : Expr} (permits : l.permits (.expr e)) :
    l.Together n (Eval.expr machine deeper scope e) (Eval.expr machine' deeper' scope e) := by
  have hparts := l.permits_parts permits
  cases e with
  | ident id =>
      intro store store' size keeps link
      have hlookup : Eval.lookup machine'.builtins scope id.name store' =
          Eval.lookup machine.builtins scope id.name store := by
        unfold Eval.lookup
        rw [l.builtins, l.link_find scope link permits]
      have hrun : Eval.expr machine' deeper' scope (.ident id) store' =
          some (Eval.lookup machine.builtins scope id.name store, store') :=
        congrArg (fun found => some (found, store')) hlookup
      rw [hrun]
      exact .some (Nat.le_refl _) keeps link
        (keeps.lookup machine.builtins (l.usable_mono size usable) id.name)
  | int | str | bool | missing => exact .pure (.of_nil rfl)
  | bad => exact .error _
  | unary _ op operand =>
      refine (inner (.expr operand) scope usable (hparts _ (.head _))).andThen fun m v _ _ => ?_
      exact .pure (.of_nil (closures_evalUnary op v))
  | binary _ op left right =>
      rcases List.forall_mem_cons.1 hparts with ⟨hleft, hright⟩
      refine (inner (.expr left) scope usable hleft).andThen fun m l' hm _ => ?_
      have hscope := l.usable_mono hm usable
      refine (inner (.expr right) scope hscope (hright _ (.head _))).andThen fun k r _ _ => ?_
      exact .pure (.of_nil (closures_evalBinary op l' r))
  | ifThen _ test yes =>
      rcases List.forall_mem_cons.1 hparts with ⟨htest, hyes⟩
      refine (inner (.expr test) scope usable htest).andThen fun m t hm _ => ?_
      split
      · exact inner (.stmt (.block yes)) scope (l.usable_mono hm usable) (hyes _ (.head _))
      · exact .pure (.of_nil rfl)
  | ifElse _ test yes no =>
      rcases List.forall_mem_cons.1 hparts with ⟨htest, hblocks⟩
      rcases List.forall_mem_cons.1 hblocks with ⟨hyes, hno⟩
      refine (inner (.expr test) scope usable htest).andThen fun m t hm _ => ?_
      split
      · exact inner (.stmt (.block yes)) scope (l.usable_mono hm usable) hyes
      · exact inner (.stmt (.block no)) scope (l.usable_mono hm usable) (hno _ (.head _))
  | whileDo token test body =>
      rcases List.forall_mem_cons.1 hparts with ⟨htest, hbody⟩
      have hloops := l.permits_loop permits
      show l.Together n (Run.loop _ _ machine.turns) (Run.loop _ _ machine'.turns)
      rw [l.turns hloops]
      exact .loop hloops (inner (.expr test) scope usable htest)
        (inner (.stmt (.block body)) scope usable (hbody _ (.head _))) machine.turns
  | function _ params body => exact together_makeClosure usable params (hparts _ (.head _))
  | call _ callee args =>
      rcases List.forall_mem_append.1 hparts with ⟨hcallee, hargs⟩
      refine together_call inner usable ?_ (List.forall_mem_map.1 hargs)
      intro hnone
      rw [hnone] at hcallee
      exact hcallee _ (.head _)
  | array _ items =>
      refine together_exprs inner usable (List.forall_mem_nil _) (List.forall_mem_map.1 hparts) ?_
      intro m values _ hvalues
      exact .pure (.array hvalues)
  | hash _ pairs =>
      refine together_pairs inner usable (.of_nil rfl) fun pair hpair => ?_
      have hpair' := List.forall_mem_flatMap.1 hparts pair hpair
      exact ⟨hpair' _ (.head _), hpair' _ (.tail _ (.head _))⟩
  | index _ target key =>
      rcases List.forall_mem_cons.1 hparts with ⟨htarget, hkey⟩
      refine (inner (.expr target) scope usable htarget).andThen fun m t hm ht => ?_
      have hscope := l.usable_mono hm usable
      refine (inner (.expr key) scope hscope (hkey _ (.head _))).andThen fun k key hk _ => ?_
      refine .pure (.of_madeOf (fun w hw => ?_) (madeOf_evalIndex t key))
      rw [List.mem_singleton.1 hw]
      exact ht.mono hk

omit usable in
/-- Evaluators that go together make such evaluators of the next level. -/
theorem together_evalLevel :
    l.Evaluators (evalLevel machine deeper) (evalLevel machine' deeper') := by
  intro node scope n usable permits
  cases node with
  | stmt st => exact together_stmt inner usable permits
  | expr e => exact together_expr inner usable permits

end Level

/-! ## All levels -/

/-- Evaluation goes together with any number of levels. -/
theorem together_eval (levels : Nat) :
    l.Evaluators (eval machine levels) (eval machine' levels) := by
  induction levels with
  | zero => exact fun _ _ _ _ _ => .error _
  | succ levels ih => exact together_evalLevel ih

/-- So does a program of which every statement may be evaluated. -/
theorem together_evalProgram (levels : Nat) {program : Program} {n scope : Nat}
    (usable : l.usable n scope) (permits : ∀ st ∈ program.stmts, l.permits (.stmt st)) :
    l.Together n (evalProgram machine levels program scope)
      (evalProgram machine' levels program scope) := by
  cases levels with
  | zero => exact .error _
  | succ levels =>
      exact (together_stmts (together_eval levels) usable (.of_nil rfl) permits).settle

end Lockstep

end Scriptlet
