import Scriptlet.Proofs.Eval.LoopFree

/-!
# Unused bindings

A binding that no code looks up and no code replaces does not matter. The code is that of a program
and of the functions that can be reached from its scope; what other functions in the store do with
the name is of no interest. Where a call names a host function, that name is not looked up in any
scope, so a binding of it does not get in the way of the call.

- `Program.names` : the names that a program looks up and defines
- `Store.UnusedFrom` : no function that can be reached from a scope uses a name
- `Store.Besides` : two stores that are the same but for one binding
- `evalProgram_besides` : with and without an unused binding, evaluation is the same
-/

namespace Scriptlet

/-! ## Names in code -/

def Expr.isHostName (builtins : Builtins) : Expr → Bool
  | .ident id => (builtins.find? id.name).isSome
  | _ => false

mutual

/-- The names that an expression looks up or defines, also in the functions that it makes. A callee
that names a host function is not looked up. Parameters do not count: a call binds them in a scope
of its own. -/
def Expr.names (builtins : Builtins) : Expr → List String
  | .ident id => [id.name]
  | .int .. | .str .. | .bool .. | .bad _ | .missing => []
  | .unary _ _ operand => operand.names builtins
  | .binary _ _ left right => left.names builtins ++ right.names builtins
  | .ifThen _ test yes => test.names builtins ++ yes.names builtins
  | .ifElse _ test yes no => test.names builtins ++ (yes.names builtins ++ no.names builtins)
  | .whileDo _ test body => test.names builtins ++ body.names builtins
  | .function _ _ body => body.names builtins
  | .call _ callee args =>
    (if callee.isHostName builtins then [] else callee.names builtins) ++ namesInList builtins args
  | .array _ items => namesInList builtins items
  | .hash _ pairs => namesInPairs builtins pairs
  | .index _ target key => target.names builtins ++ key.names builtins

def Stmt.names (builtins : Builtins) : Stmt → List String
  | .define _ name value => name.name :: value.names builtins
  | .returnValue _ value | .expr _ value => value.names builtins
  | .returnNothing _ | .breakLoop _ => []
  | .block body => body.names builtins

def Block.names (builtins : Builtins) : Block → List String
  | .mk _ stmts => namesInStmts builtins stmts

def namesInStmts (builtins : Builtins) : List Stmt → List String
  | [] => []
  | stmt :: rest => stmt.names builtins ++ namesInStmts builtins rest

def namesInList (builtins : Builtins) : List Expr → List String
  | [] => []
  | expr :: rest => expr.names builtins ++ namesInList builtins rest

def namesInPairs (builtins : Builtins) : List (Expr × Expr) → List String
  | [] => []
  | pair :: rest => namesInPair builtins pair ++ namesInPairs builtins rest

def namesInPair (builtins : Builtins) : Expr × Expr → List String
  | (key, value) => key.names builtins ++ value.names builtins

end

def Program.names (builtins : Builtins) (program : Program) : List String :=
  namesInStmts builtins program.stmts

def Node.names (builtins : Builtins) : Node → List String
  | .stmt st => st.names builtins
  | .expr e => e.names builtins

section Names

variable {builtins : Builtins} {name : String}

/-- The names in statements are those in each of them. -/
theorem mem_namesInStmts {sts : List Stmt} :
    name ∈ namesInStmts builtins sts ↔ ∃ st ∈ sts, name ∈ st.names builtins := by
  induction sts with
  | nil => simp [namesInStmts]
  | cons st rest ih => simp [namesInStmts, ih]

/-- The names in expressions are those in each of them. -/
theorem mem_namesInList {es : List Expr} :
    name ∈ namesInList builtins es ↔ ∃ e ∈ es, name ∈ e.names builtins := by
  induction es with
  | nil => simp [namesInList]
  | cons e rest ih => simp [namesInList, ih]

/-- The names in entries are those in their keys and values. -/
theorem mem_namesInPairs {pairs : List (Expr × Expr)} :
    name ∈ namesInPairs builtins pairs ↔
      ∃ pair ∈ pairs, name ∈ pair.1.names builtins ∨ name ∈ pair.2.names builtins := by
  induction pairs with
  | nil => simp [namesInPairs]
  | cons pair rest ih =>
      rcases pair with ⟨key, value⟩
      simp [namesInPairs, namesInPair, ih, or_assoc]

/-- A callee is called as a host function just if it is the name of one. -/
theorem isSome_native? (machine : Machine) (callee : Expr) :
    (Eval.native? machine callee).isSome = callee.isHostName machine.builtins := by
  cases callee with
  | _ => rfl

/-- The names in the parts of a node are names in the node. -/
theorem Node.mem_names_of_part {machine : Machine} {node part : Node}
    (hpart : part ∈ node.parts machine) (h : name ∈ part.names machine.builtins) :
    name ∈ node.names machine.builtins := by
  cases node with
  | stmt st =>
      cases st with
      | define =>
          rw [List.mem_singleton.1 hpart] at h
          exact List.mem_cons_of_mem _ h
      | returnValue | expr =>
          rw [List.mem_singleton.1 hpart] at h
          exact h
      | returnNothing | breakLoop => cases hpart
      | block body =>
          rcases List.mem_map.1 hpart with ⟨st, hst, rfl⟩
          cases body with
          | mk => exact mem_namesInStmts.2 ⟨st, hst, h⟩
  | expr e =>
      cases e with
      | ident | int | str | bool | bad | missing => cases hpart
      | unary | function =>
          rw [List.mem_singleton.1 hpart] at h
          exact h
      | binary | ifThen | whileDo | index | ifElse =>
          simp only [Node.parts, List.mem_cons, List.not_mem_nil, or_false] at hpart
          simp only [Node.names, Expr.names, List.mem_append]
          rcases hpart with rfl | rfl | rfl <;> simp_all [Node.names, Stmt.names]
      | call _ callee args =>
          -- The callee is a part, and its names count, unless it names a host function.
          simp only [Node.parts, isSome_native?] at hpart
          simp only [Node.names, Expr.names]
          rcases List.mem_append.1 hpart with hcallee | hargs
          · refine List.mem_append_left _ ?_
            split at hcallee
            · cases hcallee
            · next hhost =>
                rw [if_neg hhost]
                rw [List.mem_singleton.1 hcallee] at h
                exact h
          · rcases List.mem_map.1 hargs with ⟨e, he, rfl⟩
            exact List.mem_append_right _ (mem_namesInList.2 ⟨e, he, h⟩)
      | array =>
          rcases List.mem_map.1 hpart with ⟨e, he, rfl⟩
          exact mem_namesInList.2 ⟨e, he, h⟩
      | hash =>
          rcases List.mem_flatMap.1 hpart with ⟨pair, hpair, hmem⟩
          refine mem_namesInPairs.2 ⟨pair, hpair, ?_⟩
          rcases List.mem_cons.1 hmem with rfl | hmem
          · exact .inl h
          · rw [List.mem_singleton.1 hmem] at h
            exact .inr h

/-- A name that is not used is not looked up. -/
theorem Node.ne_of_ident {id : Ident}
    (absent : name ∉ Node.names builtins (.expr (.ident id))) : id.name ≠ name := by
  rintro rfl
  exact absent List.mem_cons_self

/-- Nor is it defined. -/
theorem Node.ne_of_define {token : Token} {id : Ident} {value : Expr}
    (absent : name ∉ Node.names builtins (.stmt (.define token id value))) : id.name ≠ name := by
  rintro rfl
  exact absent List.mem_cons_self

end Names

/-! ## Stores that differ in one binding -/

namespace Store

def bound (store : Store) (id : Nat) (name : String) : Option Value :=
  store.scopes[id]?.bind fun scope => scope.get? name

def outer (store : Store) (id : Nat) : Option Nat :=
  store.scopes[id]?.bind fun scope => scope.outer

section Parts

variable (store : Store) (id : Nat) (name : String) (v : Value)

/-- A binding shows in its own scope, under its own name. -/
theorem bound_bind (i : Nat) (other : String) :
    (store.bind id name v).bound i other =
      if id < store.scopes.size ∧ i = id ∧ other = name then some v else store.bound i other := by
  have hscope : (store.bind id name v).scopes[i]? =
      if id = i then store.scopes[i]?.map fun scope => scope.bind name v else store.scopes[i]? :=
    Array.getElem?_modify
  unfold bound
  rw [hscope]
  by_cases hid : id = i
  · subst hid
    by_cases hlt : id < store.scopes.size
    · simp [hlt, Scope.get?_bind]
    · simp [hlt]
  · simp [hid, Ne.symm hid]

theorem outer_bind (i : Nat) : (store.bind id name v).outer i = store.outer i := by
  have hscope : (store.bind id name v).scopes[i]? =
      if id = i then store.scopes[i]?.map fun scope => scope.bind name v else store.scopes[i]? :=
    Array.getElem?_modify
  unfold outer
  rw [hscope]
  split
  · rw [Option.bind_map]
    rfl
  · rfl

/-- A new scope binds nothing. -/
theorem bound_newScope (around : Option Nat) (i : Nat) (other : String) :
    (store.newScope around).bound i other = store.bound i other := by
  have hscope : (store.newScope around).scopes[i]? =
      if i = store.scopes.size then some ⟨around, []⟩ else store.scopes[i]? :=
    Array.getElem?_push
  unfold bound
  rw [hscope]
  split
  · next hi =>
      subst hi
      rw [Array.getElem?_eq_none (Nat.le_refl _)]
      rfl
  · rfl

/-- A new scope has the number behind those that are there. -/
theorem outer_newScope (around : Option Nat) (i : Nat) :
    (store.newScope around).outer i = if i = store.scopes.size then around else store.outer i := by
  have hscope : (store.newScope around).scopes[i]? =
      if i = store.scopes.size then some ⟨around, []⟩ else store.scopes[i]? :=
    Array.getElem?_push
  unfold outer
  rw [hscope]
  split
  · rfl
  · rfl

/-- A name is looked for in the scope itself first, and then in the one around it. -/
theorem findFrom_succ (fuel : Nat) :
    store.findFrom name (fuel + 1) id =
      (store.bound id name).or ((store.outer id).bind (store.findFrom name fuel)) := by
  unfold bound outer
  rw [findFrom]
  cases store.scopes[id]? with
  | none => rfl
  | some scope =>
      dsimp only [Option.bind_some]
      cases scope.get? name with
      | some value => rfl
      | none =>
          cases scope.outer with
          | none => rfl
          | some around => rfl

end Parts

/-- Two stores that are the same but for the binding of a name in a scope. In the second one, the
name is bound to the value there. -/
structure Besides (id : Nat) (name : String) (v : Value) (store store' : Store) : Prop where
  size : store'.scopes.size = store.scopes.size
  outer (i : Nat) : store'.outer i = store.outer i
  bound {i : Nat} {other : String} (ne : ¬ (i = id ∧ other = name)) :
    store'.bound i other = store.bound i other
  added : store'.bound id name = some v
  closures : store'.closures = store.closures
  printed : store'.printed = store.printed

/-- A store with one more binding. -/
theorem besides_bind {store : Store} {id : Nat} (there : id < store.scopes.size) (name : String)
    (v : Value) : store.Besides id name v (store.bind id name v) where
  size := Array.size_modify ..
  outer i := store.outer_bind id name v i
  bound := by
    intro i other ne
    rw [bound_bind, if_neg fun h => ne h.2]
  added := by rw [bound_bind, if_pos ⟨there, rfl, rfl⟩]
  closures := rfl
  printed := rfl

namespace Besides

variable {id : Nat} {name : String} {v : Value} {store store' : Store}

/-- Only the binding of that name can be seen. -/
theorem find (h : store.Besides id name v store') {other : String} (ne : other ≠ name)
    (scope : Nat) : store'.find scope other = store.find scope other := by
  -- Every scope on the way outwards binds the same under the other name, and leads to the same one.
  have hfrom (fuel scope : Nat) :
      store'.findFrom other fuel scope = store.findFrom other fuel scope := by
    induction fuel generalizing scope with
    | zero => rfl
    | succ fuel ih =>
        rw [findFrom_succ, findFrom_succ, h.outer, h.bound fun eq => ne eq.2, funext ih]
  unfold Store.find
  rw [h.size, hfrom]

theorem print (h : store.Besides id name v store') (lines : List String) :
    (store.print lines).Besides id name v (store'.print lines) where
  size := h.size
  outer := h.outer
  bound := h.bound
  added := h.added
  closures := h.closures
  printed := by simp only [Store.print, h.printed]

theorem countClosure (h : store.Besides id name v store') :
    Besides id name v { store with closures := store.closures + 1 }
      { store' with closures := store'.closures + 1 } where
  size := h.size
  outer := h.outer
  bound := h.bound
  added := h.added
  closures := congrArg (· + 1) h.closures
  printed := h.printed

/-- Another binding on both sides keeps the stores apart by the one binding alone. -/
theorem bind (h : store.Besides id name v store') {i : Nat} {other : String}
    (ne : ¬ (i = id ∧ other = name)) (w : Value) :
    (store.bind i other w).Besides id name v (store'.bind i other w) where
  size := by
    have hsize : (store'.bind i other w).scopes.size = store'.scopes.size := Array.size_modify ..
    have hsize' : (store.bind i other w).scopes.size = store.scopes.size := Array.size_modify ..
    rw [hsize, hsize', h.size]
  outer j := by rw [outer_bind, outer_bind, h.outer]
  bound := by
    intro j another hne
    rw [bound_bind, bound_bind, h.size, h.bound hne]
  added := by
    rw [bound_bind, if_neg fun eq => ne ⟨eq.2.1.symm, eq.2.2.symm⟩, h.added]
  closures := h.closures
  printed := h.printed

/-- So does a new scope on both sides. -/
theorem newScope (h : store.Besides id name v store') (around : Option Nat) :
    (store.newScope around).Besides id name v (store'.newScope around) where
  size := by
    have hsize : (store'.newScope around).scopes.size = store'.scopes.size + 1 := Array.size_push _
    have hsize' : (store.newScope around).scopes.size = store.scopes.size + 1 := Array.size_push _
    rw [hsize, hsize', h.size]
  outer i := by rw [outer_newScope, outer_newScope, h.size, h.outer]
  bound := by
    intro i other ne
    rw [bound_newScope, bound_newScope, h.bound ne]
  added := by rw [bound_newScope, h.added]
  closures := h.closures
  printed := h.printed

/-- A call binds its arguments in a scope that is not there yet. -/
theorem enter (h : store.Besides id name v store') (there : id < store.scopes.size)
    (closure : Closure) (args : List Value) :
    (Eval.enter closure args store).Besides id name v (Eval.enter closure args store') := by
  unfold Eval.enter
  rw [h.size]
  -- Both calls bind the same names in a scope with the same number, which is not that of the binding.
  refine List.foldl_rel (h.newScope (some closure.scope)) ?_
  intro binding _ entered entered' hentered
  exact hentered.bind (fun eq => Nat.ne_of_gt there eq.1) binding.2

end Besides

/-- No function that is bound in a scope that can be reached uses a name. -/
def UnusedFrom (builtins : Builtins) (store : Store) (start : Nat) (name : String) : Prop :=
  ∀ ⦃id : Nat⦄ ⦃scope : Scope⦄, store.Visible start id → store.scopes[id]? = some scope →
    ∀ var ∈ scope.vars, ∀ c ∈ var.2.closures, name ∉ c.body.names builtins

end Store

/-! ## Evaluation -/

/-- With and without a binding, as long as only code runs that does not use the name. -/
def Lockstep.besides (turns : Nat) (store : Store) (start id : Nat) (there : id < store.scopes.size)
    (name : String) (v : Value) : Lockstep ⟨.standard, turns⟩ ⟨.standard, turns⟩ where
  permits node := name ∉ node.names .standard
  loops := True
  usable _ i := store.InReach start i
  around _ outer := store.InReach start outer
  base := store.scopes.size
  link := Store.Besides id name v
  builtins := rfl
  conserves := conserves_standard
  turns _ := rfl
  permits_loop _ := trivial
  permits_parts absent _ hpart h := absent (Node.mem_names_of_part hpart h)
  usable_mono _ usable := usable
  usable_old _ usable := usable
  usable_new le := Store.inReach_new start le
  usable_outer _ around := around
  around_new _ usable := usable
  link_size link := link.size
  link_closures link := link.closures
  link_find scope link absent := link.find (Node.ne_of_ident absent) scope
  link_print lines link := link.print lines
  link_countClosure link := link.countClosure
  link_define _ w link absent := link.bind (fun eq => Node.ne_of_define absent eq.2) w
  link_enter closure args link le := link.enter (Nat.lt_of_lt_of_le there le) closure args

/-- A run starts in order where no function in reach uses the name. -/
theorem Lockstep.keeps_besides {turns : Nat} {store : Store} {start id : Nat}
    (there : id < store.scopes.size) {name : String} (v : Value)
    (unused : store.UnusedFrom .standard start name) :
    (Lockstep.besides turns store start id there name v).Keeps store := by
  refine ⟨Nat.le_refl _, ?_, ?_⟩
  · intro i outer scope usable eq link
    exact .inl ((Store.InReach.visible usable eq).outer eq link)
  · intro i scope var usable eq mem c hc
    have hvisible := Store.InReach.visible usable eq
    exact ⟨unused hvisible eq var mem c hc, .inl (hvisible.captured eq mem hc)⟩

/-- A program that does not use a name, in a scope from where no function can be reached that uses
it, does the same whether or not the name is bound to some value in some scope: either there is no
outcome with or without the binding, or there is the same value, and the stores differ in nothing
but that binding. -/
theorem evalProgram_besides {program : Program} {name : String}
    (absent : name ∉ program.names .standard) {store : Store} {scope : Nat}
    (unused : store.UnusedFrom .standard scope name) {id : Nat} (there : id < store.scopes.size)
    (v : Value) (turns levels : Nat) :
    Option.Rel (fun found found' => found'.1 = found.1 ∧ found.2.Besides id name v found'.2)
      (evalProgram ⟨.standard, turns⟩ levels program scope store)
      (evalProgram ⟨.standard, turns⟩ levels program scope (store.bind id name v)) := by
  let l := Lockstep.besides turns store scope id there name v
  have husable : l.usable store.scopes.size scope := .inl .here
  have hpermits : ∀ st ∈ program.stmts, l.permits (.stmt st) :=
    fun st hst h => absent (mem_namesInStmts.2 ⟨st, hst, h⟩)
  have htogether := Lockstep.together_evalProgram levels husable hpermits
  exact (htogether (Nat.le_refl _) (Lockstep.keeps_besides there v unused)
    (Store.besides_bind there name v)).rel

/-- A host function that is called by its name, by a program and by a function, although the name is
bound to a number in the global scope. In a scope that nothing leads to, a function looks it up. -/
theorem evalProgram_besides_host_function :
    let t : Token := ⟨.eof, "", .start⟩
    let puts (arg : Expr) : Stmt := .expr t (.call t (.ident ⟨t, "puts"⟩) [arg])
    let greet : Value := .function ⟨0, [⟨t, "puts"⟩], .mk t [puts (.str t "a")], 0⟩
    let other : Value := .function ⟨1, [], .mk t [.expr t (.ident ⟨t, "puts"⟩)], 2⟩
    let store : Store := ⟨#[⟨none, [("greet", greet)]⟩, ⟨some 0, []⟩, ⟨some 0, [("other", other)]⟩],
      2, #[]⟩
    let program : Program :=
      ⟨[.expr t (.call t (.ident ⟨t, "greet"⟩) [.int t 1]), puts (.str t "b")]⟩
    "puts" ∉ program.names .standard ∧ store.UnusedFrom .standard 1 "puts" ∧
      ∃ after after', evalProgram ⟨.standard, 3⟩ 9 program 1 store = some (.null, after) ∧
        evalProgram ⟨.standard, 3⟩ 9 program 1 (store.bind 0 "puts" (.int 7)) =
          some (.null, after') ∧
        after.Besides 0 "puts" (.int 7) after' ∧ after.printed = #["a", "b"] := by
  intro t puts greet other store program
  have habsent : "puts" ∉ program.names .standard := by
    decide
  -- From the first two scopes nothing leads to the last one.
  have hclosed : ∀ id < 2, ∀ scope ∈ store.scopes[id]?, (∀ outer ∈ scope.outer, outer < 2) ∧
      ∀ var ∈ scope.vars, ∀ c ∈ var.2.closures, c.scope < 2 := by
    decide
  have hcode : ∀ id < 2, ∀ scope ∈ store.scopes[id]?, ∀ var ∈ scope.vars, ∀ c ∈ var.2.closures,
      (c.body.names .standard).contains "puts" = false := by
    decide
  have hvisible {id : Nat} (h : store.Visible 1 id) : id < 2 := by
    induction h with
    | here => decide
    | outer _ eq link ih => exact (hclosed _ ih _ eq).1 _ link
    | captured _ eq bound mem ih => exact (hclosed _ ih _ eq).2 _ bound _ mem
  have hunused : store.UnusedFrom .standard 1 "puts" := by
    intro id scope visible eq var hvar c hc
    have hnot := hcode id (hvisible visible) scope eq var hvar c hc
    simpa using hnot
  obtain ⟨after, hrun, hprinted⟩ : ∃ after,
      evalProgram ⟨.standard, 3⟩ 9 program 1 store = some (.null, after) ∧
        after.printed = #["a", "b"] := ⟨_, rfl, rfl⟩
  obtain ⟨after', hrun'⟩ : ∃ after', evalProgram ⟨.standard, 3⟩ 9 program 1
      (store.bind 0 "puts" (.int 7)) = some (.null, after') := ⟨_, rfl⟩
  have hthere : 0 < store.scopes.size := by
    decide
  have hbesides := evalProgram_besides habsent hunused hthere (.int 7) 3 9
  rw [hrun, hrun'] at hbesides
  cases hbesides with
  | some h => exact ⟨habsent, hunused, after, after', hrun, hrun', h.2, hprinted⟩

end Scriptlet
