import Scriptlet.Proofs.Eval.Discipline

/-!
# Scopes nest

The scope around a scope is older than it, so every way outwards ends, although functions point to
scopes that hold them. Functions point to scopes that are there. To say so of every point of a run,
the store is looked at before and after every node is evaluated, at every level, and where it is not
in order something else takes over. Whatever that is, it never does.

- `Store.WellScoped` : scopes lie in older ones, and functions in scopes that are there
- `Store.Chain` : the scopes on the way outwards
- `surveyedEval`, `Session.surveyedRun` : evaluation that is looked at
- `scopes_nest` : scopes nest in every session, and a name means its nearest binding
-/

namespace Scriptlet

/-! ## Stores in order -/

namespace Store

/-- Every function in a value was made in a scope that is there. -/
def Holds (store : Store) (v : Value) : Prop :=
  ∀ c ∈ v.closures, c.scope < store.scopes.size

instance (store : Store) (v : Value) : Decidable (store.Holds v) :=
  inferInstanceAs (Decidable (∀ c ∈ v.closures, c.scope < store.scopes.size))

/-- Every scope lies in an older one or in none, and binds functions whose scopes are there. -/
def WellScoped (store : Store) : Prop :=
  ∀ id < store.scopes.size, ∀ scope ∈ store.scopes[id]?,
    (∀ outer ∈ scope.outer, outer < id) ∧ ∀ var ∈ scope.vars, store.Holds var.2

instance (store : Store) : Decidable store.WellScoped :=
  inferInstanceAs (Decidable (∀ id < store.scopes.size, ∀ scope ∈ store.scopes[id]?,
    (∀ outer ∈ scope.outer, outer < id) ∧ ∀ var ∈ scope.vars, store.Holds var.2))

/-- A new session has its scopes in order. -/
theorem wellScoped_initial : initial.WellScoped := by
  decide

/-! ## The way outwards -/

/-- The scopes from the one with the given number outwards. -/
inductive Chain (store : Store) : Nat → List Scope → Prop
  | last {id : Nat} {scope : Scope} (eq : store.scopes[id]? = some scope)
      (outermost : scope.outer = none) : Chain store id [scope]
  | link {id outer : Nat} {scope : Scope} {chain : List Scope}
      (eq : store.scopes[id]? = some scope) (inside : scope.outer = some outer)
      (rest : Chain store outer chain) : Chain store id (scope :: chain)

variable {store : Store} {id : Nat} {chain : List Scope}

/-- Every way outwards ends, and no way is longer than the number where it starts. -/
theorem WellScoped.exists_chain (nested : store.WellScoped) (there : id < store.scopes.size) :
    ∃ chain, store.Chain id chain ∧ chain.length ≤ id + 1 := by
  induction id using Nat.strongRecOn with
  | ind id ih =>
      have hscope := Array.getElem?_eq_getElem there
      cases houter : store.scopes[id].outer with
      | none => exact ⟨_, .last hscope houter, Nat.le_add_left 1 id⟩
      | some outer =>
          have hlt : outer < id := (nested id there _ hscope).1 outer houter
          rcases ih outer hlt (Nat.lt_trans hlt there) with ⟨chain, hchain, hlength⟩
          exact ⟨_, .link hscope houter hchain, Nat.succ_le_succ (Nat.le_trans hlength hlt)⟩

/-- With a chance for every scope on the way, looking a name up gives the nearest binding. -/
theorem Chain.findFrom_eq (h : store.Chain id chain) (name : String) {fuel : Nat}
    (room : chain.length ≤ fuel) :
    store.findFrom name fuel id = chain.findSome? fun scope => scope.get? name := by
  induction h generalizing fuel with
  | @last id scope eq outermost =>
      cases fuel with
      | zero => cases room
      | succ fuel =>
          simp only [findFrom, eq, outermost, List.findSome?_cons, List.findSome?_nil]
          cases scope.get? name with
          | some value => rfl
          | none => rfl
  | @link id outer scope chain eq inside _ ih =>
      cases fuel with
      | zero => cases room
      | succ fuel =>
          simp only [findFrom, eq, inside, List.findSome?_cons]
          cases scope.get? name with
          | some value => rfl
          | none => exact ih (Nat.le_of_succ_le_succ room)

end Store

/-! ## Evaluation that is looked at -/

/-- Looks at the store before and after a run in a scope, and at the functions in the outcome.
Something else takes over where a scope is missing or does not lie in an older one. -/
def Run.surveyed (alarm : Run Value) (scope : Nat) (run : Run Value) : Run Value := fun store =>
  if scope < store.scopes.size ∧ store.WellScoped then
    match run store with
    | none => none
    | some (v, store') =>
      if store'.WellScoped ∧ store'.Holds v then some (v, store') else alarm store'
  else alarm store

def surveyedEval (machine : Machine) (alarm : Run Value) : Nat → Evaluator
  | 0 => fun node scope => Run.surveyed alarm scope (eval machine 0 node scope)
  | levels + 1 => fun node scope =>
    Run.surveyed alarm scope (evalLevel machine (surveyedEval machine alarm levels) node scope)

def surveyedProgram (machine : Machine) (alarm : Run Value) (levels : Nat) (program : Program)
    (scope : Nat) : Run Value :=
  match levels with
  | 0 => Run.surveyed alarm scope (return .error .recursionLimit)
  | levels + 1 => Run.surveyed alarm scope do
    let v ← Eval.stmts (surveyedEval machine alarm levels) scope .null program.stmts
    return v.settle

/-- Evaluates a program in the global scope, looking at every step. -/
def Session.surveyedRun (session : Session) (alarm : Run Value) (program : Program) :
    Option (Value × Session) :=
  (surveyedProgram session.machine alarm session.levels program Store.global session.store).map
    fun (value, store) => (value, { session with store := store })

namespace Discipline

/-- Every scope that is there may be used, and an older one may lie around it. -/
def scoping : Discipline where
  allowed _ := True
  usable n id := id < n
  around id outer := outer < id
  base := 0
  usable_mono le lt := Nat.lt_of_lt_of_le lt le
  usable_old lt _ := lt
  usable_new {n} _ := Nat.lt_succ_self n
  usable_outer lt lt' := Nat.lt_trans lt' lt
  around_new _ lt := lt

/-- Every expression may be evaluated. -/
theorem permits_scoping (es : List Expr) : scoping.Permits es :=
  fun _ _ => trivial

/-- A value is admitted just if its functions were made in scopes that are there. -/
theorem admits_scoping {store : Store} {v : Value} :
    scoping.Admits store.scopes.size v ↔ store.Holds v := by
  refine ⟨?_, ?_⟩
  · intro h c hc
    exact (h c hc).2
  · intro h c hc
    exact ⟨permits_scoping _, h c hc⟩

/-- A store keeps to the discipline just if its scopes are in order. -/
theorem keeps_scoping {store : Store} : scoping.Keeps store ↔ store.WellScoped := by
  refine ⟨?_, ?_⟩
  · intro h id there scope eq
    refine ⟨?_, ?_⟩
    · intro outer link
      exact h.outer there eq link
    · intro var mem
      exact admits_scoping.1 (h.bound there eq mem)
  · intro h
    refine ⟨Nat.zero_le _, ?_, ?_⟩
    · intro id outer scope there eq link
      exact (h id there scope eq).1 outer link
    · intro id scope var there eq mem
      exact admits_scoping.2 ((h id there scope eq).2 var mem)

/-- Looking at a run that keeps the store in order changes nothing about it. -/
theorem Sound.surveyed {n scope : Nat} {run run' : Run Value} (h : scoping.Sound n run run')
    (there : scope < n) (alarm : Run Value) :
    scoping.Sound n run (Run.surveyed alarm scope run') := by
  intro store size keeps
  rcases h size keeps with ⟨heq, hallows⟩
  refine ⟨?_, hallows⟩
  unfold Run.surveyed
  rw [if_pos ⟨Nat.lt_of_lt_of_le there size, keeps_scoping.1 keeps⟩, heq]
  rcases hrun : run store with _ | ⟨v, store'⟩
  · rfl
  · rcases hallows.keeps hrun with ⟨-, hkeeps, hadmits⟩
    have hcheck : store'.WellScoped ∧ store'.Holds v :=
      ⟨keeps_scoping.1 hkeeps, admits_scoping.1 hadmits⟩
    dsimp only
    rw [if_pos hcheck]

/-- Any machine with the standard host functions goes together with itself. -/
theorem machines_scoping (turns : Nat) :
    scoping.Machines ⟨.standard, turns⟩ ⟨.standard, turns⟩ :=
  ⟨rfl, fun _ => rfl, conserves_standard⟩

/-- Evaluation that is looked at keeps the store in order, and is no other evaluation. -/
theorem sound_surveyedEval (turns : Nat) (alarm : Run Value) (levels : Nat) :
    scoping.Evaluators (eval ⟨.standard, turns⟩ levels)
      (surveyedEval ⟨.standard, turns⟩ alarm levels) := by
  induction levels with
  | zero =>
      intro node scope n there _
      exact (Sound.error (machines_scoping turns) _).surveyed there alarm
  | succ levels ih =>
      intro node scope n there permits
      exact (sound_evalLevel (machines_scoping turns) ih node scope there permits).surveyed there alarm

/-- So is a program that is looked at. -/
theorem sound_surveyedProgram (turns : Nat) (alarm : Run Value) (levels : Nat) (program : Program)
    {n scope : Nat} (there : scope < n) :
    scoping.Sound n (evalProgram ⟨.standard, turns⟩ levels program scope)
      (surveyedProgram ⟨.standard, turns⟩ alarm levels program scope) := by
  cases levels with
  | zero => exact (Sound.error (machines_scoping turns) _).surveyed there alarm
  | succ levels =>
      have hnull : scoping.Admits n .null := .of_nil rfl
      have hmachines := machines_scoping turns
      have hstmts := sound_stmts hmachines (sound_surveyedEval turns alarm levels) there hnull
        (permits_scoping (exprsInStmts program.stmts))
      exact (hstmts.settle hmachines).surveyed there alarm

end Discipline

/-! ## Sessions -/

namespace Session

variable {session session' : Session} {program : Program} {value : Value}

/-- A program leaves the scopes of a session in order. -/
theorem wellScoped_of_run {turns : Nat} (standard : session.machine = ⟨.standard, turns⟩)
    (nested : session.store.WellScoped) (there : Store.global < session.store.scopes.size)
    (eq : session.run program = some (value, session')) :
    (session'.store.WellScoped ∧ session'.store.Holds value) ∧
      session.store.scopes.size ≤ session'.store.scopes.size := by
  have heval := (run_eq_some eq).1
  rw [standard] at heval
  have hsound := Discipline.sound_evalProgram (Discipline.machines_scoping turns) session.levels
    there (Discipline.permits_scoping program.exprs)
  have hallows := (hsound (Nat.le_refl _) (Discipline.keeps_scoping.2 nested)).2
  rcases hallows.keeps heval with ⟨hle, hkeeps, hadmits⟩
  exact ⟨⟨Discipline.keeps_scoping.1 hkeeps, Discipline.admits_scoping.1 hadmits⟩, hle⟩

/-- The scopes of every session that can be reached are in order. -/
theorem Reached.wellScoped (reached : session.Reached) :
    session.store.WellScoped ∧ Store.global < session.store.scopes.size := by
  induction reached with
  | start => exact ⟨Store.wellScoped_initial, Nat.zero_lt_one⟩
  | next reached eq ih =>
      rcases reached.machine_eq with ⟨turns, hmachine⟩
      have hnext := wellScoped_of_run hmachine ih.1 ih.2 eq
      exact ⟨hnext.1.1, Nat.lt_of_lt_of_le ih.2 hnext.2⟩

/-- Looking at a program changes nothing about it. -/
theorem Reached.surveyedRun_eq (reached : session.Reached) (alarm : Run Value) (program : Program) :
    session.surveyedRun alarm program = session.run program := by
  rcases reached.machine_eq with ⟨turns, hmachine⟩
  rcases reached.wellScoped with ⟨hnested, hthere⟩
  have hsound := Discipline.sound_surveyedProgram turns alarm session.levels program hthere
  have heq := (hsound (Nat.le_refl _) (Discipline.keeps_scoping.2 hnested)).1
  rw [surveyedRun, run_eq_map, hmachine, heq]

/-- What holds of the scopes of a session when a program is evaluated in it. -/
structure Nests (session : Session) (program : Program) : Prop where
  /-- Before the program every scope lies in an older one, and every function in one that is
  there. -/
  start : session.store.WellScoped
  /-- At no point of the run is it otherwise: nothing takes over, whatever it is. -/
  surveyed (alarm : Run Value) : session.surveyedRun alarm program = session.run program
  /-- Nor is it behind the program. -/
  result {value : Value} {session' : Session} (eq : session.run program = some (value, session')) :
    session'.store.WellScoped ∧ session'.store.Holds value
  /-- In such a store every way outwards ends, and a name means its nearest binding on that way. -/
  find {store : Store} (nested : store.WellScoped) {id : Nat} (there : id < store.scopes.size) :
    ∃ chain, store.Chain id chain ∧ chain.length ≤ store.scopes.size ∧ ∀ name,
      (∀ v, store.find id name = some v ↔ ∃ inside scope outside,
        chain = inside ++ scope :: outside ∧ scope.get? name = some v ∧
          ∀ nearer ∈ inside, nearer.get? name = none) ∧
      (store.find id name = none ↔ ∀ scope ∈ chain, scope.get? name = none)

end Session

/-- Scopes nest in every program of every session. -/
theorem scopes_nest {session : Session} (reached : session.Reached) (program : Program) :
    session.Nests program := by
  rcases reached.wellScoped with ⟨hnested, hthere⟩
  refine ⟨hnested, fun alarm => reached.surveyedRun_eq alarm program, ?_, ?_⟩
  · intro value session' eq
    rcases reached.machine_eq with ⟨turns, hmachine⟩
    exact (Session.wellScoped_of_run hmachine hnested hthere eq).1
  · intro store nested id there
    rcases nested.exists_chain there with ⟨chain, hchain, hlength⟩
    have hsize := Nat.le_trans hlength there
    refine ⟨chain, hchain, hsize, fun name => ?_⟩
    have hfind : store.find id name = chain.findSome? fun scope => scope.get? name :=
      hchain.findFrom_eq name hsize
    rw [hfind]
    exact ⟨fun v => List.findSome?_eq_some_iff, List.findSome?_eq_none_iff⟩

/-- A function that is stored in a hash holds on to the scope of a call, where it is bound
itself. -/
theorem scopes_nest_stored_function :
    let t : Token := ⟨.eof, "", .start⟩
    let f : Expr := .function t [⟨t, "x"⟩] (.mk t [
      .define t ⟨t, "g"⟩ (.function t [] (.mk t [.returnValue t (.ident ⟨t, "x"⟩)])),
      .returnValue t (.hash t [(.str t "g", .array t [.ident ⟨t, "g"⟩])])])
    let earlier : Program := ⟨[.define t ⟨t, "h"⟩ (.call t f [.int t 5])]⟩
    let later : Program := ⟨[.expr t (.call t
      (.index t (.index t (.ident ⟨t, "h"⟩) (.str t "g")) (.int t 0)) [])]⟩
    ∃ session, Session.run ⟨⟨.standard, 3⟩, 9, .initial⟩ earlier = some (.null, session) ∧
      session.Nests later := by
  intro t f earlier later
  obtain ⟨session, hrun⟩ : ∃ session,
      Session.run ⟨⟨.standard, 3⟩, 9, .initial⟩ earlier = some (.null, session) := ⟨_, rfl⟩
  exact ⟨session, hrun, scopes_nest (.next (.start 3 9) hrun) later⟩

end Scriptlet
