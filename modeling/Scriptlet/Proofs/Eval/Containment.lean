import Scriptlet.Proofs.Eval.Simulation
import Scriptlet.Session

/-!
# Signals are contained

A signal is handed outwards and nothing else: it is never bound, never put into an array or a hash,
never passed to a function and never returned by another signal. To say so of every point of a run,
evaluation is watched: the store and the outcome of every node, at every level, and the arguments of
every host function are looked at, and where a signal is out of place something else takes over.
Whatever that is, watched runs are like any others, so nothing ever takes over.

- `Alarm` : what takes over
- `watchedEval`, `Session.watchedRun` : evaluation that is watched
- `Session.Reached` : sessions that come about by evaluating programs
- `Eval.Quiet` : calls whose parts give no signal
- `signals_contained` : watching changes nothing, and signals end at calls, loops and programs
-/

namespace Scriptlet

/-! ## Watched runs -/

/-- What takes over where a signal is out of place: a run, and a host function. -/
structure Alarm where
  run : Run Value
  native : Native

/-- Looks at the store before and after a run, and at the outcome. -/
def Run.watched (alarm : Alarm) (run : Run Value) : Run Value := fun store =>
  if store.isSignalFree then
    match run store with
    | none => none
    | some (v, store') =>
      if v.isContained && store'.isSignalFree then some (v, store') else alarm.run store'
  else alarm.run store

def Native.watched (alarm : Alarm) (native : Native) : Native := fun args =>
  if args.all Value.isSignalFree then native args else alarm.native args

def Builtins.watched (alarm : Alarm) (builtins : Builtins) : Builtins :=
  ⟨builtins.entries.map fun entry => (entry.1, entry.2.watched alarm)⟩

def watchedEval (machine : Machine) (alarm : Alarm) : Nat → Evaluator
  | 0 => fun _ _ => return .error .recursionLimit
  | levels + 1 => fun node scope =>
    (evalLevel { machine with builtins := machine.builtins.watched alarm }
      (watchedEval machine alarm levels) node scope).watched alarm

def watchedProgram (machine : Machine) (alarm : Alarm) (levels : Nat) (program : Program)
    (scope : Nat) : Run Value :=
  match levels with
  | 0 => return .error .recursionLimit
  | levels + 1 => Run.watched alarm do
    let v ← Eval.stmts (watchedEval machine alarm levels) scope .null program.stmts
    return v.settle

def Session.watchedRun (session : Session) (alarm : Alarm) (program : Program) :
    Option (Value × Session) :=
  (watchedProgram session.machine alarm session.levels program Store.global session.store).map
    fun (value, store) => (value, { session with store := store })

/-- Sessions with the standard table that come about from an empty one by evaluating programs, with
any limits. -/
inductive Session.Reached : Session → Prop
  | start (turns levels : Nat) : Reached ⟨⟨.standard, turns⟩, levels, .initial⟩
  | next {session session' : Session} {program : Program} {value : Value}
      (reached : Reached session) (eq : session.run program = some (value, session')) :
      Reached session'

/-! ## Watching changes nothing -/

variable {alarm : Alarm}

/-- Outcomes that agree with an attempt are contained, in a store without signals. -/
theorem Agrees.contained {good : Value → Prop} {v : Value} {store : Store}
    {outcome' : Option (Except Signal Value × Store)}
    (sound : ∀ v, good v → v.isSignalFree = true)
    (h : Agrees Signal.valueOf good (some (v, store)) outcome') :
    v.isContained = true ∧ store.isSignalFree = true := by
  cases h with
  | ok _ isGood free => exact ⟨Value.isContained_of_free (sound _ isGood), free⟩
  | raised _ contained free => exact ⟨contained, free⟩

/-- A run that follows an attempt keeps signals out of the store. -/
theorem Follows.contained {run : Run Value} {attempt : Attempt Value} (h : Follows run attempt)
    {store store' : Store} {v : Value} (free : store.isSignalFree = true)
    (eq : run store = some (v, store')) : v.isContained = true ∧ store'.isSignalFree = true := by
  have hagrees := h free
  rw [eq] at hagrees
  exact hagrees.contained fun _ hv => hv

/-- Watching a run that follows an attempt changes nothing about it. -/
theorem Follows.watched_apply {run : Run Value} {attempt : Attempt Value} (h : Follows run attempt)
    {store : Store} (free : store.isSignalFree = true) :
    run.watched alarm store = run store := by
  unfold Run.watched
  rw [if_pos free]
  rcases hrun : run store with _ | ⟨v, store'⟩
  · rfl
  · have hcheck : (v.isContained && store'.isSignalFree) = true := by
      rw [Bool.and_eq_true]
      exact h.contained free hrun
    dsimp only
    rw [if_pos hcheck]

/-- A run that follows an attempt does so under watch, too. -/
theorem Follows.watched {run : Run Value} {attempt : Attempt Value} (h : Follows run attempt) :
    Follows (run.watched alarm) attempt := by
  intro store free
  rw [h.watched_apply free]
  exact h free

/-- Watching a table finds the same functions in it, each of them watched. -/
theorem Builtins.find?_watched (builtins : Builtins) (name : String) :
    (builtins.watched alarm).find? name = (builtins.find? name).map (Native.watched alarm) := by
  rcases builtins with ⟨entries⟩
  unfold Builtins.watched Builtins.find?
  induction entries with
  | nil => rfl
  | cons entry rest ih =>
      rcases entry with ⟨key, native⟩
      simp only [List.map_cons, List.lookup_cons]
      split
      · rfl
      · exact ih

/-- A table under watch answers as the one without. -/
theorem serves_watched (turns : Nat) :
    Machine.Serves ⟨Builtins.standard.watched alarm, turns⟩ ⟨.standard, turns⟩ := by
  refine ⟨?_, rfl⟩
  intro name
  dsimp only
  rw [Builtins.find?_watched]
  cases hfind : Builtins.standard.find? name with
  | none => exact .none
  | some native =>
      -- Arguments without signals never reach what takes over.
      refine .some fun args free => ⟨?_, tame_standard hfind args free⟩
      have hargs : args.all Value.isSignalFree = true := List.all_eq_true.2 free
      simp only [Native.watched, hargs, if_true]

/-- Evaluation under watch follows evaluation by raising. -/
theorem follows_watchedEval (turns levels : Nat) (node : Node) (scope : Nat) :
    Follows (watchedEval ⟨.standard, turns⟩ alarm levels node scope)
      (raisingEval ⟨.standard, turns⟩ levels node scope) := by
  induction levels generalizing node scope with
  | zero => exact .error _
  | succ levels ih =>
      exact (follows_evalLevel (serves_watched turns) ih node scope).watched

theorem follows_watchedProgram (turns levels : Nat) (program : Program) (scope : Nat) :
    Follows (watchedProgram ⟨.standard, turns⟩ alarm levels program scope)
      (raisingProgram ⟨.standard, turns⟩ levels program scope) := by
  cases levels with
  | zero => exact .error _
  | succ levels =>
      have hinner (node : Node) (scope : Nat) :
          Follows (watchedEval ⟨.standard, turns⟩ alarm levels node scope)
            (raisingEval ⟨.standard, turns⟩ levels node scope) :=
        follows_watchedEval turns levels node scope
      exact (follows_stmts hinner scope .null program.stmts rfl).settle.watched

/-! ## Where signals end -/

/-- What a run gives is free of signals or an error. -/
def Answers (run : Run Value) : Prop :=
  ∀ ⦃store store' : Store⦄ ⦃v : Value⦄, store.isSignalFree = true →
    run store = some (v, store') → v.IsAnswer

theorem Value.IsAnswer.stays {v : Value} (h : v.IsAnswer) :
    (∀ w, v ≠ .returned w) ∧ v ≠ .broke := by
  rcases h with hfree | ⟨fault, rfl⟩
  · refine ⟨?_, ?_⟩
    · rintro w rfl
      cases hfree
    · rintro rfl
      cases hfree
  · exact ⟨nofun, nofun⟩

/-- Once its signals have ended, a contained value is an answer. -/
theorem isAnswer_settle {v : Value} (contained : v.isContained = true) : v.settle.IsAnswer := by
  cases v with
  | error fault => exact .error fault
  | returned w => exact .free contained
  | broke => exact .error _
  | _ => exact .free contained

/-- A run that goes on after another one has an outcome only through that of the first. -/
theorem Run.exists_of_bind_eq_some {α β : Type} {run : Run α} {next : α → Run β}
    {store store' : Store} {b : β} (eq : (run >>= next) store = some (b, store')) :
    ∃ a store₁, run store = some (a, store₁) ∧ next a store₁ = some (b, store') := by
  rw [Run.bind_apply] at eq
  rcases hrun : run store with _ | ⟨a, store₁⟩
  · rw [hrun] at eq
    cases eq
  · rw [hrun] at eq
    exact ⟨a, store₁, rfl, eq⟩

/-- A function and a program let neither returns nor breaks out. -/
theorem Follows.answers_settle {run : Run Value} {attempt : Attempt Value}
    (h : Follows run attempt) : Answers (do let v ← run; return v.settle) := by
  intro store store' v free eq
  rcases Run.exists_of_bind_eq_some eq with ⟨w, store₁, hrun, hpure⟩
  cases hpure
  exact isAnswer_settle (h.contained free hrun).1

/-- A tame host function answers if its arguments are free of signals. -/
theorem answers_callNative {native : Native} (tame : native.Tame) {args : List Value}
    (free : ∀ v ∈ args, v.isSignalFree = true) : Answers (Eval.callNative native args) := by
  intro store store' v _ eq
  cases eq
  exact (tame args free).orNull

section Level

variable {deeper : Evaluator} {deeper' : Node → Nat → Attempt Value}
variable (inner : ∀ node scope, Follows (deeper node scope) (deeper' node scope))
include inner

/-- So does a function of the language. -/
theorem answers_callClosure (closure : Closure) {args : List Value}
    (free : ∀ v ∈ args, v.isSignalFree = true) : Answers (Eval.callClosure deeper closure args) := by
  unfold Eval.callClosure
  split
  · intro store store' v hstore eq
    have henter := Store.isSignalFree_enter hstore closure free
    exact (inner (.stmt (.block closure.body)) store.scopes.size).answers_settle henter eq
  · intro store store' v _ eq
    cases eq
    exact .error _

/-- Calling a value lets neither returns nor breaks out. -/
theorem answers_apply {machine : Machine} (standard : machine.builtins = .standard) (callee : Value)
    {args : List Value} (free : ∀ v ∈ args, v.isSignalFree = true) :
    Answers (Eval.apply machine deeper callee args) := by
  have herror (fault : Fault) : Answers (pure (.error fault)) := by
    intro store store' v _ eq
    cases eq
    exact .error fault
  cases callee with
  | function closure => exact answers_callClosure inner closure free
  | builtin builtin =>
      unfold Eval.apply
      dsimp only
      split
      · next native hfind =>
          rw [standard] at hfind
          exact answers_callNative (tame_standard hfind) free
      · exact herror _
  | _ => exact herror _

end Level

/-- A call whose callee and arguments give no signal. -/
def Eval.Quiet (machine : Machine) (deeper : Evaluator) (scope : Nat) (callee : Expr)
    (args : List Expr) (store : Store) : Prop :=
  match native? machine callee with
  | some _ => ∃ values store', exprs deeper scope [] args store = some (.ok values, store')
  | none => ∃ f store₁ values store₂, deeper (.expr callee) scope store = some (f, store₁) ∧
      ¬ f.isSignal = true ∧ exprs deeper scope [] args store₁ = some (.ok values, store₂)

/-- The values of expressions are free of signals, if all of them have values. -/
theorem FollowsAll.free {run : Run (Except Value (List Value))} {attempt : Attempt (List Value)}
    (h : FollowsAll run attempt) {store store' : Store} {values : List Value}
    (free : store.isSignalFree = true) (eq : run store = some (.ok values, store')) :
    (∀ v ∈ values, v.isSignalFree = true) ∧ store'.isSignalFree = true := by
  have hagrees := h free
  rw [eq] at hagrees
  generalize attempt store = outcome' at hagrees
  -- The outcome is named so that the cases can be taken apart; only values can be a list.
  generalize houtcome : some (Except.ok values, store') = outcome at hagrees
  cases hagrees with
  | none => cases houtcome
  | ok values isGood hstore =>
      cases houtcome
      exact ⟨isGood, hstore⟩
  | raised => cases houtcome

/-- A call lets no return and no break out, unless its callee or an argument gives one. -/
theorem isAnswer_call {machine : Machine} (standard : machine.builtins = .standard)
    {deeper : Evaluator} {deeper' : Node → Nat → Attempt Value}
    (inner : ∀ node scope, Follows (deeper node scope) (deeper' node scope)) {scope : Nat}
    {callee : Expr} {args : List Expr} {store store' : Store} {v : Value}
    (free : store.isSignalFree = true) (quiet : Eval.Quiet machine deeper scope callee args store)
    (eq : Eval.call machine deeper scope callee args store = some (v, store')) : v.IsAnswer := by
  have hexprs := followsAll_exprs_nil inner scope args
  unfold Eval.Quiet at quiet
  unfold Eval.call at eq
  cases hnative : Eval.native? machine callee with
  | some native =>
      simp only [hnative] at quiet eq
      rcases quiet with ⟨values, store₁, hvalues⟩
      have hfree := hexprs.free free hvalues
      -- Only a name is looked up in the table.
      have htame : native.Tame := by
        cases callee with
        | ident id =>
            have hfind : machine.builtins.find? id.name = some native := hnative
            rw [standard] at hfind
            exact tame_standard hfind
        | _ => cases hnative
      unfold Run.andThenAll at eq
      rw [Run.bind_apply, hvalues] at eq
      exact answers_callNative htame hfree.1 hfree.2 eq
  | none =>
      simp only [hnative] at quiet eq
      rcases quiet with ⟨f, store₁, values, store₂, hf, hquiet, hvalues⟩
      have hcallee := (inner (.expr callee) scope).contained free hf
      have hfree := hexprs.free hcallee.2 hvalues
      -- The callee and the arguments give no signal, so the call itself is reached.
      unfold Run.andThen Run.andThenAll at eq
      rw [Run.bind_apply, hf] at eq
      dsimp only at eq
      rw [if_neg hquiet, Run.bind_apply, hvalues] at eq
      exact answers_apply inner standard f hfree.1 hfree.2 eq

/-- No break gets out of a loop. -/
theorem Value.loopExit_ne_broke (v : Value) : v.loopExit ≠ .broke := by
  cases v <;> exact nofun

/-- A loop lets no break out. -/
theorem Run.loop_ne_broke {test body : Run Value} {turns : Nat} {store store' : Store} {v : Value}
    (eq : Run.loop test body turns store = some (v, store')) : v ≠ .broke := by
  induction turns generalizing store with
  | zero => cases eq
  | succ turns ih =>
      unfold Run.loop at eq
      rcases Run.exists_of_bind_eq_some eq with ⟨t, store₁, _, hafter⟩
      -- The loop ends by a signal of the test, by one of the body, or by a test that fails.
      split at hafter
      · cases hafter
        exact t.loopExit_ne_broke
      · split at hafter
        · rcases Run.exists_of_bind_eq_some hafter with ⟨w, store₂, _, hnext⟩
          split at hnext
          · cases hnext
            exact w.loopExit_ne_broke
          · exact ih hnext
        · cases hafter
          exact nofun

/-- A program lets neither returns nor breaks out. -/
theorem answers_evalProgram (turns levels : Nat) (program : Program) (scope : Nat) :
    Answers (evalProgram ⟨.standard, turns⟩ levels program scope) := by
  cases levels with
  | zero =>
      intro store store' v _ eq
      cases eq
      exact .error _
  | succ levels =>
      have hinner := follows_eval (serves_standard turns) levels
      exact (follows_stmts hinner scope .null program.stmts rfl).answers_settle

/-! ## Sessions -/

namespace Session

variable {session session' : Session} {program : Program} {value : Value}

/-- Evaluating a program changes the store of a session and nothing else. -/
theorem run_eq_map (session : Session) (program : Program) :
    session.run program =
      (evalProgram session.machine session.levels program Store.global session.store).map
        fun (value, store) => (value, { session with store := store }) := by
  unfold run
  split
  · next value store heval => rw [heval]; rfl
  · next heval => rw [heval]; rfl

/-- What a session's run of a program says about its evaluation. -/
theorem run_eq_some (eq : session.run program = some (value, session')) :
    evalProgram session.machine session.levels program Store.global session.store =
      some (value, session'.store) ∧ session'.machine = session.machine := by
  rw [run_eq_map, Option.map_eq_some_iff] at eq
  rcases eq with ⟨⟨v, store⟩, heval, hpair⟩
  cases hpair
  exact ⟨heval, rfl⟩

/-- Every session that can be reached has the host functions that it started with. -/
theorem Reached.machine_eq (reached : session.Reached) :
    ∃ turns, session.machine = ⟨.standard, turns⟩ := by
  induction reached with
  | start turns levels => exact ⟨turns, rfl⟩
  | next _ eq ih =>
      rw [(run_eq_some eq).2]
      exact ih

/-- No signal is bound in a session that can be reached. -/
theorem Reached.isSignalFree (reached : session.Reached) : session.store.isSignalFree = true := by
  induction reached with
  | start => exact Store.isSignalFree_initial
  | @next session session' program value reached eq ih =>
      rcases reached.machine_eq with ⟨turns, hmachine⟩
      have heval := (run_eq_some eq).1
      rw [hmachine] at heval
      exact ((follows_evalProgram (serves_standard turns) _ _ _).contained ih heval).2

/-- Watching a program changes nothing about it. -/
theorem Reached.watchedRun_eq (reached : session.Reached) (alarm : Alarm) (program : Program) :
    session.watchedRun alarm program = session.run program := by
  rcases reached.machine_eq with ⟨turns, hmachine⟩
  have hplain := follows_evalProgram (serves_standard turns) session.levels program Store.global
    reached.isSignalFree
  have hwatched : Agrees Signal.valueOf _
      (watchedProgram ⟨.standard, turns⟩ alarm session.levels program Store.global session.store)
      _ := follows_watchedProgram turns session.levels program Store.global reached.isSignalFree
  have heq : watchedProgram session.machine alarm session.levels program Store.global session.store =
      evalProgram session.machine session.levels program Store.global session.store := by
    rw [hmachine]
    exact hwatched.eq_map.trans hplain.eq_map.symm
  rw [watchedRun, run_eq_map, heq]

/-- How far signals get when a program is evaluated in a session. -/
structure Contains (session : Session) (program : Program) : Prop where
  /-- At no point of the run is a signal bound, in an array or a hash, passed to a function or
  returned: nothing takes over, whatever it is. -/
  watched (alarm : Alarm) : session.watchedRun alarm program = session.run program
  /-- The program lets neither a return nor a break out. -/
  result {value : Value} {session' : Session} (eq : session.run program = some (value, session')) :
    session'.store.isSignalFree = true ∧ (∀ v, value ≠ .returned v) ∧ value ≠ .broke
  /-- A call lets neither out, unless it comes from its callee or an argument. -/
  call {levels scope : Nat} {token : Token} {callee : Expr} {args : List Expr}
    {store store' : Store} {value : Value} (free : store.isSignalFree = true)
    (quiet : Eval.Quiet session.machine (eval session.machine levels) scope callee args store)
    (eq : eval session.machine (levels + 1) (.expr (.call token callee args)) scope store =
      some (value, store')) : (∀ v, value ≠ .returned v) ∧ value ≠ .broke
  /-- A loop lets no break out. -/
  loop {levels scope : Nat} {token : Token} {test : Expr} {body : Block} {store store' : Store}
    {value : Value}
    (eq : eval session.machine levels (.expr (.whileDo token test body)) scope store =
      some (value, store')) : value ≠ .broke

end Session

/-- Signals are contained in every program of every session. -/
theorem signals_contained {session : Session} (reached : session.Reached) (program : Program) :
    session.Contains program := by
  rcases reached.machine_eq with ⟨turns, hmachine⟩
  refine ⟨fun alarm => reached.watchedRun_eq alarm program, ?_, ?_, ?_⟩
  · intro value session' eq
    have heval := (Session.run_eq_some eq).1
    rw [hmachine] at heval
    have hanswer := answers_evalProgram turns _ _ _ reached.isSignalFree heval
    exact ⟨(reached.next eq).isSignalFree, hanswer.stays⟩
  · intro levels scope token callee args store store' value free quiet eq
    rw [hmachine] at quiet eq
    exact (isAnswer_call rfl (follows_eval (serves_standard turns) levels) free quiet eq).stays
  · intro levels scope token test body store store' value eq
    cases levels with
    | zero =>
        cases eq
        exact nofun
    | succ levels => exact Run.loop_ne_broke eq

/-- A session in which an array was defined before. -/
theorem signals_contained_after_definition :
    let t : Token := ⟨.eof, "", .start⟩
    let earlier : Program := ⟨[.define t ⟨t, "x"⟩ (.array t [.int t 1, .str t "a"])]⟩
    let later : Program := ⟨[.expr t (.call t (.ident ⟨t, "push"⟩)
      [.ident ⟨t, "x"⟩, .whileDo t (.bool t true) (.mk t [.breakLoop t])]),
      .returnValue t (.index t (.ident ⟨t, "x"⟩) (.int t 0))]⟩
    ∃ session, Session.run ⟨⟨.standard, 3⟩, 9, .initial⟩ earlier = some (.null, session) ∧
      session.Contains later := by
  intro t earlier later
  obtain ⟨session, hrun⟩ : ∃ session,
      Session.run ⟨⟨.standard, 3⟩, 9, .initial⟩ earlier = some (.null, session) := ⟨_, rfl⟩
  exact ⟨session, hrun, signals_contained (.next (.start 3 9) hrun) later⟩

end Scriptlet
