import Scriptlet.Proofs.Eval.Containment
import Scriptlet.Proofs.Eval.Naturality
import Scriptlet.Proofs.Parse.Joined

/-!
# Programs one after another, and as one

A session that is given several sources, one after another, does what it does with all of them as a
single source, as long as nothing ends one of them early. The trees differ only in the places of
their tokens, since every source but the first one stands further down in the single text.

- `Session.runAll` : programs one after another
- `Session.GoesOn` : programs that end neither with an error nor by a return
- `Session.run_flatMap` : programs as one
- `run_joinSources` : sources as one
-/

namespace Scriptlet

/-! ## Statements of several programs -/

namespace Eval

variable {deeper : Evaluator} {scope : Nat}

/-- Statements come after those in front of them, unless these give a signal. -/
theorem stmts_append {last : Value} (h : last.isSignal = false) (sts sts' : List Stmt) :
    stmts deeper scope last (sts ++ sts') =
      (stmts deeper scope last sts).andThen fun v => stmts deeper scope v sts' := by
  induction sts generalizing last with
  | nil =>
      simp only [stmts, Run.andThen, pure_bind, h]
      rfl
  | cons st rest ih =>
      simp only [List.cons_append, stmts, Run.andThen, bind_assoc]
      congr 1
      funext v
      cases hv : v.isSignal with
      | true => simp [hv]
      | false => simpa [Run.andThen] using ih hv

/-- With a statement to give a value, the value before it makes no difference. -/
theorem stmts_of_ne_nil {sts : List Stmt} (h : sts ≠ []) (last last' : Value) :
    stmts deeper scope last sts = stmts deeper scope last' sts := by
  cases sts with
  | nil => exact absurd rfl h
  | cons st rest => rfl

end Eval

namespace Session

/-! ## Programs one after another -/

/-- Evaluates programs one after another. The value is that of the last one, or `last` if there are
none. -/
def runAll (session : Session) (last : Value) : List Program → Option (Value × Session)
  | [] => some (last, session)
  | program :: rest =>
    match session.run program with
    | some (value, session') => session'.runAll value rest
    | none => none

/-- The program is left by a return outside of functions. -/
def Returns (session : Session) (program : Program) : Prop :=
  ∃ levels value store, session.levels = levels + 1 ∧
    Eval.stmts (eval session.machine levels) Store.global .null program.stmts session.store =
      some (.returned value, store)

/-- None of the programs, evaluated one after another, gives an error or is left by a return. -/
def GoesOn (session : Session) : List Program → Prop
  | [] => True
  | program :: rest =>
    ∀ value session', session.run program = some (value, session') →
      (∀ fault, value ≠ .error fault) ∧ ¬ session.Returns program ∧ session'.GoesOn rest

variable {program : Program}

section Levels

variable {machine : Machine} {levels : Nat} {store store' : Store}

/-- A program gives the value of its statements, settled. -/
theorem run_of_stmts {v : Value} (eq : Eval.stmts (eval machine levels) Store.global .null
      program.stmts store = some (v, store')) :
    run ⟨machine, levels + 1, store⟩ program = some (v.settle, ⟨machine, levels + 1, store'⟩) := by
  rw [run_eq_map, evalProgram, Run.bind_apply, eq]
  rfl

/-- A program goes on if its statements give no signal. -/
theorem goesOn_singleton_iff : GoesOn ⟨machine, levels + 1, store⟩ [program] ↔
    ∀ v store', Eval.stmts (eval machine levels) Store.global .null program.stmts store =
      some (v, store') → v.isSignal = false := by
  constructor
  · intro goesOn v store' eq
    rcases goesOn _ _ (run_of_stmts eq) with ⟨hfault, hreturns, -⟩
    cases v with
    | error fault => exact absurd rfl (hfault fault)
    | returned w => exact absurd ⟨levels, w, store', rfl, eq⟩ hreturns
    | broke => exact absurd rfl (hfault .breakOutsideLoop)
    | _ => rfl
  · intro quiet value session' eq
    rcases run_eq_some eq with ⟨heval, -⟩
    rcases Run.exists_of_bind_eq_some heval with ⟨v, store₁, hstmts, hsettle⟩
    have hsignal := quiet v store₁ hstmts
    cases hsettle
    refine ⟨?_, ?_, trivial⟩
    · intro fault hfault
      cases v <;> cases hsignal <;> cases hfault
    · rintro ⟨levels', w, store₂, hlevels, hreturned⟩
      cases hlevels
      cases quiet _ _ hreturned

end Levels

/-- More statements behind a program that goes on are a program of their own. -/
theorem run_append {session : Session} (goesOn : session.GoesOn [program]) {sts : List Stmt}
    (more : sts ≠ []) :
    session.run ⟨program.stmts ++ sts⟩ =
      match session.run program with
      | some (_, session') => session'.run ⟨sts⟩
      | none => none := by
  rcases session with ⟨machine, _ | levels, store⟩
  · -- Without a level the program itself ends with an error.
    exact absurd rfl ((goesOn _ _ rfl).1 .recursionLimit)
  · have happend : Eval.stmts (eval machine levels) Store.global .null (program.stmts ++ sts) =
        (Eval.stmts (eval machine levels) Store.global .null program.stmts).andThen fun v =>
          Eval.stmts (eval machine levels) Store.global v sts := Eval.stmts_append rfl _ _
    rw [run_eq_map, run_eq_map]
    simp only [evalProgram, happend, Run.andThen, bind_assoc]
    rw [Run.bind_apply, Run.bind_apply]
    cases hstmts : Eval.stmts (eval machine levels) Store.global .null program.stmts store with
    | none => rfl
    | some found =>
        rcases found with ⟨v, store₁⟩
        dsimp only
        rw [goesOn_singleton_iff.1 goesOn v store₁ hstmts, Eval.stmts_of_ne_nil more v .null]
        exact (run_eq_map ⟨machine, levels + 1, store₁⟩ ⟨sts⟩).symm

/-- The value of several programs is that of the last one. -/
theorem runAll_of_ne_nil {programs : List Program} (h : programs ≠ []) (session : Session)
    (last last' : Value) : session.runAll last programs = session.runAll last' programs := by
  cases programs with
  | nil => exact absurd rfl h
  | cons program rest => rfl

/-- Programs that go on, and a last one with a statement in it, as one program. -/
theorem run_flatMap (session : Session) {programs : List Program} (some : programs ≠ [])
    (ends : ∀ program ∈ programs.getLast?, program.stmts ≠ [])
    (goesOn : session.GoesOn programs.dropLast) :
    session.run ⟨programs.flatMap Program.stmts⟩ = session.runAll .null programs := by
  induction programs generalizing session with
  | nil => exact absurd rfl some
  | cons program rest ih =>
      rw [List.flatMap_cons, runAll]
      by_cases hrest : rest = []
      · subst hrest
        rw [List.flatMap_nil, List.append_nil]
        cases session.run program <;> rfl
      · rw [List.getLast?_cons_of_ne_nil hrest] at ends
        rw [List.dropLast_cons_of_ne_nil hrest] at goesOn
        have hmore : rest.flatMap Program.stmts ≠ [] := by
          intro hnil
          have hlast := List.getLast_mem hrest
          exact ends _ (List.getLast?_eq_some_getLast hrest)
            (List.flatMap_eq_nil_iff.1 hnil _ hlast)
        have hfirst : session.GoesOn [program] := by
          intro value session' eq
          exact ⟨(goesOn value session' eq).1, (goesOn value session' eq).2.1, trivial⟩
        rw [run_append hfirst hmore]
        cases hrun : session.run program with
        | none => rfl
        | some found =>
            have hnext := ih found.2 hrest ends (goesOn found.1 found.2 hrun).2.2
            exact hnext.trans (runAll_of_ne_nil hrest found.2 .null found.1)

/-! ## Places of tokens -/

/-- The statements of several programs without their positions are those of each without its own. -/
theorem unplaced_flatMap (programs : List Program) :
    (⟨programs.flatMap Program.stmts⟩ : Program).unplaced =
      ⟨programs.flatMap fun program => program.unplaced.stmts⟩ := by
  unfold Program.unplaced Program.mapTokens
  congr 1
  induction programs with
  | nil => rfl
  | cons program rest ih => rw [List.flatMap_cons, mapTokensStmts_append, ih, List.flatMap_cons]

/-- An outcome without the places of the tokens that functions keep. -/
def unplaced (outcome : Option (Value × Session)) : Option (Value × Session) :=
  outcome.map fun (value, session) => (value.mapTokens Token.unplaced,
    { session with store := session.store.mapTokens Token.unplaced })

/-- Programs that differ in the places of their tokens do the same in a new session. -/
theorem unplaced_run_eq {program program' : Program} (h : program.unplaced = program'.unplaced)
    (turns levels : Nat) :
    unplaced (run ⟨⟨.standard, turns⟩, levels, .initial⟩ program) =
      unplaced (run ⟨⟨.standard, turns⟩, levels, .initial⟩ program') := by
  have hforget (program : Program) :
      unplaced (run ⟨⟨.standard, turns⟩, levels, .initial⟩ program) =
        run ⟨⟨.standard, turns⟩, levels, .initial⟩ program.unplaced := by
    have hnatural := natural_evalProgram Token.unplaced turns levels program Store.global .initial
    -- A new store holds no function, so it has no tokens.
    have hinitial : Store.initial.mapTokens Token.unplaced = .initial := by
      simp [Store.initial, Store.mapTokens, Scope.mapTokens]
    rw [hinitial] at hnatural
    rw [run_eq_map, run_eq_map, Program.unplaced, hnatural, unplaced, mapOutcome, Option.map_map,
      Option.map_map]
    rfl
  rw [hforget program, hforget program', h]

end Session

/-- Sources without diagnostics, all of them but the last one complete, with semicolons on lines of
their own between them. They are read as one program with the statements of all of them. If the last
one has a statement, and none of the others gives an error or is left by a return, that program does
what the sources do one after another: it gives the same value, prints the same lines and leaves the
same bindings. Only the places of the tokens differ. -/
theorem run_joinSources {sources : List String} (some : sources ≠ [])
    (quiet : ∀ src ∈ sources, (parse src).2 = [])
    (complete : ∀ src ∈ sources.dropLast, Repl.incomplete src = false) :
    (parse (joinSources sources)).2 = [] ∧
    (parse (joinSources sources)).1.unplaced =
      ⟨sources.flatMap fun src => (parse src).1.unplaced.stmts⟩ ∧
    ∀ turns levels : Nat,
      let session : Session := ⟨⟨.standard, turns⟩, levels, .initial⟩
      let programs := sources.map fun src => (parse src).1
      (∀ program ∈ programs.getLast?, program.stmts ≠ []) → session.GoesOn programs.dropLast →
        Session.unplaced (session.run (parse (joinSources sources)).1) =
          Session.unplaced (session.runAll .null programs) := by
  have hjoined := Parse.parse_joinSources some quiet complete
  refine ⟨hjoined.1, hjoined.2, ?_⟩
  intro turns levels session programs ends goesOn
  have hprograms : programs ≠ [] := by
    simpa [programs] using some
  have hstmts : (⟨programs.flatMap Program.stmts⟩ : Program).unplaced =
      ⟨sources.flatMap fun src => (parse src).1.unplaced.stmts⟩ := by
    rw [Session.unplaced_flatMap, List.flatMap_map]
  calc
    Session.unplaced (session.run (parse (joinSources sources)).1)
        = Session.unplaced (session.run ⟨programs.flatMap Program.stmts⟩) :=
          Session.unplaced_run_eq (hjoined.2.trans hstmts.symm) turns levels
    _ = Session.unplaced (session.runAll .null programs) := by
          rw [session.run_flatMap hprograms ends goesOn]

/-- A function that is defined in front of a comment and used from a block that is never closed. -/
theorem run_joinSources_open_block :
    let sources := ["let f = fn(x) \x7b puts(x) x + 2 \x7d # sum", "if (true) \x7b f(3)"]
    let session : Session := ⟨⟨.standard, 2⟩, 20, .initial⟩
    let programs := sources.map fun src => (parse src).1
    session.GoesOn programs.dropLast ∧ (parse (joinSources sources)).2 = [] ∧
      Session.unplaced (session.run (parse (joinSources sources)).1) =
        Session.unplaced (session.runAll .null programs) ∧
      (session.runAll .null programs).map (fun (value, session') =>
        (value.inspect, session'.store.printed)) = some ("5", #["3"]) := by
  intro sources session programs
  have hgoesOn : session.GoesOn programs.dropLast := by
    refine Session.goesOn_singleton_iff.2 fun v store eq => ?_
    have hquiet : (Eval.stmts (eval session.machine 19) Store.global .null
        (parse "let f = fn(x) \x7b puts(x) x + 2 \x7d # sum").1.stmts session.store).map
          (fun found => found.1.isSignal) = some false := by
      decide +kernel
    rw [eq] at hquiet
    exact Option.some.inj hquiet
  have hends : ∀ program ∈ programs.getLast?, program.stmts ≠ [] := by
    intro program hprogram
    cases hprogram
    exact List.isEmpty_eq_false_iff.1 (by decide +kernel)
  have hjoined := @run_joinSources sources (by decide) (by decide) (by decide)
  exact ⟨hgoesOn, hjoined.1, hjoined.2.2 2 20 hends hgoesOn, by decide +kernel⟩

end Scriptlet
