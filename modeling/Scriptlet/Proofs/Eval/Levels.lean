import Scriptlet.Proofs.Eval.Frame

/-!
# Evaluation with more levels

Running out of levels is an error that nothing takes, so it ends the program, at the point that it
was reached. With more levels the program does the same up to that point: a program that did not run
out of levels ends in the same way, and one that did prints at least the lines that it printed
before. More turns for the loops make no difference to programs that end.

- `Trails` : an outcome with fewer levels, and one with more
- `Trailing` : runs with such outcomes
- `trailing_evalProgram` : more levels and more turns
- `evalProgram_more_levels` : programs with more levels
-/

namespace Scriptlet

/-! ## Outcomes -/

/-- An outcome, and one that may have had more turns and, where `limited` holds, more levels. -/
inductive Trails (limited : Prop) : Option (Value × Store) → Option (Value × Store) → Prop
  /-- The turns of a loop ran out. -/
  | endless (outcome' : Option (Value × Store)) : Trails limited none outcome'
  | same (outcome : Option (Value × Store)) : Trails limited outcome outcome
  /-- The levels ran out, after nothing that the other run does not do as well. -/
  | stopped {store : Store} {outcome' : Option (Value × Store)} (h : limited)
      (printed : ∀ v store', outcome' = some (v, store') →
        store.printed.toList <+: store'.printed.toList) :
      Trails limited (some (.error .recursionLimit, store)) outcome'

namespace Trails

variable {limited : Prop} {v v' : Value} {store store' : Store}
variable {outcome' : Option (Value × Store)}

/-- An outcome that did not come from running out of levels is that of both runs. -/
theorem eq_of_ne (h : Trails limited (some (v, store)) outcome')
    (hne : limited → v ≠ .error .recursionLimit) : outcome' = some (v, store) := by
  cases h with
  | same => rfl
  | stopped hlimited _ => exact absurd rfl (hne hlimited)

/-- What the first run printed is printed by the second one. -/
theorem printed (h : Trails limited (some (v, store)) (some (v', store'))) :
    store.printed.toList <+: store'.printed.toList := by
  cases h with
  | same => exact List.prefix_rfl
  | stopped _ hprinted => exact hprinted v' store' rfl

end Trails

/-! ## Runs -/

/-- Runs in the same scope, the second one with more turns and, where `limited` holds, levels. -/
structure Trailing (limited : Prop) (scope : Nat) (run run' : Run Value) : Prop where
  outcome (store : Store) : Trails limited (run store) (run' store)
  keeps : Keeps scope run'

namespace Trailing

variable {limited : Prop} {scope : Nat} {run run' : Run Value}

/-- A run trails itself. -/
theorem of_eq (keeps : Keeps scope run) : Trailing limited scope run run :=
  ⟨fun store => .same (run store), keeps⟩

/-- A run that ends at once, so that whatever the other one prints comes behind. -/
theorem stopped (h : limited) (keeps : Keeps scope run') :
    Trailing limited scope (Pure.pure (.error .recursionLimit)) run' :=
  ⟨fun _ => .stopped h fun _ _ eq => (keeps eq).printed, keeps⟩

/-- One run after another. Where the levels ran out the first run has nothing to follow it, and the
second one only prints more. -/
theorem bind {next next' : Value → Run Value} (first : Trailing limited scope run run')
    (second : ∀ v, Trailing limited scope (next v) (next' v))
    (stops : next (.error .recursionLimit) = Pure.pure (.error .recursionLimit)) :
    Trailing limited scope (run >>= next) (run' >>= next') := by
  refine ⟨fun store => ?_, first.keeps.bind fun v => (second v).keeps⟩
  rw [Run.bind_apply]
  have houtcome := first.outcome store
  generalize hrun : run store = outcome at houtcome
  generalize hrun' : run' store = outcome' at houtcome
  cases houtcome with
  | endless => exact .endless _
  | same =>
      rw [Run.bind_apply, hrun']
      cases outcome with
      | none => exact .endless _
      | some found => exact (second found.1).outcome found.2
  | @stopped store₁ _ hlimited printed =>
      dsimp only
      rw [stops]
      refine .stopped hlimited ?_
      intro v store' eq
      rcases Run.exists_of_bind_eq_some eq with ⟨w, store₂, hfirst, hnext⟩
      have hbefore := printed w store₂ (hrun'.symm.trans hfirst)
      exact hbefore.trans ((second w).keeps hnext).printed

/-- The same if a signal of the first run is handed on. -/
theorem andThen {next next' : Value → Run Value} (first : Trailing limited scope run run')
    (second : ∀ v, Trailing limited scope (next v) (next' v)) :
    Trailing limited scope (run.andThen next) (run'.andThen next') := by
  refine first.bind (fun v => ?_) rfl
  split
  · exact .of_eq (.pure scope v)
  · exact second v

/-- Once its signals have ended, a run trails as before. -/
theorem settle (h : Trailing limited scope run run') :
    Trailing limited scope (do let v ← run; return v.settle) (do let v ← run'; return v.settle) :=
  h.bind (fun v => .of_eq (.pure scope v.settle)) rfl

/-- With more turns a loop does all that it did, and may do more. -/
theorem loop {test test' body body' : Run Value} (htest : Trailing limited scope test test')
    (hbody : Trailing limited scope body body') {turns turns' : Nat} (h : turns ≤ turns') :
    Trailing limited scope (Run.loop test body turns) (Run.loop test' body' turns') := by
  induction turns generalizing turns' with
  | zero => exact ⟨fun _ => .endless _, htest.keeps.loop hbody.keeps turns'⟩
  | succ turns ih =>
      obtain ⟨more, rfl⟩ : ∃ more, turns' = more + 1 := ⟨turns' - 1, by omega⟩
      refine htest.bind (fun t => ?_) rfl
      split
      · exact .of_eq (.pure scope _)
      · split
        · refine hbody.bind (fun v => ?_) rfl
          split
          · exact .of_eq (.pure scope _)
          · exact ih (Nat.le_of_succ_le_succ h)
        · exact .of_eq (.pure scope _)

end Trailing

/-! ## Evaluation -/

variable {limited : Prop} (builtins : Builtins) {turns turns' levels levels' : Nat}

/-- Evaluation with more turns. What follows the error that the levels ran out is that error. -/
theorem congruence_trailing (h : turns ≤ turns') :
    Congruence ⟨builtins, turns⟩ ⟨builtins, turns'⟩ id (Trailing limited) where
  pure scope v := by
    rw [Value.mapTokens_id]
    exact .of_eq (.pure scope v)
  andThen first second := by
    simp only [Value.mapTokens_id] at second
    exact first.andThen second
  settle h := h.settle
  loop htest hbody := htest.loop hbody h
  lookup scope name := .of_eq ((congruence_keeps ⟨builtins, turns⟩).lookup scope name)
  define scope name v := by
    rw [Value.mapTokens_id]
    exact .of_eq ((congruence_keeps ⟨builtins, turns⟩).define scope name v)
  makeClosure scope params body := by
    rw [Block.mapTokens_id, mapToken_params_id]
    exact .of_eq ((congruence_keeps ⟨builtins, turns⟩).makeClosure scope params body)
  callNative scope name args := by
    have hkeeps := (congruence_keeps ⟨builtins, turns⟩).callNative scope name args
    dsimp only at hkeeps ⊢
    cases hfind : builtins.find? name with
    | none => exact .none
    | some native =>
        rw [hfind] at hkeeps
        cases hkeeps with
        | some hnative =>
            rw [← mapTokensValues_eq_map, mapTokensValues_id]
            exact .some (.of_eq hnative)
  enter scope closure args hbody := by
    rw [mapTokens_closure_id, ← mapTokensValues_eq_map, mapTokensValues_id]
    exact ⟨fun store => (hbody store.scopes.size).outcome _,
      .enter (fun inside => (hbody inside).keeps) scope closure args⟩

/-- More turns, and more levels as well. -/
theorem trailing_eval (hturns : turns ≤ turns') (hlevels : levels ≤ levels') (node : Node)
    (scope : Nat) :
    Trailing (levels < levels') scope (eval ⟨builtins, turns⟩ levels node scope)
      (eval ⟨builtins, turns'⟩ levels' node scope) := by
  induction levels generalizing levels' node scope with
  | zero =>
      have hkeeps := keeps_eval ⟨builtins, turns'⟩ levels' node scope
      cases levels' with
      | zero => exact .of_eq hkeeps
      | succ more => exact .stopped (Nat.succ_pos more) hkeeps
  | succ levels ih =>
      obtain ⟨more, rfl⟩ : ∃ more, levels' = more + 1 := ⟨levels' - 1, by omega⟩
      have hinner (node : Node) (scope : Nat) :
          Trailing (levels + 1 < more + 1) scope (eval ⟨builtins, turns⟩ levels node scope)
            (eval ⟨builtins, turns'⟩ more (node.mapTokens id) scope) := by
        rw [Nat.succ_lt_succ_iff, Node.mapTokens_id]
        exact ih (Nat.le_of_succ_le_succ hlevels) node scope
      have hlevel := (congruence_trailing builtins hturns).evalLevel hinner node scope
      rw [Node.mapTokens_id] at hlevel
      exact hlevel

/-- A program with more turns and levels does all that it did with fewer. -/
theorem trailing_evalProgram (hturns : turns ≤ turns') (hlevels : levels ≤ levels')
    (program : Program) (scope : Nat) :
    Trailing (levels < levels') scope (evalProgram ⟨builtins, turns⟩ levels program scope)
      (evalProgram ⟨builtins, turns'⟩ levels' program scope) := by
  have token : Token := ⟨.eof, "", .start⟩
  rw [evalProgram_eq_block ⟨builtins, turns⟩ levels program scope token,
    evalProgram_eq_block ⟨builtins, turns'⟩ levels' program scope token]
  exact (trailing_eval builtins hturns hlevels _ scope).settle

/-- Lines that come behind others do so in the text as well. -/
theorem Store.printedText_append {store store' : Store}
    (h : store.printed.toList <+: store'.printed.toList) (first : Nat) :
    ∃ more, store'.printedText first = store.printedText first ++ more := by
  rcases h with ⟨lines, hlines⟩
  unfold Store.printedText
  rw [← hlines, List.drop_append, List.map_append, String.join_append]
  exact ⟨_, rfl⟩

/-- A program that ends without running out of levels ends in the same way with more levels, and
with more turns. Where two numbers of levels both let it end, all that it prints with fewer levels
comes first with more. -/
theorem evalProgram_more_levels (builtins : Builtins) {levels levels' : Nat}
    (hlevels : levels ≤ levels') (program : Program) (scope : Nat) (store : Store) :
    (∀ turns v store', evalProgram ⟨builtins, turns⟩ levels program scope store = some (v, store') →
      v ≠ .error .recursionLimit → ∀ turns' ≥ turns,
        evalProgram ⟨builtins, turns'⟩ levels' program scope store = some (v, store')) ∧
    ∀ turns turns' v v' store₁ store₂,
      evalProgram ⟨builtins, turns⟩ levels program scope store = some (v, store₁) →
      evalProgram ⟨builtins, turns'⟩ levels' program scope store = some (v', store₂) →
        store₁.printed.toList <+: store₂.printed.toList ∧
        ∃ more, store₂.printedText store.printed.size =
          store₁.printedText store.printed.size ++ more := by
  refine ⟨?_, ?_⟩
  · intro turns v store' eq hne turns' hturns
    have htrails := (trailing_evalProgram builtins hturns hlevels program scope).outcome store
    rw [eq] at htrails
    exact htrails.eq_of_ne fun _ => hne
  · intro turns turns' v v' store₁ store₂ eq eq'
    -- The two runs may have taken different numbers of turns; with the turns of both, both end.
    have hmore := (trailing_evalProgram builtins (Nat.le_max_left turns turns')
      (Nat.le_refl levels) program scope).outcome store
    have hmore' := (trailing_evalProgram builtins (Nat.le_max_right turns turns')
      (Nat.le_refl levels') program scope).outcome store
    rw [eq] at hmore
    rw [eq'] at hmore'
    have hend := hmore.eq_of_ne fun h => absurd h (Nat.lt_irrefl levels)
    have hend' := hmore'.eq_of_ne fun h => absurd h (Nat.lt_irrefl levels')
    have htrails := (trailing_evalProgram builtins (Nat.le_refl (max turns turns')) hlevels program
      scope).outcome store
    rw [hend, hend'] at htrails
    exact ⟨htrails.printed, Store.printedText_append htrails.printed _⟩

/-- Two lines are printed, the second one from deeper inside: four levels are not enough for it. -/
theorem evalProgram_more_levels_two_lines :
    let t : Token := ⟨.eof, "", .start⟩
    let deep : Expr := .ifThen t (.bool t true) (.mk t [.expr t (.str t "b")])
    let program : Program := ⟨[.expr t (.call t (.ident ⟨t, "puts"⟩) [.str t "a"]),
      .expr t (.call t (.ident ⟨t, "puts"⟩) [deep])]⟩
    (∃ store, evalProgram ⟨.standard, 2⟩ 7 program 0 .initial = some (.null, store) ∧
      evalProgram ⟨.standard, 5⟩ 9 program 0 .initial = some (.null, store)) ∧
    ∃ store₁ store₂,
      evalProgram ⟨.standard, 2⟩ 4 program 0 .initial = some (.error .recursionLimit, store₁) ∧
      evalProgram ⟨.standard, 5⟩ 9 program 0 .initial = some (.null, store₂) ∧
      store₁.printed = #["a"] ∧ store₂.printed = #["a", "b"] ∧
      store₁.printed.toList <+: store₂.printed.toList := by
  intro t deep program
  obtain ⟨store, hseven⟩ : ∃ store,
      evalProgram ⟨.standard, 2⟩ 7 program 0 .initial = some (.null, store) := ⟨_, rfl⟩
  obtain ⟨store₁, hfour, hone⟩ : ∃ store,
      evalProgram ⟨.standard, 2⟩ 4 program 0 .initial = some (.error .recursionLimit, store) ∧
        store.printed = #["a"] := ⟨_, rfl, rfl⟩
  obtain ⟨store₂, hnine, htwo⟩ : ∃ store,
      evalProgram ⟨.standard, 5⟩ 9 program 0 .initial = some (.null, store) ∧
        store.printed = #["a", "b"] := ⟨_, rfl, rfl⟩
  have hsame := evalProgram_more_levels .standard (by decide : 7 ≤ 9) program 0 .initial
  have hprinted := evalProgram_more_levels .standard (by decide : 4 ≤ 9) program 0 .initial
  exact ⟨⟨store, hseven, hsame.1 2 _ store hseven nofun 5 (by decide)⟩,
    store₁, store₂, hfour, hnine, hone, htwo, (hprinted.2 2 5 _ _ store₁ store₂ hfour hnine).1⟩

end Scriptlet
