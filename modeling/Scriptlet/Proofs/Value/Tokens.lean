import Scriptlet.Proofs.Tree
import Scriptlet.Proofs.Value.SignalFree

/-!
# Values and the tokens in them

A function keeps its body, and with it the tokens that the body was read from. Nothing else in a
value holds a token, and no operator, no host function and no binding looks at one: with other
tokens in the values that come in, the same values come out with these tokens in them.

- `Value.mapTokens`, `Store.mapTokens` : values and stores with other tokens
- `evalUnary_mapTokens`, `evalBinary_mapTokens`, `evalIndex_mapTokens` : operators
- `Native.Natural` : host functions that look at no token
- `natural_standard` : all functions of the standard table
-/

namespace Scriptlet

variable (f : Token → Token)

/-! ## Nodes -/

def Node.mapTokens : Node → Node
  | .stmt st => .stmt (st.mapTokens f)
  | .expr e => .expr (e.mapTokens f)

theorem Node.mapTokens_id (node : Node) : node.mapTokens id = node := by
  cases node with
  | stmt st => exact congrArg Node.stmt st.mapTokens_id
  | expr e => exact congrArg Node.expr e.mapTokens_id

theorem Block.stmts_mapTokens (b : Block) :
    (b.mapTokens f).stmts = mapTokensStmts f b.stmts := by
  cases b
  rfl

/-! ## Values -/

def Closure.mapTokens (closure : Closure) : Closure :=
  ⟨closure.id, closure.params.map (Ident.mapToken f), closure.body.mapTokens f, closure.scope⟩

mutual

def Value.mapTokens (f : Token → Token) : Value → Value
  | .int n => .int n
  | .bool b => .bool b
  | .str s => .str s
  | .null => .null
  | .array items => .array (mapTokensValues f items)
  | .hash entries => .hash (mapTokensEntries f entries)
  | .function closure => .function (closure.mapTokens f)
  | .builtin builtin => .builtin builtin
  | .error fault => .error fault
  | .returned v => .returned (v.mapTokens f)
  | .broke => .broke
  | .absent => .absent

def mapTokensValues (f : Token → Token) : List Value → List Value
  | [] => []
  | v :: rest => v.mapTokens f :: mapTokensValues f rest

def mapTokensEntries (f : Token → Token) : List (Key × Value) → List (Key × Value)
  | [] => []
  | entry :: rest => mapTokensEntry f entry :: mapTokensEntries f rest

def mapTokensEntry (f : Token → Token) : Key × Value → Key × Value
  | (key, v) => (key, v.mapTokens f)

end

@[simp] theorem mapTokensValues_eq_map (values : List Value) :
    mapTokensValues f values = values.map (Value.mapTokens f) := by
  induction values with
  | nil => rfl
  | cons v rest ih => simp [mapTokensValues, ih]

theorem mapTokensEntries_eq_map (entries : List (Key × Value)) :
    mapTokensEntries f entries = entries.map fun entry => (entry.1, entry.2.mapTokens f) := by
  induction entries with
  | nil => rfl
  | cons entry rest ih =>
      rcases entry with ⟨key, v⟩
      simp [mapTokensEntries, mapTokensEntry, ih]

theorem mapToken_params_id (params : List Ident) : params.map (Ident.mapToken id) = params :=
  List.map_id _

theorem mapTokens_closure_id (closure : Closure) : closure.mapTokens id = closure := by
  rw [Closure.mapTokens, mapToken_params_id, Block.mapTokens_id]

mutual

theorem Value.mapTokens_id : ∀ v : Value, v.mapTokens id = v
  | .int _ | .bool _ | .str _ | .null | .builtin _ | .error _ | .broke | .absent => rfl
  | .array items => by
      rw [Value.mapTokens, mapTokensValues_id items]
  | .hash entries => by
      rw [Value.mapTokens, mapTokensEntries_id entries]
  | .function closure => by
      rw [Value.mapTokens, mapTokens_closure_id]
  | .returned v => by
      rw [Value.mapTokens, v.mapTokens_id]

theorem mapTokensValues_id : ∀ values : List Value, mapTokensValues id values = values
  | [] => rfl
  | v :: rest => by rw [mapTokensValues, v.mapTokens_id, mapTokensValues_id rest]

theorem mapTokensEntries_id : ∀ entries : List (Key × Value), mapTokensEntries id entries = entries
  | [] => rfl
  | (key, v) :: rest => by
      rw [mapTokensEntries, mapTokensEntry, v.mapTokens_id, mapTokensEntries_id rest]

end

namespace Value

@[simp] theorem mapTokens_array (items : List Value) :
    (array items).mapTokens f = .array (items.map (mapTokens f)) := by
  rw [mapTokens, mapTokensValues_eq_map]

@[simp] theorem type_mapTokens (v : Value) : (v.mapTokens f).type = v.type := by
  cases v <;> rfl

@[simp] theorem isSignal_mapTokens (v : Value) : (v.mapTokens f).isSignal = v.isSignal := by
  cases v <;> rfl

@[simp] theorem isTruthy_mapTokens (v : Value) : (v.mapTokens f).isTruthy = v.isTruthy := by
  cases v <;> rfl

@[simp] theorem key?_mapTokens (v : Value) : (v.mapTokens f).key? = v.key? := by
  cases v <;> rfl

@[simp] theorem orNull_mapTokens (v : Value) : (v.mapTokens f).orNull = v.orNull.mapTokens f := by
  cases v <;> rfl

@[simp] theorem settle_mapTokens (v : Value) : (v.mapTokens f).settle = v.settle.mapTokens f := by
  cases v <;> rfl

@[simp] theorem loopExit_mapTokens (v : Value) :
    (v.mapTokens f).loopExit = v.loopExit.mapTokens f := by
  cases v <;> rfl

end Value

theorem Key.mapTokens_toValue (key : Key) : key.toValue.mapTokens f = key.toValue := by
  cases key <;> rfl

/-! ## Texts and equality -/

theorem renderParams_mapToken (params : List Ident) :
    renderParams (params.map (Ident.mapToken f)) = renderParams params := by
  have hnames : Ident.name ∘ Ident.mapToken f = Ident.name := rfl
  simp [renderParams, hnames]

mutual

/-- A value shows nothing of its tokens. -/
theorem Value.inspectIn_mapTokens (nested : Bool) :
    ∀ v : Value, (v.mapTokens f).inspectIn nested = v.inspectIn nested
  | .int _ | .bool _ | .str _ | .null | .builtin _ | .error _ | .broke | .absent => rfl
  | .array items => by rw [Value.mapTokens, Value.inspectIn, inspectItems_mapTokens items,
      Value.inspectIn]
  | .hash entries => by rw [Value.mapTokens, Value.inspectIn, inspectEntries_mapTokens entries,
      Value.inspectIn]
  | .function closure => by
      simp only [Value.mapTokens, Closure.mapTokens, Value.inspectIn, renderParams_mapToken]
  | .returned v => by rw [Value.mapTokens, Value.inspectIn, v.inspectIn_mapTokens false,
      Value.inspectIn]

theorem inspectItems_mapTokens : ∀ items : List Value,
    inspectItems (mapTokensValues f items) = inspectItems items
  | [] => rfl
  | v :: rest => by
      rw [mapTokensValues, inspectItems, v.inspectIn_mapTokens true, inspectItems_mapTokens rest,
        inspectItems]

theorem inspectEntries_mapTokens : ∀ entries : List (Key × Value),
    inspectEntries (mapTokensEntries f entries) = inspectEntries entries
  | [] => rfl
  | (key, v) :: rest => by
      rw [mapTokensEntries, mapTokensEntry, inspectEntries, inspectEntry,
        v.inspectIn_mapTokens true, inspectEntries_mapTokens rest, inspectEntries, inspectEntry]

end

theorem Value.inspect_mapTokens (v : Value) : (v.mapTokens f).inspect = v.inspect :=
  v.inspectIn_mapTokens f false

namespace Entries

/-- Entries with other tokens in their values. -/
theorem get?_mapTokens (key : Key) (entries : Entries) :
    get? key (mapTokensEntries f entries) = (get? key entries).map (Value.mapTokens f) := by
  induction entries with
  | nil => rfl
  | cons entry rest ih =>
      rcases entry with ⟨key', w⟩
      simp only [mapTokensEntries, mapTokensEntry, get?]
      split
      · rfl
      · exact ih

theorem insert_mapTokens (key : Key) (v : Value) (entries : Entries) :
    insert key (v.mapTokens f) (mapTokensEntries f entries) =
      mapTokensEntries f (insert key v entries) := by
  induction entries with
  | nil => rfl
  | cons entry rest ih =>
      rcases entry with ⟨key', w⟩
      simp only [mapTokensEntries, mapTokensEntry, insert]
      split
      · simp only [mapTokensEntries, mapTokensEntry]
      · simp only [ih, mapTokensEntries, mapTokensEntry]

end Entries

mutual

/-- Nor does equality depend on them. -/
theorem Value.equal_mapTokens (v : Value) :
    ∀ w : Value, (v.mapTokens f).equal (w.mapTokens f) = v.equal w := by
  intro w
  cases v with
  | array xs =>
      cases w with
      | array ys => simp only [Value.mapTokens, Value.equal, equalItems_mapTokens xs ys]
      | _ => simp only [Value.mapTokens, Value.equal]
  | hash xs =>
      cases w with
      | hash ys =>
          have hwithin := entriesWithin_mapTokens xs ys
          have hxs : (mapTokensEntries f xs).length = xs.length := by
            rw [mapTokensEntries_eq_map, List.length_map]
          have hys : (mapTokensEntries f ys).length = ys.length := by
            rw [mapTokensEntries_eq_map, List.length_map]
          simp only [Value.mapTokens, Value.equal, hwithin, hxs, hys]
      | _ => simp only [Value.mapTokens, Value.equal]
  | function => cases w <;> simp only [Value.mapTokens, Closure.mapTokens, Value.equal]
  | _ => cases w <;> simp only [Value.mapTokens, Value.equal]

theorem equalItems_mapTokens : ∀ xs ys : List Value,
    equalItems (mapTokensValues f xs) (mapTokensValues f ys) = equalItems xs ys
  | [], [] => rfl
  | [], _ :: _ | _ :: _, [] => by simp only [mapTokensValues, equalItems]
  | x :: xs, y :: ys => by
      simp only [mapTokensValues, equalItems, x.equal_mapTokens y, equalItems_mapTokens xs ys]

theorem entriesWithin_mapTokens : ∀ xs ys : List (Key × Value),
    entriesWithin (mapTokensEntries f xs) (mapTokensEntries f ys) = entriesWithin xs ys
  | [], _ => by simp only [mapTokensEntries, entriesWithin]
  | (key, v) :: rest, ys => by
      simp only [mapTokensEntries, mapTokensEntry, entriesWithin, entryWithin,
        Entries.get?_mapTokens, entriesWithin_mapTokens rest ys]
      cases Entries.get? key ys with
      | none => rfl
      | some w => simp only [Option.map_some, v.equal_mapTokens w]

end

/-! ## Operators -/

theorem evalUnary_mapTokens (op : UnaryOp) (v : Value) :
    evalUnary op (v.mapTokens f) = (evalUnary op v).mapTokens f := by
  cases op <;> cases v <;> rfl

theorem evalIntegers_mapTokens (op : BinaryOp) (a b : Int64) :
    (evalIntegers op a b).mapTokens f = evalIntegers op a b := by
  cases op with
  | div =>
      simp only [evalIntegers]
      split <;> rfl
  | _ => rfl

theorem evalStrings_mapTokens (op : BinaryOp) (a b : String) :
    (evalStrings op a b).mapTokens f = evalStrings op a b := by
  cases op <;> rfl

/-- Operands that are neither two integers nor two strings are only compared. -/
theorem evalBinary_of_mixed (op : BinaryOp) {left right : Value}
    (noIntegers : ∀ a b, left = .int a → right ≠ .int b)
    (noStrings : ∀ a b, left = .str a → right ≠ .str b) :
    evalBinary op left right =
      match op with
      | .eq => .bool (left.equal right)
      | .ne => .bool (!left.equal right)
      | op =>
        if left.type = right.type then .error (.unknownBinary op left.type right.type)
        else .error (.typeMismatch op left.type right.type) := by
  unfold evalBinary
  split
  · next a b => exact absurd rfl (noIntegers a b rfl)
  · next a b => exact absurd rfl (noStrings a b rfl)
  · rfl

theorem Value.mapTokens_eq_int {v : Value} {n : Int64} (h : v.mapTokens f = .int n) :
    v = .int n := by
  cases v <;> cases h
  rfl

theorem Value.mapTokens_eq_str {v : Value} {s : String} (h : v.mapTokens f = .str s) :
    v = .str s := by
  cases v <;> cases h
  rfl

/-- Nor do the operators. -/
theorem evalBinary_mapTokens (op : BinaryOp) (left right : Value) :
    evalBinary op (left.mapTokens f) (right.mapTokens f) =
      (evalBinary op left right).mapTokens f := by
  by_cases hints : ∃ a b, left = .int a ∧ right = .int b
  · rcases hints with ⟨a, b, rfl, rfl⟩
    exact (evalIntegers_mapTokens f op a b).symm
  · by_cases hstrs : ∃ a b, left = .str a ∧ right = .str b
    · rcases hstrs with ⟨a, b, rfl, rfl⟩
      exact (evalStrings_mapTokens f op a b).symm
    -- Other tokens make neither integers nor strings of the operands.
    · have hmixed : evalBinary op left right = _ := evalBinary_of_mixed op
        (fun a b hl hr => hints ⟨a, b, hl, hr⟩) (fun a b hl hr => hstrs ⟨a, b, hl, hr⟩)
      have hmapped : evalBinary op (left.mapTokens f) (right.mapTokens f) = _ :=
        evalBinary_of_mixed op
          (fun a b hl hr =>
            hints ⟨a, b, Value.mapTokens_eq_int f hl, Value.mapTokens_eq_int f hr⟩)
          (fun a b hl hr =>
            hstrs ⟨a, b, Value.mapTokens_eq_str f hl, Value.mapTokens_eq_str f hr⟩)
      rw [hmixed, hmapped]
      simp only [Value.equal_mapTokens, Value.type_mapTokens]
      split
      · rfl
      · rfl
      · split <;> rfl

theorem getD_mapTokens (items : List Value) (place : Nat) :
    (items.map (Value.mapTokens f)).getD place .null = (items.getD place .null).mapTokens f := by
  simp only [List.getD_eq_getElem?_getD, List.getElem?_map]
  cases items[place]? <;> rfl

theorem evalIndex_mapTokens (target key : Value) :
    evalIndex (target.mapTokens f) (key.mapTokens f) = (evalIndex target key).mapTokens f := by
  cases target with
  | array items =>
      cases key with
      | int place =>
          simp only [Value.mapTokens, mapTokensValues_eq_map, evalIndex, itemAt]
          split
          · rfl
          · exact getD_mapTokens f items _
      | _ => rfl
  | hash entries =>
      have hkey := key.key?_mapTokens f
      simp only [Value.mapTokens, evalIndex, hkey, Value.type_mapTokens]
      cases key.key? with
      | none => rfl
      | some k =>
          simp only [Entries.get?_mapTokens]
          cases Entries.get? k entries <;> rfl
  | _ => rfl

/-! ## Stores -/

/-- A scope with other tokens in the functions that are bound there. -/
def Scope.mapTokens (scope : Scope) : Scope :=
  ⟨scope.outer, scope.vars.map fun var => (var.1, var.2.mapTokens f)⟩

def Store.mapTokens (store : Store) : Store :=
  ⟨store.scopes.map (Scope.mapTokens f), store.closures, store.printed⟩

theorem Scope.get?_mapTokens (scope : Scope) (name : String) :
    (scope.mapTokens f).get? name = (scope.get? name).map (Value.mapTokens f) := by
  rcases scope with ⟨outer, vars⟩
  unfold Scope.mapTokens Scope.get?
  induction vars with
  | nil => rfl
  | cons var rest ih =>
      rcases var with ⟨bound, v⟩
      simp only [List.map_cons, List.lookup_cons]
      split
      · rfl
      · exact ih

theorem Scope.bindIn_mapTokens (name : String) (v : Value) (vars : List (String × Value)) :
    bindIn name (v.mapTokens f) (vars.map fun var => (var.1, var.2.mapTokens f)) =
      (bindIn name v vars).map fun var => (var.1, var.2.mapTokens f) := by
  induction vars with
  | nil => rfl
  | cons var rest ih =>
      simp only [List.map_cons, bindIn]
      split
      · rfl
      · simp only [ih, List.map_cons]

theorem Scope.bind_mapTokens (scope : Scope) (name : String) (v : Value) :
    (scope.mapTokens f).bind name (v.mapTokens f) = (scope.bind name v).mapTokens f := by
  simp only [Scope.bind, Scope.mapTokens, Scope.bindIn_mapTokens]

namespace Store

variable (store : Store)

@[simp] theorem size_mapTokens : (store.mapTokens f).scopes.size = store.scopes.size :=
  Array.size_map

theorem bind_mapTokens (id : Nat) (name : String) (v : Value) :
    (store.mapTokens f).bind id name (v.mapTokens f) = (store.bind id name v).mapTokens f := by
  have hscopes : (store.scopes.map (Scope.mapTokens f)).modify id
      (fun scope => scope.bind name (v.mapTokens f)) =
      (store.scopes.modify id fun scope => scope.bind name v).map (Scope.mapTokens f) := by
    apply Array.ext
    · simp only [Array.size_modify, Array.size_map]
    · intro i hi hi'
      simp only [Array.getElem_modify, Array.getElem_map]
      split
      · exact Scope.bind_mapTokens f _ name v
      · rfl
  simp only [bind, mapTokens, hscopes]

theorem newScope_mapTokens (outer : Option Nat) :
    (store.mapTokens f).newScope outer = (store.newScope outer).mapTokens f := by
  simp [newScope, mapTokens, Scope.mapTokens]

theorem findFrom_mapTokens (name : String) (fuel id : Nat) :
    (store.mapTokens f).findFrom name fuel id =
      (store.findFrom name fuel id).map (Value.mapTokens f) := by
  induction fuel generalizing id with
  | zero => rfl
  | succ fuel ih =>
      have hscope : (store.mapTokens f).scopes[id]? =
          store.scopes[id]?.map (Scope.mapTokens f) := Array.getElem?_map
      unfold findFrom
      rw [hscope]
      cases store.scopes[id]? with
      | none => rfl
      | some scope =>
          have hget := scope.get?_mapTokens f name
          have houter : (scope.mapTokens f).outer = scope.outer := rfl
          simp only [Option.map_some, hget, houter]
          cases scope.get? name with
          | some v => rfl
          | none =>
              cases scope.outer with
              | none => rfl
              | some outer => exact ih outer

theorem find_mapTokens (id : Nat) (name : String) :
    (store.mapTokens f).find id name = (store.find id name).map (Value.mapTokens f) := by
  simp only [find, size_mapTokens, findFrom_mapTokens]

end Store

namespace Eval

theorem lookup_mapTokens (builtins : Builtins) (scope : Nat) (name : String) (store : Store) :
    lookup builtins scope name (store.mapTokens f) =
      (lookup builtins scope name store).mapTokens f := by
  unfold lookup
  rw [Store.find_mapTokens]
  cases store.find scope name with
  | some v => rfl
  | none =>
      simp only [Option.map_none]
      split <;> rfl

theorem foldl_bind_mapTokens (pairs : List (Ident × Value)) (store : Store) (scope : Nat) :
    (pairs.map (Prod.map (Ident.mapToken f) (Value.mapTokens f))).foldl
        (fun store (param, arg) => store.bind scope param.name arg) (store.mapTokens f) =
      (pairs.foldl (fun store (param, arg) => store.bind scope param.name arg)
        store).mapTokens f := by
  induction pairs generalizing store with
  | nil => rfl
  | cons pair rest ih =>
      simp only [List.map_cons, List.foldl_cons, Prod.map, Ident.mapToken, Store.bind_mapTokens]
      exact ih _

/-- Calls bind their arguments as before. -/
theorem enter_mapTokens (closure : Closure) (args : List Value) (store : Store) :
    enter (closure.mapTokens f) (args.map (Value.mapTokens f)) (store.mapTokens f) =
      (enter closure args store).mapTokens f := by
  have hzip : (closure.mapTokens f).params.zip (args.map (Value.mapTokens f)) =
      (closure.params.zip args).map (Prod.map (Ident.mapToken f) (Value.mapTokens f)) :=
    List.zip_map
  have hscope : (closure.mapTokens f).scope = closure.scope := rfl
  unfold enter
  simp only [Store.size_mapTokens, hzip, hscope, Store.newScope_mapTokens, foldl_bind_mapTokens]

end Eval

/-! ## Host functions -/

/-- Host functions that look at no token. -/
def Native.Natural (native : Native) : Prop :=
  ∀ args : List Value, native (args.map (Value.mapTokens f)) =
    ⟨(native args).value.mapTokens f, (native args).lines⟩

theorem Native.Natural.quiet {g : List Value → Value}
    (h : ∀ args, g (args.map (Value.mapTokens f)) = (g args).mapTokens f) :
    Native.Natural f (.quiet g) := by
  intro args
  simp only [Native.quiet, h]

namespace Builtin

variable (args : List Value)

theorem len_mapTokens : len (args.map (Value.mapTokens f)) = (len args).mapTokens f := by
  unfold len
  rcases args with _ | ⟨v, _ | ⟨w, rest⟩⟩
  · rfl
  · cases v <;> simp [Value.mapTokens, Value.type, mapTokensEntries_eq_map]
  · simp [wrongCount, Value.mapTokens]

theorem first_mapTokens : first (args.map (Value.mapTokens f)) = (first args).mapTokens f := by
  unfold first
  rcases args with _ | ⟨v, _ | ⟨w, rest⟩⟩
  · rfl
  · cases v with
    | array items => cases items <;> rfl
    | _ => rfl
  · simp [wrongCount, Value.mapTokens]

theorem last_mapTokens : last (args.map (Value.mapTokens f)) = (last args).mapTokens f := by
  unfold last
  rcases args with _ | ⟨v, _ | ⟨w, rest⟩⟩
  · rfl
  · cases v with
    | array items =>
        simp only [List.map_cons, List.map_nil, Value.mapTokens_array, List.getLastD_eq_getLast?,
          List.getLast?_map]
        cases items.getLast? <;> rfl
    | _ => rfl
  · simp [wrongCount, Value.mapTokens]

theorem rest_mapTokens : rest (args.map (Value.mapTokens f)) = (rest args).mapTokens f := by
  unfold rest
  rcases args with _ | ⟨v, _ | ⟨w, more⟩⟩
  · rfl
  · cases v with
    | array items => cases items <;> rfl
    | _ => rfl
  · simp [wrongCount, Value.mapTokens]

theorem push_mapTokens : push (args.map (Value.mapTokens f)) = (push args).mapTokens f := by
  unfold push
  rcases args with _ | ⟨v, _ | ⟨w, _ | ⟨x, more⟩⟩⟩
  · rfl
  · simp [wrongCount, Value.mapTokens]
  · cases v <;> simp [Value.mapTokens, Value.type]
  · simp [wrongCount, Value.mapTokens]

theorem keys_mapTokens : keys (args.map (Value.mapTokens f)) = (keys args).mapTokens f := by
  unfold keys
  rcases args with _ | ⟨v, _ | ⟨w, rest⟩⟩
  · rfl
  · cases v with
    | hash entries =>
        have hkeys : Value.mapTokens f ∘ (fun entry : Key × Value => entry.1.toValue) =
            fun entry => entry.1.toValue := funext fun entry => entry.1.mapTokens_toValue f
        simp [Value.mapTokens, Entries.keys, mapTokensEntries_eq_map, hkeys, Function.comp_def]
    | _ => rfl
  · simp [wrongCount, Value.mapTokens]

theorem values_mapTokens : values (args.map (Value.mapTokens f)) = (values args).mapTokens f := by
  unfold values
  rcases args with _ | ⟨v, _ | ⟨w, rest⟩⟩
  · rfl
  · cases v <;> simp [Value.mapTokens, Value.type, Entries.values, mapTokensEntries_eq_map]
  · simp [wrongCount, Value.mapTokens]

theorem contains_mapTokens :
    contains (args.map (Value.mapTokens f)) = (contains args).mapTokens f := by
  unfold contains
  rcases args with _ | ⟨v, _ | ⟨w, _ | ⟨x, rest⟩⟩⟩
  · rfl
  · simp [wrongCount, Value.mapTokens]
  · cases v with
    | str s => cases w <;> rfl
    | array items =>
        simp [Value.mapTokens, List.any_map, Function.comp_def, Value.equal_mapTokens]
    | hash entries =>
        simp only [List.map_cons, List.map_nil, Value.mapTokens, Value.key?_mapTokens,
          Value.type_mapTokens]
        cases w.key? with
        | none => rfl
        | some key => simp [Entries.get?_mapTokens, Value.mapTokens]
    | _ => rfl
  · simp [wrongCount, Value.mapTokens]

theorem join_mapTokens : join (args.map (Value.mapTokens f)) = (join args).mapTokens f := by
  unfold join
  rcases args with _ | ⟨v, _ | ⟨w, _ | ⟨x, rest⟩⟩⟩
  · rfl
  · simp [wrongCount, Value.mapTokens]
  · cases v with
    | array items =>
        have hinspect : Value.inspect ∘ Value.mapTokens f = Value.inspect :=
          funext (Value.inspect_mapTokens f)
        cases w <;> simp [Value.mapTokens, Value.type, hinspect]
    | _ => rfl
  · simp [wrongCount, Value.mapTokens]

theorem split_mapTokens : split (args.map (Value.mapTokens f)) = (split args).mapTokens f := by
  unfold split
  rcases args with _ | ⟨v, _ | ⟨w, _ | ⟨x, rest⟩⟩⟩
  · rfl
  · simp [wrongCount, Value.mapTokens]
  · cases v with
    | str s => cases w <;> simp [Value.mapTokens, Value.type, Function.comp_def]
    | _ => rfl
  · simp [wrongCount, Value.mapTokens]

theorem onText_mapTokens (name : String) (g : String → String) :
    onText name g (args.map (Value.mapTokens f)) = (onText name g args).mapTokens f := by
  unfold onText
  rcases args with _ | ⟨v, _ | ⟨w, rest⟩⟩
  · rfl
  · cases v <;> rfl
  · simp [wrongCount, Value.mapTokens]

theorem abs_mapTokens : abs (args.map (Value.mapTokens f)) = (abs args).mapTokens f := by
  unfold abs
  rcases args with _ | ⟨v, _ | ⟨w, rest⟩⟩
  · rfl
  · cases v <;> rfl
  · simp [wrongCount, Value.mapTokens]

theorem combine_mapTokens (name : String) (g : Int64 → Int64 → Int64) :
    combine name g (args.map (Value.mapTokens f)) = (combine name g args).mapTokens f := by
  have hall (acc : Int64) (rest : List Value) :
      combineAll name g acc (rest.map (Value.mapTokens f)) =
        (combineAll name g acc rest).mapTokens f := by
    induction rest generalizing acc with
    | nil => rfl
    | cons v rest ih =>
        cases v with
        | int n => exact ih _
        | _ => rfl
  rcases args with _ | ⟨v, rest⟩
  · rfl
  · cases v with
    | int n => exact hall n rest
    | _ => rfl

theorem type_mapTokens : type (args.map (Value.mapTokens f)) = (type args).mapTokens f := by
  unfold type
  rcases args with _ | ⟨v, _ | ⟨w, rest⟩⟩
  · rfl
  · simp [Value.mapTokens]
  · simp [wrongCount, Value.mapTokens]

theorem str_mapTokens : str (args.map (Value.mapTokens f)) = (str args).mapTokens f := by
  unfold str
  rcases args with _ | ⟨v, _ | ⟨w, rest⟩⟩
  · rfl
  · simp [Value.mapTokens, Value.inspect_mapTokens]
  · simp [wrongCount, Value.mapTokens]

theorem natural_puts : Native.Natural f puts := by
  intro args
  have hinspect : Value.inspect ∘ Value.mapTokens f = Value.inspect :=
    funext (Value.inspect_mapTokens f)
  simp [puts, Value.mapTokens, hinspect]

end Builtin

/-- No function of the standard table looks at a token. -/
theorem natural_standard {name : String} {native : Native}
    (h : Builtins.standard.find? name = some native) : native.Natural f := by
  have hrows : ∀ row ∈ Builtins.standard.entries, row.2.Natural f := by
    simp only [Builtins.standard, List.forall_mem_cons]
    exact ⟨.quiet f (Builtin.abs_mapTokens f), .quiet f (Builtin.contains_mapTokens f),
      .quiet f (Builtin.first_mapTokens f), .quiet f (Builtin.join_mapTokens f),
      .quiet f (Builtin.keys_mapTokens f), .quiet f (Builtin.last_mapTokens f),
      .quiet f (Builtin.len_mapTokens f), .quiet f (Builtin.onText_mapTokens f · _ _),
      .quiet f (Builtin.combine_mapTokens f · _ _), .quiet f (Builtin.combine_mapTokens f · _ _),
      .quiet f (Builtin.push_mapTokens f), Builtin.natural_puts f,
      .quiet f (Builtin.rest_mapTokens f), .quiet f (Builtin.split_mapTokens f),
      .quiet f (Builtin.str_mapTokens f), .quiet f (Builtin.onText_mapTokens f · _ _),
      .quiet f (Builtin.type_mapTokens f), .quiet f (Builtin.onText_mapTokens f · _ _),
      .quiet f (Builtin.values_mapTokens f), List.forall_mem_nil _⟩
  exact hrows _ (mem_of_lookup h)

end Scriptlet
