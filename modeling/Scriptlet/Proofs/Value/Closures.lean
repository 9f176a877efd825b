import Scriptlet.Proofs.Value.SignalFree

/-!
# Functions in values

Operators and host functions make no functions: every function in what they give lies in one of the
values that they were given. Only function literals make new ones.

- `Value.closures` : the functions in a value, at any depth
- `Value.MadeOf` : values with no other functions than some given values
- `madeOf_evalIndex`, `closures_evalBinary`, `closures_evalUnary` : operators
- `Native.Conserves` : host functions that give no other functions than they are given
- `conserves_standard` : all functions of the standard table are like that
-/

namespace Scriptlet

/-! ## Functions at any depth -/

mutual

def Value.closures : Value → List Closure
  | .function closure => [closure]
  | .array items => closuresInItems items
  | .hash entries => closuresInEntries entries
  | .returned v => v.closures
  | .int _ | .bool _ | .str _ | .null | .builtin _ | .error _ | .broke | .absent => []

def closuresInItems : List Value → List Closure
  | [] => []
  | v :: rest => v.closures ++ closuresInItems rest

def closuresInEntries : List (Key × Value) → List Closure
  | [] => []
  | entry :: rest => closuresInEntry entry ++ closuresInEntries rest

def closuresInEntry : Key × Value → List Closure
  | (_, v) => v.closures

end

/-- No functions lie in a value but those in the given ones. -/
def Value.MadeOf (v : Value) (vs : List Value) : Prop :=
  ∀ c ∈ v.closures, ∃ w ∈ vs, c ∈ w.closures

namespace Value

variable {c : Closure} {v : Value} {vs : List Value}

theorem mem_closures_array {items : List Value} :
    c ∈ (array items).closures ↔ ∃ v ∈ items, c ∈ v.closures := by
  rw [closures]
  induction items with
  | nil => simp [closuresInItems]
  | cons v rest ih => simp [closuresInItems, ih]

theorem mem_closures_hash {entries : Entries} :
    c ∈ (hash entries).closures ↔ ∃ entry ∈ entries, c ∈ entry.2.closures := by
  rw [closures]
  induction entries with
  | nil => simp [closuresInEntries]
  | cons entry rest ih =>
      rcases entry with ⟨key, v⟩
      simp [closuresInEntries, closuresInEntry, ih]

theorem closures_toValue (key : Key) : key.toValue.closures = [] := by
  cases key <;> rfl

theorem closures_orNull (v : Value) : v.orNull.closures = v.closures := by
  cases v <;> rfl

theorem closures_settle (v : Value) : v.settle.closures = v.closures := by
  cases v <;> rfl

theorem closures_loopExit (v : Value) : v.loopExit.closures = v.closures := by
  cases v <;> rfl

namespace MadeOf

theorem of_nil (h : v.closures = []) : v.MadeOf vs := by
  intro c hc
  rw [h] at hc
  cases hc

theorem of_mem (h : v ∈ vs) : v.MadeOf vs := by
  intro c hc
  exact ⟨v, h, hc⟩

theorem item {items : List Value} (mem : v ∈ items) (h : array items ∈ vs) : v.MadeOf vs := by
  intro c hc
  exact ⟨array items, h, mem_closures_array.2 ⟨v, mem, hc⟩⟩

theorem entry {entries : Entries} {key : Key} (mem : (key, v) ∈ entries) (h : hash entries ∈ vs) :
    v.MadeOf vs := by
  intro c hc
  exact ⟨hash entries, h, mem_closures_hash.2 ⟨(key, v), mem, hc⟩⟩

theorem array {items : List Value} (h : ∀ v ∈ items, v.MadeOf vs) :
    (Value.array items).MadeOf vs := by
  intro c hc
  rcases mem_closures_array.1 hc with ⟨v, hv, hmem⟩
  exact h v hv c hmem

end MadeOf

end Value

/-! ## Operators -/

theorem closures_evalUnary (op : UnaryOp) (v : Value) : (evalUnary op v).closures = [] := by
  unfold evalUnary
  split <;> rfl

theorem closures_evalIntegers (op : BinaryOp) (a b : Int64) :
    (evalIntegers op a b).closures = [] := by
  cases op with
  | div =>
      simp only [evalIntegers]
      split <;> rfl
  | _ => rfl

theorem closures_evalStrings (op : BinaryOp) (a b : String) :
    (evalStrings op a b).closures = [] := by
  unfold evalStrings
  split <;> rfl

/-- No operator gives a function. -/
theorem closures_evalBinary (op : BinaryOp) (left right : Value) :
    (evalBinary op left right).closures = [] := by
  unfold evalBinary
  split
  · exact closures_evalIntegers op _ _
  · exact closures_evalStrings op _ _
  · split
    · rfl
    · rfl
    · split <;> rfl

/-- What lies at a place in a collection has no other functions than the collection. -/
theorem madeOf_evalIndex (target key : Value) : (evalIndex target key).MadeOf [target] := by
  unfold evalIndex
  split
  · next items =>
      split
      · next place =>
          unfold itemAt
          split
          · exact .of_nil rfl
          · rw [List.getD_eq_getElem?_getD]
            cases hitem : items[place.toInt.toNat]? with
            | none => exact .of_nil rfl
            | some v => exact .item (List.mem_of_getElem? hitem) List.mem_cons_self
      · exact .of_nil rfl
  · next entries =>
      split
      · next k _ =>
          cases hget : Entries.get? k entries with
          | none => exact .of_nil rfl
          | some v => exact .entry (Entries.mem_of_get? hget) List.mem_cons_self
      · exact .of_nil rfl
  · exact .of_nil rfl

/-! ## Host functions -/

/-- Host functions that give no other functions than those in their arguments. -/
def Native.Conserves (native : Native) : Prop :=
  ∀ args, (native args).value.MadeOf args

namespace Builtin

theorem closures_len (args : List Value) : (len args).closures = [] := by
  unfold len
  split <;> rfl

theorem madeOf_first (args : List Value) : (first args).MadeOf args := by
  unfold first
  split
  · next items =>
      cases items with
      | nil => exact .of_nil rfl
      | cons v rest =>
          have hv : v ∈ v :: rest := List.mem_cons_self
          exact .item hv List.mem_cons_self
  · exact .of_nil rfl
  · exact .of_nil rfl

theorem madeOf_last (args : List Value) : (last args).MadeOf args := by
  unfold last
  split
  · next items =>
      rw [List.getLastD_eq_getLast?]
      cases hlast : items.getLast? with
      | none => exact .of_nil rfl
      | some v => exact .item (List.mem_of_getLast? hlast) List.mem_cons_self
  · exact .of_nil rfl
  · exact .of_nil rfl

theorem madeOf_rest (args : List Value) : (rest args).MadeOf args := by
  unfold rest
  split
  · exact .of_nil rfl
  · next first items =>
      refine .array fun v hv => ?_
      exact .item (List.mem_cons_of_mem first hv) List.mem_cons_self
  · exact .of_nil rfl
  · exact .of_nil rfl

/-- An array that is pushed to holds functions of its own items and of the new one. -/
theorem madeOf_push (args : List Value) : (push args).MadeOf args := by
  unfold push
  split
  · next items item =>
      refine .array fun v hv => ?_
      rcases List.mem_append.1 hv with hold | hnew
      · exact .item hold List.mem_cons_self
      · exact .of_mem (List.mem_cons_of_mem _ hnew)
  · exact .of_nil rfl
  · exact .of_nil rfl

theorem madeOf_keys (args : List Value) : (keys args).MadeOf args := by
  unfold keys
  split
  · refine .array fun v hv => ?_
    rcases List.mem_map.1 hv with ⟨entry, -, rfl⟩
    exact .of_nil (Value.closures_toValue entry.1)
  · exact .of_nil rfl
  · exact .of_nil rfl

theorem madeOf_values (args : List Value) : (values args).MadeOf args := by
  unfold values
  split
  · refine .array fun v hv => ?_
    rcases List.mem_map.1 hv with ⟨entry, hentry, rfl⟩
    exact .entry hentry List.mem_cons_self
  · exact .of_nil rfl
  · exact .of_nil rfl

theorem closures_contains (args : List Value) : (contains args).closures = [] := by
  unfold contains
  split
  · rfl
  · rfl
  · rfl
  · split <;> rfl
  · rfl
  · rfl

theorem closures_join (args : List Value) : (join args).closures = [] := by
  unfold join
  split <;> rfl

theorem madeOf_split (args : List Value) : (split args).MadeOf args := by
  unfold split
  split
  · refine .array fun v hv => ?_
    rcases List.mem_map.1 hv with ⟨piece, -, rfl⟩
    exact .of_nil rfl
  · exact .of_nil rfl
  · exact .of_nil rfl
  · exact .of_nil rfl

theorem closures_onText (name : String) (f : String → String) (args : List Value) :
    (onText name f args).closures = [] := by
  unfold onText
  split <;> rfl

theorem closures_abs (args : List Value) : (abs args).closures = [] := by
  unfold abs
  split <;> rfl

theorem closures_combine (name : String) (f : Int64 → Int64 → Int64) (args : List Value) :
    (combine name f args).closures = [] := by
  have hall (acc : Int64) (rest : List Value) : (combineAll name f acc rest).closures = [] := by
    fun_induction combineAll name f acc rest with
    | case1 => rfl
    | case2 _ _ _ ih => exact ih
    | case3 => rfl
  unfold combine
  split
  · rfl
  · exact hall _ _
  · rfl

theorem closures_type (args : List Value) : (type args).closures = [] := by
  unfold type
  split <;> rfl

theorem closures_str (args : List Value) : (str args).closures = [] := by
  unfold str
  split <;> rfl

end Builtin

/-- No function of the standard table makes functions. -/
theorem conserves_standard {name : String} {native : Native}
    (h : Builtins.standard.find? name = some native) : native.Conserves := by
  have hmem := mem_of_lookup h
  -- One case for each row of the table, in its order.
  simp only [Builtins.standard, List.mem_cons, Prod.mk.injEq, List.not_mem_nil, or_false] at hmem
  rcases hmem with ⟨-, rfl⟩ | ⟨-, rfl⟩ | ⟨-, rfl⟩ | ⟨-, rfl⟩ | ⟨-, rfl⟩ | ⟨-, rfl⟩ | ⟨-, rfl⟩ |
    ⟨-, rfl⟩ | ⟨-, rfl⟩ | ⟨-, rfl⟩ | ⟨-, rfl⟩ | ⟨-, rfl⟩ | ⟨-, rfl⟩ | ⟨-, rfl⟩ | ⟨-, rfl⟩ |
    ⟨-, rfl⟩ | ⟨-, rfl⟩ | ⟨-, rfl⟩ | ⟨-, rfl⟩
  · exact fun args => .of_nil (Builtin.closures_abs args)
  · exact fun args => .of_nil (Builtin.closures_contains args)
  · exact Builtin.madeOf_first
  · exact fun args => .of_nil (Builtin.closures_join args)
  · exact Builtin.madeOf_keys
  · exact Builtin.madeOf_last
  · exact fun args => .of_nil (Builtin.closures_len args)
  · exact fun args => .of_nil (Builtin.closures_onText _ _ args)
  · exact fun args => .of_nil (Builtin.closures_combine _ _ args)
  · exact fun args => .of_nil (Builtin.closures_combine _ _ args)
  · exact Builtin.madeOf_push
  · exact fun _ => .of_nil rfl
  · exact Builtin.madeOf_rest
  · exact Builtin.madeOf_split
  · exact fun args => .of_nil (Builtin.closures_str args)
  · exact fun args => .of_nil (Builtin.closures_onText _ _ args)
  · exact fun args => .of_nil (Builtin.closures_type args)
  · exact fun args => .of_nil (Builtin.closures_onText _ _ args)
  · exact Builtin.madeOf_values

end Scriptlet
