import Scriptlet.Builtin.Standard
import Scriptlet.Eval.Node
import Scriptlet.Proofs.Value.Faults

/-!
# Values without signals

A value is free of signals if no error, return or break lies anywhere in it. Operators, host
functions and bindings keep it like that: from such values they make such values or an error.

- `Value.isSignalFree`, `Store.isSignalFree` : no signal lies in a value or is bound in a store
- `Value.isContained` : at most the value itself is a signal, and what it returns has none in it
- `Store.Binds` : stores in which whatever is bound has a property
- `Value.IsAnswer`, `Value.IsPlainAnswer` : what operators and host functions make
- `Native.Tame` : host functions that make answers
- `plain_standard`, `tame_standard` : all functions of the standard table do
-/

namespace Scriptlet

/-! ## Freedom from signals -/

mutual

/-- Whether no signal lies in a value, at any depth. -/
def Value.isSignalFree : Value → Bool
  | .error _ | .returned _ | .broke => false
  | .array items => allSignalFree items
  | .hash entries => entriesSignalFree entries
  | .int _ | .bool _ | .str _ | .null | .function _ | .builtin _ | .absent => true

def allSignalFree : List Value → Bool
  | [] => true
  | v :: rest => v.isSignalFree && allSignalFree rest

def entriesSignalFree : List (Key × Value) → Bool
  | [] => true
  | entry :: rest => entrySignalFree entry && entriesSignalFree rest

def entrySignalFree : Key × Value → Bool
  | (_, v) => v.isSignalFree

end

/-- Whether a value may come out of an evaluation: it is free of signals, or it is itself a signal
and returns nothing with a signal in it. -/
def Value.isContained : Value → Bool
  | .error _ | .broke => true
  | .returned v => v.isSignalFree
  | v => v.isSignalFree

def Store.isSignalFree (store : Store) : Bool :=
  store.scopes.toList.all fun scope => scope.vars.all fun var => var.2.isSignalFree

theorem allSignalFree_iff {items : List Value} :
    allSignalFree items = true ↔ ∀ v ∈ items, v.isSignalFree = true := by
  induction items with
  | nil => simp [allSignalFree]
  | cons v rest ih => simp [allSignalFree, ih]

theorem entriesSignalFree_iff {entries : List (Key × Value)} :
    entriesSignalFree entries = true ↔ ∀ entry ∈ entries, entry.2.isSignalFree = true := by
  induction entries with
  | nil => simp [entriesSignalFree]
  | cons entry rest ih =>
      rcases entry with ⟨key, v⟩
      simp [entriesSignalFree, entrySignalFree, ih]

namespace Value

theorem isSignalFree_array {items : List Value} :
    (array items).isSignalFree = true ↔ ∀ v ∈ items, v.isSignalFree = true := by
  rw [isSignalFree, allSignalFree_iff]

theorem isSignalFree_hash {entries : List (Key × Value)} :
    (hash entries).isSignalFree = true ↔ ∀ entry ∈ entries, entry.2.isSignalFree = true := by
  rw [isSignalFree, entriesSignalFree_iff]

theorem not_isSignal {v : Value} (free : v.isSignalFree = true) : ¬ v.isSignal = true := by
  cases v <;> first | exact Bool.false_ne_true | cases free

theorem isContained_of_free {v : Value} (free : v.isSignalFree = true) :
    v.isContained = true := by
  cases v <;> first | exact free | cases free

theorem isSignalFree_orNull {v : Value} (free : v.isSignalFree = true) :
    v.orNull.isSignalFree = true := by
  cases v with
  | absent => rfl
  | _ => exact free

end Value

theorem Key.isSignalFree_toValue (key : Key) : key.toValue.isSignalFree = true := by
  cases key <;> rfl

/-! ## Stores -/

theorem mem_of_lookup {α β : Type} [BEq α] [LawfulBEq α] {entries : List (α × β)} {key : α}
    {value : β} (h : entries.lookup key = some value) : (key, value) ∈ entries := by
  rcases List.lookup_eq_some_iff.1 h with ⟨before, after, rfl, -⟩
  simp

/-- A scope in which a name is bound holds that binding and those from before. -/
theorem Scope.mem_bindIn {name : String} {value : Value} {vars : List (String × Value)}
    {var : String × Value} (h : var ∈ bindIn name value vars) :
    var = (name, value) ∨ var ∈ vars := by
  induction vars with
  | nil => simpa [bindIn] using h
  | cons entry rest ih =>
      unfold bindIn at h
      split at h
      · rcases List.mem_cons.1 h with rfl | hrest
        · exact .inl rfl
        · exact .inr (List.mem_cons_of_mem _ hrest)
      · rcases List.mem_cons.1 h with rfl | hrest
        · exact .inr List.mem_cons_self
        · rcases ih hrest with heq | hmem
          · exact .inl heq
          · exact .inr (List.mem_cons_of_mem _ hmem)

/-- Whatever is bound in some scope has a property. -/
def Store.Binds (P : Value → Prop) (store : Store) : Prop :=
  ∀ scope ∈ store.scopes, ∀ var ∈ scope.vars, P var.2

namespace Store.Binds

variable {P : Value → Prop} {store : Store}

theorem initial (P : Value → Prop) : Store.initial.Binds P := by
  intro scope hscope var hvar
  cases List.mem_singleton.1 (Array.mem_toList_iff.2 hscope)
  cases hvar

theorem bind (h : store.Binds P) {v : Value} (hv : P v) (id : Nat) (name : String) :
    (store.bind id name v).Binds P := by
  intro scope hscope var hvar
  -- Only the scope with this number changes, and there only by the new binding.
  rcases Array.mem_iff_getElem.1 hscope with ⟨i, hi, rfl⟩
  simp only [Store.bind, Array.size_modify] at hi
  simp only [Store.bind, Array.getElem_modify] at hvar
  split at hvar
  · rcases Scope.mem_bindIn hvar with rfl | hmem
    · exact hv
    · exact h _ (Array.getElem_mem hi) var hmem
  · exact h _ (Array.getElem_mem hi) var hvar

theorem newScope (h : store.Binds P) (outer : Option Nat) : (store.newScope outer).Binds P := by
  intro scope hscope var hvar
  rcases Array.mem_push.1 hscope with hold | rfl
  · exact h scope hold var hvar
  · cases hvar

theorem findFrom (h : store.Binds P) {name : String} {v : Value} (fuel id : Nat)
    (eq : store.findFrom name fuel id = some v) : P v := by
  induction fuel generalizing id with
  | zero => cases eq
  | succ fuel ih =>
      unfold Store.findFrom at eq
      split at eq
      · cases eq
      · next scope hscope =>
          split at eq
          · next value hget =>
              cases eq
              exact h scope (Array.mem_of_getElem? hscope) _ (mem_of_lookup hget)
          -- Not bound here: the search goes on in the scope outside, if there is one.
          · split at eq
            · exact ih _ eq
            · cases eq

/-- A call binds its arguments and nothing else. -/
theorem enter (h : store.Binds P) (closure : Closure) {args : List Value}
    (hargs : ∀ v ∈ args, P v) : (Eval.enter closure args store).Binds P := by
  unfold Eval.enter
  -- The parameters are bound one by one in a scope that starts out empty.
  refine List.foldlRecOn (motive := fun entered : Store => entered.Binds P) _ _ (h.newScope _) ?_
  intro entered hentered binding hbinding
  exact hentered.bind (hargs _ (List.of_mem_zip hbinding).2) _ _

end Store.Binds

namespace Store

variable {store : Store}

theorem isSignalFree_iff :
    store.isSignalFree = true ↔ store.Binds fun v => v.isSignalFree = true := by
  simp only [isSignalFree, Binds, List.all_eq_true, Array.mem_toList_iff]

theorem isSignalFree_initial : initial.isSignalFree = true :=
  isSignalFree_iff.2 (.initial _)

theorem isSignalFree_bind (free : store.isSignalFree = true) {v : Value}
    (hv : v.isSignalFree = true) (id : Nat) (name : String) :
    (store.bind id name v).isSignalFree = true :=
  isSignalFree_iff.2 ((isSignalFree_iff.1 free).bind hv id name)

theorem isSignalFree_print (free : store.isSignalFree = true) (lines : List String) :
    (store.print lines).isSignalFree = true :=
  free

theorem isSignalFree_findFrom (free : store.isSignalFree = true) {name : String} {v : Value}
    (fuel id : Nat) (h : store.findFrom name fuel id = some v) : v.isSignalFree = true :=
  (isSignalFree_iff.1 free).findFrom fuel id h

theorem isSignalFree_enter (free : store.isSignalFree = true) (closure : Closure)
    {args : List Value} (hargs : ∀ v ∈ args, v.isSignalFree = true) :
    (Eval.enter closure args store).isSignalFree = true :=
  isSignalFree_iff.2 ((isSignalFree_iff.1 free).enter closure hargs)

end Store

/-! ## Operators -/

/-- What operators and host functions make of values without signals: another one, or an error. -/
def Value.IsAnswer (v : Value) : Prop :=
  v.isSignalFree = true ∨ ∃ fault, v = .error fault

namespace Value.IsAnswer

theorem error (fault : Fault) : IsAnswer (.error fault) :=
  .inr ⟨fault, rfl⟩

theorem free {v : Value} (h : v.isSignalFree = true) : v.IsAnswer :=
  .inl h

theorem orNull {v : Value} (h : v.IsAnswer) : v.orNull.IsAnswer := by
  rcases h with hfree | ⟨fault, rfl⟩
  · exact .inl (isSignalFree_orNull hfree)
  · exact .inr ⟨fault, rfl⟩

end Value.IsAnswer

/-- An answer whose error, if it is one, is ordinary. -/
def Value.IsPlainAnswer (v : Value) : Prop :=
  v.isSignalFree = true ∨ ∃ fault, v = .error fault ∧ fault.isOrdinary = true

namespace Value.IsPlainAnswer

theorem error {fault : Fault} (ordinary : fault.isOrdinary = true) :
    IsPlainAnswer (.error fault) :=
  .inr ⟨fault, rfl, ordinary⟩

theorem free {v : Value} (h : v.isSignalFree = true) : v.IsPlainAnswer :=
  .inl h

theorem orNull {v : Value} (h : v.IsPlainAnswer) : v.orNull.IsPlainAnswer := by
  rcases h with hfree | ⟨fault, rfl, hordinary⟩
  · exact .inl (isSignalFree_orNull hfree)
  · exact .error hordinary

theorem isAnswer {v : Value} (h : v.IsPlainAnswer) : v.IsAnswer := by
  rcases h with hfree | ⟨fault, rfl, -⟩
  · exact .inl hfree
  · exact .inr ⟨fault, rfl⟩

end Value.IsPlainAnswer

theorem plain_lookup {store : Store} (free : store.isSignalFree = true) (builtins : Builtins)
    (scope : Nat) (name : String) : (Eval.lookup builtins scope name store).IsPlainAnswer := by
  unfold Eval.lookup
  split
  · next value hfind => exact .free (Store.isSignalFree_findFrom free _ _ hfind)
  · split
    · exact .free rfl
    · exact .error rfl

theorem plain_evalUnary (op : UnaryOp) (v : Value) : (evalUnary op v).IsPlainAnswer := by
  unfold evalUnary
  split
  · exact .free rfl
  · exact .free rfl
  · exact .free rfl
  · exact .error rfl

theorem plain_evalIntegers (op : BinaryOp) (a b : Int64) : (evalIntegers op a b).IsPlainAnswer := by
  cases op with
  | div =>
      simp only [evalIntegers]
      split
      · exact .error rfl
      · exact .free rfl
  | other => exact .error rfl
  | _ => exact .free rfl

theorem plain_evalStrings (op : BinaryOp) (a b : String) : (evalStrings op a b).IsPlainAnswer := by
  unfold evalStrings
  split
  · exact .free rfl
  · exact .free rfl
  · exact .free rfl
  · exact .error rfl

/-- An operator gives a value free of signals or an ordinary error. -/
theorem plain_evalBinary (op : BinaryOp) (left right : Value) :
    (evalBinary op left right).IsPlainAnswer := by
  unfold evalBinary
  split
  · exact plain_evalIntegers op _ _
  · exact plain_evalStrings op _ _
  · split
    · exact .free rfl
    · exact .free rfl
    · split
      · exact .error rfl
      · exact .error rfl

/-! ## Items and entries -/

theorem isSignalFree_getD {items : List Value} (h : ∀ v ∈ items, v.isSignalFree = true)
    (place : Nat) : (items.getD place .null).isSignalFree = true := by
  rw [List.getD_eq_getElem?_getD]
  cases hitem : items[place]? with
  | none => rfl
  | some v => exact h v (List.mem_of_getElem? hitem)

namespace Entries

variable {entries : Entries}

theorem mem_of_get? {key : Key} {v : Value} (h : entries.get? key = some v) :
    (key, v) ∈ entries := by
  induction entries with
  | nil => cases h
  | cons entry rest ih =>
      unfold get? at h
      split at h
      · next hkey =>
          cases h
          rw [← hkey]
          exact List.mem_cons_self
      · exact List.mem_cons_of_mem _ (ih h)

theorem mem_insert {key : Key} {v : Value} {entry : Key × Value}
    (h : entry ∈ entries.insert key v) : entry = (key, v) ∨ entry ∈ entries := by
  induction entries with
  | nil => simpa [insert] using h
  | cons first rest ih =>
      unfold insert at h
      split at h
      · rcases List.mem_cons.1 h with rfl | hrest
        · exact .inl rfl
        · exact .inr (List.mem_cons_of_mem _ hrest)
      · rcases List.mem_cons.1 h with rfl | hrest
        · exact .inr List.mem_cons_self
        · rcases ih hrest with heq | hmem
          · exact .inl heq
          · exact .inr (List.mem_cons_of_mem _ hmem)

theorem isSignalFree_insert (free : (Value.hash entries).isSignalFree = true) (key : Key)
    {v : Value} (hv : v.isSignalFree = true) :
    (Value.hash (entries.insert key v)).isSignalFree = true := by
  rw [Value.isSignalFree_hash] at free ⊢
  intro entry hentry
  rcases mem_insert hentry with rfl | hmem
  · exact hv
  · exact free entry hmem

end Entries

/-- So does indexing a value free of signals. -/
theorem plain_evalIndex {target : Value} (free : target.isSignalFree = true) (key : Value) :
    (evalIndex target key).IsPlainAnswer := by
  unfold evalIndex
  split
  · next items =>
      split
      · next place =>
          unfold itemAt
          split
          · exact .free rfl
          · exact .free (isSignalFree_getD (Value.isSignalFree_array.1 free) _)
      · exact .error rfl
  · next entries =>
      split
      · next k _ =>
          cases hget : Entries.get? k entries with
          | none => exact .free rfl
          | some v =>
              exact .free (Value.isSignalFree_hash.1 free _ (Entries.mem_of_get? hget))
      · exact .error rfl
  · exact .error rfl

/-! ## Host functions -/

/-- Host functions that make answers of arguments without signals. -/
def Native.Tame (native : Native) : Prop :=
  ∀ args : List Value, (∀ v ∈ args, v.isSignalFree = true) → (native args).value.IsAnswer

namespace Builtin

theorem plain_len (args : List Value) : (len args).IsPlainAnswer := by
  unfold len
  split <;> first | exact .free rfl | exact .error rfl

theorem plain_first {args : List Value} (h : ∀ v ∈ args, v.isSignalFree = true) :
    (first args).IsPlainAnswer := by
  unfold first
  split
  · next items =>
      have hitems := Value.isSignalFree_array.1 (h _ List.mem_cons_self)
      cases items with
      | nil => exact .free rfl
      | cons v rest => exact .free (hitems v List.mem_cons_self)
  · exact .error rfl
  · exact .error rfl

theorem plain_last {args : List Value} (h : ∀ v ∈ args, v.isSignalFree = true) :
    (last args).IsPlainAnswer := by
  unfold last
  split
  · next items =>
      have hitems := Value.isSignalFree_array.1 (h _ List.mem_cons_self)
      rw [List.getLastD_eq_getLast?]
      cases hlast : items.getLast? with
      | none => exact .free rfl
      | some v => exact .free (hitems v (List.mem_of_getLast? hlast))
  · exact .error rfl
  · exact .error rfl

theorem plain_rest {args : List Value} (h : ∀ v ∈ args, v.isSignalFree = true) :
    (rest args).IsPlainAnswer := by
  unfold rest
  split
  · exact .free rfl
  · next first items =>
      have hitems := Value.isSignalFree_array.1 (h _ List.mem_cons_self)
      refine .free (Value.isSignalFree_array.2 ?_)
      intro v hv
      exact hitems v (List.mem_cons_of_mem _ hv)
  · exact .error rfl
  · exact .error rfl

theorem plain_push {args : List Value} (h : ∀ v ∈ args, v.isSignalFree = true) :
    (push args).IsPlainAnswer := by
  unfold push
  split
  · next items item =>
      have hitems := Value.isSignalFree_array.1 (h _ List.mem_cons_self)
      refine .free (Value.isSignalFree_array.2 ?_)
      intro v hv
      rcases List.mem_append.1 hv with hold | hnew
      · exact hitems v hold
      · exact h v (List.mem_cons_of_mem _ hnew)
  · exact .error rfl
  · exact .error rfl

theorem plain_keys (args : List Value) : (keys args).IsPlainAnswer := by
  unfold keys
  split
  · refine .free (Value.isSignalFree_array.2 ?_)
    intro v hv
    rcases List.mem_map.1 hv with ⟨entry, -, rfl⟩
    exact entry.1.isSignalFree_toValue
  · exact .error rfl
  · exact .error rfl

theorem plain_values {args : List Value} (h : ∀ v ∈ args, v.isSignalFree = true) :
    (values args).IsPlainAnswer := by
  unfold values
  split
  · next entries =>
      have hentries := Value.isSignalFree_hash.1 (h _ List.mem_cons_self)
      refine .free (Value.isSignalFree_array.2 ?_)
      intro v hv
      rcases List.mem_map.1 hv with ⟨entry, hentry, rfl⟩
      exact hentries entry hentry
  · exact .error rfl
  · exact .error rfl

theorem plain_contains (args : List Value) : (contains args).IsPlainAnswer := by
  unfold contains
  split
  · exact .free rfl
  · exact .error rfl
  · exact .free rfl
  · split
    · exact .free rfl
    · exact .error rfl
  · exact .error rfl
  · exact .error rfl

theorem plain_join (args : List Value) : (join args).IsPlainAnswer := by
  unfold join
  split <;> first | exact .free rfl | exact .error rfl

theorem plain_split (args : List Value) : (split args).IsPlainAnswer := by
  unfold split
  split
  · refine .free (Value.isSignalFree_array.2 ?_)
    intro v hv
    rcases List.mem_map.1 hv with ⟨piece, -, rfl⟩
    rfl
  · exact .error rfl
  · exact .error rfl
  · exact .error rfl

theorem plain_onText (name : String) (f : String → String) (args : List Value) :
    (onText name f args).IsPlainAnswer := by
  unfold onText
  split <;> first | exact .free rfl | exact .error rfl

theorem plain_abs (args : List Value) : (abs args).IsPlainAnswer := by
  unfold abs
  split <;> first | exact .free rfl | exact .error rfl

theorem plain_combine (name : String) (f : Int64 → Int64 → Int64) (args : List Value) :
    (combine name f args).IsPlainAnswer := by
  have hall (acc : Int64) (rest : List Value) : (combineAll name f acc rest).IsPlainAnswer := by
    fun_induction combineAll name f acc rest with
    | case1 => exact .free rfl
    | case2 _ _ _ ih => exact ih
    | case3 => exact .error rfl
  unfold combine
  split
  · exact .error rfl
  · exact hall _ _
  · exact .error rfl

theorem plain_type (args : List Value) : (type args).IsPlainAnswer := by
  unfold type
  split <;> first | exact .free rfl | exact .error rfl

theorem plain_str (args : List Value) : (str args).IsPlainAnswer := by
  unfold str
  split <;> first | exact .free rfl | exact .error rfl

end Builtin

/-- Every function of the standard table makes answers, and its errors are ordinary. -/
theorem plain_standard {name : String} {native : Native}
    (h : Builtins.standard.find? name = some native) {args : List Value}
    (free : ∀ v ∈ args, v.isSignalFree = true) : (native args).value.IsPlainAnswer := by
  have hmem := mem_of_lookup h
  -- One case for each row of the table, in its order.
  simp only [Builtins.standard, List.mem_cons, Prod.mk.injEq, List.not_mem_nil, or_false] at hmem
  rcases hmem with ⟨-, rfl⟩ | ⟨-, rfl⟩ | ⟨-, rfl⟩ | ⟨-, rfl⟩ | ⟨-, rfl⟩ | ⟨-, rfl⟩ | ⟨-, rfl⟩ |
    ⟨-, rfl⟩ | ⟨-, rfl⟩ | ⟨-, rfl⟩ | ⟨-, rfl⟩ | ⟨-, rfl⟩ | ⟨-, rfl⟩ | ⟨-, rfl⟩ | ⟨-, rfl⟩ |
    ⟨-, rfl⟩ | ⟨-, rfl⟩ | ⟨-, rfl⟩ | ⟨-, rfl⟩
  · exact Builtin.plain_abs args
  · exact Builtin.plain_contains args
  · exact Builtin.plain_first free
  · exact Builtin.plain_join args
  · exact Builtin.plain_keys args
  · exact Builtin.plain_last free
  · exact Builtin.plain_len args
  · exact Builtin.plain_onText _ _ args
  · exact Builtin.plain_combine _ _ args
  · exact Builtin.plain_combine _ _ args
  · exact Builtin.plain_push free
  · exact .free rfl
  · exact Builtin.plain_rest free
  · exact Builtin.plain_split args
  · exact Builtin.plain_str args
  · exact Builtin.plain_onText _ _ args
  · exact Builtin.plain_type args
  · exact Builtin.plain_onText _ _ args
  · exact Builtin.plain_values free

/-- So does every standard host function. -/
theorem tame_standard {name : String} {native : Native}
    (h : Builtins.standard.find? name = some native) : native.Tame :=
  fun _ free => (plain_standard h free).isAnswer

end Scriptlet
