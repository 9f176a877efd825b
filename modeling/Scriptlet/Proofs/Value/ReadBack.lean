import Mathlib.Data.List.Forall2
import Scriptlet.Proofs.Eval.Congruence
import Scriptlet.Proofs.Eval.Containment
import Scriptlet.Proofs.Parse.Completeness
import Scriptlet.Proofs.Parse.Written
import Scriptlet.Proofs.Session
import Scriptlet.Proofs.Value.Equality
import Scriptlet.Proofs.Value.Inspect

/-!
# Reading back what a value shows as

The text of a value inside an array is a program of one statement, and the value of that program is
the value itself, as long as it is made of numbers, texts and truth values. The least number has no
literal, and other characters than the plain ones are quoted in ways that are not read.

- `Value.isData` : values that are read back
- `Value.depth` : how many expressions lie inside each other in the text of a value
- `Yields` : expressions that give a value and do nothing else
- `IsLiteral` : texts that are an expression with a given value
- `run_inspectNested` : the text of data as a program
-/

namespace Scriptlet

open Text Parse

/-! ## Data -/

def Key.isData : Key → Bool
  | .int n => n != Int64.minValue
  | .str s => s.toList.all isPlain

/-- A negative number is an operator with its operand. -/
def Key.depth : Key → Nat
  | .int n => if n < 0 then 2 else 1
  | .str _ => 1

mutual

/-- Whether a value is made of numbers that have a literal, truth values and plain texts alone, in
hashes with keys that differ. -/
def Value.isData : Value → Bool
  | .int n => (Key.int n).isData
  | .bool _ => true
  | .str s => (Key.str s).isData
  | .array items => itemsAreData items
  | .hash entries => decide (entries.map Prod.fst).Nodup && entriesAreData entries
  | _ => false

def itemsAreData : List Value → Bool
  | [] => true
  | item :: rest => item.isData && itemsAreData rest

def entriesAreData : List (Key × Value) → Bool
  | [] => true
  | entry :: rest => entryIsData entry && entriesAreData rest

def entryIsData : Key × Value → Bool
  | (key, value) => key.isData && value.isData

end

mutual

/-- How many expressions lie inside each other in the text of a value. -/
def Value.depth : Value → Nat
  | .int n => (Key.int n).depth
  | .array items => itemsDepth items + 1
  | .hash entries => entriesDepth entries + 1
  | _ => 1

def itemsDepth : List Value → Nat
  | [] => 0
  | item :: rest => max item.depth (itemsDepth rest)

def entriesDepth : List (Key × Value) → Nat
  | [] => 0
  | entry :: rest => max (entryDepth entry) (entriesDepth rest)

def entryDepth : Key × Value → Nat
  | (key, value) => max key.depth value.depth

end

/-! ## Expressions with a value -/

/-- An expression that has the given value with at least so many levels, and does nothing else. -/
structure Yields (levels : Nat) (e : Expr) (v : Value) : Prop where
  quiet : v.isSignal = false
  eval_eq (machine : Machine) {more : Nat} (h : levels ≤ more) (scope : Nat) (store : Store) :
    eval machine more (.expr e) scope store = some (v, store)

namespace Yields

variable {levels : Nat} {e : Expr} {v : Value}

/-- With more levels, an expression yields the same. -/
theorem mono (h : Yields levels e v) {more : Nat} (hle : levels ≤ more) : Yields more e v := by
  refine ⟨h.quiet, ?_⟩
  intro machine _ hmore scope store
  exact h.eval_eq machine (Nat.le_trans hle hmore) scope store

/-- What comes after such an expression is given its value. -/
theorem andThen (h : Yields levels e v) (machine : Machine) {more : Nat} (hle : levels ≤ more)
    (scope : Nat) (next : Value → Run Value) (store : Store) :
    ((eval machine more (.expr e) scope).andThen next) store = next v store := by
  rw [Run.andThen, Run.bind_apply, h.eval_eq machine hle scope store]
  dsimp only
  rw [h.quiet]
  rfl

/-- A literal is its own value. -/
theorem of_eval {e : Expr} {v : Value} (quiet : v.isSignal = false)
    (h : ∀ machine deeper scope, Eval.expr machine deeper scope e = pure v) : Yields 1 e v := by
  refine ⟨quiet, ?_⟩
  intro machine more hmore scope store
  obtain ⟨fewer, rfl⟩ : ∃ n, more = n + 1 := ⟨more - 1, by omega⟩
  exact congrFun (h machine (eval machine fewer) scope) store

/-- Expressions in a list give their values in order. -/
theorem exprs_apply {levels : Nat} {es : List Expr} {vs : List Value}
    (h : List.Forall₂ (Yields levels) es vs) (machine : Machine) {more : Nat} (hle : levels ≤ more)
    (scope : Nat) (found : List Value) (next : List Value → Run Value) (store : Store) :
    ((Eval.exprs (eval machine more) scope found es).andThenAll next) store =
      next (found.reverse ++ vs) store := by
  induction h generalizing found with
  | nil =>
      rw [Eval.exprs_nil_andThenAll, List.append_nil]
  | @cons e v es vs hfirst _ ih =>
      rw [Eval.exprs_cons_andThenAll, hfirst.andThen machine hle, ih, List.reverse_cons,
        List.append_assoc]
      rfl

theorem array {levels : Nat} {es : List Expr} {vs : List Value}
    (h : List.Forall₂ (Yields levels) es vs) (token : Token) :
    Yields (levels + 1) (.array token es) (.array vs) := by
  refine ⟨rfl, ?_⟩
  intro machine more hmore scope store
  obtain ⟨fewer, rfl⟩ : ∃ n, more = n + 1 := ⟨more - 1, by omega⟩
  exact exprs_apply h machine (Nat.le_of_succ_le_succ hmore) scope []
    (fun vs => return .array vs) store

end Yields

/-- Two expressions that give a key and its value. -/
structure YieldsEntry (levels : Nat) (pair : Expr × Expr) (entry : Key × Value) : Prop where
  key : Yields levels pair.1 entry.1.toValue
  value : Yields levels pair.2 entry.2

/-- The key of the first pair comes first, then its value and then the other pairs. -/
theorem Eval.pairs_cons (deeper : Evaluator) (scope : Nat) (found : Entries) (key value : Expr)
    (rest : List (Expr × Expr)) :
    Eval.pairs deeper scope found ((key, value) :: rest) =
      (deeper (.expr key) scope).andThen fun k =>
        match k.key? with
        | none => return .error (.unusableKey k.type)
        | some k => (deeper (.expr value) scope).andThen fun v =>
            Eval.pairs deeper scope (Entries.insert k v found) rest :=
  rfl

namespace YieldsEntry

variable {levels : Nat} {pairs : List (Expr × Expr)} {entries : Entries}

/-- Pairs with keys that differ give their entries in order, behind those that are there. -/
theorem pairs_apply (h : List.Forall₂ (YieldsEntry levels) pairs entries) (machine : Machine)
    {more : Nat} (hle : levels ≤ more) (scope : Nat) (found : Entries)
    (nodup : ((found ++ entries).map Prod.fst).Nodup) (store : Store) :
    Eval.pairs (eval machine more) scope found pairs store =
      some (.hash (found ++ entries), store) := by
  induction h generalizing found with
  | nil =>
      rw [List.append_nil]
      rfl
  | @cons pair entry pairs entries hfirst _ ih =>
      rcases pair with ⟨keyExpr, valueExpr⟩
      rcases entry with ⟨key, value⟩
      have hnew : key ∉ found.map Prod.fst := by
        rw [List.map_append, List.map_cons] at nodup
        exact fun hmem => (List.nodup_append.1 nodup).2.2 key hmem key List.mem_cons_self rfl
      rw [Eval.pairs_cons, hfirst.key.andThen machine hle, Key.key?_toValue]
      dsimp only
      rw [hfirst.value.andThen machine hle, Entries.insert_of_not_mem hnew]
      have hrest : (found ++ [(key, value)]) ++ entries = found ++ (key, value) :: entries := by
        simp
      rw [← hrest] at nodup ⊢
      exact ih _ nodup

theorem hash (h : List.Forall₂ (YieldsEntry levels) pairs entries)
    (nodup : (entries.map Prod.fst).Nodup) (token : Token) :
    Yields (levels + 1) (.hash token pairs) (.hash entries) := by
  refine ⟨rfl, ?_⟩
  intro machine more hmore scope store
  obtain ⟨fewer, rfl⟩ : ∃ n, more = n + 1 := ⟨more - 1, by omega⟩
  exact YieldsEntry.pairs_apply h machine (Nat.le_of_succ_le_succ hmore) scope [] nodup store

end YieldsEntry

/-! ## Texts that are read -/

/-- A text that is, wherever it stands, an expression with the given value. -/
def IsLiteral (n : Nat) (cs : List Char) (v : Value) : Prop :=
  ∀ pos, ∃ e ts, Written n (.whole e) pos cs ts ∧ Yields n e v

/-- A text that is a list of expressions with the given values. -/
def AreItems (n : Nat) (cs : List Char) (vs : List Value) : Prop :=
  ∀ pos, ∃ es ts, Written n (.list es) pos cs ts ∧ List.Forall₂ (Yields n) es vs

/-- A text that is a list of pairs with the given keys and values. -/
def AreEntries (n : Nat) (cs : List Char) (entries : Entries) : Prop :=
  ∀ pos, ∃ pairs ts, Written n (.entries pairs) pos cs ts ∧
    List.Forall₂ (YieldsEntry n) pairs entries

/-! ## Numbers and texts -/

theorem numeral_repr {n : Nat} {value : Int64} (h : value.toInt = n) : Numeral n.repr value := by
  refine ⟨⟨?_, ?_⟩, ?_⟩
  · rw [Nat.toList_repr]
    exact Nat.toDigits_ne_nil
  · intro c hc
    rw [Nat.toList_repr] at hc
    exact Nat.isDigit_of_mem_toDigits (by decide) (by decide) hc
  · rw [Nat.toList_repr, Nat.ofDigitChars_ten_toDigits, h]

/-- The digits of a number that is not negative, wherever an operand may stand. -/
theorem exists_numeral {n : Nat} {value : Int64} (h : value.toInt = n) (place : Place) (pos : Pos) :
    ∃ e ts, Written 1 (.expr place e) pos n.repr.toList ts ∧ Yields 1 e (.int value) := by
  let digits : Token.Of .int := ⟨⟨.int, n.repr, pos⟩, rfl⟩
  have hspelled : Spelled pos n.repr.toList [digits.val] := by
    rw [Nat.toList_repr]
    exact Lexeme.spelled_digits n pos
  let r : Rendering (.expr place (.int digits value)) false [digits.val] :=
    .plain (Place.admits_of_isOperation_eq_false rfl place) (.int digits value (numeral_repr h))
  exact ⟨_, _, ⟨hspelled, r, Nat.le_refl 1⟩, .of_eval rfl fun _ _ _ => rfl⟩

theorem toInt_neg_of_ne_minValue {n : Int64} (h : n ≠ Int64.minValue) :
    (-n).toInt = -n.toInt := by
  have hmin : n.toInt ≠ -2 ^ 63 := by
    rw [← Int64.toInt_minValue]
    exact fun heq => h (Int64.toInt_inj.1 heq)
  have hle := n.le_toInt
  have hlt := n.toInt_lt
  rw [Int64.toInt_neg]
  exact Int.bmod_eq_of_le_mul_two (by omega) (by omega)

/-- A negative number is written with a sign in front of its digits. -/
theorem isLiteral_negative {n : Int64} (h : n ≠ Int64.minValue) (negative : n.toInt < 0) :
    IsLiteral 2 n.toInt.repr.toList (.int n) := by
  intro pos
  have hneg := toInt_neg_of_ne_minValue h
  obtain ⟨m, hm⟩ : ∃ m : Nat, (-n).toInt = m := ⟨(-n.toInt).toNat, by omega⟩
  have htext : n.toInt.repr.toList = '-' :: m.repr.toList := by
    have hnat : (-n.toInt).toNat = m := by omega
    rw [Int.repr_eq_if, if_neg (by omega), hnat, String.toList_append]
    rfl
  let sign : Token := ⟨.minus, "-", pos⟩
  rcases exists_numeral hm (.behind Precedence.unary) (pos.after '-') with
    ⟨e, ts, ⟨hspelled, r, hr⟩, hyields⟩
  let r' : Rendering (.whole (.unary sign .neg e)) false (sign :: ts) :=
    .plain trivial (.unary sign rfl r)
  refine ⟨_, _, ⟨?_, r', Nat.succ_le_succ hr⟩, rfl, ?_⟩
  · rw [htext]
    exact hspelled.sign rfl
  · intro machine more hmore scope store
    obtain ⟨fewer, rfl⟩ : ∃ k, more = k + 1 := ⟨more - 1, by omega⟩
    have hvalue := hyields.andThen machine (Nat.le_of_succ_le_succ hmore) scope
      (fun v => return evalUnary .neg v) store
    have hback : evalUnary .neg (.int (-n)) = .int n := congrArg Value.int Int64.neg_neg
    rw [hback] at hvalue
    exact hvalue

/-- A number is read back, negative ones as the operator in front of their digits. -/
theorem isLiteral_int {n : Int64} (h : n ≠ Int64.minValue) :
    IsLiteral (Key.int n).depth n.toInt.repr.toList (.int n) := by
  have hzero : (0 : Int64).toInt = 0 := rfl
  by_cases hnegative : n < 0
  · have hdepth : (Key.int n).depth = 2 := if_pos hnegative
    rw [Int64.lt_iff_toInt_lt, hzero] at hnegative
    rw [hdepth]
    exact isLiteral_negative h hnegative
  · have hdepth : (Key.int n).depth = 1 := if_neg hnegative
    rw [Int64.lt_iff_toInt_lt, hzero] at hnegative
    obtain ⟨m, hm⟩ : ∃ m : Nat, n.toInt = m := ⟨n.toInt.toNat, by omega⟩
    have htext : n.toInt.repr = m.repr := by
      rw [hm]
      rfl
    rw [hdepth, htext]
    exact exists_numeral hm (.behind Precedence.lowest)

/-- So is a string of plain characters. -/
theorem isLiteral_str {s : String} (plain : ∀ c ∈ s.toList, isPlain c = true) :
    IsLiteral 1 (quoteText s).toList (.str s) := by
  intro pos
  let text : Token.Of .str := ⟨⟨.str, s, pos⟩, rfl⟩
  have hspelled : Spelled pos (quoteText s).toList [text.val] := by
    rw [quoteText, String.toList_ofList]
    exact (Lexeme.whole_quoted plain).spelled (by decide) pos
  let r : Rendering (.whole (.str text s)) false [text.val] := .plain trivial (.str text)
  exact ⟨_, _, ⟨hspelled, r, Nat.le_refl 1⟩, .of_eval rfl fun _ _ _ => rfl⟩

theorem isLiteral_bool (b : Bool) : IsLiteral 1 (cond b "true" "false").toList (.bool b) := by
  intro pos
  cases b with
  | true =>
      let word : Token.Of .trueKw := ⟨⟨.trueKw, "true", pos⟩, rfl⟩
      have hspelled : Spelled pos "true".toList [word.val] :=
        Lexeme.whole_true.spelled (by decide) pos
      let r : Rendering (.whole (.bool word true)) false [word.val] :=
        .plain trivial (.trueWord word)
      exact ⟨_, _, ⟨hspelled, r, Nat.le_refl 1⟩, .of_eval rfl fun _ _ _ => rfl⟩
  | false =>
      let word : Token.Of .falseKw := ⟨⟨.falseKw, "false", pos⟩, rfl⟩
      have hspelled : Spelled pos "false".toList [word.val] :=
        Lexeme.whole_false.spelled (by decide) pos
      let r : Rendering (.whole (.bool word false)) false [word.val] :=
        .plain trivial (.falseWord word)
      exact ⟨_, _, ⟨hspelled, r, Nat.le_refl 1⟩, .of_eval rfl fun _ _ _ => rfl⟩

/-- So is every key that is data. -/
theorem isLiteral_key {key : Key} (data : key.isData = true) :
    IsLiteral key.depth key.inspect.toList key.toValue := by
  cases key with
  | int n => exact isLiteral_int (bne_iff_ne.1 data)
  | str s => exact isLiteral_str (List.all_eq_true.1 data)

/-! ## Arrays -/

theorem IsLiteral.mono {n m : Nat} {cs : List Char} {v : Value} (h : IsLiteral n cs v)
    (hle : n ≤ m) : IsLiteral m cs v := by
  intro pos
  rcases h pos with ⟨e, ts, hwritten, hyields⟩
  exact ⟨e, ts, hwritten.mono hle, hyields.mono hle⟩

namespace AreItems

variable {n m : Nat} {cs ds : List Char} {v w : Value} {vs : List Value}

theorem mono (h : AreItems n cs vs) (hle : n ≤ m) : AreItems m cs vs := by
  intro pos
  rcases h pos with ⟨es, ts, hwritten, hyields⟩
  exact ⟨es, ts, hwritten.mono hle, hyields.imp fun _ _ hy => hy.mono hle⟩

theorem nil : AreItems 0 [] [] := by
  intro pos
  exact ⟨[], [], .list_nil pos, .nil⟩

theorem last (h : IsLiteral n cs v) : AreItems n cs [v] := by
  intro pos
  rcases h pos with ⟨e, ts, hwritten, hyields⟩
  exact ⟨[e], ts, hwritten.list_last, .cons hyields .nil⟩

theorem cons (first : IsLiteral n cs v) (rest : AreItems n ds (w :: vs)) :
    AreItems n (cs ++ ',' :: ' ' :: ds) (v :: w :: vs) := by
  intro pos
  rcases first pos with ⟨e, ts, hfirst, hyields⟩
  rcases rest (((pos.afterAll cs).after ',').after ' ') with ⟨es, us, hrest, hall⟩
  cases hall with
  | @cons next _ es _ hnext hmore =>
      rcases hfirst.list_cons hrest with ⟨vs, hwritten⟩
      exact ⟨e :: next :: es, vs, hwritten, .cons hyields (.cons hnext hmore)⟩

theorem array (h : AreItems n cs vs) : IsLiteral (n + 1) ('[' :: (cs ++ [']'])) (.array vs) := by
  intro pos
  rcases h (pos.after '[') with ⟨es, ts, hitems, hyields⟩
  rcases hitems.array with ⟨us, hwritten⟩
  exact ⟨_, us, hwritten.plain trivial, .array hyields _⟩

end AreItems

/-! ## Hashes -/

namespace AreEntries

variable {n m : Nat} {cs ds fs : List Char} {key : Key} {v : Value} {entries : Entries}

theorem mono (h : AreEntries n cs entries) (hle : n ≤ m) : AreEntries m cs entries := by
  intro pos
  rcases h pos with ⟨pairs, ts, hwritten, hyields⟩
  exact ⟨pairs, ts, hwritten.mono hle, hyields.imp fun _ _ hy =>
    ⟨hy.key.mono hle, hy.value.mono hle⟩⟩

theorem nil : AreEntries 0 [] [] := by
  intro pos
  exact ⟨[], [], .entries_nil pos, .nil⟩

theorem last (hkey : IsLiteral n cs key.toValue) (hvalue : IsLiteral n ds v) :
    AreEntries n (cs ++ ':' :: ' ' :: ds) [(key, v)] := by
  intro pos
  rcases hkey pos with ⟨k, ts, hwritten, hyields⟩
  rcases hvalue (((pos.afterAll cs).after ':').after ' ') with ⟨e, us, hwritten', hyields'⟩
  rcases hwritten.entries_last hwritten' with ⟨vs, hentry⟩
  exact ⟨[(k, e)], vs, hentry, .cons ⟨hyields, hyields'⟩ .nil⟩

theorem cons (hkey : IsLiteral n cs key.toValue) (hvalue : IsLiteral n ds v)
    (rest : AreEntries n fs entries) :
    AreEntries n (cs ++ ':' :: ' ' :: (ds ++ ',' :: ' ' :: fs)) ((key, v) :: entries) := by
  intro pos
  let behind := ((pos.afterAll cs).after ':').after ' '
  rcases hkey pos with ⟨k, ts, hwritten, hyields⟩
  rcases hvalue behind with ⟨e, us, hwritten', hyields'⟩
  rcases rest (((behind.afterAll ds).after ',').after ' ') with ⟨pairs, vs, hrest, hall⟩
  rcases hwritten.entries_cons rfl hwritten' hrest with ⟨ws, hentries⟩
  exact ⟨(k, e) :: pairs, ws, hentries, .cons ⟨hyields, hyields'⟩ hall⟩

theorem hash (h : AreEntries n cs entries) (nodup : (entries.map Prod.fst).Nodup) :
    IsLiteral (n + 1) ('\x7b' :: (cs ++ ['\x7d'])) (.hash entries) := by
  intro pos
  rcases h (pos.after '\x7b') with ⟨pairs, ts, hitems, hyields⟩
  rcases hitems.hash with ⟨us, hwritten⟩
  exact ⟨_, us, hwritten.plain trivial, YieldsEntry.hash hyields nodup _⟩

end AreEntries

/-! ## All values -/

mutual

/-- The text of a value is a literal of it. -/
theorem Value.isLiteral : ∀ v : Value, v.isData = true →
    IsLiteral v.depth v.inspectNested.toList v
  | .int _, data => by
      rw [Value.isData] at data
      exact isLiteral_key data
  | .bool b, _ => isLiteral_bool b
  | .str _, data => by
      rw [Value.isData] at data
      exact isLiteral_key data
  | .array items, data => by
      rw [Value.isData] at data
      rw [Value.depth, toList_inspect_array]
      exact (areItems items data).array
  | .hash entries, data => by
      rw [Value.isData, Bool.and_eq_true, decide_eq_true_eq] at data
      rw [Value.depth, toList_inspect_hash]
      exact (areEntries entries data.2).hash data.1
  | .null, data | .function _, data | .builtin _, data | .error _, data | .returned _, data
  | .broke, data | .absent, data => by simp [Value.isData] at data

/-- The items of an array are read back, by recursion on the values in them. -/
theorem areItems : ∀ items : List Value, itemsAreData items = true →
    AreItems (itemsDepth items) (", ".intercalate (inspectItems items)).toList items
  | [], _ => .nil
  | [item], data => by
      rw [itemsAreData, Bool.and_eq_true] at data
      rw [inspectItems, inspectItems, String.intercalate_singleton]
      exact .last ((item.isLiteral data.1).mono (Nat.le_max_left _ _))
  | item :: next :: rest, data => by
      rw [itemsAreData, Bool.and_eq_true] at data
      rw [inspectItems, inspectItems, toList_intercalate_cons_cons, itemsDepth]
      exact .cons ((item.isLiteral data.1).mono (Nat.le_max_left _ _))
        ((areItems (next :: rest) data.2).mono (Nat.le_max_right _ _))

/-- So are the entries of a hash. -/
theorem areEntries : ∀ entries : List (Key × Value), entriesAreData entries = true →
    AreEntries (entriesDepth entries) (", ".intercalate (inspectEntries entries)).toList entries
  | [], _ => .nil
  | [(key, v)], data => by
      rw [entriesAreData, entryIsData, Bool.and_eq_true, Bool.and_eq_true] at data
      rw [inspectEntries, inspectEntries, String.intercalate_singleton, toList_inspectEntry]
      have hle : max key.depth v.depth ≤ entriesDepth [(key, v)] := Nat.le_max_left _ _
      exact .last ((isLiteral_key data.1.1).mono (Nat.le_trans (Nat.le_max_left _ _) hle))
        ((v.isLiteral data.1.2).mono (Nat.le_trans (Nat.le_max_right _ _) hle))
  | (key, v) :: next :: rest, data => by
      rw [entriesAreData, entryIsData, Bool.and_eq_true, Bool.and_eq_true] at data
      rw [inspectEntries, inspectEntries, toList_intercalate_cons_cons, toList_inspectEntry,
        List.append_assoc]
      have hle : max key.depth v.depth ≤ entriesDepth ((key, v) :: next :: rest) :=
        Nat.le_max_left _ _
      exact .cons ((isLiteral_key data.1.1).mono (Nat.le_trans (Nat.le_max_left _ _) hle))
        ((v.isLiteral data.1.2).mono (Nat.le_trans (Nat.le_max_right _ _) hle))
        ((areEntries (next :: rest) data.2).mono (Nat.le_max_right _ _))

end

/-! ## Equality -/

mutual

/-- Data holds no signals, and its hashes could have been filled entry by entry. -/
theorem Value.built_of_isData : ∀ v : Value, v.isData = true → v.Built ∧ v.isSignalFree = true
  | .int n, _ => ⟨.int n, rfl⟩
  | .bool b, _ => ⟨.bool b, rfl⟩
  | .str s, _ => ⟨.str s, rfl⟩
  | .array items, data => by
      rw [Value.isData] at data
      have hitems := items_built items data
      exact ⟨.array fun v hv => (hitems v hv).1,
        Value.isSignalFree_array.2 fun v hv => (hitems v hv).2⟩
  | .hash entries, data => by
      rw [Value.isData, Bool.and_eq_true, decide_eq_true_eq] at data
      have hentries := entries_built entries data.2
      exact ⟨.hash_of_nodup data.1 fun entry hentry => (hentries entry hentry).1,
        Value.isSignalFree_hash.2 fun entry hentry => (hentries entry hentry).2⟩
  | .null, data | .function _, data | .builtin _, data | .error _, data | .returned _, data
  | .broke, data | .absent, data => by simp [Value.isData] at data

theorem items_built : ∀ items : List Value, itemsAreData items = true →
    ∀ v ∈ items, v.Built ∧ v.isSignalFree = true
  | [], _ => List.forall_mem_nil _
  | item :: rest, data => by
      rw [itemsAreData, Bool.and_eq_true] at data
      exact List.forall_mem_cons.2 ⟨item.built_of_isData data.1, items_built rest data.2⟩

theorem entries_built : ∀ entries : List (Key × Value), entriesAreData entries = true →
    ∀ entry ∈ entries, entry.2.Built ∧ entry.2.isSignalFree = true
  | [], _ => List.forall_mem_nil _
  | (key, v) :: rest, data => by
      rw [entriesAreData, entryIsData, Bool.and_eq_true, Bool.and_eq_true] at data
      exact List.forall_mem_cons.2 ⟨v.built_of_isData data.1.2, entries_built rest data.2⟩

end

/-- Data is equal to itself. -/
theorem Value.equal_self (v : Value) (data : v.isData = true) : v.equal v = true := by
  rcases v.built_of_isData data with ⟨hbuilt, hfree⟩
  rw [hbuilt.equal_self_eq, hfree]

/-! ## Programs -/

/-- A text that is a literal is a program of one statement. -/
theorem IsLiteral.parse_eq {n : Nat} {src : String} {v : Value} (h : IsLiteral n src.toList v)
    (small : n ≤ maxNesting) :
    ∃ token e, parse src = (⟨[.expr token e]⟩, []) ∧ Yields n e v := by
  rcases h .start with ⟨e, ts, ⟨hspelled, r, hr⟩, hyields⟩
  rcases r.head_expr rfl with ⟨first, us, rfl, -⟩
  refine ⟨first, e, ?_, hyields⟩
  rw [parse, hspelled.tokenize_eq]
  exact parseTokens_of_expr r (Nat.le_trans hr small) rfl

/-- A program of one literal gives its value and changes nothing. -/
theorem Yields.run_eq {n : Nat} {e : Expr} {v : Value} (h : Yields n e v) (session : Session)
    (room : n + 2 ≤ session.levels) (token : Token) :
    session.run ⟨[.expr token e]⟩ = some (v, session) := by
  rcases session with ⟨machine, levels, store⟩
  -- The program is one level, and its statement is another.
  have htwo : 2 ≤ levels := Nat.le_trans (Nat.le_add_left 2 n) room
  obtain ⟨inner, rfl⟩ : ∃ k, levels = k + 2 := ⟨levels - 2, by omega⟩
  have heval : eval machine (inner + 1) (.stmt (.expr token e)) Store.global store =
      some (v, store) := h.eval_eq machine (Nat.le_of_add_le_add_right room) Store.global store
  have hsettle : v.settle = v := by
    have hquiet := h.quiet
    cases v with
    | error _ | returned _ | broke => cases hquiet
    | _ => rfl
  have hstmts : Eval.stmts (eval machine (inner + 1)) Store.global .null [.expr token e] store =
      some (v, store) := by
    rw [Eval.stmts, Run.bind_apply, heval]
    dsimp only
    rw [h.quiet]
    rfl
  rw [Session.run_of_stmts hstmts, hsettle]

/-- The text of data is a program of one statement, and its value is that data, which is equal to
itself. -/
theorem run_inspectNested {v : Value} (data : v.isData = true) (small : v.depth ≤ maxNesting) :
    ∃ token e, parse v.inspectNested = (⟨[.expr token e]⟩, []) ∧
      (∀ turns, let session : Session := ⟨⟨.standard, turns⟩, defaultMaxDepth, .initial⟩
        session.run ⟨[.expr token e]⟩ = some (v, session)) ∧ v.equal v = true := by
  rcases (v.isLiteral data).parse_eq small with ⟨token, e, hparse, hyields⟩
  have hroom : v.depth + 2 ≤ defaultMaxDepth :=
    Nat.le_trans (Nat.add_le_add_right small 2) (by decide)
  exact ⟨token, e, hparse, fun turns => hyields.run_eq _ hroom token, v.equal_self data⟩

/-- Quotes, a backslash and a line break inside a text, a negative key that is written twice, and
the least number that has a literal. -/
theorem run_inspectNested_nested :
    let v : Value := .hash (Entries.ofList [(.int (-3), .bool true),
      (.str "\"\\\n\u00e9", .array []),
      (.int (-3), .array [.str "a b", .bool false, .int (Int64.minValue + 1)])])
    v.isData = true ∧ v.depth = 4 ∧ ∃ token e, parse v.inspectNested = (⟨[.expr token e]⟩, []) ∧
      (∀ turns, let session : Session := ⟨⟨.standard, turns⟩, defaultMaxDepth, .initial⟩
        session.run ⟨[.expr token e]⟩ = some (v, session)) ∧ v.equal v = true := by
  intro v
  have hdata : v.isData = true := by decide +kernel
  have hdepth : v.depth = 4 := by decide +kernel
  exact ⟨hdata, hdepth, run_inspectNested hdata (by rw [hdepth]; decide)⟩

end Scriptlet
