import Scriptlet.Proofs.Eval.Simulation

/-!
# Arithmetic

Integers have 64 bits, and every operator wraps around on its own. For sums, differences, products
and signs it makes no difference when that is done: wrapping at every node comes to the same as
computing with integers of any size and wrapping at the end. Division is different, as it does not
go with wrapping; but its operands have 64 bits, and what it leaves over is that of the exact
division. Only the smallest integer divided by minus one has a quotient that wraps.

- `Arithmetic` : expressions of integers, with their exact value and the levels that they take
- `Arithmetic.eval_eq` : such an expression is evaluated to its value, wrapped once
- `toInt_sub_div_mul` : what division leaves over
- `arithmetic_wraps` : both, for expressions of the language
-/

namespace Scriptlet

/-- Expressions that are built from integers with sums, differences, products and signs, their exact
values and the number of levels that they take. -/
inductive Arithmetic : Expr → Int → Nat → Prop
  | literal (token : Token) (n : Int64) : Arithmetic (.int token n) n.toInt 1
  | negative {e : Expr} {z : Int} {depth : Nat} (token : Token) (operand : Arithmetic e z depth) :
      Arithmetic (.unary token .neg e) (-z) (depth + 1)
  | positive {e : Expr} {z : Int} {depth : Nat} (token : Token) (operand : Arithmetic e z depth) :
      Arithmetic (.unary token .pos e) z (depth + 1)
  | sum {l r : Expr} {x y : Int} {m n : Nat} (token : Token) (left : Arithmetic l x m)
      (right : Arithmetic r y n) : Arithmetic (.binary token .add l r) (x + y) (max m n + 1)
  | difference {l r : Expr} {x y : Int} {m n : Nat} (token : Token) (left : Arithmetic l x m)
      (right : Arithmetic r y n) : Arithmetic (.binary token .sub l r) (x - y) (max m n + 1)
  | product {l r : Expr} {x y : Int} {m n : Nat} (token : Token) (left : Arithmetic l x m)
      (right : Arithmetic r y n) : Arithmetic (.binary token .mul l r) (x * y) (max m n + 1)

/-- The value of an expression that takes `depth` levels, with a number of levels: the integer
wrapped, or the error if there are too few of them. -/
def wrapped (z : Int) (depth levels : Nat) : Value :=
  if depth ≤ levels then .int (.ofInt z) else .error .recursionLimit

/-! ## Steps -/

/-- What follows a run whose outcome is known. -/
theorem Run.andThen_apply {run : Run Value} {store store₁ : Store} {v : Value}
    (h : run store = some (v, store₁)) (next : Value → Run Value) :
    run.andThen next store = if v.isSignal then some (v, store₁) else next v store₁ := by
  rw [andThen, bind_apply, h]
  dsimp only
  split <;> rfl

section Nodes

variable {machine : Machine} {scope : Nat} {store : Store}

/-- An operator in front of an expression of `depth` levels. -/
theorem eval_unary_wrapped {e : Expr} {x z : Int} {depth : Nat} {op : UnaryOp} (token : Token)
    (operand : ∀ levels, eval machine levels (.expr e) scope store =
      some (wrapped x depth levels, store))
    (value : evalUnary op (.int (.ofInt x)) = .int (.ofInt z)) (levels : Nat) :
    eval machine levels (.expr (.unary token op e)) scope store =
      some (wrapped z (depth + 1) levels, store) := by
  cases levels with
  | zero => rfl
  | succ levels =>
      have hstep : eval machine (levels + 1) (.expr (.unary token op e)) scope store =
          (eval machine levels (.expr e) scope).andThen (fun v => return evalUnary op v) store := rfl
      rw [hstep, Run.andThen_apply (operand levels), wrapped, wrapped]
      by_cases hdepth : depth ≤ levels
      · rw [if_pos hdepth, if_pos (Nat.succ_le_succ hdepth), ← value]
        rfl
      · rw [if_neg hdepth, if_neg fun h => hdepth (Nat.le_of_succ_le_succ h)]
        rfl

/-- An operator between two such expressions. The one on the left is evaluated first, so an error of
it comes up first; but the error is the same. -/
theorem eval_binary_wrapped {l r : Expr} {x y z : Int} {m n : Nat} {op : BinaryOp} (token : Token)
    (left : ∀ levels, eval machine levels (.expr l) scope store =
      some (wrapped x m levels, store))
    (right : ∀ levels, eval machine levels (.expr r) scope store =
      some (wrapped y n levels, store))
    (value : evalBinary op (.int (.ofInt x)) (.int (.ofInt y)) = .int (.ofInt z)) (levels : Nat) :
    eval machine levels (.expr (.binary token op l r)) scope store =
      some (wrapped z (max m n + 1) levels, store) := by
  cases levels with
  | zero => rfl
  | succ levels =>
      have hstep : eval machine (levels + 1) (.expr (.binary token op l r)) scope store =
          (eval machine levels (.expr l) scope).andThen (fun v =>
            (eval machine levels (.expr r) scope).andThen fun w =>
              return evalBinary op v w) store := rfl
      rw [hstep, Run.andThen_apply (left levels), Run.andThen_apply (right levels), wrapped, wrapped,
        wrapped]
      by_cases hm : m ≤ levels
      · by_cases hn : n ≤ levels
        · rw [if_pos hm, if_pos hn, if_pos (Nat.succ_le_succ (Nat.max_le.2 ⟨hm, hn⟩)), ← value]
          rfl
        · have hmax : ¬ max m n + 1 ≤ levels + 1 := by omega
          rw [if_pos hm, if_neg hn, if_neg hmax]
          rfl
      · have hmax : ¬ max m n + 1 ≤ levels + 1 := by omega
        rw [if_neg hm, if_neg hmax]
        rfl

end Nodes

/-- Wrapping at every node comes to the same as wrapping once. -/
theorem Arithmetic.eval_eq {e : Expr} {z : Int} {depth : Nat} (h : Arithmetic e z depth)
    (machine : Machine) (levels scope : Nat) (store : Store) :
    eval machine levels (.expr e) scope store = some (wrapped z depth levels, store) := by
  induction h generalizing levels with
  | literal token n =>
      cases levels with
      | zero => rfl
      | succ levels =>
          rw [wrapped, if_pos (Nat.succ_le_succ (Nat.zero_le levels)), Int64.ofInt_toInt]
          rfl
  | @negative e z _ token _ ih =>
      have hvalue : evalUnary .neg (.int (.ofInt z)) = .int (.ofInt (-z)) :=
        congrArg Value.int (Int64.ofInt_neg z).symm
      exact eval_unary_wrapped token ih hvalue levels
  | positive token _ ih => exact eval_unary_wrapped token ih rfl levels
  | @sum l r x y _ _ token _ _ ihl ihr =>
      have hvalue : evalBinary .add (.int (.ofInt x)) (.int (.ofInt y)) = .int (.ofInt (x + y)) :=
        congrArg Value.int (Int64.ofInt_add x y).symm
      exact eval_binary_wrapped token ihl ihr hvalue levels
  | @difference l r x y _ _ token _ _ ihl ihr =>
      have hvalue : evalBinary .sub (.int (.ofInt x)) (.int (.ofInt y)) = .int (.ofInt (x - y)) :=
        congrArg Value.int (Int64.ofInt_sub x y).symm
      exact eval_binary_wrapped token ihl ihr hvalue levels
  | @product l r x y _ _ token _ _ ihl ihr =>
      have hvalue : evalBinary .mul (.int (.ofInt x)) (.int (.ofInt y)) = .int (.ofInt (x * y)) :=
        congrArg Value.int (Int64.ofInt_mul x y).symm
      exact eval_binary_wrapped token ihl ihr hvalue levels

/-! ## Division -/

/-- Division goes towards zero, and only then wraps. -/
theorem ofInt_tdiv_toInt (a b : Int64) : Int64.ofInt (a.toInt.tdiv b.toInt) = a / b := by
  apply Int64.toInt_inj.1
  rw [Int64.toInt_ofInt, Int64.toInt_div]

/-- A remainder is smaller than the divisor, signs apart. -/
theorem natAbs_tmod_lt {a : Int} {b : Int64} (nonzero : b ≠ 0) :
    (a.tmod b.toInt).natAbs < b.toInt.natAbs := by
  rw [Int.natAbs_tmod]
  apply Nat.mod_lt
  apply Int.natAbs_pos.2
  exact fun hzero => nonzero (Int64.toInt_inj.1 hzero)

/-- What division leaves over is what exact division leaves over, also where the quotient wraps. -/
theorem toInt_sub_div_mul {a b : Int64} (nonzero : b ≠ 0) :
    (a - a / b * b).toInt = a.toInt.tmod b.toInt := by
  have hwrapped : a - a / b * b = Int64.ofInt (a.toInt.tmod b.toInt) := by
    calc a - a / b * b
        = .ofInt a.toInt - .ofInt (a.toInt.tdiv b.toInt) * .ofInt b.toInt := by
          rw [Int64.ofInt_toInt, Int64.ofInt_toInt, ofInt_tdiv_toInt]
      _ = .ofInt (a.toInt - a.toInt.tdiv b.toInt * b.toInt) := by
          rw [Int64.ofInt_sub, Int64.ofInt_mul]
      _ = .ofInt (a.toInt.tmod b.toInt) := by rw [Int.tmod_def, Int.mul_comm]
  -- It is smaller than the divisor, so that there is nothing to wrap.
  have hsmall := natAbs_tmod_lt (a := a.toInt) nonzero
  have hmin := b.le_toInt
  have hmax := b.toInt_lt
  rw [hwrapped]
  exact Int64.toInt_ofInt_of_le (by omega) (by omega)

def Expr.onIntegers (token : Token) (op : BinaryOp) (a b : Int64) : Expr :=
  .binary token op (.int token a) (.int token b)

/-- An expression of integers, sums, differences, products and signs is evaluated to the integer of
64 bits that its exact value wraps to, if there are as many levels as it takes, and to an error with
fewer. The quotient of two integers, unless the second one is zero, is the exact one cut off towards
zero and wrapped. Taking the divisor away as often as the quotient says leaves zero or something of
the sign of the dividend, and in any case less than the divisor. -/
theorem arithmetic_wraps (machine : Machine) (scope : Nat) (store : Store) :
    (∀ (e : Expr) (z : Int) (depth levels : Nat), Arithmetic e z depth →
      (depth ≤ levels → ∃ n : Int64,
        eval machine levels (.expr e) scope store = some (.int n, store) ∧
          n.toInt = z.bmod Int64.size) ∧
      (levels < depth →
        eval machine levels (.expr e) scope store = some (.error .recursionLimit, store))) ∧
    ∀ (token : Token) (a b : Int64) (levels : Nat), b ≠ 0 → ∃ q r : Int64,
      eval machine (levels + 2) (.expr (.onIntegers token .div a b)) scope store =
        some (.int q, store) ∧
      q.toInt = (a.toInt.tdiv b.toInt).bmod Int64.size ∧
      eval machine (levels + 3)
        (.expr (.binary token .sub (.int token a) (.onIntegers token .mul q b))) scope store =
          some (.int r, store) ∧
      (r = 0 ∨ r.toInt.sign = a.toInt.sign) ∧ r.toInt.natAbs < b.toInt.natAbs := by
  refine ⟨?_, ?_⟩
  · intro e z depth levels harithmetic
    have heval := harithmetic.eval_eq machine levels scope store
    refine ⟨?_, ?_⟩
    · intro henough
      rw [wrapped, if_pos henough] at heval
      exact ⟨.ofInt z, heval, Int64.toInt_ofInt⟩
    · intro htoo
      rwa [wrapped, if_neg (Nat.not_le.2 htoo)] at heval
  · intro token a b levels nonzero
    have hquotient : eval machine (levels + 2) (.expr (.onIntegers token .div a b)) scope store =
        some (if b = 0 then .error .divisionByZero else .int (a / b), store) := rfl
    have hremainder := toInt_sub_div_mul (a := a) nonzero
    rw [if_neg nonzero] at hquotient
    refine ⟨a / b, a - a / b * b, hquotient, Int64.toInt_div a b, rfl, ?_, ?_⟩
    · have hsign := Int.sign_tmod a.toInt b.toInt
      rw [← hremainder] at hsign
      by_cases hdivides : b.toInt ∣ a.toInt
      · rw [if_pos hdivides, Int.sign_eq_zero_iff_zero] at hsign
        exact .inl (Int64.toInt_inj.1 hsign)
      · rw [if_neg hdivides] at hsign
        exact .inr hsign
    · rw [hremainder]
      exact natAbs_tmod_lt nonzero

/-- One more than the largest integer, taken three times with the other sign, with as many levels as
that takes and with one less; and the smallest integer divided by minus one. -/
theorem arithmetic_wraps_at_limits :
    let t : Token := ⟨.eof, "", .start⟩
    let machine : Machine := ⟨.standard, 3⟩
    let e : Expr := .binary t .mul (.onIntegers t .add Int64.maxValue 1) (.unary t .neg (.int t 3))
    let z : Int := (9223372036854775807 + 1) * -3
    Arithmetic e z 3 ∧
      (∃ n : Int64, eval machine 3 (.expr e) 0 .initial = some (.int n, .initial) ∧
        n.toInt = z.bmod Int64.size) ∧
      eval machine 2 (.expr e) 0 .initial = some (.error .recursionLimit, .initial) ∧
      ∃ q r : Int64,
        eval machine 2 (.expr (.onIntegers t .div Int64.minValue (-1))) 0 .initial =
          some (.int q, .initial) ∧
        q.toInt = (Int64.minValue.toInt.tdiv (-1)).bmod Int64.size ∧
        eval machine 3
          (.expr (.binary t .sub (.int t Int64.minValue) (.onIntegers t .mul q (-1)))) 0 .initial =
            some (.int r, .initial) ∧
        (r = 0 ∨ r.toInt.sign = Int64.minValue.toInt.sign) ∧ r.toInt.natAbs < 1 := by
  intro t machine e z
  have harithmetic : Arithmetic e z 3 :=
    .product t (.sum t (.literal t Int64.maxValue) (.literal t 1)) (.negative t (.literal t 3))
  have hwraps := arithmetic_wraps machine 0 .initial
  have htree := hwraps.1 e z 3
  exact ⟨harithmetic, (htree 3 harithmetic).1 (Nat.le_refl 3),
    (htree 2 harithmetic).2 (Nat.lt_succ_self 2), hwraps.2 t Int64.minValue (-1) 0 (by decide)⟩

end Scriptlet
