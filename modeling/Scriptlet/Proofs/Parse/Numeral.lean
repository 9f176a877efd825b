import Scriptlet.Parse.Expr
import Scriptlet.Proofs.Grammar

/-!
# Integer literals

The value of a literal is that of its digits in base ten, and a literal is refused exactly when its
value is out of range: leading zeros do not count, and twenty significant digits are always too
many.
-/

namespace Scriptlet
namespace Parse

/-- Leading zeros do not change a number. -/
theorem ofDigitChars_dropWhile_zero (cs : List Char) :
    Nat.ofDigitChars 10 (cs.dropWhile (· == '0')) 0 = Nat.ofDigitChars 10 cs 0 := by
  induction cs with
  | nil => rfl
  | cons c cs ih =>
      by_cases hc : c = '0'
      · subst hc
        simpa [Nat.ofDigitChars_cons] using ih
      · simp [hc]

/-- A row of digits without leading zeros is at least a power of ten. -/
theorem pow_le_ofDigitChars {c : Char} {cs : List Char} (digit : c.isDigit = true)
    (leading : c ≠ '0') : Nat.pow 10 cs.length ≤ Nat.ofDigitChars 10 (c :: cs) 0 := by
  have hpos : 1 ≤ c.toNat - '0'.toNat := by
    have hle : 48 ≤ c.toNat := by
      simp only [Char.isDigit, Bool.and_eq_true, decide_eq_true_eq] at digit
      exact digit.1
    have hne : c.toNat ≠ 48 := fun h => leading (Char.toNat_inj.1 h)
    have hzero : '0'.toNat = 48 := rfl
    omega
  -- The first digit alone counts for at least one at its place, whatever the others are.
  rw [Nat.ofDigitChars_cons, Nat.ofDigitChars_eq_ofDigitChars_zero]
  calc
    Nat.pow 10 cs.length = Nat.pow 10 cs.length * 1 := by rw [Nat.mul_one]
    _ ≤ Nat.pow 10 cs.length * (10 * 0 + (c.toNat - '0'.toNat)) :=
      Nat.mul_le_mul_left _ (by omega)
    _ ≤ _ := Nat.le_add_right _ _

/-- Behind the leading zeros there is no zero at first. -/
theorem head_dropWhile_zero {cs rest : List Char} {c : Char}
    (h : cs.dropWhile (· == '0') = c :: rest) : c ≠ '0' := by
  have hhead := List.head?_dropWhile_not (· == '0') cs
  simpa [h] using hhead

/-- A value in range has at most nineteen significant digits. -/
theorem length_dropWhile_zero_le {digits : String} (h : Digits digits)
    (small : Nat.ofDigitChars 10 digits.toList 0 ≤ maxLiteral) :
    (digits.toList.dropWhile (· == '0')).length ≤ 19 := by
  rcases hdrop : digits.toList.dropWhile (· == '0') with _ | ⟨c, rest⟩
  · simp
  · have hmem : c ∈ digits.toList := by
      have hsub := List.dropWhile_sublist (l := digits.toList) (· == '0')
      exact hsub.subset (by rw [hdrop]; exact List.mem_cons_self)
    have hpow : Nat.pow 10 rest.length ≤ Nat.ofDigitChars 10 digits.toList 0 := by
      rw [← ofDigitChars_dropWhile_zero, hdrop]
      exact pow_le_ofDigitChars (h.2 c hmem) (head_dropWhile_zero hdrop)
    by_cases hlong : rest.length ≤ 18
    · simp only [List.length_cons]
      omega
    · -- Twenty digits are a value of at least `10 ^ 19`, which is out of range.
      have h19 : Nat.pow 10 19 ≤ Nat.pow 10 rest.length :=
        Nat.pow_le_pow_right (by decide) (by omega)
      have hbig : maxLiteral < Nat.pow 10 19 := by decide
      omega

/-- A literal is read exactly when its digits have a value in range. -/
theorem integer?_eq_some_iff {digits : String} (h : Digits digits) (value : Int64) :
    integer? digits = some value ↔ Numeral digits value := by
  have hvalue := ofDigitChars_dropWhile_zero digits.toList
  unfold integer? Numeral
  simp only [hvalue]
  constructor
  · intro heq
    split at heq
    · split at heq
      · next hle =>
          obtain rfl : Int64.ofNat (Nat.ofDigitChars 10 digits.toList 0) = value := by
            simpa using heq
          refine ⟨h, Int64.toInt_ofNat_of_lt ?_⟩
          have hmax : maxLiteral < 2 ^ 63 := by decide
          omega
      · simp at heq
    · simp at heq
  · rintro ⟨-, hint⟩
    -- A value of an `Int64` is below the bound, so neither of the two checks refuses it.
    have hlt : Nat.ofDigitChars 10 digits.toList 0 < 2 ^ 63 := by
      have hbound := value.toInt_lt
      omega
    have hle : Nat.ofDigitChars 10 digits.toList 0 ≤ maxLiteral := by
      have hmax : maxLiteral = 2 ^ 63 - 1 := by decide
      omega
    have hlength := length_dropWhile_zero_le h hle
    rw [if_pos hlength, if_pos hle]
    refine congrArg some (Int64.toInt_inj.1 ?_)
    rw [Int64.toInt_ofNat_of_lt hlt, hint]

end Parse
end Scriptlet
