import Mathlib.Algebra.Order.Field.Power
import Mathlib.Algebra.Order.Field.Rat
import Mathlib.Data.List.TakeWhile
import Mathlib.Tactic.FieldSimp
import Mathlib.Tactic.Linarith
import Mathlib.Tactic.NormNum
import Mathlib.Tactic.Positivity
import Mathlib.Tactic.Ring
import Scriptlet.Number

/-!
# Numbers are known by their texts

The text of a number, read as a decimal numeral, has a value (`Numeral.value`), and this is the
value of the decimal that was written (`Layout.value_write`). The decimal lies among the numbers
that round to the double (`Decimal.admits_shortest`), and no number rounds to two doubles
(`Span.Admits.unique`). So two finite numbers with the same text are the same
(`Number.eq_of_write_eq`).
-/

namespace Scriptlet

namespace Number

theorem ofDigits_append (digits more : List Char) :
    ofDigits (digits ++ more) = ofDigits digits * 10 ^ more.length + ofDigits more := by
  have startingAt (start : Nat) (more : List Char) :
      Nat.ofDigitChars 10 more start = start * 10 ^ more.length + Nat.ofDigitChars 10 more 0 := by
    induction more generalizing start with
    | nil => simp
    | cons digit more ih =>
        rw [Nat.ofDigitChars_cons, Nat.ofDigitChars_cons, ih, ih (10 * 0 + _), List.length_cons,
          Nat.pow_succ]
        ring
  change Nat.ofDigitChars 10 (digits ++ more) 0 = _
  rw [Nat.ofDigitChars_append, startingAt]
  rfl

theorem ofDigits_zeros (count : Nat) : ofDigits (List.replicate count '0') = 0 :=
  Nat.ofDigitChars_replicate_zero.trans (Nat.mul_zero _)

theorem ofDigits_toDigits (number : Nat) : ofDigits (Nat.toDigits 10 number) = number :=
  Nat.ofDigitChars_toDigits (by decide) (by decide)

end Number

open Number

/-- That a text is made of decimal digits. -/
def OfDigits (text : List Char) : Prop :=
  ∀ character ∈ text, character.isDigit = true

namespace Numeral

/-- The value of digits with a point among them. -/
def mantissa (text : List Char) : ℚ :=
  let whole := text.takeWhile (· ≠ '.')
  let fraction := (text.dropWhile (· ≠ '.')).drop 1
  ofDigits (whole ++ fraction) / 10 ^ fraction.length

/-- The power of ten that the end of a numeral gives. -/
def exponent : List Char → ℤ
  | _ :: sign :: digits => if sign = '-' then -ofDigits digits else ofDigits digits
  | _ => 0

/-- The value of a numeral. -/
def value (text : List Char) : ℚ :=
  mantissa (text.takeWhile (· ≠ 'e')) * 10 ^ exponent (text.dropWhile (· ≠ 'e'))

end Numeral

/-- The value of a decimal. -/
def Decimal.value (decimal : Decimal) : ℚ :=
  decimal.digits * 10 ^ decimal.exponent

namespace Numeral

variable {digits decimals point : List Char}

theorem ne_of_isDigit {character other : Char} (isDigit : character.isDigit = true)
    (noDigit : other.isDigit = false) : character ≠ other := by
  rintro rfl
  simp [noDigit] at isDigit

theorem mantissa_whole (areDigits : OfDigits digits) : mantissa digits = ofDigits digits := by
  have all : ∀ character ∈ digits, decide (character ≠ '.') = true := fun character member =>
    decide_eq_true (ne_of_isDigit (areDigits character member) (by decide))
  have taken : digits.takeWhile (· ≠ '.') = digits := List.takeWhile_eq_self_iff.2 all
  have dropped : digits.dropWhile (· ≠ '.') = [] := List.dropWhile_eq_nil_iff.2 all
  simp only [mantissa, taken, dropped]
  simp

theorem mantissa_point (areDigits : OfDigits digits) (decimals : List Char) :
    mantissa (digits ++ '.' :: decimals) =
      ofDigits (digits ++ decimals) / 10 ^ decimals.length := by
  have all : ∀ character ∈ digits, decide (character ≠ '.') = true := fun character member =>
    decide_eq_true (ne_of_isDigit (areDigits character member) (by decide))
  have taken : (digits ++ '.' :: decimals).takeWhile (· ≠ '.') = digits := by
    rw [List.takeWhile_append_of_pos all]
    simp
  have dropped : (digits ++ '.' :: decimals).dropWhile (· ≠ '.') = '.' :: decimals := by
    rw [List.dropWhile_append_of_pos all]
    simp
  simp only [mantissa, taken, dropped, List.drop_succ_cons, List.drop_zero]

theorem value_plain (noPower : 'e' ∉ point) : value point = mantissa point := by
  have all : ∀ character ∈ point, decide (character ≠ 'e') = true := fun character member =>
    decide_eq_true fun isPower => noPower (isPower ▸ member)
  have taken : point.takeWhile (· ≠ 'e') = point := List.takeWhile_eq_self_iff.2 all
  have dropped : point.dropWhile (· ≠ 'e') = [] := List.dropWhile_eq_nil_iff.2 all
  rw [value, taken, dropped]
  simp [exponent]

theorem value_power (noPower : 'e' ∉ point) (ending : List Char) :
    value (point ++ 'e' :: ending) = mantissa point * 10 ^ exponent ('e' :: ending) := by
  have all : ∀ character ∈ point, decide (character ≠ 'e') = true := fun character member =>
    decide_eq_true fun isPower => noPower (isPower ▸ member)
  have taken : (point ++ 'e' :: ending).takeWhile (· ≠ 'e') = point := by
    rw [List.takeWhile_append_of_pos all]
    simp
  have dropped : (point ++ 'e' :: ending).dropWhile (· ≠ 'e') = 'e' :: ending := by
    rw [List.dropWhile_append_of_pos all]
    simp
  rw [value, taken, dropped]

end Numeral

namespace Layout

/-- Digits are the significant ones and zeros. -/
theorem exists_significant (digits : List Char) :
    ∃ count, digits = significant digits ++ List.replicate count '0' := by
  cases digits with
  | nil => exact ⟨0, rfl⟩
  | cons first rest =>
      have zeros : rest.reverse.takeWhile (· == '0') =
          List.replicate (rest.reverse.takeWhile (· == '0')).length '0' := by
        refine List.eq_replicate_iff.2 ⟨rfl, fun character member => ?_⟩
        simpa using List.mem_takeWhile_imp member
      refine ⟨(rest.reverse.takeWhile (· == '0')).length, ?_⟩
      rw [significant, List.cons_append, ← List.reverse_replicate, ← zeros, ← List.reverse_append,
        List.takeWhile_append_dropWhile, List.reverse_reverse]

theorem ofDigits_significant {digits : List Char} (areDigits : OfDigits digits) :
    OfDigits (significant digits) := by
  rcases exists_significant digits with ⟨count, parts⟩
  intro character member
  exact areDigits character (parts ▸ List.mem_append_left _ member)

theorem significant_ne_nil {digits : List Char} (notEmpty : digits ≠ []) :
    significant digits ≠ [] := by
  cases digits with
  | nil => contradiction
  | cons first rest => simp [significant]

variable (layout : Layout) {digits : List Char} {leading : Int}

/-- Digits of which the first has a given exponent, as a number. -/
def scaled (digits : List Char) (leading : Int) : ℚ :=
  ofDigits digits * 10 ^ (leading + 1 - digits.length)

theorem value_eq_scaled (decimal : Decimal) :
    decimal.value =
      scaled (significant (Nat.toDigits 10 decimal.digits))
        (decimal.exponent + (Nat.toDigits 10 decimal.digits).length - 1) := by
  rcases exists_significant (Nat.toDigits 10 decimal.digits) with ⟨count, parts⟩
  have length := congrArg List.length parts
  have number := congrArg ofDigits parts
  rw [ofDigits_toDigits, ofDigits_append, ofDigits_zeros, Nat.add_zero, List.length_replicate]
    at number
  rw [List.length_append, List.length_replicate] at length
  generalize significant (Nat.toDigits 10 decimal.digits) = digits at *
  have power : decimal.exponent + (Nat.toDigits 10 decimal.digits).length - 1 + 1 - digits.length =
      count + decimal.exponent := by
    omega
  rw [Decimal.value, scaled, power, zpow_add₀ (by norm_num), zpow_natCast, number]
  push_cast
  ring

theorem ofDigits_leading_zeros (count : Nat) (digits : List Char) :
    ofDigits (List.replicate count '0' ++ digits) = ofDigits digits := by
  rw [ofDigits_append, ofDigits_zeros, Nat.zero_mul, Nat.zero_add]

/-- Digits behind a zero and a point. -/
theorem value_fraction (areDigits : OfDigits digits) (isFraction : leading < 0) :
    Numeral.value ('0' :: '.' :: List.replicate (-leading - 1).toNat '0' ++ digits) =
      scaled digits leading := by
  have noPower : 'e' ∉ digits := fun member => absurd (areDigits _ member) (by decide)
  have parts : '0' :: '.' :: List.replicate (-leading - 1).toNat '0' ++ digits =
      ['0'] ++ '.' :: (List.replicate (-leading - 1).toNat '0' ++ digits) := rfl
  have isZero : OfDigits ['0'] := by simp [OfDigits]
  have power : leading + 1 - digits.length =
      -(((-leading - 1).toNat + digits.length : Nat) : Int) := by
    omega
  rw [Numeral.value_plain (by simp [noPower]), parts, Numeral.mantissa_point isZero,
    ← List.append_assoc, ← List.replicate_one, ← List.replicate_add, ofDigits_leading_zeros,
    scaled, power, zpow_neg, zpow_natCast, div_eq_mul_inv, List.length_append,
    List.length_replicate]

/-- Digits that are all before the point, with zeros behind them. -/
theorem ofDigits_whole (notNegative : ¬leading < 0) (isWhole : digits.length ≤ leading.toNat + 1) :
    (ofDigits (digits ++ List.replicate (leading.toNat + 1 - digits.length) '0') : ℚ) =
      scaled digits leading := by
  have power : leading + 1 - digits.length =
      ((leading.toNat + 1 - digits.length : Nat) : Int) := by
    omega
  rw [ofDigits_append, ofDigits_zeros, List.length_replicate, scaled, power, zpow_natCast]
  push_cast
  ring

theorem value_positional (areDigits : OfDigits digits) :
    Numeral.value (layout.positional digits leading) = scaled digits leading := by
  have noPower : 'e' ∉ digits := fun member => absurd (areDigits _ member) (by decide)
  unfold positional
  split
  · rename_i isFraction
    exact value_fraction areDigits isFraction
  · rename_i notNegative
    by_cases isShort : digits.length ≤ leading.toNat + 1
    · have areAll : OfDigits
          (digits ++ List.replicate (leading.toNat + 1 - digits.length) '0') := by
        intro character member
        rcases List.mem_append.1 member with isDigit | isZero
        · exact areDigits character isDigit
        · rw [List.eq_of_mem_replicate isZero]
          decide
      simp only [List.drop_eq_nil_of_le isShort, List.take_of_length_le isShort,
        List.isEmpty_nil, if_true]
      split
      · rw [Numeral.value_plain (by simp [noPower]), Numeral.mantissa_point areAll, ofDigits_append,
          ← ofDigits_whole notNegative isShort]
        simp [ofDigits]
      · rw [Numeral.value_plain (by simp [noPower]), Numeral.mantissa_whole areAll,
          ofDigits_whole notNegative isShort]
    · have power : leading + 1 - digits.length =
          -((digits.length - (leading.toNat + 1) : Nat) : Int) := by
        omega
      have noZeros : leading.toNat + 1 - digits.length = 0 := by omega
      have areTaken : OfDigits (digits.take (leading.toNat + 1)) :=
        fun character member => areDigits character (List.mem_of_mem_take member)
      have notAll : (digits.drop (leading.toNat + 1)).isEmpty = false := by
        simp only [List.isEmpty_eq_false_iff, ne_eq, List.drop_eq_nil_iff]
        exact isShort
      have stillNoPower : 'e' ∉ digits.take (leading.toNat + 1) ++
          '.' :: digits.drop (leading.toNat + 1) := by
        simp only [List.mem_append, List.mem_cons, not_or]
        exact ⟨fun member => noPower (List.mem_of_mem_take member), by decide,
          fun member => noPower (List.mem_of_mem_drop member)⟩
      simp only [notAll, noZeros, List.replicate_zero, List.append_nil, Bool.false_eq_true,
        if_false]
      rw [Numeral.value_plain stillNoPower, Numeral.mantissa_point areTaken, List.take_append_drop,
        List.length_drop, scaled, power, zpow_neg, zpow_natCast, div_eq_mul_inv]

theorem exponent_eq (leading : Int) (count : Nat) :
    Numeral.exponent ('e' :: (if leading < 0 then '-' else '+') ::
      (List.replicate count '0' ++ Nat.toDigits 10 leading.natAbs)) = leading := by
  rw [Numeral.exponent, ofDigits_leading_zeros, ofDigits_toDigits]
  by_cases isNegative : leading < 0
  · rw [if_pos isNegative, if_pos rfl]
    omega
  · rw [if_neg isNegative, if_neg (by decide)]
    omega

/-- The point behind the first digit divides by all powers of ten but one. -/
theorem mantissa_scientific {first : Char} {rest : List Char}
    (areDigits : OfDigits (first :: rest)) :
    Numeral.mantissa
        (if (first :: rest).length ≤ 1 then first :: rest
        else (first :: rest).take 1 ++ '.' :: (first :: rest).drop 1) =
      ofDigits (first :: rest) / 10 ^ rest.length := by
  cases rest with
  | nil => simp [Numeral.mantissa_whole areDigits]
  | cons second rest =>
      have isDigit : OfDigits [first] := by simpa [OfDigits] using areDigits first (by simp)
      rw [if_neg (by simp)]
      exact Numeral.mantissa_point isDigit (second :: rest)

theorem value_scientific (areDigits : OfDigits digits) (notEmpty : digits ≠ []) :
    Numeral.value (layout.scientific digits leading) = scaled digits leading := by
  rcases List.exists_cons_of_ne_nil notEmpty with ⟨first, rest, rfl⟩
  have noPower : 'e' ∉ first :: rest := fun member => absurd (areDigits _ member) (by decide)
  have stillNoPower : 'e' ∉ (if (first :: rest).length ≤ 1 then first :: rest
      else (first :: rest).take 1 ++ '.' :: (first :: rest).drop 1) := by
    split
    · exact noPower
    · simpa using noPower
  have power : leading + 1 - (first :: rest).length = -(rest.length : Int) + leading := by
    simp only [List.length_cons]
    omega
  rw [scientific, List.append_assoc]
  refine (Numeral.value_power stillNoPower _).trans ?_
  rw [mantissa_scientific areDigits, scaled, power, zpow_add₀ (by norm_num), zpow_neg,
    zpow_natCast, ← mul_assoc, div_eq_mul_inv]
  exact congrArg _ (congrArg _ (exponent_eq leading _))

/-- A decimal is written as a numeral of the same value. -/
theorem value_write (decimal : Decimal) :
    Numeral.value (layout.write decimal).toList = decimal.value := by
  have areDigits : OfDigits (Nat.toDigits 10 decimal.digits) :=
    fun character member => Nat.isDigit_of_mem_toDigits (by decide) (by decide) member
  have significantDigits := ofDigits_significant areDigits
  have notEmpty := significant_ne_nil (@Nat.toDigits_ne_nil decimal.digits 10)
  rw [value_eq_scaled, write, String.toList_ofList]
  split
  · exact value_positional layout significantDigits
  · exact value_scientific layout significantDigits notEmpty

end Layout

namespace Span

/-- That a number rounds to the double in the middle of a span. -/
def Admits (span : Span) (number : ℚ) : Prop :=
  if span.closed then
    span.low * 2 ^ span.power ≤ number ∧ number ≤ span.high * 2 ^ span.power
  else
    span.low * 2 ^ span.power < number ∧ number < span.high * 2 ^ span.power

theorem zpow_mul_toNat {base : ℚ} (nonzero : base ≠ 0) (power : Int) :
    base ^ power * base ^ (-power).toNat = base ^ power.toNat := by
  rw [← zpow_natCast, ← zpow_natCast, ← zpow_add₀ nonzero]
  congr 1
  omega

variable (span : Span) (scale : Int)

/-- The common unit of a span and of multiples of a power of ten. -/
def unit : ℚ :=
  2 ^ (-span.power).toNat * 10 ^ (-scale).toNat

theorem unit_pos : 0 < span.unit scale := by
  unfold unit
  positivity

theorem binaryUnit_eq : (span.binaryUnit scale : ℚ) = 2 ^ span.power * span.unit scale := by
  have power := zpow_mul_toNat (by norm_num : (2 : ℚ) ≠ 0) span.power
  simp only [binaryUnit, unit, Nat.pow_eq]
  push_cast
  rw [← power]
  ring

theorem decimalUnit_eq : (span.decimalUnit scale : ℚ) = 10 ^ scale * span.unit scale := by
  have power := zpow_mul_toNat (by norm_num : (10 : ℚ) ≠ 0) scale
  simp only [decimalUnit, unit, Nat.pow_eq]
  push_cast
  rw [← power]
  ring

variable {span}

/-- A decimal is found to lie in a span only if it does. -/
theorem admits_of_contains {decimal : Decimal} (contains : span.contains decimal = true) :
    span.Admits decimal.value := by
  have positive := span.unit_pos decimal.exponent
  have bounds (bound : Nat) : ((bound * span.binaryUnit decimal.exponent : Nat) : ℚ) =
      bound * 2 ^ span.power * span.unit decimal.exponent := by
    rw [Nat.cast_mul, binaryUnit_eq, mul_assoc]
  have value : ((decimal.digits * span.decimalUnit decimal.exponent : Nat) : ℚ) =
      decimal.value * span.unit decimal.exponent := by
    rw [Nat.cast_mul, decimalUnit_eq, Decimal.value, mul_assoc]
  unfold Span.contains at contains
  unfold Admits
  cases isClosed : span.closed with
  | true =>
      simp only [isClosed, if_true, decide_eq_true_eq] at contains
      rw [← Nat.cast_le (α := ℚ), ← Nat.cast_le (α := ℚ), bounds, bounds, value] at contains
      exact ⟨le_of_mul_le_mul_right contains.1 positive,
        le_of_mul_le_mul_right contains.2 positive⟩
  | false =>
      simp only [isClosed, if_false, Bool.false_eq_true, decide_eq_true_eq] at contains
      rw [← Nat.cast_lt (α := ℚ), ← Nat.cast_lt (α := ℚ), bounds, bounds, value] at contains
      exact ⟨lt_of_mul_lt_mul_right contains.1 positive.le,
        lt_of_mul_lt_mul_right contains.2 positive.le⟩

/-- The middle of a span, written out in full. -/
theorem value_exact (span : Span) : span.exact.value = span.centre * 2 ^ span.power := by
  unfold exact
  split
  · rename_i notNegative
    have power : span.power = (span.power.toNat : Int) := by omega
    rw [Decimal.value, zpow_zero, mul_one, Nat.cast_mul, Nat.pow_eq, Nat.cast_pow, Nat.cast_ofNat,
      ← zpow_natCast, ← power]
  · rename_i isNegative
    have power : span.power = -((-span.power).toNat : Int) := by omega
    rw [Decimal.value, Nat.cast_mul, Nat.pow_eq, Nat.cast_pow, Nat.cast_ofNat, mul_assoc]
    congr 1
    rw [power, Int.neg_neg, Int.toNat_natCast, zpow_neg, zpow_neg, zpow_natCast, zpow_natCast,
      show (10 : ℚ) = 2 * 5 by norm_num, mul_pow]
    field_simp

theorem nearest?_admits {decimal : Decimal} (isNearest : span.nearest? scale = some decimal) :
    span.Admits decimal.value := by
  apply admits_of_contains
  unfold nearest? at isNearest
  dsimp only at isNearest
  split at isNearest
  · contradiction
  · cases isNearest
    assumption
  · cases isNearest
    assumption
  · split at isNearest
    all_goals
      cases isNearest
      assumption

theorem admits_search (admits : span.Admits span.exact.value) (attempts : Nat) (scale : Int) :
    span.Admits (span.search attempts scale).value := by
  induction attempts generalizing scale with
  | zero => exact admits
  | succ attempts ih =>
      rw [search]
      split
      · rename_i isNearest
        exact nearest?_admits scale isNearest
      · exact ih (scale - 1)

end Span

/-- The mantissa and the exponent of a finite double. -/
structure Binary.Represented (mantissa : Nat) (exponent : Int) : Prop where
  fits : mantissa < 2 * hiddenBit
  notTooSmall : leastExponent ≤ exponent
  normal : leastExponent < exponent → hiddenBit ≤ mantissa

namespace Span

open Binary

variable {mantissa other : Nat} {exponent power : Int} {number : ℚ}

theorem le_low (mantissa : Nat) (exponent : Int) :
    4 * mantissa - 2 ≤ (around mantissa exponent).low := by
  simp only [around]
  split <;> omega

theorem low_lt (positive : 0 < mantissa) (exponent : Int) :
    (around mantissa exponent).low < 4 * mantissa := by
  simp only [around]
  split <;> omega

/-- Below the least double of an exponent the span reaches only half as far. -/
theorem le_low_of_normal (isNormal : hiddenBit ≤ mantissa) (notLeast : leastExponent < exponent) :
    4 * hiddenBit - 1 ≤ (around mantissa exponent).low := by
  simp only [around]
  split <;> omega

theorem Admits.le (admits : (around mantissa exponent).Admits number) :
    (around mantissa exponent).low * 2 ^ (exponent - 2) ≤ number ∧
      number ≤ ((4 * mantissa + 2 : Nat) : ℚ) * 2 ^ (exponent - 2) := by
  unfold Admits at admits
  split at admits
  · exact admits
  · exact ⟨admits.1.le, admits.2.le⟩

theorem Admits.lt (admits : (around mantissa exponent).Admits number) (isOdd : mantissa % 2 = 1) :
    (around mantissa exponent).low * 2 ^ (exponent - 2) < number ∧
      number < ((4 * mantissa + 2 : Nat) : ℚ) * 2 ^ (exponent - 2) := by
  unfold Admits at admits
  rwa [if_neg (by simp [around, isOdd])] at admits

theorem admits_exact (positive : 0 < mantissa) (exponent : Int) :
    (around mantissa exponent).Admits (around mantissa exponent).exact.value := by
  have unit : (0 : ℚ) < 2 ^ (exponent - 2) := by positivity
  have lower : ((around mantissa exponent).low : ℚ) * 2 ^ (exponent - 2) <
      ((4 * mantissa : Nat) : ℚ) * 2 ^ (exponent - 2) :=
    mul_lt_mul_of_pos_right (Nat.cast_lt.2 (low_lt positive exponent)) unit
  have upper : ((4 * mantissa : Nat) : ℚ) * 2 ^ (exponent - 2) <
      ((4 * mantissa + 2 : Nat) : ℚ) * 2 ^ (exponent - 2) :=
    mul_lt_mul_of_pos_right (Nat.cast_lt.2 (by omega)) unit
  rw [value_exact]
  unfold Admits
  split
  · exact ⟨lower.le, upper.le⟩
  · exact ⟨lower, upper⟩

/-- A number that rounds to a positive double is positive. -/
theorem Admits.pos (positive : 0 < mantissa) (admits : (around mantissa exponent).Admits number) :
    0 < number := by
  have unit : (0 : ℚ) < 2 ^ (exponent - 2) := by positivity
  have isLow : 0 < (around mantissa exponent).low := by
    have := le_low mantissa exponent
    omega
  exact (mul_pos (Nat.cast_pos.2 isLow) unit).trans_le admits.le.1

/-- No number rounds to two doubles of the same exponent: half way, it rounds to the even one. -/
theorem Admits.not_lt (admits : (around mantissa exponent).Admits number)
    (otherAdmits : (around other exponent).Admits number) : ¬mantissa < other := by
  intro isLess
  have unit : (0 : ℚ) < 2 ^ (exponent - 2) := by positivity
  have isLow := le_low other exponent
  have meets : (around other exponent).low ≤ 4 * mantissa + 2 :=
    Nat.cast_le.1 (le_of_mul_le_mul_right (otherAdmits.le.1.trans admits.le.2) unit)
  rcases Nat.mod_two_eq_zero_or_one mantissa with isEven | isOdd
  · have isOdd : other % 2 = 1 := by omega
    have meets : (around other exponent).low < 4 * mantissa + 2 := Nat.cast_lt.1
      (lt_of_mul_lt_mul_right ((otherAdmits.lt isOdd).1.trans_le admits.le.2) unit.le)
    omega
  · have meets : (around other exponent).low < 4 * mantissa + 2 := Nat.cast_lt.1
      (lt_of_mul_lt_mul_right (otherAdmits.le.1.trans_lt (admits.lt isOdd).2) unit.le)
    omega

/-- No number rounds to two doubles of different exponents. -/
theorem Admits.not_lt_exponent (represented : Represented mantissa exponent)
    (otherRepresented : Represented other power)
    (admits : (around mantissa exponent).Admits number)
    (otherAdmits : (around other power).Admits number) : ¬exponent < power := by
  intro isLess
  have notLeast : leastExponent < power := represented.notTooSmall.trans_lt isLess
  have isLow := le_low_of_normal (otherRepresented.normal notLeast) notLeast
  have fits := represented.fits
  have unit : (0 : ℚ) < 2 ^ (exponent - 2) := by positivity
  -- The unit of the greater exponent is at least twice as large.
  have units : 2 * (2 : ℚ) ^ (exponent - 2) ≤ 2 ^ (power - 2) := by
    rw [← zpow_one_add₀ (by norm_num)]
    exact zpow_le_zpow_right₀ (by norm_num) (by omega)
  have lower : ((2 * (around other power).low : Nat) : ℚ) * 2 ^ (exponent - 2) ≤ number := by
    refine le_trans ?_ otherAdmits.le.1
    have scaled := mul_le_mul_of_nonneg_left units
      (Nat.cast_nonneg (α := ℚ) (around other power).low)
    push_cast
    linarith
  have meets : 2 * (around other power).low ≤ 4 * mantissa + 2 :=
    Nat.cast_le.1 (le_of_mul_le_mul_right (lower.trans admits.le.2) unit)
  rcases Nat.mod_two_eq_zero_or_one mantissa with isEven | isOdd
  · omega
  · have meets : 2 * (around other power).low < 4 * mantissa + 2 := Nat.cast_lt.1
      (lt_of_mul_lt_mul_right (lower.trans_lt (admits.lt isOdd).2) unit.le)
    omega

/-- A number rounds to one double only. -/
theorem Admits.unique (represented : Represented mantissa exponent)
    (otherRepresented : Represented other power)
    (admits : (around mantissa exponent).Admits number)
    (otherAdmits : (around other power).Admits number) : mantissa = other ∧ exponent = power := by
  obtain rfl : exponent = power := by
    have := admits.not_lt_exponent represented otherRepresented otherAdmits
    have := otherAdmits.not_lt_exponent otherRepresented represented admits
    omega
  have := admits.not_lt otherAdmits
  have := otherAdmits.not_lt admits
  exact ⟨by omega, rfl⟩

end Span

/-- The shortest decimal of a positive double rounds to this double. -/
theorem Decimal.admits_shortest {mantissa : Nat} (positive : 0 < mantissa) (exponent : Int) :
    (Span.around mantissa exponent).Admits (shortest mantissa exponent).value :=
  Span.admits_search (Span.admits_exact positive exponent) _ _

namespace Binary

variable {number other : Float} {negative : Bool} {mantissa : Nat} {exponent : Int}

theorem represented_of_ofFloat (finite : ofFloat number = .finite negative mantissa exponent) :
    Represented mantissa exponent := by
  unfold ofFloat at finite
  dsimp only at finite
  split at finite
  · split at finite <;> contradiction
  · split at finite
    · cases finite
      exact ⟨by simp only [hiddenBit]; omega, Int.le_refl _, fun isLess => absurd isLess (by simp)⟩
    · cases finite
      exact ⟨by simp only [hiddenBit]; omega, by omega, fun _ => by omega⟩

/-- The bits of a finite double. -/
theorem toNat_toBits (finite : ofFloat number = .finite negative mantissa exponent) :
    number.toBits.toNat =
      (if negative then 0x8000000000000000 else 0) +
        (if mantissa < hiddenBit then mantissa
        else (exponent - leastExponent + 1).toNat * hiddenBit + (mantissa - hiddenBit)) := by
  have bounded : number.toBits.toNat < 2 ^ 64 := number.toBits.toNat_lt
  have isFraction : number.toBits.toNat % hiddenBit < hiddenBit := Nat.mod_lt _ (by decide)
  unfold ofFloat at finite
  dsimp only at finite
  split at finite
  · split at finite <;> contradiction
  · split at finite
    · cases finite
      rw [if_pos isFraction]
      simp only [hiddenBit, decide_eq_true_eq] at *
      split <;> omega
    · cases finite
      rw [if_neg (Nat.not_lt.2 (Nat.le_add_right ..))]
      simp only [hiddenBit, decide_eq_true_eq] at *
      split <;> omega

/-- A finite double is known by its sign, mantissa and exponent. -/
theorem ofFloat_injective (finite : ofFloat number = .finite negative mantissa exponent)
    (otherFinite : ofFloat other = .finite negative mantissa exponent) : number = other := by
  have same : number.toBits = other.toBits := by
    rw [← UInt64.toNat_inj, toNat_toBits finite, toNat_toBits otherFinite]
  rcases number with ⟨⟨bits, _⟩⟩
  rcases other with ⟨⟨otherBits, _⟩⟩
  obtain rfl : bits = otherBits := same
  rfl

end Binary

namespace Layout

/-- The characters behind the first of a numeral. -/
def isNumeralPart (character : Char) : Bool :=
  character.isDigit || character ∈ ['.', 'e', '+', '-']

/-- That a text begins with a digit and goes on like a numeral. -/
def IsNumeral (text : List Char) : Prop :=
  ∃ first rest, text = first :: rest ∧ first.isDigit = true ∧
    ∀ character ∈ rest, isNumeralPart character = true

theorem isNumeralPart_of_digits {digits : List Char} (areDigits : OfDigits digits) :
    ∀ character ∈ digits, isNumeralPart character = true := by
  intro character member
  simp [isNumeralPart, areDigits character member]

theorem isNumeralPart_zeros (count : Nat) :
    ∀ character ∈ List.replicate count '0', isNumeralPart character = true := by
  intro character member
  rw [List.eq_of_mem_replicate member]
  decide

theorem isNumeralPart_cons {first : Char} {rest : List Char} (isPart : isNumeralPart first = true)
    (areParts : ∀ character ∈ rest, isNumeralPart character = true) :
    ∀ character ∈ first :: rest, isNumeralPart character = true :=
  List.forall_mem_cons.2 ⟨isPart, areParts⟩

theorem isNumeral_of_digits {digits : List Char} (areDigits : OfDigits digits)
    (notEmpty : digits ≠ []) : IsNumeral digits := by
  rcases List.exists_cons_of_ne_nil notEmpty with ⟨first, rest, rfl⟩
  exact ⟨first, rest, rfl, areDigits first (by simp), fun character member =>
    isNumeralPart_of_digits areDigits character (List.mem_cons_of_mem _ member)⟩

theorem IsNumeral.append {text more : List Char} (isNumeral : IsNumeral text)
    (goesOn : ∀ character ∈ more, isNumeralPart character = true) : IsNumeral (text ++ more) := by
  rcases isNumeral with ⟨first, rest, rfl, isDigit, areParts⟩
  refine ⟨first, rest ++ more, rfl, isDigit, fun character member => ?_⟩
  exact (List.mem_append.1 member).elim (areParts character) (goesOn character)

section Digits

variable (layout : Layout) {digits : List Char} (leading : Int) (areDigits : OfDigits digits)
  (notEmpty : digits ≠ [])

include areDigits notEmpty

theorem isNumeral_take (count : Nat) : IsNumeral (digits.take (count + 1)) := by
  refine isNumeral_of_digits ?_ (by simpa using notEmpty)
  exact fun character member => areDigits character (List.mem_of_mem_take member)

theorem isNumeral_positional : IsNumeral (layout.positional digits leading) := by
  have areParts := isNumeralPart_of_digits areDigits
  have isWhole (count : Nat) : IsNumeral
      (digits.take (leading.toNat + 1) ++ List.replicate count '0') :=
    (isNumeral_take areDigits notEmpty _).append (isNumeralPart_zeros count)
  unfold positional
  dsimp only
  split
  · have isZero : IsNumeral ['0', '.'] :=
      ⟨'0', ['.'], rfl, by decide, List.all_eq_true.1 (by decide)⟩
    exact (isZero.append (isNumeralPart_zeros _)).append areParts
  · split
    · split
      · exact (isWhole _).append (List.all_eq_true.1 (by decide))
      · exact isWhole _
    · exact (isWhole _).append (isNumeralPart_cons (by decide) fun character member =>
        areParts character (List.mem_of_mem_drop member))

theorem isNumeral_scientific : IsNumeral (layout.scientific digits leading) := by
  have areParts := isNumeralPart_of_digits areDigits
  have isPoint : IsNumeral
      (if digits.length ≤ 1 then digits else digits.take 1 ++ '.' :: digits.drop 1) := by
    split
    · exact isNumeral_of_digits areDigits notEmpty
    · exact (isNumeral_take areDigits notEmpty 0).append (isNumeralPart_cons (by decide)
        fun character member => areParts character (List.mem_of_mem_drop member))
  have isSign : isNumeralPart (if leading < 0 then '-' else '+') = true := by split <;> decide
  rw [scientific]
  refine (isPoint.append ?_).append (isNumeralPart_of_digits fun character member => ?_)
  · exact isNumeralPart_cons (by decide) (isNumeralPart_cons isSign (isNumeralPart_zeros _))
  · exact Nat.isDigit_of_mem_toDigits (by decide) (by decide) member

end Digits

theorem isNumeral_write (layout : Layout) (decimal : Decimal) :
    IsNumeral (layout.write decimal).toList := by
  have areDigits : OfDigits (Nat.toDigits 10 decimal.digits) :=
    fun character member => Nat.isDigit_of_mem_toDigits (by decide) (by decide) member
  have significantDigits := ofDigits_significant areDigits
  have notEmpty := significant_ne_nil (@Nat.toDigits_ne_nil decimal.digits 10)
  rw [write, String.toList_ofList]
  split
  · exact isNumeral_positional layout _ significantDigits notEmpty
  · exact isNumeral_scientific layout _ significantDigits notEmpty

end Layout

namespace Number

open Binary

/-- Whether a double is neither infinite nor no number at all. -/
def isFinite (number : Float) : Bool :=
  match ofFloat number with
  | .finite .. => true
  | _ => false

theorem exists_of_isFinite {number : Float} (finite : isFinite number = true) :
    ∃ negative mantissa exponent, ofFloat number = .finite negative mantissa exponent := by
  unfold isFinite at finite
  split at finite
  · rename_i isNumber
    exact ⟨_, _, _, isNumber⟩
  · contradiction

/-- The decimal that is written for a finite double, apart from its sign. -/
def magnitude (mantissa : Nat) (exponent : Int) : Decimal :=
  if mantissa = 0 then ⟨0, 0⟩ else .shortest mantissa exponent

section

variable {number other : Float} {negative : Bool} {mantissa : Nat} {exponent : Int}

theorem toList_write (layout : Layout)
    (finite : ofFloat number = .finite negative mantissa exponent) :
    (write layout number).toList =
      (if negative then ['-'] else []) ++ (layout.write (magnitude mantissa exponent)).toList := by
  unfold write
  rw [finite]
  cases negative with
  | true => exact String.toList_append
  | false => rfl

/-- The text of a finite number begins with a digit, or with a minus sign and a digit. -/
theorem exists_numeral (layout : Layout) (finite : isFinite number = true) :
    ∃ sign numeral, (write layout number).toList = sign ++ numeral ∧ sign ∈ [[], ['-']] ∧
      Layout.IsNumeral numeral := by
  rcases exists_of_isFinite finite with ⟨negative, mantissa, exponent, isNumber⟩
  refine ⟨_, _, toList_write layout isNumber, ?_, layout.isNumeral_write _⟩
  cases negative <;> simp

/-- Doubles of the same magnitude have the same mantissa and exponent. -/
theorem magnitude_injective {mantissa' : Nat} {exponent' : Int}
    (represented : Represented mantissa exponent) (represented' : Represented mantissa' exponent')
    (same : (magnitude mantissa exponent).value = (magnitude mantissa' exponent').value) :
    mantissa = mantissa' ∧ exponent = exponent' := by
  have zero : (⟨0, 0⟩ : Decimal).value = 0 := by simp [Decimal.value]
  have least {exponent : Int} (represented : Represented 0 exponent) :
      exponent = leastExponent := by
    have notNormal : ¬leastExponent < exponent :=
      fun isLess => absurd (represented.normal isLess) (by decide)
    have := represented.notTooSmall
    omega
  unfold magnitude at same
  rcases Nat.eq_zero_or_pos mantissa with rfl | positive
  · rcases Nat.eq_zero_or_pos mantissa' with rfl | positive'
    · exact ⟨rfl, (least represented).trans (least represented').symm⟩
    · have isPositive := (Decimal.admits_shortest positive' exponent').pos positive'
      rw [if_pos rfl, if_neg positive'.ne', zero] at same
      exact absurd same isPositive.ne
  · have admits := Decimal.admits_shortest positive exponent
    rcases Nat.eq_zero_or_pos mantissa' with rfl | positive'
    · rw [if_pos rfl, if_neg positive.ne', zero] at same
      exact absurd same.symm (admits.pos positive).ne
    · rw [if_neg positive.ne', if_neg positive'.ne'] at same
      rw [same] at admits
      exact admits.unique represented represented' (Decimal.admits_shortest positive' exponent')

/-- Finite numbers with the same text are the same. -/
theorem eq_of_write_eq {layout : Layout} (finite : isFinite number = true)
    (otherFinite : isFinite other = true) (same : write layout number = write layout other) :
    number = other := by
  rcases exists_of_isFinite finite with ⟨negative, mantissa, exponent, isNumber⟩
  rcases exists_of_isFinite otherFinite with ⟨negative', mantissa', exponent', isOther⟩
  have texts := congrArg String.toList same
  rw [toList_write layout isNumber, toList_write layout isOther] at texts
  have noSign (decimal : Decimal) : (layout.write decimal).toList.head? ≠ some '-' := by
    rcases layout.isNumeral_write decimal with ⟨first, rest, parts, isDigit, _⟩
    rw [parts]
    simpa using Numeral.ne_of_isDigit isDigit (by decide)
  obtain ⟨rfl, digits⟩ : negative = negative' ∧
      (layout.write (magnitude mantissa exponent)).toList =
        (layout.write (magnitude mantissa' exponent')).toList := by
    cases negative <;> cases negative' <;>
      simp only [if_true, if_false, Bool.false_eq_true, List.nil_append] at texts
    · exact ⟨rfl, texts⟩
    · exact absurd (congrArg List.head? texts) (noSign _)
    · exact absurd (congrArg List.head? texts).symm (noSign _)
    · exact ⟨rfl, List.append_cancel_left texts⟩
  have values := congrArg Numeral.value digits
  rw [Layout.value_write, Layout.value_write] at values
  obtain ⟨rfl, rfl⟩ := magnitude_injective (represented_of_ofFloat isNumber)
    (represented_of_ofFloat isOther) values
  exact ofFloat_injective isNumber isOther

end

end Number

end Scriptlet
