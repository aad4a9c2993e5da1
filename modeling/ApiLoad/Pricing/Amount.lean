import ApiLoad.Foundation.Fallible
import Mathlib.Data.Nat.Digits.Defs
import Mathlib.Tactic.Ring

/-!
# Amounts and multipliers

Amounts in billionths of a dollar and their exact arithmetic, rounded half up and checked against
64 bits; the price multipliers in millionths, with their decimal text. The text of a valid
multiplier is read back as the multiplier.
-/
namespace ApiLoad.Pricing
open List

def maxInt64 : Int := 2 ^ 63 - 1

def isInt64 (n : Int) : Bool := decide (-2 ^ 63 ≤ n) && decide (n ≤ maxInt64)

structure Multiplier where
  numerator : Int
  denominator : Int
  deriving DecidableEq, Repr

def tokensPerMillion : Int := 1000000

/-- The quotient of two non-negative numbers, rounded half up. -/
def roundedQuotient (numerator denominator : Int) : Int :=
  numerator / denominator + if denominator ≤ 2 * (numerator % denominator) then 1 else 0

def checkedQuotient (numerator denominator : Int) : Option Int :=
  let quotient := roundedQuotient numerator denominator
  if quotient < 0 ∨ isInt64 quotient = false then none else some quotient

def quoteComponent (tokens price : Int) (multiplier : Multiplier) : Option Int :=
  if tokens < 0 ∨ price < 0 ∨ multiplier.numerator ≤ 0 ∨ multiplier.denominator ≤ 0 then none
  else
    checkedQuotient (tokens * price * multiplier.numerator)
      (tokensPerMillion * multiplier.denominator)

def checkedAddNanoUSD (left right : Int) : Option Int :=
  if left < 0 ∨ right < 0 ∨ maxInt64 - right < left then none else some (left + right)

abbrev PriceMultiplier := Int

def defaultPriceMultiplier : PriceMultiplier := 1000000

def PriceMultiplier.valid (value : PriceMultiplier) : Bool :=
  decide (0 ≤ value) && decide (value ≤ 1000000000)

structure PriceMultipliers where
  group : PriceMultiplier
  accessKey : PriceMultiplier
  deriving DecidableEq, Repr

def PriceMultipliers.valid (multipliers : PriceMultipliers) : Bool :=
  PriceMultiplier.valid multipliers.group && PriceMultiplier.valid multipliers.accessKey

def PriceMultipliers.default : PriceMultipliers := ⟨defaultPriceMultiplier, defaultPriceMultiplier⟩

/-- The cost of one component with the price multipliers of a receipt of version 5. -/
def quoteComponentWithPriceMultipliers (tokens price : Int) (multiplier : Multiplier)
    (multipliers : PriceMultipliers) : Option Int :=
  if tokens < 0 ∨ price < 0 ∨ multiplier.numerator ≤ 0 ∨ multiplier.denominator ≤ 0 then none
  else if !multipliers.valid then none
  else
    checkedQuotient
      (tokens * price * multiplier.numerator * multipliers.group * multipliers.accessKey)
      (tokensPerMillion * multiplier.denominator * defaultPriceMultiplier * defaultPriceMultiplier)

def applyPriceMultipliers (amount : Int) (multipliers : PriceMultipliers) : Option Int :=
  if amount < 0 ∨ multipliers.valid = false then none
  else
    let quotient := roundedQuotient (amount * multipliers.group * multipliers.accessKey)
      (defaultPriceMultiplier * defaultPriceMultiplier)
    if isInt64 quotient then some quotient else none

section Text

def digitsValue (digits : List Char) : Nat := Nat.ofDigitChars 10 digits 0

def decimalError : String :=
  "price multiplier must be a non-negative decimal with at most six decimal places"

def rangeError : String := "price multiplier must be between 0 and 1000"

def parsePriceMultiplier (value : String) : Except String PriceMultiplier :=
  let integer := value.toList.takeWhile (· ≠ '.')
  let fraction := (value.toList.dropWhile (· ≠ '.')).drop 1
  let hasFraction := decide ('.' ∈ value.toList)
  if integer = [] ∨ integer.all Char.isDigit = false ∨ 6 < fraction.length ∨
      (hasFraction = true ∧ (fraction = [] ∨ fraction.all Char.isDigit = false)) then
    .error decimalError
  else
    let whole := digitsValue (integer.dropWhile (· = '0'))
    if 1000 < whole then .error rangeError
    else
      let decimals := digitsValue (fraction ++ replicate (6 - fraction.length) '0')
      let parsed : Int := whole * defaultPriceMultiplier + decimals
      if !PriceMultiplier.valid parsed then .error rangeError else .ok parsed

def formatInt (n : Int) : List Char :=
  if n < 0 then '-' :: Nat.toDigits 10 n.natAbs else Nat.toDigits 10 n.natAbs

def formatPriceMultiplier (value : PriceMultiplier) : String :=
  let whole := formatInt (value.tdiv defaultPriceMultiplier)
  let fraction := value.tmod defaultPriceMultiplier
  if fraction = 0 then String.ofList whole
  else
    let whole := if fraction < 0 ∧ whole = ['0'] then ['-', '0'] else whole
    let fractionText := Nat.toDigits 10 fraction.natAbs
    let padded := replicate (6 - fractionText.length) '0' ++ fractionText
    String.ofList (whole ++ '.' :: padded.rdropWhile (· = '0'))

end Text

section Facts

variable {amount : Int} {multipliers : PriceMultipliers}

theorem checkedQuotient_nonneg (h : checkedQuotient numerator denominator = some amount) :
    0 ≤ amount := by
  unfold checkedQuotient at h
  dsimp only at h
  split at h
  · cases h
  rename_i hn
  cases h
  omega

theorem quoteComponent_nonneg (h : quoteComponent tokens price multiplier = some amount) :
    0 ≤ amount := by
  unfold quoteComponent at h
  split at h
  · cases h
  · exact checkedQuotient_nonneg h

theorem checkedAddNanoUSD_some {left right sum : Int}
    (h : checkedAddNanoUSD left right = some sum) : 0 ≤ left ∧ 0 ≤ right ∧ sum = left + right := by
  unfold checkedAddNanoUSD at h
  split at h
  · cases h
  · cases h
    omega

theorem applyPriceMultipliers_nonneg
    (h : applyPriceMultipliers amount multipliers = some adjusted) :
    0 ≤ adjusted := by
  unfold applyPriceMultipliers at h
  split at h
  · cases h
  rename_i guard
  simp only [not_or, not_lt, PriceMultipliers.valid, PriceMultiplier.valid, Bool.not_eq_false,
    Bool.and_eq_true, decide_eq_true_eq] at guard
  obtain ⟨ha, ⟨hg, -⟩, hk, -⟩ := guard
  dsimp only at h
  split at h
  · cases h
    have positive : (0 : Int) < defaultPriceMultiplier * defaultPriceMultiplier := by decide
    have quotient := Int.ediv_nonneg (mul_nonneg (mul_nonneg ha hg) hk) positive.le
    unfold roundedQuotient
    split <;> omega
  · cases h

/-- The default multipliers leave an amount as it is. -/
theorem applyPriceMultipliers_default (h : 0 ≤ amount) (hmax : amount ≤ maxInt64) :
    applyPriceMultipliers amount .default = some amount := by
  have exact' : roundedQuotient (amount * defaultPriceMultiplier * defaultPriceMultiplier)
      (defaultPriceMultiplier * defaultPriceMultiplier) = amount := by
    unfold roundedQuotient
    rw [mul_assoc, Int.mul_ediv_cancel _ (by decide), Int.mul_emod_left]
    simp [defaultPriceMultiplier]
  have int64 : isInt64 amount = true := by
    simp only [isInt64, Bool.and_eq_true, decide_eq_true_eq]
    omega
  unfold applyPriceMultipliers
  rw [if_neg (by simp only [not_or, not_lt]; exact ⟨h, by decide⟩)]
  simp only [PriceMultipliers.default, exact', int64, if_true]

theorem applyPriceMultipliers_zero (h : multipliers.valid = true) :
    applyPriceMultipliers 0 multipliers = some 0 := by
  unfold applyPriceMultipliers
  simp [h, roundedQuotient, defaultPriceMultiplier, isInt64, maxInt64]

end Facts

section RoundTrip

theorem digitsValue_append (digits more : List Char) :
    digitsValue (digits ++ more) = digitsValue digits * 10 ^ more.length + digitsValue more := by
  rw [digitsValue, Nat.ofDigitChars_append, Nat.ofDigitChars_eq_ofDigitChars_zero, mul_comm]
  rfl

theorem digitsValue_zeros (count : Nat) : digitsValue (replicate count '0') = 0 := by
  rw [digitsValue, Nat.ofDigitChars_replicate_zero, mul_zero]

theorem digitsValue_toDigits (n : Nat) : digitsValue (Nat.toDigits 10 n) = n :=
  Nat.ofDigitChars_ten_toDigits

theorem digitsValue_dropZeros (digits : List Char) :
    digitsValue (digits.dropWhile (· = '0')) = digitsValue digits := by
  have zeros : digits.takeWhile (· = '0') =
      replicate (digits.takeWhile (· = '0')).length '0' :=
    eq_replicate_iff.mpr ⟨rfl, fun c hc => by simpa using mem_takeWhile_imp hc⟩
  conv_rhs => rw [← takeWhile_append_dropWhile (p := (· = '0')) (l := digits), zeros]
  rw [digitsValue_append, digitsValue_zeros, zero_mul, zero_add]

/-- Zeros that were cut off at the end, up to the length there was. -/
theorem rdropZeros_append (digits : List Char) :
    digits.rdropWhile (· = '0') ++
      replicate (digits.length - (digits.rdropWhile (· = '0')).length) '0' = digits := by
  have zeros : digits.rtakeWhile (· = '0') =
      replicate (digits.rtakeWhile (· = '0')).length '0' :=
    eq_replicate_iff.mpr ⟨rfl, fun c hc => by simpa using mem_rtakeWhile_imp hc⟩
  have whole := rdropWhile_append_rtakeWhile (p := (· = '0')) (l := digits)
  have length := congrArg length whole
  rw [length_append] at length
  rw [show digits.length - (digits.rdropWhile (· = '0')).length =
    (digits.rtakeWhile (· = '0')).length by omega, ← zeros]
  exact whole

/-- The digits around the point of a decimal that has at most so many places. -/
structure Decimal (places : Nat) where
  integer : List Char
  fraction : List Char
  nonempty : integer ≠ []
  integerDigits : integer.all Char.isDigit = true
  fractionDigits : fraction.all Char.isDigit = true
  short : fraction.length ≤ places

namespace Decimal

variable {places : Nat} (d : Decimal places)

/-- The point is written if digits follow it. -/
def text : String :=
  String.ofList (d.integer ++ if d.fraction = [] then [] else '.' :: d.fraction)

def scaled : Nat :=
  digitsValue (d.integer ++ (d.fraction ++ replicate (places - d.fraction.length) '0'))

theorem scaled_eq : d.scaled = digitsValue d.integer * 10 ^ places +
    digitsValue (d.fraction ++ replicate (places - d.fraction.length) '0') := by
  have := d.short
  rw [scaled, digitsValue_append, length_append, length_replicate]
  congr 3
  omega

theorem point_not_mem {digits : List Char} (h : digits.all Char.isDigit = true) : '.' ∉ digits := by
  intro hm
  have := all_eq_true.mp h '.' hm
  revert this
  decide

/-- `strings.Cut` takes the text apart. -/
theorem cut_text : d.text.toList.takeWhile (· ≠ '.') = d.integer ∧
    (d.text.toList.dropWhile (· ≠ '.')).drop 1 = d.fraction ∧
    ('.' ∈ d.text.toList ↔ d.fraction ≠ []) := by
  have noPoint : ∀ c ∈ d.integer, decide (c ≠ '.') = true := fun c hc =>
    decide_eq_true fun h => point_not_mem d.integerDigits (h ▸ hc)
  rw [text, String.toList_ofList, takeWhile_append_of_pos noPoint, dropWhile_append_of_pos noPoint]
  have := point_not_mem d.integerDigits
  by_cases h : d.fraction = [] <;> simp [h, this]

/-- A text that `strings.Cut` takes apart into digits is that of a decimal. -/
theorem exists_text {value : String} (nonempty : value.toList.takeWhile (· ≠ '.') ≠ [])
    (integerDigits : (value.toList.takeWhile (· ≠ '.')).all Char.isDigit = true)
    (fractionDigits : '.' ∈ value.toList → (value.toList.dropWhile (· ≠ '.')).drop 1 ≠ [] ∧
      ((value.toList.dropWhile (· ≠ '.')).drop 1).all Char.isDigit = true)
    (short : ((value.toList.dropWhile (· ≠ '.')).drop 1).length ≤ places) :
    ∃ d : Decimal places, d.text = value := by
  have whole := takeWhile_append_dropWhile (p := (· ≠ '.')) (l := value.toList)
  have point := head?_dropWhile_not (· ≠ '.') value.toList
  generalize value.toList.takeWhile _ = integer at nonempty integerDigits whole
  generalize value.toList.dropWhile _ = rest at fractionDigits short whole point
  obtain rfl : String.ofList (integer ++ rest) = value := by rw [whole, String.ofList_toList]
  cases rest with
  | nil => exact ⟨⟨integer, [], nonempty, integerDigits, by simp, by simp⟩, by simp [text]⟩
  | cons c fraction =>
    obtain rfl : c = '.' := by simpa using point
    obtain ⟨some_digit, digits⟩ := fractionDigits (by simp)
    exact ⟨⟨integer, fraction, nonempty, integerDigits, digits, short⟩,
      by rw [text, if_neg (by simpa using some_digit)]⟩

theorem all_digits (n : Nat) : (Nat.toDigits 10 n).all Char.isDigit = true :=
  all_eq_true.mpr fun _ hc => Nat.isDigit_of_mem_toDigits (by decide) (by decide) hc

/-- The digits of a number, up to so many places. -/
def padded (places n : Nat) : List Char :=
  replicate (places - (Nat.toDigits 10 n).length) '0' ++ Nat.toDigits 10 n

theorem padded_digits (places n : Nat) : (padded places n).all Char.isDigit = true := by
  rw [padded, all_append, all_digits, Bool.and_true]
  exact all_eq_true.mpr fun c hc => by rw [eq_of_mem_replicate hc]; rfl

theorem length_padded (positive : 0 < places) (h : n < 10 ^ places) :
    (padded places n).length = places := by
  have := Nat.toDigits_length 10 n places positive h
  rw [padded, length_append, length_replicate]
  omega

theorem digitsValue_padded (places n : Nat) : digitsValue (padded places n) = n := by
  rw [padded, digitsValue_append, digitsValue_zeros, digitsValue_toDigits, zero_mul, zero_add]

theorem trim_padded (places n : Nat) :
    (padded places n).rdropWhile (· = '0') <+: padded places n := rdropWhile_prefix _ _

/-- The shortest decimal with a value. -/
def ofScaled (places n : Nat) (positive : 0 < places) : Decimal places where
  integer := Nat.toDigits 10 (n / 10 ^ places)
  fraction := (padded places (n % 10 ^ places)).rdropWhile (· = '0')
  nonempty := Nat.toDigits_ne_nil
  integerDigits := all_digits _
  fractionDigits := all_eq_true.mpr fun c hc =>
    all_eq_true.mp (padded_digits places _) c ((trim_padded _ _).subset hc)
  short := (trim_padded _ _).length_le.trans_eq
    (length_padded positive (Nat.mod_lt n (by positivity)))

theorem scaled_ofScaled (n : Nat) (positive : 0 < places) :
    (ofScaled places n positive).scaled = n := by
  have restored := rdropZeros_append (padded places (n % 10 ^ places))
  rw [length_padded positive (Nat.mod_lt n (by positivity))] at restored
  rw [scaled_eq, ofScaled, restored, digitsValue_padded, digitsValue_toDigits, Nat.div_add_mod']

theorem rdropWhile_padded : (padded places n).rdropWhile (· = '0') = [] ↔ n = 0 := by
  simp only [rdropWhile_eq_nil_iff, decide_eq_true_eq]
  constructor
  · intro zeros
    rw [← digitsValue_padded places n, eq_replicate_of_mem zeros, digitsValue_zeros]
  · rintro rfl c hc
    simp only [padded, Nat.toDigits_zero, mem_append, mem_replicate, mem_singleton] at hc
    tauto

theorem text_ofScaled (n : Nat) (positive : 0 < places) :
    (ofScaled places n positive).text = String.ofList (Nat.toDigits 10 (n / 10 ^ places) ++
      if n % 10 ^ places = 0 then []
      else '.' :: (padded places (n % 10 ^ places)).rdropWhile (· = '0')) := by
  simp only [text, ofScaled, rdropWhile_padded]

end Decimal

theorem parsePriceMultiplier_ok_iff :
    parsePriceMultiplier text = .ok value ↔
      ∃ d : Decimal 6, d.text = text ∧ d.scaled = value ∧ PriceMultiplier.valid value = true := by
  have sum (d : Decimal 6) : (digitsValue d.integer * defaultPriceMultiplier +
      digitsValue (d.fraction ++ replicate (6 - d.fraction.length) '0') : Int) = d.scaled := by
    rw [d.scaled_eq, defaultPriceMultiplier]
    norm_cast
  unfold parsePriceMultiplier
  dsimp only
  constructor
  · intro h
    split at h
    · cases h
    rename_i shape
    simp only [not_or, not_and, Bool.not_eq_false, decide_eq_true_eq, not_lt] at shape
    obtain ⟨nonempty, digits, short, fraction⟩ := shape
    obtain ⟨d, rfl⟩ := Decimal.exists_text nonempty digits fraction short
    obtain ⟨integer, fraction, -⟩ := d.cut_text
    rw [integer, fraction, digitsValue_dropZeros, sum] at h
    split_ifs at h with large invalid
    cases h
    exact ⟨d, rfl, rfl, by simpa using invalid⟩
  · rintro ⟨d, rfl, rfl, valid⟩
    obtain ⟨integer, fraction, point⟩ := d.cut_text
    have small : digitsValue d.integer ≤ 1000 := by
      have most : (d.scaled : Int) ≤ 1000000000 := by simpa [PriceMultiplier.valid] using valid
      have := d.scaled_eq
      omega
    rw [integer, fraction, digitsValue_dropZeros, sum, if_neg, if_neg (by omega), valid]
    · rfl
    · have := d.short
      simp [d.nonempty, d.integerDigits, d.fractionDigits, point]
      omega

theorem formatPriceMultiplier_eq (n : Nat) :
    formatPriceMultiplier n = (Decimal.ofScaled 6 n (by decide)).text := by
  have hdiv : (n : Int).tdiv defaultPriceMultiplier = (n / 10 ^ 6 : Nat) := by
    rw [Int.tdiv_eq_ediv_of_nonneg (by omega), defaultPriceMultiplier]
    omega
  have hmod : (n : Int).tmod defaultPriceMultiplier = (n % 10 ^ 6 : Nat) := by
    rw [Int.tmod_eq_emod_of_nonneg (by omega), defaultPriceMultiplier]
    omega
  have whole : formatInt ((n / 10 ^ 6 : Nat) : Int) = Nat.toDigits 10 (n / 10 ^ 6) := by
    rw [formatInt, if_neg (by omega), Int.natAbs_natCast]
  unfold formatPriceMultiplier
  dsimp only
  rw [hdiv, hmod, whole, Decimal.text_ofScaled]
  by_cases hf : n % 10 ^ 6 = 0
  · rw [if_pos (by omega), if_pos hf, append_nil]
  · rw [if_neg (by omega), if_neg (by omega), if_neg hf, Int.natAbs_natCast]
    rfl

/-- The text of a valid multiplier stands for it. -/
theorem parse_format (h : PriceMultiplier.valid value = true) :
    parsePriceMultiplier (formatPriceMultiplier value) = .ok value := by
  have nonneg : (0 : Int) ≤ value := by
    simp only [PriceMultiplier.valid, Bool.and_eq_true, decide_eq_true_eq] at h
    exact h.1
  lift value to Nat using nonneg
  exact parsePriceMultiplier_ok_iff.mpr
    ⟨_, (formatPriceMultiplier_eq value).symm, by rw [Decimal.scaled_ofScaled], h⟩

end RoundTrip

end ApiLoad.Pricing
