import ApiLoad.Foundation.Text
import ApiLoad.Pricing.Amount
import Mathlib.Algebra.Order.Field.Rat
import Mathlib.Tactic.FieldSimp

/-!
# Prices as text

Amounts are read and written as decimals of dollars with at most nine places
(`internal/pricing/nanousd.go`). Writing is the inverse of reading, up to zeros that say nothing.
-/
namespace ApiLoad.Pricing
open Foundation Text List

def nanoUSDPerUSD : Nat := 1000000000

def parseUSD (value : String) : Except String Int :=
  if value = "" ∨ trimSpace value ≠ value then .error "USD price must be a non-empty decimal"
  else
    let integer := value.toList.takeWhile (· ≠ '.')
    let fraction := (value.toList.dropWhile (· ≠ '.')).drop 1
    let hasFraction := decide ('.' ∈ value.toList)
    if integer = [] ∨ (hasFraction = true ∧ fraction = []) ∨ '.' ∈ fraction ∨
        9 < (fraction.map Char.utf8Size).sum then
      .error "USD price must have at most nine decimal places"
    else if integer.all Char.isDigit = false ∨
        (hasFraction = true ∧ fraction.all Char.isDigit = false) then
      .error "USD price must be a non-negative decimal"
    else
      let amount := digitsValue (integer ++ (fraction ++ replicate (9 - fraction.length) '0'))
      if !isInt64 amount then .error "USD price exceeds int64 nano USD" else .ok amount

def formatUSD (value : Int) : String :=
  let sign := if value < 0 then ['-'] else []
  let whole := Nat.toDigits 10 (value.natAbs / nanoUSDPerUSD)
  let fraction := value.natAbs % nanoUSDPerUSD
  if fraction = 0 then String.ofList (sign ++ whole)
  else
    let fractionText := Nat.toDigits 10 fraction
    let padded := replicate (9 - fractionText.length) '0' ++ fractionText
    String.ofList (sign ++ whole ++ '.' :: padded.rdropWhile (· = '0'))

def worth (text : String) : ℚ :=
  let fraction := (text.toList.dropWhile (· ≠ '.')).drop 1
  digitsValue (text.toList.takeWhile (· ≠ '.')) + digitsValue fraction / 10 ^ fraction.length

def Trimmed (text : String) : Prop := '.' ∈ text.toList → text.toList.getLast? ≠ some '0'

namespace Decimal

variable {places : Nat} (d : Decimal places)

theorem worth_text : worth d.text = d.scaled / 10 ^ places := by
  obtain ⟨integer, fraction, -⟩ := d.cut_text
  have scale (whole part : ℚ) {k n : Nat} (h : k ≤ n) :
      whole + part / 10 ^ k = (whole * 10 ^ n + part * 10 ^ (n - k)) / 10 ^ n := by
    obtain ⟨more, rfl⟩ := Nat.exists_eq_add_of_le h
    rw [Nat.add_sub_cancel_left, pow_add]
    field_simp
  rw [worth, integer, fraction, scaled_eq, digitsValue_append, digitsValue_zeros,
    length_replicate, add_zero, scale _ _ d.short]
  push_cast
  rfl

theorem trimmed_ofScaled (n : Nat) (positive : 0 < places) :
    Trimmed (ofScaled places n positive).text := by
  intro point
  have whole := (ofScaled places n positive).cut_text.2.2.mp point
  have last := rdropWhile_last_not (· = '0') (padded places (n % 10 ^ places)) whole
  rw [text, if_neg whole, String.toList_ofList, getLast?_append, getLast?_cons_of_ne_nil whole,
    getLast?_eq_some_getLast whole, Option.some_or]
  exact fun h => last (decide_eq_true (Option.some.inj h))

theorem digit_range {c : Char} (h : c.isDigit = true) : 48 ≤ c.toNat ∧ c.toNat ≤ 57 :=
  Char.isDigit_iff_toNat.mp h

theorem not_isSpace {c : Char} (h : c.isDigit = true ∨ c = '.') : isSpace c = false := by
  rcases h with h | rfl
  · have := digit_range h
    exact isSpace_eq_false (by omega)
  · rfl

theorem trimSpace_text : trimSpace d.text = d.text := by
  apply trimSpace_eq_self
  intro c hc
  apply not_isSpace
  rw [text, String.toList_ofList] at hc
  have := all_eq_true.mp d.integerDigits c
  have := all_eq_true.mp d.fractionDigits c
  split_ifs at hc <;> grind

theorem utf8Size_digits {digits : List Char} (h : digits.all Char.isDigit = true) :
    (digits.map Char.utf8Size).sum = digits.length := by
  have one : ∀ c ∈ digits, c.utf8Size = 1 := fun c hc => by
    have := digit_range (all_eq_true.mp h c hc)
    exact Char.utf8Size_eq_one_iff.mpr (UInt32.le_iff_toNat_le.mpr (by
      change c.toNat ≤ 127
      omega))
  rw [map_eq_replicate_iff.mpr one, sum_const_nat, mul_one]

theorem length_le_utf8Size (l : List Char) : l.length ≤ (l.map Char.utf8Size).sum := by
  have := length_le_sum_of_one_le (l.map Char.utf8Size)
    (forall_mem_map.mpr fun c _ => c.utf8Size_pos)
  rwa [length_map] at this

end Decimal

theorem parseUSD_ok_iff {text : String} {value : Int} :
    parseUSD text = .ok value ↔
      ∃ d : Decimal 9, d.text = text ∧ d.scaled = value ∧ value ≤ maxInt64 := by
  have int64 (n : Nat) : isInt64 n = true ↔ (n : Int) ≤ maxInt64 := by
    simp [isInt64]
  unfold parseUSD
  dsimp only
  constructor
  · intro h
    split_ifs at h with blank shape signs large
    simp only [not_or, not_and, Bool.not_eq_false, decide_eq_true_eq, not_lt] at shape signs
    obtain ⟨nonempty, fraction, -, short⟩ := shape
    obtain ⟨d, rfl⟩ := Decimal.exists_text nonempty signs.1 (fun h => ⟨fraction h, signs.2 h⟩)
      ((Decimal.length_le_utf8Size _).trans short)
    obtain ⟨integer, fraction, -⟩ := d.cut_text
    rw [integer, fraction] at h large
    cases h
    exact ⟨d, rfl, rfl, (int64 _).mp (by simpa using large)⟩
  · rintro ⟨d, rfl, rfl, small⟩
    obtain ⟨integer, fraction, point⟩ := d.cut_text
    have written : d.text ≠ "" := by
      intro h
      rw [h] at integer
      exact d.nonempty integer.symm
    have := d.short
    have := Decimal.point_not_mem d.fractionDigits
    rw [integer, fraction, if_neg (by simp [written, d.trimSpace_text]), if_neg, if_neg, if_neg]
    · rfl
    · rw [Bool.not_eq_true', Bool.not_eq_false]
      exact (int64 d.scaled).mpr small
    · simp [d.integerDigits, d.fractionDigits]
    · simp [d.nonempty, Decimal.utf8Size_digits d.fractionDigits, *]

theorem formatUSD_eq (n : Nat) : formatUSD n = (Decimal.ofScaled 9 n (by decide)).text := by
  unfold formatUSD
  dsimp only
  rw [Int.natAbs_natCast, Decimal.text_ofScaled, show nanoUSDPerUSD = 10 ^ 9 from rfl,
    if_neg (by omega : ¬ (n : Int) < 0)]
  split_ifs <;> simp [Decimal.padded]

/-- Price text round trips. -/
theorem price_text_round_trips :
    (∀ v : Int, 0 ≤ v → v ≤ maxInt64 → parseUSD (formatUSD v) = .ok v) ∧
    (∀ text v, parseUSD text = .ok v →
      worth (formatUSD v) = worth text ∧ Trimmed (formatUSD v)) ∧
    (∀ text, (∃ v, parseUSD text = .ok v) ↔
      ∃ integer fraction : List Char,
        (text = String.ofList integer ∧ fraction = [] ∨
          text = String.ofList (integer ++ '.' :: fraction) ∧ fraction ≠ []) ∧
        integer ≠ [] ∧ (∀ c ∈ integer ++ fraction, c.isDigit = true) ∧ fraction.length ≤ 9 ∧
        worth text * 10 ^ 9 ≤ maxInt64) ∧
    (∀ v, PriceMultiplier.valid v = true →
      parsePriceMultiplier (formatPriceMultiplier v) = .ok v) ∧
    (∀ text v, parsePriceMultiplier text = .ok v →
      worth (formatPriceMultiplier v) = worth text ∧
        Trimmed (formatPriceMultiplier v)) := by
  refine ⟨fun v hv small => ?_, fun text v h => ?_, fun text => ?_, fun v => parse_format,
    fun text v h => ?_⟩
  · lift v to Nat using hv
    exact parseUSD_ok_iff.mpr ⟨_, (formatUSD_eq v).symm, by rw [Decimal.scaled_ofScaled], small⟩
  · obtain ⟨d, rfl, rfl, -⟩ := parseUSD_ok_iff.mp h
    rw [formatUSD_eq, Decimal.worth_text, Decimal.worth_text, Decimal.scaled_ofScaled]
    exact ⟨rfl, Decimal.trimmed_ofScaled _ _⟩
  · have nano (d : Decimal 9) : worth d.text * 10 ^ 9 ≤ maxInt64 ↔ (d.scaled : Int) ≤ maxInt64 := by
      rw [d.worth_text, div_mul_cancel₀ _ (by norm_num)]
      exact_mod_cast Iff.rfl
    constructor
    · rintro ⟨v, h⟩
      obtain ⟨d, rfl, rfl, small⟩ := parseUSD_ok_iff.mp h
      refine ⟨d.integer, d.fraction, ?_, d.nonempty, ?_, d.short, (nano d).mpr small⟩
      · by_cases hf : d.fraction = [] <;> simp [Decimal.text, hf]
      · rw [← all_eq_true, all_append, d.integerDigits, d.fractionDigits, Bool.and_true]
    · rintro ⟨integer, fraction, shape, nonempty, digits, short, small⟩
      rw [← all_eq_true, all_append, Bool.and_eq_true] at digits
      let d : Decimal 9 := ⟨integer, fraction, nonempty, digits.1, digits.2, short⟩
      obtain rfl : d.text = text := by
        rcases shape with ⟨rfl, hf⟩ | ⟨rfl, hf⟩ <;> simp [d, Decimal.text, hf]
      exact ⟨_, parseUSD_ok_iff.mpr ⟨d, rfl, rfl, (nano d).mp small⟩⟩
  · obtain ⟨d, rfl, rfl, -⟩ := parsePriceMultiplier_ok_iff.mp h
    rw [formatPriceMultiplier_eq, Decimal.worth_text, Decimal.worth_text,
      Decimal.scaled_ofScaled]
    exact ⟨rfl, Decimal.trimmed_ofScaled _ _⟩

end ApiLoad.Pricing
