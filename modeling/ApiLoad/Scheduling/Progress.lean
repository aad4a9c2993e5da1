import Mathlib

/-!
# Scheduling progress

The 128-bit coordinate by which credentials are ordered (`internal/state/scheduling.go`). A
selection advances it by the reciprocal of the weight, so the member that lags furthest behind its
share has the least progress. `value` reads the two words as one number, and the order of the
source is the order of the values.
-/
namespace ApiLoad.Scheduling

structure SchedulingProgress where
  whole : UInt64 := 0
  fraction : UInt64 := 0
deriving DecidableEq, Repr, Inhabited

namespace SchedulingProgress

def MaxUint64 : UInt64 := 0xffffffffffffffff

/-- `Compare` orders by the whole part, then by the fraction. -/
def compare (p other : SchedulingProgress) : Ordering :=
  (Ord.compare p.whole other.whole).then (Ord.compare p.fraction other.fraction)

/-- `bits.Add64` without a carry in: the sum and the carry out. -/
def add64 (x y : UInt64) : UInt64 × UInt64 :=
  (x + y, if 2 ^ 64 ≤ x.toNat + y.toNat then 1 else 0)

/-- `Advance`: the next progress, and whether the whole part did not overflow. -/
def advance (p : SchedulingProgress) (weight : Nat) : SchedulingProgress × Bool :=
  if weight = 0 then (p, false)
  else
    let (fraction, carry) :=
      if weight = 1 then (p.fraction, 1) else add64 p.fraction (UInt64.ofNat (2 ^ 64 / weight))
    let (whole, overflow) := add64 p.whole carry
    (⟨whole, fraction⟩, overflow = 0)

/-- The distance by which one selection at this weight advances a member. -/
def step (weight : Nat) : Nat := 2 ^ 64 / weight

def value (p : SchedulingProgress) : Nat := p.whole.toNat * 2 ^ 64 + p.fraction.toNat

theorem value_injective : Function.Injective value := by
  intro p q h
  have hp := p.fraction.toNat_lt
  have hq := q.fraction.toNat_lt
  cases p with | mk pw pf
  cases q with | mk qw qf
  simp only [value] at h hp hq
  have whole : pw.toNat = qw.toNat := by omega
  have fraction : pf.toNat = qf.toNat := by omega
  rw [UInt64.toNat_inj.mp whole, UInt64.toNat_inj.mp fraction]

instance : LinearOrder SchedulingProgress := LinearOrder.lift' value value_injective

theorem le_iff (p q : SchedulingProgress) : p ≤ q ↔ p.value ≤ q.value := Iff.rfl

theorem lt_iff (p q : SchedulingProgress) : p < q ↔ p.value < q.value := Iff.rfl

@[simp] theorem value_default : (default : SchedulingProgress).value = 0 := rfl

theorem default_le (p : SchedulingProgress) : default ≤ p := by
  rw [le_iff, value_default]
  exact Nat.zero_le _

theorem compare_eq (p q : SchedulingProgress) : p.compare q = Ord.compare p.value q.value := by
  have hp := p.fraction.toNat_lt
  have hq := q.fraction.toNat_lt
  have word (x y : UInt64) : Ord.compare x y = Ord.compare x.toNat y.toNat := by
    simp only [Ord.compare, compareOfLessAndEq, UInt64.lt_iff_toNat_lt, ← UInt64.toNat_inj]
  rw [compare, word, word, value, value]
  rcases Nat.lt_trichotomy p.whole.toNat q.whole.toNat with h | h | h
  · rw [Nat.compare_eq_lt.mpr h, Ordering.lt_then, Nat.compare_eq_lt.mpr (by omega)]
  · rw [h, Nat.compare_eq_eq.mpr rfl, Ordering.eq_then]
    rcases Nat.lt_trichotomy p.fraction.toNat q.fraction.toNat with h | h | h
    · rw [Nat.compare_eq_lt.mpr h, Nat.compare_eq_lt.mpr (by omega)]
    · rw [h, Nat.compare_eq_eq.mpr rfl, Nat.compare_eq_eq.mpr rfl]
    · rw [Nat.compare_eq_gt.mpr h, Nat.compare_eq_gt.mpr (by omega)]
  · rw [Nat.compare_eq_gt.mpr h, Ordering.gt_then, Nat.compare_eq_gt.mpr (by omega)]

@[simp] theorem compare_lt (p q : SchedulingProgress) : p.compare q = .lt ↔ p < q := by
  rw [compare_eq, Nat.compare_eq_lt, lt_iff]

@[simp] theorem compare_gt (p q : SchedulingProgress) : p.compare q = .gt ↔ q < p := by
  rw [compare_eq, Nat.compare_eq_gt, lt_iff]

@[simp] theorem compare_refl (p : SchedulingProgress) : p.compare p = .eq := by
  rw [compare_eq, Nat.compare_eq_eq]

theorem add64_value (x y : UInt64) :
    (add64 x y).1.toNat + (add64 x y).2.toNat * 2 ^ 64 = x.toNat + y.toNat := by
  have hx := x.toNat_lt
  have hy := y.toNat_lt
  simp only [add64, UInt64.toNat_add]
  split <;> simp <;> omega

theorem step_lt {weight : Nat} (h : 2 ≤ weight) : step weight < 2 ^ 64 :=
  Nat.div_lt_self (by decide) h

/-- As long as the whole part does not overflow, an advance adds the step of the weight. -/
theorem advance_value {p : SchedulingProgress} {weight : Nat} (hw : weight ≠ 0) :
    ((p.advance weight).2 = true ↔ p.value + step weight < 2 ^ 128) ∧
      ((p.advance weight).2 = true → (p.advance weight).1.value = p.value + step weight) := by
  have hwhole := p.whole.toNat_lt
  have hfraction := p.fraction.toNat_lt
  -- Both ways to move the fraction add the step, counted in the fraction and its carry.
  obtain ⟨fraction, carry, hadv, hsum⟩ : ∃ fraction carry : UInt64,
      p.advance weight = (SchedulingProgress.mk (add64 p.whole carry).1 fraction,
        decide ((add64 p.whole carry).2 = 0)) ∧
        fraction.toNat + carry.toNat * 2 ^ 64 = p.fraction.toNat + step weight := by
    rw [advance, if_neg hw]
    by_cases h1 : weight = 1
    · exact ⟨p.fraction, 1, by rw [if_pos h1], by subst h1; rfl⟩
    refine ⟨(add64 p.fraction (UInt64.ofNat (2 ^ 64 / weight))).1,
      (add64 p.fraction (UInt64.ofNat (2 ^ 64 / weight))).2, by rw [if_neg h1], ?_⟩
    have hstep : (UInt64.ofNat (2 ^ 64 / weight)).toNat = step weight :=
      UInt64.toNat_ofNat_of_lt' (step_lt (by omega))
    rw [add64_value, hstep]
  have hwords := add64_value p.whole carry
  have hlow := fraction.toNat_lt
  have hhigh := (add64 p.whole carry).1.toNat_lt
  rw [hadv]
  simp only [decide_eq_true_eq, value, ← UInt64.toNat_inj, UInt64.toNat_zero]
  constructor
  · constructor <;> intro h <;> omega
  · intro h
    omega

end SchedulingProgress
end ApiLoad.Scheduling
