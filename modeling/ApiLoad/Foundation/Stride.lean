import Mathlib

/-!
# Stride scheduling

A scheduler that always picks a member of least progress, where every pick advances the progress
of its member by a fixed step. Two members never drift apart by more than one step of the one
ahead, and a member is picked in a row only as often as its steps fit into one step of another.
-/
namespace ApiLoad.Foundation.Stride
open List

variable {ι : Type*} [DecidableEq ι]

def progress (step : ι → ℕ) (picks : List ι) (i : ι) : ℕ := picks.count i * step i

/-- The histories in which every pick had the least progress among the members at its turn. -/
inductive Fair (step : ι → ℕ) (members : Set ι) : List ι → Prop
  | start : Fair step members []
  | pick {picks : List ι} {i : ι} (h : Fair step members picks)
      (least : ∀ j ∈ members, progress step picks i ≤ progress step picks j) :
      Fair step members (picks ++ [i])

variable {step : ι → ℕ} {members : Set ι} {picks : List ι}

theorem progress_mono (step : ι → ℕ) (picks more : List ι) (i : ι) :
    progress step picks i ≤ progress step (picks ++ more) i := by
  unfold progress
  rw [count_append]
  gcongr
  omega

theorem progress_pick (i : ι) :
    progress step (picks ++ [i]) i = progress step picks i + step i := by
  simp [progress, Nat.add_mul]

theorem progress_pick_ne {i j : ι} (h : j ≠ i) :
    progress step (picks ++ [i]) j = progress step picks j := by
  simp [progress, h.symm]

theorem Fair.of_append {more : List ι} (h : Fair step members (picks ++ more)) :
    Fair step members picks := by
  induction more using reverseRecOn with
  | nil => simpa using h
  | append_singleton more j ih =>
    rw [← append_assoc] at h
    generalize hq : (picks ++ more) ++ [j] = q at h
    cases h with
    | start => simp at hq
    | pick h' _ =>
      obtain ⟨rfl, -⟩ := append_inj' hq rfl
      exact ih h'

/-- No member is ahead of another by more than its own last step. -/
theorem Fair.spread (h : Fair step members picks) {i j : ι} (hi : i ∈ picks) (hj : j ∈ members) :
    progress step picks i ≤ progress step picks j + step i := by
  induction h with
  | start => simp at hi
  | @pick picks k _ least ih =>
    have grown := progress_mono step picks [k] j
    by_cases hik : i = k
    · subst hik
      rw [progress_pick]
      have := least j hj
      omega
    · rw [progress_pick_ne hik]
      have := ih (by simpa [hik] using hi)
      omega

/-- A streak that another member has not ended fits into one step of that member. -/
theorem Fair.streak {k : ℕ} {i j : ι} (h : Fair step members (picks ++ replicate k i))
    (hi : i ∈ members) (hne : j ≠ i)
    (behind : progress step (picks ++ replicate k i) i ≤
      progress step (picks ++ replicate k i) j) :
    k * step i ≤ step j := by
  have unchanged : progress step (picks ++ replicate k i) j = progress step picks j := by
    simp [progress, count_replicate, hne.symm]
  have advanced : progress step (picks ++ replicate k i) i =
      progress step picks i + k * step i := by
    simp [progress, Nat.add_mul]
  rw [unchanged, advanced] at behind
  by_cases hpicked : j ∈ picks
  · have := h.of_append.spread hpicked hi
    omega
  · have : progress step picks j = 0 := by simp [progress, count_eq_zero.mpr hpicked]
    omega

end ApiLoad.Foundation.Stride
