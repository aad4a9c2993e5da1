import Mathlib

/-!
# Lawful comparisons of map keys

A key type is ordered by an injective view into types that are ordered already: an enumeration by
the index of its constructors, a record of two components lexicographically.
-/
namespace ApiLoad.Foundation.KeyOrder
open Std

variable {α β γ : Type*} [Ord β] [Ord γ]

theorem lawful_of_injective [LawfulEqOrd β] {view : α → β} (injective : Function.Injective view) :
    LawfulEqCmp (compareOn view) where
  eq_of_compare h := injective (LawfulEqOrd.compare_eq_iff_eq.mp h)
  compare_self := ReflOrd.compare_self

theorem lawful_of_pair [LawfulEqOrd β] [LawfulEqOrd γ] {fst : α → β} {snd : α → γ}
    (determined : ∀ a b, fst a = fst b → snd a = snd b → a = b) :
    LawfulEqCmp (compareLex (compareOn fst) (compareOn snd)) where
  eq_of_compare {a b} h := by
    rw [compareLex, Ordering.then_eq_eq] at h
    exact determined a b (LawfulEqOrd.compare_eq_iff_eq.mp h.1)
      (LawfulEqOrd.compare_eq_iff_eq.mp h.2)
  compare_self {a} := by
    simp only [compareLex, compareOn, ReflOrd.compare_self, Ordering.eq_then]

end ApiLoad.Foundation.KeyOrder
