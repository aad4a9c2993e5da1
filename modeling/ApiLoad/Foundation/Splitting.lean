import Mathlib.Data.List.Basic
import Mathlib.Tactic.Common

/-!
# Splitting a list at a separator

What the parts of a list between the occurrences of a separator consist of, and how splitting and
joining go with concatenation.
-/
namespace ApiLoad.Foundation.Splitting
open List

variable {α : Type} [DecidableEq α] (sep : α)

theorem splitOn_append_cons (l r : List α) :
    (l ++ sep :: r).splitOn sep = l.splitOn sep ++ r.splitOn sep := by
  simp [splitOn, splitOnP_append_cons]

variable {sep}

/-- The parts of a list consist of its elements other than the separator. -/
theorem of_mem_splitOn {l part : List α} (h : part ∈ l.splitOn sep) :
    (∀ c ∈ part, c ∈ l) ∧ sep ∉ part := by
  induction l generalizing part with
  | nil =>
    rw [splitOn_nil, mem_singleton] at h
    simp [h]
  | cons a l ih =>
    rw [splitOn, splitOnP_cons_eq_if_modifyHead] at h
    split at h
    · rcases mem_cons.mp h with rfl | h
      · simp
      · exact ⟨fun c hc => mem_cons_of_mem a ((ih h).1 c hc), (ih h).2⟩
    rename_i ha
    obtain ⟨t, rest, ht⟩ := exists_cons_of_ne_nil (splitOn_ne_nil sep l)
    rw [splitOn] at ht
    rw [ht, modifyHead_cons] at h
    have ih' (s : List α) (hs : s ∈ t :: rest) : (∀ c ∈ s, c ∈ l) ∧ sep ∉ s :=
      ih (by rw [splitOn, ht]; exact hs)
    rcases mem_cons.mp h with rfl | h
    · have := ih' t (by simp)
      grind
    · have := ih' part (by simp [h])
      grind

omit [DecidableEq α] in
theorem intercalate_append {a b : List (List α)} (ha : a ≠ []) (hb : b ≠ []) :
    [sep].intercalate (a ++ b) = [sep].intercalate a ++ sep :: [sep].intercalate b := by
  obtain ⟨t, b, rfl⟩ := exists_cons_of_ne_nil hb
  induction a with
  | nil => exact absurd rfl ha
  | cons s a ih =>
    cases a with
    | nil => simp [intercalate]
    | cons s' a =>
      have rest := ih (by simp)
      simp only [intercalate, cons_append, intersperse_cons_cons,
        flatten_cons] at rest ⊢
      simp [rest]

end ApiLoad.Foundation.Splitting
