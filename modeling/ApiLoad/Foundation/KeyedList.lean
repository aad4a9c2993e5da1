import Mathlib

/-!
# Lists with distinct keys

A list whose elements carry distinct keys is a finite map: a search by key finds exactly the
element with that key, in whatever order the list stands.
-/
namespace ApiLoad.Foundation.KeyedList
open List

variable {α κ : Type*} [DecidableEq κ] {key : α → κ} {l l' : List α}

theorem find_eq_some (nodup : (l.map key).Nodup) :
    l.find? (key · = k) = some a ↔ a ∈ l ∧ key a = k := by
  constructor
  · intro h
    exact ⟨mem_of_find?_eq_some h, by simpa using find?_some h⟩
  rintro ⟨hm, rfl⟩
  obtain ⟨b, hb⟩ := Option.isSome_iff_exists.mp
    (find?_isSome (p := fun x => decide (key x = key a)).mpr ⟨a, hm, by simp⟩)
  have same : key b = key a := by simpa using find?_some hb
  rw [hb, inj_on_of_nodup_map nodup (mem_of_find?_eq_some hb) hm same]

theorem find_perm (perm : l.Perm l') (nodup : (l.map key).Nodup) (k : κ) :
    l.find? (key · = k) = l'.find? (key · = k) := by
  have nodup' : (l'.map key).Nodup := (perm.map key).nodup_iff.mp nodup
  ext a
  rw [find_eq_some nodup, find_eq_some nodup', perm.mem_iff]

/-- A key occurs once, so it does not occur behind its element. -/
theorem find_tail (nodup : ((a :: l).map key).Nodup) (h : key a = k) :
    l.find? (key · = k) = none := by
  rw [map_cons, nodup_cons] at nodup
  rw [find?_eq_none]
  intro b hb hk
  have hk : key b = k := by simpa using hk
  exact nodup.1 (h ▸ hk ▸ mem_map_of_mem hb)

/-! ## First occurrences -/

/-- The elements whose key neither is seen already nor occurs earlier in the list. -/
def firsts (key : α → κ) (seen : List κ) : List α → List α
  | [] => []
  | a :: l => if key a ∈ seen then firsts key seen l else a :: firsts key (key a :: seen) l

theorem mem_of_mem_firsts (h : a ∈ firsts key seen l) : a ∈ l ∧ key a ∉ seen := by
  induction l generalizing seen with
  | nil => cases h
  | cons b l ih =>
    rw [firsts] at h
    split at h
    · exact ⟨mem_cons_of_mem _ (ih h).1, (ih h).2⟩
    rcases mem_cons.mp h with rfl | h
    · exact ⟨mem_cons_self, ‹_›⟩
    · exact ⟨mem_cons_of_mem _ (ih h).1, fun hs => (ih h).2 (mem_cons_of_mem _ hs)⟩

theorem nodup_firsts (key : α → κ) (seen : List κ) (l : List α) :
    ((firsts key seen l).map key).Nodup := by
  induction l generalizing seen with
  | nil => exact nodup_nil
  | cons a l ih =>
    rw [firsts]
    split
    · exact ih seen
    rw [map_cons, nodup_cons]
    refine ⟨fun hm => ?_, ih _⟩
    obtain ⟨b, hb, hkey⟩ := mem_map.mp hm
    exact (mem_of_mem_firsts hb).2 (hkey ▸ mem_cons_self)

theorem firsts_congr (h : ∀ k, k ∈ seen ↔ k ∈ seen') (l : List α) :
    firsts key seen l = firsts key seen' l := by
  induction l generalizing seen seen' with
  | nil => rfl
  | cons a l ih =>
    have hcons : ∀ k, k ∈ key a :: seen ↔ k ∈ key a :: seen' := by simp [h]
    simp only [firsts, h, ih h, ih hcons]

theorem firsts_append (seen : List κ) (l l' : List α) :
    firsts key seen (l ++ l') = firsts key seen l ++ firsts key (seen ++ l.map key) l' := by
  induction l generalizing seen with
  | nil => simp [firsts]
  | cons a l ih =>
    rw [cons_append, firsts, firsts, ih, ih]
    split
    · congr 1
      refine firsts_congr (fun k => ?_) l'
      grind
    rw [cons_append]
    congr 2
    refine firsts_congr (fun k => ?_) l'
    grind

/-- Among elements with distinct keys only the seen ones are left out. -/
theorem firsts_of_nodup (nodup : (l.map key).Nodup) (seen : List κ) :
    firsts key seen l = l.filter (key · ∉ seen) := by
  induction l generalizing seen with
  | nil => rfl
  | cons a l ih =>
    rw [map_cons, nodup_cons] at nodup
    rw [firsts, filter_cons, ih nodup.2, ih nodup.2]
    by_cases hs : key a ∈ seen
    · simp [hs]
    simp only [hs, if_false, not_false_eq_true, decide_true, if_true, cons.injEq, true_and]
    refine filter_congr fun b hb => ?_
    have hne : key b ≠ key a := fun he => nodup.1 (he ▸ mem_map_of_mem hb)
    simp [hne]

theorem filter_firsts (seen seen' : List κ) (l : List α) :
    (firsts key seen l).filter (key · ∉ seen') = firsts key (seen' ++ seen) l := by
  induction l generalizing seen with
  | nil => rfl
  | cons a l ih =>
    have hmove : firsts key (seen' ++ key a :: seen) l = firsts key (key a :: (seen' ++ seen)) l :=
      firsts_congr (by grind) l
    rw [firsts, firsts]
    by_cases hs : key a ∈ seen
    · rw [if_pos hs, if_pos (mem_append_right _ hs), ih]
    rw [if_neg hs, filter_cons, ih, hmove]
    by_cases hs' : key a ∈ seen'
    · simp only [hs', not_true_eq_false, decide_false, Bool.false_eq_true, if_false,
        mem_append, true_or, if_true]
      exact firsts_congr (by grind) l
    · simp [hs, hs']

end ApiLoad.Foundation.KeyedList
