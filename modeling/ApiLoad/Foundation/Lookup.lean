import Mathlib.Data.List.Nodup

/-!
# Association lists

The entries of an association list without repeated keys are found by their keys.
-/
namespace ApiLoad.Foundation
open List

theorem lookup_eq_some_iff {κ β : Type} [BEq κ] [LawfulBEq κ] {entries : List (κ × β)}
    (keys : (entries.map Prod.fst).Nodup) {key : κ} {value : β} :
    entries.lookup key = some value ↔ (key, value) ∈ entries := by
  induction entries with
  | nil => simp
  | cons entry entries ih =>
    obtain ⟨name, first⟩ := entry
    rw [map_cons, nodup_cons] at keys
    rw [lookup_cons, mem_cons, Prod.mk.injEq]
    by_cases same : key = name
    · subst same
      have absent : (key, value) ∉ entries :=
        fun mem => keys.1 (mem_map.mpr ⟨_, mem, rfl⟩)
      simp [absent, eq_comm]
    have differ : (key == name) = false := by simpa using same
    rw [differ]
    simp [same, ih keys.2]

section Assign

variable {κ β : Type} [DecidableEq κ]

def assign (entries : List (κ × β)) (key : κ) (value : β) : List (κ × β) :=
  match entries with
  | [] => [(key, value)]
  | (name, old) :: entries =>
    if name = key then (name, value) :: entries else (name, old) :: assign entries key value

theorem lookup_assign (entries : List (κ × β)) (key : κ) (value : β) (asked : κ) :
    (assign entries key value).lookup asked =
      if asked = key then some value else entries.lookup asked := by
  induction entries with
  | nil =>
    by_cases same : asked = key
    · simp [assign, same]
    · simp [assign, same, lookup_cons, beq_eq_false_iff_ne.mpr same]
  | cons entry entries ih =>
    obtain ⟨name, old⟩ := entry
    rw [assign]
    by_cases here : name = key
    · subst here
      by_cases same : asked = name
      · simp [same]
      · simp [same, lookup_cons, beq_eq_false_iff_ne.mpr same]
    rw [if_neg here, lookup_cons, lookup_cons, ih]
    by_cases same : asked = name
    · subst same
      simp [here]
    · simp [beq_eq_false_iff_ne.mpr same]

theorem mem_keys_assign {asked : κ} (mem : asked ∈ (assign entries key value).map Prod.fst) :
    asked = key ∨ asked ∈ entries.map Prod.fst := by
  induction entries with
  | nil => simpa [assign] using mem
  | cons entry entries ih =>
    obtain ⟨name, old⟩ := entry
    rw [assign] at mem
    split at mem
    · exact .inr mem
    rw [map_cons, mem_cons] at mem ⊢
    obtain rfl | later := mem
    · exact .inr (.inl rfl)
    obtain same | later := ih later
    · exact .inl same
    · exact .inr (.inr later)

theorem keys_assign {entries : List (κ × β)} (keys : (entries.map Prod.fst).Nodup) (key : κ)
    (value : β) : ((assign entries key value).map Prod.fst).Nodup := by
  induction entries with
  | nil => simp [assign]
  | cons entry entries ih =>
    obtain ⟨name, old⟩ := entry
    rw [assign]
    split
    · exact keys
    rename_i differ
    rw [map_cons, nodup_cons] at keys ⊢
    refine ⟨fun mem => ?_, ih keys.2⟩
    obtain same | later := mem_keys_assign mem
    · exact differ same
    · exact keys.1 later

end Assign

end ApiLoad.Foundation
