import ApiLoad.Foundation.KeyedList

/-!
# Lookup laws of extensional ordered maps

`Std.ExtTreeMap` states its lookup laws with the comparison of the keys. For a lawful comparison
two keys compare equal exactly when they are equal, and the laws read as updates of a partial
function. Building a map from an association list with distinct keys is inverse to listing it.
-/
namespace ApiLoad.Foundation
open Std List

variable {α β γ : Type*} [Ord α] [TransOrd α] [LawfulEqOrd α]

namespace OrderedMap

@[simp] theorem lookup_insert [DecidableEq α] (m : ExtTreeMap α β) (k a : α) (v : β) :
    (m.insert k v)[a]? = if k = a then some v else m[a]? := by
  rw [ExtTreeMap.getElem?_insert]
  simp only [LawfulEqOrd.compare_eq_iff_eq]

@[simp] theorem lookup_erase [DecidableEq α] (m : ExtTreeMap α β) (k a : α) :
    (m.erase k)[a]? = if k = a then none else m[a]? := by
  rw [ExtTreeMap.getElem?_erase]
  simp only [LawfulEqOrd.compare_eq_iff_eq]

@[simp] theorem lookup_filter (m : ExtTreeMap α β) (f : α → β → Bool) (a : α) :
    (m.filter f)[a]? = m[a]?.filter (f a) := by
  rw [ExtTreeMap.getElem?_filter']

variable {m : ExtTreeMap α β} {l : List (α × β)} {f : α → β → Except ε γ} {m' : ExtTreeMap α γ}

/-- Every entry of a listed map is found under its key. -/
theorem lookup_of_mem_toList (h : (k, v) ∈ m.toList) :
    m[k]? = some v := ExtTreeMap.mem_toList_iff_getElem?_eq_some.mp h

theorem mem_toList_of_lookup (h : m[k]? = some v) :
    (k, v) ∈ m.toList := ExtTreeMap.mem_toList_iff_getElem?_eq_some.mpr h

theorem nodup_keys_toList (m : ExtTreeMap α β) : (m.toList.map Prod.fst).Nodup := by
  have distinct := ExtTreeMap.distinct_keys_toList (t := m)
  rw [List.Nodup, pairwise_map]
  exact distinct.imp fun h he => h (LawfulEqOrd.compare_eq_iff_eq.mpr he)

/-- In an association list with distinct keys, `ofList` finds exactly the listed entries. -/
theorem lookup_ofList [DecidableEq α] (nodup : (l.map Prod.fst).Nodup) (k : α) (v : β) :
    (ExtTreeMap.ofList l)[k]? = some v ↔ (k, v) ∈ l := by
  induction l using reverseRecOn with
  | nil => simp
  | append_singleton l e ih =>
    obtain ⟨a, b⟩ := e
    rw [map_append, nodup_append] at nodup
    rw [ExtTreeMap.ofList_eq_foldl, foldl_append, foldl_cons, foldl_nil,
      ← ExtTreeMap.ofList_eq_foldl, lookup_insert, mem_append, mem_singleton]
    by_cases he : a = k
    · subst he
      have absent : (a, v) ∉ l := fun hm =>
        nodup.2.2 a (mem_map_of_mem hm) a (by simp) rfl
      simp [absent, eq_comm]
    · simp [he, ih nodup.1, Ne.symm he]

/-- Elements with distinct keys are inserted one after the other. -/
theorem lookup_insertEach [DecidableEq α] {δ : Type*} {key : δ → α} {value : δ → β} {l : List δ}
    (nodup : (l.map key).Nodup) (m : ExtTreeMap α β) (k : α) :
    (l.foldl (fun m a => m.insert (key a) (value a)) m)[k]? =
      ((l.find? (key · = k)).map value).or m[k]? := by
  induction l generalizing m with
  | nil => rfl
  | cons a l ih =>
    rw [foldl_cons, ih (nodup_cons.mp nodup).2, lookup_insert, find?_cons]
    by_cases hk : key a = k
    · simp [hk, KeyedList.find_tail nodup hk]
    · simp [hk]

/-- Of several elements with one key the first is kept, and none if the map has the key. -/
theorem lookup_insertNewEach [DecidableEq α] {δ : Type*} {key : δ → α} {value : δ → β} (l : List δ)
    (m : ExtTreeMap α β) (k : α) :
    (l.foldl (fun m a => m.insertIfNew (key a) (value a)) m)[k]? =
      m[k]?.or ((l.find? (key · = k)).map value) := by
  induction l generalizing m with
  | nil => simp
  | cons a l ih =>
    rw [foldl_cons, ih, ExtTreeMap.getElem?_insertIfNew, find?_cons]
    simp only [LawfulEqOrd.compare_eq_iff_eq, ExtTreeMap.mem_iff_isSome_getElem?]
    by_cases hk : key a = k
    · subst hk
      cases m[key a]? <;> simp
    · simp [hk]

/-- The entries of one map replace those of another. -/
theorem lookup_insertAll [DecidableEq α] (m n : ExtTreeMap α β) (k : α) :
    (m.toList.foldl (fun n e => n.insert e.1 e.2) n)[k]? = m[k]?.or n[k]? := by
  rw [lookup_insertEach (nodup_keys_toList m)]
  congr 1
  ext v
  rw [Option.map_eq_some_iff]
  constructor
  · rintro ⟨e, he, rfl⟩
    obtain ⟨hm, rfl⟩ := (KeyedList.find_eq_some (nodup_keys_toList m)).mp he
    exact lookup_of_mem_toList hm
  intro hv
  exact ⟨(k, v), (KeyedList.find_eq_some (nodup_keys_toList m)).mpr
    ⟨mem_toList_of_lookup hv, rfl⟩, rfl⟩

theorem lookup_eraseEach [DecidableEq α] (l : List α) (m : ExtTreeMap α β) (k : α) :
    (l.foldl (fun m a => m.erase a) m)[k]? = if k ∈ l then none else m[k]? := by
  induction l generalizing m with
  | nil => simp
  | cons a l ih =>
    rw [foldl_cons, ih, lookup_erase]
    grind

theorem lookup_insertKeys [DecidableEq α] (l : List α) (v : β) (m : ExtTreeMap α β) (k : α) :
    (l.foldl (fun m a => m.insert a v) m)[k]? = if k ∈ l then some v else m[k]? := by
  induction l generalizing m with
  | nil => simp
  | cons a l ih =>
    rw [foldl_cons, ih, lookup_insert]
    grind

theorem mem_keys_iff : k ∈ m.keys ↔ m[k]?.isSome := by
  rw [ExtTreeMap.mem_keys, ExtTreeMap.mem_iff_isSome_getElem?]

/-- The entries of a rebuilt map under a change of values that keeps the keys. -/
theorem lookup_ofList_map [DecidableEq α] (m : ExtTreeMap α β) (f : α → β → γ) (k : α) :
    (ExtTreeMap.ofList (m.toList.map fun e => (e.1, f e.1 e.2)))[k]? = m[k]?.map (f k) := by
  have nodup : ((m.toList.map fun e => (e.1, f e.1 e.2)).map Prod.fst).Nodup := by
    rw [map_map]
    exact nodup_keys_toList m
  ext v
  rw [lookup_ofList nodup]
  simp only [mem_map, Prod.mk.injEq, Option.map_eq_some_iff]
  constructor
  · rintro ⟨⟨a, b⟩, hm, rfl, rfl⟩
    exact ⟨b, lookup_of_mem_toList hm, rfl⟩
  · rintro ⟨b, hb, rfl⟩
    exact ⟨(k, b), mem_toList_of_lookup hb, rfl, rfl⟩

/-! ## Conditional insertions -/

section InsertWhere

variable [DecidableEq α] (p : α × γ → Prop) [DecidablePred p] (f : α × γ → β)

/-- A loop that inserts a value for every listed entry with a property. -/
def insertWhere (m : ExtTreeMap α β) (l : List (α × γ)) : ExtTreeMap α β :=
  l.foldl (fun m e => if p e then m.insert e.1 (f e) else m) m

omit [LawfulEqOrd α] [DecidableEq α] in
theorem insertWhere_flatMap {δ : Type*} (m : ExtTreeMap α β) (l : List δ)
    (entries : δ → List (α × γ)) :
    insertWhere p f m (l.flatMap entries) =
      l.foldl (fun m x => insertWhere p f m (entries x)) m := by
  rw [insertWhere, foldl_flatMap]
  rfl

variable {l : List (α × γ)}

theorem lookup_insertWhere_absent (h : k ∉ l.map Prod.fst) (m : ExtTreeMap α β) :
    (insertWhere p f m l)[k]? = m[k]? := by
  induction l generalizing m with
  | nil => rfl
  | cons e l ih =>
    rw [map_cons, mem_cons, not_or] at h
    rw [insertWhere, foldl_cons, ← insertWhere, ih h.2]
    split
    · rw [lookup_insert, if_neg (Ne.symm h.1)]
    · rfl

theorem lookup_insertWhere (nodup : (l.map Prod.fst).Nodup) (he : e ∈ l) (m : ExtTreeMap α β) :
    (insertWhere p f m l)[e.1]? = if p e then some (f e) else m[e.1]? := by
  induction l generalizing m with
  | nil => simp at he
  | cons e' l ih =>
    rw [map_cons, nodup_cons] at nodup
    rw [insertWhere, foldl_cons, ← insertWhere]
    rcases mem_cons.mp he with rfl | he
    · rw [lookup_insertWhere_absent p f nodup.1]
      split
      · rw [lookup_insert, if_pos rfl]
      · rfl
    have hne : e'.1 ≠ e.1 := fun h => nodup.1 (h ▸ mem_map_of_mem he)
    rw [ih nodup.2 he]
    congr 1
    split
    · rw [lookup_insert, if_neg hne]
    · rfl

end InsertWhere

/-! ## Fallible maps -/

variable {ε : Type*}

/-- Apply a fallible function to every value of an association list, left to right, stopping at
the first error. -/
def traverseValues (f : α → β → Except ε γ) : List (α × β) → Except ε (List (α × γ))
  | [] => .ok []
  | (k, v) :: rest =>
    match f k v with
    | .error e => .error e
    | .ok w =>
      match traverseValues f rest with
      | .error e => .error e
      | .ok ws => .ok ((k, w) :: ws)

/-- `traverseValues` over the entries of a map, in key order. -/
def traverse (f : α → β → Except ε γ) (m : ExtTreeMap α β) : Except ε (ExtTreeMap α γ) :=
  match traverseValues f m.toList with
  | .error e => .error e
  | .ok entries => .ok (ExtTreeMap.ofList entries)

omit [Ord α] [TransOrd α] [LawfulEqOrd α] in
theorem traverseValues_ok (h : traverseValues f l = .ok l') :
    l'.map Prod.fst = l.map Prod.fst ∧
      (∀ k w, (k, w) ∈ l' → ∃ v, (k, v) ∈ l ∧ f k v = .ok w) ∧
      ∀ k v, (k, v) ∈ l → ∃ w, (k, w) ∈ l' ∧ f k v = .ok w := by
  induction l generalizing l' with
  | nil =>
    cases h
    simp
  | cons head rest ih =>
    obtain ⟨a, b⟩ := head
    rw [traverseValues] at h
    split at h
    · cases h
    next c hc =>
    split at h
    · cases h
    next ws hws =>
    cases h
    obtain ⟨keys, back, forth⟩ := ih hws
    refine ⟨by simp [keys], ?_, ?_⟩
    · intro k w hm
      rcases mem_cons.mp hm with he | hm
      · cases he
        exact ⟨b, mem_cons_self, hc⟩
      · obtain ⟨v, hv, hf⟩ := back k w hm
        exact ⟨v, mem_cons_of_mem _ hv, hf⟩
    · intro k v hm
      rcases mem_cons.mp hm with he | hm
      · cases he
        exact ⟨c, mem_cons_self, hc⟩
      · obtain ⟨w, hw, hf⟩ := forth k v hm
        exact ⟨w, mem_cons_of_mem _ hw, hf⟩

/-- A successful traversal keeps the keys and relates the values by the function. -/
theorem traverse_ok [DecidableEq α] (h : traverse f m = .ok m') (k : α) (w : γ) :
    m'[k]? = some w ↔ ∃ v, m[k]? = some v ∧ f k v = .ok w := by
  unfold traverse at h
  split at h
  · cases h
  next entries hok =>
  cases h
  obtain ⟨keys, back, forth⟩ := traverseValues_ok hok
  have nodup : (entries.map Prod.fst).Nodup := keys ▸ nodup_keys_toList m
  rw [lookup_ofList nodup]
  constructor
  · intro hm
    obtain ⟨v, hv, hf⟩ := back k w hm
    exact ⟨v, lookup_of_mem_toList hv, hf⟩
  rintro ⟨v, hv, hf⟩
  obtain ⟨w', hw', hf'⟩ := forth k v (mem_toList_of_lookup hv)
  rw [hf] at hf'
  cases hf'
  exact hw'

/-- A successful traversal has a value under every key of the source. -/
theorem traverse_mem [DecidableEq α] (h : traverse f m = .ok m') (k : α) :
    (∃ w, m'[k]? = some w) ↔ ∃ v, m[k]? = some v := by
  constructor
  · rintro ⟨w, hw⟩
    obtain ⟨v, hv, -⟩ := (traverse_ok h k w).mp hw
    exact ⟨v, hv⟩
  rintro ⟨v, hv⟩
  have hm := mem_toList_of_lookup hv
  unfold traverse at h
  split at h
  · cases h
  next entries hok =>
  cases h
  obtain ⟨keys, -, forth⟩ := traverseValues_ok hok
  obtain ⟨w, hw, -⟩ := forth k v hm
  exact ⟨w, (lookup_ofList (keys ▸ nodup_keys_toList m) k w).mpr hw⟩

end OrderedMap
end ApiLoad.Foundation
