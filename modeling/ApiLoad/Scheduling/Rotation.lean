import ApiLoad.Scheduling.Checkpoint

/-!
# The rotation of models

What a publication leaves in the cursors of the models, what a selection of a model changes there,
and what a restored checkpoint puts back. A cursor lists the configured models of its key, each
once.
-/
namespace ApiLoad.Scheduling
open Std (ExtTreeMap)
open Foundation State OrderedMap List

namespace SchedulingLedger

/-! ## Orders -/

variable {wanted : String → Bool}

variable {order models configured previous : List String}

theorem mem_appendNew :
    x ∈ appendNew wanted order models ↔ x ∈ order ∨ (x ∈ models ∧ wanted x = true) := by
  induction models generalizing order with
  | nil => simp [appendNew]
  | cons model models ih =>
    rw [appendNew, foldl_cons, ← appendNew, ih]
    grind

theorem nodup_appendNew (models : List String) (h : order.Nodup) :
    (appendNew wanted order models).Nodup := by
  induction models generalizing order with
  | nil => exact h
  | cons model models ih =>
    rw [appendNew, foldl_cons, ← appendNew]
    apply ih
    split
    · next hn =>
      rw [nodup_append]
      refine ⟨h, nodup_singleton _, fun a ha b hb hab => ?_⟩
      rw [mem_singleton.mp hb] at hab
      exact hn.2 (hab ▸ ha)
    · exact h

theorem appendNew_listed (h : ∀ x ∈ models, x ∈ order) : appendNew wanted order models = order := by
  induction models with
  | nil => rfl
  | cons model models ih =>
    rw [appendNew, foldl_cons, ← appendNew, if_neg fun hn => hn.2 (h model (by simp))]
    exact ih fun x hx => h x (by simp [hx])

theorem appendNew_fresh (nodup : (order ++ models).Nodup) (h : ∀ x ∈ models, wanted x = true) :
    appendNew wanted order models = order ++ models := by
  induction models generalizing order with
  | nil => simp [appendNew]
  | cons model models ih =>
    have absent : model ∉ order := fun hm => by
      rw [nodup_append] at nodup
      exact nodup.2.2 model hm model (by simp) rfl
    rw [appendNew, foldl_cons, ← appendNew, if_pos ⟨h model (by simp), absent⟩,
      ih (by simpa using nodup) fun x hx => h x (by simp [hx])]
    simp

theorem mem_reconcileModelOrder : x ∈ reconcileModelOrder previous configured ↔ x ∈ configured := by
  simp only [reconcileModelOrder, mem_appendNew, decide_eq_true_eq]
  grind

theorem nodup_reconcileModelOrder (previous configured : List String) :
    (reconcileModelOrder previous configured).Nodup :=
  nodup_appendNew _ (nodup_appendNew _ nodup_nil)

/-- A rotation of the configured models survives its reconciliation with them. -/
theorem reconcileModelOrder_same (nodup : previous.Nodup) (h : ∀ x, x ∈ previous ↔ x ∈ configured) :
    reconcileModelOrder previous configured = previous := by
  have kept : appendNew (· ∈ configured) [] previous = previous :=
    appendNew_fresh nodup fun x hx => decide_eq_true ((h x).mp hx)
  rw [reconcileModelOrder, kept]
  exact appendNew_listed fun x hx => (h x).mpr hx

/-! ## Publications -/

variable {snapshot : ConfigSnapshot} {key : GroupModelKey} {d : SchedulingLedger}

def namedModels (snapshot : ConfigSnapshot) : List (GroupModelKey × List String) :=
  snapshot.groups.toList.flatMap fun group =>
    (modelsByName group.2.models).toList.map fun named => (⟨group.1, named.1⟩, named.2)

/-- The upstream models that a publication configures under a key. -/
def configuredModels (snapshot : ConfigSnapshot) (key : GroupModelKey) : List String :=
  (snapshot.groups[key.groupID]?.bind fun group =>
    (modelsByName group.models)[key.externalModel]?).getD []

theorem mem_namedModels :
    (key, models) ∈ namedModels snapshot ↔
      (snapshot.groups[key.groupID]?.bind fun group =>
        (modelsByName group.models)[key.externalModel]?) = some models := by
  simp only [namedModels, mem_flatMap, mem_map, Option.bind_eq_some_iff, Prod.mk.injEq]
  constructor
  · rintro ⟨group, hgroup, named, hnamed, rfl, rfl⟩
    exact ⟨group.2, lookup_of_mem_toList hgroup, lookup_of_mem_toList hnamed⟩
  rintro ⟨group, hgroup, hmodels⟩
  exact ⟨(key.groupID, group), mem_toList_of_lookup hgroup,
    (key.externalModel, models), mem_toList_of_lookup hmodels, rfl, rfl⟩

theorem nodup_namedModels (snapshot : ConfigSnapshot) :
    ((namedModels snapshot).map Prod.fst).Nodup := by
  rw [namedModels, map_flatMap, nodup_flatMap]
  constructor
  · intro group _
    have := nodup_keys_toList (modelsByName group.2.models)
    have inj : Function.Injective fun name => (⟨group.1, name⟩ : GroupModelKey) :=
      fun _ _ h => congrArg GroupModelKey.externalModel h
    have := this.map inj
    rw [map_map] at this ⊢
    exact this
  · have := nodup_keys_toList snapshot.groups
    rw [List.Nodup, pairwise_map] at this
    refine this.imp fun hne => ?_
    rw [Function.onFun, disjoint_left]
    intro key ha hb
    simp only [map_map, mem_map, Function.comp_apply] at ha hb
    obtain ⟨_, -, rfl⟩ := ha
    obtain ⟨_, -, hb⟩ := hb
    exact hne (congrArg GroupModelKey.groupID hb).symm

/-- The cursors that a publication leaves. -/
theorem syncModelCursors_eq (d : SchedulingLedger) (snapshot : ConfigSnapshot) :
    (d.syncModelCursors snapshot).modelCursors =
      insertWhere (fun e => 1 < e.2.length)
        (fun e => reconcileModelOrder (d.modelCursors[e.1]?.getD []) (e.2.insertionSort (· ≤ ·)))
        (d.modelCursors.filter fun key _ =>
          (snapshot.groupCatalog[key.groupID]?.map fun group => !group.enabled).getD false)
        (namedModels snapshot) := by
  rw [namedModels, insertWhere_flatMap]
  simp only [insertWhere, foldl_map]
  rfl

/-- The groups that are compiled and enabled route their models. -/
def Compiled (snapshot : ConfigSnapshot) (key : GroupModelKey) : Prop :=
  (snapshot.groups[key.groupID]?).isSome ∧
    ∃ group, snapshot.groupCatalog[key.groupID]? = some group ∧ group.enabled = true

/-- What a publication says about the cursor of a key: with several models it lists each of them
once, otherwise there is none. -/
def CursorFits (snapshot : ConfigSnapshot) (key : GroupModelKey) (cursor : Option (List String)) :
    Prop :=
  if 1 < (configuredModels snapshot key).length then
    ∃ order, cursor = some order ∧ order.Nodup ∧
      ∀ x, x ∈ order ↔ x ∈ configuredModels snapshot key
  else cursor = none

theorem syncModelCursors_fits (d : SchedulingLedger) (h : Compiled snapshot key) :
    CursorFits snapshot key (d.syncModelCursors snapshot).modelCursors[key]? := by
  obtain ⟨-, group, hgroup, henabled⟩ := h
  have dropped : (d.modelCursors.filter fun key _ =>
      (snapshot.groupCatalog[key.groupID]?.map fun group => !group.enabled).getD false)[key]? =
        none := by
    rw [lookup_filter]
    cases d.modelCursors[key]? <;> simp [hgroup, henabled]
  rw [syncModelCursors_eq]
  cases hmodels : (snapshot.groups[key.groupID]?.bind fun group =>
      (modelsByName group.models)[key.externalModel]?) with
  | none =>
    have absent : key ∉ (namedModels snapshot).map Prod.fst := by
      rintro hmem
      obtain ⟨⟨_, models⟩, hnamed, rfl⟩ := mem_map.mp hmem
      rw [mem_namedModels.mp hnamed] at hmodels
      cases hmodels
    rw [lookup_insertWhere_absent _ _ absent, dropped]
    simp [CursorFits, configuredModels, hmodels]
  | some models =>
    have configured : configuredModels snapshot key = models := by
      rw [configuredModels, hmodels, Option.getD_some]
    rw [lookup_insertWhere _ _ (nodup_namedModels snapshot)
      (mem_namedModels.mpr hmodels), dropped, CursorFits, configured]
    by_cases hmany : 1 < models.length
    · rw [if_pos hmany, if_pos hmany]
      refine ⟨_, rfl, nodup_reconcileModelOrder _ _, fun x => ?_⟩
      rw [mem_reconcileModelOrder, (perm_insertionSort _ _).mem_iff]
    · rw [if_neg hmany, if_neg hmany]

theorem selectModel_fits (h : CursorFits snapshot key d.modelCursors[key]?) (groupID : Nat)
    (externalModel : String) (models : List String) :
    CursorFits snapshot key (d.selectModel groupID externalModel models).1.modelCursors[key]? := by
  unfold selectModel
  split
  · exact h
  dsimp only
  split
  · exact h
  next model hmodel =>
  rw [lookup_insert]
  split
  swap
  · exact h
  next hkey =>
  have hmem := mem_of_find?_eq_some hmodel
  rw [hkey] at hmem ⊢
  unfold CursorFits at h ⊢
  split at h
  · next hmany =>
    obtain ⟨order, horder, nodup, hsame⟩ := h
    rw [horder, Option.getD_some] at hmem ⊢
    -- The chosen model only moves to the end.
    have perm : (order.erase model ++ [model]).Perm order :=
      perm_append_singleton _ _ |>.trans (perm_cons_erase hmem).symm
    rw [if_pos hmany]
    exact ⟨_, rfl, perm.nodup_iff.mpr nodup, fun x => perm.mem_iff.trans (hsame x)⟩
  · rw [h] at hmem
    simp at hmem

/-! ## Restored cursors -/

theorem restoreCursor_lookup (d : SchedulingLedger) (saved : ModelCursorCheckpoint)
    (key : GroupModelKey) : (d.restoreCursor saved).modelCursors[key]? =
      if ⟨saved.groupID, saved.externalModel⟩ = key then
        d.modelCursors[key]?.map (reconcileModelOrder saved.order)
      else d.modelCursors[key]? := by
  unfold restoreCursor
  dsimp only
  cases hc : d.modelCursors[(⟨saved.groupID, saved.externalModel⟩ : GroupModelKey)]? with
  | none => grind
  | some configured =>
    rw [lookup_insert]
    grind

theorem restoreCursors_none (saved : List ModelCursorCheckpoint) (h : d.modelCursors[key]? = none) :
    (saved.foldl restoreCursor d).modelCursors[key]? = none := by
  induction saved generalizing d with
  | nil => exact h
  | cons s saved ih =>
    apply ih
    rw [restoreCursor_lookup, h]
    simp

theorem restoreCursors_some {saved : List ModelCursorCheckpoint}
    (h : d.modelCursors[key]? = some configured) (nodup : order.Nodup)
    (same : ∀ x, x ∈ order ↔ x ∈ configured)
    (unique : ∀ s ∈ saved, (⟨s.groupID, s.externalModel⟩ : GroupModelKey) = key → s.order = order)
    (listed : ⟨key.groupID, key.externalModel, order⟩ ∈ saved) :
    (saved.foldl restoreCursor d).modelCursors[key]? = some order := by
  -- Once the saved order is in place, restoring it again leaves it.
  have kept (saved : List ModelCursorCheckpoint) (d : SchedulingLedger)
      (unique : ∀ s ∈ saved, (⟨s.groupID, s.externalModel⟩ : GroupModelKey) = key →
        s.order = order) (h : d.modelCursors[key]? = some order) :
      (saved.foldl restoreCursor d).modelCursors[key]? = some order := by
    induction saved generalizing d with
    | nil => exact h
    | cons s saved ih =>
      apply ih _ fun s hs => unique s (by simp [hs])
      rw [restoreCursor_lookup, h]
      split
      · next hkey =>
        rw [unique s (by simp) hkey, Option.map_some,
          reconcileModelOrder_same nodup fun _ => Iff.rfl]
      · rfl
  induction saved generalizing d with
  | nil => simp at listed
  | cons s saved ih =>
    rw [foldl_cons]
    by_cases hkey : (⟨s.groupID, s.externalModel⟩ : GroupModelKey) = key
    · apply kept _ _ fun s hs => unique s (by simp [hs])
      rw [restoreCursor_lookup, if_pos hkey, h, Option.map_some, unique s (by simp) hkey,
        reconcileModelOrder_same nodup same]
    refine ih ?_ (fun s hs => unique s (by simp [hs])) ?_
    · rw [restoreCursor_lookup, if_neg hkey, h]
    rcases mem_cons.mp listed with he | hm
    · rw [← he] at hkey
      exact absurd rfl hkey
    · exact hm

theorem mem_captureCursors :
    s ∈ d.captureCheckpoint.modelCursors ↔
      d.modelCursors[(⟨s.groupID, s.externalModel⟩ : GroupModelKey)]? = some s.order ∧
        s.order ≠ [] := by
  simp only [captureCheckpoint, (perm_insertionSort _ _).mem_iff, mem_map,
    mem_filter, decide_eq_true_eq, Prod.exists]
  constructor
  · rintro ⟨key, order, ⟨hmem, hne⟩, rfl⟩
    exact ⟨lookup_of_mem_toList hmem, hne⟩
  · rintro ⟨hlookup, hne⟩
    exact ⟨_, _, ⟨mem_toList_of_lookup hlookup, hne⟩, rfl⟩

end SchedulingLedger
end ApiLoad.Scheduling
