import ApiLoad.Registry.Run

/-!
# What an operation does to one credential

The entry of one credential after a change in place or a reconciliation of its group, in terms of
the entry before.
-/
namespace ApiLoad.Registry
open Std Foundation Text Scheduling CredentialRegistry

variable {r r' : CredentialRegistry} {clock : Clock} {id : Nat}

/-- The registry stands for a map from credentials to entries. -/
def Coherent (r : CredentialRegistry) : Prop := ∃ f, Represents none r f

theorem Coherent.perform (h : Coherent r) (clock : Clock) (call : Call) :
    Coherent (call.perform r clock).1 := by
  obtain ⟨f, hf⟩ := h
  obtain ⟨f', hf', -⟩ := hf.perform clock call
  exact ⟨f', hf'⟩

/-- The bucket of a group holds no entry that the index does not know. -/
theorem Coherent.entryLocked_of_bucket (h : Coherent r)
    (hin : (r.bucket groupID)[id]? = some entry) :
    r.entryLocked id = some entry := by
  obtain ⟨f, hf⟩ := h
  rw [hf.entryLocked]
  exact ((hf.entries groupID id entry).mp hin).1

/-! ## Changes in place -/

section

variable {reported : Bool} {change : CredentialEntry → Option CredentialEntry}

theorem entryLocked_changeEntry (h : r.changeEntry clock reported id change = some r') :
    ∃ entry entry', r.entryLocked id = some entry ∧ change entry = some entry' ∧
      r'.entryLocked id = some entry' := by
  simp only [changeEntry, Option.bind_eq_some_iff, Option.map_eq_some_iff] at h
  obtain ⟨groupID, hgroup, entry, hentry, entry', hchange, rfl⟩ := h
  refine ⟨entry, entry', by simp [entryLocked, hgroup, hentry], hchange, ?_⟩
  have hstored : (r.store groupID id entry').entryLocked id = some entry' := by
    have hindex : (r.store groupID id entry').credentialGroups[id]? = some groupID := hgroup
    simp [entryLocked, hindex, entryIn_store]
  cases reported <;> exact hstored

theorem credentialGroups_changeEntry (h : r.changeEntry clock reported id change = some r') :
    r'.credentialGroups = r.credentialGroups := by
  simp only [changeEntry, Option.bind_eq_some_iff, Option.map_eq_some_iff] at h
  obtain ⟨groupID, -, entry, -, entry', -, rfl⟩ := h
  cases reported <;> rfl

theorem changeEntry_eq_none (h : r.changeEntry clock reported id change = none) :
    ∀ entry, r.entryLocked id = some entry → change entry = none := by
  intro entry hentry
  simp only [entryLocked, Option.bind_eq_some_iff] at hentry
  obtain ⟨groupID, hgroup, hin⟩ := hentry
  simpa [changeEntry, hgroup, hin] using h

/-- An operation that changes the entry in place, or nothing at all. -/
theorem entryLocked_orUnchanged :
    (r.orUnchanged (r.changeEntry clock reported id change)).1.entryLocked id = r.entryLocked id ∨
      ∃ entry entry', r.entryLocked id = some entry ∧ change entry = some entry' ∧
        (r.orUnchanged (r.changeEntry clock reported id change)).1.entryLocked id =
          some entry' := by
  cases hchanged : r.changeEntry clock reported id change with
  | none => exact .inl rfl
  | some r' => exact .inr (entryLocked_changeEntry hchanged)

end

/-! ## Reconciliation -/

theorem validateGroupEntries_eq_ok_iff : validateGroupEntries groupID entries = .ok () ↔
    validateCredentialEntries entries = .ok () ∧ ∀ entry ∈ entries, entry.groupID = groupID := by
  unfold validateGroupEntries
  cases validateCredentialEntries entries with
  | error e => simp
  | ok =>
    cases hfind : entries.find? fun entry => entry.groupID ≠ groupID with
    | none => simpa using hfind
    | some entry =>
      have hlisted := List.mem_of_find?_eq_some hfind
      have hother : entry.groupID ≠ groupID := by simpa using List.find?_some hfind
      simpa using ⟨entry, hlisted, hother⟩

theorem checkOwnership_eq_ok_iff : r.checkOwnership groupID entries = .ok () ↔
    ∀ entry ∈ entries, ∀ g, r.credentialGroups[entry.id]? = some g → g = groupID := by
  unfold checkOwnership
  cases hfind : entries.findSome? fun entry =>
      (r.credentialGroups[entry.id]?.filter (· ≠ groupID)).map fun existing =>
        (entry, existing) with
  | none =>
    simp only [List.findSome?_eq_none_iff, Option.map_eq_none_iff,
      Option.filter_eq_none_iff] at hfind
    simpa using hfind
  | some found =>
    obtain ⟨entry, hlisted, hfound⟩ := List.exists_of_findSome?_eq_some hfind
    simp only [Option.map_eq_some_iff, Option.filter_eq_some_iff] at hfound
    obtain ⟨g, ⟨hg, hother⟩, -⟩ := hfound
    simpa using ⟨entry, hlisted, g, hg, by simpa using hother⟩

/-- A reconciliation is refused for what is listed, or because another group owns a credential. -/
theorem reconcileGroup_ok_iff :
    (∃ r' changed, r.reconcileGroup clock groupID entries = (r', .ok changed)) ↔
      groupID ≠ 0 ∧ validateCredentialEntries entries = .ok () ∧
        (∀ entry ∈ entries, entry.groupID = groupID) ∧
        ∀ entry ∈ entries, ∀ g, r.credentialGroups[entry.id]? = some g → g = groupID := by
  rw [← checkOwnership_eq_ok_iff, ← and_assoc (c := r.checkOwnership groupID entries = .ok ()),
    ← validateGroupEntries_eq_ok_iff]
  unfold reconcileGroup
  by_cases hgroup : groupID = 0
  · simp [hgroup]
  cases validateGroupEntries groupID entries with
  | error e => simp [hgroup]
  | ok =>
    cases r.checkOwnership groupID entries with
    | error e => simp [hgroup]
    | ok =>
      simp only [hgroup, if_false]
      split <;> simpa using hgroup

/-- The authorization state after a reconciliation: an entry with the listed configuration keeps its
own. -/
def reconciledAuthState (existing : Option CredentialEntry) (desired : CredentialEntry) :
    CredentialAuthState :=
  match existing with
  | some existing =>
    if samePersistedCredentialConfig existing desired then existing.authState
    else desired.authState
  | none => desired.authState

theorem reconciled_authState {previous : ExtTreeMap Nat CredentialEntry}
    {desired : CredentialEntry} : (reconciled previous desired).authState =
      reconciledAuthState previous[desired.id]? desired := by
  unfold reconciled reconciledAuthState
  cases previous[desired.id]? with
  | none => rfl
  | some existing =>
    dsimp only
    split
    · rfl
    · unfold preserveModelCooldowns
      dsimp only
      split <;> rfl

theorem reconciled_version {previous : ExtTreeMap Nat CredentialEntry} {desired : CredentialEntry} :
    (reconciled previous desired).version = desired.version := by
  unfold reconciled
  split
  swap
  · rfl
  split
  · rename_i hsame
    simp only [samePersistedCredentialConfig, Bool.and_eq_true, decide_eq_true_eq] at hsame
    exact hsame.1.1.1.1.1.1.1.2
  unfold preserveModelCooldowns
  dsimp only
  split <;> rfl

/-- An entry of another group does not have the listed configuration. -/
theorem Coherent.reconciledAuthState_bucket (h : Coherent r) (hgroup : desired.groupID = groupID) :
    reconciledAuthState (r.bucket groupID)[desired.id]? desired =
      reconciledAuthState (r.entryLocked desired.id) desired := by
  obtain ⟨f, hf⟩ := h
  have hbucket : (r.bucket groupID)[desired.id]? = (f desired.id).filter (·.groupID = groupID) :=
    hf.entryIn groupID desired.id
  rw [hbucket, hf.entryLocked]
  cases f desired.id with
  | none => rfl
  | some existing =>
    rw [Option.filter_some]
    by_cases hother : existing.groupID = groupID
    · simp [hother]
    · have hdiffers : samePersistedCredentialConfig existing desired = false := by
        simp [samePersistedCredentialConfig, hgroup, hother]
      simp [reconciledAuthState, hother, hdiffers]

/-- What a reconciliation that goes through leaves of a listed credential. -/
theorem Coherent.reconcileGroup_listed (h : Coherent r)
    (hok : r.reconcileGroup clock groupID entries = (r', .ok changed))
    (hlisted : desired ∈ entries) :
    ∃ entry, r'.entryLocked desired.id = some entry ∧ entry.version = desired.version ∧
      entry.authState = reconciledAuthState (r.entryLocked desired.id) desired := by
  unfold reconcileGroup at hok
  split at hok
  · cases hok
  split at hok
  · cases hok
  · cases hok
  rename_i hvalid howned
  obtain ⟨nodup, hgroup⟩ := validateGroupEntries_ok hvalid
  split at hok
  · -- The group matches: the listed credential is there as it is listed.
    rename_i hmatch
    cases hok
    simp only [matchesGroupLocked, Bool.and_eq_true, List.all_eq_true,
      Option.any_eq_true] at hmatch
    obtain ⟨existing, hexisting, -, hsame⟩ := hmatch.2 desired hlisted
    have hlocked := h.entryLocked_of_bucket hexisting
    refine ⟨existing, hlocked, ?_, by simp [reconciledAuthState, hlocked, hsame]⟩
    simp only [samePersistedCredentialConfig, Bool.and_eq_true, decide_eq_true_eq] at hsame
    exact hsame.1.1.1.1.1.1.1.2
  · cases hok
    have hnext : (entries.foldl (fun next desired =>
        next.insert desired.id (reconciled (r.bucket groupID) desired))
        (∅ : ExtTreeMap Nat CredentialEntry))[desired.id]? =
          some (reconciled (r.bucket groupID) desired) := by
      rw [OrderedMap.lookup_insertEach nodup]
      have hfind : entries.find? (fun entry => decide (entry.id = desired.id)) = some desired :=
        (KeyedList.find_eq_some nodup).mpr ⟨hlisted, rfl⟩
      simp [hfind]
    refine ⟨reconciled (r.bucket groupID) desired, ?_, reconciled_version, ?_⟩
    · unfold entryLocked
      rw [show ((r.installBucket groupID _).syncSchedulingGroupLocked clock
          groupID).credentialGroups[desired.id]? = some groupID by
        rw [show ∀ s : CredentialRegistry, (s.syncSchedulingGroupLocked clock
            groupID).credentialGroups = s.credentialGroups from fun _ => rfl]
        simp [lookup_installBucket, hnext]]
      show ((r.installBucket groupID _).bucket groupID)[desired.id]? = _
      simp [bucket_installBucket, hnext]
    · rw [reconciled_authState, h.reconciledAuthState_bucket (hgroup desired hlisted)]

end ApiLoad.Registry
