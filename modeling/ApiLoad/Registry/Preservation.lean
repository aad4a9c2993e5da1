import ApiLoad.Registry.Consistency

/-!
# Operations keep the registry consistent

The operations that replace, import, reconcile and remove entries, one lemma each. Their loops put
or drop one entry per round.
-/
namespace ApiLoad.Registry
open Std Foundation Text Scheduling OrderedMap CredentialRegistry List

attribute [local simp] cloneCredentialEntry

variable {r r' : CredentialRegistry} {f : Nat → Option CredentialEntry} {opened : Option Nat}
  {groupID : Nat} {clock : Clock} {entries : List CredentialEntry}

/-! ## Checks of the arguments -/

@[simp] theorem preserveModelCooldowns_id (next : CredentialEntry)
    (previous : Option CredentialEntry) : (preserveModelCooldowns next previous).id = next.id := by
  unfold preserveModelCooldowns
  grind

@[simp] theorem preserveModelCooldowns_groupID (next : CredentialEntry)
    (previous : Option CredentialEntry) :
    (preserveModelCooldowns next previous).groupID = next.groupID := by
  unfold preserveModelCooldowns
  grind

@[simp] theorem preserveModelCooldowns_identityGeneration (next : CredentialEntry)
    (previous : Option CredentialEntry) :
    (preserveModelCooldowns next previous).identityGeneration = next.identityGeneration := by
  unfold preserveModelCooldowns
  grind

theorem validateGroupEntries_ok
    (h : validateGroupEntries groupID entries = .ok ()) :
    (entries.map (·.id)).Nodup ∧ ∀ entry ∈ entries, entry.groupID = groupID := by
  unfold validateGroupEntries at h
  split at h
  · cases h
  rename_i hvalid
  refine ⟨validateCredentialEntries_nodup hvalid, fun entry hentry => ?_⟩
  split at h
  · cases h
  · rename_i hnone
    simpa using find?_eq_none.mp hnone entry hentry

theorem Represents.owned (h : Represents opened r f)
    (hchecked : r.checkOwnership groupID entries = .ok ()) :
    ∀ entry ∈ entries, ∀ e, f entry.id = some e → e.groupID = groupID := by
  intro entry hentry e he
  unfold checkOwnership at hchecked
  split at hchecked
  · cases hchecked
  rename_i hnone
  have := findSome?_eq_none_iff.mp hnone entry hentry
  rw [h.groups, he] at this
  simpa [Option.filter] using this

/-! ## Imports -/

/-- A loop that puts a copy of each entry, made from it and the entry in its place. -/
theorem Represents.putEach (clock : Clock)
    {c : CredentialEntry → Option CredentialEntry → CredentialEntry}
    (hcopy : ∀ x e, (c x e).id = x.id ∧ (c x e).groupID = x.groupID)
    (nodup : (entries.map (·.id)).Nodup) (hgroup : ∀ x ∈ entries, x.groupID = groupID)
    (h : Represents opened r f)
    (howned : ∀ x ∈ entries, ∀ e, f x.id = some e → e.groupID = groupID) :
    Represents opened
      (entries.foldl (fun r x => r.putEntry groupID clock (c x (r.entryIn groupID x.id))) r)
      fun i => ((entries.find? (·.id = i)).map (c · (f i))).or (f i) := by
  induction entries generalizing r f with
  | nil => exact h
  | cons x entries ih =>
    obtain ⟨hid, hcopied⟩ := hcopy x (r.entryIn groupID x.id)
    have hin := hcopied.trans (hgroup x (by simp))
    have hput := h.put clock hin (by grind)
    have hprevious : r.entryIn groupID x.id = f x.id := by
      rw [h.entryIn]
      cases hf : f x.id <;> grind
    have hrest := ih (nodup_cons.mp nodup).2 (fun e he => hgroup e (by simp [he])) hput
      fun e he => by grind
    refine Eq.mp (congrArg (Represents opened _) (funext fun i => ?_)) hrest
    by_cases hi : x.id = i
    · have := KeyedList.find_tail nodup hi
      grind
    · grind

theorem Represents.applyCredentialImport (h : Represents none r f) (clock : Clock) (groupID : Nat)
    (entries : List CredentialEntry) :
    Becomes f (r.applyCredentialImport clock groupID entries).1
      fun i => (entries.find? (·.id = i)).map renewed := by
  unfold CredentialRegistry.applyCredentialImport
  split
  · exact h.kept
  split
  · exact h.kept
  · exact h.kept
  rename_i hvalid hchecked
  obtain ⟨nodup, hgroup⟩ := validateGroupEntries_ok hvalid
  have howned := h.owned hchecked
  refine ⟨_, Represents.putEach clock (fun x e => by simp) nodup hgroup h howned, fun i => ?_⟩
  dsimp only
  cases hfind : entries.find? (·.id = i) with
  | none => exact .kept _
  | some x =>
    have hx := mem_of_find?_eq_some hfind
    have hid : x.id = i := by simpa using find?_some hfind
    have hsame : (f i).filter (·.groupID = x.groupID) = f i := by
      cases hf : f i <;> grind
    exact .installed rfl (by rw [renewed, hsame]; rfl)

theorem Represents.restoreGroupCredentialEntriesExact (h : Represents none r f) (clock : Clock)
    (groupID : Nat) (entries : List CredentialEntry) :
    Becomes f (r.restoreGroupCredentialEntriesExact clock groupID entries).1
      fun i => (entries.find? (·.id = i)).map fun x _ => some x := by
  unfold CredentialRegistry.restoreGroupCredentialEntriesExact
  split
  · exact h.kept
  split
  · exact h.kept
  split
  · exact h.kept
  · exact h.kept
  rename_i hvalid howned
  obtain ⟨nodup, hgroup⟩ := validateGroupEntries_ok hvalid
  refine ⟨_, Represents.putEach (c := fun x _ => x) clock (fun _ _ => ⟨rfl, rfl⟩) nodup hgroup h
    (h.owned howned), fun i => ?_⟩
  dsimp only
  cases entries.find? (·.id = i) with
  | none => exact .kept _
  | some x => exact .installed rfl rfl

/-! ## Replacement -/

theorem lookup_addToBuckets (nodup : (entries.map (·.id)).Nodup)
    (buckets : ExtTreeMap Nat (ExtTreeMap Nat CredentialEntry)) (g i : Nat) :
    ((entries.foldl addToBuckets buckets)[g]?.getD ∅)[i]? =
      (((entries.find? (·.id = i)).filter (·.groupID = g)).map cloneCredentialEntry).or
        (buckets[g]?.getD ∅)[i]? := by
  induction entries generalizing buckets with
  | nil => rfl
  | cons entry entries ih =>
    rw [foldl_cons, ih (nodup_cons.mp nodup).2, find?_cons]
    by_cases hid : entry.id = i
    · have hnone := KeyedList.find_tail nodup hid
      simp only [hnone, addToBuckets, lookup_insert]
      grind [lookup_insert]
    · simp only [addToBuckets, lookup_insert]
      grind [lookup_insert]

def NoEmptyBucket (buckets : ExtTreeMap Nat (ExtTreeMap Nat CredentialEntry)) : Prop :=
  ∀ (g : Nat) (bucket : ExtTreeMap Nat CredentialEntry),
    buckets[g]? = some bucket → bucket.isEmpty = false

theorem addToBuckets_nonempty {buckets : ExtTreeMap Nat (ExtTreeMap Nat CredentialEntry)}
    (h : NoEmptyBucket buckets) :
    NoEmptyBucket (entries.foldl addToBuckets buckets) := by
  induction entries generalizing buckets with
  | nil => exact h
  | cons entry entries ih =>
    refine ih fun g bucket hb => ?_
    simp only [addToBuckets, lookup_insert] at hb
    split at hb
    · cases hb
      exact isEmpty_insert
    · exact h g bucket hb

/-- Every entry is changed under its group and ID. -/
theorem entryIn_map (buckets : ExtTreeMap Nat (ExtTreeMap Nat CredentialEntry))
    (change : Nat → Nat → CredentialEntry → CredentialEntry) (g i : Nat) :
    ((buckets.map fun g bucket => bucket.map (change g))[g]?.getD ∅)[i]? =
      ((buckets[g]?.getD ∅)[i]?).map (change g i) := by
  rw [ExtTreeMap.getElem?_map]
  cases buckets[g]? <;> simp [ExtTreeMap.getElem?_map]

theorem Represents.replaceCredentials (h : Represents none r f) (clock : Clock)
    (entries : List CredentialEntry) :
    Becomes f (r.replaceCredentials clock entries).1
      fun i => (entries.find? (·.id = i)).map renewed := by
  unfold CredentialRegistry.replaceCredentials
  split
  · exact h.kept
  rename_i hvalid
  have nodup := validateCredentialEntries_nodup hvalid
  -- The map after the replacement: the copy of the listed entry, with its model cooldowns.
  let stored := fun entry : CredentialEntry =>
    preserveModelCooldowns (cloneCredentialEntry entry) (r.entryIn entry.groupID entry.id)
  refine ⟨fun i => (entries.find? (·.id = i)).map stored, ⟨?_, ?_, ?_, ?_, ?_⟩, fun i => ?_⟩
  · intro g i e
    have hlookup := lookup_addToBuckets nodup ∅ g i
    have hempty :
        ((∅ : ExtTreeMap Nat (ExtTreeMap Nat CredentialEntry))[g]?.getD ∅)[i]? = none := by
      simp
    rw [hempty, Option.or_none] at hlookup
    simp only [CredentialRegistry.entryIn, CredentialRegistry.bucket, entryIn_map, hlookup]
    cases hfind : entries.find? (·.id = i) with
    | none => simp
    | some entry =>
      obtain rfl : entry.id = i := by simpa using find?_some hfind
      have hgroup : (stored entry).groupID = entry.groupID := by simp [stored]
      by_cases hg : entry.groupID = g
      · subst hg
        simp only [Option.filter, decide_true, if_true, Option.map_some, Option.some.injEq]
        constructor
        · rintro rfl
          exact ⟨rfl, hgroup⟩
        · exact And.left
      · simp only [Option.filter, hg, decide_false, Option.map_some, Option.some.injEq]
        constructor
        · simp
        · rintro ⟨rfl, hin⟩
          exact absurd (hgroup.symm.trans hin) hg
  · intro i
    dsimp only
    rw [lookup_insertEach nodup]
    simp [stored, Function.comp_def]
  · rintro i e he
    obtain ⟨entry, hfind, rfl⟩ := Option.map_eq_some_iff.mp he
    have : entry.id = i := by simpa using find?_some hfind
    simpa [stored] using this
  · intro g bucket hb _
    simp only [ExtTreeMap.getElem?_map, Option.map_eq_some_iff] at hb
    obtain ⟨plain, hplain, rfl⟩ := hb
    have hnone : NoEmptyBucket ∅ := by simp [NoEmptyBucket]
    simpa using addToBuckets_nonempty hnone g plain hplain
  · intro i
    have nodup' : ((entries.map fun entry => (runtimeView entry, clock entry.id)).map
        (·.1.id)).Nodup := by simpa [Function.comp_def] using nodup
    rw [identityOf_syncCredentials 0 nodup', find?_map]
    cases hfind : entries.find? ((fun v : CredentialRuntimeView × Time => decide (v.1.id = i)) ∘
        fun entry => (runtimeView entry, clock entry.id)) with
    | none =>
      have hnone : entries.find? (·.id = i) = none := hfind
      cases identityOf r.scheduling i <;> simp [hnone, Option.filter]
    | some entry =>
      have hsome : entries.find? (·.id = i) = some entry := hfind
      simp [hsome, identity, stored]
  · dsimp only
    cases hfind : entries.find? (·.id = i) with
    | none => exact .removed _
    | some x =>
      obtain rfl : x.id = i := by simpa using find?_some hfind
      exact .installed rfl (by rw [renewed, ← h.entryIn, Option.map_some])

/-! ## Reconciliation -/

theorem bucket_installBucket (r : CredentialRegistry) (groupID : Nat)
    (next : ExtTreeMap Nat CredentialEntry) (g : Nat) :
    (r.installBucket groupID next).bucket g = if g = groupID then next else r.bucket g := by
  unfold installBucket bucket
  dsimp only
  split
  · rename_i hempty
    have : next = ∅ := ExtTreeMap.isEmpty_iff.mp hempty
    grind [lookup_erase]
  · grind [lookup_insert]

theorem lookup_installBucket (r : CredentialRegistry) (groupID : Nat)
    (next : ExtTreeMap Nat CredentialEntry) (i : Nat) :
    (r.installBucket groupID next).credentialGroups[i]? =
      if next[i]?.isSome then some groupID
      else if (r.entryIn groupID i).isSome then none
      else r.credentialGroups[i]? := by
  have herase : ((r.bucket groupID).keys.foldl (fun groups id => groups.erase id)
      r.credentialGroups)[i]? =
      if (r.entryIn groupID i).isSome then none else r.credentialGroups[i]? := by
    rw [lookup_eraseEach]
    simp only [mem_keys_iff]
    rfl
  unfold installBucket
  dsimp only
  split
  · rename_i hempty
    have : next = ∅ := ExtTreeMap.isEmpty_iff.mp hempty
    simp [this, herase]
  · rw [lookup_insertKeys, herase]
    simp only [mem_keys_iff]

section

variable {bucket : ExtTreeMap Nat CredentialEntry} {clock : Clock}
  (hids : ∀ (i : Nat) (e : CredentialEntry), bucket[i]? = some e → e.id = i)
include hids

/-- What a reconciliation reports to the ledger. -/
theorem bucketViews_nodup :
    ((bucket.toList.map fun e => (runtimeView e.2, clock e.2.id)).map (·.1.id)).Nodup := by
  have hkeys : (bucket.toList.map fun e => (runtimeView e.2, clock e.2.id)).map (·.1.id) =
      bucket.toList.map Prod.fst := by
    rw [map_map]
    apply map_congr_left
    intro e he
    exact hids e.1 e.2 (lookup_of_mem_toList he)
  exact hkeys ▸ nodup_keys_toList bucket

theorem find_bucketViews (i : Nat) :
    (bucket.toList.map fun e => (runtimeView e.2, clock e.2.id)).find? (·.1.id = i) =
      bucket[i]?.map fun e => (runtimeView e, clock e.id) := by
  ext v
  rw [KeyedList.find_eq_some (bucketViews_nodup hids), mem_map, Option.map_eq_some_iff]
  constructor
  · rintro ⟨⟨e, he, rfl⟩, hid⟩
    have hlookup := lookup_of_mem_toList he
    have : e.1 = i := (hids e.1 e.2 hlookup).symm.trans hid
    exact ⟨e.2, this ▸ hlookup, rfl⟩
  · rintro ⟨e, he, rfl⟩
    exact ⟨⟨(i, e), mem_toList_of_lookup he, rfl⟩, hids i e he⟩

end

theorem Represents.install (h : Represents none r f) {next : ExtTreeMap Nat CredentialEntry}
    (hgroupID : groupID ≠ 0)
    (hnext : ∀ (i : Nat) (e : CredentialEntry), next[i]? = some e → e.id = i ∧ e.groupID = groupID)
    (howned : ∀ (i : Nat) (e : CredentialEntry), next[i]?.isSome → f i = some e →
      e.groupID = groupID) :
    Represents none ((r.installBucket groupID next).syncSchedulingGroupLocked clock groupID)
      fun i => next[i]?.or ((f i).filter (·.groupID ≠ groupID)) where
  entries g i e := by
    have hbucket := bucket_installBucket r groupID next g
    have hentries : (r.bucket g)[i]? = some e ↔ _ := h.entries g i e
    have hentry : ((r.installBucket groupID next).syncSchedulingGroupLocked clock groupID).entryIn
        g i = ((r.installBucket groupID next).bucket g)[i]? := rfl
    have hkeep := hnext i
    have hown := howned i
    rw [hentry, hbucket]
    cases hi : next[i]? <;> cases hf : f i <;> grind
  groups i := by
    have hgroups := lookup_installBucket r groupID next i
    have hold := h.groups i
    have hentries := h.entries groupID i
    have hkeep := hnext i
    have hgroup : ((r.installBucket groupID next).syncSchedulingGroupLocked clock
        groupID).credentialGroups[i]? = (r.installBucket groupID next).credentialGroups[i]? := rfl
    rw [hgroup, hgroups]
    cases hi : next[i]? <;> cases hf : f i <;> cases he : r.entryIn groupID i <;> grind
  ids i e he := by
    have := h.ids i e
    have := hnext i e
    cases hi : next[i]? <;> cases hf : f i <;> grind
  nonempty g bucket hb _ := by
    have hb : (r.installBucket groupID next).buckets[g]? = some bucket := hb
    have := h.nonempty g bucket
    unfold installBucket at hb
    grind [lookup_insert, lookup_erase]
  members i := by
    have hbucket : (r.installBucket groupID next).bucket groupID = next := by
      simp [bucket_installBucket]
    have hscheduling : (r.installBucket groupID next).scheduling = r.scheduling := by
      unfold installBucket
      dsimp only
      split <;> rfl
    have hids := fun i e h => (hnext i e h).1
    simp only [syncSchedulingGroupLocked, hbucket, hscheduling,
      identityOf_syncCredentials groupID (bucketViews_nodup hids), find_bucketViews hids,
      h.members]
    cases hi : next[i]? with
    | some e => rfl
    | none => cases hf : f i <;> grind [identity]

theorem reconciled_spec {previous : ExtTreeMap Nat CredentialEntry} (desired : CredentialEntry) :
    (reconciled previous desired).id = desired.id ∧
      (reconciled previous desired).groupID = desired.groupID := by
  unfold reconciled
  split
  · split
    · rename_i hsame
      simp only [samePersistedCredentialConfig, Bool.and_eq_true, decide_eq_true_eq] at hsame
      grind
    · simp
  · simp

/-- The map after a reconciliation that changes the group. -/
def reconciliation (r : CredentialRegistry) (groupID : Nat) (entries : List CredentialEntry)
    (f : Nat → Option CredentialEntry) (i : Nat) : Option CredentialEntry :=
  ((entries.find? (·.id = i)).map (reconciled (r.bucket groupID))).or
    ((f i).filter (·.groupID ≠ groupID))

theorem Represents.reconcileGroup (h : Represents none r f) (clock : Clock) (groupID : Nat)
    (entries : List CredentialEntry) :
    ∃ f', Represents none (r.reconcileGroup clock groupID entries).1 f' ∧
      (f' = f ∨ (∀ x ∈ entries, x.groupID = groupID) ∧
        f' = reconciliation r groupID entries f) := by
  unfold CredentialRegistry.reconcileGroup
  split
  · exact ⟨f, h, .inl rfl⟩
  rename_i hgroupID
  split
  · exact ⟨f, h, .inl rfl⟩
  · exact ⟨f, h, .inl rfl⟩
  rename_i hvalid howned
  split
  · exact ⟨f, h, .inl rfl⟩
  obtain ⟨nodup, hgroup⟩ := validateGroupEntries_ok hvalid
  have hnext : ∀ i, (entries.foldl (fun next desired =>
      next.insert desired.id (CredentialRegistry.reconciled (r.bucket groupID) desired))
      (∅ : ExtTreeMap Nat CredentialEntry))[i]? =
      (entries.find? (·.id = i)).map (CredentialRegistry.reconciled (r.bucket groupID)) := by
    intro i
    simp [lookup_insertEach nodup]
  -- Every entry of the new bucket stems from a listed one.
  have hlisted : ∀ {i e}, (entries.find? (·.id = i)).map
      (CredentialRegistry.reconciled (r.bucket groupID)) = some e → ∃ desired ∈ entries,
        desired.id = i ∧ CredentialRegistry.reconciled (r.bucket groupID) desired = e := by
    intro i e he
    obtain ⟨desired, hfind, rfl⟩ := Option.map_eq_some_iff.mp he
    exact ⟨desired, mem_of_find?_eq_some hfind, by simpa using find?_some hfind, rfl⟩
  refine ⟨_, h.install hgroupID (fun i e he => ?_) fun i e hsome he => ?_, .inr ⟨hgroup, ?_⟩⟩
  · obtain ⟨desired, hmem, rfl, rfl⟩ := hlisted (hnext i ▸ he)
    obtain ⟨hid, hin⟩ := @reconciled_spec (r.bucket groupID) desired
    exact ⟨hid, hin.trans (hgroup desired hmem)⟩
  · obtain ⟨e', he'⟩ := Option.isSome_iff_exists.mp hsome
    obtain ⟨desired, hmem, rfl, -⟩ := hlisted (hnext i ▸ he')
    exact h.owned howned desired hmem e he
  · funext i
    simp only [hnext, reconciliation]

/-! ## Removals -/

theorem Represents.removeCredential (h : Represents none r f) (id : Nat) :
    Becomes f (r.removeCredential id).1 fun _ => none := by
  unfold CredentialRegistry.removeCredential
  split
  · exact h.kept
  rename_i groupID hgroup
  rw [h.groups, Option.map_eq_some_iff] at hgroup
  obtain ⟨entry, hf, hin⟩ := hgroup
  have hswap : ((r.dropFromBucket groupID id).dropEmptyBucket groupID).forget id =
      ((r.dropFromBucket groupID id).forget id).dropEmptyBucket groupID := by
    unfold CredentialRegistry.dropEmptyBucket CredentialRegistry.bucket CredentialRegistry.forget
    dsimp only
    split <;> rfl
  refine ⟨_, hswap ▸ ((h.opening groupID).drop hf hin).close, fun i => ?_⟩
  split
  · exact .removed _
  · exact .kept _

theorem validateGroupCredentialIDs_ok (h : r.validateGroupCredentialIDs groupID seen ids = .ok ()) :
    ids.Nodup ∧ ∀ id ∈ ids, id ∉ seen ∧ r.credentialGroups[id]? = some groupID := by
  induction ids generalizing seen with
  | nil => simp
  | cons id ids ih =>
    unfold validateGroupCredentialIDs at h
    split at h
    · cases h
    split at h
    · cases h
    rename_i hseen
    split at h
    · cases h
    rename_i actual hactual
    split at h
    · cases h
    rename_i hsame
    split at h
    · cases h
    obtain ⟨hnodup, hids⟩ := ih h
    have hfresh : id ∉ ids := fun hmem => (hids id hmem).1 (by simp)
    refine ⟨nodup_cons.mpr ⟨hfresh, hnodup⟩, fun i hi => ?_⟩
    rcases mem_cons.mp hi with rfl | hi
    · exact ⟨hseen, by grind⟩
    · exact ⟨fun hmem => (hids i hi).1 (mem_cons_of_mem _ hmem), (hids i hi).2⟩

theorem validateGroupCredentialIDsLocked_ok
    (h : r.validateGroupCredentialIDsLocked groupID ids = .ok ()) :
    ids.Nodup ∧ ∀ id ∈ ids, r.credentialGroups[id]? = some groupID := by
  unfold validateGroupCredentialIDsLocked at h
  split at h
  · cases h
  split at h
  · cases h
  obtain ⟨hnodup, hids⟩ := validateGroupCredentialIDs_ok h
  exact ⟨hnodup, fun id hid => (hids id hid).2⟩

theorem Represents.dropEach {ids : List Nat} (nodup : ids.Nodup)
    (hids : ∀ id ∈ ids, ∃ entry, f id = some entry ∧ entry.groupID = groupID)
    (h : Represents (some groupID) r f) :
    ∃ f', Represents (some groupID)
      (ids.foldl (fun r id => (r.dropFromBucket groupID id).forget id) r) f' ∧
        ∀ i, f' i = f i ∨ f' i = none := by
  induction ids generalizing r f with
  | nil => exact ⟨f, h, fun _ => .inl rfl⟩
  | cons id ids ih =>
    obtain ⟨hfresh, nodup⟩ := nodup_cons.mp nodup
    obtain ⟨entry, hf, hin⟩ := hids id (by simp)
    have hrest : ∀ i ∈ ids, ∃ entry, (if i = id then none else f i) = some entry ∧
        entry.groupID = groupID := by
      intro i hi
      have hne : i ≠ id := fun heq => hfresh (heq ▸ hi)
      simpa [hne] using hids i (by simp [hi])
    obtain ⟨f', h', hkept⟩ := ih nodup hrest (h.drop hf hin)
    exact ⟨f', h', fun i => by grind⟩

theorem Represents.removeGroupCredentials (h : Represents none r f) (groupID : Nat)
    (ids : List Nat) : Becomes f (r.removeGroupCredentials groupID ids).1 fun _ => none := by
  unfold CredentialRegistry.removeGroupCredentials
  split
  · exact h.kept
  rename_i hvalid
  obtain ⟨nodup, hids⟩ := validateGroupCredentialIDsLocked_ok hvalid
  have hentries : ∀ id ∈ ids, ∃ entry, f id = some entry ∧ entry.groupID = groupID := by
    intro id hid
    have hgroup := hids id hid
    rwa [h.groups, Option.map_eq_some_iff] at hgroup
  obtain ⟨f', hf', hkept⟩ := Represents.dropEach nodup hentries (h.opening groupID)
  refine ⟨f', hf'.close, fun i => ?_⟩
  obtain heq | heq := hkept i <;> rw [heq]
  · exact .kept _
  · exact .removed _

theorem forgetEach_spec (ids : List Nat) (r : CredentialRegistry) :
    (ids.foldl forget r).buckets = r.buckets ∧
      (∀ i, (ids.foldl forget r).credentialGroups[i]? =
        if i ∈ ids then none else r.credentialGroups[i]?) ∧
      ∀ i, identityOf (ids.foldl forget r).scheduling i =
        if i ∈ ids then none else identityOf r.scheduling i := by
  induction ids generalizing r with
  | nil => simp
  | cons id ids ih =>
    obtain ⟨hbuckets, hgroups, hmembers⟩ := ih (r.forget id)
    refine ⟨hbuckets, fun i => ?_, fun i => ?_⟩
    · rw [foldl_cons, hgroups]
      simp only [forget, lookup_erase]
      grind
    rw [foldl_cons, hmembers]
    simp only [forget, identityOf_remove]
    grind

theorem Represents.removeGroup (h : Represents none r f) (groupID : Nat) :
    Becomes f (r.removeGroup groupID).1 fun _ => none := by
  unfold CredentialRegistry.removeGroup
  split
  · exact h.kept
  split
  · exact h.kept
  rename_i bucket hbucket
  obtain ⟨hbuckets, hgroups, hmembers⟩ := forgetEach_spec bucket.keys r
  have hkeys : ∀ i, i ∈ bucket.keys ↔ ∃ e, f i = some e ∧ e.groupID = groupID := by
    intro i
    have hin : r.entryIn groupID i = bucket[i]? := by
      simp [CredentialRegistry.entryIn, CredentialRegistry.bucket, hbucket]
    rw [mem_keys_iff, ← hin, Option.isSome_iff_exists]
    simp only [h.entries]
  refine ⟨fun i => (f i).filter (·.groupID ≠ groupID), ⟨?_, ?_, ?_, ?_, ?_⟩, fun i => ?_⟩
  · intro g i e
    have hentries := h.entries g i e
    have hentry : CredentialRegistry.entryIn { bucket.keys.foldl CredentialRegistry.forget r with
        buckets := (bucket.keys.foldl CredentialRegistry.forget r).buckets.erase groupID } g i =
        if g = groupID then none else r.entryIn g i := by
      simp only [CredentialRegistry.entryIn, CredentialRegistry.bucket, hbuckets,
        lookup_erase]
      grind
    rw [hentry]
    cases hf : f i <;> grind
  · intro i
    rw [hgroups, h.groups]
    have := hkeys i
    cases hf : f i <;> grind
  · intro i e he
    exact h.ids i e (Option.filter_eq_some_iff.mp he).1
  · intro g b hb _
    simp only [hbuckets, lookup_erase] at hb
    have := h.nonempty g b
    grind
  · intro i
    rw [hmembers, h.members]
    have := hkeys i
    cases hf : f i <;> grind
  · exact .filtered _ _

end ApiLoad.Registry
