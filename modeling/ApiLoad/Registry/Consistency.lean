import ApiLoad.Registry.Operations
import ApiLoad.Scheduling.Invariant

/-!
# Consistency of the registry and the ledger

The buckets, the index and the ledger are three views of one map from credential IDs to entries.
`Represents` says that they agree on it; every operation keeps it, for a map that the operation
changes in the obvious way.
-/
namespace ApiLoad.Registry
open Std Foundation Text Scheduling OrderedMap SchedulingLedger List

/-! ## Identities in the ledger -/

/-- What the ledger must know about a credential. -/
abbrev Identity := Nat × Nat

def identity (entry : CredentialEntry) : Identity := (entry.groupID, entry.identityGeneration)

def identityOf (d : SchedulingLedger) (id : Nat) : Option Identity :=
  d.members[id]?.map fun m => (m.groupID, m.identityGeneration)

theorem identityOf_syncCredential (d : SchedulingLedger) (view : CredentialRuntimeView) (now : Time)
    (id : Nat) : identityOf (d.syncCredential view now) id =
      if id = view.id then some (view.groupID, view.identityGeneration) else identityOf d id := by
  unfold identityOf syncCredential putMember
  obtain ⟨m, hm, hgroup, hgeneration, he⟩ | ⟨he, -⟩ := d.memberFor_cases view
  · rw [he]
    grind [lookup_insert, SchedulingMember.observe]
  rw [he]
  grind [lookup_insert, forget_members, SchedulingMember.observe,
    newMember]

theorem identityOf_remove (d : SchedulingLedger) (removed id : Nat) :
    identityOf (d.remove removed) id = if id = removed then none else identityOf d id := by
  unfold identityOf remove
  rw [forget_members]
  grind [lookup_erase]

/-- After the first loop of `SyncCredentials` every view is in the ledger. -/
theorem identityOf_syncViews {views : List (CredentialRuntimeView × Time)}
    (nodup : (views.map (·.1.id)).Nodup) (d : SchedulingLedger) (id : Nat) :
    identityOf (views.foldl (fun d v => d.syncCredential v.1 v.2) d) id =
      match views.find? (·.1.id = id) with
      | some v => some (v.1.groupID, v.1.identityGeneration)
      | none => identityOf d id := by
  induction views generalizing d with
  | nil => rfl
  | cons v views ih =>
    rw [foldl_cons, ih (nodup_cons.mp nodup).2, find?_cons]
    by_cases hid : v.1.id = id
    · -- The later views have other IDs, so the one of `v` stays.
      have hnone : views.find? (·.1.id = id) = none := KeyedList.find_tail nodup hid
      simp [hnone, hid, identityOf_syncCredential]
    · have hne : ¬ id = v.1.id := fun h => hid h.symm
      simp only [hid, decide_false, identityOf_syncCredential, hne, if_false]

/-- The members that the second loop of `SyncCredentials` removes. -/
theorem identityOf_removeUnseen {listed : List (Nat × SchedulingMember)}
    (nodup : (listed.map Prod.fst).Nodup) (d : SchedulingLedger) (id : Nat) :
    identityOf (listed.foldl (removeUnseen groupID seen) d) id =
      match listed.find? (·.1 = id) with
      | some e =>
        if (groupID ≠ 0 ∧ e.2.groupID ≠ groupID) ∨ id ∈ seen then identityOf d id else none
      | none => identityOf d id := by
  induction listed generalizing d with
  | nil => rfl
  | cons e listed ih =>
    rw [foldl_cons, ih (nodup_cons.mp nodup).2, find?_cons]
    by_cases hid : e.1 = id
    · have hnone : listed.find? (·.1 = id) = none := KeyedList.find_tail nodup hid
      simp only [hid, decide_true, hnone, removeUnseen]
      split_ifs <;> simp_all [identityOf_remove]
    have hstep : identityOf (removeUnseen groupID seen d e) id =
        identityOf d id := by
      unfold removeUnseen
      have hne : ¬ id = e.1 := fun h => hid h.symm
      split_ifs <;> simp [identityOf_remove, hne]
    simp [hid, hstep]

/-- `SyncCredentials` puts the views into the ledger and removes what the group had besides. -/
theorem identityOf_syncCredentials {views : List (CredentialRuntimeView × Time)} (groupID : Nat)
    (nodup : (views.map (·.1.id)).Nodup) (d : SchedulingLedger) (id : Nat) :
    identityOf (d.syncCredentials groupID views) id =
      match views.find? (·.1.id = id) with
      | some v => some (v.1.groupID, v.1.identityGeneration)
      | none => (identityOf d id).filter fun i => groupID ≠ 0 ∧ i.1 ≠ groupID := by
  unfold syncCredentials
  generalize hsynced : views.foldl (fun d v => d.syncCredential v.1 v.2) d = synced
  have hlookup := identityOf_syncViews nodup d id
  rw [hsynced] at hlookup
  rw [identityOf_removeUnseen (nodup_keys_toList synced.members)]
  cases hfind : views.find? (·.1.id = id) with
  | some v =>
    have hseen : id ∈ views.map (·.1.id) := by
      have hid : v.1.id = id := by simpa using find?_some hfind
      exact hid ▸ mem_map_of_mem (mem_of_find?_eq_some hfind)
    rw [hfind] at hlookup
    cases synced.members.toList.find? (·.1 = id) <;> simp [hseen, hlookup]
  | none =>
    have hseen : id ∉ views.map (·.1.id) := by
      intro h
      obtain ⟨v, hv, hid⟩ := mem_map.mp h
      simpa [hid] using find?_eq_none.mp hfind v hv
    simp only [hfind] at hlookup
    cases hm : synced.members.toList.find? (·.1 = id) with
    | none =>
      have hnone : synced.members[id]? = none := by
        rw [Option.eq_none_iff_forall_not_mem]
        intro m hm'
        have := find?_eq_none.mp hm _ (mem_toList_of_lookup hm')
        simp at this
      have : identityOf d id = none := by rw [← hlookup]; simp [identityOf, hnone]
      simp [hlookup, this]
    | some e =>
      have hid : e.1 = id := by simpa using find?_some hm
      have hmember := lookup_of_mem_toList (mem_of_find?_eq_some hm)
      have : identityOf d id = some (e.2.groupID, e.2.identityGeneration) := by
        rw [← hlookup]
        simp [identityOf, ← hid, hmember]
      simp [hlookup, this, hseen, Option.filter]

/-! ## The map behind the registry -/

/-- The registry stands for the map `f`. While an operation empties a bucket, that bucket is open;
every other bucket has an entry. -/
structure Represents (opened : Option Nat) (r : CredentialRegistry)
    (f : Nat → Option CredentialEntry) : Prop where
  entries : ∀ groupID id entry,
    r.entryIn groupID id = some entry ↔ f id = some entry ∧ entry.groupID = groupID
  groups : ∀ id, r.credentialGroups[id]? = (f id).map (·.groupID)
  ids : ∀ id entry, f id = some entry → entry.id = id
  nonempty : ∀ groupID bucket, r.buckets[groupID]? = some bucket → opened ≠ some groupID →
    bucket.isEmpty = false
  members : ∀ id, identityOf r.scheduling id = (f id).map identity

variable {f : Nat → Option CredentialEntry}

theorem represents_new : Represents none newCredentialRegistry fun _ => none where
  entries := by simp [CredentialRegistry.entryIn, CredentialRegistry.bucket, newCredentialRegistry]
  groups := by simp [newCredentialRegistry]
  ids := by simp
  nonempty := by simp [newCredentialRegistry]
  members := by simp [identityOf, newCredentialRegistry, newSchedulingState]

theorem Represents.opening (h : Represents none r f) (groupID : Nat) :
    Represents (some groupID) r f :=
  { h with nonempty := fun g bucket hb _ => h.nonempty g bucket hb nofun }

theorem Represents.entryLocked (h : Represents opened r f) (id : Nat) :
    r.entryLocked id = f id := by
  unfold CredentialRegistry.entryLocked
  rw [h.groups]
  cases hf : f id with
  | none => rfl
  | some entry => exact (h.entries entry.groupID id entry).mpr ⟨hf, rfl⟩

theorem Represents.entryIn (h : Represents opened r f) (groupID id : Nat) :
    r.entryIn groupID id = (f id).filter (·.groupID = groupID) := by
  ext e
  rw [h.entries, Option.filter_eq_some_iff]
  simp

def failures (e : CredentialEntry) : Nat × Bool × Int :=
  (e.failureGeneration, e.blacklisted, e.failureCount)

/-- A change in place keeps ID, group and identity generation. -/
structure Kept (e e' : CredentialEntry) : Prop where
  id : e'.id = e.id
  identity : identity e' = identity e

/-- Apart from the restoring of a checkpoint it also moves the generation of the failures whenever
it touches them. -/
structure Edited (e e' : CredentialEntry) : Prop where
  id : e'.id = e.id
  identity : identity e' = identity e
  failures : failures e' = failures e ∨ e'.failureGeneration = nextGeneration e.failureGeneration

theorem Edited.kept (h : Edited e e') : Kept e e' := ⟨h.id, h.identity⟩

/-- The copy of a listed entry takes over the model cooldowns of the entry before it in the
group. -/
def renewed (x : CredentialEntry) (e : Option CredentialEntry) : Option CredentialEntry :=
  some (preserveModelCooldowns (cloneCredentialEntry x) (e.filter (·.groupID = x.groupID)))

/-- What becomes of the entry of a credential that a call installs as `installs` says, if at all. -/
inductive Effect (installs : Option (Option CredentialEntry → Option CredentialEntry)) :
    Option CredentialEntry → Option CredentialEntry → Prop
  | kept (e : Option CredentialEntry) : Effect installs e e
  | removed (e : Option CredentialEntry) : Effect installs e none
  | edited {e e' : CredentialEntry} (h : Edited e e') : Effect installs (some e) (some e')
  | installed {c : Option CredentialEntry → Option CredentialEntry}
    {e e' : Option CredentialEntry} (h : installs = some c) (he : c e = e') : Effect installs e e'

section

variable {installs : Option (Option CredentialEntry → Option CredentialEntry)}

theorem Edited.effect {id : Nat} (h : Edited e e') (hf : f id = some e) (i : Nat) :
    Effect installs (f i) (if i = id then some e' else f i) := by
  split
  case isTrue heq => exact heq ▸ hf ▸ .edited h
  case isFalse => exact .kept _

theorem Effect.filtered (e : Option CredentialEntry) (p : CredentialEntry → Bool) :
    Effect installs e (e.filter p) := by
  cases e with
  | none => exact .kept _
  | some e =>
    rw [Option.filter_some]
    split
    · exact .kept _
    · exact .removed _

end

/-- The registry after a call holds a map that the effects of the call lead to. -/
def Becomes (f : Nat → Option CredentialEntry) (r : CredentialRegistry)
    (installs : Nat → Option (Option CredentialEntry → Option CredentialEntry)) : Prop :=
  ∃ f', Represents none r f' ∧ ∀ i, Effect (installs i) (f i) (f' i)

theorem Represents.kept
    {installs : Nat → Option (Option CredentialEntry → Option CredentialEntry)}
    (h : Represents none r f) : Becomes f r installs :=
  ⟨f, h, fun _ => .kept _⟩

theorem entryIn_store (r : CredentialRegistry) (groupID id : Nat) (entry : CredentialEntry)
    (g i : Nat) : (r.store groupID id entry).entryIn g i =
      if g = groupID ∧ i = id then some entry else r.entryIn g i := by
  simp only [CredentialRegistry.entryIn, CredentialRegistry.bucket, CredentialRegistry.store,
    lookup_insert]
  grind [lookup_insert]

variable {entry : CredentialEntry} {id : Nat}

theorem isEmpty_insert {bucket : ExtTreeMap Nat CredentialEntry} :
    (bucket.insert id entry).isEmpty = false := by
  simp

/-- An entry of the group is stored, and the ledger knows its identity. -/
theorem Represents.store (h : Represents opened r f) {groups : ExtTreeMap Nat Nat}
    (hid : entry.id = id) (hgroup : entry.groupID = groupID)
    (howned : ∀ e, f id = some e → e.groupID = groupID)
    (hgroups : ∀ i, groups[i]? = if i = id then some groupID else r.credentialGroups[i]?)
    (hmembers : ∀ i, identityOf d i = if i = id then some (identity entry) else identityOf
      r.scheduling i) :
    Represents opened
      { r.store groupID id entry with credentialGroups := groups, scheduling := d }
      fun i => if i = id then some entry else f i where
  entries g i e := by
    have hstore := entryIn_store r groupID id entry g i
    have hentries := h.entries g i e
    have : CredentialRegistry.entryIn { r.store groupID id entry with
        credentialGroups := groups, scheduling := d } g i =
          (r.store groupID id entry).entryIn g i :=
      rfl
    grind
  groups i := by grind [h.groups i]
  ids i e := by grind [h.ids i e]
  nonempty g bucket hb ho := by
    simp only [CredentialRegistry.store, lookup_insert] at hb
    split at hb
    · cases hb
      exact isEmpty_insert
    · exact h.nonempty g bucket hb ho
  members i := by grind [h.members i]

theorem Represents.put (h : Represents opened r f) (clock : Clock)
    (hgroup : entry.groupID = groupID) (howned : ∀ e, f entry.id = some e → e.groupID = groupID) :
    Represents opened (r.putEntry groupID clock entry)
      fun i => if i = entry.id then some entry else f i := by
  refine h.store rfl hgroup howned (fun i => ?_) fun i => ?_
  · simp [CredentialRegistry.store, lookup_insert, eq_comm]
  · exact identityOf_syncCredential r.scheduling (runtimeView entry) (clock entry.id) i

theorem Represents.change (h : Represents opened r f)
    {change : CredentialEntry → Option CredentialEntry}
    (hedit : ∀ e e', change e = some e' → Kept e e')
    (hchanged : r.changeEntry clock reported id change = some r') :
    ∃ e e', f id = some e ∧ change e = some e' ∧
      Represents opened r' fun i => if i = id then some e' else f i := by
  simp only [CredentialRegistry.changeEntry, Option.bind_eq_some_iff, Option.map_eq_some_iff]
    at hchanged
  obtain ⟨group, hgroup, entry, hentry, entry', hchange, rfl⟩ := hchanged
  obtain ⟨hf, hin⟩ := (h.entries group id entry).mp hentry
  have hedited := hedit entry entry' hchange
  have hid' : entry'.id = id := hedited.id.trans (h.ids id entry hf)
  have hgroup' : entry'.groupID = group := (congrArg Prod.fst hedited.identity).trans hin
  have hmember : identityOf r.scheduling id = some (identity entry') := by
    rw [h.members, hf, hedited.identity]
    rfl
  have hgroups : ∀ i, r.credentialGroups[i]? =
      if i = id then some group else r.credentialGroups[i]? := by grind
  have howned : ∀ e, f id = some e → e.groupID = group := by grind
  refine ⟨entry, entry', hf, hchange, ?_⟩
  cases reported with
  | false => exact h.store hid' hgroup' howned hgroups fun i => by grind
  | true =>
    refine h.store hid' hgroup' howned hgroups fun i => ?_
    simp [CredentialRegistry.store, identityOf_syncCredential, identity, hid']

/-! ## Removals -/

theorem entryIn_dropFromBucket (r : CredentialRegistry) (groupID id g i : Nat) :
    (r.dropFromBucket groupID id).entryIn g i =
      if g = groupID ∧ i = id then none else r.entryIn g i := by
  unfold CredentialRegistry.dropFromBucket CredentialRegistry.entryIn CredentialRegistry.bucket
  split <;> grind [lookup_insert, lookup_erase]

theorem Represents.drop (h : Represents (some groupID) r f) (hf : f id = some entry)
    (hgroup : entry.groupID = groupID) :
    Represents (some groupID) ((r.dropFromBucket groupID id).forget id)
      fun i => if i = id then none else f i where
  entries g i e := by
    have hdrop := entryIn_dropFromBucket r groupID id g i
    have hentries := h.entries g i e
    have : ((r.dropFromBucket groupID id).forget id).entryIn g i =
      (r.dropFromBucket groupID id).entryIn g i := rfl
    grind
  groups i := by
    have : (r.dropFromBucket groupID id).credentialGroups = r.credentialGroups := by
      unfold CredentialRegistry.dropFromBucket
      split <;> rfl
    simp only [CredentialRegistry.forget, lookup_erase, this]
    grind [h.groups i]
  ids i e := by grind [h.ids i e]
  nonempty g bucket hb ho := by
    simp only [CredentialRegistry.forget, CredentialRegistry.dropFromBucket] at hb
    grind [lookup_insert, h.nonempty g bucket]
  members i := by
    have : (r.dropFromBucket groupID id).scheduling = r.scheduling := by
      unfold CredentialRegistry.dropFromBucket
      split <;> rfl
    simp only [CredentialRegistry.forget, identityOf_remove, this]
    grind [h.members i]

theorem Represents.close (h : Represents (some groupID) r f) :
    Represents none (r.dropEmptyBucket groupID) f := by
  unfold CredentialRegistry.dropEmptyBucket
  split
  case isTrue hempty =>
    have hentries : ∀ g i,
        CredentialRegistry.entryIn { r with buckets := r.buckets.erase groupID } g i =
          r.entryIn g i := by
      intro g i
      simp only [CredentialRegistry.entryIn, CredentialRegistry.bucket, lookup_erase]
      split
      · rename_i hg
        have hbucket : r.bucket groupID = ∅ := ExtTreeMap.isEmpty_iff.mp hempty
        rw [CredentialRegistry.bucket, hg] at hbucket
        rw [hbucket]
        rfl
      · rfl
    refine { h with entries := fun g i e => by rw [hentries, h.entries], nonempty := ?_ }
    intro g bucket hb _
    simp only [lookup_erase] at hb
    grind [h.nonempty g bucket]
  case isFalse hempty =>
    refine { h with nonempty := fun g bucket hb _ => ?_ }
    by_cases hg : groupID = g
    · subst hg
      simpa [CredentialRegistry.bucket, hb] using hempty
    · exact h.nonempty g bucket hb (by simpa using hg)

end ApiLoad.Registry
