import ApiLoad.Registry.Preservation

/-!
# Runs of registry operations

Calls with arbitrary arguments follow one another, starting from an empty registry. Every call
keeps the registry consistent, and a call that is refused changes nothing.
-/
namespace ApiLoad.Registry
open Std Foundation Text Scheduling CredentialRegistry

variable {r r' : CredentialRegistry} {f : Nat → Option CredentialEntry}

/-! ## Calls and replies -/

inductive Call where
  | replaceCredentials (entries : List CredentialEntry)
  | applyCredentialImport (groupID : Nat) (entries : List CredentialEntry)
  | restoreGroupCredentialEntriesExact (groupID : Nat) (entries : List CredentialEntry)
  | reconcileGroup (groupID : Nat) (entries : List CredentialEntry)
  | removeCredential (id : Nat)
  | removeGroupCredentials (groupID : Nat) (ids : List Nat)
  | removeGroup (groupID : Nat)
  | setCredentialStatus (id : Nat) (status : CredentialStatus)
  | updateCredentialConfig (id : Nat) (status : CredentialStatus) (weightManual : Option Int)
  | updateGroupCredentialStatuses (groupID : Nat) (ids : List Nat) (status : CredentialStatus)
  | updateCredentialName (groupID id : Nat) (name : String)
  | replaceCredentialSecretIfMatch (id expectedVersion nextVersion : Nat)
      (fingerprint encryptedValue : String)
  | setCredentialAuthState (id : Nat) (authState : CredentialAuthState)
  | clearCooldownIfMatch (id : Nat) (expected : Time)
  | setCooldownWithChange (id : Nat) (until_ : Time)
  | setCooldownWithChangeIfVersion (id expectedVersion : Nat) (until_ : Time)
  | setBlacklistedWithChange (id : Nat)
  | incrFailure (id : Nat)
  | clearFailure (id : Nat)
  | restoreRuntimeState (id : Nat)
  | recover (id : Nat)
  | restoreRuntimeStateIfMatch (ref : CredentialRegistry.CredentialRef)
      (cooldownUntil : Option Time)
  | setModelCooldown (ref : CredentialRegistry.CredentialRef) (model : String) (until_ now : Time)
  | clearModelCooldowns (id : Nat)
  | readModelCooldowns (id : Nat) (now : Time)
  | expireModelCooldowns (now : Time)
  | restoreRuntimeCheckpoint (checkpoints : List TimedCheckpoint)

/-- The results of a call: an error, up to two flags, the cooldowns that were asked for, or a
count. -/
inductive Reply where
  | failed (message : String)
  | done
  | flag (value : Bool)
  | flags (found changed : Bool)
  | limits (values : List (String × Time))
  | count (value : Nat)
deriving DecidableEq

def Reply.ofError : Except String Unit → Reply
  | .error message => .failed message
  | .ok () => .done

def Reply.ofErrorFlag : Except String Bool → Reply
  | .error message => .failed message
  | .ok value => .flag value

def Reply.negative : Reply → Bool
  | .failed _ => true
  | .done => false
  | .flag value => !value
  | .flags found changed => !found || !changed
  | .limits _ | .count _ => false

def Call.perform (r : CredentialRegistry) (clock : Clock) : Call → CredentialRegistry × Reply
  | .replaceCredentials entries => (r.replaceCredentials clock entries).map id .ofError
  | .applyCredentialImport groupID entries =>
    (r.applyCredentialImport clock groupID entries).map id .ofError
  | .restoreGroupCredentialEntriesExact groupID entries =>
    (r.restoreGroupCredentialEntriesExact clock groupID entries).map id .ofError
  | .reconcileGroup groupID entries =>
    (r.reconcileGroup clock groupID entries).map id .ofErrorFlag
  | .removeCredential credentialID => (r.removeCredential credentialID).map id .flag
  | .removeGroupCredentials groupID ids => (r.removeGroupCredentials groupID ids).map id .ofError
  | .removeGroup groupID => (r.removeGroup groupID).map id .flag
  | .setCredentialStatus credentialID status =>
    (r.setCredentialStatus clock credentialID status).map id .ofError
  | .updateCredentialConfig credentialID status weightManual =>
    (r.updateCredentialConfig clock credentialID status weightManual).map id .ofError
  | .updateGroupCredentialStatuses groupID ids status =>
    (r.updateGroupCredentialStatuses clock groupID ids status).map id .ofError
  | .updateCredentialName groupID credentialID name =>
    (r.updateCredentialName clock groupID credentialID name).map id .flag
  | .replaceCredentialSecretIfMatch credentialID expectedVersion nextVersion fingerprint value =>
    (r.replaceCredentialSecretIfMatch clock credentialID expectedVersion nextVersion fingerprint
      value).map id .flag
  | .setCredentialAuthState credentialID authState =>
    (r.setCredentialAuthState clock credentialID authState).map id .flag
  | .clearCooldownIfMatch credentialID expected =>
    (r.clearCooldownIfMatch clock credentialID expected).map id .flag
  | .setCooldownWithChange credentialID until_ =>
    (r.setCooldownWithChange clock credentialID until_).map id fun p => .flags p.1 p.2
  | .setCooldownWithChangeIfVersion credentialID expectedVersion until_ =>
    (r.setCooldownWithChangeIfVersion clock credentialID expectedVersion until_).map id
      fun p => .flags p.1 p.2
  | .setBlacklistedWithChange credentialID =>
    (r.setBlacklistedWithChange clock credentialID).map id fun p => .flags p.1 p.2
  | .incrFailure credentialID => (r.incrFailure clock credentialID).map id .flag
  | .clearFailure credentialID => (r.clearFailure clock credentialID).map id .flag
  | .restoreRuntimeState credentialID => (r.restoreRuntimeState clock credentialID).map id .flag
  | .recover credentialID => (r.recover clock credentialID).map id .flag
  | .restoreRuntimeStateIfMatch ref cooldownUntil =>
    (r.restoreRuntimeStateIfMatch clock ref cooldownUntil).map id .flag
  | .setModelCooldown ref model until_ now =>
    (r.setModelCooldown clock ref model until_ now).map id fun p => .flags p.1 p.2
  | .clearModelCooldowns credentialID => (r.clearModelCooldowns clock credentialID).map id .flag
  | .readModelCooldowns credentialID now =>
    (r.readModelCooldowns clock credentialID now).map id fun limits => .limits limits.toList
  | .expireModelCooldowns now => (r.expireModelCooldowns now, .done)
  | .restoreRuntimeCheckpoint checkpoints =>
    (r.restoreRuntimeCheckpoint checkpoints).map id .count

/-! ## Updates of one entry -/

/-- What an update of one entry can do: it leaves the registry alone, or it changes the entry in
place and answers positively. -/
inductive Update (r : CredentialRegistry) (clock : Clock) : CredentialRegistry × Reply → Prop
  | refused (reply : Reply) : Update r clock (r, reply)
  | changed {reported : Bool} {id : Nat} {change : CredentialEntry → Option CredentialEntry}
    {r' : CredentialRegistry} {reply : Reply} (hedit : ∀ e e', change e = some e' → Edited e e')
    (hchanged : r.changeEntry clock reported id change = some r')
    (hpositive : reply.negative = false) : Update r clock (r', reply)

section Updates

variable {clock : Clock} {reported : Bool} {target : Nat} {result : CredentialRegistry × Reply}
  {change : CredentialEntry → Option CredentialEntry}

theorem Update.represents
    {installs : Nat → Option (Option CredentialEntry → Option CredentialEntry)}
    (hupdate : Update r clock result) (h : Represents none r f) :
    Becomes f result.1 installs := by
  cases hupdate with
  | refused reply => exact h.kept
  | changed hedit hchanged _ =>
    obtain ⟨e, e', he, hchange, h'⟩ := h.change (fun e e' he => (hedit e e' he).kept) hchanged
    exact ⟨_, h', fun i => (hedit e e' hchange).effect he i⟩

theorem Update.negative (hupdate : Update r clock result) (hnegative : result.2.negative = true) :
    result.1 = r := by
  cases hupdate with
  | refused reply => rfl
  | changed _ _ hpositive => grind

variable (hedit : ∀ e e', change e = some e' → Edited e e')
include hedit

theorem Update.orUnchanged :
    Update r clock ((r.orUnchanged (r.changeEntry clock reported target change)).map id .flag) := by
  cases hchanged : r.changeEntry clock reported target change with
  | none => exact .refused _
  | some r' => exact .changed hedit hchanged rfl

theorem Update.orNotFound : Update r clock
    ((r.orNotFound target (r.changeEntry clock reported target change)).map id .ofError) := by
  cases hchanged : r.changeEntry clock reported target change with
  | none => exact .refused _
  | some r' => exact .changed hedit hchanged rfl

theorem Update.extendEntry : Update r clock
    ((r.extendEntry clock target accepts change).map id fun p => .flags p.1 p.2) := by
  unfold CredentialRegistry.extendEntry
  split
  · exact .refused _
  split
  · exact .refused _
  cases hchanged : r.changeEntry clock true target change with
  | none => exact .refused _
  | some r' => exact .changed hedit hchanged rfl

end Updates

/-- The call updates one entry, and nothing else about the registry. -/
def Call.single : Call → Bool
  | .replaceCredentials _ | .applyCredentialImport .. | .restoreGroupCredentialEntriesExact ..
  | .reconcileGroup .. | .removeCredential _ | .removeGroupCredentials .. | .removeGroup _
  | .updateGroupCredentialStatuses .. | .setModelCooldown .. | .expireModelCooldowns _
  | .restoreRuntimeCheckpoint _ => false
  | _ => true

attribute [local grind =] identity failures recovered laterCooldown

theorem Call.update (r : CredentialRegistry) (clock : Clock) (call : Call)
    (hcall : call.single = true) : Update r clock (call.perform r clock) := by
  cases call with
  | setCredentialStatus id status =>
    simp only [Call.perform, CredentialRegistry.setCredentialStatus]
    split
    · exact .refused _
    · exact .orNotFound fun e e' he => by constructor <;> grind
  | updateCredentialConfig id status weightManual =>
    simp only [Call.perform, CredentialRegistry.updateCredentialConfig]
    split
    · exact .refused _
    split
    · exact .refused _
    · exact .orNotFound fun e e' he => by constructor <;> grind
  | replaceCredentialSecretIfMatch | setCredentialAuthState | clearCooldownIfMatch
  | restoreRuntimeStateIfMatch =>
    simp only [Call.perform, CredentialRegistry.replaceCredentialSecretIfMatch,
      CredentialRegistry.setCredentialAuthState, CredentialRegistry.clearCooldownIfMatch,
      CredentialRegistry.restoreRuntimeStateIfMatch]
    split
    · exact .refused _
    · exact .orUnchanged fun e e' he => by constructor <;> grind
  | readModelCooldowns id now =>
    simp only [Call.perform, CredentialRegistry.readModelCooldowns]
    split
    · exact .refused _
    rename_i entry _
    cases hchanged : r.changeEntry clock false id fun e =>
        some { e with modelCooldowns := pruneModelCooldowns entry.modelCooldowns now } with
    | none => exact .refused _
    | some r' => exact .changed (fun e e' he => by constructor <;> grind) hchanged rfl
  | setCooldownWithChange | setCooldownWithChangeIfVersion | setBlacklistedWithChange =>
    exact .extendEntry fun e e' he => by constructor <;> grind
  | updateCredentialName | incrFailure | clearFailure | restoreRuntimeState | recover
  | clearModelCooldowns =>
    exact .orUnchanged fun e e' he => by constructor <;> grind
  | _ => cases hcall

theorem Represents.updateStatuses (h : Represents none r f) (clock : Clock)
    (status : CredentialStatus) (ids : List Nat) :
    ∃ f', Represents none (ids.foldl (updateStatus clock status) r) f' ∧
      ∀ i, f' i = f i ∨ f' i = (f i).map fun e => { e with status } := by
  induction ids generalizing r f with
  | nil => exact ⟨f, h, fun _ => .inl rfl⟩
  | cons id ids ih =>
    cases hchanged : r.changeEntry clock true id fun entry => some { entry with status } with
    | none => simpa [updateStatus, hchanged] using ih h
    | some r' =>
      obtain ⟨e, _, he, ⟨⟩, h'⟩ := h.change (by rintro e _ ⟨⟩; exact ⟨rfl, rfl⟩) hchanged
      obtain ⟨f', h'', hf'⟩ := ih h'
      refine ⟨f', by simpa [updateStatus, hchanged] using h'', fun i => ?_⟩
      have := hf' i
      grind

theorem Represents.setModelCooldown (h : Represents none r f) (clock : Clock)
    (ref : CredentialRegistry.CredentialRef) (model : String) (until_ now : Time) :
    Becomes f (r.setModelCooldown clock ref model until_ now).1 fun _ => none := by
  unfold CredentialRegistry.setModelCooldown
  split
  · exact h.kept
  split
  · exact h.kept
  split
  · exact h.kept
  dsimp only
  cases hchanged : r.changeEntry clock false ref.id _ with
  | none => exact h.kept
  | some r' =>
    obtain ⟨e, _, he, ⟨⟩, h'⟩ := h.change (by rintro e _ ⟨⟩; exact ⟨rfl, rfl⟩) hchanged
    exact ⟨_, h', Edited.effect (e := e) ⟨rfl, rfl, .inl rfl⟩ he⟩

/-! ## Refused calls -/

/-- The call is `SetModelCooldown` for a credential. -/
def Call.modelCooldown : Call → Option (CredentialRegistry.CredentialRef × Time)
  | .setModelCooldown ref _ _ now => some (ref, now)
  | _ => none

theorem perform_negative (clock : Clock) (call : Call)
    (hnegative : (call.perform r clock).2.negative = true) (hcall : call.modelCooldown = none) :
    (call.perform r clock).1 = r := by
  by_cases hsingle : call.single = true
  · exact (call.update r clock hsingle).negative hnegative
  cases call with
  | replaceCredentials | applyCredentialImport | restoreGroupCredentialEntriesExact
  | reconcileGroup | removeCredential | removeGroupCredentials | removeGroup
  | updateGroupCredentialStatuses =>
    grind [Call.perform, Reply.negative, Reply.ofError, Reply.ofErrorFlag, replaceCredentials,
      applyCredentialImport, restoreGroupCredentialEntriesExact, reconcileGroup, removeCredential,
      removeGroupCredentials, removeGroup, updateGroupCredentialStatuses]
  | setModelCooldown => cases hcall
  | expireModelCooldowns | restoreRuntimeCheckpoint => cases hnegative
  | _ => exact absurd rfl hsingle

/-! ## Maintenance -/

theorem Represents.expireModelCooldowns (h : Represents none r f) (now : Time) :
    Represents none (r.expireModelCooldowns now) fun i => (f i).map (pruned now) where
  entries groupID id entry := by
    have hmap := entryIn_map r.buckets (fun _ _ => pruned now) groupID id
    have hentry : (r.buckets[groupID]?.getD ∅)[id]? = (f id).filter (·.groupID = groupID) :=
      h.entryIn groupID id
    rw [CredentialRegistry.entryIn, bucket, CredentialRegistry.expireModelCooldowns, hmap, hentry]
    cases f id with
    | none => simp
    | some old =>
      rw [Option.filter_some, Option.map_some, Option.some.injEq]
      constructor
      · intro hpruned
        split at hpruned
        · rename_i hin
          cases hpruned
          exact ⟨rfl, show old.groupID = groupID by simpa using hin⟩
        · cases hpruned
      · rintro ⟨rfl, hin⟩
        simp [show old.groupID = groupID from hin]
  groups id := by
    rw [CredentialRegistry.expireModelCooldowns, h.groups, Option.map_map]
    rfl
  ids id entry he := by
    obtain ⟨old, hold, rfl⟩ := Option.map_eq_some_iff.mp he
    exact h.ids id old hold
  nonempty groupID bucket hb hopened := by
    rw [CredentialRegistry.expireModelCooldowns, ExtTreeMap.getElem?_map] at hb
    obtain ⟨old, hold, rfl⟩ := Option.map_eq_some_iff.mp hb
    simpa using h.nonempty groupID old hold hopened
  members id := by
    rw [CredentialRegistry.expireModelCooldowns, h.members, Option.map_map]
    rfl

/-- What a checkpoint leaves of the entry of a credential. -/
def restoredBy (id : Nat) (e : Option CredentialEntry) (checkpoint : TimedCheckpoint) :
    Option CredentialEntry :=
  if checkpoint.id = id && checkpoint.valid && e.any (·.groupID = checkpoint.groupID) then
    e.map (checkpoint.restore checkpoint.prunedAt)
  else e

def restoredEntry (id : Nat) (checkpoints : List TimedCheckpoint) (e : Option CredentialEntry) :
    Option CredentialEntry :=
  checkpoints.foldl (restoredBy id) e

theorem Represents.restoreCheckpoint (h : Represents none r f) (n : Nat)
    (checkpoint : TimedCheckpoint) :
    Represents none (CredentialRegistry.restoreCheckpoint (r, n) checkpoint).1 fun i =>
      restoredBy i (f i) checkpoint := by
  have skips (skipped : checkpoint.valid = true →
      (f checkpoint.id).any (·.groupID = checkpoint.groupID) = false) :
      Represents none r fun i => restoredBy i (f i) checkpoint := by
    have same : (fun i => restoredBy i (f i) checkpoint) = f := by
      funext i
      refine if_neg fun restored => ?_
      simp only [Bool.and_eq_true, decide_eq_true_eq] at restored
      obtain ⟨⟨rfl, hvalid⟩, hany⟩ := restored
      rw [skipped hvalid] at hany
      cases hany
    rwa [same]
  unfold CredentialRegistry.restoreCheckpoint
  split
  · rename_i hinvalid
    exact skips (by simp_all)
  split
  · rename_i hother
    refine skips fun _ => ?_
    dsimp only at hother
    rw [h.groups] at hother
    cases hf : f checkpoint.id <;> simp_all
  rename_i hvalid hin
  obtain ⟨entry, hentry, hgroup⟩ : ∃ entry, f checkpoint.id = some entry ∧
      entry.groupID = checkpoint.groupID := by
    simpa [h.groups] using hin
  dsimp only
  split
  · rename_i hmissing
    simp [changeEntry, h.groups, hentry, (h.entries _ _ _).mpr ⟨hentry, rfl⟩] at hmissing
  rename_i changed hchanged
  obtain ⟨e, _, he, ⟨⟩, h'⟩ := h.change (by rintro e _ ⟨⟩; exact ⟨rfl, rfl⟩) hchanged
  cases hentry.symm.trans he
  refine Eq.mp (congrArg (Represents none changed) (funext fun i => ?_)) h'
  by_cases hi : checkpoint.id = i
  · subst hi
    simp_all [restoredBy]
  · simp [restoredBy, hi, Ne.symm hi]

theorem Represents.restoreRuntimeCheckpoint (h : Represents none r f)
    (checkpoints : List TimedCheckpoint) :
    Represents none (r.restoreRuntimeCheckpoint checkpoints).1 fun i =>
      restoredEntry i checkpoints (f i) := by
  unfold CredentialRegistry.restoreRuntimeCheckpoint
  generalize 0 = n
  induction checkpoints generalizing r f n with
  | nil => exact h
  | cons checkpoint checkpoints ih =>
    exact ih (h.restoreCheckpoint n checkpoint) _

/-! ## Every call keeps the registry consistent -/

/-- How a call that lists a credential installs it anew. A reconciliation leaves the entry of a
credential whose configuration has not changed in place; a checkpoint of another group is
skipped. -/
def Call.listed (r : CredentialRegistry) (id : Nat) :
    Call → Option (Option CredentialEntry → Option CredentialEntry)
  | .replaceCredentials entries | .applyCredentialImport _ entries =>
    (entries.find? (·.id = id)).map renewed
  | .restoreGroupCredentialEntriesExact _ entries =>
    (entries.find? (·.id = id)).map fun x _ => some x
  | .reconcileGroup groupID entries =>
    ((entries.find? (·.id = id)).filter fun desired =>
      !(r.entryIn groupID id).any (samePersistedCredentialConfig · desired)).map renewed
  | .restoreRuntimeCheckpoint checkpoints =>
    if checkpoints.any fun checkpoint => checkpoint.id = id && checkpoint.valid &&
        r.credentialGroups[id]? = some checkpoint.groupID then
      some (restoredEntry id checkpoints)
    else none
  | _ => none

/-- A call that is refused installs nothing. -/
def Call.installs (r : CredentialRegistry) (clock : Clock) (id : Nat) (call : Call) :
    Option (Option CredentialEntry → Option CredentialEntry) :=
  if (call.perform r clock).2.negative then none else call.listed r id

theorem restoredEntry_unlisted {checkpoints : List TimedCheckpoint} {id : Nat}
    (hgroups : r.credentialGroups[id]? = e.map (·.groupID))
    (hlisted : Call.listed r id (.restoreRuntimeCheckpoint checkpoints) = none) :
    restoredEntry id checkpoints e = e := by
  simp only [Call.listed, ite_eq_right_iff, reduceCtorEq, imp_false, List.any_eq_true,
    Bool.and_eq_true, decide_eq_true_eq, not_exists, not_and] at hlisted
  induction checkpoints with
  | nil => rfl
  | cons checkpoint checkpoints ih =>
    have skipped : restoredBy id e checkpoint = e := by
      have := hlisted checkpoint (by simp)
      cases e <;> grind [restoredBy]
    rw [restoredEntry, List.foldl_cons, skipped]
    exact ih fun c hc => hlisted c (List.mem_cons_of_mem _ hc)

theorem Represents.reconciliation_effect (h : Represents none r f) {entries : List CredentialEntry}
    (hgroup : ∀ x ∈ entries, x.groupID = groupID) (i : Nat) :
    Effect (Call.listed r i (.reconcileGroup groupID entries)) (f i)
      (reconciliation r groupID entries f i) := by
  unfold Call.listed reconciliation
  dsimp only
  cases hfind : entries.find? (·.id = i) with
  | none => exact .filtered _ _
  | some desired =>
    obtain rfl : desired.id = i := by simpa using List.find?_some hfind
    have hin := hgroup desired (List.mem_of_find?_eq_some hfind)
    have hentry : (r.bucket groupID)[desired.id]? = _ := h.entryIn groupID desired.id
    simp only [Option.map_some, Option.some_or, reconciled, hentry, h.entryIn]
    have hcopy : ∀ {installs}, installs = some (renewed desired) →
        Effect installs (f desired.id) (some (preserveModelCooldowns (cloneCredentialEntry desired)
          ((f desired.id).filter (·.groupID = groupID)))) :=
      fun hi => hin ▸ .installed hi rfl
    cases hprevious : (f desired.id).filter (·.groupID = groupID) <;> rw [hprevious] at hcopy
    case none => exact hcopy rfl
    case some existing =>
      dsimp only
      split
      · rw [(Option.filter_eq_some_iff.mp hprevious).1]
        exact .edited ⟨rfl, rfl, .inl rfl⟩
      · rename_i hsame
        exact hcopy (by simp [hsame, Option.filter])

theorem Represents.perform_listed (h : Represents none r f) (clock : Clock) (call : Call) :
    Becomes f (call.perform r clock).1 fun i => call.listed r i := by
  by_cases hsingle : call.single = true
  · exact (call.update r clock hsingle).represents h
  cases call with
  | replaceCredentials entries => exact h.replaceCredentials clock entries
  | applyCredentialImport groupID entries => exact h.applyCredentialImport clock groupID entries
  | restoreGroupCredentialEntriesExact groupID entries =>
    exact h.restoreGroupCredentialEntriesExact clock groupID entries
  | reconcileGroup groupID entries =>
    obtain ⟨f', h', rfl | ⟨hgroup, rfl⟩⟩ := h.reconcileGroup clock groupID entries
    · exact ⟨f', h', fun _ => .kept _⟩
    · exact ⟨_, h', h.reconciliation_effect hgroup⟩
  | removeCredential id => exact h.removeCredential id
  | removeGroupCredentials groupID ids => exact h.removeGroupCredentials groupID ids
  | removeGroup groupID => exact h.removeGroup groupID
  | setModelCooldown ref model until_ now => exact h.setModelCooldown clock ref model until_ now
  | updateGroupCredentialStatuses groupID ids status =>
    simp only [Call.perform, Prod.map_fst, id_eq, updateGroupCredentialStatuses]
    split
    · exact h.kept
    split
    · exact h.kept
    obtain ⟨f', h', hf'⟩ := h.updateStatuses clock status ids
    refine ⟨f', h', fun i => ?_⟩
    obtain hi | hi := hf' i <;> rw [hi]
    · exact .kept _
    cases f i with
    | none => exact .kept _
    | some e => exact .edited ⟨rfl, rfl, .inl rfl⟩
  | expireModelCooldowns now =>
    refine ⟨_, h.expireModelCooldowns now, fun i => ?_⟩
    cases f i with
    | none => exact .kept _
    | some e => exact .edited ⟨rfl, rfl, .inl rfl⟩
  | restoreRuntimeCheckpoint checkpoints =>
    refine ⟨_, h.restoreRuntimeCheckpoint checkpoints, fun i => ?_⟩
    dsimp only
    cases hlisted : Call.listed r i (.restoreRuntimeCheckpoint checkpoints) with
    | none =>
      rw [restoredEntry_unlisted (h.groups i) hlisted]
      exact .kept _
    | some c =>
      simp only [Call.listed, Option.ite_none_right_eq_some, Option.some.injEq] at hlisted
      exact .installed (congrArg some hlisted.2.symm) rfl
  | _ => exact absurd rfl hsingle

theorem Represents.perform (h : Represents none r f) (clock : Clock) (call : Call) :
    Becomes f (call.perform r clock).1 fun i => call.installs r clock i := by
  unfold Call.installs
  by_cases hnegative : (call.perform r clock).2.negative = true
  swap
  · simpa only [if_neg hnegative] using h.perform_listed clock call
  simp only [hnegative, if_true]
  cases hcall : call.modelCooldown with
  | none => exact ⟨f, (perform_negative clock call hnegative hcall).symm ▸ h, fun _ => .kept _⟩
  | some =>
    cases call with
    | setModelCooldown ref model until_ now => exact h.setModelCooldown clock ref model until_ now
    | _ => cases hcall

def run (history : List (Call × Clock)) : CredentialRegistry :=
  history.foldl (fun r call => (call.1.perform r call.2).1) newCredentialRegistry

theorem represents_run (history : List (Call × Clock)) : ∃ f, Represents none (run history) f := by
  induction history using List.reverseRecOn with
  | nil => exact ⟨_, represents_new⟩
  | append_singleton history call ih =>
    obtain ⟨f, h⟩ := ih
    obtain ⟨f', h', -⟩ := h.perform call.2 call.1
    exact ⟨f', by simpa [run] using h'⟩

/-- The buckets and the index agree, no bucket is empty, and the ledger has exactly the registered
credentials as members, with their current group and identity generation. -/
structure Consistent (r : CredentialRegistry) : Prop where
  index : ∀ id groupID, r.credentialGroups[id]? = some groupID ↔
    ∃ entry, r.entryIn groupID id = some entry
  located : ∀ groupID id entry, r.entryIn groupID id = some entry →
    entry.id = id ∧ entry.groupID = groupID
  nonempty : NoEmptyBucket r.buckets
  members : ∀ id, identityOf r.scheduling id = (r.entryLocked id).map identity

theorem Represents.consistent (h : Represents none r f) : Consistent r where
  index id groupID := by
    rw [h.groups, Option.map_eq_some_iff]
    simp only [h.entries]
  located groupID id entry hentry := by
    obtain ⟨hf, hin⟩ := (h.entries groupID id entry).mp hentry
    exact ⟨h.ids id entry hf, hin⟩
  nonempty groupID bucket hb := h.nonempty groupID bucket hb nofun
  members id := by rw [h.members, h.entryLocked]

theorem Consistent.changeEntry (h : Consistent r) {id : Nat}
    (hentry : r.entryLocked id = some entry) (change : CredentialEntry → CredentialEntry) :
    r.changeEntry clock false id (fun entry => some (change entry)) =
      some (r.store entry.groupID id (change entry)) := by
  obtain ⟨groupID, hgroup, hin⟩ := Option.bind_eq_some_iff.mp hentry
  simp [CredentialRegistry.changeEntry, hgroup, hin, (h.located groupID id entry hin).2]

/-- A model cooldown that is refused changes nothing, or finds its credential and drops the
cooldowns of it that have passed. -/
theorem setModelCooldown_negative (hr : Consistent r) (clock : Clock)
    (ref : CredentialRegistry.CredentialRef)
    (model : String) (until_ now : Time)
    (hnegative :
      (Call.perform r clock (.setModelCooldown ref model until_ now)).2.negative = true) :
    (Call.perform r clock (.setModelCooldown ref model until_ now)).1 = r ∨
    (Call.perform r clock (.setModelCooldown ref model until_ now)).2 = .flags true false ∧
      ∃ entry, r.entryLocked ref.id = some entry ∧
        (Call.perform r clock (.setModelCooldown ref model until_ now)).1 =
          r.store ref.groupID ref.id
            { entry with modelCooldowns := pruneModelCooldowns entry.modelCooldowns now } := by
  simp only [Call.perform, Prod.map_fst, Prod.map_snd, id_eq, setModelCooldown]
    at hnegative ⊢
  split
  · exact .inl rfl
  rename_i hmodel
  cases hentry : r.entryLocked ref.id with
  | none => exact .inl rfl
  | some entry =>
    simp only [hmodel, hentry] at hnegative ⊢
    split
    · exact .inl rfl
    rename_i hsame
    -- Only the comparison of the deadlines is left to refuse the call.
    simp only [hsame, Bool.false_eq_true, if_false, Reply.negative, Bool.not_true,
      Bool.false_or, Bool.not_eq_true', decide_eq_false_iff_not] at hnegative
    have hgroup : entry.groupID = ref.groupID := by grind
    right
    simp only [hnegative, decide_false, if_false]
    rw [hr.changeEntry hentry fun e =>
      { e with modelCooldowns := pruneModelCooldowns entry.modelCooldowns now }]
    exact ⟨trivial, entry, rfl, by rw [← hgroup]; rfl⟩

/-- Over every history the registry and the ledger agree, and a call that answers with an error or
with false leaves both as they are. The one exception is a model cooldown that ends no later than
the one in place: it still drops the cooldowns of that credential that have passed. -/
theorem registry_consistent (history : List (Call × Clock)) (call : Call) (clock : Clock) :
    Consistent (run history) ∧
    ((call.perform (run history) clock).2.negative = true →
      (call.perform (run history) clock).1 = run history ∨
      ∃ ref model until_ now entry, call = .setModelCooldown ref model until_ now ∧
        (call.perform (run history) clock).2 = .flags true false ∧
        (run history).entryLocked ref.id = some entry ∧
        (call.perform (run history) clock).1 = (run history).store ref.groupID ref.id
          { entry with modelCooldowns := pruneModelCooldowns entry.modelCooldowns now }) := by
  have hconsistent : Consistent (run history) := by
    obtain ⟨f, h⟩ := represents_run history
    exact h.consistent
  refine ⟨hconsistent, fun hnegative => ?_⟩
  cases hcall : call.modelCooldown with
  | none => exact .inl (perform_negative clock call hnegative hcall)
  | some =>
    cases call with
    | setModelCooldown ref model until_ now =>
      obtain h | ⟨hreply, entry, hentry, h⟩ :=
        setModelCooldown_negative hconsistent clock ref model until_ now hnegative
      · exact .inl h
      · exact .inr ⟨ref, model, until_, now, entry, rfl, hreply, hentry, h⟩
    | _ => cases hcall

section Example

def sampleEntry : CredentialEntry :=
  { id := 3, groupID := 1, version := 1, identityGeneration := 1, fingerprint := "f",
    status := .active, encryptedValue := "v" }

def sampleRef : CredentialRegistry.CredentialRef :=
  { id := 3, groupID := 1, version := 1, identityGeneration := 1, fingerprint := "f",
    encryptedValue := "v", encryptedProxy := "", proxyFingerprint := "", failureGeneration := 0,
    modelCooldownGeneration := 0 }

/-- One credential whose model `"a"` is cooled down until 100 and whose model `"b"` until 5. -/
def sampleHistory : List (Call × Clock) :=
  [(.applyCredentialImport 1 [sampleEntry], fun _ => 0),
   (.setModelCooldown sampleRef "a" 100 1, fun _ => 1),
   (.setModelCooldown sampleRef "b" 5 1, fun _ => 1)]

theorem registry_consistent_unknownCredential :
    (Call.perform (run sampleHistory) (fun _ => 10) (.removeCredential 4)).2.negative = true ∧
    Consistent (run sampleHistory) ∧
    (Call.perform (run sampleHistory) (fun _ => 10) (.removeCredential 4)).1 =
      run sampleHistory := by
  have hnegative : (Call.perform (run sampleHistory) (fun _ => 10) (.removeCredential 4)).2.negative
      = true := by decide +kernel
  obtain ⟨hconsistent, hrefused⟩ :=
    registry_consistent sampleHistory (.removeCredential 4) (fun _ => 10)
  refine ⟨hnegative, hconsistent, ?_⟩
  obtain h | ⟨_, _, _, _, _, hcall, _⟩ := hrefused hnegative
  · exact h
  · cases hcall

/-- Refused at time 10, `SetModelCooldown` for `"a"` drops the cooldown of `"b"`. -/
theorem refused_model_cooldown_prunes :
    let r := run sampleHistory
    let result := Call.perform r (fun _ => 10) (.setModelCooldown sampleRef "a" 50 10)
    result.2 = .flags true false ∧
    (r.entryLocked 3).bind (·.modelCooldowns["b"]?) = some 5 ∧
    (result.1.entryLocked 3).bind (·.modelCooldowns["b"]?) = none := by
  decide +kernel

end Example

end ApiLoad.Registry
