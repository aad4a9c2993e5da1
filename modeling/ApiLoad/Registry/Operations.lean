import ApiLoad.Registry.Entry

/-!
# Operations of the credential registry

The registry keeps the entries by group, an index from credentials to groups, and reports every
change to the scheduling ledger (`internal/state/registry.go`). Each operation runs under the lock
of the registry, so it is one step; it returns the registry together with its results.

The clock is read when the ledger is told about a credential, which happens at most once for each
credential in a call. Only the checkpoints of a restart may list a credential twice; they come with
their readings.
-/
namespace ApiLoad.Registry
open Std Foundation Text Scheduling

structure CredentialRegistry where
  scheduling : SchedulingLedger := newSchedulingState
  buckets : ExtTreeMap Nat (ExtTreeMap Nat CredentialEntry) := ∅
  credentialGroups : ExtTreeMap Nat Nat := ∅

def newCredentialRegistry : CredentialRegistry := {}

abbrev Clock := Nat → Time

namespace CredentialRegistry

/-- A bucket; one that does not exist reads as empty. -/
def bucket (r : CredentialRegistry) (groupID : Nat) : ExtTreeMap Nat CredentialEntry :=
  r.buckets[groupID]?.getD ∅

def entryIn (r : CredentialRegistry) (groupID id : Nat) : Option CredentialEntry :=
  (r.bucket groupID)[id]?

def entryLocked (r : CredentialRegistry) (id : Nat) : Option CredentialEntry :=
  r.credentialGroups[id]?.bind fun groupID => r.entryIn groupID id

def store (r : CredentialRegistry) (groupID id : Nat) (entry : CredentialEntry) :
    CredentialRegistry :=
  { r with buckets := r.buckets.insert groupID ((r.bucket groupID).insert id entry) }

def syncCredential (r : CredentialRegistry) (clock : Clock) (entry : CredentialEntry) :
    CredentialRegistry :=
  { r with scheduling := r.scheduling.syncCredential (runtimeView entry) (clock entry.id) }

/-- `delete` on a bucket in place. -/
def dropFromBucket (r : CredentialRegistry) (groupID id : Nat) : CredentialRegistry :=
  match r.buckets[groupID]? with
  | none => r
  | some bucket => { r with buckets := r.buckets.insert groupID (bucket.erase id) }

def dropEmptyBucket (r : CredentialRegistry) (groupID : Nat) : CredentialRegistry :=
  if (r.bucket groupID).isEmpty then { r with buckets := r.buckets.erase groupID } else r

/-- A credential leaves the index and the ledger. -/
def forget (r : CredentialRegistry) (id : Nat) : CredentialRegistry :=
  { r with
    credentialGroups := r.credentialGroups.erase id
    scheduling := r.scheduling.remove id }

/-! ## Replacing and importing entries -/

def addToBuckets (buckets : ExtTreeMap Nat (ExtTreeMap Nat CredentialEntry))
    (entry : CredentialEntry) : ExtTreeMap Nat (ExtTreeMap Nat CredentialEntry) :=
  buckets.insert entry.groupID
    ((buckets[entry.groupID]?.getD ∅).insert entry.id (cloneCredentialEntry entry))

def replaceCredentials (r : CredentialRegistry) (clock : Clock) (entries : List CredentialEntry) :
    CredentialRegistry × Except String Unit :=
  match validateCredentialEntries entries with
  | .error e => (r, .error e)
  | .ok () =>
    let buckets := entries.foldl addToBuckets ∅
    ({ scheduling :=
        r.scheduling.syncCredentials 0
          (entries.map fun entry => (runtimeView entry, clock entry.id))
       buckets := buckets.map fun groupID bucket =>
        bucket.map fun id entry => preserveModelCooldowns entry (r.entryIn groupID id)
       credentialGroups :=
        entries.foldl (fun groups entry => groups.insert entry.id entry.groupID) ∅ },
      .ok ())

/-- The checks before the lock that the operations on one group share. -/
def validateGroupEntries (groupID : Nat) (entries : List CredentialEntry) : Except String Unit :=
  match validateCredentialEntries entries with
  | .error e => .error e
  | .ok () =>
    match entries.find? fun entry => entry.groupID ≠ groupID with
    | some entry =>
      .error s!"credential {entry.id} belongs to group {entry.groupID}, want {groupID}"
    | none => .ok ()

/-- The check under the lock that no entry belongs to another group. -/
def checkOwnership (r : CredentialRegistry) (groupID : Nat) (entries : List CredentialEntry) :
    Except String Unit :=
  match entries.findSome? fun entry =>
      (r.credentialGroups[entry.id]?.filter (· ≠ groupID)).map fun existing =>
        (entry, existing) with
  | some (entry, existing) => .error s!"credential {entry.id} already belongs to group {existing}"
  | none => .ok ()

/-- An entry with its place in the index, reported to the ledger. -/
def putEntry (groupID : Nat) (clock : Clock) (r : CredentialRegistry) (entry : CredentialEntry) :
    CredentialRegistry :=
  let r := r.store groupID entry.id entry
  { r with credentialGroups := r.credentialGroups.insert entry.id groupID }.syncCredential
    clock entry

def importEntry (groupID : Nat) (clock : Clock) (r : CredentialRegistry) (entry : CredentialEntry) :
    CredentialRegistry :=
  r.putEntry groupID clock
    (preserveModelCooldowns (cloneCredentialEntry entry) (r.entryIn groupID entry.id))

def applyCredentialImport (r : CredentialRegistry) (clock : Clock) (groupID : Nat)
    (entries : List CredentialEntry) : CredentialRegistry × Except String Unit :=
  if groupID = 0 then (r, .error "group id is required")
  else match validateGroupEntries groupID entries, r.checkOwnership groupID entries with
    | .error e, _ => (r, .error e)
    | .ok (), .error e => (r, .error e)
    | .ok (), .ok () => (entries.foldl (importEntry groupID clock) r, .ok ())

def restoreGroupCredentialEntriesExact (r : CredentialRegistry) (clock : Clock) (groupID : Nat)
    (entries : List CredentialEntry) : CredentialRegistry × Except String Unit :=
  if groupID = 0 then (r, .error "group id is required")
  else if entries.length = 0 then (r, .error "credential entries are required")
  else match validateGroupEntries groupID entries, r.checkOwnership groupID entries with
    | .error e, _ => (r, .error e)
    | .ok (), .error e => (r, .error e)
    | .ok (), .ok () => (entries.foldl (putEntry groupID clock) r, .ok ())

def matchesGroupLocked (r : CredentialRegistry) (groupID : Nat) (entries : List CredentialEntry) :
    Bool :=
  (r.bucket groupID).size = entries.length &&
    entries.all fun desired =>
      (r.entryIn groupID desired.id).any fun existing =>
        existing.name = desired.name && samePersistedCredentialConfig existing desired

/-- The entry that a reconciliation keeps or creates. -/
def reconciled (previous : ExtTreeMap Nat CredentialEntry) (desired : CredentialEntry) :
    CredentialEntry :=
  match previous[desired.id]? with
  | some existing =>
    if samePersistedCredentialConfig existing desired then { existing with name := desired.name }
    else preserveModelCooldowns (cloneCredentialEntry desired) (some existing)
  | none => cloneCredentialEntry desired

def syncSchedulingGroupLocked (r : CredentialRegistry) (clock : Clock) (groupID : Nat) :
    CredentialRegistry :=
  let views := (r.bucket groupID).toList.map fun e => (runtimeView e.2, clock e.2.id)
  { r with scheduling := r.scheduling.syncCredentials groupID views }

/-- The part of `ReconcileGroup` that installs the new bucket and its index. -/
def installBucket (r : CredentialRegistry) (groupID : Nat) (next : ExtTreeMap Nat CredentialEntry) :
    CredentialRegistry :=
  let groups := (r.bucket groupID).keys.foldl (fun groups id => groups.erase id) r.credentialGroups
  if next.isEmpty then
    { r with buckets := r.buckets.erase groupID, credentialGroups := groups }
  else
    { r with
      buckets := r.buckets.insert groupID next
      credentialGroups := next.keys.foldl (fun groups id => groups.insert id groupID) groups }

def reconcileGroup (r : CredentialRegistry) (clock : Clock) (groupID : Nat)
    (entries : List CredentialEntry) : CredentialRegistry × Except String Bool :=
  if groupID = 0 then (r, .error "group id is required")
  else match validateGroupEntries groupID entries, r.checkOwnership groupID entries with
    | .error e, _ => (r, .error e)
    | .ok (), .error e => (r, .error e)
    | .ok (), .ok () =>
      if r.matchesGroupLocked groupID entries then (r, .ok false)
      else
        let next := entries.foldl
          (fun next desired => next.insert desired.id (reconciled (r.bucket groupID) desired)) ∅
        ((r.installBucket groupID next).syncSchedulingGroupLocked clock groupID, .ok true)

/-! ## Removing entries -/

def removeCredential (r : CredentialRegistry) (id : Nat) : CredentialRegistry × Bool :=
  match r.credentialGroups[id]? with
  | none => (r, false)
  | some groupID => (((r.dropFromBucket groupID id).dropEmptyBucket groupID).forget id, true)

def validateGroupCredentialIDs (r : CredentialRegistry) (groupID : Nat) (seen : List Nat) :
    List Nat → Except String Unit
  | [] => .ok ()
  | id :: ids =>
    if id = 0 then .error "credential id is required"
    else if id ∈ seen then .error s!"duplicate credential id {id}"
    else match r.credentialGroups[id]? with
      | none => .error s!"credential {id} not found"
      | some actual =>
        if actual ≠ groupID then
          .error s!"credential {id} belongs to group {actual}, want {groupID}"
        else if (r.entryIn groupID id).isNone then
          .error s!"credential {id} not found in group {groupID}"
        else r.validateGroupCredentialIDs groupID (id :: seen) ids

def validateGroupCredentialIDsLocked (r : CredentialRegistry) (groupID : Nat) (ids : List Nat) :
    Except String Unit :=
  if groupID = 0 then .error "group id is required"
  else if ids.length = 0 then .error "credential ids are required"
  else r.validateGroupCredentialIDs groupID [] ids

def removeGroupCredentials (r : CredentialRegistry) (groupID : Nat) (ids : List Nat) :
    CredentialRegistry × Except String Unit :=
  match r.validateGroupCredentialIDsLocked groupID ids with
  | .error e => (r, .error e)
  | .ok () =>
    ((ids.foldl (fun r id => (r.dropFromBucket groupID id).forget id) r).dropEmptyBucket groupID,
      .ok ())

def removeGroup (r : CredentialRegistry) (groupID : Nat) : CredentialRegistry × Bool :=
  if groupID = 0 then (r, false)
  else match r.buckets[groupID]? with
    | none => (r, false)
    | some bucket =>
      let emptied := bucket.keys.foldl forget r
      ({ emptied with buckets := emptied.buckets.erase groupID }, true)

/-! ## Updating one entry -/

/-- The entry of a credential is changed in place, unless it is missing or the change refuses it,
and reported to the ledger if the change may matter there. -/
def changeEntry (r : CredentialRegistry) (clock : Clock) (reported : Bool) (id : Nat)
    (change : CredentialEntry → Option CredentialEntry) : Option CredentialRegistry :=
  r.credentialGroups[id]?.bind fun groupID =>
    (r.entryIn groupID id).bind fun entry =>
      (change entry).map fun entry =>
        let r := r.store groupID id entry
        if reported then r.syncCredential clock entry else r

/-- The results of an operation that answers whether it found its credential. -/
def orUnchanged (r : CredentialRegistry) (changed : Option CredentialRegistry) :
    CredentialRegistry × Bool :=
  match changed with
  | some changed => (changed, true)
  | none => (r, false)

def orNotFound (r : CredentialRegistry) (id : Nat) (changed : Option CredentialRegistry) :
    CredentialRegistry × Except String Unit :=
  match changed with
  | some changed => (changed, .ok ())
  | none => (r, .error s!"credential {id} not found")

def invalidStatus (status : CredentialStatus) : String :=
  s!"invalid credential status {quoted (statusText status)}"

def setCredentialStatus (r : CredentialRegistry) (clock : Clock) (id : Nat)
    (status : CredentialStatus) : CredentialRegistry × Except String Unit :=
  if !validStatus status then (r, .error (invalidStatus status))
  else r.orNotFound id (r.changeEntry clock true id fun entry => some { entry with status })

def updateCredentialConfig (r : CredentialRegistry) (clock : Clock) (id : Nat)
    (status : CredentialStatus) (weightManual : Option Int) :
    CredentialRegistry × Except String Unit :=
  if !validStatus status then (r, .error (invalidStatus status))
  else match validateManualWeight s!"credential {id}" weightManual with
    | .error e => (r, .error e)
    | .ok () =>
      r.orNotFound id
        (r.changeEntry clock true id fun entry => some { entry with status, weightManual })

/-- One round of the loop of `UpdateGroupCredentialStatuses`. -/
def updateStatus (clock : Clock) (status : CredentialStatus) (r : CredentialRegistry) (id : Nat) :
    CredentialRegistry :=
  (r.changeEntry clock true id fun entry => some { entry with status }).getD r

def updateGroupCredentialStatuses (r : CredentialRegistry) (clock : Clock) (groupID : Nat)
    (ids : List Nat) (status : CredentialStatus) : CredentialRegistry × Except String Unit :=
  if !validStatus status then (r, .error (invalidStatus status))
  else match r.validateGroupCredentialIDsLocked groupID ids with
    | .error e => (r, .error e)
    | .ok () => (ids.foldl (updateStatus clock status) r, .ok ())

def updateCredentialName (r : CredentialRegistry) (clock : Clock) (groupID id : Nat)
    (name : String) : CredentialRegistry × Bool :=
  r.orUnchanged (r.changeEntry clock false id fun entry =>
    if entry.groupID ≠ groupID then none else some { entry with name })

def replaceCredentialSecretIfMatch (r : CredentialRegistry) (clock : Clock)
    (id expectedVersion nextVersion : Nat) (fingerprint encryptedValue : String) :
    CredentialRegistry × Bool :=
  if id = 0 || expectedVersion = 0 || nextVersion ≤ expectedVersion ||
      trimSpace fingerprint = "" || encryptedValue = "" then (r, false)
  else r.orUnchanged (r.changeEntry clock false id fun entry =>
    if entry.version ≠ expectedVersion then none
    else some { entry with
      version := nextVersion, fingerprint, encryptedValue, authState := .ready })

def setCredentialAuthState (r : CredentialRegistry) (clock : Clock) (id : Nat)
    (authState : CredentialAuthState) : CredentialRegistry × Bool :=
  if !validAuthState authState then (r, false)
  else r.orUnchanged (r.changeEntry clock true id fun entry =>
    let state := normalize authState
    if state ≠ .ready then
      some { entry with authState := state, quotaRemaining := none, quotaResetAt := 0 }
    else some { entry with authState := state })

/-! ## Cooldowns, the blacklist and recovery -/

def clearCooldownIfMatch (r : CredentialRegistry) (clock : Clock) (id : Nat) (expected : Time) :
    CredentialRegistry × Bool :=
  if expected = 0 then (r, false)
  else r.orUnchanged (r.changeEntry clock true id fun entry =>
    if entry.cooldownUntil ≠ expected then none else some { entry with cooldownUntil := 0 })

/-- An update that answers whether it found the credential and whether it changed it. -/
def extendEntry (r : CredentialRegistry) (clock : Clock) (id : Nat)
    (accepts : CredentialEntry → Bool) (change : CredentialEntry → Option CredentialEntry) :
    CredentialRegistry × Bool × Bool :=
  match r.entryLocked id with
  | none => (r, false, false)
  | some entry =>
    if !accepts entry then (r, false, false)
    else match r.changeEntry clock true id change with
      | some changed => (changed, true, true)
      | none => (r, true, false)

def laterCooldown (until_ : Time) (entry : CredentialEntry) : Option CredentialEntry :=
  if entry.cooldownUntil < until_ then some { entry with cooldownUntil := until_ } else none

def setCooldownWithChange (r : CredentialRegistry) (clock : Clock) (id : Nat) (until_ : Time) :
    CredentialRegistry × Bool × Bool :=
  r.extendEntry clock id (fun _ => true) (laterCooldown until_)

def setCooldownWithChangeIfVersion (r : CredentialRegistry) (clock : Clock)
    (id expectedVersion : Nat) (until_ : Time) : CredentialRegistry × Bool × Bool :=
  r.extendEntry clock id (fun entry => entry.version = expectedVersion) (laterCooldown until_)

def setBlacklistedWithChange (r : CredentialRegistry) (clock : Clock) (id : Nat) :
    CredentialRegistry × Bool × Bool :=
  r.extendEntry clock id (fun _ => true) fun entry =>
    if entry.blacklisted then none
    else some { entry with
      blacklisted := true
      failureGeneration := nextGeneration entry.failureGeneration }

def incrFailure (r : CredentialRegistry) (clock : Clock) (id : Nat) :
    CredentialRegistry × Bool :=
  r.orUnchanged (r.changeEntry clock false id fun entry =>
    some { entry with
      failureCount := entry.failureCount + 1
      failureGeneration := nextGeneration entry.failureGeneration })

def clearFailure (r : CredentialRegistry) (clock : Clock) (id : Nat) : CredentialRegistry × Bool :=
  r.orUnchanged (r.changeEntry clock false id fun entry =>
    if entry.failureCount ≠ 0 then
      some { entry with
        failureCount := 0
        failureGeneration := nextGeneration entry.failureGeneration }
    else some entry)

def recovered (entry : CredentialEntry) : CredentialEntry :=
  { entry with
    blacklisted := false
    failureCount := 0
    failureGeneration := nextGeneration entry.failureGeneration }

def restoreRuntimeState (r : CredentialRegistry) (clock : Clock) (id : Nat) :
    CredentialRegistry × Bool :=
  r.orUnchanged (r.changeEntry clock true id fun entry =>
    some { recovered entry with cooldownUntil := 0 })

def recover (r : CredentialRegistry) (clock : Clock) (id : Nat) : CredentialRegistry × Bool :=
  r.orUnchanged (r.changeEntry clock true id fun entry =>
    if entry.blacklisted || entry.failureCount ≠ 0 then some (recovered entry) else some entry)

/-- What `restoreRuntimeStateIfMatch` compares of a `CredentialRef`. -/
structure CredentialRef where
  id : Nat
  groupID : Nat
  version : Nat
  identityGeneration : Nat
  fingerprint : String
  encryptedValue : String
  encryptedProxy : String
  proxyFingerprint : String
  failureGeneration : Nat
  modelCooldownGeneration : Nat

def CredentialRef.matchesBlacklisted (ref : CredentialRef) (entry : CredentialEntry) : Bool :=
  entry.status = .active && entry.blacklisted && entry.groupID = ref.groupID &&
    entry.version = ref.version && entry.identityGeneration = ref.identityGeneration &&
    entry.fingerprint = ref.fingerprint && entry.encryptedValue = ref.encryptedValue &&
    entry.encryptedProxy = ref.encryptedProxy && entry.proxyFingerprint = ref.proxyFingerprint &&
    entry.failureGeneration = ref.failureGeneration

/-- `RecoverIfMatch` without a cooldown, `RestoreRuntimeStateIfMatch` with one. -/
def restoreRuntimeStateIfMatch (r : CredentialRegistry) (clock : Clock) (ref : CredentialRef)
    (cooldownUntil : Option Time) : CredentialRegistry × Bool :=
  if r.credentialGroups[ref.id]? ≠ some ref.groupID then (r, false)
  else r.orUnchanged (r.changeEntry clock true ref.id fun entry =>
    if !ref.matchesBlacklisted entry || cooldownUntil.any (· ≠ entry.cooldownUntil) then none
    else if cooldownUntil.isSome then some { recovered entry with cooldownUntil := 0 }
    else some (recovered entry))

/-- `SetModelCooldown`. Cooldowns that have passed are dropped before the deadlines are compared,
also when the new deadline is not later than the one in place. -/
def setModelCooldown (r : CredentialRegistry) (clock : Clock) (ref : CredentialRef)
    (model : String) (until_ now : Time) : CredentialRegistry × Bool × Bool :=
  if model = "" || trimSpace model ≠ model || ¬ now < until_ then (r, false, false)
  else match r.entryLocked ref.id with
    | none => (r, false, false)
    | some entry =>
      if entry.groupID ≠ ref.groupID || entry.identityGeneration ≠ ref.identityGeneration ||
          entry.modelCooldownGeneration ≠ ref.modelCooldownGeneration then (r, false, false)
      else
        let limits := pruneModelCooldowns entry.modelCooldowns now
        let later := limits[model]?.getD 0 < until_
        let limits := if later then limits.insert model until_ else limits
        let changed := r.changeEntry clock false ref.id fun entry =>
          some { entry with modelCooldowns := limits }
        (changed.getD r, true, later)

def clearModelCooldowns (r : CredentialRegistry) (clock : Clock) (id : Nat) :
    CredentialRegistry × Bool :=
  r.orUnchanged (r.changeEntry clock false id fun entry =>
    some { entry with
      modelCooldowns := ∅
      modelCooldownGeneration := nextGeneration entry.modelCooldownGeneration })

/-- `ModelCooldowns`. Reading the cooldowns of a credential drops those that have passed; without
the credential there are none. -/
def readModelCooldowns (r : CredentialRegistry) (clock : Clock) (id : Nat) (now : Time) :
    CredentialRegistry × ExtTreeMap String Time :=
  match r.entryLocked id with
  | none => (r, ∅)
  | some entry =>
    let limits := pruneModelCooldowns entry.modelCooldowns now
    let changed := r.changeEntry clock false id fun entry =>
      some { entry with modelCooldowns := limits }
    (changed.getD r, limits)

/-- The entry without the model cooldowns that have passed. -/
def pruned (now : Time) (entry : CredentialEntry) : CredentialEntry :=
  { entry with modelCooldowns := pruneModelCooldowns entry.modelCooldowns now }

def expireModelCooldowns (r : CredentialRegistry) (now : Time) : CredentialRegistry :=
  { r with buckets := r.buckets.map fun _ bucket => bucket.map fun _ entry => pruned now entry }

/-! ## Checkpoints -/

structure CredentialRuntimeCheckpoint where
  id : Nat
  groupID : Nat
  cooldownUntil : Time := 0
  blacklisted : Bool := false
  failureCount : Int := 0
  identityGeneration : Nat := 0
  modelCooldowns : ExtTreeMap String Time := ∅

def CredentialRuntimeCheckpoint.valid (checkpoint : CredentialRuntimeCheckpoint) : Bool :=
  !(checkpoint.id = 0 || checkpoint.groupID = 0 || checkpoint.failureCount < 0)

/-- The entry takes over the health of a checkpoint. Its generation of failures stays. -/
def CredentialRuntimeCheckpoint.restore (checkpoint : CredentialRuntimeCheckpoint) (now : Time)
    (entry : CredentialEntry) : CredentialEntry :=
  { entry with
    cooldownUntil := checkpoint.cooldownUntil
    blacklisted := checkpoint.blacklisted
    failureCount := checkpoint.failureCount
    modelCooldowns :=
      if checkpoint.identityGeneration = entry.identityGeneration then
        pruneModelCooldowns checkpoint.modelCooldowns now
      else entry.modelCooldowns }

/-- A checkpoint with the readings of the clock for its model cooldowns and for the ledger. -/
structure TimedCheckpoint extends CredentialRuntimeCheckpoint where
  prunedAt : Time
  syncedAt : Time

/-- One round of the loop of `RestoreRuntimeCheckpoint`. -/
def restoreCheckpoint (r : CredentialRegistry × Nat) (checkpoint : TimedCheckpoint) :
    CredentialRegistry × Nat :=
  if !checkpoint.valid then r
  else if r.1.credentialGroups[checkpoint.id]? ≠ some checkpoint.groupID then r
  else match r.1.changeEntry (fun _ => checkpoint.syncedAt) true checkpoint.id
      fun entry => some (checkpoint.restore checkpoint.prunedAt entry) with
    | none => r
    | some changed => (changed, r.2 + 1)

def restoreRuntimeCheckpoint (r : CredentialRegistry) (checkpoints : List TimedCheckpoint) :
    CredentialRegistry × Nat :=
  checkpoints.foldl restoreCheckpoint (r, 0)

/-! ## Snapshots -/

def sortRuntimeViews (views : List CredentialRuntimeView) : List CredentialRuntimeView :=
  views.insertionSort fun a b => a.groupID < b.groupID ∨ a.groupID = b.groupID ∧ a.id ≤ b.id

def snapshot (r : CredentialRegistry) : List CredentialRuntimeView :=
  sortRuntimeViews (r.buckets.toList.flatMap fun (_, bucket) =>
    bucket.toList.map fun (_, entry) => runtimeView entry)

end CredentialRegistry
end ApiLoad.Registry
