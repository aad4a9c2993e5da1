import ApiLoad.Foundation.Time
import ApiLoad.Scheduling.Progress
import ApiLoad.State.Snapshot

/-!
# The scheduling ledger

The allocation history of the credentials and the rotation of the models
(`internal/state/scheduling.go`, `internal/state/model_rotation.go`). The facts about credentials
belong to the registry, which reports them through runtime views; the ledger keeps who has been
served how often and survives a replacement of the configuration.

A function that reads the clock takes the reading as an argument.
-/
namespace ApiLoad.Scheduling
open Std Foundation State

/-! ## Members -/

structure SchedulingMember where
  id : Nat
  groupID : Nat
  identityGeneration : Nat
  progress : SchedulingProgress := {}
  lastSelected : Nat := 0
  pending : Bool := false
  suspended : Bool := false
  cooldownUntil : Time := 0
deriving DecidableEq, Repr

/-- `Admit`: a pending member enters no lower than the baseline. -/
def SchedulingMember.admitAt (m : SchedulingMember) (baseline : SchedulingProgress) :
    SchedulingMember :=
  { m with
    progress := if m.progress.compare baseline = .lt then baseline else m.progress
    pending := false
    suspended := false }

@[ext] structure GroupModelKey where
  groupID : Nat
  externalModel : String
deriving DecidableEq, Repr

instance : Ord GroupModelKey :=
  ⟨compareLex (compareOn GroupModelKey.groupID) (compareOn GroupModelKey.externalModel)⟩
instance : TransOrd GroupModelKey :=
  inferInstanceAs (TransCmp
    (compareLex (compareOn GroupModelKey.groupID) (compareOn GroupModelKey.externalModel)))
instance : LawfulEqOrd GroupModelKey :=
  KeyOrder.lawful_of_pair fun _ _ => GroupModelKey.ext

/-! ## Runtime views of credentials -/

inductive CredentialStatus where
  | active | disabled
  | unrecognized (text : String)
deriving DecidableEq, Repr

/-- `unset` is the empty text, which reads as ready. -/
inductive CredentialAuthState where
  | unset | ready | refreshing | reauthorizationRequired | outcomeUnknown
  | unrecognized (text : String)
deriving DecidableEq, Repr

structure CredentialRuntimeView where
  id : Nat
  groupID : Nat
  identityGeneration : Nat
  weightManual : Option Int := none
  status : CredentialStatus := .active
  authState : CredentialAuthState := .ready
  cooldownUntil : Time := 0
  blacklisted : Bool := false
  modelCooldowns : ExtTreeMap String Time := ∅

/-- Whether `syncCredentialLocked` takes the view for suspended at this reading of the clock. -/
def CredentialRuntimeView.suspendedAt (view : CredentialRuntimeView) (now : Time) : Bool :=
  let authUnavailable :=
    view.authState ≠ .ready ∧ view.authState ≠ .unset ∧ view.authState ≠ .refreshing
  view.status ≠ .active ∨ view.blacklisted ∨ authUnavailable ∨
    view.weightManual.any (· ≤ 0) ∨ now < view.cooldownUntil

/-- The last part of `syncCredentialLocked`: what the view says about suspension and cooldown. The
cooldown itself is recorded, so that one which ends before the next selection is not missed. -/
def SchedulingMember.observe (m : SchedulingMember) (view : CredentialRuntimeView) (now : Time) :
    SchedulingMember :=
  let suspended := view.suspendedAt now
  { m with
    pending := m.pending || suspended || m.suspended ||
      (view.cooldownUntil ≠ 0 && view.cooldownUntil ≠ m.cooldownUntil)
    suspended
    cooldownUntil := view.cooldownUntil }

/-! ## The ledger -/

structure SchedulingLedger where
  members : ExtTreeMap Nat SchedulingMember := ∅
  modelCursors : ExtTreeMap GroupModelKey (List String) := ∅
  groups : ExtTreeMap Nat Bool := ∅
  groupPriorities : ExtTreeMap Nat Int := ∅
  groupRevision : Nat := 0
  groupsKnown : Bool := false
  started : Bool := false
  watermark : SchedulingProgress := {}
  sequence : Nat := 0
  lastMember : Nat := 0
  consecutive : Nat := 0

def newSchedulingState : SchedulingLedger := {}

namespace SchedulingLedger

/-- `Groups[id]`; a group that is not listed reads as disabled. -/
def groupEnabled (d : SchedulingLedger) (groupID : Nat) : Bool := d.groups[groupID]?.getD false

/-- Whether the published groups keep the members of this group out. -/
def groupBlocked (d : SchedulingLedger) (groupID : Nat) : Bool :=
  d.groupsKnown && !d.groupEnabled groupID

def putMember (d : SchedulingLedger) (id : Nat) (m : SchedulingMember) : SchedulingLedger :=
  { d with members := d.members.insert id m }

/-- A streak ends when its member disappears. -/
def forget (d : SchedulingLedger) (id : Nat) : SchedulingLedger :=
  if d.lastMember = id then { d with lastMember := 0, consecutive := 0 } else d

/-- A member that enters a running ledger, or a group that is kept out, waits for admission. -/
def newMember (d : SchedulingLedger) (view : CredentialRuntimeView) : SchedulingMember :=
  { id := view.id, groupID := view.groupID, identityGeneration := view.identityGeneration
    pending := d.started || d.groupBlocked view.groupID }

/-- The member that `syncCredentialLocked` updates, created afresh when the identity of the
credential has changed. -/
def memberFor (d : SchedulingLedger) (view : CredentialRuntimeView) :
    SchedulingLedger × SchedulingMember :=
  match d.members[view.id]? with
  | none => (d.forget view.id, d.newMember view)
  | some m =>
    if m.groupID ≠ view.groupID ∨ m.identityGeneration ≠ view.identityGeneration then
      (d.forget view.id, d.newMember view)
    else (d, m)

/-- `syncCredentialLocked`, which is also `SyncCredential`. -/
def syncCredential (d : SchedulingLedger) (view : CredentialRuntimeView) (now : Time) :
    SchedulingLedger :=
  let (d, m) := d.memberFor view
  d.putMember view.id (m.observe view now)

def remove (d : SchedulingLedger) (id : Nat) : SchedulingLedger :=
  { d with members := d.members.erase id }.forget id

/-- One round of the second loop of `SyncCredentials`. -/
def removeUnseen (groupID : Nat) (seen : List Nat) (d : SchedulingLedger)
    (e : Nat × SchedulingMember) : SchedulingLedger :=
  if groupID ≠ 0 ∧ e.2.groupID ≠ groupID then d
  else if e.1 ∈ seen then d
  else d.remove e.1

/-- `SyncCredentials`: every view comes with the reading of the clock at its turn. Group `0` stands
for a complete replacement. -/
def syncCredentials (d : SchedulingLedger) (groupID : Nat)
    (views : List (CredentialRuntimeView × Time)) : SchedulingLedger :=
  let synced := views.foldl (fun d v => d.syncCredential v.1 v.2) d
  synced.members.toList.foldl (removeUnseen groupID (views.map (·.1.id))) synced

/-! ## Rotation of models -/

/-- A loop of `reconcileModelOrder`: append the models that are wanted and not yet listed. -/
def appendNew (wanted : String → Bool) (order models : List String) : List String :=
  models.foldl (fun order model =>
    if wanted model ∧ model ∉ order then order ++ [model] else order) order

/-- The order of a rotation after a publication: the models that remain keep their places, new
ones follow. -/
def reconcileModelOrder (previous configured : List String) : List String :=
  appendNew (fun _ => true) (appendNew (· ∈ configured) [] previous) configured

/-- `modelsByName`: the upstream models of a group under their external names. -/
def modelsByName (models : List ModelConfig) : ExtTreeMap String (List String) :=
  models.foldl (fun byName model =>
    let name := externalModelName model
    byName.insert name (byName[name]?.getD [] ++ [Text.trimSpace model.id])) ∅

def syncModelCursors (d : SchedulingLedger) (snapshot : ConfigSnapshot) : SchedulingLedger :=
  let kept := d.modelCursors.filter fun key _ =>
    (snapshot.groupCatalog[key.groupID]?.map fun group => !group.enabled).getD false
  let cursors := snapshot.groups.toList.foldl (fun cursors group =>
    (modelsByName group.2.models).toList.foldl (fun cursors named =>
      let key : GroupModelKey := ⟨group.1, named.1⟩
      if 1 < named.2.length then
        cursors.insert key (reconcileModelOrder (d.modelCursors[key]?.getD [])
          (named.2.insertionSort (· ≤ ·)))
      else cursors) cursors) kept
  { d with modelCursors := cursors }

/-- The loop of `slices.BinarySearch` between two indices. -/
def searchBetween (models : List String) (target : String) : Nat → Nat → Nat → Nat
  | 0, low, _ => low
  | fuel + 1, low, high =>
    if low < high then
      let middle := (low + high) / 2
      if models[middle]?.any (· < target) then searchBetween models target fuel (middle + 1) high
      else searchBetween models target fuel low middle
    else low

/-- The second result of `slices.BinarySearch`. -/
def binarySearch (models : List String) (target : String) : Bool :=
  models[searchBetween models target models.length 0 models.length]? = some target

/-- `SelectModel`: the first model in rotation that is available moves to the end. -/
def selectModel (d : SchedulingLedger) (groupID : Nat) (externalModel : String)
    (models : List String) : SchedulingLedger × String :=
  match models with
  | [] => (d, "")
  | first :: _ =>
    let key : GroupModelKey := ⟨groupID, externalModel⟩
    let order := d.modelCursors[key]?.getD []
    match order.find? (binarySearch models) with
    | none => (d, first)
    | some model =>
      ({ d with modelCursors := d.modelCursors.insert key (order.erase model ++ [model]) }, model)

/-! ## Publication of groups -/

/-- Whether a published group takes part in scheduling. -/
def groupActive (snapshot : ConfigSnapshot) (id : Nat) (group : GroupCatalogView) : Bool :=
  group.enabled && snapshot.models id ≠ [] && !group.weightManual.any (· ≤ 0)

/-- `SyncGroups`. An older publication is ignored. -/
def syncGroups (d : SchedulingLedger) (snapshot : Option ConfigSnapshot) : SchedulingLedger :=
  match snapshot with
  | none => d
  | some snapshot =>
    if d.groupsKnown ∧ snapshot.revision ≤ d.groupRevision then d
    else
      let groups := snapshot.groupCatalog.map (groupActive snapshot)
      let priorityChanged := snapshot.groupCatalog.toList.any fun e =>
        d.groupPriorities[e.1]?.any (· ≠ e.2.priority)
      let members := d.members.map fun _ member =>
        if priorityChanged ∨ (groups[member.groupID]?.getD false) = false then
          { member with pending := true }
        else member
      { d with
        members, groups
        groupRevision := snapshot.revision
        groupsKnown := true
        groupPriorities :=
          snapshot.groupCatalog.map fun _ (group : GroupCatalogView) => group.priority
      }.syncModelCursors snapshot

end SchedulingLedger
end ApiLoad.Scheduling
