import ApiLoad.Scheduler.Targets

/-!
# The iterator over credentials

`internal/scheduler/scheduler.go` and `ChargeReplay` of `internal/scheduler/fair.go`. An iterator
belongs to one request. It keeps the targets of the request in two pools and remembers which
credentials have been tried; the credentials themselves are read from the registry at every call,
and the choice among them is charged in the ledger that all requests share.
-/
namespace ApiLoad.Scheduler
open Std (ExtTreeMap)
open Foundation Channel State Scheduling

/-! ## The registry -/

/-- The part of `CredentialRegistry` that the scheduler reads. An entry stands in the bucket of its
group under its own ID. -/
structure CredentialRegistry where
  buckets : ExtTreeMap Nat (ExtTreeMap Nat CredentialRuntimeView)
  filed : ∀ {groupID id : Nat} {bucket : ExtTreeMap Nat CredentialRuntimeView}
    {entry : CredentialRuntimeView}, buckets[groupID]? = some bucket → bucket[id]? = some entry →
      entry.id = id ∧ entry.groupID = groupID

/-- `RuntimeState` is available, and the credential is authorised. -/
def selectableAt (entry : CredentialRuntimeView) (now : Time) : Bool :=
  entry.status = .active && !entry.blacklisted && !(now < entry.cooldownUntil) &&
    (entry.authState = .unset || entry.authState = .ready)

def credentialMeta (entry : CredentialRuntimeView) : CredentialMeta where
  id := entry.id
  groupID := entry.groupID
  identityGeneration := entry.identityGeneration
  weightManual := entry.weightManual
  modelCooldowns := entry.modelCooldowns

/-- The inner loop of `collectCredentialCandidatesLocked`, over the bucket of a group. -/
def CredentialRegistry.bucketCandidates (registry : CredentialRegistry) (excluded : Nat → Bool)
    (now : Time) (groupID : Nat) : List CredentialMeta :=
  (registry.buckets[groupID]?.getD ∅).toList.filterMap fun (_, entry) =>
    if !excluded entry.id && selectableAt entry now then some (credentialMeta entry) else none

def CredentialRegistry.collectCredentialCandidates (registry : CredentialRegistry)
    (groupIDs : List Nat) (excluded : Nat → Bool) (now : Time) : List CredentialMeta :=
  groupIDs.flatMap (registry.bucketCandidates excluded now)

/-- What a call finds when it reads the registry: the entries, the clock, and the order in which
the buckets are listed, which the source leaves open. -/
structure Moment where
  registry : CredentialRegistry
  now : Time
  order : List CredentialMeta → List CredentialMeta
  order_perm : ∀ l, (order l).Perm l

def Moment.candidates (m : Moment) (groupIDs : List Nat) (excluded : Nat → Bool) :
    List CredentialMeta :=
  m.order (m.registry.collectCredentialCandidates groupIDs excluded m.now)

/-! ## Pools of targets -/

structure CandidatePool where
  targetsByGroup : ExtTreeMap Nat (List CandidateTarget) := ∅
  groupIDsByMode : ExtTreeMap RouteMode (List Nat) := ∅
  priorityLimit : Option Int := none
  lowerPriority : Bool := false

namespace CandidatePool

def targets (pool : CandidatePool) (groupID : Nat) : List CandidateTarget :=
  pool.targetsByGroup[groupID]?.getD []

def add (pool : CandidatePool) (t : CandidateTarget) : CandidatePool :=
  let groupID := t.target.groupID
  let listed := pool.groupIDsByMode[t.target.mode]?.getD []
  { pool with
    targetsByGroup := pool.targetsByGroup.insert groupID (pool.targets groupID ++ [t])
    groupIDsByMode :=
      if groupID ∈ listed then pool.groupIDsByMode
      else pool.groupIDsByMode.insert t.target.mode (listed ++ [groupID]) }

def sort (pool : CandidatePool) : CandidatePool :=
  { pool with
    targetsByGroup := pool.targetsByGroup.map fun _ targets =>
      targets.insertionSort fun a b => a.target.upstreamModelID ≤ b.target.upstreamModelID }

def addGroupID (groupIDs : List Nat) (groupID : Nat) : List Nat :=
  if groupID ∈ groupIDs then groupIDs else groupIDs ++ [groupID]

/-- The groups with a target in one of the modes, each once. -/
def modeGroupIDs (pool : CandidatePool) (modes : List RouteMode) : List Nat :=
  modes.foldl (fun groupIDs mode =>
    (pool.groupIDsByMode[mode]?.getD []).foldl addGroupID groupIDs) []

end CandidatePool

inductive PoolKind where
  | regular | storeDowngraded
deriving DecidableEq, Repr

/-! ## Iterators -/

structure CredentialIdentity where
  groupID : Nat
  identityGeneration : Nat
deriving DecidableEq, Repr

structure Iterator where
  snapshot : Option ConfigSnapshot
  query : Query
  operation : Operation
  regular : CandidatePool
  storeDowngraded : CandidatePool
  routeModeTiers : List (List RouteMode)
  allowedCredentialIDs : Option (List Nat)
  preferredCredentialID : Nat
  tried : List Nat := []
  skippedGroups : List Nat := []
  allowedCredentialRefs : Option (ExtTreeMap Nat CredentialIdentity)
  staticReason : ReasonCode

structure Selection where
  credentialID : Nat
  groupID : Nat
  channelID : ID
  resolvedTarget : ResolvedTarget
  routeMode : RouteMode
  upstreamModelID : Option String
  group : GroupView
  responsesStoreDowngraded : Bool

def optionalModel (value : String) : Option String := if value = "" then none else some value

def newSelection (credential : CredentialMeta) (t : CandidateTarget) : Selection where
  credentialID := credential.id
  groupID := credential.groupID
  channelID := t.target.resolvedTarget.channelID
  resolvedTarget := t.target.resolvedTarget
  routeMode := t.target.mode
  upstreamModelID := optionalModel t.target.upstreamModelID
  group := t.group
  responsesStoreDowngraded := t.responsesStoreDowngraded

/-- The tiers in which the modes are tried. -/
def routeModeTiers (snapshot : Option ConfigSnapshot) : List (List RouteMode) :=
  if snapshot.any (·.routeStrategy = .weightedMix) then [[.native, .converted]]
  else [[.native], [.converted]]

/-- The loop of `newWithClock` that fills the pools. -/
def fillPools (targets : List CandidateTarget) : CandidatePool × CandidatePool :=
  targets.foldl (fun pools t =>
    if t.responsesStoreDowngraded then (pools.1, pools.2.add t) else (pools.1.add t, pools.2))
    ({}, {})

/-- `newWithClock`: the ledger after the publication has been reported to it, and the iterator. -/
def newWithClock (snapshot : Option ConfigSnapshot) (query : Query) (ledger : SchedulingLedger) :
    SchedulingLedger × Except Panic Iterator :=
  (ledger.syncGroups snapshot,
    (filterTargetsWithReason snapshot query).map fun (targets, staticReason) =>
      { snapshot, query
        operation := (normalizeQuery query).operation
        regular := (fillPools targets).1.sort
        storeDowngraded := (fillPools targets).2.sort
        routeModeTiers := routeModeTiers snapshot
        allowedCredentialIDs := query.allowedCredentialIDs
        preferredCredentialID := query.preferredCredentialID
        allowedCredentialRefs := query.allowedCredentialRefs.map fun refs =>
          refs.map fun _ (ref : CredentialRef) => ⟨ref.groupID, ref.identityGeneration⟩
        staticReason })

def modelCooldownUntil (limits : ExtTreeMap String Time) (model : String) (operation : Operation)
    (now : Time) : Time :=
  let limit := limits[model]?.getD 0
  if !operation.usesModelCooldown || model = "" || !(now < limit) then 0 else limit

def effectiveWeight (groupManual credentialManual : Option Int) : Int :=
  let groupWeight := configuredWeight groupManual
  let credentialWeight := configuredWeight credentialManual
  if groupWeight ≤ 0 ∨ credentialWeight ≤ 0 then 0 else groupWeight * credentialWeight

namespace Iterator

def pool (it : Iterator) : PoolKind → CandidatePool
  | .regular => it.regular
  | .storeDowngraded => it.storeDowngraded

def setPool (it : Iterator) : PoolKind → CandidatePool → Iterator
  | .regular, pool => { it with regular := pool }
  | .storeDowngraded, pool => { it with storeDowngraded := pool }

def skipGroup (it : Iterator) (groupID : Nat) : Iterator :=
  if groupID = 0 then it else { it with skippedGroups := groupID :: it.skippedGroups }

/-- After a failure the next target comes from a lower priority. -/
def advancePriority (it : Iterator) (selection : Selection) : Iterator :=
  let kind := if selection.responsesStoreDowngraded then .storeDowngraded else .regular
  it.setPool kind
    { it.pool kind with priorityLimit := some selection.group.priority, lowerPriority := true }

/-- The checks of `withWeightedPool` that concern the credential alone. -/
def allows (it : Iterator) (c : CredentialMeta) : Bool :=
  it.allowedCredentialIDs.all (c.id ∈ ·) &&
    it.allowedCredentialRefs.all (fun refs => refs[c.id]?.any fun ref =>
      ref.groupID = c.groupID && ref.identityGeneration = c.identityGeneration) &&
    c.groupID ∉ it.skippedGroups

def targetAvailable (it : Iterator) (now : Time) (modes : List RouteMode) (c : CredentialMeta)
    (t : CandidateTarget) : Bool :=
  t.target.mode ∈ modes &&
    !(now < modelCooldownUntil c.modelCooldowns t.target.upstreamModelID it.operation now)

/-- One round of the loop of `withWeightedPool`. -/
def weigh (it : Iterator) (now : Time) (pool : CandidatePool) (modes : List RouteMode)
    (c : CredentialMeta) : Option WeightedCredential :=
  if it.allows c then
    ((pool.targets c.groupID).find? (it.targetAvailable now modes c)).bind fun t =>
      let weight := effectiveWeight t.group.weightManual c.weightManual
      if 0 < weight then some ⟨c, weight.toNat⟩ else none
  else none

/-- `withWeightedPool`. -/
def weightedPool (it : Iterator) (m : Moment) (pool : CandidatePool) (modes : List RouteMode) :
    List WeightedCredential :=
  (m.candidates (pool.modeGroupIDs modes) (· ∈ it.tried)).filterMap (it.weigh m.now pool modes)

def priorityOf (it : Iterator) (c : WeightedCredential) : Int :=
  ((it.snapshot.bind (·.groups[c.info.groupID]?)).map GroupView.priority).getD 0

/-- One round of the first loop of `priorityCandidates`: the highest priority that is allowed, and
the highest one below the limit. -/
def raisePriority (pool : CandidatePool) (best : Option Int × Option Int) (value : Int) :
    Option Int × Option Int :=
  if pool.priorityLimit.any (· < value) then best
  else
    (if best.1.all (· < value) then some value else best.1,
      if pool.lowerPriority && pool.priorityLimit.any (value < ·) && best.2.all (· < value) then
        some value
      else best.2)

def priorityCandidates (it : Iterator) (pool : CandidatePool)
    (candidates : List WeightedCredential) : List WeightedCredential :=
  match (candidates.map it.priorityOf).foldl (raisePriority pool) (none, none) with
  | (none, _) => []
  | (some priority, lower) => candidates.filter fun c => it.priorityOf c = lower.getD priority

/-- The last loop of `selectTarget`. -/
def targetOfModel (targets : List CandidateTarget) (model : String) :
    Except Panic CandidateTarget :=
  match targets.find? (·.target.upstreamModelID = model), targets with
  | some t, _ => .ok t
  | none, t :: _ => .ok t
  | none, [] => .error .indexOutOfRange

/-- `selectTarget`: one of the models that are available to the selected credential. -/
def selectTarget (it : Iterator) (now : Time) (pool : CandidatePool) (modes : List RouteMode)
    (c : CredentialMeta) (ledger : SchedulingLedger) :
    SchedulingLedger × Except Panic CandidateTarget :=
  let targets := pool.targets c.groupID
  let models := (targets.filter (it.targetAvailable now modes c)).map (·.target.upstreamModelID)
  match models with
  | [] => (ledger, .error .indexOutOfRange)
  | first :: _ =>
    let (ledger, model) :=
      match it.query.externalModel with
      | some externalModel => ledger.selectModel c.groupID externalModel models
      | none => (ledger, first)
    (ledger, targetOfModel targets model)

/-- A selected credential with its target, and where the search found it. -/
structure Found where
  kind : PoolKind
  info : CredentialMeta
  target : CandidateTarget
  modes : List RouteMode

def Found.selection (found : Found) : Selection := newSelection found.info found.target

/-- The candidates of a tier: those with a target that is available in one of its modes. -/
def tierCandidates (it : Iterator) (now : Time) (pool : CandidatePool) (modes : List RouteMode)
    (weighted : List WeightedCredential) : List WeightedCredential :=
  weighted.filter fun c => (pool.targets c.info.groupID).any (it.targetAvailable now modes c.info)

/-- The loop of `Next` over the tiers of modes. -/
def searchTiers (it : Iterator) (now : Time) (kind : PoolKind)
    (weighted : List WeightedCredential) : List (List RouteMode) → SchedulingLedger →
      SchedulingLedger × Except Panic (Option Found)
  | [], ledger => (ledger, .ok none)
  | modes :: tiers, ledger =>
    match ledger.selectCredential it.snapshot
        (it.tierCandidates now (it.pool kind) modes weighted) it.preferredCredentialID with
    | (ledger, .error panic) => (ledger, .error panic)
    | (ledger, .ok none) => it.searchTiers now kind weighted tiers ledger
    | (ledger, .ok (some info)) =>
      match it.selectTarget now (it.pool kind) modes info ledger with
      | (ledger, .error panic) => (ledger, .error panic)
      | (ledger, .ok target) => (ledger, .ok (some ⟨kind, info, target, modes⟩))

/-- The body of the loop of `Next` over the pools. -/
def searchPool (it : Iterator) (m : Moment) (kind : PoolKind) (ledger : SchedulingLedger) :
    SchedulingLedger × Except Panic (Option Found) :=
  let weighted := it.priorityCandidates (it.pool kind)
    (it.weightedPool m (it.pool kind) [.native, .converted])
  it.searchTiers m.now kind weighted it.routeModeTiers ledger

/-- The search of `Next`; every pool reads the registry and the clock anew. -/
def search (it : Iterator) (ledger : SchedulingLedger) (first second : Moment) :
    SchedulingLedger × Except Panic (Option Found) :=
  match it.searchPool first .regular ledger with
  | (ledger, .ok none) => it.searchPool second .storeDowngraded ledger
  | result => result

def record (it : Iterator) (found : Found) : Iterator :=
  let pool := it.pool found.kind
  { it with tried := found.info.id :: it.tried }.setPool found.kind
    (if pool.priorityLimit.isSome then
      { pool with priorityLimit := some found.target.group.priority, lowerPriority := false }
    else pool)

/-- `Next`; the result `none` is `ErrExhausted`. -/
def next (it : Iterator) (ledger : SchedulingLedger) (first second : Moment) :
    Iterator × SchedulingLedger × Except Panic (Option Selection) :=
  match it.search ledger first second with
  | (ledger, .ok (some found)) => (it.record found, ledger, .ok (some found.selection))
  | (ledger, .ok none) => (it, ledger, .ok none)
  | (ledger, .error panic) => (it, ledger, .error panic)

/-- One round of the loop of `ChargeReplay`; a panic ends it. -/
def replayRound (it : Iterator) (now : Time) (selection : Selection) (ref : CredentialRef)
    (state : SchedulingLedger × Except Panic Bool) (c : CredentialMeta) :
    SchedulingLedger × Except Panic Bool :=
  match state with
  | (_, .error _) => state
  | (ledger, .ok _) =>
    if c.id ≠ ref.id ∨ c.identityGeneration ≠ ref.identityGeneration then state
    else if selection.upstreamModelID.any fun model =>
        now < modelCooldownUntil c.modelCooldowns model it.operation now then state
    else
      let weight := effectiveWeight selection.group.weightManual c.weightManual
      if 0 < weight then
        let (ledger, selected) :=
          ledger.selectCredential it.snapshot [⟨c, weight.toNat⟩] ref.id
        (ledger, selected.map Option.isSome)
      else state

/-- `ChargeReplay`: charge an explicit replay on the same credential. -/
def chargeReplay (it : Iterator) (ledger : SchedulingLedger) (m : Moment) (selection : Selection)
    (ref : CredentialRef) : SchedulingLedger × Except Panic Bool :=
  if ref.id ≠ selection.credentialID ∨ ref.groupID ≠ selection.groupID then (ledger, .ok false)
  else (m.candidates [ref.groupID] fun _ => false).foldl (it.replayRound m.now selection ref)
    (ledger, .ok false)

end Iterator
end ApiLoad.Scheduler
