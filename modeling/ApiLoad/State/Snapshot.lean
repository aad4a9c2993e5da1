import ApiLoad.Channel.Target
import ApiLoad.Foundation.Text

/-!
# Configuration snapshots

The compiled configuration that a request is routed with (`internal/state/snapshot.go`): the
groups, and the targets indexed by client protocol, operation and external model. `compile` covers
the part of `Compile` that builds them. The settings of a group enter as the result of resolving
them.
-/
namespace ApiLoad.State
open Std Foundation Channel
open Text (trimSpace)

/-! ## Models -/

structure ModelConfig where
  id : String
  aliasName : String := ""
deriving DecidableEq, Repr

def externalModelName (model : ModelConfig) : String :=
  let external := trimSpace model.aliasName
  if external ≠ "" then external else trimSpace model.id

/-! ## Weights -/

def DefaultWeight : Int := 50
def MaxWeight : Int := 100

def configuredWeight (weight : Option Int) : Int := weight.getD DefaultWeight

def validateManualWeight (subject : String) (weight : Option Int) : Except String Unit :=
  match weight with
  | some w =>
    if w < 0 ∨ MaxWeight < w then
      .error s!"{subject} manual weight must be between 0 and {MaxWeight}"
    else .ok ()
  | none => .ok ()

/-! ## Snapshots -/

structure TransparentProxyConfig where
  enabled : Bool := false
  strategy : String := ""
  fixedCredentialID : Nat := 0
deriving DecidableEq, Repr

inductive CodexLiveMode where
  | off | direct | relay
deriving DecidableEq, Repr

inductive RouteStrategy where
  | nativeFirst | weightedMix
deriving DecidableEq, Repr

/-- What the compiler reads of the resolved settings of a group. -/
structure GroupSettings where
  transparentProxy : TransparentProxyConfig := {}
  transparentModels : Bool := false
  codexLiveMode : CodexLiveMode := .off
  responsesWebsocketEnabled : Bool := false

structure GroupConfig where
  id : Nat
  priority : Int := 0
  channelID : ID
  connectionType : String
  params : String := ""
  validationProtocol : Option Protocol := none
  models : List ModelConfig
  settings : Except String GroupSettings
  weightManual : Option Int := none
  enabled : Bool := true

structure CredentialConfig where
  id : Nat
  groupID : Nat

structure CompileInput where
  channelRegistry : Registry
  routeStrategy : RouteStrategy
  groups : List GroupConfig
  credentials : List CredentialConfig

structure RouteTarget where
  groupID : Nat
  upstreamModelID : String := ""
  mode : RouteMode
  resolvedTarget : ResolvedTarget

/-- Identifies operations whose target is found by a resource ID rather than by a model. -/
def NoModelRouteKey : String := ""

abbrev ExecutionCandidateIndex :=
  ExtTreeMap Protocol (ExtTreeMap Operation (ExtTreeMap String (List RouteTarget)))

abbrev WildcardIndex := ExtTreeMap Protocol (ExtTreeMap Operation (List RouteTarget))

structure GroupView where
  id : Nat
  priority : Int
  models : List ModelConfig
  weightManual : Option Int
  codexLiveMode : CodexLiveMode
  responsesWebsocketEnabled : Bool
  transparentModels : Bool

structure GroupCatalogView where
  id : Nat
  priority : Int
  enabled : Bool
  weightManual : Option Int

structure ConfigSnapshot where
  revision : Nat := 0
  routeStrategy : RouteStrategy
  executionCandidates : ExecutionCandidateIndex := ∅
  executionRouteCatalog : ExecutionCandidateIndex := ∅
  wildcardCandidates : WildcardIndex := ∅
  groups : ExtTreeMap Nat GroupView := ∅
  groupCatalog : ExtTreeMap Nat GroupCatalogView := ∅

/-- The models of a group; the source reads the zero value for a group that is not compiled. -/
def ConfigSnapshot.models (snapshot : ConfigSnapshot) (groupID : Nat) : List ModelConfig :=
  (snapshot.groups[groupID]?.map GroupView.models).getD []

/-! ## Validation -/

/-- The loop over the models of a group in `validateCompileInput`; `seen` is `seenModels`. -/
def validateModels (groupID : Nat) :
    List (String × String) → List ModelConfig → Except String Unit
  | _, [] => .ok ()
  | seen, model :: models =>
    if trimSpace model.id = "" then .error s!"group {groupID} model id is required"
    else
      let external := externalModelName model
      let mapping := (external, trimSpace model.id)
      if mapping ∈ seen then
        .error s!"group {groupID} has duplicate model mapping {external.quote} -> {model.id.quote}"
      else validateModels groupID (mapping :: seen) models

/-- One round of the loop over the groups in `validateCompileInput`. -/
def validateGroup (registry : Registry) (groupIDs : List Nat) (group : GroupConfig) :
    Except String Unit := do
  if group.id = 0 then throw "group id is required"
  if group.id ∈ groupIDs then throw s!"duplicate group id {group.id}"
  if group.channelID.text = "" then throw s!"group {group.id} channel id is required"
  let some descriptor := registry.get group.channelID
    | throw s!"group {group.id} has unknown channel {group.channelID.text.quote}"
  let connectionType := trimSpace group.connectionType
  if descriptor.connectionType ≠ trimSpace connectionType then
    throw (s!"group {group.id} channel {group.channelID.text.quote} does not support " ++
      s!"connection type {connectionType.quote}")
  let target ← (registry.resolve group.channelID group.params).mapError fun err =>
    s!"group {group.id} channel {group.channelID.text.quote}: {err}"
  if let some validationProtocol := group.validationProtocol then
    if (target.mode validationProtocol .probe).isNone ∨ connectionType = "subscription" then
      throw s!"group {group.id} validation protocol is unsupported"
  validateManualWeight s!"group {group.id}" group.weightManual
  validateModels group.id [] group.models

def validateGroups (registry : Registry) : List Nat → List GroupConfig → Except String Unit
  | _, [] => .ok ()
  | groupIDs, group :: groups => do
    validateGroup registry groupIDs group
    validateGroups registry (group.id :: groupIDs) groups

def validateTransparentGroup (input : CompileInput) (group : GroupConfig)
    (proxy : TransparentProxyConfig) : Except String Unit := do
  if !proxy.enabled then return ()
  let fields :=
    ((input.channelRegistry.get group.channelID).map Descriptor.credentialFields).getD []
  if trimSpace group.connectionType ≠ "api_key" ∨ fields ≠ ["api_key"] then
    throw s!"group {group.id} transparent proxy requires a static API-key source"
  if proxy.strategy = "fixed" then
    unless input.credentials.any
      (fun c => c.id = proxy.fixedCredentialID && c.groupID = group.id) do
      throw s!"group {group.id} fixed transparent credential does not belong to this group"

/-! ## The index of targets -/

def appendExecutionTarget (index : ExecutionCandidateIndex) (clientProtocol : Protocol)
    (operation : Operation) (externalModel : String) (target : RouteTarget) :
    ExecutionCandidateIndex :=
  let byOperation := index[clientProtocol]?.getD ∅
  let byModel := byOperation[operation]?.getD ∅
  let routes := byModel[externalModel]?.getD []
  index.insert clientProtocol
    (byOperation.insert operation (byModel.insert externalModel (routes ++ [target])))

/-- How `appendExecutionTargets` registers an operation. -/
inductive Registration where
  /-- Not routed by the index. -/
  | skipped
  /-- Found by a resource ID only. -/
  | resource
  /-- Found by a resource ID and by every model of the group. -/
  | resourceAndModels
  /-- Found by every model of the group. -/
  | models
  | unsupported
deriving DecidableEq, Repr

def registration : Operation → Registration
  | .listModels | .probe | .liveCall | .transparentRequest => .skipped
  | .responsesRetrieve | .responsesDelete | .responsesCancel | .responsesInputItems => .resource
  | .resourceCreate | .resourceRead | .resourceDelete | .resourceCancel | .responsesPassthrough
  | .mistralVoices => .resourceAndModels
  | .chatCompletion | .responsesCreate | .responsesCompact | .responsesInputTokens | .webSearch
  | .countTokens | .imagesGenerate | .imagesEdit | .embeddingsCreate | .rerank | .decisionsCreate
  | .audioSpeech | .mistralOCR | .mistralFIM | .mistralAudioTranscription | .mistralAudioSpeech
  | .mistralModeration | .mistralChatModeration | .mistralClassification
  | .mistralRealtimeTranscription => .models
  | .unset | .unrecognized => .unsupported

def CodexLiveModelID : String := "gpt-live-1-codex"

/-- The innermost loop of `appendExecutionTargets`, over the models of the group. -/
def appendModelTargets (group : GroupConfig) (target : ResolvedTarget) (clientProtocol : Protocol)
    (operation : Operation) (index : ExecutionCandidateIndex) (model : ModelConfig) :
    Except String ExecutionCandidateIndex :=
  if group.channelID = .codex ∧ model.id = CodexLiveModelID then .ok index
  else match target.modeForModel clientProtocol operation model.id with
    | none =>
      .error (s!"compile group {group.id} channel has no route mode for " ++
        s!"{clientProtocol.text.quote}/{operation.text.quote} model {model.id.quote}")
    | some mode =>
      .ok (appendExecutionTarget index clientProtocol operation (externalModelName model)
        { groupID := group.id, upstreamModelID := trimSpace model.id, mode,
          resolvedTarget := target })

/-- The loop of `appendExecutionTargets` over the operations of one protocol. -/
def appendOperationTargets (group : GroupConfig) (target : ResolvedTarget)
    (clientProtocol : Protocol) (index : ExecutionCandidateIndex) (operation : Operation) :
    Except String ExecutionCandidateIndex :=
  if registration operation = .skipped then .ok index
  else match target.mode clientProtocol operation with
    | none =>
      .error (s!"compile group {group.id} channel has no route mode for " ++
        s!"{clientProtocol.text.quote}/{operation.text.quote}")
    | some mode =>
      let resource := appendExecutionTarget index clientProtocol operation NoModelRouteKey
        { groupID := group.id, mode, resolvedTarget := target }
      match registration operation with
      | .skipped => .ok index
      | .resource => .ok resource
      | .resourceAndModels =>
        group.models.foldlM (appendModelTargets group target clientProtocol operation) resource
      | .models =>
        group.models.foldlM (appendModelTargets group target clientProtocol operation) index
      | .unsupported =>
        .error (s!"compile group {group.id} channel has unsupported routable operation " ++
          s!"{operation.text.quote}")

def appendExecutionTargets (index : ExecutionCandidateIndex) (registry : Registry)
    (group : GroupConfig) (transparent : TransparentProxyConfig) :
    Except String ExecutionCandidateIndex := do
  let target ← (registry.resolve group.channelID group.params).mapError fun err =>
    s!"compile group {group.id} channel: {err}"
  let some descriptor := registry.get group.channelID
    | throw (s!"compile group {group.id} channel: unknown channel " ++
        s!"{group.channelID.text.quote}")
  let index :=
    if transparent.enabled then
      appendExecutionTarget index .transparentHTTP .transparentRequest NoModelRouteKey
        { groupID := group.id, mode := .native, resolvedTarget := target.withTransparentHTTP }
    else index
  -- Codex Live takes the model from the client, whatever the group maps.
  let index ←
    if group.channelID = .codex then
      match target.mode .codexLive .liveCall with
      | none => .error s!"compile group {group.id} channel has no Codex live route"
      | some mode =>
        .ok (appendExecutionTarget index .codexLive .liveCall NoModelRouteKey
          { groupID := group.id, mode, resolvedTarget := target })
    else .ok index
  if group.models = [] then .ok index
  else
    descriptor.clientProtocols.foldlM (fun index clientProtocol =>
      (target.operations clientProtocol).foldlM
        (appendOperationTargets group target clientProtocol) index) index

/-- The body of the loops of `appendWildcardTargets`. -/
def appendWildcardTarget (groupID : Nat) (target : ResolvedTarget) (clientProtocol : Protocol)
    (index : WildcardIndex) (operation : Operation) : WildcardIndex :=
  if registration operation = .models then
    match target.mode clientProtocol operation with
    | none => index
    | some mode =>
      let byOperation := index[clientProtocol]?.getD ∅
      let routes := byOperation[operation]?.getD []
      index.insert clientProtocol (byOperation.insert operation
        (routes ++ [{ groupID, mode, resolvedTarget := target }]))
  else index

def appendWildcardTargets (index : WildcardIndex) (groupID : Nat) (target : ResolvedTarget)
    (descriptor : Descriptor) : WildcardIndex :=
  descriptor.clientProtocols.foldl (fun index clientProtocol =>
    (target.operations clientProtocol).foldl
      (appendWildcardTarget groupID target clientProtocol) index) index

/-- The order of `sortExecutionRouteIndex`: native routes first, then by group and model. -/
def RouteTarget.before (left right : RouteTarget) : Bool :=
  if left.mode ≠ right.mode then left.mode = .native
  else if left.groupID ≠ right.groupID then left.groupID < right.groupID
  else left.upstreamModelID < right.upstreamModelID

def sortRoutes (routes : List RouteTarget) : List RouteTarget :=
  routes.insertionSort fun left right => !right.before left

def sortExecutionRouteIndex (index : ExecutionCandidateIndex) : ExecutionCandidateIndex :=
  index.map fun _ byOperation => byOperation.map fun _ byModel => byModel.map fun _ => sortRoutes

/-! ## Compilation -/

/-- One round of the loop over the groups in `Compile`. -/
def compileGroup (input : CompileInput) (snapshot : ConfigSnapshot) (group : GroupConfig) :
    Except String ConfigSnapshot := do
  let resolved ← group.settings.mapError fun err => s!"compile group {group.id} settings: {err}"
  validateTransparentGroup input group resolved.transparentProxy
  let catalogView : GroupCatalogView :=
    { id := group.id, priority := group.priority, enabled := group.enabled,
      weightManual := group.weightManual }
  let catalog ← appendExecutionTargets snapshot.executionRouteCatalog input.channelRegistry group
    resolved.transparentProxy
  let snapshot := { snapshot with
    groupCatalog := snapshot.groupCatalog.insert group.id catalogView
    executionRouteCatalog := catalog }
  if !group.enabled then return snapshot
  let _ ← (input.channelRegistry.validateParams group.channelID group.params).mapError fun err =>
    s!"compile group {group.id} params: {err}"
  let target ← (input.channelRegistry.resolve group.channelID group.params).mapError fun err =>
    s!"compile group {group.id} channel: {err}"
  let descriptor := (input.channelRegistry.get group.channelID).getD ⟨[], [], ""⟩
  let view : GroupView :=
    { id := group.id, priority := group.priority, models := group.models,
      weightManual := group.weightManual, codexLiveMode := resolved.codexLiveMode,
      responsesWebsocketEnabled := resolved.responsesWebsocketEnabled,
      transparentModels := resolved.transparentModels }
  let candidates ← appendExecutionTargets snapshot.executionCandidates input.channelRegistry group
    resolved.transparentProxy
  let wildcards :=
    if view.transparentModels && trimSpace group.connectionType = "api_key" then
      appendWildcardTargets snapshot.wildcardCandidates group.id target descriptor
    else snapshot.wildcardCandidates
  return { snapshot with
    executionCandidates := candidates
    wildcardCandidates := wildcards
    groups := snapshot.groups.insert group.id view }

/-- `Compile`. The manager that publishes the snapshot numbers it afterwards. -/
def compile (input : CompileInput) : Except String ConfigSnapshot := do
  validateGroups input.channelRegistry [] input.groups
  let snapshot ← input.groups.foldlM (compileGroup input) { routeStrategy := input.routeStrategy }
  return { snapshot with
    executionCandidates := sortExecutionRouteIndex snapshot.executionCandidates
    executionRouteCatalog := sortExecutionRouteIndex snapshot.executionRouteCatalog }

end ApiLoad.State
