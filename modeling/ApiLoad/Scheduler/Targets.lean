import ApiLoad.Scheduling.Select
import ApiLoad.State.Routes

/-!
# The targets of a query

Which routes of a snapshot a request may use (`internal/scheduler/inspect.go`, and the part of
`internal/scheduler/scheduler.go` that prepares an iterator). A route is included when it satisfies
the request and the filters of the access key; the reason is recorded otherwise.
-/
namespace ApiLoad.Scheduler
open Std (ExtTreeMap)
open Foundation Channel State Scheduling

/-! ## Queries -/

inductive AccessKeyStatus where
  | active | disabled
deriving DecidableEq, Repr

/-- Sets are lists; `transparent` holds the group IDs of the transparent scope. -/
structure FilterSet where
  transparent : Option (List Nat) := none
  allowModelLessResources : Bool := false
  groupsRestricted : Bool := false
  groups : List Nat := []
  protocols : List Protocol := []
  models : List String := []

structure AccessKeyView where
  status : AccessKeyStatus := .active
  filters : FilterSet := {}

structure CredentialRef where
  id : Nat
  groupID : Nat
  identityGeneration : Nat
deriving DecidableEq, Repr

structure Query where
  clientProtocol : Protocol
  operation : Operation := .unset
  routeRequirement : RouteRequirement := .unset
  responsesStorePreference : ResponsesStorePreference := .none
  externalModel : Option String := none
  accessKey : AccessKeyView := {}
  allowedCredentialIDs : Option (List Nat) := none
  preferredCredentialID : Nat := 0
  allowedCredentialRefs : Option (ExtTreeMap Nat CredentialRef) := none
  responsesWebsocket : Option WebsocketCapabilities := none

structure NormalizedQuery where
  clientProtocol : Protocol
  operation : Operation
  routeRequirement : RouteRequirement
  responsesStorePreference : ResponsesStorePreference
  responsesWebsocket : Option WebsocketCapabilities
  externalModel : Option String
  accessKey : AccessKeyView

/-- The operation of a query that leaves it out. -/
def defaultOperation (clientProtocol : Protocol) (externalModel : Option String) : Operation :=
  match clientProtocol with
  | .openAIImages => .unset
  | .openAIResponses => if externalModel.isNone then .responsesRetrieve else .responsesCreate
  | _ => .chatCompletion

def normalizeQuery (query : Query) : NormalizedQuery where
  clientProtocol := query.clientProtocol
  operation :=
    if query.operation = .unset then defaultOperation query.clientProtocol query.externalModel
    else query.operation
  routeRequirement := query.routeRequirement.normalize
  responsesStorePreference := query.responsesStorePreference
  responsesWebsocket := query.responsesWebsocket
  externalModel := query.externalModel
  accessKey := query.accessKey

/-- `clientSelectedLiveModel`. -/
def NormalizedQuery.selectsLiveModel (query : NormalizedQuery) : Bool :=
  query.clientProtocol = .codexLive && query.operation = .liveCall

def NormalizedQuery.modelKey (query : NormalizedQuery) : String :=
  match query.externalModel with
  | some model => if query.selectsLiveModel then NoModelRouteKey else model
  | none => NoModelRouteKey

/-! ## Decisions -/

/-- `none` is the empty text. -/
inductive ReasonCode where
  | none | accessKeyDisabled | accessKeyExpired | protocolFiltered | modelFiltered
  | modelRequiredByFilter | operationUnsupported | nativeRouteRequired | noRouteTarget
  | groupDisabled | codexLiveDisabled | websocketDisabled | groupFiltered | noAvailableGroup
  | noCredentials | groupWeightZero | credentialDisabled | credentialAuthUnavailable
  | credentialBlacklisted | credentialCooldown | modelCooldown | credentialWeightZero
  | credentialNotAllowed | noAvailableCredential
deriving DecidableEq, Repr

structure TargetDecision where
  target : RouteTarget
  group : GroupCatalogView
  requirementOK : Bool
  responsesStoreDowngraded : Bool
  included : Bool
  reason : ReasonCode

inductive EvaluationError where
  | inconsistentSnapshot (message : String)
  | panicked (panic : Panic)
deriving DecidableEq, Repr

def allowsModelLessResources (query : NormalizedQuery) : Bool :=
  query.accessKey.filters.allowModelLessResources && query.externalModel.isNone &&
    query.clientProtocol = .nativeServices &&
    match query.operation with
    | .resourceCreate | .resourceRead | .resourceDelete | .resourceCancel => true
    | _ => false

/-- Whether a route satisfies the query, whether it does so without storing the response, and why
not. -/
def routeRequirementSatisfied (query : NormalizedQuery) (route : RouteTarget) :
    Bool × Bool × ReasonCode :=
  if !query.routeRequirement.allows route.mode then (false, false, .nativeRouteRequired)
  else match query.responsesWebsocket with
  | some required =>
    if query.clientProtocol = .openAIResponses ∧ query.operation = .responsesCreate ∧
        route.mode = .native ∧ route.resolvedTarget.responsesWebsocket.supports required then
      (true, false, .none)
    else (false, false, .nativeRouteRequired)
  | none =>
    let handling := route.resolvedTarget.responsesStoreHandling .openAIResponses .responsesCreate
    if query.operation ≠ .responsesCreate then (true, false, .none)
    else if query.responsesStorePreference = .requireStored then
      if route.mode = .native ∧ handling = .upstreamManaged then (true, false, .none)
      else (false, false, .nativeRouteRequired)
    else if query.routeRequirement.normalize = .native then
      if route.resolvedTarget.supportsResponsesLifecycle then (true, false, .none)
      else (false, false, .nativeRouteRequired)
    else if query.responsesStorePreference ≠ .preferStored then (true, false, .none)
    else match handling with
      | .upstreamManaged => (true, false, .none)
      | .stateless => (true, true, .none)
      | .none => (false, false, .operationUnsupported)

/-- Whether the access key keeps the query out of a group. -/
def groupFiltered (query : NormalizedQuery) (groupID : Nat) : Bool :=
  let filters := query.accessKey.filters
  ((filters.groupsRestricted || filters.groups ≠ []) && groupID ∉ filters.groups) ||
    (query.clientProtocol = .transparentHTTP && groupID ∉ filters.transparent.getD [])

/-- The target of a route; a live call takes the upstream model from the client. -/
def upstreamTarget (query : NormalizedQuery) (route : RouteTarget) : RouteTarget :=
  match query.externalModel with
  | some model => if query.selectsLiveModel then { route with upstreamModelID := model } else route
  | none => route

def decideTarget (snapshot : ConfigSnapshot) (query : NormalizedQuery) (route : RouteTarget)
    (group : GroupCatalogView) : TargetDecision :=
  let (requirementOK, storeDowngraded, requirementReason) := routeRequirementSatisfied query route
  let view := snapshot.groups[route.groupID]?
  let reason :=
    if !requirementOK then some requirementReason
    else if !group.enabled then some .groupDisabled
    -- A group that is not compiled reads as the zero value, which is neither of the modes.
    else if query.selectsLiveModel && view.any (·.codexLiveMode = .off) then
      some .codexLiveDisabled
    else if groupFiltered query route.groupID then some .groupFiltered
    else if query.responsesWebsocket.isSome && !view.any (·.responsesWebsocketEnabled) then
      some .websocketDisabled
    else none
  { target := upstreamTarget query route
    group, requirementOK
    responsesStoreDowngraded := storeDowngraded
    included := reason.isNone
    reason := reason.getD .none }

/-- The route of a group that forwards any model: mode and upstream model come from the request. -/
def wildcardRoute (query : NormalizedQuery) (route : RouteTarget) : Option RouteTarget :=
  (route.resolvedTarget.modeForModel query.clientProtocol query.operation query.modelKey).map
    fun mode => { route with mode, upstreamModelID := query.modelKey }

/-- The loop of `evaluateTargets` over the routes. -/
def evaluateRoutes (snapshot : ConfigSnapshot) (query : NormalizedQuery) (wildcard : Bool) :
    List RouteTarget → Except EvaluationError (List TargetDecision)
  | [] => .ok []
  | route :: routes =>
    match snapshot.groupCatalog[route.groupID]? with
    | none => .error
      (.inconsistentSnapshot ("inconsistent scheduler snapshot: route target group " ++
        s!"{route.groupID} missing from catalog"))
    | some group =>
      match if wildcard then wildcardRoute query route else some route with
      | none => evaluateRoutes snapshot query wildcard routes
      | some route =>
        (evaluateRoutes snapshot query wildcard routes).map
          (decideTarget snapshot query route group :: ·)

/-- The reason of a query without an included target. -/
def commonReason (decisions : List TargetDecision) : Except EvaluationError ReasonCode :=
  if decisions.any (·.included) then .ok .none
  else match decisions with
    | [] => .error (.panicked .indexOutOfRange)
    | first :: rest =>
      .ok (if rest.any (·.reason ≠ first.reason) then .noAvailableGroup else first.reason)

/-- The checks of `evaluateTargets` that concern the query alone. -/
def refusal (query : NormalizedQuery) : Option ReasonCode :=
  let filters := query.accessKey.filters
  if query.accessKey.status = .disabled then some .accessKeyDisabled
  else if query.clientProtocol = .transparentHTTP ∧ filters.transparent.isNone then
    some .protocolFiltered
  else if filters.protocols ≠ [] ∧ query.clientProtocol ∉ filters.protocols then
    some .protocolFiltered
  else
    let modelReason :=
      if filters.models ≠ [] ∧ !allowsModelLessResources query then
        match query.externalModel with
        | none => some .modelRequiredByFilter
        | some model => if model ∉ filters.models then some .modelFiltered else none
      else none
    if modelReason.isSome then modelReason
    else if !query.clientProtocol.valid || !query.operation.valid ||
        !query.routeRequirement.valid || !query.responsesStorePreference.valid then
      some .operationUnsupported
    else none

def evaluateTargets (snapshot : Option ConfigSnapshot) (index : ExecutionCandidateIndex)
    (query : NormalizedQuery) (allowWildcard : Bool) :
    Except EvaluationError (List TargetDecision × ReasonCode) :=
  match snapshot with
  | none =>
    .error (.inconsistentSnapshot "inconsistent scheduler snapshot: nil ConfigSnapshot")
  | some snapshot =>
    match refusal query with
    | some reason => .ok ([], reason)
    | none =>
      let byOperation := index[query.clientProtocol]?.getD ∅
      let byModel := byOperation[query.operation]?
      let exact := (byModel.bind (·[query.modelKey]?)).getD []
      let candidates := wildcardsAt snapshot.wildcardCandidates query.clientProtocol query.operation
      let wildcard := exact.isEmpty && allowWildcard && query.modelKey ≠ NoModelRouteKey &&
        !query.selectsLiveModel && !candidates.isEmpty
      if !wildcard && byOperation.isEmpty then .ok ([], .noRouteTarget)
      else if !wildcard && byModel.isNone then .ok ([], .operationUnsupported)
      else if !wildcard && exact.isEmpty then .ok ([], .noRouteTarget)
      else do
        let decisions ← evaluateRoutes snapshot query wildcard
          (if wildcard then candidates else exact)
        let reason ← commonReason decisions
        return (decisions, reason)

structure CandidateTarget where
  target : RouteTarget
  group : GroupView
  responsesStoreDowngraded : Bool

def filterTargetsWithReason (snapshot : Option ConfigSnapshot) (query : Query) :
    Except Panic (List CandidateTarget × ReasonCode) :=
  match snapshot with
  | none => .ok ([], .none)
  | some s =>
    match evaluateTargets snapshot s.executionCandidates (normalizeQuery query) true with
    | .error (.inconsistentSnapshot _) => .ok ([], .none)
    | .error (.panicked panic) => .error panic
    | .ok (decisions, reason) =>
      .ok (decisions.filterMap fun decision =>
        if decision.included then
          s.groups[decision.target.groupID]?.map fun group =>
            ⟨decision.target, group, decision.responsesStoreDowngraded⟩
        else none, reason)

/-! ## Targets of a compiled snapshot -/

section

variable {snapshot : ConfigSnapshot} {query : NormalizedQuery} {wildcard : Bool}
  {routes : List RouteTarget} {decisions : List TargetDecision}

/-- What the loop makes of a route. -/
def routeDecision (snapshot : ConfigSnapshot) (query : NormalizedQuery) (wildcard : Bool)
    (route : RouteTarget) : Option TargetDecision :=
  snapshot.groupCatalog[route.groupID]?.bind fun group =>
    (if wildcard then wildcardRoute query route else some route).map
      (decideTarget snapshot query · group)

theorem evaluateRoutes_ok : evaluateRoutes snapshot query wildcard routes = .ok decisions ↔
    (∀ route ∈ routes, ∃ group, snapshot.groupCatalog[route.groupID]? = some group) ∧
      routes.filterMap (routeDecision snapshot query wildcard) = decisions := by
  induction routes generalizing decisions with
  | nil => simp [evaluateRoutes]
  | cons route routes ih =>
    unfold evaluateRoutes
    cases hgroup : snapshot.groupCatalog[route.groupID]? with
    | none => simp [hgroup]
    | some group =>
      cases hroute : if wildcard then wildcardRoute query route else some route with
      | none => simp [hgroup, hroute, ih, routeDecision]
      | some route' =>
        have rest := @ih (routes.filterMap (routeDecision snapshot query wildcard))
        cases hrest : evaluateRoutes snapshot query wildcard routes <;>
          simp [hgroup, hroute, routeDecision, Except.map] <;> grind

theorem mem_evaluateRoutes (h : evaluateRoutes snapshot query wildcard routes = .ok decisions)
    (hd : decision ∈ decisions) :
    ∃ route ∈ routes, ∃ route' group,
      (if wildcard then wildcardRoute query route else some route) = some route' ∧
      snapshot.groupCatalog[route.groupID]? = some group ∧
      decision = decideTarget snapshot query route' group := by
  obtain ⟨-, rfl⟩ := evaluateRoutes_ok.mp h
  simp only [List.mem_filterMap, routeDecision, Option.bind_eq_some_iff,
    Option.map_eq_some_iff] at hd
  grind

/-- The end of `evaluateTargets`. -/
def decideRoutes (snapshot : ConfigSnapshot) (query : NormalizedQuery) (wildcard : Bool)
    (routes : List RouteTarget) : Except EvaluationError (List TargetDecision × ReasonCode) := do
  let decisions ← evaluateRoutes snapshot query wildcard routes
  let reason ← commonReason decisions
  return (decisions, reason)

end

/-- The routes of the key, as `evaluateTargets` looks them up. -/
theorem lookup_eq_routesAt (index : ExecutionCandidateIndex) (query : NormalizedQuery) :
    (((index[query.clientProtocol]?.getD ∅)[query.operation]?).bind (·[query.modelKey]?)).getD [] =
      routesAt index query.clientProtocol query.operation query.modelKey := by
  unfold routesAt
  cases index[query.clientProtocol]? <;> simp

variable {query : NormalizedQuery}

theorem refusal_ne_none : refusal query ≠ some .none := by
  unfold refusal
  grind

/-- The query goes to the groups that forward any model. -/
def AsksWildcards (snapshot : ConfigSnapshot) (index : ExecutionCandidateIndex)
    (query : NormalizedQuery) : Prop :=
  routesAt index query.clientProtocol query.operation query.modelKey = [] ∧
    query.modelKey ≠ NoModelRouteKey ∧ query.selectsLiveModel = false ∧
    wildcardsAt snapshot.wildcardCandidates query.clientProtocol query.operation ≠ []

/-- A query is refused, or has no route, or is decided by the routes of its key, or else by the
wildcards. -/
theorem evaluateTargets_cases (snapshot : ConfigSnapshot) (index : ExecutionCandidateIndex)
    (query : NormalizedQuery) (allowWildcard : Bool) :
    let routes := routesAt index query.clientProtocol query.operation query.modelKey
    let result := evaluateTargets (some snapshot) index query allowWildcard
    (∃ reason ≠ .none, result = .ok ([], reason) ∧ (refusal query = none → routes = [] ∧
      ¬ (allowWildcard = true ∧ AsksWildcards snapshot index query))) ∨
    refusal query = none ∧ (routes ≠ [] ∧ result = decideRoutes snapshot query false routes ∨
      allowWildcard = true ∧ AsksWildcards snapshot index query ∧
        result = decideRoutes snapshot query true
          (wildcardsAt snapshot.wildcardCandidates query.clientProtocol query.operation)) := by
  have lookup := lookup_eq_routesAt index query
  unfold evaluateTargets AsksWildcards
  dsimp only
  cases hrefusal : refusal query with
  | some reason => exact .inl ⟨reason, fun h => refusal_ne_none (h ▸ hrefusal), rfl, nofun⟩
  | none =>
    rw [lookup]
    generalize routesAt index query.clientProtocol query.operation query.modelKey = routes at *
    generalize hw : (routes.isEmpty && allowWildcard && query.modelKey ≠ NoModelRouteKey &&
      !query.selectsLiveModel &&
      !(wildcardsAt snapshot.wildcardCandidates query.clientProtocol query.operation).isEmpty) =
        wildcard
    cases wildcard with
    | true =>
      refine .inr ⟨rfl, .inr ?_⟩
      simp only [Bool.and_eq_true, List.isEmpty_iff] at hw
      grind [decideRoutes]
    | false =>
      by_cases hroutes : routes = []
      · subst hroutes
        refine .inl ?_
        have off : ¬ (allowWildcard = true ∧ query.modelKey ≠ NoModelRouteKey ∧
            query.selectsLiveModel = false ∧ wildcardsAt snapshot.wildcardCandidates
              query.clientProtocol query.operation ≠ []) := by
          rintro ⟨rfl, named, notLive, some⟩
          simp [named, notLive, some] at hw
        split_ifs <;> first | exact ⟨_, by decide, rfl, by grind⟩ | contradiction
      · refine .inr ⟨rfl, .inl ⟨hroutes, ?_⟩⟩
        have hop : (index[query.clientProtocol]?.getD ∅).isEmpty = false := by
          by_contra empty
          rw [Bool.not_eq_false, ExtTreeMap.isEmpty_iff] at empty
          simp [empty, Ne.symm hroutes] at lookup
        have hmodel : ((index[query.clientProtocol]?.getD ∅)[query.operation]?).isNone = false := by
          by_contra absent
          rw [Bool.not_eq_false, Option.isNone_iff_eq_none] at absent
          simp [absent, Ne.symm hroutes] at lookup
        simp [hop, hmodel, hroutes, decideRoutes]

/-- The decisions on a query come from the routes of its key, or else from the wildcards. -/
theorem evaluateTargets_ok
    (h : evaluateTargets (some snapshot) index query true = .ok (decisions, reason)) :
    decisions = [] ∨
      evaluateRoutes snapshot query false
        (routesAt index query.clientProtocol query.operation query.modelKey) = .ok decisions ∨
      evaluateRoutes snapshot query true
        (wildcardsAt snapshot.wildcardCandidates query.clientProtocol query.operation) =
          .ok decisions := by
  obtain ⟨reason', -, hr, -⟩ | ⟨-, ⟨-, hr⟩ | ⟨-, -, hr⟩⟩ :=
    evaluateTargets_cases snapshot index query true
  · cases h.symm.trans hr
    exact .inl rfl
  all_goals
    obtain ⟨decisions', routed, h⟩ := Fallible.bind_ok.mp (hr.symm.trans h)
    obtain ⟨_, -, h⟩ := Fallible.bind_ok.mp h
    cases h
    grind

theorem upstreamTarget_groupID (query : NormalizedQuery) (route : RouteTarget) :
    (upstreamTarget query route).groupID = route.groupID := by
  unfold upstreamTarget
  split
  · split <;> rfl
  · rfl

theorem decideTarget_target (snapshot : ConfigSnapshot) (query : NormalizedQuery)
    (route : RouteTarget) (group : GroupCatalogView) :
    (decideTarget snapshot query route group).target = upstreamTarget query route ∧
      (decideTarget snapshot query route group).responsesStoreDowngraded =
        (routeRequirementSatisfied query route).2.1 := ⟨rfl, rfl⟩

theorem wildcardRoute_groupID (h : wildcardRoute query route = some route') :
    route'.groupID = route.groupID := by
  obtain ⟨mode, -, rfl⟩ := Option.map_eq_some_iff.mp h
  rfl

variable {input : CompileInput} {compiled : ConfigSnapshot}

section

variable (ok : compile input = .ok compiled) {revision : Nat} {query : NormalizedQuery}
  {decisions : List TargetDecision} {reason : ReasonCode}
  (h : evaluateTargets (some { compiled with revision }) compiled.executionCandidates query true =
      .ok (decisions, reason))
include ok h

/-- The decisions about a compiled snapshot name a target by its group and its upstream model. -/
theorem decisions_unique (ha : a ∈ decisions) (hb : b ∈ decisions)
    (group : a.target.groupID = b.target.groupID)
    (upstream : a.target.upstreamModelID = b.target.upstreamModelID) :
    a.target = b.target ∧ a.responsesStoreDowngraded = b.responsesStoreDowngraded := by
  obtain rfl | routed | routed := evaluateTargets_ok h
  · cases ha
  all_goals
    obtain ⟨r, hr, r', _, he, -, rfl⟩ := mem_evaluateRoutes routed ha
    obtain ⟨q, hq, q', _, he', -, rfl⟩ := mem_evaluateRoutes routed hb
    simp only [decideTarget_target, upstreamTarget_groupID] at group upstream ⊢
  · cases he
    cases he'
    have same : r.upstreamModelID = q.upstreamModelID := by
      unfold upstreamTarget at upstream
      split at upstream
      swap
      · exact upstream
      next model hmodel =>
      split at upstream
      · next live =>
        have hkey : query.modelKey = NoModelRouteKey := by
          simp [NormalizedQuery.modelKey, hmodel, live]
        rw [hkey] at hr hq
        rw [Routed.upstream_empty ok hr, Routed.upstream_empty ok hq]
      · exact upstream
    cases Routed.unique ok hr hq group same
    exact ⟨rfl, rfl⟩
  · simp only [if_true] at he he'
    rw [wildcardRoute_groupID he, wildcardRoute_groupID he'] at group
    cases Routed.unique_wildcard ok hr hq group
    cases he.symm.trans he'
    exact ⟨rfl, rfl⟩

theorem decisions_groupID_ne_zero (ha : a ∈ decisions) : a.target.groupID ≠ 0 := by
  obtain rfl | routed | routed := evaluateTargets_ok h
  · cases ha
  all_goals
    obtain ⟨r, hr, r', _, he, -, rfl⟩ := mem_evaluateRoutes routed ha
    rw [(decideTarget_target ..).1, upstreamTarget_groupID]
  · cases he
    exact Routed.groupID_ne_zero ok query.modelKey (.inl hr)
  · rw [wildcardRoute_groupID he]
    exact Routed.groupID_ne_zero ok query.modelKey (.inr hr)

end

end ApiLoad.Scheduler
