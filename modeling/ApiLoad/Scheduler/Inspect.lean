import ApiLoad.Scheduler.Iterator
import ApiLoad.State.Catalog

/-!
# Inspecting routes

`Inspect` of `internal/scheduler/inspect.go` explains what a request could use: every route of the
catalog with the reason why it is left out, and every credential of an included route with the
reason why it is not available. It reads a list of credentials and charges nothing.
-/
namespace ApiLoad.Scheduler
open Std (ExtTreeMap)
open Foundation Channel State Scheduling List

/-! ## Credentials -/

inductive CredentialRuntimeState where
  | available | disabled | blacklisted | cooldown
deriving DecidableEq, Repr

def authReady (view : CredentialRuntimeView) : Bool :=
  view.authState = .unset || view.authState = .ready

def runtimeState (view : CredentialRuntimeView) (now : Time) : CredentialRuntimeState :=
  if view.status ≠ .active then .disabled
  else if view.blacklisted then .blacklisted
  else if now < view.cooldownUntil then .cooldown
  else .available

structure CredentialInspection where
  credentialID : Nat
  available : Bool := false
  reason : ReasonCode := .none
  weightManual : Option Int
  effectiveWeight : Int := 0
  cooldownUntil : Time := 0
deriving DecidableEq, Repr

def inspectCredential (group : GroupCatalogView) (credential : CredentialRuntimeView)
    (allowedCredentialIDs : Option (List Nat)) (now : Time) (model : String)
    (operation : Operation) : CredentialInspection :=
  let result : CredentialInspection :=
    { credentialID := credential.id, weightManual := credential.weightManual }
  let modelLimit := modelCooldownUntil credential.modelCooldowns model operation now
  if group.weightManual = some 0 then { result with reason := .groupWeightZero }
  else if !allowedCredentialIDs.all (credential.id ∈ ·) then
    { result with reason := .credentialNotAllowed }
  else if credential.status ≠ .active then { result with reason := .credentialDisabled }
  else if !authReady credential then { result with reason := .credentialAuthUnavailable }
  else if credential.weightManual = some 0 then { result with reason := .credentialWeightZero }
  else match runtimeState credential now with
    | .blacklisted => { result with reason := .credentialBlacklisted }
    | .cooldown =>
      { result with
        reason := .credentialCooldown
        cooldownUntil :=
          if credential.cooldownUntil < modelLimit then modelLimit else credential.cooldownUntil }
    | _ =>
      if now < modelLimit then
        { result with reason := .modelCooldown, cooldownUntil := modelLimit }
      else
        { result with
          available := true
          effectiveWeight := effectiveWeight group.weightManual credential.weightManual }

def CredentialInspection.usable (c : CredentialInspection) : Bool :=
  c.available && 0 < c.effectiveWeight

/-! ## Groups -/

structure GroupInspection where
  priority : Int
  groupID : Nat
  channelID : ID
  routeMode : RouteMode
  routeRequirementSatisfied : Bool
  upstreamModelID : Option String
  weightManual : Option Int
  included : Bool
  routable : Bool := false
  reason : ReasonCode
  credentials : List CredentialInspection := []

/-- The credentials of a group, as `Inspect` collects and sorts them. -/
def credentialsByGroup (credentials : List CredentialRuntimeView) (groupID : Nat) :
    List CredentialRuntimeView :=
  (credentials.filter (·.groupID = groupID)).insertionSort fun a b => a.id ≤ b.id

/-- One round of the loop of `Inspect` over the decisions. -/
def inspectGroup (credentials : List CredentialRuntimeView) (query : Query) (now : Time)
    (decision : TargetDecision) : GroupInspection :=
  let result : GroupInspection :=
    { priority := decision.group.priority
      groupID := decision.group.id
      channelID := decision.target.resolvedTarget.channelID
      routeMode := decision.target.mode
      routeRequirementSatisfied := decision.requirementOK
      upstreamModelID := optionalModel decision.target.upstreamModelID
      weightManual := decision.group.weightManual
      included := decision.included
      reason := decision.reason }
  if !decision.included then result
  else
    let inspected := (credentialsByGroup credentials decision.group.id).map fun credential =>
      inspectCredential decision.group credential query.allowedCredentialIDs now
        decision.target.upstreamModelID (normalizeQuery query).operation
    let routable := inspected.any (·.usable)
    { result with
      routable
      credentials := inspected
      reason :=
        if decision.group.weightManual = some 0 then .groupWeightZero
        else if inspected = [] then .noCredentials
        else if !routable then .noAvailableCredential
        else decision.reason }

/-! ## Inspections -/

structure Inspection where
  clientProtocol : Protocol
  operation : Operation
  routeRequirement : RouteRequirement
  externalModel : Option String
  routable : Bool := false
  reason : ReasonCode := .none
  groups : List GroupInspection := []

def inspect (snapshot : Option ConfigSnapshot) (credentials : List CredentialRuntimeView)
    (query : Query) (now : Time) : Except EvaluationError Inspection :=
  let normalized := normalizeQuery query
  let result : Inspection :=
    { clientProtocol := normalized.clientProtocol
      operation := normalized.operation
      routeRequirement := normalized.routeRequirement
      externalModel := normalized.externalModel }
  match snapshot with
  | none => .error (.inconsistentSnapshot "inconsistent scheduler snapshot: nil ConfigSnapshot")
  | some s =>
    if normalized.accessKey.status = .disabled then
      .ok { result with reason := .accessKeyDisabled }
    else match credentials.find? (·.groupID ∉ s.groupCatalog) with
      | some credential => .error (.inconsistentSnapshot
          ("inconsistent scheduler snapshot: registry credential " ++
            s!"{credential.id} group {credential.groupID} missing from catalog"))
      | none => do
        let (decisions, staticReason) ←
          evaluateTargets snapshot s.executionRouteCatalog normalized false
        let groups := decisions.map (inspectGroup credentials query now)
        let routable := groups.any (·.routable)
        return { result with
          groups, routable
          reason :=
            if routable then .none
            else if staticReason ≠ .none then staticReason
            else .noAvailableCredential }

/-! ## The decisions without wildcards -/

section Decisions

variable {snapshot : ConfigSnapshot} {index : ExecutionCandidateIndex} {query : NormalizedQuery}

/-- A decision about a query that is not refused, on a route that the index has for it. -/
def Decided (snapshot : ConfigSnapshot) (index : ExecutionCandidateIndex)
    (query : NormalizedQuery) (route : RouteTarget) (group : GroupCatalogView) : Prop :=
  refusal query = none ∧
    route ∈ routesAt index query.clientProtocol query.operation query.modelKey ∧
    snapshot.groupCatalog[route.groupID]? = some group

theorem requirement_reason {route : RouteTarget}
    (h : (routeRequirementSatisfied query route).1 = false) :
    (routeRequirementSatisfied query route).2.2 ≠ .none := by
  unfold routeRequirementSatisfied at h ⊢
  grind

/-- A decision against a target has a reason. -/
theorem decideTarget_reason (h : (decideTarget snapshot query route group).included = false) :
    (decideTarget snapshot query route group).reason ≠ .none := by
  have := @requirement_reason query route
  unfold decideTarget at h ⊢
  grind

/-- The reason of some decisions is empty if one of them is for its target. -/
theorem commonReason_ok (nonempty : decisions ≠ [])
    (reasons : ∀ d ∈ decisions, d.included = false → d.reason ≠ .none) :
    ∃ reason, commonReason decisions = .ok reason ∧
      (reason = .none ↔ ∃ d ∈ decisions, d.included = true) := by
  unfold commonReason
  split
  case isTrue included => exact ⟨.none, rfl, by simpa using included⟩
  case isFalse excluded =>
    cases decisions with
    | nil => exact absurd rfl nonempty
    | cons first rest =>
      refine ⟨_, rfl, ?_⟩
      simp only [any_eq_true, not_exists, not_and, Bool.not_eq_true] at excluded
      have := reasons first (by simp) (excluded first (by simp))
      grind

/-- The routes of groups in the catalog are decided, unless each of them is passed over. -/
theorem decideRoutes_listed {routes : List RouteTarget} {wildcard : Bool}
    (listed : ∀ route ∈ routes, ∃ group, snapshot.groupCatalog[route.groupID]? = some group)
    (taken : ∃ route ∈ routes, ∃ route',
      (if wildcard then wildcardRoute query route else some route) = some route') :
    ∃ decisions reason, decideRoutes snapshot query wildcard routes = .ok (decisions, reason) ∧
      (∀ d, d ∈ decisions ↔
        ∃ route ∈ routes, routeDecision snapshot query wildcard route = some d) ∧
      (reason = .none ↔ ∃ d ∈ decisions, d.included = true) := by
  have routed := (@evaluateRoutes_ok snapshot query wildcard routes _).mpr ⟨listed, rfl⟩
  have mem (d : TargetDecision) := @mem_filterMap _ _
    (routeDecision snapshot query wildcard) routes d
  generalize routes.filterMap (routeDecision snapshot query wildcard) = decisions at routed mem
  have nonempty : decisions ≠ [] := by
    obtain ⟨route, hroute, route', htaken⟩ := taken
    obtain ⟨group, hgroup⟩ := listed route hroute
    exact ne_nil_of_mem ((mem _).mpr ⟨route, hroute, by simp [routeDecision, hgroup, htaken]; rfl⟩)
  obtain ⟨reason, hreason, empty⟩ := commonReason_ok nonempty fun d hd => by
    obtain ⟨_, _, _, _, _, _, rfl⟩ := mem_evaluateRoutes routed hd
    exact decideTarget_reason
  refine ⟨decisions, reason, ?_, mem, empty⟩
  simp only [decideRoutes, routed, hreason, bind, Except.bind]
  rfl

/-- If every group is in the catalog and no wildcard is in play, the decisions are about the routes
of the key. -/
theorem evaluateTargets_exact {allowWildcard : Bool}
    (plain : allowWildcard = false ∨
      wildcardsAt snapshot.wildcardCandidates query.clientProtocol query.operation = [])
    (listed : ∀ route ∈ routesAt index query.clientProtocol query.operation query.modelKey,
      ∃ group, snapshot.groupCatalog[route.groupID]? = some group) :
    ∃ decisions reason,
      evaluateTargets (some snapshot) index query allowWildcard = .ok (decisions, reason) ∧
      ∀ d, d ∈ decisions ↔ ∃ route group, Decided snapshot index query route group ∧
        d = decideTarget snapshot query route group := by
  obtain ⟨reason, -, h, unrouted⟩ | ⟨open_, ⟨routes, h⟩ | ⟨on, asks, -⟩⟩ :=
    evaluateTargets_cases snapshot index query allowWildcard
  · refine ⟨[], reason, h, fun d => ?_⟩
    simp only [Decided]
    grind
  · obtain ⟨decisions, reason, hr, mem, -⟩ := @decideRoutes_listed snapshot query _ false listed
      (by simpa using exists_mem_of_ne_nil _ routes)
    refine ⟨decisions, reason, h.trans hr, fun d => ?_⟩
    simp only [mem, routeDecision, Decided, open_]
    grind
  · grind [AsksWildcards]

end Decisions

/-! ## What is routable -/

/-- What makes a credential usable for a route of a group: the same checks that the iterator makes
on a candidate. -/
structure Usable (group : GroupCatalogView) (query : Query) (now : Time) (route : RouteTarget)
    (credential : CredentialRuntimeView) : Prop where
  allowed : query.allowedCredentialIDs.all (credential.id ∈ ·) = true
  selectable : selectableAt credential now = true
  model : ¬ now < modelCooldownUntil credential.modelCooldowns
    (upstreamTarget (normalizeQuery query) route).upstreamModelID
    (normalizeQuery query).operation now
  weight : 0 < effectiveWeight group.weightManual credential.weightManual

variable {now : Time} {group : GroupCatalogView} {route : RouteTarget}
  {credentials : List CredentialRuntimeView} {snapshot : ConfigSnapshot}

theorem selectableAt_iff :
    selectableAt view now = true ↔ authReady view = true ∧ runtimeState view now = .available := by
  simp only [selectableAt, authReady, runtimeState]
  grind

theorem effectiveWeight_zero_left (credential : Option Int) :
    effectiveWeight (some 0) credential = 0 := by simp [effectiveWeight, configuredWeight]

theorem effectiveWeight_zero_right (group : Option Int) : effectiveWeight group (some 0) = 0 := by
  simp [effectiveWeight, configuredWeight]

theorem inspectCredential_usable {query : Query} :
    (inspectCredential group credential query.allowedCredentialIDs now
      (upstreamTarget (normalizeQuery query) route).upstreamModelID
      (normalizeQuery query).operation).usable = true ↔
        Usable group query now route credential := by
  constructor
  · intro h
    unfold inspectCredential at h
    dsimp only at h
    -- Each refusal leaves the result unavailable.
    iterate 5
      split at h
      · simp [CredentialInspection.usable] at h
    next hallowed hstatus hauth hweight =>
    cases hstate : runtimeState credential now with
    | disabled =>
      unfold runtimeState at hstate
      grind
    | blacklisted | cooldown => simp [CredentialInspection.usable, hstate] at h
    | available =>
      simp only [hstate] at h
      split at h
      · simp [CredentialInspection.usable] at h
      next hmodel =>
      exact ⟨by simpa using hallowed, selectableAt_iff.mpr ⟨by simpa using hauth, hstate⟩, hmodel,
        by simpa [CredentialInspection.usable] using h⟩
  · rintro ⟨allowed, selectable, model, weight⟩
    obtain ⟨ready, state⟩ := selectableAt_iff.mp selectable
    have active : credential.status = .active := by
      by_contra inactive
      simp [runtimeState, inactive] at state
    have hgroup : group.weightManual ≠ some 0 := fun h => by
      simp [h, effectiveWeight_zero_left] at weight
    have hcredential : credential.weightManual ≠ some 0 := fun h => by
      simp [h, effectiveWeight_zero_right] at weight
    simp [inspectCredential, CredentialInspection.usable, allowed, ready, state, active, hgroup,
      hcredential, model, weight]

theorem mem_credentialsByGroup :
    c ∈ credentialsByGroup credentials groupID ↔ c ∈ credentials ∧ c.groupID = groupID := by
  rw [credentialsByGroup, (perm_insertionSort _ _).mem_iff, mem_filter,
    decide_eq_true_eq]

/-- A group is routable if its route is included and one of its credentials is usable. -/
theorem inspectGroup_routable :
    (inspectGroup credentials query now
      (decideTarget snapshot (normalizeQuery query) route group)).routable = true ↔
      (decideTarget snapshot (normalizeQuery query) route group).included = true ∧
        ∃ c ∈ credentials, c.groupID = group.id ∧ Usable group query now route c := by
  unfold inspectGroup
  cases (decideTarget snapshot (normalizeQuery query) route group).included with
  | false => simp
  | true =>
    simp only [Bool.not_true, Bool.false_eq_true, if_false, any_map, any_eq_true,
      mem_credentialsByGroup, Function.comp_apply, true_and, and_assoc]
    exact exists_congr fun c => and_congr_right fun _ => and_congr_right fun _ =>
      inspectCredential_usable

/-- A route with a credential that can serve a query. -/
structure Serviceable (snapshot : ConfigSnapshot) (query : Query) (now : Time) (route : RouteTarget)
    (group : GroupCatalogView) (credential : CredentialRuntimeView) : Prop where
  decided : Decided snapshot snapshot.executionRouteCatalog (normalizeQuery query) route group
  included : (decideTarget snapshot (normalizeQuery query) route group).included = true
  groupID : credential.groupID = route.groupID
  usable : Usable group query now route credential

/-- `Inspect` on a consistent snapshot reports whether something can serve the query. -/
theorem inspect_routable (h : Catalogued snapshot)
    (known : ∀ c ∈ credentials, c.groupID ∈ snapshot.groupCatalog) (query : Query) (now : Time) :
    ∃ inspection, inspect (some snapshot) credentials query now = .ok inspection ∧
      (inspection.routable = true ↔ ∃ route group, ∃ c ∈ credentials,
        Serviceable snapshot query now route group c) := by
  unfold inspect
  dsimp only
  split
  · next disabled =>
    refine ⟨_, rfl, ?_⟩
    have refused : refusal (normalizeQuery query) = some .accessKeyDisabled := by
      simp [refusal, disabled]
    constructor
    · intro hfalse
      cases hfalse
    · rintro ⟨route, group, c, -, hs⟩
      simp [hs.decided.1] at refused
  · have all : credentials.find? (fun c => decide (c.groupID ∉ snapshot.groupCatalog)) = none := by
      simpa using known
    rw [all]
    obtain ⟨decisions, reason, hok, hmem⟩ := @evaluateTargets_exact snapshot
      snapshot.executionRouteCatalog (normalizeQuery query) false (.inl rfl)
      fun route hroute => h.listed _ _ _ route hroute
    rw [hok]
    refine ⟨_, rfl, ?_⟩
    simp only [any_map, any_eq_true, Function.comp_apply]
    constructor
    · rintro ⟨d, hd, hroutable⟩
      obtain ⟨route, group, decided, rfl⟩ := (hmem d).mp hd
      obtain ⟨included, c, hc, hgroup, usable⟩ := inspectGroup_routable.mp hroutable
      exact ⟨route, group, c, hc, decided, included, hgroup.trans (h.viewed _ _ decided.2.2).1,
        usable⟩
    · rintro ⟨route, group, c, hc, hs⟩
      refine ⟨_, (hmem _).mpr ⟨route, group, hs.decided, rfl⟩, inspectGroup_routable.mpr
        ⟨hs.included, c, hc, ?_, hs.usable⟩⟩
      rw [hs.groupID, (h.viewed _ _ hs.decided.2.2).1]

end ApiLoad.Scheduler
