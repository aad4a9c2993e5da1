import ApiLoad.Health.RateLimit

/-!
# The judgement of an attempt

`JudgeExecution` decides how a request goes on after an attempt and what the attempt means for the
credential, the model and the group (`internal/health/execution_judge.go`).
-/
namespace ApiLoad.Health
open Foundation Text Execution Channel

/-- Why writing to the client failed; the source asks only for the two context errors. -/
inductive DownstreamError where
  | canceled | deadlineExceeded | other
deriving DecidableEq, Repr

structure ExecutionAttempt where
  dispatchState : DispatchState
  statusCode : Int := 0
  header : Header := []
  evidence : Option ErrorEvidence := none
  downstreamCommitted : Bool := false
  downstreamErr : Option DownstreamError := none
  now : Time

structure DecisionContext where
  errorRules : ErrorRules := ErrorRules.empty
  defaultRateLimitCooldown : Duration := 0
  credentialRefreshable : Bool := false
  method : String := ""
  operation : Operation := .unset

def emptyResponseCode : String := "upstream_empty_response"

def normalizeDecisionContext (value : DecisionContext) : DecisionContext :=
  if value.defaultRateLimitCooldown ≤ 0 then { value with defaultRateLimitCooldown := minute }
  else value

def decision (category : FailureCategory) (origin : ErrorOrigin) (scope : ErrorScope)
    (retry : RetryDirective) (effect : Effect) (ruleID : String) : Decision :=
  { category, origin, scope, retry, effect, ruleID }

def isSuccessStatus (statusCode : Int) : Bool := 200 ≤ statusCode ∧ statusCode < 300

def scopeOrDefault (value fallback : ErrorScope) : ErrorScope :=
  if value ≠ .unset then value else fallback

def originForDispatch : DispatchState → ErrorOrigin
  | .localOnly => .internal
  | .maybeSent | .notSent => .upstream
  | .unrecognized => .unset

def originForEvidence (evidence : ErrorEvidence) : ErrorOrigin :=
  if evidence.originHint ≠ .unset then evidence.originHint
  else match evidence.kind with
    | .transport | .timeout | .http | .provider => .upstream
    | .canceled => .downstream
    | .conversionUnsupported | .internal => .internal
    | .invalidRequest => .client
    | .unrecognized => .unset

def retryUnlessExplicitlyUnknown (evidence : ErrorEvidence) : RetryDirective :=
  if evidence.replaySafety = .unknown then .none else .nextCandidate

def requestMayReplayAfterResponse (lib : Library) (value : DecisionContext) : Bool :=
  lib.equalFold value.method "GET" || lib.equalFold value.method "HEAD" ||
    match value.operation with
    | .chatCompletion | .responsesCreate | .responsesCompact | .responsesRetrieve
    | .responsesInputItems | .responsesInputTokens | .countTokens | .listModels => true
    | _ => false

def ExecutionAttempt.status (attempt : ExecutionAttempt) (evidence : ErrorEvidence) : Int :=
  if attempt.statusCode = 0 then evidence.statusCode else attempt.statusCode

def ExecutionAttempt.responseStarted (attempt : ExecutionAttempt) (evidence : ErrorEvidence) :
    Bool :=
  attempt.statusCode ≠ 0 || evidence.statusCode ≠ 0

/-! ## Classification -/

def explicitRequestRejection (lib : Library) (typeValue codeValue message : String) : Bool :=
  [typeValue, codeValue].any (fun value =>
    ["context_length_exceeded", "invalid_parameter", "content_policy_violation"].contains
      (lib.toLower (trimSpace value))) ||
  (lib.equalFold (trimSpace typeValue) "invalid_request_error" && trimSpace codeValue = "" &&
    let message := lib.toLower (trimSpace message)
    (trimSuffix message "." = "prompt is too long" || hasPrefix message "prompt is too long:"))

/-- The classification by status and by the markers in the texts of the evidence. -/
def classifyMarkers (statusCode : Int) (kind : ErrorKind) (markers : String) : FailureCategory :=
  if statusCode = 429 || containsAny markers ["rate_limit", "rate limit", "too_many_requests",
      "quota_exceeded", "resource_exhausted", "throttl"] then .rateLimited
  else if statusCode = 401 then .invalidKey
  else if containsAny markers ["model_not_found", "model not found", "model_not_available",
      "model unavailable", "deployment_not_found", "unsupported_model"] then .modelUnavailable
  else if containsAny markers ["invalid_api_key", "api_key_invalid", "authentication_error",
      "authentication failed", "invalid credential", "api key not valid"] then .invalidKey
  else if 500 ≤ statusCode ∧ statusCode ≤ 599 then .upstreamHostError
  else if kind = .invalidRequest then .clientError
  else .ambiguous

def classifyExecutionEvidence (lib : Library) (attempt : ExecutionAttempt)
    (evidence : ErrorEvidence) : FailureCategory :=
  let statusCode := attempt.status evidence
  if statusCode = 401 ∧ evidence.replaySafety = .unknown ∧ evidence.hint = .unset then .ambiguous
  else match evidence.hint with
    | .invalidCredential => .invalidKey
    | .refreshRequired | .reauthorizationRequired => .authenticationRequired
    | .rateLimited => .rateLimited
    | .requestRejected => .clientError
    | .candidateUnavailable | .modelUnavailable => .modelUnavailable
    | .hostError => .upstreamHostError
    | .unset | .refreshUnavailable | .unrecognized =>
      if explicitRequestRejection lib evidence.type evidence.code evidence.summary then .clientError
      else classifyMarkers statusCode evidence.kind
        (lib.toLower (" ".intercalate [evidence.type, evidence.code, evidence.summary]))

/-- Whether an error response was received, as opposed to an attempt with an unknown outcome. -/
def retryableUpstreamResponse (attempt : ExecutionAttempt) (evidence : ErrorEvidence) : Bool :=
  if originForEvidence evidence ≠ .upstream ∨ evidence.replaySafety = .unknown then false
  else match evidence.kind with
    | .http =>
      let status := attempt.status evidence
      isSuccessStatus status || (400 ≤ status ∧ status ≤ 599)
    | .provider =>
      if evidence.code = "upstream_protocol_error" ∨ evidence.code = "upstream_response_incomplete"
      then false
      else attempt.responseStarted evidence
    | _ => false

/-! ## Decisions of the categories -/

def transientCapacityDecision (lib : Library) (attempt : ExecutionAttempt)
    (evidence : ErrorEvidence) : Option Decision :=
  if attempt.dispatchState ≠ .maybeSent ∨ evidence.replaySafety ≠ .rejectedBeforeProcessing ∨
      originForEvidence evidence ≠ .upstream ∨ (evidence.kind ≠ .http ∧ evidence.kind ≠ .provider)
  then none
  else
    let codeValue := lib.toLower (trimSpace evidence.code)
    let overloaded := codeValue = "server_is_overloaded"
    let rateLimited := codeValue = "rate_limit_exceeded"
    if decide overloaded = decide rateLimited then none
    else
      let category := if rateLimited then .rateLimited else .upstreamHostError
      some (decision category .upstream evidence.scopeHint .nextCandidate .none
        "candidate.transient_capacity")

def ambiguousRuleID (evidence : ErrorEvidence) : String :=
  if evidence.code = "upstream_sse_error" then "stream.provider_error"
  else if evidence.code = "upstream_stream_terminated" then "stream.upstream_terminated"
  else if evidence.code = "upstream_protocol_error" then "stream.protocol_error"
  else if evidence.code = "upstream_stream_idle_timeout" then "stream.idle_timeout"
  else if evidence.code = "upstream_response_incomplete" then "stream.provider_incomplete"
  else "fallback.ambiguous"

/-- When a rate limited candidate may be used again, and the rule that says so. -/
def rateLimitDeadline (lib : Library) (attempt : ExecutionAttempt) (evidence : ErrorEvidence)
    (ctx : DecisionContext) (modelScoped : Bool) (ruleID : String) : Time × String :=
  if 0 < evidence.retryAfter then
    (attempt.now.add evidence.retryAfter, "rate_limit.retry_after")
  else
    let header := if attempt.header.length = 0 then evidence.header else attempt.header
    let fallback := (attempt.now.add ctx.defaultRateLimitCooldown, ruleID)
    if modelScoped then
      match parseExplicitRetryAfter lib header attempt.now with
      | some until_ => (until_, "rate_limit.retry_after")
      | none => fallback
    else match parseRateLimitReset lib header attempt.now with
      | some until_ => (until_, "rate_limit.reset_header")
      | none => fallback

def rateLimitDecision (lib : Library) (attempt : ExecutionAttempt) (evidence : ErrorEvidence)
    (ctx : DecisionContext) : Decision :=
  let scope := evidence.scopeHint
  let retry := retryUnlessExplicitlyUnknown evidence
  let modelScoped := ctx.operation.usesModelCooldown && (scope = .unset || scope = .model)
  if scope = .unset && ctx.operation.valid && !ctx.operation.usesModelCooldown then
    decision .rateLimited (originForEvidence evidence) .request retry .none
      "rate_limit.operation_no_cooldown"
  else if scope = .request || (scope = .model && !modelScoped) then
    decision .rateLimited (originForEvidence evidence) scope .none .none "rate_limit.scoped"
  else
    let (scope, effect, ruleID) :=
      if modelScoped then (.model, .cooldownModel, "rate_limit.model.default_cooldown")
      else if scope = .credential then
        (scope, .cooldownCredential, "rate_limit.credential.default_cooldown")
      else (scope, .cooldownCredential, "legacy.http_429_credential_cooldown")
    let (until_, ruleID) := rateLimitDeadline lib attempt evidence ctx modelScoped ruleID
    { decision .rateLimited (originForEvidence evidence) scope retry effect ruleID with
      cooldownUntil := until_ }

def authenticationDecision (attempt : ExecutionAttempt) (evidence : ErrorEvidence)
    (ctx : DecisionContext) : Decision :=
  let required := decision .authenticationRequired .upstream .credential
  if attempt.dispatchState = .maybeSent ∧ evidence.replaySafety ≠ .rejectedBeforeProcessing then
    required .none .none "auth.replay_unsafe"
  else if evidence.hint = .refreshRequired then
    if ctx.credentialRefreshable ∧ evidence.replaySafety = .rejectedBeforeProcessing then
      required .refreshCredential .none "auth.refresh_required"
    else required .nextCandidate .none "auth.refresh_unavailable"
  else required .nextCandidate .none "auth.reauthorization_required"

/-- Requests for a stored resource; another model candidate does not have the resource. -/
def resourceOperation : Operation → Bool
  | .responsesRetrieve | .responsesDelete | .responsesCancel | .responsesInputItems
  | .responsesPassthrough => true
  | _ => false

def modelUnavailableRuleID (operation : Operation) : String :=
  if replayPolicy operation = .requireRejectedBeforeProcessing then
    match operation with
    | .embeddingsCreate => "embeddings.model_unavailable"
    | .rerank => "rerank.model_unavailable"
    | .decisionsCreate => "decisions.model_unavailable"
    | _ => "images.model_unavailable"
  else "model.unavailable"

def hostErrorDecision (lib : Library) (attempt : ExecutionAttempt) (evidence : ErrorEvidence)
    (ctx : DecisionContext) : Decision :=
  let (retry, ruleID) :=
    if evidence.replaySafety = .rejectedBeforeProcessing then
      (.nextCandidate, "upstream.host_error.rejected_before_processing")
    else if retryableUpstreamResponse attempt evidence && requestMayReplayAfterResponse lib ctx then
      (.nextCandidate, "upstream.host_error.response_retry")
    else (.none, "upstream.host_error.replay_unsafe")
  decision .upstreamHostError (originForEvidence evidence)
    (scopeOrDefault evidence.scopeHint .group) retry .skipGroup ruleID

def fallbackDecision (lib : Library) (category : FailureCategory) (attempt : ExecutionAttempt)
    (evidence : ErrorEvidence) (ctx : DecisionContext) : Decision :=
  let fallback := decision category (originForEvidence evidence) evidence.scopeHint
  let ruleID := ambiguousRuleID evidence
  if retryableUpstreamResponse attempt evidence then
    if !requestMayReplayAfterResponse lib ctx &&
        evidence.replaySafety ≠ .rejectedBeforeProcessing then
      fallback .none .none "safety.operation_replay_unsafe"
    else if ruleID = "fallback.ambiguous" then
      fallback .nextCandidate .none "fallback.upstream_response"
    else fallback .nextCandidate .none ruleID
  else fallback .none .none ruleID

def categoryDecision (lib : Library) (category : FailureCategory) (attempt : ExecutionAttempt)
    (evidence : ErrorEvidence) (ctx : DecisionContext) : Decision :=
  let origin := originForEvidence evidence
  let scope := evidence.scopeHint
  match category with
  | .rateLimited => rateLimitDecision lib attempt evidence ctx
  | .modelUnavailable =>
    decision category origin (scopeOrDefault scope .model) (retryUnlessExplicitlyUnknown evidence)
      .none (modelUnavailableRuleID ctx.operation)
  | .invalidKey =>
    decision category origin (scopeOrDefault scope .credential)
      (retryUnlessExplicitlyUnknown evidence) .recordCredentialFailure "auth.invalid_credential"
  | .authenticationRequired => authenticationDecision attempt evidence ctx
  | .upstreamHostError => hostErrorDecision lib attempt evidence ctx
  | .conversionUnsupported =>
    decision category .internal (scopeOrDefault scope .group) .none .skipGroup
      "conversion.unsupported"
  | .clientError =>
    decision category origin (scopeOrDefault scope .request) .none .none
      "fallback.http_client_error"
  | .ok => decision category origin scope .none .none "success.upstream_response"
  | .ambiguous | .downstreamCancel => fallbackDecision lib category attempt evidence ctx

def decisionForExecutionCategory (lib : Library) (category : FailureCategory)
    (attempt : ExecutionAttempt) (evidence : ErrorEvidence) (ctx : DecisionContext) : Decision :=
  match transientCapacityDecision lib attempt evidence with
  | some transientCapacity => transientCapacity
  | none =>
    let origin := originForEvidence evidence
    let scope := evidence.scopeHint
    if category = .modelUnavailable && resourceOperation ctx.operation then
      decision category origin scope .none .none "model.resource_unavailable"
    else if evidence.hint = .candidateUnavailable then
      if evidence.replaySafety = .unknown then
        decision category origin scope .none .none "safety.replay_unknown"
      else
        decision category origin (scopeOrDefault scope .model) .nextCandidate .none
          "candidate.unavailable"
    else categoryDecision lib category attempt evidence ctx

/-! ## Custom rules and the final constraints -/

def ErrorRule.matched (lib : Library) (rule : ErrorRule) (status : Int)
    (evidence : ErrorEvidence) : Bool :=
  let fields := [evidence.code, evidence.type, evidence.summary].map lib.toLower
  (rule.statusCodes.length = 0 || rule.statusCodes.contains status) &&
    (rule.keywords.length = 0 ||
      rule.keywords.any fun keyword => fields.any fun field => contains field (lib.toLower keyword))

/-- Where custom rules do not apply. -/
def ErrorRules.bypassed (base : Decision) (attempt : ExecutionAttempt) (evidence : ErrorEvidence) :
    Bool :=
  base.origin ≠ .upstream || base.category = .clientError ||
    base.category = .authenticationRequired || evidence.hint = .refreshUnavailable ||
    !attempt.responseStarted evidence || (evidence.kind ≠ .http && evidence.kind ≠ .provider) ||
    base.ruleID = "model.resource_unavailable" || base.ruleID = "rate_limit.scoped" ||
    evidence.code = "upstream_protocol_error" || evidence.code = "upstream_response_incomplete"

def ErrorRule.outcome (rule : ErrorRule) (base : Decision) (ctx : DecisionContext)
    (ruleID : String) : ErrorScope × Effect × String :=
  match rule.effect with
  | .cooldownCredential | .recordCredentialFailure => (.credential, rule.effect, ruleID)
  | .cooldownModel =>
    if ctx.operation.usesModelCooldown then (.model, rule.effect, ruleID)
    else (base.scope, .none, "safety.operation_no_model_cooldown")
  | .skipGroup => (.group, rule.effect, ruleID)
  | .none | .unrecognized => (base.scope, rule.effect, ruleID)

def ErrorRule.constrainedRetry (lib : Library) (rule : ErrorRule) (attempt : ExecutionAttempt)
    (evidence : ErrorEvidence) (ctx : DecisionContext) (ruleID : String) :
    RetryDirective × String :=
  if rule.retry = .none then (rule.retry, ruleID)
  else if !retryableUpstreamResponse attempt evidence then (.none, "safety.replay_unknown")
  else if !requestMayReplayAfterResponse lib ctx &&
      evidence.replaySafety ≠ .rejectedBeforeProcessing then
    (.none, "safety.operation_replay_unsafe")
  else (rule.retry, ruleID)

def ErrorRule.decide (lib : Library) (rule : ErrorRule) (base : Decision)
    (attempt : ExecutionAttempt) (evidence : ErrorEvidence) (ctx : DecisionContext)
    (ruleID : String) : Decision :=
  let (scope, effect, ruleID) := rule.outcome base ctx ruleID
  let (retry, ruleID) := rule.constrainedRetry lib attempt evidence ctx ruleID
  { category := base.category, origin := base.origin, scope, retry, effect, ruleID
    cooldownUntil :=
      if effect.cooldown then attempt.now.add (rule.cooldownSeconds * second) else 0 }

def ErrorRules.apply (lib : Library) (rules : ErrorRules) (base : Decision)
    (attempt : ExecutionAttempt) (evidence : ErrorEvidence) (ctx : DecisionContext) : Decision :=
  if rules.entries.length = 0 || ErrorRules.bypassed base attempt evidence then base
  else match rules.entries.zipIdx.find? fun entry =>
      entry.1.matched lib (attempt.status evidence) evidence with
    | some (rule, index) =>
      rule.decide lib base attempt evidence ctx s!"custom.{rules.source}.{index + 1}"
    | none => base

def constrainOperationReplay (result : Decision) (attempt : ExecutionAttempt)
    (evidence : ErrorEvidence) (ctx : DecisionContext) : Decision :=
  if result.retry = .none ∨ attempt.dispatchState ≠ .maybeSent ∨
      replayPolicy ctx.operation ≠ .requireRejectedBeforeProcessing then result
  else if evidence.replaySafety = .rejectedBeforeProcessing then result
  else { result with retry := .none, ruleID := "safety.operation_replay_unsafe" }

def trustedCommittedCredentialEffect (result : Decision) (evidence : ErrorEvidence) : Bool :=
  result.scope = .credential && (evidence.scopeHint = .credential ||
    (result.effect = .recordCredentialFailure && evidence.hint = .invalidCredential))

/-- Whether an effect stands although the client has already received a part of the response. -/
def committedEffectStands (result : Decision) (evidence : ErrorEvidence) : Bool :=
  match result.effect with
  | .cooldownModel =>
    evidence.hint = .rateLimited && evidence.originHint ≠ .internal &&
      evidence.originHint ≠ .downstream
  | .cooldownCredential | .recordCredentialFailure =>
    trustedCommittedCredentialEffect result evidence
  | .none | .skipGroup | .unrecognized => false

def constrainCommittedDecision (result : Decision) (attempt : ExecutionAttempt)
    (evidence : ErrorEvidence) : Decision :=
  if !attempt.downstreamCommitted then result
  else
    let stands := committedEffectStands result evidence
    let effect := if stands then result.effect else .none
    { result with
      retry := .none
      effect := effect
      cooldownUntil := if stands then result.cooldownUntil else 0
      ruleID :=
        if result.category = .rateLimited && effect = .cooldownCredential then
          "rate_limit.credential.committed"
        else if result.retry ≠ .none || result.effect ≠ effect then "safety.committed"
        else result.ruleID }

/-! ## The judgement -/

/-- A rate limit that the client has not waited for still cools the model down. -/
def canceledModelCooldown (lib : Library) (attempt : ExecutionAttempt) (ctx : DecisionContext) :
    Option Decision :=
  attempt.evidence.bind fun evidence =>
    if attempt.dispatchState ≠ .maybeSent || !ctx.operation.usesModelCooldown ||
        evidence.hint ≠ .rateLimited || (evidence.kind ≠ .http && evidence.kind ≠ .provider) ||
        (evidence.scopeHint ≠ .unset && evidence.scopeHint ≠ .model) ||
        (evidence.originHint ≠ .unset && evidence.originHint ≠ .upstream) then none
    else
      let result := { decisionForExecutionCategory lib .rateLimited attempt evidence ctx with
        retry := .none }
      if result.effect = .cooldownModel then some result else none

def refreshTemporarilyUnavailableDecision (attempt : ExecutionAttempt) (evidence : ErrorEvidence)
    (ctx : DecisionContext) : Decision :=
  let (category, ruleID) :=
    if evidence.statusCode = 429 then (.rateLimited, "auth.refresh_rate_limited")
    else (.upstreamHostError, "auth.refresh_temporarily_unavailable")
  let cooldown := if ctx.defaultRateLimitCooldown ≤ 0 then minute else ctx.defaultRateLimitCooldown
  let cooldown := if 0 < evidence.retryAfter then evidence.retryAfter else cooldown
  { decision category .upstream .credential .nextCandidate .cooldownCredential ruleID with
    cooldownUntil := attempt.now.add cooldown }

def candidatePreparationDecision (evidence : ErrorEvidence) : Option Decision :=
  let prepared := fun effect => some (decision .ambiguous .internal evidence.scopeHint
    .nextCandidate effect ("candidate." ++ evidence.code))
  if evidence.originHint ≠ .internal then none
  else if ["credential_decrypt_failed", "credential_normalization_failed",
      "credential_proxy_prepare_failed"].contains evidence.code then
    if evidence.scopeHint ≠ .credential then none else prepared .none
  else if evidence.code = "group_proxy_prepare_failed" then
    if evidence.scopeHint ≠ .group then none else prepared .skipGroup
  else none

/-- The category of the evidence and the custom rules, before the constraints. -/
def ruledDecision (lib : Library) (attempt : ExecutionAttempt) (evidence : ErrorEvidence)
    (ctx : DecisionContext) : Decision :=
  let category := classifyExecutionEvidence lib attempt evidence
  let result := decisionForExecutionCategory lib category attempt evidence ctx
  ctx.errorRules.apply lib result attempt evidence ctx

def judgeNotSent (lib : Library) (attempt : ExecutionAttempt) (evidence : ErrorEvidence)
    (ctx : DecisionContext) : Decision :=
  match candidatePreparationDecision evidence with
  | some result => result
  | none =>
    let notSent := decision .ambiguous (originForEvidence evidence) evidence.scopeHint .none .none
      "fallback.not_sent"
    if evidence.hint = .refreshRequired then authenticationDecision attempt evidence ctx
    else if evidence.hint = .refreshUnavailable then
      refreshTemporarilyUnavailableDecision attempt evidence ctx
    else if evidence.hint = .reauthorizationRequired then
      decision .authenticationRequired .upstream .credential .nextCandidate .none
        "auth.reauthorization_required"
    else match evidence.kind with
      | .http =>
        if originForEvidence evidence = .upstream && 400 ≤ evidence.statusCode &&
            evidence.statusCode ≤ 599 then
          -- A handshake can be refused before the request itself is sent.
          let evidence := { evidence with replaySafety := .rejectedBeforeProcessing }
          let attempt := { attempt with evidence := some evidence }
          constrainCommittedDecision (ruledDecision lib attempt evidence ctx) attempt evidence
        else notSent
      | .transport | .timeout =>
        decision .upstreamHostError .upstream .group .nextCandidate .skipGroup "transport.not_sent"
      | .conversionUnsupported =>
        decision .conversionUnsupported .internal .group .nextCandidate .skipGroup
          "conversion.not_sent"
      | .invalidRequest =>
        decision .clientError (originForEvidence evidence)
          (scopeOrDefault evidence.scopeHint .request) .none .none "request.invalid_before_dispatch"
      | .canceled | .provider | .internal | .unrecognized => notSent

def judgeMaybeSent (lib : Library) (attempt : ExecutionAttempt) (evidence : ErrorEvidence)
    (ctx : DecisionContext) : Decision :=
  if !attempt.responseStarted evidence &&
      (evidence.kind = .transport || evidence.kind = .timeout) then
    decision .ambiguous .upstream evidence.scopeHint .none .none "transport.outcome_unknown"
  else if 100 ≤ attempt.statusCode ∧ attempt.statusCode < 200 then
    decision .ambiguous .upstream .request .none .none "safety.final_informational_response"
  else
    let result := ruledDecision lib attempt evidence ctx
    let result :=
      if evidence.replaySafety = .unknown ∧ result.ruleID = "fallback.ambiguous" then
        { result with ruleID := "safety.replay_unknown" }
      else result
    constrainCommittedDecision (constrainOperationReplay result attempt evidence ctx) attempt
      evidence

def judgeEvidence (lib : Library) (attempt : ExecutionAttempt) (evidence : ErrorEvidence)
    (ctx : DecisionContext) : Decision :=
  if evidence.kind = .canceled then
    decision .downstreamCancel .downstream .request .none .none "safety.execution_canceled"
  else if evidence.code = emptyResponseCode then
    constrainCommittedDecision
      (decision .ambiguous .upstream .request .nextCandidate .none "content.empty_response")
      attempt evidence
  else match attempt.dispatchState with
    | .notSent => judgeNotSent lib attempt evidence ctx
    | .maybeSent => judgeMaybeSent lib attempt evidence ctx
    | .localOnly | .unrecognized =>
      decision .ambiguous (originForEvidence evidence) evidence.scopeHint .none .none
        "fallback.invalid_dispatch_state"

def judgeExecution (lib : Library) (attempt : ExecutionAttempt) (ctx : DecisionContext) :
    Decision :=
  let ctx := normalizeDecisionContext ctx
  match attempt.downstreamErr with
  | some err =>
    (canceledModelCooldown lib attempt ctx).getD <|
      if err = .canceled ∨ err = .deadlineExceeded then
        decision .downstreamCancel .downstream .request .none .none "safety.downstream_cancel"
      else
        decision .ambiguous .downstream .request .none .none "safety.downstream_write_failed"
  | none =>
    match attempt.evidence with
    | none =>
      if attempt.downstreamCommitted && isSuccessStatus attempt.statusCode then
        decision .ok .upstream .unset .none .none "success.committed_stream"
      else if attempt.dispatchState.valid && isSuccessStatus attempt.statusCode then
        decision .ok .upstream .unset .none .none "success.upstream_response"
      else
        decision .ambiguous (originForDispatch attempt.dispatchState) .unset .none .none
          "fallback.missing_evidence"
    | some evidence => judgeEvidence lib attempt evidence ctx

end ApiLoad.Health
