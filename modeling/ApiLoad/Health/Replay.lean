import ApiLoad.Health.Judge

/-!
# Replay safety of the judgement

A request that may have reached an upstream is sent again only if this is known to be safe. Every
decision of a category and every custom rule respects that; the one decision that does not ask is
the one for an empty response.
-/
namespace ApiLoad.Health
open Foundation Text Execution Channel

attribute [local simp] categoryDecision decision

variable {lib : Library} {attempt : ExecutionAttempt} {evidence : ErrorEvidence}
  {ctx : DecisionContext} {result : Decision}

/-! ## Evidence of an unknown outcome -/

theorem retryableUpstreamResponse_unknown (h : evidence.replaySafety = .unknown) :
    retryableUpstreamResponse attempt evidence = false := by
  simp [retryableUpstreamResponse, h]

theorem rateLimitDecision_retry_unknown (h : evidence.replaySafety = .unknown) :
    (rateLimitDecision lib attempt evidence ctx).retry = .none := by
  have hretry : retryUnlessExplicitlyUnknown evidence = .none := by
    simp [retryUnlessExplicitlyUnknown, h]
  unfold rateLimitDecision
  grind [decision]

theorem categoryDecision_retry_unknown {category : FailureCategory}
    (hsent : attempt.dispatchState = .maybeSent) (h : evidence.replaySafety = .unknown) :
    (categoryDecision lib category attempt evidence ctx).retry = .none := by
  have hresponse : retryableUpstreamResponse attempt evidence = false :=
    retryableUpstreamResponse_unknown h
  cases category with
  | rateLimited => exact rateLimitDecision_retry_unknown h
  | authenticationRequired => simp [authenticationDecision, hsent, h]
  | upstreamHostError => simp [hostErrorDecision, h, hresponse]
  | ambiguous | downstreamCancel => simp [fallbackDecision, hresponse]
  | _ => simp [retryUnlessExplicitlyUnknown, h]

theorem decisionForExecutionCategory_retry_unknown {category : FailureCategory}
    (hsent : attempt.dispatchState = .maybeSent) (h : evidence.replaySafety = .unknown) :
    (decisionForExecutionCategory lib category attempt evidence ctx).retry = .none := by
  have htransient : transientCapacityDecision lib attempt evidence = none := by
    simp [transientCapacityDecision, h]
  have hcategory := @categoryDecision_retry_unknown lib attempt evidence ctx category hsent h
  unfold decisionForExecutionCategory
  rw [htransient]
  grind [decision]

/-- A custom rule retries only after a response that shows the outcome. -/
theorem apply_retry_unknown {rules : ErrorRules} (h : evidence.replaySafety = .unknown)
    (hbase : result.retry = .none) :
    (rules.apply lib result attempt evidence ctx).retry = .none := by
  have hresponse : retryableUpstreamResponse attempt evidence = false :=
    retryableUpstreamResponse_unknown h
  unfold ErrorRules.apply
  split
  · exact hbase
  split
  · simp only [ErrorRule.decide, ErrorRule.constrainedRetry, hresponse]
    grind
  · exact hbase

theorem ruledDecision_retry_unknown (hsent : attempt.dispatchState = .maybeSent)
    (h : evidence.replaySafety = .unknown) :
    (ruledDecision lib attempt evidence ctx).retry = .none :=
  apply_retry_unknown h (decisionForExecutionCategory_retry_unknown hsent h)

/-! ## The constraints -/

theorem constrainOperationReplay_retry_none (h : result.retry = .none) :
    (constrainOperationReplay result attempt evidence ctx).retry = .none := by
  simp [constrainOperationReplay, h]

theorem constrainOperationReplay_retry_required (hsent : attempt.dispatchState = .maybeSent)
    (hpolicy : replayPolicy ctx.operation = .requireRejectedBeforeProcessing)
    (h : evidence.replaySafety ≠ .rejectedBeforeProcessing) :
    (constrainOperationReplay result attempt evidence ctx).retry = .none := by
  unfold constrainOperationReplay
  grind

theorem constrainCommittedDecision_retry_none (h : result.retry = .none) :
    (constrainCommittedDecision result attempt evidence).retry = .none := by
  unfold constrainCommittedDecision
  split
  · exact h
  · rfl

@[simp] theorem normalizeDecisionContext_operation (ctx : DecisionContext) :
    (normalizeDecisionContext ctx).operation = ctx.operation := by
  unfold normalizeDecisionContext
  split <;> rfl

theorem canceledModelCooldown_some {d : Decision}
    (h : canceledModelCooldown lib attempt ctx = some d) :
    ∃ evidence, attempt.evidence = some evidence ∧ evidence.hint = .rateLimited ∧
      (evidence.originHint = .unset ∨ evidence.originHint = .upstream) ∧ d.effect = .cooldownModel ∧
      d = { decisionForExecutionCategory lib .rateLimited attempt evidence ctx with
        retry := .none } := by
  obtain ⟨evidence, hevidence, h⟩ := Option.bind_eq_some_iff.mp h
  refine ⟨evidence, hevidence, ?_⟩
  split at h
  · cases h
  dsimp only at h
  split at h <;> cases h
  grind

/-! ## Replays of requests that may have been sent -/

def ExecutionAttempt.saysReplayUnknown (attempt : ExecutionAttempt) : Prop :=
  ∃ evidence, attempt.evidence = some evidence ∧ evidence.replaySafety = .unknown

def ExecutionAttempt.saysRejectedBeforeProcessing (attempt : ExecutionAttempt) : Prop :=
  ∃ evidence, attempt.evidence = some evidence ∧ evidence.replaySafety = .rejectedBeforeProcessing

/-- Nothing shows that the request may be sent again. -/
def ReplayUnsafe (attempt : ExecutionAttempt) (ctx : DecisionContext) : Prop :=
  attempt.saysReplayUnknown ∨
    (replayPolicy ctx.operation = .requireRejectedBeforeProcessing ∧
      ¬ attempt.saysRejectedBeforeProcessing)

/-- The evidence carries the code of an empty response, and the client has received nothing. -/
def ExecutionAttempt.emptyBeforeCommit (attempt : ExecutionAttempt) : Prop :=
  attempt.downstreamErr = none ∧ attempt.downstreamCommitted = false ∧
    ∃ evidence, attempt.evidence = some evidence ∧ evidence.kind ≠ .canceled ∧
      evidence.code = emptyResponseCode

theorem judgeMaybeSent_retry (hsent : attempt.dispatchState = .maybeSent)
    (hevidence : attempt.evidence = some evidence) (h : ReplayUnsafe attempt ctx) :
    (judgeMaybeSent lib attempt evidence ctx).retry = .none := by
  unfold judgeMaybeSent
  split
  · rfl
  split
  · rfl
  apply constrainCommittedDecision_retry_none
  rcases h with ⟨e, he, hunknown⟩ | ⟨hpolicy, hrejected⟩
  · obtain rfl : evidence = e := by simpa [hevidence] using he
    apply constrainOperationReplay_retry_none
    have := @ruledDecision_retry_unknown lib attempt evidence ctx hsent hunknown
    split <;> exact this
  · apply constrainOperationReplay_retry_required hsent hpolicy
    exact fun hr => hrejected ⟨evidence, hevidence, hr⟩

theorem ReplayUnsafe.normalize (h : ReplayUnsafe attempt ctx) :
    ReplayUnsafe attempt (normalizeDecisionContext ctx) := by
  simpa [ReplayUnsafe] using h

/-- Without evidence that a replay is safe, a request that may have been sent is not sent again,
unless its evidence carries the code of an empty response that the client has not seen. -/
theorem no_unsafe_replay_iff (lib : Library) (attempt : ExecutionAttempt) (ctx : DecisionContext)
    (hsent : attempt.dispatchState = .maybeSent) (h : ReplayUnsafe attempt ctx) :
    (judgeExecution lib attempt ctx).retry = .none ↔ ¬ attempt.emptyBeforeCommit := by
  unfold judgeExecution ExecutionAttempt.emptyBeforeCommit
  split
  case h_1 err herr =>
    suffices ((canceledModelCooldown lib attempt (normalizeDecisionContext ctx)).getD _).retry =
        .none by simpa [herr] using this
    cases hcooldown : canceledModelCooldown lib attempt (normalizeDecisionContext ctx) with
    | none => split <;> rfl
    | some d =>
      obtain ⟨evidence, -, -, -, -, rfl⟩ := canceledModelCooldown_some hcooldown
      rfl
  case h_2 herr =>
    split
    case h_1 hevidence =>
      simp only [hevidence, herr]
      split
      · simp
      · split <;> simp
    case h_2 evidence hevidence =>
      unfold judgeEvidence
      by_cases hcanceled : evidence.kind = .canceled
      · simp [hevidence, hcanceled]
      by_cases hempty : evidence.code = emptyResponseCode
      · cases hcommitted : attempt.downstreamCommitted <;>
          simp [constrainCommittedDecision, hevidence, hcanceled, hempty, hcommitted,
            herr]
      · simpa [hevidence, hcanceled, hempty, hsent] using
          judgeMaybeSent_retry hsent hevidence h.normalize

def plainLibrary : Library where
  toLower := id
  equalFold := fun a b => a == b
  parseHTTPTime := fun _ => none
  parseRFC3339 := fun _ => none
  parseDuration := fun _ => none

def unknownOutcome (code : String) : ExecutionAttempt where
  dispatchState := .maybeSent
  statusCode := 500
  evidence := some { kind := .http, statusCode := 500, code, replaySafety := .unknown }
  now := 0

theorem no_unsafe_replay_iff_imagesGenerate :
    (judgeExecution plainLibrary (unknownOutcome "server_error")
      { operation := .imagesGenerate }).retry = .none :=
  (no_unsafe_replay_iff plainLibrary (unknownOutcome "server_error")
    { operation := .imagesGenerate } rfl (.inl ⟨_, rfl, rfl⟩)).mpr (by
      rintro ⟨-, -, evidence, hevidence, -, hcode⟩
      cases hevidence
      exact absurd hcode (by decide +kernel))

/-- The code is text of the upstream: an upstream that answers with it makes the request be sent
again, although the operation requires that it was rejected before processing. -/
theorem empty_response_code_replays :
    let attempt := unknownOutcome emptyResponseCode
    attempt.dispatchState = .maybeSent ∧ attempt.saysReplayUnknown ∧
      replayPolicy .imagesGenerate = .requireRejectedBeforeProcessing ∧
      ¬ attempt.saysRejectedBeforeProcessing ∧
      (judgeExecution plainLibrary attempt { operation := .imagesGenerate }).retry =
        .nextCandidate := by
  refine ⟨rfl, ⟨_, rfl, rfl⟩, rfl, ?_, by decide +kernel⟩
  rintro ⟨evidence, hevidence, hrejected⟩
  cases hevidence
  cases hrejected

end ApiLoad.Health
