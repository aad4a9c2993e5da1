import ApiLoad.Health.Replay

/-!
# The contract of decisions

Every decision passes `Decision.Validate`, and once the client has received a part of the response
nothing is decided that assumes it could be replaced.
-/
namespace ApiLoad.Health
open Foundation Text Execution Channel List

variable {lib : Library} {attempt : ExecutionAttempt} {evidence : ErrorEvidence}
  {ctx : DecisionContext} {result : Decision}

/-! ## Parts of a decision -/

theorem originForEvidence_valid (h : evidence.originHint.valid) :
    (originForEvidence evidence).valid := by
  unfold originForEvidence
  split
  · exact h
  · split <;> rfl

theorem scopeOrDefault_valid {value fallback : ErrorScope} (hvalue : value.valid)
    (hfallback : fallback.valid) : (scopeOrDefault value fallback).valid := by
  unfold scopeOrDefault
  split <;> assumption

def ruleIDs : List String :=
  ["candidate.transient_capacity", "stream.provider_error", "stream.upstream_terminated",
    "stream.protocol_error", "stream.idle_timeout", "stream.provider_incomplete",
    "fallback.ambiguous", "rate_limit.retry_after", "rate_limit.reset_header",
    "rate_limit.operation_no_cooldown", "rate_limit.scoped", "rate_limit.model.default_cooldown",
    "rate_limit.credential.default_cooldown", "legacy.http_429_credential_cooldown",
    "auth.replay_unsafe", "auth.refresh_required", "auth.refresh_unavailable",
    "auth.reauthorization_required", "embeddings.model_unavailable", "rerank.model_unavailable",
    "decisions.model_unavailable", "images.model_unavailable", "model.unavailable",
    "upstream.host_error.rejected_before_processing", "upstream.host_error.response_retry",
    "upstream.host_error.replay_unsafe", "safety.operation_replay_unsafe",
    "fallback.upstream_response", "auth.invalid_credential", "conversion.unsupported",
    "fallback.http_client_error", "success.upstream_response", "model.resource_unavailable",
    "safety.replay_unknown", "candidate.unavailable", "safety.operation_no_model_cooldown",
    "rate_limit.credential.committed", "safety.committed", "auth.refresh_rate_limited",
    "auth.refresh_temporarily_unavailable", "fallback.not_sent", "transport.not_sent",
    "conversion.not_sent", "request.invalid_before_dispatch", "transport.outcome_unknown",
    "safety.final_informational_response", "safety.execution_canceled", "content.empty_response",
    "fallback.invalid_dispatch_state", "safety.downstream_cancel", "safety.downstream_write_failed",
    "success.committed_stream", "fallback.missing_evidence"]

variable {ruleID : String} {category : FailureCategory} {retry : RetryDirective}
  {modelScoped : Bool} {d : Decision}

attribute [local simp] ruleIDs

theorem RuleIDValid.of_mem (h : ruleID ∈ ruleIDs) : RuleIDValid ruleID := by
  have hall : ∀ ruleID ∈ ruleIDs, RuleIDValid ruleID := by decide +kernel
  exact hall ruleID h

theorem decision_wellFormed {origin : ErrorOrigin} {scope : ErrorScope} {effect : Effect}
    (horigin : origin.valid) (hscope : scope.valid) (hretry : retry.valid) (heffect : effect.valid)
    (hcooldown : effect.cooldown = false) (hrule : RuleIDValid ruleID) :
    (decision category origin scope retry effect ruleID).WellFormed :=
  ⟨horigin, hscope, hretry, heffect, hrule, by simp [decision, hcooldown]⟩

theorem retryUnlessExplicitlyUnknown_valid (evidence : ErrorEvidence) :
    (retryUnlessExplicitlyUnknown evidence).valid := by
  unfold retryUnlessExplicitlyUnknown
  split <;> rfl

/-- Another rule ID and a weaker retry leave a decision well formed. -/
theorem Decision.WellFormed.relabel (h : result.WellFormed) (hretry : retry.valid)
    (hrule : RuleIDValid ruleID) : { result with retry := retry, ruleID := ruleID }.WellFormed :=
  ⟨h.origin, h.scope, hretry, h.effect, hrule, h.deadline⟩

/-- A clock reading that no delay brings to the zero time. -/
def ClockClear (now : Time) : Prop := ∀ delay : Duration, 0 < delay → now.add delay ≠ 0

/-- The fields of the evidence that decisions take over. -/
structure EvidenceClear (evidence : ErrorEvidence) : Prop where
  origin : evidence.originHint.valid
  scope : evidence.scopeHint.valid

/-! ## Decisions of the categories -/

theorem rateLimitDeadline_ne_zero (hclock : ClockClear attempt.now)
    (hdefault : 0 < ctx.defaultRateLimitCooldown) :
    (rateLimitDeadline lib attempt evidence ctx modelScoped ruleID).1 ≠ 0 := by
  have hfallback := hclock _ hdefault
  unfold rateLimitDeadline
  split
  case isTrue hretry => exact hclock _ hretry
  case isFalse =>
    dsimp only
    split
    · split
      case h_1 until_ huntil => exact parseExplicitRetryAfter_ne_zero huntil
      case h_2 => exact hfallback
    split
    case h_1 until_ huntil => exact parseRateLimitReset_ne_zero huntil
    case h_2 => exact hfallback

theorem rateLimitDeadline_ruleID (h : RuleIDValid ruleID) :
    RuleIDValid (rateLimitDeadline lib attempt evidence ctx modelScoped ruleID).2 := by
  have hretry : RuleIDValid "rate_limit.retry_after" := .of_mem (by simp)
  have hreset : RuleIDValid "rate_limit.reset_header" := .of_mem (by simp)
  unfold rateLimitDeadline
  grind

theorem rateLimitDecision_wellFormed (hevidence : EvidenceClear evidence)
    (hclock : ClockClear attempt.now) (hdefault : 0 < ctx.defaultRateLimitCooldown) :
    (rateLimitDecision lib attempt evidence ctx).WellFormed := by
  have horigin := originForEvidence_valid hevidence.origin
  have hretry := retryUnlessExplicitlyUnknown_valid evidence
  unfold rateLimitDecision
  dsimp only
  split
  · exact decision_wellFormed horigin rfl hretry rfl rfl (.of_mem (by simp))
  split
  · exact decision_wellFormed horigin hevidence.scope rfl rfl rfl (.of_mem (by simp))
  -- What remains is a cooldown, of the model or of the credential.
  split
  · exact ⟨horigin, rfl, hretry, rfl, rateLimitDeadline_ruleID (.of_mem (by simp)),
      iff_of_true rfl (rateLimitDeadline_ne_zero hclock hdefault)⟩
  split
  all_goals exact ⟨horigin, hevidence.scope, hretry, rfl,
    rateLimitDeadline_ruleID (.of_mem (by simp)),
    iff_of_true rfl (rateLimitDeadline_ne_zero hclock hdefault)⟩

theorem authenticationDecision_wellFormed :
    (authenticationDecision attempt evidence ctx).WellFormed := by
  unfold authenticationDecision
  dsimp only
  repeat' split
  all_goals exact decision_wellFormed rfl rfl rfl rfl rfl (.of_mem (by simp))

theorem modelUnavailableRuleID_valid (operation : Operation) :
    RuleIDValid (modelUnavailableRuleID operation) := by
  cases operation <;> exact .of_mem (by simp [modelUnavailableRuleID, replayPolicy])

theorem hostErrorDecision_wellFormed (hevidence : EvidenceClear evidence) :
    (hostErrorDecision lib attempt evidence ctx).WellFormed := by
  have horigin := originForEvidence_valid hevidence.origin
  have hscope : (scopeOrDefault evidence.scopeHint .group).valid :=
    scopeOrDefault_valid hevidence.scope rfl
  unfold hostErrorDecision
  by_cases hrejected : evidence.replaySafety = .rejectedBeforeProcessing
  · rw [if_pos hrejected]
    exact decision_wellFormed horigin hscope rfl rfl rfl (.of_mem (by simp))
  rw [if_neg hrejected]
  cases retryableUpstreamResponse attempt evidence && requestMayReplayAfterResponse lib ctx
  all_goals exact decision_wellFormed horigin hscope rfl rfl rfl (.of_mem (by simp))

theorem ambiguousRuleID_valid (evidence : ErrorEvidence) :
    RuleIDValid (ambiguousRuleID evidence) := by
  unfold ambiguousRuleID
  repeat' split
  all_goals exact .of_mem (by simp)

theorem fallbackDecision_wellFormed (hevidence : EvidenceClear evidence) :
    (fallbackDecision lib category attempt evidence ctx).WellFormed := by
  have horigin := originForEvidence_valid hevidence.origin
  have hrule := ambiguousRuleID_valid evidence
  unfold fallbackDecision
  dsimp only
  split
  swap
  · exact decision_wellFormed horigin hevidence.scope rfl rfl rfl hrule
  split
  · exact decision_wellFormed horigin hevidence.scope rfl rfl rfl (.of_mem (by simp))
  split
  · exact decision_wellFormed horigin hevidence.scope rfl rfl rfl (.of_mem (by simp))
  · exact decision_wellFormed horigin hevidence.scope rfl rfl rfl hrule

theorem categoryDecision_wellFormed (hevidence : EvidenceClear evidence)
    (hclock : ClockClear attempt.now) (hdefault : 0 < ctx.defaultRateLimitCooldown) :
    (categoryDecision lib category attempt evidence ctx).WellFormed := by
  have horigin := originForEvidence_valid hevidence.origin
  have hretry := retryUnlessExplicitlyUnknown_valid evidence
  have hscope : ∀ fallback : ErrorScope, fallback.valid →
      (scopeOrDefault evidence.scopeHint fallback).valid :=
    fun _ => scopeOrDefault_valid hevidence.scope
  cases category with
  | rateLimited => exact rateLimitDecision_wellFormed hevidence hclock hdefault
  | modelUnavailable =>
    exact decision_wellFormed horigin (hscope _ rfl) hretry rfl rfl
      (modelUnavailableRuleID_valid _)
  | invalidKey =>
    exact decision_wellFormed horigin (hscope _ rfl) hretry rfl rfl (.of_mem (by simp))
  | authenticationRequired => exact authenticationDecision_wellFormed
  | upstreamHostError => exact hostErrorDecision_wellFormed hevidence
  | conversionUnsupported =>
    exact decision_wellFormed rfl (hscope _ rfl) rfl rfl rfl (.of_mem (by simp))
  | clientError =>
    exact decision_wellFormed horigin (hscope _ rfl) rfl rfl rfl (.of_mem (by simp))
  | ok => exact decision_wellFormed horigin hevidence.scope rfl rfl rfl (.of_mem (by simp))
  | ambiguous | downstreamCancel => exact fallbackDecision_wellFormed hevidence

theorem transientCapacityDecision_wellFormed (hevidence : EvidenceClear evidence)
    (h : transientCapacityDecision lib attempt evidence = some d) : d.WellFormed := by
  unfold transientCapacityDecision at h
  split at h
  · cases h
  dsimp only at h
  split at h <;> cases h
  exact decision_wellFormed rfl hevidence.scope rfl rfl rfl (.of_mem (by simp))

theorem decisionForExecutionCategory_wellFormed {category : FailureCategory}
    (hevidence : EvidenceClear evidence) (hclock : ClockClear attempt.now)
    (hdefault : 0 < ctx.defaultRateLimitCooldown) :
    (decisionForExecutionCategory lib category attempt evidence ctx).WellFormed := by
  have horigin := originForEvidence_valid hevidence.origin
  unfold decisionForExecutionCategory
  split
  case h_1 d hd => exact transientCapacityDecision_wellFormed hevidence hd
  case h_2 =>
    dsimp only
    split
    · exact decision_wellFormed horigin hevidence.scope rfl rfl rfl (.of_mem (by simp))
    split
    · split
      · exact decision_wellFormed horigin hevidence.scope rfl rfl rfl (.of_mem (by simp))
      · exact decision_wellFormed horigin (scopeOrDefault_valid hevidence.scope rfl) rfl rfl rfl
          (.of_mem (by simp))
    · exact categoryDecision_wellFormed hevidence hclock hdefault

/-! ## Custom rules -/

theorem isSpace_of_ruleIDCharacter {c : Char} (h : ruleIDCharacter c = true) :
    isSpace c = false := by
  simp only [ruleIDCharacter, Bool.or_eq_true, Bool.and_eq_true, decide_eq_true_eq,
    Char.le_def, UInt32.le_iff_toNat_le] at h
  have hcode : 45 ≤ c.toNat ∧ c.toNat ≤ 122 := by
    rcases h with (((⟨h₁, h₂⟩ | ⟨h₁, h₂⟩) | rfl) | rfl) | rfl
    · exact ⟨Nat.le_trans (by decide) h₁, Nat.le_trans h₂ (by decide)⟩
    · exact ⟨Nat.le_trans (by decide) h₁, Nat.le_trans h₂ (by decide)⟩
    all_goals decide
  exact isSpace_eq_false (by omega)

/-- No character of a rule ID is white space, so there is nothing to trim. -/
theorem RuleIDValid.of_characters (hne : ruleID ≠ "") (hbounded : ruleID.utf8ByteSize ≤ 128)
    (h : ruleID.toList.all ruleIDCharacter = true) : RuleIDValid ruleID := by
  refine ⟨?_, hbounded, h⟩
  rwa [trimSpace_eq_self fun c hc => isSpace_of_ruleIDCharacter (all_eq_true.mp h c hc)]

theorem customRuleID_valid {source : String} (h : source = "global" ∨ source = "group")
    {index : Nat} (hindex : index < maxErrorRules) :
    RuleIDValid s!"custom.{source}.{index + 1}" := by
  have hdigits : ∀ i : Fin maxErrorRules, (toString (i.val + 1)).utf8ByteSize ≤ 3 ∧
      (toString (i.val + 1)).toList.all ruleIDCharacter = true := by decide +kernel
  have hprefixes : ∀ source ∈ ["global", "group"], ("custom." ++ source ++ ".").utf8ByteSize ≤ 100 ∧
      ("custom." ++ source ++ ".").toList.all ruleIDCharacter = true := by decide +kernel
  obtain ⟨hlength, hchars⟩ : (toString (index + 1)).utf8ByteSize ≤ 3 ∧
      (toString (index + 1)).toList.all ruleIDCharacter = true := hdigits ⟨index, hindex⟩
  obtain ⟨hlength', hchars'⟩ := hprefixes source (by simpa using h)
  have heq :
      s!"custom.{source}.{index + 1}" = "custom." ++ source ++ "." ++ toString (index + 1) := by
    simp [toString, String.append_assoc]
  rw [heq]
  refine RuleIDValid.of_characters ?_ ?_ ?_
  · intro hempty
    have := congrArg String.utf8ByteSize hempty
    simp [String.utf8ByteSize_append] at this
  · rw [String.utf8ByteSize_append]
    omega
  · rw [String.toList_append, all_append, hchars, hchars']
    rfl

/-- The cooldown of an accepted rule is a positive duration. -/
theorem cooldown_pos {seconds : Int64} (hpos : 0 < seconds) (hmax : seconds ≤ maxCooldownSeconds) :
    0 < seconds * second := by
  have hsecond : second.toInt = 1000000000 := by decide
  have hlast : maxCooldownSeconds.toInt = 9223372036 := by decide
  rw [Int64.lt_iff_toInt_lt] at hpos ⊢
  rw [Int64.le_iff_toInt_le, hlast] at hmax
  have hzero : (0 : Int64).toInt = 0 := rfl
  rw [hzero] at hpos ⊢
  rw [Int64.toInt_mul, hsecond, Int.bmod_eq_of_le (by omega) (by omega)]
  omega

theorem ErrorRule.outcome_spec {rule : ErrorRule} {base : Decision} {ruleID : String}
    (hbase : base.scope.valid) (haccepted : rule.Accepted) (hrule : RuleIDValid ruleID) :
    (rule.outcome base ctx ruleID).1.valid ∧ (rule.outcome base ctx ruleID).2.1.valid ∧
      RuleIDValid (rule.outcome base ctx ruleID).2.2 ∧
      ((rule.outcome base ctx ruleID).2.1.cooldown = true → rule.effect.cooldown = true) := by
  have hoperation : RuleIDValid "safety.operation_no_model_cooldown" := .of_mem (by simp)
  have heffect := haccepted.effect
  unfold ErrorRule.outcome
  cases h : rule.effect with
  | cooldownModel =>
    dsimp only
    split
    · exact ⟨rfl, rfl, hrule, fun _ => rfl⟩
    · exact ⟨hbase, rfl, hoperation, fun hc => by cases hc⟩
  | unrecognized => simp [h, Effect.valid] at heffect
  | none => exact ⟨hbase, rfl, hrule, id⟩
  | _ => exact ⟨rfl, rfl, hrule, id⟩

theorem ErrorRule.constrainedRetry_spec {rule : ErrorRule} {ruleID : String}
    (haccepted : rule.Accepted) (hrule : RuleIDValid ruleID) :
    (rule.constrainedRetry lib attempt evidence ctx ruleID).1.valid ∧
      RuleIDValid (rule.constrainedRetry lib attempt evidence ctx ruleID).2 := by
  have hretry : rule.retry.valid := by rcases haccepted.retry with h | h <;> rw [h] <;> rfl
  have hunknown : RuleIDValid "safety.replay_unknown" := .of_mem (by simp)
  have hoperation : RuleIDValid "safety.operation_replay_unsafe" := .of_mem (by simp)
  unfold ErrorRule.constrainedRetry
  split
  · exact ⟨hretry, hrule⟩
  split
  · dsimp only
    exact ⟨rfl, hunknown⟩
  split
  · dsimp only
    exact ⟨rfl, hoperation⟩
  · exact ⟨hretry, hrule⟩

theorem ErrorRule.decide_wellFormed {rule : ErrorRule} {base : Decision} (hbase : base.WellFormed)
    (haccepted : rule.Accepted) (hrule : RuleIDValid ruleID) (hclock : ClockClear attempt.now) :
    (rule.decide lib base attempt evidence ctx ruleID).WellFormed := by
  obtain ⟨hscope, heffect, hrule', hcooldown⟩ :=
    @outcome_spec ctx rule base ruleID hbase.scope haccepted hrule
  obtain ⟨hretry, hrule''⟩ :=
    @constrainedRetry_spec lib attempt evidence ctx rule _ haccepted hrule'
  refine ⟨hbase.origin, hscope, hretry, heffect, hrule'', ?_⟩
  simp only [ErrorRule.decide]
  split
  case isTrue h =>
    obtain ⟨hpos, hmax⟩ := haccepted.cooldown (hcooldown h)
    exact iff_of_true h (hclock _ (cooldown_pos hpos hmax))
  case isFalse h => exact iff_of_false h (by simp)

theorem apply_wellFormed {rules : ErrorRules} (hbase : result.WellFormed)
    (hclock : ClockClear attempt.now) :
    (rules.apply lib result attempt evidence ctx).WellFormed := by
  unfold ErrorRules.apply
  split
  · exact hbase
  split
  case h_2 => exact hbase
  case h_1 rule index hfound =>
    have hmem := mem_of_find?_eq_some hfound
    have hindex : index < rules.entries.length := by
      simpa using (mem_zipIdx hmem).2.1
    have hentry : rule ∈ rules.entries := fst_mem_of_mem_zipIdx hmem
    have hsource := rules.named (ne_nil_of_mem hentry)
    exact ErrorRule.decide_wellFormed hbase (rules.accepted rule hentry)
      (customRuleID_valid hsource (hindex.trans_le rules.bounded)) hclock

/-! ## The constraints -/

theorem constrainOperationReplay_wellFormed (h : result.WellFormed) :
    (constrainOperationReplay result attempt evidence ctx).WellFormed := by
  unfold constrainOperationReplay
  split
  · exact h
  split
  · exact h
  · exact h.relabel rfl (.of_mem (by simp))

theorem constrainCommittedDecision_wellFormed (h : result.WellFormed) :
    (constrainCommittedDecision result attempt evidence).WellFormed := by
  have hcredential : RuleIDValid "rate_limit.credential.committed" := .of_mem (by simp)
  have hsafety : RuleIDValid "safety.committed" := .of_mem (by simp)
  unfold constrainCommittedDecision
  split
  · exact h
  dsimp only
  refine ⟨h.origin, h.scope, rfl, ?_, ?_, ?_⟩
  · cases committedEffectStands result evidence
    · rfl
    · exact h.effect
  · have hrule := h.ruleID
    dsimp only
    repeat' split
    all_goals assumption
  cases committedEffectStands result evidence
  · simp [Effect.cooldown]
  · exact h.deadline

theorem ruledDecision_wellFormed (hevidence : EvidenceClear evidence)
    (hclock : ClockClear attempt.now) (hdefault : 0 < ctx.defaultRateLimitCooldown) :
    (ruledDecision lib attempt evidence ctx).WellFormed :=
  apply_wellFormed (decisionForExecutionCategory_wellFormed hevidence hclock hdefault) hclock

/-! ## The branches of the judgement -/

theorem normalizeDecisionContext_pos (ctx : DecisionContext) :
    0 < (normalizeDecisionContext ctx).defaultRateLimitCooldown := by
  have hminute : 0 < minute := by decide
  unfold normalizeDecisionContext
  split
  · exact hminute
  · rename_i h
    exact Int64.not_le.mp h

theorem candidatePreparationDecision_wellFormed (hevidence : EvidenceClear evidence)
    (h : candidatePreparationDecision evidence = some d) : d.WellFormed := by
  have hcodes : ∀ code ∈ ["credential_decrypt_failed", "credential_normalization_failed",
      "credential_proxy_prepare_failed", "group_proxy_prepare_failed"],
      RuleIDValid ("candidate." ++ code) := by decide +kernel
  unfold candidatePreparationDecision at h
  dsimp only at h
  repeat' split at h
  all_goals cases h
  · rename_i hcode _
    rw [contains_iff_mem] at hcode
    exact decision_wellFormed rfl hevidence.scope rfl rfl rfl
      (hcodes _ (mem_append_left ["group_proxy_prepare_failed"] hcode))
  · rename_i hcode _
    exact decision_wellFormed rfl hevidence.scope rfl rfl rfl (hcodes _ (by simp [hcode]))

theorem refreshTemporarilyUnavailableDecision_wellFormed (hclock : ClockClear attempt.now)
    (hdefault : 0 < ctx.defaultRateLimitCooldown) :
    (refreshTemporarilyUnavailableDecision attempt evidence ctx).WellFormed := by
  have hcooldown : attempt.now.add
      (if 0 < evidence.retryAfter then evidence.retryAfter
        else if ctx.defaultRateLimitCooldown ≤ 0 then minute else ctx.defaultRateLimitCooldown)
      ≠ 0 := by
    apply hclock
    split
    · assumption
    split
    · decide
    · exact hdefault
  have hlimited : RuleIDValid "auth.refresh_rate_limited" := .of_mem (by simp)
  have hunavailable : RuleIDValid "auth.refresh_temporarily_unavailable" := .of_mem (by simp)
  unfold refreshTemporarilyUnavailableDecision
  by_cases hstatus : evidence.statusCode = 429
  · rw [if_pos hstatus]
    refine ⟨rfl, rfl, rfl, rfl, ?_, iff_of_true rfl hcooldown⟩
    dsimp only [decision]
    exact hlimited
  rw [if_neg hstatus]
  refine ⟨rfl, rfl, rfl, rfl, ?_, iff_of_true rfl hcooldown⟩
  dsimp only [decision]
  exact hunavailable

section

variable (hevidence : EvidenceClear evidence) (hclock : ClockClear attempt.now)
  (hdefault : 0 < ctx.defaultRateLimitCooldown)
include hevidence hclock hdefault

theorem judgeNotSent_wellFormed : (judgeNotSent lib attempt evidence ctx).WellFormed := by
  have horigin := originForEvidence_valid hevidence.origin
  have hnotSent : (decision .ambiguous (originForEvidence evidence) evidence.scopeHint .none .none
      "fallback.not_sent").WellFormed :=
    decision_wellFormed horigin hevidence.scope rfl rfl rfl (.of_mem (by simp))
  unfold judgeNotSent
  split
  case h_1 d hd => exact candidatePreparationDecision_wellFormed hevidence hd
  case h_2 =>
    dsimp only
    split
    · exact authenticationDecision_wellFormed
    split
    · exact refreshTemporarilyUnavailableDecision_wellFormed hclock hdefault
    split
    · exact decision_wellFormed rfl rfl rfl rfl rfl (.of_mem (by simp))
    cases evidence.kind with
    | http =>
      dsimp only
      split
      · exact constrainCommittedDecision_wellFormed
          (ruledDecision_wellFormed ⟨hevidence.origin, hevidence.scope⟩ hclock hdefault)
      · exact hnotSent
    | transport | timeout | conversionUnsupported =>
      exact decision_wellFormed rfl rfl rfl rfl rfl (.of_mem (by simp))
    | invalidRequest =>
      exact decision_wellFormed horigin (scopeOrDefault_valid hevidence.scope rfl) rfl rfl rfl
        (.of_mem (by simp))
    | _ => exact hnotSent

theorem judgeMaybeSent_wellFormed : (judgeMaybeSent lib attempt evidence ctx).WellFormed := by
  have hruled := @ruledDecision_wellFormed lib attempt evidence ctx hevidence hclock hdefault
  unfold judgeMaybeSent
  split
  · exact decision_wellFormed rfl hevidence.scope rfl rfl rfl (.of_mem (by simp))
  split
  · exact decision_wellFormed rfl rfl rfl rfl rfl (.of_mem (by simp))
  apply constrainCommittedDecision_wellFormed
  apply constrainOperationReplay_wellFormed
  split
  · exact hruled.relabel hruled.retry (.of_mem (by simp))
  · exact hruled

theorem judgeEvidence_wellFormed : (judgeEvidence lib attempt evidence ctx).WellFormed := by
  unfold judgeEvidence
  split
  · exact decision_wellFormed rfl rfl rfl rfl rfl (.of_mem (by simp))
  split
  · exact constrainCommittedDecision_wellFormed
      (decision_wellFormed rfl rfl rfl rfl rfl (.of_mem (by simp)))
  cases attempt.dispatchState with
  | notSent => exact judgeNotSent_wellFormed hevidence hclock hdefault
  | maybeSent => exact judgeMaybeSent_wellFormed hevidence hclock hdefault
  | _ =>
    exact decision_wellFormed (originForEvidence_valid hevidence.origin) hevidence.scope rfl rfl rfl
      (.of_mem (by simp))

end

theorem canceledModelCooldown_wellFormed
    (hevidence : ∀ evidence, attempt.evidence = some evidence → EvidenceClear evidence)
    (hclock : ClockClear attempt.now) (hdefault : 0 < ctx.defaultRateLimitCooldown)
    (h : canceledModelCooldown lib attempt ctx = some d) : d.WellFormed := by
  obtain ⟨evidence, hsome, -, -, -, rfl⟩ := canceledModelCooldown_some h
  have hbase := @decisionForExecutionCategory_wellFormed lib attempt evidence ctx .rateLimited
    (hevidence evidence hsome) hclock hdefault
  exact hbase.relabel rfl hbase.ruleID

theorem judgeExecution_wellFormed
    (hevidence : ∀ evidence, attempt.evidence = some evidence → EvidenceClear evidence)
    (hclock : ClockClear attempt.now) : (judgeExecution lib attempt ctx).WellFormed := by
  have hdefault := normalizeDecisionContext_pos ctx
  unfold judgeExecution
  split
  case h_1 err _ =>
    dsimp only
    cases hcooldown : canceledModelCooldown lib attempt (normalizeDecisionContext ctx) with
    | some d => exact canceledModelCooldown_wellFormed hevidence hclock hdefault hcooldown
    | none =>
      dsimp only [Option.getD_none]
      split <;> exact decision_wellFormed rfl rfl rfl rfl rfl (.of_mem (by simp))
  case h_2 =>
    split
    case h_2 evidence hsome =>
      exact judgeEvidence_wellFormed (hevidence evidence hsome) hclock hdefault
    case h_1 =>
      split
      · exact decision_wellFormed rfl rfl rfl rfl rfl (.of_mem (by simp))
      split
      · exact decision_wellFormed rfl rfl rfl rfl rfl (.of_mem (by simp))
      · refine decision_wellFormed ?_ rfl rfl rfl rfl (.of_mem (by simp))
        cases attempt.dispatchState <;> rfl

/-! ## Committed responses -/

/-- What may still be decided once the client has received a part of the response. -/
structure CommittedFinal (attempt : ExecutionAttempt) (d : Decision) : Prop where
  retry : d.retry = .none
  group : d.effect ≠ .skipGroup
  model : d.effect = .cooldownModel → ∃ evidence, attempt.evidence = some evidence ∧
    evidence.hint = .rateLimited ∧ evidence.originHint ≠ .internal ∧
      evidence.originHint ≠ .downstream
  credential : d.effect = .cooldownCredential ∨ d.effect = .recordCredentialFailure →
    ∃ evidence, attempt.evidence = some evidence ∧
      (evidence.scopeHint = .credential ∨ evidence.hint = .invalidCredential)

theorem CommittedFinal.of_inert (hretry : d.retry = .none) (heffect : d.effect = .none) :
    CommittedFinal attempt d := by
  constructor <;> simp [hretry, heffect]

section

variable (hevidence : attempt.evidence = some evidence)
  (hcommitted : attempt.downstreamCommitted = true)
include hevidence hcommitted

theorem constrainCommittedDecision_final :
    CommittedFinal attempt (constrainCommittedDecision result attempt evidence) := by
  cases hstands : committedEffectStands result evidence with
  | false =>
    apply CommittedFinal.of_inert <;>
      simp [constrainCommittedDecision, hcommitted, hstands]
  | true =>
    have hretry : (constrainCommittedDecision result attempt evidence).retry = .none := by
      simp [constrainCommittedDecision, hcommitted]
    have heffect : (constrainCommittedDecision result attempt evidence).effect = result.effect := by
      simp [constrainCommittedDecision, hcommitted, hstands]
    refine ⟨hretry, ?_, fun h => ⟨evidence, hevidence, ?_⟩, fun h => ⟨evidence, hevidence, ?_⟩⟩
    · intro h
      simp [committedEffectStands, ← heffect, h] at hstands
    · simpa [committedEffectStands, ← heffect, h, and_assoc] using hstands
    have htrusted : trustedCommittedCredentialEffect result evidence = true := by
      rcases h with h | h <;> simpa [committedEffectStands, ← heffect, h] using hstands
    simp only [trustedCommittedCredentialEffect, Bool.and_eq_true, Bool.or_eq_true,
      decide_eq_true_eq] at htrusted
    exact htrusted.2.imp_right And.right

theorem judgeMaybeSent_final :
    CommittedFinal attempt (judgeMaybeSent lib attempt evidence ctx) := by
  unfold judgeMaybeSent
  split
  · exact .of_inert rfl rfl
  split
  · exact .of_inert rfl rfl
  · exact constrainCommittedDecision_final hevidence hcommitted

theorem judgeEvidence_final (hsent : attempt.dispatchState ≠ .notSent) :
    CommittedFinal attempt (judgeEvidence lib attempt evidence ctx) := by
  unfold judgeEvidence
  split
  · exact .of_inert rfl rfl
  split
  · exact constrainCommittedDecision_final hevidence hcommitted
  cases hstate : attempt.dispatchState with
  | notSent => exact absurd hstate hsent
  | maybeSent => exact judgeMaybeSent_final hevidence hcommitted
  | _ => exact .of_inert rfl rfl

end

theorem canceledModelCooldown_final (h : canceledModelCooldown lib attempt ctx = some d) :
    CommittedFinal attempt d := by
  obtain ⟨evidence, hsome, hhint, horigin, heffect, hd⟩ := canceledModelCooldown_some h
  refine ⟨by rw [hd], by simp [heffect], fun _ => ⟨evidence, hsome, hhint, ?_⟩, by simp [heffect]⟩
  rcases horigin with h | h <;> simp [h]

theorem judgeExecution_final (hcommitted : attempt.downstreamCommitted = true)
    (hsent : attempt.dispatchState ≠ .notSent) :
    CommittedFinal attempt (judgeExecution lib attempt ctx) := by
  unfold judgeExecution
  split
  case h_1 err _ =>
    dsimp only
    cases hcooldown : canceledModelCooldown lib attempt (normalizeDecisionContext ctx) with
    | some d => exact canceledModelCooldown_final hcooldown
    | none =>
      dsimp only [Option.getD_none]
      split <;> exact .of_inert rfl rfl
  case h_2 =>
    split
    case h_2 evidence hsome => exact judgeEvidence_final hsome hcommitted hsent
    case h_1 =>
      split
      · exact .of_inert rfl rfl
      split <;> exact .of_inert rfl rfl

/-- Decisions about attempts with valid evidence are well formed, and final once the response is
committed. The rules of the context are compiled ones, as `ErrorRules` requires. -/
theorem decision_contract (lib : Library) (attempt : ExecutionAttempt) (ctx : DecisionContext)
    (hevidence : ∀ evidence, attempt.evidence = some evidence → evidence.validate = .ok ())
    (hclock : ClockClear attempt.now) :
    (judgeExecution lib attempt ctx).validate = .ok () ∧
      ((judgeExecution lib attempt ctx).effect.cooldown = true ↔
        (judgeExecution lib attempt ctx).cooldownUntil.isZero = false) ∧
      (attempt.downstreamCommitted = true → attempt.dispatchState ≠ .notSent →
        CommittedFinal attempt (judgeExecution lib attempt ctx)) := by
  have hclear : ∀ evidence, attempt.evidence = some evidence → EvidenceClear evidence :=
    fun evidence h => ⟨evidence.originHint_valid (hevidence evidence h),
      evidence.scopeHint_valid (hevidence evidence h)⟩
  have hformed := @judgeExecution_wellFormed lib attempt ctx hclear hclock
  refine ⟨(Decision.validate_ok_iff _).mpr hformed, ?_, judgeExecution_final⟩
  rw [hformed.deadline]
  simp [Time.isZero]

def committedRateLimit (kind : ErrorKind) : ExecutionAttempt where
  dispatchState := .maybeSent
  statusCode := 200
  evidence := some { kind, hint := .rateLimited, statusCode := 429, summary := "limited" }
  downstreamCommitted := true
  now := 0

theorem committedRateLimit_valid {kind : ErrorKind} (h : kind.valid = true) :
    ∀ evidence, (committedRateLimit kind).evidence = some evidence →
      evidence.validate = .ok () := by
  rintro evidence ⟨⟩
  cases kind with
  | unrecognized => cases h
  | _ => decide +kernel

theorem clockClear_zero : ClockClear 0 := by
  intro delay hdelay
  have h : 0 < delay.toInt := Int64.lt_iff_toInt_lt.mp hdelay
  have hadd : Time.add 0 delay = delay.toInt := Int.zero_add _
  exact hadd ▸ Int.ne_of_gt h

theorem decision_contract_committedRateLimit :
    (judgeExecution plainLibrary (committedRateLimit .http)
    { operation := .chatCompletion }).effect =
        .cooldownModel ∧
      CommittedFinal (committedRateLimit .http)
        (judgeExecution plainLibrary (committedRateLimit .http) { operation := .chatCompletion }) :=
  ⟨by decide +kernel,
    (decision_contract plainLibrary (committedRateLimit .http) { operation := .chatCompletion }
      (committedRateLimit_valid rfl) clockClear_zero).2.2 rfl (by decide)⟩

/-- The origin that the kind of the evidence implies is not asked for, only an explicit hint: a
rate limit of the gateway itself, without a hint, cools the model down. -/
theorem committed_internal_rate_limit_cools_model :
    let attempt := committedRateLimit .internal
    (∀ evidence, attempt.evidence = some evidence → evidence.validate = .ok ()) ∧
      ClockClear attempt.now ∧ attempt.downstreamCommitted = true ∧
      attempt.dispatchState ≠ .notSent ∧
      (∀ evidence, attempt.evidence = some evidence → originForEvidence evidence = .internal) ∧
      (judgeExecution plainLibrary attempt { operation := .chatCompletion }).effect =
        .cooldownModel := by
  refine ⟨committedRateLimit_valid rfl, clockClear_zero, rfl, by decide, ?_, by decide +kernel⟩
  rintro evidence ⟨⟩
  rfl

end ApiLoad.Health
