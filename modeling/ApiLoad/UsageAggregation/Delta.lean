import ApiLoad.Execution.Evidence
import ApiLoad.Foundation.Fallible
import ApiLoad.Pricing.Quote

/-!
# The usage of a request

A row of the request log and what it adds to the hourly usage statistics
(`internal/requestlog/worker.go`, `usage_cost.go`, `mapper.go`). The counters are `int64`; they are
only ever added with a check, so that a sum past the largest value is an error.
-/
namespace ApiLoad.UsageAggregation
open Std Foundation Text Channel Execution Pricing

/-! ## Rows of the request log -/

inductive RequestStatus where
  | success | error | incomplete | canceled
  | unrecognized (text : String)
deriving DecidableEq, Repr

inductive FailureCategory where
  | ok | rateLimited | modelUnavailable | invalidKey | upstreamHost | clientError
  | conversionUnsupported | downstreamCancel | authenticationRequired | ambiguous
  | unrecognized (text : String)
deriving DecidableEq, Repr

structure RequestLogAttempt where
  requestID : String
  completedAtMS : Int
  credentialID : Nat
  dispatchState : DispatchState
  failureCategory : FailureCategory
deriving DecidableEq, Repr

structure RequestLog where
  id : String
  completedAtMS : Int
  accessKeyID : Nat
  groupID : Nat
  channelID : String
  credentialID : Nat
  operation : Operation
  upstreamModel : String
  status : RequestStatus
  attemptCount : Int
  billingUnit : BillingUnit
  usageState : UsageState
  costState : CostState
  pricingCompleteness : Completeness
  uncachedInputTokens : Int := 0
  outputTokens : Int := 0
  cacheReadTokens : Int := 0
  cacheWrite5MTokens : Int := 0
  cacheWrite1HTokens : Int := 0
  cacheWriteUnknownTokens : Int := 0
  estimatedCostNanoUSD : Int := 0
  attemptRows : List RequestLogAttempt := []
deriving DecidableEq, Repr

/-! ## Keys and counters of the usage statistics -/

def millisecondsPerHour : Int := 3600000

def alignDown (value width : Int) : Except String Int :=
  if value < 0 then .error "epoch milliseconds must be non-negative"
  else if width ≤ 0 then .error "epoch millisecond width must be positive"
  else .ok (value - value % width)

@[ext] structure UsageStatKey where
  bucketStartMS : Int
  accessKeyID : Nat
  channelID : String
  groupID : Nat
  credentialID : Nat
  model : String
deriving DecidableEq, Repr

/-- The order of `sortedUsageStatKeys`. -/
def UsageStatKey.cmp : UsageStatKey → UsageStatKey → Ordering :=
  compareLex (compareOn UsageStatKey.bucketStartMS) <|
  compareLex (compareOn UsageStatKey.accessKeyID) <|
  compareLex (compareOn UsageStatKey.channelID) <|
  compareLex (compareOn UsageStatKey.groupID) <|
  compareLex (compareOn UsageStatKey.credentialID) (compareOn UsageStatKey.model)

instance : Ord UsageStatKey := ⟨UsageStatKey.cmp⟩
instance : TransOrd UsageStatKey :=
  inferInstanceAs (TransCmp (compareLex _ (compareLex _ (compareLex _ (compareLex _
    (compareLex _ _))))))
instance : LawfulEqOrd UsageStatKey where
  eq_of_compare {a b} (h : UsageStatKey.cmp a b = .eq) := by
    simp only [UsageStatKey.cmp, compareLex, compareOn, Ordering.then_eq_eq,
      LawfulEqOrd.compare_eq_iff_eq] at h
    obtain ⟨h₁, h₂, h₃, h₄, h₅, h₆⟩ := h
    exact UsageStatKey.ext h₁ h₂ h₃ h₄ h₅ h₆
  compare_self {a} := by
    change UsageStatKey.cmp a a = .eq
    simp only [UsageStatKey.cmp, compareLex, compareOn, ReflOrd.compare_self, Ordering.eq_then]

/-- The counters of `usageStatDelta`, in the order in which they are added up. -/
inductive UsageField where
  | requestCount | successCount | failureCount | uncachedInputTokens | outputTokens
  | cacheReadTokens | cacheWrite5MTokens | cacheWrite1HTokens | cacheWriteUnknownTokens
  | usageMissingCount | partialCount | unpricedRequestCount | pricingPartialCount
  | estimatedCostNanoUSD
deriving DecidableEq, Repr

def UsageField.column : UsageField → String
  | .requestCount => "request_count"
  | .successCount => "success_count"
  | .failureCount => "failure_count"
  | .uncachedInputTokens => "uncached_input_tokens"
  | .outputTokens => "output_tokens"
  | .cacheReadTokens => "cache_read_tokens"
  | .cacheWrite5MTokens => "cache_write_5m_tokens"
  | .cacheWrite1HTokens => "cache_write_1h_tokens"
  | .cacheWriteUnknownTokens => "cache_write_unknown_tokens"
  | .usageMissingCount => "usage_missing_count"
  | .partialCount => "partial_count"
  | .unpricedRequestCount => "unpriced_request_count"
  | .pricingPartialCount => "pricing_partial_count"
  | .estimatedCostNanoUSD => "estimated_cost_nano_usd"

def usageFields : List UsageField :=
  [.requestCount, .successCount, .failureCount, .uncachedInputTokens, .outputTokens,
   .cacheReadTokens, .cacheWrite5MTokens, .cacheWrite1HTokens, .cacheWriteUnknownTokens,
   .usageMissingCount, .partialCount, .unpricedRequestCount, .pricingPartialCount,
   .estimatedCostNanoUSD]

/-- The counters of one statistic, of one journal or of a sum of them. -/
abbrev UsageCounters := UsageField → Int

/-- All counters are added with a check; the first field that fails is reported. -/
def checkedSum (failure : UsageField → String) (left right : UsageCounters) :
    Except String UsageCounters :=
  match usageFields.find? fun field => (checkedAdd (left field) (right field)).isNone with
  | some field => .error (failure field)
  | none => .ok (left + right)

theorem checkedSum_ok {failure : UsageField → String} {left right total : UsageCounters}
    (h : checkedSum failure left right = .ok total) : total = left + right := by
  unfold checkedSum at h
  split at h <;> cases h
  rfl

def checkedInt64Add (target value : Int) (field : String) : Except String Int :=
  match checkedAdd target value with
  | none => .error s!"aggregate usage stat {field}: checked addition failed"
  | some total => .ok total

/-- `checkedInt64Add` on a counter in place. -/
def UsageField.add (field : UsageField) (value : Int) (delta : UsageCounters) :
    Except String UsageCounters :=
  (checkedInt64Add (delta field) value field.column).map (Function.update delta field)

/-! ## What one row adds -/

def validateFrozenPricingState (usageState : UsageState) (costState : CostState)
    (completeness : Completeness) (estimatedCostNanoUSD : Int) : Except String Unit :=
  if estimatedCostNanoUSD < 0 then .error "invalid estimated cost"
  else match usageState with
    | .notApplicable =>
      if costState ≠ .notApplicable || completeness ≠ .notApplicable ||
          estimatedCostNanoUSD ≠ 0 then .error "invalid not-applicable pricing observation"
      else .ok ()
    | .missing =>
      if costState ≠ .unpriced || completeness ≠ .unavailable || estimatedCostNanoUSD ≠ 0 then
        .error "invalid missing-usage pricing observation"
      else .ok ()
    | .complete | .partly =>
      match costState with
      | .unpriced =>
        if completeness ≠ .unavailable || estimatedCostNanoUSD ≠ 0 then
          .error "invalid unpriced pricing observation"
        else .ok ()
      | .priced =>
        if completeness ≠ .complete && completeness ≠ .partly then
          .error "invalid priced completeness"
        else .ok ()
      | _ => .error "invalid billable cost state"
    | .other _ => .error "invalid usage state"

def validateBillingUsageCostState (unit : BillingUnit) (status : RequestStatus)
    (usageState : UsageState) (costState : CostState) (completeness : Completeness) (cost : Int) :
    Except String Unit :=
  if unit = .unset || unit = .token then
    validateFrozenPricingState usageState costState completeness cost
  else if unit ≠ .request || cost < 0 then .error "invalid billing unit or request cost"
  else match usageState, costState with
    | .other _, _ => .error "invalid request usage state"
    | _, .priced =>
      if status ≠ .success || completeness ≠ .complete then
        .error "fixed charge requires a successful request and complete pricing"
      else .ok ()
    | _, .unpriced =>
      if completeness ≠ .unavailable || cost ≠ 0 then .error "invalid unpriced request cost"
      else .ok ()
    | _, .notApplicable =>
      if completeness ≠ .notApplicable || cost ≠ 0 then .error "invalid nonbillable request cost"
      else .ok ()
    | _, .other _ => .error "invalid request cost state"

def RequestLog.tokens (row : RequestLog) : Tokens where
  uncachedInput := row.uncachedInputTokens
  output := row.outputTokens
  cacheRead := row.cacheReadTokens
  cacheWrite5M := row.cacheWrite5MTokens
  cacheWrite1H := row.cacheWrite1HTokens
  cacheWriteUnknown := row.cacheWriteUnknownTokens

def validatePersistedPricingState (row : RequestLog) : Except String Unit :=
  if [row.uncachedInputTokens, row.outputTokens, row.cacheReadTokens, row.cacheWrite5MTokens,
      row.cacheWrite1HTokens, row.cacheWriteUnknownTokens].any (· < 0) then
    .error "negative token value"
  else if (checkedTotal row.tokens).isNone then .error "token total overflows int64"
  else validateBillingUsageCostState row.billingUnit row.status row.usageState row.costState
    row.pricingCompleteness row.estimatedCostNanoUSD

/-- The tokens that a row with complete or partial usage reports. -/
def RequestLog.counts (row : RequestLog) : List (UsageField × Int) :=
  [(.uncachedInputTokens, row.uncachedInputTokens), (.outputTokens, row.outputTokens),
   (.cacheReadTokens, row.cacheReadTokens), (.cacheWrite5MTokens, row.cacheWrite5MTokens),
   (.cacheWrite1HTokens, row.cacheWrite1HTokens),
   (.cacheWriteUnknownTokens, row.cacheWriteUnknownTokens)]

def addRow (delta : UsageCounters) (row : RequestLog) : Except String UsageCounters := do
  let subject := s!"aggregate request log {quoted row.id}"
  let delta ← UsageField.requestCount.add 1 delta
  let delta ← match row.status with
    | .success => UsageField.successCount.add 1 delta
    | .error | .incomplete | .canceled => UsageField.failureCount.add 1 delta
    | .unrecognized text => throw s!"{subject}: invalid status {quoted text}"
  let delta ← match row.usageState with
    | .missing => UsageField.usageMissingCount.add 1 delta
    | .partly => UsageField.partialCount.add 1 delta
    | .complete | .notApplicable => pure delta
    | .other text => throw s!"{subject}: invalid usage state {quoted text}"
  let delta ←
    if (row.usageState = .complete || row.usageState = .partly || row.billingUnit = .request) &&
        row.costState = .unpriced then UsageField.unpricedRequestCount.add 1 delta
    else pure delta
  let delta ← if row.costState = .priced && row.pricingCompleteness = .partly then
      UsageField.pricingPartialCount.add 1 delta
    else pure delta
  (validatePersistedPricingState row).mapError fun e => s!"{subject}: {e}"
  let delta ← if row.usageState = .complete || row.usageState = .partly then
      row.counts.foldlM (fun delta token => token.1.add token.2 delta) delta
    else pure delta
  if row.costState ≠ .priced then return delta
  match checkedAddNanoUSD (delta .estimatedCostNanoUSD) row.estimatedCostNanoUSD with
  | none => throw "aggregate usage stat estimated_cost_nano_usd: checked addition failed"
  | some cost => return Function.update delta .estimatedCostNanoUSD cost

def usageStatKey (row : RequestLog) : Except String UsageStatKey := do
  let bucketStartMS ← (alignDown row.completedAtMS millisecondsPerHour).mapError
    fun e => s!"aggregate request log {quoted row.id} completion time: {e}"
  return { bucketStartMS, accessKeyID := row.accessKeyID, channelID := row.channelID,
           groupID := row.groupID, credentialID := row.credentialID, model := row.upstreamModel }

/-- The deltas of several rows by key. A key that is not listed yet starts from zero. -/
def buildUsageStatDeltas (rows : List RequestLog) :
    Except String (ExtTreeMap UsageStatKey UsageCounters) :=
  rows.foldlM (fun deltas row => do
    let key ← usageStatKey row
    let delta ← addRow (deltas[key]?.getD 0) row
    return deltas.insert key delta) ∅

/-- Requests that were not forwarded and separate searches are logged but not aggregated. -/
def RequestLog.aggregatable (row : RequestLog) : Bool :=
  !(row.attemptCount = 0 || row.operation = .webSearch)

/-! ## Journals -/

structure UsageAggregationJournal where
  requestID : String
  key : UsageStatKey
  counters : UsageCounters
  applied : Bool := false

def buildUsageAggregationJournal (row : RequestLog) :
    Except String (List UsageAggregationJournal) := do
  let deltas ← buildUsageStatDeltas [row]
  if deltas.size ≠ 1 then throw s!"build usage journal {quoted row.id}: unexpected delta count"
  return deltas.toList.map fun delta =>
    { requestID := row.id, key := delta.1, counters := delta.2 }

def buildUsageAggregationJournals (rows : List RequestLog) :
    Except String (List UsageAggregationJournal) :=
  rows.foldlM (fun journals row =>
    if row.aggregatable then do return journals ++ (← buildUsageAggregationJournal row)
    else return journals) []

/-- The text of a failed addition in `buildUsageJournalDeltas`. -/
def journalSumFailure : UsageField → String
  | .estimatedCostNanoUSD =>
    "aggregate usage journal estimated_cost_nano_usd: checked addition failed"
  | field => s!"aggregate usage stat {field.column}: checked addition failed"

def buildUsageJournalDeltas (journals : List UsageAggregationJournal) :
    Except String (ExtTreeMap UsageStatKey UsageCounters) :=
  journals.foldlM (fun deltas journal => do
    let delta ← checkedSum journalSumFailure (deltas[journal.key]?.getD 0) journal.counters
    return deltas.insert journal.key delta) ∅

end ApiLoad.UsageAggregation
