import ApiLoad.Foundation.JsonValue
import ApiLoad.Usage.Accumulator

/-!
# Usage of Anthropic answers

The usage of a whole answer and of a stream of events (`internal/dialect/anthropic_usage.go`,
`internal/dialect/anthropic_compaction_usage.go`, `internal/dialect/usage_json.go`). A document is
a JSON value whose numbers keep their text; the last member of a name counts. A text that is not one
JSON value is no document.
-/
namespace ApiLoad.Dialect
open Foundation Text Pricing Usage

abbrev Value := Json String String
abbrev Object := List (String × Value)

def decodeJSONObject : Option Value → Option Object
  | some (.obj members) => some members
  | _ => none

/-! ## Reading members -/

def presentMember (object : Object) (field : String) : Option Value :=
  match Json.member object field with
  | none | some .null => none
  | some value => some value

def usageInteger (object : Object) (field : String) (required : Bool) : Option Int × Diagnostics :=
  match presentMember object field with
  | none => (none, if required then .single .missingRequiredField else {})
  | some value =>
    match value with
    | .num text =>
      match parseInt text with
      | none => (none, .single .invalidNumber)
      | some value =>
        if value < 0 then (some 0, .single .negativeValue) else (some value, {})
    | _ => (none, .single .invalidNumber)

def usageOptionalObject (object : Object) (field : String) : Option Object × Diagnostics :=
  match presentMember object field with
  | none => (none, {})
  | some value =>
    match decodeJSONObject (some value) with
    | none => (none, .single .invalidNumber)
    | some nested => (some nested, {})

def usageFieldPresent (object : Object) (field : String) : Bool :=
  (presentMember object field).isSome

def usageIntegerUsable (diagnostics : Diagnostics) : Bool :=
  !diagnostics.has .invalidNumber && !diagnostics.has .negativeValue

mutual

def anthropicJSONValueNonZero : Value → Bool × Diagnostics
  | .null => (false, {})
  | .num text =>
    match parseInt text with
    | none => (false, .single .invalidNumber)
    | some number =>
      if number < 0 then (false, .single .negativeValue) else (decide (0 < number), {})
  | .obj members => anyMemberNonZero members
  | .arr items => anyItemNonZero items
  | _ => (false, .single .invalidNumber)

/-- The last member of a name is the one in the map. -/
def anyMemberNonZero : List (String × Value) → Bool × Diagnostics
  | [] => (false, {})
  | (name, value) :: rest =>
    let first := anthropicJSONValueNonZero value
    let others := anyMemberNonZero rest
    if rest.any (·.1 = name) then others else (first.1 || others.1, first.2.merge others.2)

def anyItemNonZero : List Value → Bool × Diagnostics
  | [] => (false, {})
  | value :: rest =>
    let first := anthropicJSONValueNonZero value
    let others := anyItemNonZero rest
    (first.1 || others.1, first.2.merge others.2)

end

def anthropicUnsupportedBillableDetailDiagnostics (object : Object) : Diagnostics :=
  match Json.member object "server_tool_use" with
  | none => {}
  | some value =>
    let (unsupported, diagnostics) := anthropicJSONValueNonZero value
    if unsupported then diagnostics.add .unsupportedBillableDetail else diagnostics

/-! ## Whole answers -/

def cacheWriteDetail (detail : Object) (aggregate : Option Int) (patch : Patch) : Patch :=
  let (write5M, diagnostics5M) := usageInteger detail "ephemeral_5m_input_tokens" false
  let (write1H, diagnostics1H) := usageInteger detail "ephemeral_1h_input_tokens" false
  let diagnostics := (patch.diagnostics.merge diagnostics5M).merge diagnostics1H
  { patch with
    cacheWrite5M := write5M.or patch.cacheWrite5M
    cacheWrite1H := write1H.or patch.cacheWrite1H
    diagnostics :=
      match aggregate with
      | none => diagnostics
      | some aggregate =>
        if !(usageIntegerUsable diagnostics5M && usageIntegerUsable diagnostics1H) then diagnostics
        else match checkedAdd (write5M.getD 0) (write1H.getD 0) with
          | none => diagnostics.add .invalidNumber
          | some detailTotal =>
            if aggregate ≠ detailTotal then diagnostics.setTotalDelta (aggregate - detailTotal)
            else diagnostics }

/-- The counts of cache writes; without `cache_creation` all of them are short-lived. -/
def cacheWrites (object : Object) (patch : Patch) : Patch :=
  let (aggregate, aggregateDiagnostics) := usageInteger object "cache_creation_input_tokens" false
  let (detail, detailDiagnostics) := usageOptionalObject object "cache_creation"
  let aggregate := if usageIntegerUsable aggregateDiagnostics then aggregate else none
  let patch := { patch with
    diagnostics := (patch.diagnostics.merge aggregateDiagnostics).merge detailDiagnostics }
  match detail with
  | some detail => cacheWriteDetail detail aggregate patch
  | none =>
    if !usageFieldPresent object "cache_creation" && aggregate.isSome then
      { patch with
        cacheWrite5M := aggregate
        cacheWrite1H := some 0
        diagnostics := patch.diagnostics.add .cacheWriteDefaulted5M }
    else patch

def anthropicUsagePatch (object : Object) (includeOutput final : Bool) : Patch × Bool :=
  let (input, diagnostics) := usageInteger object "input_tokens" true
  let validInput := input.isSome && usageIntegerUsable diagnostics
  let (cacheRead, cacheReadDiagnostics) := usageInteger object "cache_read_input_tokens" false
  let patch := cacheWrites object {
    uncachedInput := input
    cacheRead := cacheRead
    final := final
    diagnostics := diagnostics.merge cacheReadDiagnostics }
  let patch :=
    if includeOutput then
      let (output, outputDiagnostics) := usageInteger object "output_tokens" true
      { patch with output, diagnostics := patch.diagnostics.merge outputDiagnostics }
    else patch
  ({ patch with diagnostics :=
      patch.diagnostics.merge (anthropicUnsupportedBillableDetailDiagnostics object) },
    validInput)

def extractUsage (body : Option Value) : Except String Result :=
  match decodeJSONObject body with
  | none => .error "decode Anthropic usage response"
  | some root =>
    let (usageObject, diagnostics) := usageOptionalObject root "usage"
    let patch := match usageObject with
      | none => { diagnostics }
      | some object =>
        let patch := (anthropicUsagePatch object true true).1
        { patch with diagnostics := patch.diagnostics.merge diagnostics }
    match ({} : Accumulator).mergePatch patch with
    | (_, .error _) => .error "normalize Anthropic usage response"
    | (accumulator, .ok ()) => .ok (accumulator.finalize true).2.1

/-! ## Streams -/

inductive AnthropicUsageField where
  | uncachedInput | cacheRead | cacheWrite5M | cacheWrite1H | output
deriving DecidableEq, Repr

structure AnthropicCumulativeUsage where
  tokens : Tokens := noTokens
  present : Finset AnthropicUsageField := ∅
  detailPresent : Finset AnthropicUsageField := ∅
  detailReported : Bool := false
  detailObjectSeen : Bool := false
  aggregate : Int := 0
  aggregatePresent : Bool := false

structure UsageStreamExtractor where
  accumulator : Accumulator := {}
  validStart : Bool := false
  stopped : Bool := false
  cacheWriteFallback : Bool := false
  trusted : AnthropicCumulativeUsage := {}
  compaction : Tokens := noTokens

/-- A count that can be used. -/
def usable (read : Option Int × Diagnostics) : Option Int :=
  if usageIntegerUsable read.2 then read.1 else none

/-- The fields of which a report has a count. -/
def reportedFields (fields : List (AnthropicUsageField × Option Int)) :
    Finset AnthropicUsageField :=
  ((fields.filter (·.2.isSome)).map (·.1)).toFinset

def anthropicCumulativeUsageFromObject (object : Object) (requireInput requireOutput : Bool) :
    AnthropicCumulativeUsage × Diagnostics × Bool :=
  let input := usageInteger object "input_tokens" requireInput
  let cacheRead := usageInteger object "cache_read_input_tokens" false
  let aggregate := usageInteger object "cache_creation_input_tokens" false
  let detail := usageOptionalObject object "cache_creation"
  let write5M := detail.1.elim (none, {}) (usageInteger · "ephemeral_5m_input_tokens" false)
  let write1H := detail.1.elim (none, {}) (usageInteger · "ephemeral_1h_input_tokens" false)
  let output := usageInteger object "output_tokens" requireOutput
  let cumulative := {
    tokens := {
      uncachedInput := (usable input).getD 0
      cacheRead := (usable cacheRead).getD 0
      cacheWrite5M := (usable write5M).getD 0
      cacheWrite1H := (usable write1H).getD 0
      cacheWriteUnknown := 0
      output := (usable output).getD 0 }
    present := reportedFields [(.uncachedInput, usable input), (.cacheRead, usable cacheRead),
      (.cacheWrite5M, usable write5M), (.cacheWrite1H, usable write1H), (.output, usable output)]
    detailPresent :=
      reportedFields [(.cacheWrite5M, usable write5M), (.cacheWrite1H, usable write1H)]
    detailReported := usageFieldPresent object "cache_creation"
    detailObjectSeen := detail.1.isSome
    aggregate := (usable aggregate).getD 0
    aggregatePresent := (usable aggregate).isSome }
  (cumulative,
    (((((input.2.merge cacheRead.2).merge aggregate.2).merge detail.2).merge write5M.2).merge
      write1H.2).merge output.2 |>.merge (anthropicUnsupportedBillableDetailDiagnostics object),
    (usable input).isSome)

structure FieldMerge where
  present : Finset AnthropicUsageField
  value : Int
  patch : Option Int
  diagnostics : Diagnostics

def mergeAnthropicCumulativeField (field : AnthropicUsageField)
    (nextPresent : Finset AnthropicUsageField) (nextValue : Int) (state : FieldMerge) :
    FieldMerge :=
  if field ∉ nextPresent then state
  else if field = .output ∧ field ∈ state.present ∧ nextValue < state.value then
    { state with diagnostics := state.diagnostics.add .invalidEventSequence }
  else
    { state with
      value := nextValue
      present := insert field state.present
      patch := some nextValue }

def anthropicTrustedDetailValue (trusted : AnthropicCumulativeUsage) (field : AnthropicUsageField) :
    Int :=
  if field ∉ trusted.detailPresent then 0
  else match field with
    | .cacheWrite5M => trusted.tokens.cacheWrite5M
    | .cacheWrite1H => trusted.tokens.cacheWrite1H
    | _ => 0

structure Merging where
  trusted : AnthropicCumulativeUsage
  cacheWriteFallback : Bool
  patch : Patch := {}
  diagnostics : Diagnostics

def mergeInputs (next : AnthropicCumulativeUsage) (m : Merging) : Merging :=
  let input := mergeAnthropicCumulativeField .uncachedInput next.present next.tokens.uncachedInput
    ⟨m.trusted.present, m.trusted.tokens.uncachedInput, m.patch.uncachedInput, m.diagnostics⟩
  let cacheRead := mergeAnthropicCumulativeField .cacheRead next.present next.tokens.cacheRead
    ⟨input.present, m.trusted.tokens.cacheRead, m.patch.cacheRead, input.diagnostics⟩
  { m with
    trusted := { m.trusted with
      present := cacheRead.present
      tokens := { m.trusted.tokens with
        uncachedInput := input.value
        cacheRead := cacheRead.value } }
    patch := { m.patch with uncachedInput := input.patch, cacheRead := cacheRead.patch }
    diagnostics := cacheRead.diagnostics }

/-- A reported `cache_creation` takes back what was assumed without it. -/
def revokeFallback (next : AnthropicCumulativeUsage) (m : Merging) : Merging :=
  if m.cacheWriteFallback && next.detailObjectSeen then
    { m with
      trusted := { m.trusted with
        tokens := { m.trusted.tokens with cacheWrite5M := 0 }
        present := m.trusted.present.erase .cacheWrite5M }
      cacheWriteFallback := false
      patch := { m.patch with cacheWrite5M := some 0 } }
  else m

def mergeDetails (next : AnthropicCumulativeUsage) (m : Merging) : Merging :=
  let write5M := mergeAnthropicCumulativeField .cacheWrite5M next.present next.tokens.cacheWrite5M
    ⟨m.trusted.present, m.trusted.tokens.cacheWrite5M, m.patch.cacheWrite5M, m.diagnostics⟩
  let write1H := mergeAnthropicCumulativeField .cacheWrite1H next.present next.tokens.cacheWrite1H
    ⟨write5M.present, m.trusted.tokens.cacheWrite1H, m.patch.cacheWrite1H, write5M.diagnostics⟩
  let detail5M : Finset AnthropicUsageField :=
    if .cacheWrite5M ∈ next.detailPresent ∧ write5M.patch.isSome then {.cacheWrite5M} else ∅
  let detail1H : Finset AnthropicUsageField :=
    if .cacheWrite1H ∈ next.detailPresent ∧ write1H.patch.isSome then {.cacheWrite1H} else ∅
  { m with
    trusted := { m.trusted with
      present := write1H.present
      detailPresent := m.trusted.detailPresent ∪ detail5M ∪ detail1H
      detailReported := m.trusted.detailReported || next.detailReported
      detailObjectSeen := m.trusted.detailObjectSeen || next.detailObjectSeen
      tokens := { m.trusted.tokens with
        cacheWrite5M := write5M.value
        cacheWrite1H := write1H.value } }
    patch := { m.patch with cacheWrite5M := write5M.patch, cacheWrite1H := write1H.patch }
    diagnostics := write1H.diagnostics }

/-- The reported sum of cache writes: it stands for short-lived ones as long as nothing else has
been reported, and is compared with the details otherwise. -/
def mergeAggregate (next : AnthropicCumulativeUsage) (m : Merging) : Merging :=
  let m :=
    if next.aggregatePresent then
      { m with trusted := { m.trusted with aggregate := next.aggregate, aggregatePresent := true } }
    else m
  if !m.trusted.aggregatePresent then m
  else if !m.trusted.detailReported then
    { m with
      trusted := { m.trusted with
        tokens := { m.trusted.tokens with cacheWrite5M := m.trusted.aggregate }
        present := insert .cacheWrite5M m.trusted.present }
      cacheWriteFallback := true
      patch := { m.patch with cacheWrite5M := some m.trusted.aggregate }
      diagnostics := m.diagnostics.add .cacheWriteDefaulted5M }
  else if m.trusted.detailObjectSeen then
    let write5M := anthropicTrustedDetailValue m.trusted .cacheWrite5M
    let write1H := anthropicTrustedDetailValue m.trusted .cacheWrite1H
    { m with diagnostics :=
        match checkedAdd write5M write1H with
        | none => m.diagnostics.add .invalidNumber
        | some detailTotal =>
          if m.trusted.aggregate ≠ detailTotal then
            m.diagnostics.setTotalDelta (m.trusted.aggregate - detailTotal)
          else m.diagnostics }
  else m

def mergeOutput (next : AnthropicCumulativeUsage) (m : Merging) : Merging :=
  let output := mergeAnthropicCumulativeField .output next.present next.tokens.output
    ⟨m.trusted.present, m.trusted.tokens.output, m.patch.output, m.diagnostics⟩
  { m with
    trusted := { m.trusted with
      present := output.present
      tokens := { m.trusted.tokens with output := output.value } }
    patch := { m.patch with output := output.patch }
    diagnostics := output.diagnostics }

namespace UsageStreamExtractor

def mergePatch (e : UsageStreamExtractor) (patch : Patch) :
    UsageStreamExtractor × Except String Unit :=
  let merged := e.accumulator.mergePatch patch
  ({ e with accumulator := merged.1 }, merged.2.mapError PatchError.text)

def mergeDiagnostics (e : UsageStreamExtractor) (diagnostics : Diagnostics) :
    UsageStreamExtractor × Except String Unit :=
  e.mergePatch { diagnostics }

def mergeCumulative (e : UsageStreamExtractor) (next : AnthropicCumulativeUsage)
    (diagnostics : Diagnostics) : UsageStreamExtractor × Except String Unit :=
  let m := mergeOutput next (mergeAggregate next (mergeDetails next (revokeFallback next
    (mergeInputs next
      { trusted := e.trusted, cacheWriteFallback := e.cacheWriteFallback, diagnostics }))))
  mergePatch { e with trusted := m.trusted, cacheWriteFallback := m.cacheWriteFallback }
    { m.patch with diagnostics := m.diagnostics }

end UsageStreamExtractor

/-! ## Compaction -/

def addAnthropicUsageTokens (left right : Tokens) : Option Tokens := do
  let uncachedInput ← checkedAdd left.uncachedInput right.uncachedInput
  let cacheRead ← checkedAdd left.cacheRead right.cacheRead
  let cacheWrite5M ← checkedAdd left.cacheWrite5M right.cacheWrite5M
  let cacheWrite1H ← checkedAdd left.cacheWrite1H right.cacheWrite1H
  let cacheWriteUnknown ← checkedAdd left.cacheWriteUnknown right.cacheWriteUnknown
  let output ← checkedAdd left.output right.output
  let sum := ⟨uncachedInput, cacheRead, cacheWrite5M, cacheWrite1H, cacheWriteUnknown, output⟩
  let _ ← checkedTotal sum
  pure sum

/-- An element of `iterations`, which is an object or null. -/
def decodeIteration : Value → Option Object
  | .obj members => some members
  | .null => some []
  | _ => none

/-- The loop over the iterations; `none` if it gives up. -/
def sumCompaction (tokens : Tokens) (diagnostics : Diagnostics) :
    List Object → Option Tokens × Diagnostics
  | [] => (some tokens, diagnostics)
  | iteration :: rest =>
    match Json.member iteration "type" with
    | some (.str "compaction") =>
      let patch := (anthropicUsagePatch iteration true false).1
      let diagnostics := diagnostics.merge patch.diagnostics
      if !usageIntegerUsable patch.diagnostics || patch.diagnostics.has .missingRequiredField then
        (none, diagnostics)
      else match ({} : Accumulator).mergePatch patch with
        | (_, .error _) => (none, diagnostics.add .invalidNumber)
        | (accumulator, .ok ()) =>
          match addAnthropicUsageTokens tokens (accumulator.finalize true).2.1.tokens with
          | none => (none, diagnostics.add .invalidNumber)
          | some combined => sumCompaction combined diagnostics rest
    | _ => sumCompaction tokens diagnostics rest

/-- The compaction snapshot in a usage object, if it has one that can be used. -/
def compactionSnapshot (object : Object) : Option Tokens × Diagnostics :=
  match presentMember object "iterations" with
  | none => (none, {})
  | some (.arr items) =>
    match items.mapM decodeIteration with
    | none => (none, .single .invalidNumber)
    | some iterations => sumCompaction noTokens {} iterations
  | some _ => (none, .single .invalidNumber)

namespace UsageStreamExtractor

def observeCompaction (e : UsageStreamExtractor) (object : Object) :
    UsageStreamExtractor × Diagnostics :=
  let (snapshot, diagnostics) := compactionSnapshot object
  ({ e with compaction := snapshot.getD e.compaction }, diagnostics)

/-! ## Events -/

def missingObject (diagnostics : Diagnostics) : Diagnostics :=
  if !diagnostics.has .invalidNumber then diagnostics.add .missingRequiredField else diagnostics

def observeStart (e : UsageStreamExtractor) (root : Object) :
    UsageStreamExtractor × Except String Unit :=
  match usageOptionalObject root "message" with
  | (none, diagnostics) => e.mergeDiagnostics (missingObject diagnostics)
  | (some message, diagnostics) =>
    match usageOptionalObject message "usage" with
    | (none, usageDiagnostics) =>
      e.mergeDiagnostics (missingObject (diagnostics.merge usageDiagnostics))
    | (some usageObject, usageDiagnostics) =>
      let (next, nextDiagnostics, validInput) :=
        anthropicCumulativeUsageFromObject usageObject true false
      let diagnostics := (diagnostics.merge usageDiagnostics).merge nextDiagnostics
      if e.validStart then e.mergeDiagnostics (diagnostics.add .invalidEventSequence)
      else if validInput then
        let (e, compactionDiagnostics) :=
          observeCompaction { e with validStart := true } usageObject
        e.mergeCumulative next (diagnostics.merge compactionDiagnostics)
      else e.mergeDiagnostics diagnostics

def observeDelta (e : UsageStreamExtractor) (root : Object) :
    UsageStreamExtractor × Except String Unit :=
  match usageOptionalObject root "usage" with
  | (none, diagnostics) => e.mergeDiagnostics (missingObject diagnostics)
  | (some usageObject, diagnostics) =>
    let (next, nextDiagnostics, _) := anthropicCumulativeUsageFromObject usageObject false false
    let diagnostics := diagnostics.merge nextDiagnostics
    if !e.validStart then e.mergeDiagnostics (diagnostics.add .invalidEventSequence)
    else
      let (e, compactionDiagnostics) := e.observeCompaction usageObject
      e.mergeCumulative next (diagnostics.merge compactionDiagnostics)

def observeStop (e : UsageStreamExtractor) : UsageStreamExtractor × Except String Unit :=
  let e := { e with stopped := true }
  if !e.validStart then e.mergeDiagnostics (.single .invalidEventSequence)
  else e.mergePatch { final := true }

def anthropicEventType (root : Object) : String :=
  match Json.member root "type" with
  | some (.str text) => text
  | _ => ""

def observe (e : UsageStreamExtractor) (payload : Option Value) :
    UsageStreamExtractor × Except String Unit :=
  match decodeJSONObject payload with
  | none =>
    match e.mergeDiagnostics (.single .invalidPayload) with
    | (e, .error mergeErr) => (e, .error mergeErr)
    | (e, .ok ()) => (e, .error "decode Anthropic usage stream payload")
  | some root =>
    if e.stopped then e.mergeDiagnostics (.single .invalidEventSequence)
    else match anthropicEventType root with
      | "message_start" => e.observeStart root
      | "message_delta" => e.observeDelta root
      | "message_stop" => e.observeStop
      | _ => (e, .ok ())

def observeAll (e : UsageStreamExtractor) (payloads : List (Option Value)) : UsageStreamExtractor :=
  payloads.foldl (fun e payload => (e.observe payload).1) e

def finalize (e : UsageStreamExtractor) : UsageStreamExtractor × Result × Bool :=
  match e.accumulator.finalize true with
  | (accumulator, result, false) => ({ e with accumulator }, result, false)
  | (accumulator, result, true) =>
    let e := { e with accumulator }
    match addAnthropicUsageTokens result.tokens e.compaction with
    | some tokens => (e, { result with tokens }, true)
    | none =>
      (e, { result with
        diagnostics := result.diagnostics.add .invalidNumber
        state := .partly }, true)

end UsageStreamExtractor

end ApiLoad.Dialect
