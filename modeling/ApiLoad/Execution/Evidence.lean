import ApiLoad.Channel.Target
import ApiLoad.Foundation.Text
import ApiLoad.Foundation.Time

/-!
# Evidence of a failed attempt

What an executor reports about an attempt that failed (`internal/execution/contracts.go`,
`internal/execution/validation.go`). The enumerations are strings in the source; `unset` is the
empty text where the source gives it a meaning, and `unrecognized` stands for every other text.
-/
namespace ApiLoad.Execution
open Foundation Text Channel

inductive DispatchState where
  | notSent | maybeSent | localOnly | unrecognized
deriving DecidableEq, Repr

def DispatchState.valid (s : DispatchState) : Bool := s ≠ .unrecognized

inductive ErrorOrigin where
  | unset | client | upstream | downstream | internal | unrecognized
deriving DecidableEq, Repr

def ErrorOrigin.valid (o : ErrorOrigin) : Bool := o ≠ .unrecognized

inductive ErrorScope where
  | unset | request | model | credential | group | unrecognized
deriving DecidableEq, Repr

def ErrorScope.valid (s : ErrorScope) : Bool := s ≠ .unrecognized

inductive ErrorKind where
  | transport | timeout | canceled | http | provider | invalidRequest | conversionUnsupported
  | internal | unrecognized
deriving DecidableEq, Repr

def ErrorKind.valid (k : ErrorKind) : Bool := k ≠ .unrecognized

inductive FailureHint where
  | unset | invalidCredential | refreshRequired | refreshUnavailable | reauthorizationRequired
  | rateLimited | requestRejected | candidateUnavailable | modelUnavailable | hostError
  | unrecognized
deriving DecidableEq, Repr

def FailureHint.valid (h : FailureHint) : Bool := h ≠ .unrecognized

/-- Whether the provider has confirmed that it rejected the request before processing it. -/
inductive ReplaySafety where
  | unset | unknown | rejectedBeforeProcessing | unrecognized
deriving DecidableEq, Repr

def ReplaySafety.valid (s : ReplaySafety) : Bool := s ≠ .unrecognized

inductive ReplayPolicy where
  | legacy | requireRejectedBeforeProcessing
deriving DecidableEq, Repr

def replayPolicy : Operation → ReplayPolicy
  | .transparentRequest | .resourceCreate | .resourceDelete | .resourceCancel | .imagesGenerate
  | .imagesEdit | .embeddingsCreate | .rerank | .decisionsCreate | .liveCall | .audioSpeech
  | .mistralOCR | .mistralFIM | .mistralAudioTranscription | .mistralAudioSpeech
  | .mistralModeration | .mistralChatModeration | .mistralClassification
  | .mistralRealtimeTranscription => .requireRejectedBeforeProcessing
  | _ => .legacy

/-- The fields of an HTTP header, in the order in which a range over the map meets them. -/
abbrev Header := List (String × List String)

structure ErrorEvidence where
  kind : ErrorKind
  hint : FailureHint := .unset
  originHint : ErrorOrigin := .unset
  scopeHint : ErrorScope := .unset
  statusCode : Int := 0
  type : String := ""
  code : String := ""
  summary : String := ""
  requestID : String := ""
  retryAfter : Duration := 0
  replaySafety : ReplaySafety := .unset
  header : Header := []
deriving DecidableEq

/-! ## Validation -/

structure ValidationError where
  field : String
  reason : String
deriving DecidableEq, Repr

def maxErrorSummaryLength : Nat := 4096

def validHTTPStatus (statusCode : Int) : Bool := 100 ≤ statusCode ∧ statusCode ≤ 599

def validOptionalHTTPStatus (statusCode : Int) : Bool :=
  statusCode = 0 || validHTTPStatus statusCode

def containsControl (value : String) : Bool := value.toList.any isControl

def validHTTPToken (value : String) : Bool :=
  value ≠ "" && value.toList.all fun c =>
    31 < c.toNat && c.toNat < 127 && !"()<>@,;:\\\"/[]?=\x7b\x7d \t".toList.contains c

/-- `http.CanonicalHeaderKey` of a token. -/
def canonicalHeaderKey (name : String) : String :=
  let step := fun (read : List Char × Bool) (c : Char) =>
    (read.1 ++ [if read.2 then c.toUpper else c.toLower], c == '-')
  String.ofList (name.toList.foldl step ([], true)).1

def validateHeader (header : Header) : Except ValidationError Unit :=
  header.forM fun (name, values) => do
    if !validHTTPToken name then throw ⟨"header", "invalid name"⟩
    if values.any fun value => value.toList.any fun c => c = '\r' || c = '\n' || c.toNat = 0 then
      throw ⟨"header", "invalid value"⟩

def validateSafeEvidenceHeader (header : Header) : Except ValidationError Unit := do
  validateHeader header
  header.forM fun (name, _) =>
    let canonical := canonicalHeaderKey name
    if ["Retry-After", "Request-Id", "X-Request-Id", "X-Generation-Id", "Traceparent"].contains
        canonical || hasPrefix canonical "Ratelimit-" || hasPrefix canonical "X-Ratelimit-" then
      .ok ()
    else .error ⟨"header", "not allowlisted"⟩

/-- The checks of `ErrorEvidence.Validate` in their order. -/
def ErrorEvidence.checks (e : ErrorEvidence) : List (Bool × ValidationError) :=
  [(e.kind.valid, ⟨"error.kind", "unsupported value"⟩),
    (e.hint.valid, ⟨"error.hint", "unsupported value"⟩),
    (e.originHint.valid, ⟨"error.origin_hint", "unsupported value"⟩),
    (e.scopeHint.valid, ⟨"error.scope_hint", "unsupported value"⟩),
    (e.replaySafety.valid, ⟨"error.replay_safety", "unsupported value"⟩),
    (validOptionalHTTPStatus e.statusCode,
      ⟨"error.status_code", "must be zero or a valid HTTP status"⟩),
    (trimSpace e.summary ≠ "", ⟨"error.summary", "must not be empty"⟩),
    (e.summary.length ≤ maxErrorSummaryLength, ⟨"error.summary", "exceeds maximum length"⟩),
    (!containsControl e.summary, ⟨"error.summary", "must be a single safe line"⟩),
    (!containsControl e.type, ⟨"error.type", "contains control characters"⟩),
    (!containsControl e.code, ⟨"error.code", "contains control characters"⟩),
    (!containsControl e.requestID, ⟨"error.request_id", "contains control characters"⟩),
    (0 ≤ e.retryAfter, ⟨"error.retry_after", "must not be negative"⟩),
    ((validateSafeEvidenceHeader e.header).isOk, ⟨"error.header", "contains a non-safe header"⟩)]

def ErrorEvidence.validate (e : ErrorEvidence) : Except ValidationError Unit :=
  match e.checks.find? fun check => !check.1 with
  | some check => .error check.2
  | none => .ok ()

variable {e : ErrorEvidence}

/-- Accepted evidence has passed every check. -/
theorem ErrorEvidence.validate_ok (h : e.validate = .ok ()) :
    ∀ check ∈ e.checks, check.1 = true := by
  unfold validate at h
  split at h
  case h_1 => cases h
  case h_2 hnone => simpa using hnone

theorem ErrorEvidence.scopeHint_valid (h : e.validate = .ok ()) : e.scopeHint.valid := by
  have := validate_ok h
  simp_all [checks]

theorem ErrorEvidence.originHint_valid (h : e.validate = .ok ()) : e.originHint.valid := by
  have := validate_ok h
  simp_all [checks]

end ApiLoad.Execution
