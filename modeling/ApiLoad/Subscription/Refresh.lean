import ApiLoad.Registry.Operations
import ApiLoad.Execution.Evidence

/-!
# Refreshing a subscription credential

One attempt to refresh a credential under its mutation lock
(`internal/subscription/credential_manager.go`). The attempt reads and writes the durable row of the
credential and publishes the authorization state to the registry of the data plane.

Everything outside of the manager answers as the environment says: each read and each write of the
database, the two hooks into the registry and the provider may fail or succeed on their own. A write
that fails may still have been applied. Writes, loads and reconciliations are numbered in the order
in which the attempt makes them.
-/
namespace ApiLoad.Subscription
open Foundation Text Execution Registry Scheduling

/-- The column `auth_state`; a check of the table refuses every other value. -/
inductive AuthState where
  | ready | refreshing | reauthorizationRequired | outcomeUnknown
deriving DecidableEq, Repr

def AuthState.text : AuthState → String
  | .ready => "ready"
  | .refreshing => "refreshing"
  | .reauthorizationRequired => "reauthorization_required"
  | .outcomeUnknown => "outcome_unknown"

/-- The conversion to the type of the registry. -/
def AuthState.published : AuthState → CredentialAuthState
  | .ready => .ready
  | .refreshing => .refreshing
  | .reauthorizationRequired => .reauthorizationRequired
  | .outcomeUnknown => .outcomeUnknown

structure Row where
  id : Nat
  groupID : Nat
  name : String := ""
  data : String
  fingerprint : String
  identityFingerprint : String := ""
  secretVersion : Nat
  /-- A check of the table. -/
  positive : 0 < secretVersion
  authState : AuthState
  authErrorCode : String := ""
  status : CredentialStatus := .active
  weightManual : Option Int := none

theorem Row.succ_positive (row : Row) : 0 < row.secretVersion + 1 := Nat.succ_pos _

structure Group where
  channelID : String
  connectionType : String
  params : String := ""

structure Credential where
  canonical : String
  expiresAt : Option Time := none
deriving DecidableEq

inductive RefreshFailureKind where
  | outcomeUnknown | retryable | reauthorizationRequired | identityChanged
deriving DecidableEq, Repr

structure RefreshFailureDecision where
  kind : RefreshFailureKind := .outcomeUnknown
  statusCode : Int := 0
  oauthCode : String := ""
  retryAfter : Duration := 0

/-! ## The environment -/

inductive Outcome where
  | done
  | lost
  | unreported
deriving DecidableEq, Repr

/-- What a load of the group's credentials finds besides the columns of the credential itself. -/
structure Load where
  before : List CredentialEntry := []
  after : List CredentialEntry := []
  identityGeneration : Nat
  encryptedProxy : String := ""
  proxyFingerprint : String := ""

structure Environment where
  clock : Clock := fun _ => 0
  databaseError : String := ""
  found : Bool := true
  group : Nat → Option Group
  identityGeneration : String → Group → Nat
  decrypt : String → Option String
  parse : String → Option Credential
  expiryCheckedAt : Time := 0
  cooldownCheckedAt : Time := 0
  failedAt : Time := 0
  toLower : String → String := id
  writes : Nat → Outcome
  loads : Nat → Option Load
  reconciles : Nat → Bool
  replaces : Bool
  refresh : Credential → Except RefreshFailureDecision Credential
  preservesIdentity : Credential → Credential → Bool
  encrypt : String → Option String
  hash : String → String

structure Request where
  channelID : String
  expectedVersion : Nat
  expectedIdentityGeneration : Nat
  forceRefresh : Bool := false
  respectCooldown : Bool := false
  allowRecovery : Bool := false

/-- The durable row of the credential and the registry, with the numbers of calls made so far. -/
structure World where
  row : Option Row
  registry : CredentialRegistry
  written : Nat := 0
  loaded : Nat := 0
  reconciled : Nat := 0

/-! ## Evidence -/

def refreshLeadTime : Time := 5 * 60 * 1000000000
def maxRefreshRetryAfter : Duration := 3600 * 1000000000
def defaultRefreshFailureCooldown : Duration := 600 * 1000000000

def localEvidence (code summary : String) : ErrorEvidence where
  kind := .internal
  originHint := .internal
  code := code
  summary := summary

def authEvidence (code : String) : ErrorEvidence where
  kind := .provider
  hint := .reauthorizationRequired
  originHint := .upstream
  scopeHint := .credential
  code := code
  summary :=
    if code ∈ ["outcome_unknown", "refreshing", "refresh_outcome_unknown", "refresh_persist_failed",
        "refresh_commit_failed", "refresh_registry_mismatch", "refresh_state_commit_failed"] then
      "subscription credential refresh outcome is unknown"
    else "subscription account requires reauthorization"

def boundedRefreshRetryAfter (value : Duration) : Duration :=
  if value ≤ 0 then 0 else if maxRefreshRetryAfter < value then maxRefreshRetryAfter else value

def safeRefreshDiagnosticCode (toLower : String → String) (value : String) : String :=
  let value := toLower (trimSpace value)
  if value = "" || 64 < value.utf8ByteSize then ""
  else if value.toList.all fun c =>
      ('a' ≤ c && c ≤ 'z') || ('0' ≤ c && c ≤ '9') || c == '.' || c == '_' || c == '-' then value
  else ""

def refreshTemporarilyUnavailableEvidence (env : Environment) (failure : RefreshFailureDecision) :
    ErrorEvidence where
  kind := .http
  hint := .refreshUnavailable
  originHint := .upstream
  scopeHint := .credential
  statusCode :=
    if failure.statusCode < 100 ∨ 599 < failure.statusCode then 0 else failure.statusCode
  type := safeRefreshDiagnosticCode env.toLower failure.oauthCode
  code := "refresh_temporarily_unavailable"
  retryAfter := boundedRefreshRetryAfter failure.retryAfter
  summary := "subscription credential refresh is temporarily unavailable"
  replaySafety := .rejectedBeforeProcessing

def stateCommitFailed : ErrorEvidence :=
  localEvidence "refresh_state_commit_failed" "subscription credential state could not be saved"

def activeCredentialCooldownEvidence (env : Environment) (registry : CredentialRegistry)
    (id : Nat) :
    Option ErrorEvidence :=
  match registry.entryLocked id with
  | none => none
  | some entry =>
    let remaining := entry.cooldownUntil.sub env.cooldownCheckedAt
    if remaining ≤ 0 then none
    else some (refreshTemporarilyUnavailableEvidence env { retryAfter := remaining })

/-! ## Writes and reconciliation -/

/-- An `UPDATE` of the rows that satisfy a condition, and the number of rows it affected. -/
def update (env : Environment) (condition : Row → Bool) (change : Row → Row) (w : World) :
    World × Except String Nat :=
  let stored := w.row.map fun row => if condition row then change row else row
  let affected := (w.row.filter condition).toList.length
  let outcome := env.writes w.written
  ({ w with row := if outcome = .lost then w.row else stored, written := w.written + 1 },
    if outcome = .done then .ok affected else .error env.databaseError)

def setAuthState (env : Environment) (id version : Nat) (authState : AuthState) (code : String)
    (w : World) : World × Except String Unit :=
  match update env (fun row => row.id = id && row.secretVersion = version)
      (fun row => { row with authState, authErrorCode := code }) w with
  | (w, .error e) => (w, .error e)
  | (w, .ok affected) =>
    (w, if affected = 1 then .ok ()
      else .error s!"credential auth state update affected {affected} rows")

def credentialVersion (secretVersion : Nat) : Nat := if secretVersion < 1 then 1 else secretVersion

def mapCredential (load : Load) (row : Row) : CredentialEntry where
  name := row.name
  id := row.id
  groupID := row.groupID
  version := credentialVersion row.secretVersion
  identityGeneration := load.identityGeneration
  fingerprint := row.fingerprint
  weightManual := row.weightManual
  status := row.status
  authState := row.authState.published
  encryptedValue := row.data
  encryptedProxy := load.encryptedProxy
  proxyFingerprint := load.proxyFingerprint

def buildGroupCredentialEntriesWithProxy (env : Environment) (groupID : Nat) (w : World) :
    Except String (List CredentialEntry) :=
  if groupID = 0 then .error "group id is required"
  else match env.loads w.loaded with
    | none => .error env.databaseError
    | some load =>
      let entries := load.before ++
        (w.row.filter (·.groupID = groupID)).toList.map (mapCredential load) ++ load.after
      match validateCredentialEntries entries with
      | .error e => .error s!"validate group {groupID} credentials: {e}"
      | .ok () => .ok entries

/-- The group is loaded from the database and reconciled through the hook. -/
def reconcileFromDatabase (env : Environment) (groupID : Nat) (w : World) :
    World × Except String Unit :=
  match buildGroupCredentialEntriesWithProxy env groupID w with
  | .error e => ({ w with loaded := w.loaded + 1 }, .error e)
  | .ok entries =>
    let w := { w with loaded := w.loaded + 1 }
    if !env.reconciles w.reconciled then
      ({ w with reconciled := w.reconciled + 1 },
        .error "credential registry reconciliation is unavailable")
    else match w.registry.reconcileGroup env.clock groupID entries with
      | (_, .error e) => ({ w with reconciled := w.reconciled + 1 }, .error e)
      | (registry, .ok _) => ({ w with registry, reconciled := w.reconciled + 1 }, .ok ())

def publishAuthState (env : Environment) (row : Row) (authState : AuthState) (w : World) :
    World × Except String Unit :=
  match w.registry.setCredentialAuthState env.clock row.id authState.published with
  | (registry, true) => ({ w with registry }, .ok ())
  | (_, false) => reconcileFromDatabase env row.groupID w

def transitionAuthState (env : Environment) (row : Row) (version : Nat) (authState : AuthState)
    (code : String) (w : World) : World × Except String Unit :=
  match setAuthState env row.id version authState code w with
  | (w, .error e) => (w, .error e)
  | (w, .ok ()) => publishAuthState env row authState w

def markRefreshOutcomeUnknown (env : Environment) (row : Row) (version : Nat) (code : String)
    (w : World) : World × Except String Unit :=
  transitionAuthState env row version .outcomeUnknown code w

/-- The direct call on the registry that follows most failed transitions. -/
def forceOutcomeUnknown (env : Environment) (row : Row) (w : World) : World :=
  { w with registry :=
      (w.registry.setCredentialAuthState env.clock row.id .outcomeUnknown).1 }

def runtimeMatchesDurableSecret (registry : CredentialRegistry) (row : Row) : Bool :=
  match registry.entryLocked row.id with
  | none => false
  | some entry => entry.version = row.secretVersion && normalize entry.authState = .ready

def ensureRuntimeMatchesDurableSecret (env : Environment) (row : Row) (w : World) :
    World × Except String Unit :=
  if runtimeMatchesDurableSecret w.registry row then (w, .ok ())
  else
    -- A registry that serves this version lags on the authorization state only.
    let repaired :=
      if (w.registry.entryLocked row.id).any (·.version = row.secretVersion) then
        { w with registry :=
            (w.registry.setCredentialAuthState env.clock row.id row.authState.published).1 }
      else w
    if runtimeMatchesDurableSecret repaired.registry row then (repaired, .ok ())
    else match reconcileFromDatabase env row.groupID repaired with
      | (w, .error e) => (w, .error e)
      | (w, .ok ()) =>
        (w, if runtimeMatchesDurableSecret w.registry row then .ok ()
          else .error "credential runtime state does not match the durable secret")

/-- The state and code that a refresh restores when it ends without a new credential. -/
def refreshRestoreState (row : Row) : AuthState × String :=
  match row.authState with
  | .refreshing => (.outcomeUnknown, "refresh_interrupted")
  | .ready => (.ready, "")
  | authState => (authState, row.authErrorCode)

/-! ## The attempt up to the provider call -/

def connectionTypeSubscription : String := "subscription"

def credentialTargetMismatch : ErrorEvidence :=
  localEvidence "credential_target_mismatch" "subscription credential target does not match"

/-- The checks that come before any change. -/
def readCurrent (env : Environment) (request : Request) (stored : Option Row) :
    Except ErrorEvidence (Row × Credential) :=
  match if env.found then stored else none with
  | none => .error (localEvidence "credential_unavailable" "subscription credential is unavailable")
  | some row =>
    match env.group row.groupID with
    | none => .error credentialTargetMismatch
    | some group =>
      if group.channelID ≠ request.channelID ∨
        group.connectionType ≠ connectionTypeSubscription then
        .error credentialTargetMismatch
      else if env.identityGeneration row.identityFingerprint group ≠
          request.expectedIdentityGeneration then
        .error credentialTargetMismatch
      else if row.authState ≠ .ready ∧ !request.allowRecovery then
        .error (authEvidence row.authState.text)
      else match env.decrypt row.data with
        | none =>
          .error (localEvidence "credential_decrypt_failed"
            "subscription credential is unavailable")
        | some plaintext =>
          match env.parse plaintext with
          | none => .error (localEvidence "credential_invalid" "subscription credential is invalid")
          | some current => .ok (row, current)

/-- What the provider call and the code after it need. -/
structure Attempt where
  row : Row
  current : Credential
  bypassedCooldown : Time

inductive Progress where
  | returned (result : Except ErrorEvidence Credential)
  | refreshing (attempt : Attempt)

def expiresSoon (env : Environment) (current : Credential) : Bool :=
  current.expiresAt.any fun expiration => !(env.expiryCheckedAt + refreshLeadTime < expiration)

/-- The transition to refreshing failed: the previous state is written and published again. -/
def restoreAfterFailedStart (env : Environment) (row : Row) (w : World) :
    World × Except ErrorEvidence Credential :=
  let (restoreState, restoreCode) := refreshRestoreState row
  match transitionAuthState env row row.secretVersion restoreState restoreCode w with
  | (w, .error _) =>
    (forceOutcomeUnknown env row w, .error (authEvidence "refresh_registry_mismatch"))
  | (w, .ok ()) =>
    (w, .error
      (localEvidence "refresh_start_failed" "subscription credential refresh could not start"))

def startRefreshing (env : Environment) (attempt : Attempt) (w : World) : World × Progress :=
  match transitionAuthState env attempt.row attempt.row.secretVersion .refreshing "" w with
  | (w, .error _) => (restoreAfterFailedStart env attempt.row w).map id .returned
  | (w, .ok ()) => (w, .refreshing attempt)

def start (env : Environment) (request : Request) (w : World) : World × Progress :=
  match readCurrent env request w.row with
  | .error e => (w, .returned (.error e))
  | .ok (row, current) =>
    if request.forceRefresh ∧ request.expectedVersion < row.secretVersion ∧
      row.authState = .ready then
      match ensureRuntimeMatchesDurableSecret env row w with
      | (w, .error _) => (w, .returned (.error (authEvidence "refresh_registry_mismatch")))
      | (w, .ok ()) => (w, .returned (.ok current))
    else if !request.forceRefresh ∧ !expiresSoon env current then (w, .returned (.ok current))
    else if request.respectCooldown then
      match activeCredentialCooldownEvidence env w.registry row.id with
      | some evidence => (w, .returned (.error evidence))
      | none => startRefreshing env ⟨row, current, 0⟩ w
    else
      let bypassed := (w.registry.entryLocked row.id).elim 0 (·.cooldownUntil)
      startRefreshing env ⟨row, current, bypassed⟩ w

/-! ## The attempt from the provider call on -/

/-- A transition that ends the attempt; if it fails, the registry is set directly. -/
def settle (env : Environment) (row : Row) (version : Nat) (authState : AuthState) (code : String)
    (evidence : ErrorEvidence) (w : World) : World × Except ErrorEvidence Credential :=
  match transitionAuthState env row version authState code w with
  | (w, .error _) => (forceOutcomeUnknown env row w, .error stateCommitFailed)
  | (w, .ok ()) => (w, .error evidence)

/-- The transition after a credential that could not be saved. A failure of it is only reported. -/
def abandon (env : Environment) (row : Row) (code : String) (w : World) :
    World × Except ErrorEvidence Credential :=
  match markRefreshOutcomeUnknown env row row.secretVersion code w with
  | (w, .error _) => (w, .error stateCommitFailed)
  | (w, .ok ()) => (w, .error (authEvidence code))

def retryLater (env : Environment) (row : Row) (failure : RefreshFailureDecision) (w : World) :
    World × Except ErrorEvidence Credential :=
  let evidence := refreshTemporarilyUnavailableEvidence env failure
  let cooldown :=
    if evidence.retryAfter ≤ 0 then defaultRefreshFailureCooldown else evidence.retryAfter
  match w.registry.setCooldownWithChange env.clock row.id (env.failedAt + cooldown.toInt) with
  | (_, false, _) =>
    settle env row row.secretVersion .outcomeUnknown "refresh_registry_mismatch"
      (authEvidence "refresh_registry_mismatch") w
  | (registry, true, _) =>
    settle env row row.secretVersion (refreshRestoreState row).1
      (refreshRestoreState row).2 evidence
      { w with registry }

/-- The state and code to persist, and the code to report, after a failure for good. -/
def failureState (row : Row) : RefreshFailureKind → AuthState × String × String
  | .identityChanged =>
    (.reauthorizationRequired, "refresh_identity_changed", "refresh_identity_changed")
  | .reauthorizationRequired => (.reauthorizationRequired, "refresh_rejected", "refresh_rejected")
  | _ =>
    let (restoreState, restoreCode) := refreshRestoreState row
    if restoreState ≠ .ready then (restoreState, restoreCode, "refresh_outcome_unknown")
    else (.outcomeUnknown, "refresh_outcome_unknown", "refresh_outcome_unknown")

def fail (env : Environment) (row : Row) (failure : RefreshFailureDecision) (w : World) :
    World × Except ErrorEvidence Credential :=
  if failure.kind = .retryable then retryLater env row failure w
  else
    let (stateValue, code, evidenceCode) := failureState row failure.kind
    settle env row row.secretVersion stateValue code (authEvidence evidenceCode) w

def clearBypassedCooldown (env : Environment) (attempt : Attempt) (w : World) : World :=
  if attempt.bypassedCooldown = 0 then w
  else { w with registry :=
    (w.registry.clearCooldownIfMatch env.clock attempt.row.id attempt.bypassedCooldown).1 }

/-- The rotated secret is durable and goes to the registry. -/
def publishSecret (env : Environment) (attempt : Attempt) (refreshed : Credential)
    (fingerprint ciphertext : String) (w : World) : World × Except ErrorEvidence Credential :=
  let row := attempt.row
  let replaced := w.registry.replaceCredentialSecretIfMatch env.clock row.id row.secretVersion
    (row.secretVersion + 1) fingerprint ciphertext
  if env.replaces && replaced.2 then
    (clearBypassedCooldown env attempt { w with registry := replaced.1 }, .ok refreshed)
  else match reconcileFromDatabase env row.groupID w with
    | (w, .error _) =>
      settle env row (row.secretVersion + 1) .outcomeUnknown "refresh_registry_mismatch"
        (authEvidence "refresh_registry_mismatch") w
    | (w, .ok ()) => (clearBypassedCooldown env attempt w, .ok refreshed)

def commit (env : Environment) (row : Row) (fingerprint ciphertext : String) (w : World) :
    World × Except String Nat :=
  update env
    (fun stored => stored.id = row.id && stored.secretVersion = row.secretVersion &&
      stored.authState = .refreshing)
    (fun stored => { stored with
      data := ciphertext
      fingerprint := fingerprint
      secretVersion := row.secretVersion + 1
      positive := row.succ_positive
      authState := .ready
      authErrorCode := "" }) w

def persist (env : Environment) (attempt : Attempt) (refreshed : Credential) (w : World) :
    World × Except ErrorEvidence Credential :=
  if refreshed.canonical = "" then abandon env attempt.row "refresh_persist_failed" w
  else match env.encrypt refreshed.canonical with
    | none => abandon env attempt.row "refresh_persist_failed" w
    | some ciphertext =>
      let fingerprint := env.hash refreshed.canonical
      match commit env attempt.row fingerprint ciphertext w with
      | (w, .ok 1) => publishSecret env attempt refreshed fingerprint ciphertext w
      | (w, _) => abandon env attempt.row "refresh_commit_failed" w

def finish (env : Environment) (attempt : Attempt) (w : World) :
    World × Except ErrorEvidence Credential :=
  match env.refresh attempt.current with
  | .error failure => fail env attempt.row failure w
  | .ok refreshed =>
    if !env.preservesIdentity attempt.current refreshed then
      settle env attempt.row attempt.row.secretVersion .reauthorizationRequired
        "refresh_identity_changed" (authEvidence "refresh_identity_changed") w
    else persist env attempt refreshed w

def refreshCredentialLocked (env : Environment) (request : Request) (w : World) :
    World × Except ErrorEvidence Credential :=
  match start env request w with
  | (w, .returned result) => (w, result)
  | (w, .refreshing attempt) => finish env attempt w

end ApiLoad.Subscription
