import ApiLoad.Foundation.Text
import ApiLoad.Scheduling.Ledger

/-!
# Entries of the credential registry

A credential with its configuration and its runtime health (`internal/state/registry.go`,
`internal/state/runtime_view.go`, `internal/state/model_cooldown.go`). The text functions of error
messages are those of the source; a status that is no status keeps its text for the message.
-/
namespace ApiLoad.Registry
open Std Foundation Text Scheduling

structure CredentialEntry where
  name : String := ""
  id : Nat
  groupID : Nat
  version : Nat
  identityGeneration : Nat
  fingerprint : String
  weightManual : Option Int := none
  status : CredentialStatus
  authState : CredentialAuthState := .unset
  cooldownUntil : Time := 0
  modelCooldowns : ExtTreeMap String Time := ∅
  modelCooldownGeneration : Nat := 0
  blacklisted : Bool := false
  failureCount : Int := 0
  failureGeneration : Nat := 0
  encryptedValue : String
  encryptedProxy : String := ""
  proxyFingerprint : String := ""
  quotaRemaining : Option Rat := none
  quotaResetAt : Time := 0

/-- A counter of type `uint64` after one more step. -/
def nextGeneration (generation : Nat) : Nat := (generation + 1) % 2 ^ 64

def normalize : CredentialAuthState → CredentialAuthState
  | .unset => .ready
  | state => state

def validAuthState (state : CredentialAuthState) : Bool :=
  match normalize state with
  | .unrecognized _ => false
  | _ => true

def validStatus (status : CredentialStatus) : Bool := status = .active ∨ status = .disabled

def statusText : CredentialStatus → String
  | .active => "active"
  | .disabled => "disabled"
  | .unrecognized text => text

def authStateText : CredentialAuthState → String
  | .unset => ""
  | .ready => "ready"
  | .refreshing => "refreshing"
  | .reauthorizationRequired => "reauthorization_required"
  | .outcomeUnknown => "outcome_unknown"
  | .unrecognized text => text

def maxWeight : Int := 100

def validateManualWeight (subject : String) (weight : Option Int) : Except String Unit :=
  if weight.any fun w => w < 0 || maxWeight < w then
    .error s!"{subject} manual weight must be between 0 and {maxWeight}"
  else .ok ()

def runtimeView (entry : CredentialEntry) : CredentialRuntimeView where
  id := entry.id
  groupID := entry.groupID
  identityGeneration := entry.identityGeneration
  weightManual := entry.weightManual
  status := entry.status
  authState := normalize entry.authState
  cooldownUntil := entry.cooldownUntil
  blacklisted := entry.blacklisted
  modelCooldowns := entry.modelCooldowns

/-- A copy for the registry; a replaced configuration starts a new count of failures. -/
def cloneCredentialEntry (entry : CredentialEntry) : CredentialEntry :=
  { entry with failureGeneration := 0 }

def pruneModelCooldowns (limits : ExtTreeMap String Time) (now : Time) : ExtTreeMap String Time :=
  limits.filter fun model until_ => model ≠ "" && now < until_

def preserveModelCooldowns (next : CredentialEntry) (previous : Option CredentialEntry) :
    CredentialEntry :=
  match previous with
  | none => next
  | some previous =>
    if next.id = previous.id ∧ next.groupID = previous.groupID ∧
        next.identityGeneration = previous.identityGeneration then
      { next with
        modelCooldownGeneration := previous.modelCooldownGeneration
        modelCooldowns := previous.modelCooldowns }
    else
      { next with
        modelCooldownGeneration := nextGeneration previous.modelCooldownGeneration
        modelCooldowns := ∅ }

def samePersistedCredentialConfig (left right : CredentialEntry) : Bool :=
  left.id = right.id && left.groupID = right.groupID && left.version = right.version &&
    left.identityGeneration = right.identityGeneration && left.fingerprint = right.fingerprint &&
    left.status = right.status && left.encryptedValue = right.encryptedValue &&
    left.encryptedProxy = right.encryptedProxy && left.proxyFingerprint = right.proxyFingerprint &&
    left.weightManual = right.weightManual

/-! ## Validation -/

/-- The checks of `ValidateCredentialEntries` on one entry. -/
def validateEntry (seen : List Nat) (entry : CredentialEntry) : Except String Unit := do
  if entry.id = 0 then throw "credential id is required"
  if entry.groupID = 0 then throw s!"credential {entry.id} group id is required"
  if !validStatus entry.status then
    throw s!"credential {entry.id} has invalid status {quoted (statusText entry.status)}"
  if !validAuthState entry.authState then
    throw s!"credential {entry.id} has invalid auth state {quoted (authStateText entry.authState)}"
  validateManualWeight s!"credential {entry.id}" entry.weightManual
  if entry.encryptedValue = "" then throw s!"credential {entry.id} encrypted value is required"
  if (entry.encryptedProxy = "") ≠ (entry.proxyFingerprint = "") then
    throw s!"credential {entry.id} proxy identity is incomplete"
  if entry.version = 0 then throw s!"credential {entry.id} version is required"
  if entry.identityGeneration = 0 then
    throw s!"credential {entry.id} identity generation is required"
  if trimSpace entry.fingerprint = "" then
    throw s!"credential {entry.id} fingerprint is required"
  if entry.id ∈ seen then throw s!"duplicate credential id {entry.id}"

def validateEntries (seen : List Nat) : List CredentialEntry → Except String Unit
  | [] => .ok ()
  | entry :: entries =>
    match validateEntry seen entry with
    | .error e => .error e
    | .ok () => validateEntries (entry.id :: seen) entries

def validateCredentialEntries (entries : List CredentialEntry) : Except String Unit :=
  validateEntries [] entries

theorem validateEntry_unseen (h : validateEntry seen entry = .ok ()) : entry.id ∉ seen := by
  intro hseen
  simp only [validateEntry, hseen, if_true, bind, Except.bind, throw, throwThe,
    MonadExceptOf.throw, pure, Except.pure] at h
  repeat' split at h
  all_goals cases h

theorem validateEntries_ok (h : validateEntries seen entries = .ok ()) :
    (entries.map (·.id)).Nodup ∧ ∀ entry ∈ entries, entry.id ∉ seen := by
  induction entries generalizing seen with
  | nil => simp
  | cons entry entries ih =>
    unfold validateEntries at h
    split at h
    · cases h
    rename_i hentry
    obtain ⟨hnodup, hunseen⟩ := ih h
    have hfresh : entry.id ∉ entries.map (·.id) := by
      simp only [List.mem_map, not_exists, not_and]
      intro other hother heq
      exact hunseen other hother (by simp [heq])
    refine ⟨by simpa using ⟨by simpa using hfresh, hnodup⟩, ?_⟩
    intro other hother
    rcases List.mem_cons.mp hother with rfl | hother
    · exact validateEntry_unseen hentry
    · exact fun hseen => hunseen other hother (List.mem_cons_of_mem _ hseen)

/-- Accepted entries have different IDs. -/
theorem validateCredentialEntries_nodup (h : validateCredentialEntries entries = .ok ()) :
    (entries.map (·.id)).Nodup :=
  (validateEntries_ok h).1

@[simp] theorem runtimeView_id (entry : CredentialEntry) : (runtimeView entry).id = entry.id := rfl
@[simp] theorem runtimeView_groupID (entry : CredentialEntry) :
    (runtimeView entry).groupID = entry.groupID := rfl
@[simp] theorem runtimeView_identityGeneration (entry : CredentialEntry) :
    (runtimeView entry).identityGeneration = entry.identityGeneration := rfl

end ApiLoad.Registry
