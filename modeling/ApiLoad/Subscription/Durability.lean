import ApiLoad.Subscription.Stranding

/-!
# What a refresh leaves in the database

Whatever fails on the way, the row keeps its secret, or it has the credential with which the
provider answered. The caller gets a credential only if the row has it.
-/
namespace ApiLoad.Subscription
open Foundation Execution Scheduling

/-- The columns that a refresh does not write. -/
def Row.fixed (row : Row) : Nat × Nat × String × String × CredentialStatus × Option Int :=
  (row.id, row.groupID, row.name, row.identityFingerprint, row.status, row.weightManual)

/-- The row has its old secret, and it is called ready only if it was so before. -/
structure Unchanged (row stored : Row) : Prop where
  fixed : stored.fixed = row.fixed
  version : stored.secretVersion = row.secretVersion
  data : stored.data = row.data
  fingerprint : stored.fingerprint = row.fingerprint
  ready : stored.authState = .ready → row.authState = .ready

/-- The row has the secret that the provider gave for the current one. -/
structure Renewed (env : Environment) (row : Row) (current refreshed : Credential) (stored : Row) :
    Prop where
  fixed : stored.fixed = row.fixed
  version : stored.secretVersion = row.secretVersion + 1
  granted : env.refresh current = .ok refreshed
  identity : env.preservesIdentity current refreshed = true
  canonical : refreshed.canonical ≠ ""
  data : env.encrypt refreshed.canonical = some stored.data
  fingerprint : stored.fingerprint = env.hash refreshed.canonical
  state : stored.authState = .ready ∧ stored.authErrorCode = "" ∨
    stored.authState = .outcomeUnknown ∧ stored.authErrorCode = "refresh_registry_mismatch"

/-- The row in the database satisfies a condition. -/
def Stored (P : Row → Prop) (w : World) : Prop := ∃ stored, w.row = some stored ∧ P stored

/-- An attempt has ended without a credential. -/
def Failed (P : Row → Prop) (ended : World × Except ErrorEvidence Credential) : Prop :=
  Stored P ended.1 ∧ ∀ credential, ended.2 ≠ .ok credential

variable {env : Environment} {request : Request} {row : Row} {w w' : World} {P : Row → Prop}
  {current refreshed : Credential}

theorem Stored.of_row_eq (h : Stored P w) (same : w'.row = w.row) : Stored P w' := by
  obtain ⟨stored, found, holds⟩ := h
  exact ⟨stored, same.trans found, holds⟩

/-! ## Transitions -/

theorem reconcileFromDatabase_row (env : Environment) (groupID : Nat) (w : World) :
    (reconcileFromDatabase env groupID w).1.row = w.row := by
  unfold reconcileFromDatabase
  cases buildGroupCredentialEntriesWithProxy env groupID w with
  | error e => rfl
  | ok entries =>
    dsimp only
    split
    · rfl
    · split <;> rfl

theorem ensureRuntimeMatchesDurableSecret_row (env : Environment) (row : Row) (w : World) :
    (ensureRuntimeMatchesDurableSecret env row w).1.row = w.row := by
  unfold ensureRuntimeMatchesDurableSecret
  split
  · rfl
  dsimp only
  -- The repair of the registry leaves the row alone.
  obtain ⟨repaired, hrepaired, same⟩ : ∃ repaired : World,
      (if (w.registry.entryLocked row.id).any (·.version = row.secretVersion) then
        { w with registry :=
            (w.registry.setCredentialAuthState env.clock row.id row.authState.published).1 }
      else w) = repaired ∧ repaired.row = w.row := by
    refine ⟨_, rfl, ?_⟩
    split <;> rfl
  rw [hrepaired]
  split
  · exact same
  have reconciled := reconcileFromDatabase_row env row.groupID repaired
  cases hrun : reconcileFromDatabase env row.groupID repaired with
  | mk w' result =>
    rw [hrun] at reconciled
    cases result <;> exact reconciled.trans same

theorem Stored.update {condition : Row → Bool} {change : Row → Row} (h : Stored P w)
    (allowed : ∀ stored, P stored → condition stored = true → P (change stored)) :
    Stored P (update env condition change w).1 := by
  obtain ⟨stored, found, holds⟩ := h
  cases hmatch : condition stored with
  | false =>
    rw [update_of_mismatch found hmatch]
    exact ⟨stored, found, holds⟩
  | true =>
    rw [update_of_match found hmatch]
    refine ⟨_, rfl, ?_⟩
    split
    · exact holds
    · exact allowed stored holds hmatch

/-- A transition to a state that rows of its version may take. -/
theorem Stored.transition (h : Stored P w) (env : Environment) (other : Row) (version : Nat)
    (a : AuthState) (code : String)
    (allowed : ∀ stored, P stored → stored.secretVersion = version →
      P (stored.withAuthState a code)) :
    Stored P (transitionAuthState env other version a code w).1 := by
  have written : Stored P (setAuthState env other.id version a code w).1 := by
    have updated : Stored P (Subscription.update env
        (fun row => row.id = other.id && row.secretVersion = version)
        (fun row => { row with authState := a, authErrorCode := code }) w).1 :=
      h.update fun stored holds matching =>
        allowed stored holds (of_decide_eq_true (Bool.and_eq_true_iff.mp matching).2)
    unfold setAuthState
    split <;> rename_i hrun <;> rw [hrun] at updated <;> exact updated
  unfold transitionAuthState
  split <;> rename_i hset <;> rw [hset] at written
  · exact written
  unfold publishAuthState
  split
  · exact written
  · exact written.of_row_eq (reconcileFromDatabase_row ..)

theorem Stored.settle (h : Stored P w) (env : Environment) (other : Row) (version : Nat)
    (a : AuthState) (code : String) (evidence : ErrorEvidence)
    (allowed : ∀ stored, P stored → stored.secretVersion = version →
      P (stored.withAuthState a code)) :
    Failed P (settle env other version a code evidence w) := by
  have moved := h.transition env other version a code allowed
  unfold Subscription.settle
  split <;> rename_i hrun <;> rw [hrun] at moved <;> exact ⟨moved, nofun⟩

theorem Stored.abandon (h : Stored P w) (other : Row) (code : String)
    (allowed : ∀ stored, P stored → stored.secretVersion = other.secretVersion →
      P (stored.withAuthState .outcomeUnknown code)) :
    Failed P (abandon env other code w) := by
  have moved := h.transition env other other.secretVersion .outcomeUnknown code allowed
  unfold Subscription.abandon markRefreshOutcomeUnknown
  split <;> rename_i hrun <;> rw [hrun] at moved <;> exact ⟨moved, nofun⟩

/-! ## With the old secret -/

theorem Unchanged.refl (row : Row) : Unchanged row row := ⟨rfl, rfl, rfl, rfl, id⟩

theorem Unchanged.withAuthState (h : Unchanged row stored) (code : String)
    (allowed : a = .ready → row.authState = .ready) :
    Unchanged row (stored.withAuthState a code) :=
  ⟨h.fixed, h.version, h.data, h.fingerprint, allowed⟩

theorem ready_of_restore (h : (refreshRestoreState row).1 = .ready) : row.authState = .ready := by
  unfold refreshRestoreState at h
  cases hrow : row.authState with
  | ready => rfl
  | refreshing | reauthorizationRequired | outcomeUnknown => simp [hrow] at h

theorem ready_of_failure (kind : RefreshFailureKind) (h : (failureState row kind).1 = .ready) :
    row.authState = .ready := by
  unfold failureState at h
  cases kind with
  | identityChanged | reauthorizationRequired => cases h
  | outcomeUnknown | retryable =>
    dsimp only at h
    split at h
    · exact ready_of_restore h
    · cases h

theorem Stored.restoreAfterFailedStart (h : Stored (Unchanged row) w) :
    Failed (Unchanged row) (restoreAfterFailedStart env row w) := by
  have moved := h.transition env row row.secretVersion (refreshRestoreState row).1
    (refreshRestoreState row).2 fun stored old _ => old.withAuthState _ ready_of_restore
  simp only [Subscription.restoreAfterFailedStart]
  split <;> rename_i hrun <;> rw [hrun] at moved <;> exact ⟨moved, nofun⟩

theorem Stored.fail (h : Stored (Unchanged row) w) (failure : RefreshFailureDecision) :
    Failed (Unchanged row) (fail env row failure w) := by
  unfold Subscription.fail
  split
  · unfold retryLater
    dsimp only
    split
    · exact h.settle env row _ _ _ _ fun stored old _ => old.withAuthState _ nofun
    · rename_i registry _ _
      have h : Stored (Unchanged row) { w with registry } := h
      exact h.settle env row _ _ _ _ fun stored old _ => old.withAuthState _ ready_of_restore
  · exact h.settle env row _ _ _ _ fun stored old _ => old.withAuthState _ (ready_of_failure _)

/-! ## With a new secret -/

/-- The commit does nothing, or the row has the new secret. -/
theorem Stored.commit (h : Stored (Unchanged row) w) (granted : env.refresh current = .ok refreshed)
    (identity : env.preservesIdentity current refreshed = true)
    (canonical : refreshed.canonical ≠ "")
    (encrypted : env.encrypt refreshed.canonical = some ciphertext)
    (hrun : commit env row (env.hash refreshed.canonical) ciphertext w = (w', result)) :
    Stored (Unchanged row) w' ∧ result ≠ .ok 1 ∨ Stored (Renewed env row current refreshed) w' := by
  obtain ⟨stored, found, old⟩ := h
  unfold Subscription.commit at hrun
  cases hmatch : (stored.id = row.id && stored.secretVersion = row.secretVersion &&
      stored.authState = .refreshing : Bool) with
  | false =>
    rw [update_of_mismatch found hmatch] at hrun
    cases hrun
    refine .inl ⟨⟨stored, found, old⟩, ?_⟩
    split
    · exact fun h => by cases h
    · exact nofun
  | true =>
    rw [update_of_match found hmatch] at hrun
    cases hrun
    by_cases lost : env.writes w.written = .lost
    · refine .inl ⟨⟨stored, by simp [lost], old⟩, ?_⟩
      simp [lost]
    · refine .inr ⟨_, congrArg some (if_neg lost), ?_⟩
      exact ⟨old.fixed, rfl, granted, identity, canonical, encrypted, rfl, .inl ⟨rfl, rfl⟩⟩

/-- The version has moved on: a mark for the old one finds no row. -/
theorem Stored.abandon_renewed (h : Stored (Renewed env row current refreshed) w) (code : String) :
    Failed (Renewed env row current refreshed) (Subscription.abandon env row code w) :=
  h.abandon row code fun stored new same => absurd same (by rw [new.version]; omega)

theorem clearBypassedCooldown_row (env : Environment) (attempt : Attempt) (w : World) :
    (clearBypassedCooldown env attempt w).row = w.row := by
  unfold clearBypassedCooldown
  split <;> rfl

theorem Stored.publishSecret {attempt : Attempt}
    (h : Stored (Renewed env attempt.row current refreshed) w) (fingerprint ciphertext : String) :
    let ended := publishSecret env attempt refreshed fingerprint ciphertext w
    Stored (Renewed env attempt.row current refreshed) ended.1 ∧
      ∀ credential, ended.2 = .ok credential → credential = refreshed := by
  have reconciled : Stored (Renewed env attempt.row current refreshed)
      (reconcileFromDatabase env attempt.row.groupID w).1 :=
    h.of_row_eq (reconcileFromDatabase_row ..)
  unfold Subscription.publishSecret
  dsimp only
  split
  · exact ⟨h.of_row_eq (clearBypassedCooldown_row ..), fun _ same => by cases same; rfl⟩
  split <;> rename_i hrun <;> rw [hrun] at reconciled
  · obtain ⟨marked, failed⟩ := reconciled.settle env attempt.row (attempt.row.secretVersion + 1)
      .outcomeUnknown "refresh_registry_mismatch" (authEvidence "refresh_registry_mismatch")
      fun stored new _ => { new with state := .inr ⟨rfl, rfl⟩ }
    exact ⟨marked, fun credential same => absurd same (failed credential)⟩
  · exact ⟨reconciled.of_row_eq (clearBypassedCooldown_row ..), fun _ same => by cases same; rfl⟩

/-! ## The attempt -/

/-- The row has its old secret, which is what the caller gets if anything; or it has the new one,
and the caller gets that if anything. -/
def Honest (env : Environment) (request : Request) (row : Row)
    (ended : World × Except ErrorEvidence Credential) : Prop :=
  (Stored (Unchanged row) ended.1 ∧ ∀ credential, ended.2 = .ok credential →
    readCurrent env request (some row) = .ok (row, credential)) ∨
  ∃ current refreshed, readCurrent env request (some row) = .ok (row, current) ∧
    Stored (Renewed env row current refreshed) ended.1 ∧
    ∀ credential, ended.2 = .ok credential → credential = refreshed

theorem Failed.honest (h : Failed (Unchanged row) ended) : Honest env request row ended :=
  .inl ⟨h.1, fun credential same => absurd same (h.2 credential)⟩

theorem Stored.persist {attempt : Attempt} (h : Stored (Unchanged attempt.row) w)
    (read : readCurrent env request (some attempt.row) = .ok (attempt.row, attempt.current))
    (granted : env.refresh attempt.current = .ok refreshed)
    (identity : env.preservesIdentity attempt.current refreshed = true) :
    Honest env request attempt.row (persist env attempt refreshed w) := by
  have abandoned {w : World} (h : Stored (Unchanged attempt.row) w) (code : String) :
      Honest env request attempt.row (Subscription.abandon env attempt.row code w) :=
    (h.abandon attempt.row code fun stored old _ => old.withAuthState _ nofun).honest
  unfold Subscription.persist
  split
  · exact abandoned h _
  rename_i canonical
  split
  · exact abandoned h _
  rename_i ciphertext encrypted
  dsimp only
  split <;> rename_i hrun <;>
    obtain ⟨unchanged, failed⟩ | renewed := h.commit granted identity canonical encrypted hrun
  · exact absurd rfl failed
  · exact .inr ⟨_, _, read, renewed.publishSecret ..⟩
  · exact abandoned unchanged _
  · obtain ⟨stored, failed⟩ := renewed.abandon_renewed "refresh_commit_failed"
    exact .inr ⟨_, _, read, stored, fun credential same => absurd same (failed credential)⟩

theorem Stored.finish {attempt : Attempt} (h : Stored (Unchanged attempt.row) w)
    (read : readCurrent env request (some attempt.row) = .ok (attempt.row, attempt.current)) :
    Honest env request attempt.row (finish env attempt w) := by
  unfold Subscription.finish
  cases granted : env.refresh attempt.current with
  | error failure => exact (h.fail failure).honest
  | ok refreshed =>
    cases identity : env.preservesIdentity attempt.current refreshed with
    | false =>
      simp only [identity, Bool.not_false, if_true]
      exact (h.settle env attempt.row _ .reauthorizationRequired _ _ fun stored old _ =>
        old.withAuthState _ nofun).honest
    | true =>
      simp only [identity, Bool.not_true, Bool.false_eq_true, if_false]
      exact h.persist read granted identity

/-- The first half ends the attempt, or it goes on for the row and the credential that were read. -/
def Begun (env : Environment) (request : Request) (row : Row) (began : World × Progress) : Prop :=
  match began.2 with
  | .returned result => Honest env request row (began.1, result)
  | .refreshing attempt => Stored (Unchanged row) began.1 ∧ attempt.row = row ∧
    readCurrent env request (some row) = .ok (row, attempt.current)

theorem Stored.startRefreshing (h : Stored (Unchanged row) w) (bypassed : Time)
    (read : readCurrent env request (some row) = .ok (row, current)) :
    Begun env request row (startRefreshing env ⟨row, current, bypassed⟩ w) := by
  have moved := h.transition env row row.secretVersion .refreshing "" fun stored old _ =>
    old.withAuthState _ nofun
  unfold Subscription.startRefreshing
  split <;> rename_i hrun <;> rw [hrun] at moved
  · exact moved.restoreAfterFailedStart.honest
  · exact ⟨moved, rfl, read⟩

theorem begun_start (found : w.row = some row) : Begun env request row (start env request w) := by
  have h : Stored (Unchanged row) w := ⟨row, found, .refl row⟩
  unfold start
  rw [found]
  cases read : readCurrent env request (some row) with
  | error e => exact Failed.honest ⟨h, nofun⟩
  | ok pair =>
    obtain ⟨read', current⟩ := pair
    cases readCurrent_ok read
    dsimp only
    split
    · -- Somebody else has refreshed the credential already.
      have same := ensureRuntimeMatchesDurableSecret_row env row w
      split <;> rename_i hrun <;> rw [hrun] at same
      · exact Failed.honest ⟨h.of_row_eq same, nofun⟩
      · exact .inl ⟨h.of_row_eq same, fun _ same => by cases same; exact read⟩
    split
    · exact .inl ⟨h, fun _ same => by cases same; exact read⟩
    split
    · split
      · exact Failed.honest ⟨h, nofun⟩
      · exact h.startRefreshing 0 read
    · exact h.startRefreshing _ read

/-- An attempt to refresh a credential, with any answers of the database, the registry and the
provider, leaves the row with its old secret, or with the one that the provider gave for it. A row
that was not ready is not called ready with the old secret, and the caller gets only the credential
that the row has. -/
theorem refresh_keeps_row_honest (env : Environment) (request : Request) (row : Row) (w : World) :
    Honest env request row (refreshCredentialLocked env request { w with row := some row }) := by
  have begun : Begun env request row (start env request { w with row := some row }) :=
    begun_start rfl
  unfold refreshCredentialLocked
  cases hstart : start env request { w with row := some row } with
  | mk w' progress =>
    rw [hstart] at begun
    cases progress with
    | returned result => exact begun
    | refreshing attempt =>
      obtain ⟨stored, rfl, read⟩ := begun
      exact stored.finish read

/-- A refresh in which everything works, by way of the theorem. -/
theorem refresh_renews_sample :
    Stored (Renewed (sampleEnvironment 2) sampleRow { canonical := "old" } { canonical := "new" })
      (refreshCredentialLocked (sampleEnvironment 2) sampleRequest sampleWorld).1 := by
  have evaluated : ((refreshCredentialLocked (sampleEnvironment 2) sampleRequest
      sampleWorld).1.row.map (·.secretVersion)) = some 2 := by decide +kernel
  obtain ⟨⟨stored, found, old⟩, -⟩ | ⟨current, refreshed, read, stored, -⟩ :=
    refresh_keeps_row_honest (sampleEnvironment 2) sampleRequest sampleRow sampleWorld
  · have : (some stored).map (·.secretVersion) = some 2 := found ▸ evaluated
    have version := old.version
    simp_all [sampleRow]
  · cases read
    obtain ⟨_, _, renewed⟩ := id stored
    cases renewed.granted
    exact stored

end ApiLoad.Subscription
