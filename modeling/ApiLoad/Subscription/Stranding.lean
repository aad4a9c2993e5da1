import ApiLoad.Registry.Single
import ApiLoad.Subscription.Refresh

/-!
# What a refresh leaves in the registry

A refresh publishes the state refreshing before it calls the provider and replaces it on every way
out, with two exceptions. If the provider's credential could not be saved and the write that records
this fails as well, nobody touches the registry any more. And if the registry has the new secret
already, the reconciliation after the commit keeps its entry, which is refreshing.
-/
namespace ApiLoad.Subscription
open Foundation Text Execution Registry Scheduling AuthState

variable {env : Environment} {request : Request} {row stored : Row} {w w' : World} {version : Nat}
  {authState : AuthState} {code : String}

/-- The registry does not show the credential as being refreshed. -/
def Settled (id : Nat) (r : CredentialRegistry) : Prop :=
  ∀ entry, r.entryLocked id = some entry → entry.authState ≠ .refreshing

@[simp] theorem normalize_published : normalize authState.published = authState.published := by
  cases authState <;> rfl

@[simp] theorem validAuthState_published : validAuthState authState.published = true := by
  cases authState <;> rfl

theorem version_of_same {entry listed : CredentialEntry}
    (h : samePersistedCredentialConfig entry listed = true) : entry.version = listed.version := by
  simp only [samePersistedCredentialConfig, Bool.and_eq_true, decide_eq_true_eq] at h
  exact h.1.1.1.1.1.1.1.2

theorem published_ne_refreshing (h : authState ≠ .refreshing) :
    authState.published ≠ .refreshing := by
  cases authState <;> simp_all [published]

/-! ## The operations on the registry -/

section Operations

variable {r : CredentialRegistry} {clock : Clock} {id : Nat} {entry : CredentialEntry}

/-- The call finds the entry and sets its state, or there is no entry. -/
theorem setCredentialAuthState_spec (r : CredentialRegistry) (clock : Clock) (id : Nat)
    (authState : AuthState) :
    (∃ r' entry entry', r.setCredentialAuthState clock id authState.published = (r', true) ∧
        r.entryLocked id = some entry ∧ r'.entryLocked id = some entry' ∧
        entry'.authState = authState.published ∧
        samePersistedCredentialConfig entry' = samePersistedCredentialConfig entry ∧
        r'.credentialGroups = r.credentialGroups) ∨
      r.entryLocked id = none ∧
        r.setCredentialAuthState clock id authState.published = (r, false) := by
  unfold CredentialRegistry.setCredentialAuthState
  simp only [validAuthState_published, Bool.not_true, Bool.false_eq_true, if_false,
    normalize_published]
  cases hchanged : r.changeEntry clock true id _ with
  | none =>
    refine .inr ⟨?_, rfl⟩
    rw [Option.eq_none_iff_forall_not_mem]
    intro entry hentry
    have := changeEntry_eq_none hchanged entry hentry
    split at this <;> cases this
  | some r' =>
    obtain ⟨entry, entry', hentry, hchange, hentry'⟩ := entryLocked_changeEntry hchanged
    refine .inl ⟨r', entry, entry', rfl, hentry, hentry', ?_⟩
    split at hchange <;> cases hchange <;>
      exact ⟨rfl, rfl, credentialGroups_changeEntry hchanged⟩

theorem settled_iff_of_present (present : r.entryLocked id = some entry) :
    Settled id r ↔ entry.authState ≠ .refreshing := by
  refine ⟨fun settled => settled entry present, fun state other hother => ?_⟩
  cases present.symm.trans hother
  exact state

theorem settled_clearCooldownIfMatch (r : CredentialRegistry) (clock : Clock) (id : Nat)
    (expected : Time) :
    Settled id (r.clearCooldownIfMatch clock id expected).1 ↔ Settled id r := by
  unfold CredentialRegistry.clearCooldownIfMatch
  split
  · exact Iff.rfl
  obtain hsame | ⟨entry, entry', hentry, hchange, hentry'⟩ := @entryLocked_orUnchanged r clock id
    true fun entry =>
      if entry.cooldownUntil ≠ expected then none else some { entry with cooldownUntil := 0 }
  · unfold Settled
    rw [hsame]
  rw [settled_iff_of_present hentry', settled_iff_of_present hentry]
  split at hchange <;> cases hchange
  exact Iff.rfl

/-- A secret is replaced if the registry has the expected version; it is ready then. -/
theorem replaceCredentialSecretIfMatch_true {expectedVersion nextVersion : Nat}
    {fingerprint encryptedValue : String}
    (h : (r.replaceCredentialSecretIfMatch clock id expectedVersion nextVersion fingerprint
      encryptedValue).2 = true) :
    Settled id (r.replaceCredentialSecretIfMatch clock id expectedVersion nextVersion fingerprint
      encryptedValue).1 ∧
      ∃ entry, r.entryLocked id = some entry ∧ entry.version = expectedVersion := by
  unfold CredentialRegistry.replaceCredentialSecretIfMatch at h ⊢
  split at h
  · cases h
  rename_i hguard
  rw [if_neg hguard]
  cases hchanged : r.changeEntry clock false id _ with
  | none =>
    rw [hchanged] at h
    cases h
  | some r' =>
    obtain ⟨entry, entry', hentry, hchange, hentry'⟩ := entryLocked_changeEntry hchanged
    split at hchange
    · cases hchange
    rename_i hversion
    cases hchange
    exact ⟨(settled_iff_of_present hentry').mpr (by simp), entry, hentry, not_not.mp hversion⟩

end Operations

/-! ## Writes and reconciliation -/

variable {result : Except String Unit}

theorem settled_forceOutcomeUnknown (env : Environment) (row : Row) (w : World) :
    Settled row.id (forceOutcomeUnknown env row w).registry := by
  intro other hother
  obtain ⟨r', entry, entry', hset, -, hentry', hstate, -, -⟩ | ⟨hnone, hset⟩ :=
    setCredentialAuthState_spec w.registry env.clock row.id .outcomeUnknown
  · rw [forceOutcomeUnknown, show CredentialAuthState.outcomeUnknown =
      outcomeUnknown.published from rfl, hset] at hother
    cases hentry'.symm.trans hother
    simp [hstate, published]
  rw [forceOutcomeUnknown, show CredentialAuthState.outcomeUnknown =
    outcomeUnknown.published from rfl, hset] at hother
  cases hnone.symm.trans hother

/-- The row under refresh is still the stored one. -/
structure Holds (w : World) (row stored : Row) : Prop where
  found : w.row = some stored
  id : stored.id = row.id
  groupID : stored.groupID = row.groupID
  coherent : Coherent w.registry

/-- The credentials of the group as a load finds them. -/
def listing (load : Load) (row : Row) : List CredentialEntry :=
  load.before ++ mapCredential load row :: load.after

/-- A reconciliation of the group goes through: it is loaded, the registry accepts what is listed,
and the hook is there. -/
structure Loadable (env : Environment) (w : World) (row : Row) (load : Load) : Prop where
  groupID : row.groupID ≠ 0
  loads : env.loads w.loaded = some load
  valid : validateCredentialEntries (listing load row) = .ok ()
  members : ∀ entry ∈ listing load row, entry.groupID = row.groupID
  owned : ∀ entry ∈ listing load row, ∀ g,
    w.registry.credentialGroups[entry.id]? = some g → g = row.groupID
  reconciles : env.reconciles w.reconciled = true

theorem listing_eq (found : w.row = some stored) (groupID : stored.groupID = g) (load : Load) :
    load.before ++ (w.row.filter (·.groupID = g)).toList.map (mapCredential load) ++ load.after =
      listing load stored := by
  have matching : w.row.filter (·.groupID = g) = some stored := by
    rw [found, Option.filter_some, if_pos (by simpa using groupID)]
  simp [matching, listing]

/-- What a reconciliation from the database leaves of the credential. -/
theorem Holds.reconcileFromDatabase (h : Holds w row stored)
    (hrun : reconcileFromDatabase env row.groupID w = (w', result)) :
    Holds w' row stored ∧ w'.written = w.written ∧
      match result with
      | .error _ => w'.registry = w.registry ∧ ∀ load, ¬ Loadable env w stored load
      | .ok () => ∃ load entry, Loadable env w stored load ∧
          w'.registry.entryLocked row.id = some entry ∧
          entry.version = credentialVersion stored.secretVersion ∧
          entry.authState =
            reconciledAuthState (w.registry.entryLocked row.id) (mapCredential load stored) := by
  have hgroup := h.groupID
  simp only [Subscription.reconcileFromDatabase, buildGroupCredentialEntriesWithProxy,
    listing_eq h.found hgroup] at hrun
  by_cases hzero : row.groupID = 0
  · simp only [hzero, if_true] at hrun
    cases hrun
    exact ⟨⟨h.found, h.id, hgroup, h.coherent⟩, rfl, rfl, fun load can =>
      can.groupID (hgroup.trans hzero)⟩
  simp only [hzero, if_false] at hrun
  cases hloads : env.loads w.loaded with
  | none =>
    simp only [hloads] at hrun
    cases hrun
    exact ⟨⟨h.found, h.id, hgroup, h.coherent⟩, rfl, rfl, fun load can =>
      nomatch hloads.symm.trans can.loads⟩
  | some load =>
  have sameLoad : ∀ other, Loadable env w stored other → other = load := fun other can =>
    Option.some.inj (can.loads.symm.trans hloads)
  cases hvalid : validateCredentialEntries (listing load stored) with
  | error e =>
    simp only [hloads, hvalid] at hrun
    cases hrun
    refine ⟨⟨h.found, h.id, hgroup, h.coherent⟩, rfl, rfl, fun other can => ?_⟩
    cases sameLoad other can
    cases hvalid.symm.trans can.valid
  | ok =>
  simp only [hloads, hvalid] at hrun
  cases hhook : env.reconciles w.reconciled with
  | false =>
    simp only [hhook, Bool.not_false, if_true] at hrun
    cases hrun
    exact ⟨⟨h.found, h.id, hgroup, h.coherent⟩, rfl, rfl, fun other can =>
      nomatch hhook.symm.trans can.reconciles⟩
  | true =>
  simp only [hhook, Bool.not_true, Bool.false_eq_true, if_false] at hrun
  have accepted := @reconcileGroup_ok_iff w.registry env.clock row.groupID (listing load stored)
  cases hreconcile : w.registry.reconcileGroup env.clock row.groupID (listing load stored) with
  | mk registry outcome =>
  cases outcome with
  | error e =>
    simp only [hreconcile] at hrun
    cases hrun
    refine ⟨⟨h.found, h.id, hgroup, h.coherent⟩, rfl, rfl, fun other can => ?_⟩
    cases sameLoad other can
    obtain ⟨r', changed, hok⟩ := accepted.mpr
      ⟨hzero, hvalid, hgroup ▸ can.members, hgroup ▸ can.owned⟩
    cases hreconcile.symm.trans hok
  | ok changed =>
    simp only [hreconcile] at hrun
    cases hrun
    obtain ⟨-, -, members, owned⟩ := accepted.mp ⟨registry, changed, hreconcile⟩
    have hcoherent' : Coherent registry := by
      have := h.coherent.perform env.clock (.reconcileGroup row.groupID (listing load stored))
      rwa [Call.perform, hreconcile] at this
    have hlisted : mapCredential load stored ∈ listing load stored := by simp [listing]
    obtain ⟨entry, hentry, hversion, hstate⟩ := h.coherent.reconcileGroup_listed hreconcile hlisted
    rw [show (mapCredential load stored).id = row.id from h.id] at hentry hstate
    exact ⟨⟨h.found, h.id, hgroup, hcoherent'⟩, rfl, load, entry,
      ⟨hgroup ▸ hzero, hloads, hvalid, hgroup ▸ members, hgroup ▸ owned, hhook⟩,
      hentry, hversion, hstate⟩

section Update

variable {condition : Row → Bool} {change : Row → Row}

theorem update_of_match (hstored : w.row = some stored) (hmatch : condition stored = true) :
    update env condition change w =
      ({ w with
          row := some (if env.writes w.written = .lost then stored else change stored)
          written := w.written + 1 },
        if env.writes w.written = .done then .ok 1 else .error env.databaseError) := by
  unfold update
  simp only [hstored, Option.map_some, hmatch, if_true, Option.filter_some, Option.toList_some,
    List.length_singleton]
  split <;> rfl

theorem update_of_mismatch (hstored : w.row = some stored) (hmatch : condition stored = false) :
    update env condition change w =
      ({ w with written := w.written + 1 },
        if env.writes w.written = .done then .ok 0 else .error env.databaseError) := by
  unfold update
  simp [hstored, hmatch, Option.filter]

end Update

abbrev Row.withAuthState (row : Row) (authState : AuthState) (code : String) : Row :=
  { row with authState, authErrorCode := code }

/-- The write of a state is applied and reported, or it reports an error. -/
theorem Holds.setAuthState (h : Holds w row stored)
    (hrun : setAuthState env row.id version authState code w = (w', result)) :
    w'.written = w.written + 1 ∧ w'.registry = w.registry ∧ w'.loaded = w.loaded ∧
      w'.reconciled = w.reconciled ∧
      ((result = .ok () ∧ env.writes w.written = .done ∧ stored.secretVersion = version ∧
          Holds w' row (stored.withAuthState authState code)) ∨
        ∃ e stored', result = .error e ∧
          (env.writes w.written ≠ .done ∨ stored.secretVersion ≠ version) ∧
            Holds w' row stored') := by
  obtain ⟨hstored, hid, hgroup, hcoherent⟩ := h
  unfold Subscription.setAuthState at hrun
  by_cases hversion : stored.secretVersion = version
  · rw [update_of_match hstored (by simp [hid, hversion])] at hrun
    cases houtcome : env.writes w.written with
    | done =>
      simp only [houtcome] at hrun
      cases hrun
      exact ⟨rfl, rfl, rfl, rfl, .inl ⟨rfl, rfl, hversion, rfl, hid, hgroup, hcoherent⟩⟩
    | lost =>
      simp only [houtcome] at hrun
      cases hrun
      exact ⟨rfl, rfl, rfl, rfl, .inr ⟨_, stored, rfl, .inl nofun, rfl, hid, hgroup, hcoherent⟩⟩
    | unreported =>
      simp only [houtcome] at hrun
      cases hrun
      exact ⟨rfl, rfl, rfl, rfl,
        .inr ⟨_, stored.withAuthState authState code, rfl, .inl nofun, rfl, hid,
        hgroup, hcoherent⟩⟩
  · -- No row has that version: whatever the outcome, nothing changes and an error comes back.
    rw [update_of_mismatch hstored (by simp [hversion])] at hrun
    cases houtcome : env.writes w.written <;> simp only [houtcome] at hrun <;> cases hrun <;>
    exact ⟨rfl, rfl, rfl, rfl,
      .inr ⟨_, stored, rfl, .inr hversion, hstored, hid, hgroup, hcoherent⟩⟩

/-- The ways in which a transition can end. -/
inductive Transitioned (env : Environment) (row stored : Row) (version : Nat)
    (authState : AuthState)
    (code : String) (w : World) : World → Except String Unit → Prop
  | refused {w' : World} {stored' : Row} {e : String}
      (failed : env.writes w.written ≠ .done ∨ stored.secretVersion ≠ version)
      (holds : Holds w' row stored') (registry : w'.registry = w.registry) :
      Transitioned env row stored version authState code w w' (.error e)
  | unpublished {w' : World} {e : String} (applied : env.writes w.written = .done)
      (current : stored.secretVersion = version)
      (holds : Holds w' row (stored.withAuthState authState code))
      (absent : w.registry.entryLocked row.id = none) (registry : w'.registry = w.registry)
      (missing : ∀ load, ¬ Loadable env w (stored.withAuthState authState code) load) :
      Transitioned env row stored version authState code w w' (.error e)
  | published {w' : World} {existing entry : CredentialEntry}
      (applied : env.writes w.written = .done) (current : stored.secretVersion = version)
      (holds : Holds w' row (stored.withAuthState authState code))
      (existed : w.registry.entryLocked row.id = some existing)
      (present : w'.registry.entryLocked row.id = some entry)
      (state : entry.authState = authState.published)
      (same : samePersistedCredentialConfig entry = samePersistedCredentialConfig existing)
      (groups : w'.registry.credentialGroups = w.registry.credentialGroups)
      (loaded : w'.loaded = w.loaded) (reconciled : w'.reconciled = w.reconciled) :
      Transitioned env row stored version authState code w w' (.ok ())
  | loaded {w' : World} {entry : CredentialEntry} {load : Load}
      (applied : env.writes w.written = .done) (current : stored.secretVersion = version)
      (holds : Holds w' row (stored.withAuthState authState code))
      (absent : w.registry.entryLocked row.id = none)
      (found : Loadable env w (stored.withAuthState authState code) load)
      (present : w'.registry.entryLocked row.id = some entry)
      (state : entry.authState = authState.published)
      (loadedVersion : entry.version = credentialVersion version) :
      Transitioned env row stored version authState code w w' (.ok ())

theorem Holds.transition (h : Holds w row stored)
    (hrun : transitionAuthState env row version authState code w = (w', result)) :
    w'.written = w.written + 1 ∧
      Transitioned env row stored version authState code w w' result := by
  unfold transitionAuthState at hrun
  cases hset : Subscription.setAuthState env row.id version authState code w with
  | mk w₁ written =>
    obtain ⟨hcount, hregistry, hloaded, hreconciled,
      ⟨rfl, hdone, hversion, hholds⟩ | ⟨e, stored', rfl, hfailed, hholds⟩⟩ := h.setAuthState hset
    · simp only [hset, publishAuthState] at hrun
      obtain ⟨r', entry, entry', hpublish, hentry, hentry', hstate, hsame, hgroups⟩ |
        ⟨hnone, hpublish⟩ := setCredentialAuthState_spec w₁.registry env.clock row.id authState
      · simp only [hpublish] at hrun
        cases hrun
        have hcoherent := hholds.coherent.perform env.clock
          (.setCredentialAuthState row.id authState.published)
        rw [Call.perform, hpublish] at hcoherent
        exact ⟨hcount, .published hdone hversion
          ⟨hholds.found, hholds.id, hholds.groupID, hcoherent⟩ (hregistry ▸ hentry) hentry' hstate
          hsame (hregistry ▸ hgroups) hloaded hreconciled⟩
      · simp only [hpublish] at hrun
        obtain ⟨hholds', hcount', hresult⟩ := hholds.reconcileFromDatabase hrun
        -- The write does not matter to what can be loaded.
        have loadable {row : Row} {load : Load} :
            Loadable env w₁ row load ↔ Loadable env w row load := by
          constructor <;> rintro ⟨groupID, loads, valid, members, owned, reconciles⟩
          · exact ⟨groupID, hloaded ▸ loads, valid, members, hregistry ▸ owned,
              hreconciled ▸ reconciles⟩
          · exact ⟨groupID, hloaded.symm ▸ loads, valid, members, hregistry.symm ▸ owned,
              hreconciled.symm ▸ reconciles⟩
        refine ⟨hcount'.trans hcount, ?_⟩
        cases result with
        | error e =>
          exact .unpublished hdone hversion hholds' (hregistry ▸ hnone)
            (hresult.1.trans hregistry) fun load can => hresult.2 load (loadable.mpr can)
        | ok u =>
          -- The registry had no entry, so it has the one of the database now.
          obtain ⟨load, entry, can, hentry, hloadedVersion, hstate⟩ := hresult
          rw [hnone] at hstate
          exact .loaded hdone hversion hholds' (hregistry ▸ hnone) (loadable.mp can) hentry hstate
            (hversion ▸ hloadedVersion)
    · simp only [hset] at hrun
      cases hrun
      exact ⟨hcount, .refused hfailed hholds hregistry⟩

/-! ## The ways out -/

variable {entry : CredentialEntry} {attempt : Attempt} {refreshed : Credential}

theorem settled_of_present {id : Nat} {r : CredentialRegistry}
    (present : r.entryLocked id = some entry) (state : entry.authState ≠ .refreshing) :
    Settled id r :=
  (settled_iff_of_present present).mpr state

theorem Holds.settled_transition (h : Holds w row stored) (hstate : authState ≠ .refreshing)
    (hrun : transitionAuthState env row version authState code w = (w', .ok ())) :
    Settled row.id w'.registry := by
  obtain ⟨-, htransition⟩ := h.transition hrun
  cases htransition with
  | published _ _ _ _ present state | loaded _ _ _ _ _ present state =>
    exact settled_of_present present (state ▸ published_ne_refreshing hstate)

/-- A transition with its fallback leaves the credential settled, however it ends. -/
theorem Holds.settle (h : Holds w row stored) (hstate : authState ≠ .refreshing)
    (evidence : ErrorEvidence) :
    Settled row.id (settle env row version authState code evidence w).1.registry := by
  unfold Subscription.settle
  split
  · exact settled_forceOutcomeUnknown env row _
  · exact h.settled_transition hstate ‹_›

theorem refreshRestoreState_ne_refreshing (row : Row) :
    (refreshRestoreState row).1 ≠ .refreshing := by
  unfold refreshRestoreState
  split
  · exact nofun
  · exact nofun
  · assumption

/-- If the refresh could not start, the state before it, or none that says refreshing, is there. -/
theorem Holds.restoreAfterFailedStart (h : Holds w row stored) :
    Settled row.id (restoreAfterFailedStart env row w).1.registry := by
  unfold Subscription.restoreAfterFailedStart
  dsimp only
  split
  · exact settled_forceOutcomeUnknown env row _
  · exact h.settled_transition (refreshRestoreState_ne_refreshing row) ‹_›

theorem Holds.retryLater (h : Holds w row stored) (failure : RefreshFailureDecision) :
    Settled row.id (retryLater env row failure w).1.registry := by
  unfold Subscription.retryLater
  dsimp only
  split
  · exact h.settle (show outcomeUnknown ≠ .refreshing by decide) _
  rename_i registry changed hcooled
  have hcoherent : Coherent (registry, true, changed).1 := by
    rw [← hcooled]
    exact h.coherent.perform env.clock (.setCooldownWithChange row.id _)
  have hholds : Holds { w with registry } row stored := ⟨h.found, h.id, h.groupID, hcoherent⟩
  exact hholds.settle (refreshRestoreState_ne_refreshing row) _

theorem failureState_ne_refreshing (row : Row) (kind : RefreshFailureKind) :
    (failureState row kind).1 ≠ .refreshing := by
  unfold failureState
  split
  · exact nofun
  · exact nofun
  dsimp only
  split
  · exact refreshRestoreState_ne_refreshing row
  · exact nofun

theorem Holds.fail (h : Holds w row stored) (failure : RefreshFailureDecision) :
    Settled row.id (fail env row failure w).1.registry := by
  unfold Subscription.fail
  split
  · exact h.retryLater failure
  · exact h.settle (failureState_ne_refreshing row failure.kind) _

theorem settled_clearBypassedCooldown :
    Settled attempt.row.id (clearBypassedCooldown env attempt w).registry ↔
      Settled attempt.row.id w.registry := by
  unfold Subscription.clearBypassedCooldown
  split
  · exact Iff.rfl
  · exact settled_clearCooldownIfMatch ..

/-- A durable secret reaches the registry, or the credential is marked, unless a reconciliation
keeps an entry that has the secret already. -/
theorem Holds.publishSecret {fingerprint ciphertext : String} (h : Holds w attempt.row stored)
    (hversion : stored.secretVersion = attempt.row.secretVersion + 1)
    (hready : stored.authState = .ready)
    (present : w.registry.entryLocked attempt.row.id = some entry)
    (state : entry.authState = .refreshing) :
    Settled attempt.row.id
        (publishSecret env attempt refreshed fingerprint ciphertext w).1.registry ↔
      ¬ ∃ load, Loadable env w stored load ∧
        samePersistedCredentialConfig entry (mapCredential load stored) = true := by
  unfold Subscription.publishSecret
  dsimp only
  split
  · rename_i hreplaced
    obtain ⟨settled, entry', present', old⟩ :=
      replaceCredentialSecretIfMatch_true (Bool.and_eq_true _ _ ▸ hreplaced).2
    cases present.symm.trans present'
    refine ⟨fun _ ⟨load, _, same⟩ => ?_, fun _ => settled_clearBypassedCooldown.mpr settled⟩
    -- The entry has the old version.
    have next := version_of_same same
    simp [mapCredential, credentialVersion, hversion, old] at next
  cases hrun : Subscription.reconcileFromDatabase env attempt.row.groupID w with
  | mk w' result =>
    obtain ⟨hholds, -, hresult⟩ := h.reconcileFromDatabase hrun
    cases result with
    | error e =>
      refine ⟨fun _ ⟨load, can, _⟩ => hresult.2 load can, fun _ => ?_⟩
      exact hholds.settle (show outcomeUnknown ≠ .refreshing by decide) _
    | ok u =>
      obtain ⟨load, reconciled, can, hentry, -, hstate⟩ := hresult
      rw [present, reconciledAuthState] at hstate
      refine settled_clearBypassedCooldown.trans ?_
      rw [settled_iff_of_present hentry, hstate, not_iff_not]
      constructor
      · intro stays
        by_contra none
        rw [if_neg fun same => none ⟨load, can, same⟩] at stays
        simp [mapCredential, hready, published] at stays
      · rintro ⟨other, can', same⟩
        cases Option.some.inj (can'.loads.symm.trans can.loads)
        rw [if_pos same, state]

/-- The attempt could not save a credential: it is settled exactly if the mark could be written. -/
theorem Holds.abandon (h : Holds w row stored) (hentry : w.registry.entryLocked row.id = some entry)
    (hstate : entry.authState = .refreshing) :
    Settled row.id (abandon env row code w).1.registry ↔
      env.writes w.written = .done ∧ stored.secretVersion = row.secretVersion := by
  unfold Subscription.abandon
  cases hrun : markRefreshOutcomeUnknown env row row.secretVersion code w with
  | mk w' result =>
    obtain ⟨-, htransition⟩ := h.transition hrun
    cases htransition with
    | refused failed _ registry =>
      refine ⟨fun settled => ?_, fun ⟨done, same⟩ => ?_⟩
      · exact absurd hstate (settled entry (registry ▸ hentry))
      · exact (failed.elim (· done) (· same)).elim
    | unpublished _ _ _ absent | loaded _ _ _ absent => cases absent.symm.trans hentry
    | published applied current _ _ present state =>
      refine ⟨fun _ => ⟨applied, current⟩, fun _ => settled_of_present present ?_⟩
      simp [state, published]

/-! ## The first half -/

/-- The checks before any change let a row with its credential pass. -/
structure Selected (env : Environment) (request : Request) (stored : Option Row) (row : Row)
    (current : Credential) : Prop where
  found : env.found = true
  stored : stored = some row
  target : ∃ group, env.group row.groupID = some group ∧ group.channelID = request.channelID ∧
    group.connectionType = connectionTypeSubscription ∧
    env.identityGeneration row.identityFingerprint group = request.expectedIdentityGeneration
  usable : row.authState = .ready ∨ request.allowRecovery = true
  secret : (env.decrypt row.data).bind env.parse = some current

theorem readCurrent_eq_ok_iff {stored : Option Row} {current : Credential} :
    readCurrent env request stored = .ok (row, current) ↔
      Selected env request stored row current := by
  constructor
  · intro h
    unfold readCurrent at h
    split at h
    · cases h
    rename_i found hfound
    split at h
    · cases h
    rename_i group hgroup
    split at h
    · cases h
    rename_i hchannel
    split at h
    · cases h
    rename_i hidentity
    split at h
    · cases h
    rename_i husable
    split at h
    · cases h
    rename_i plaintext hdecrypt
    split at h
    · cases h
    rename_i hparse
    cases h
    split at hfound
    swap
    · cases hfound
    simp only [not_or, not_not] at hchannel hidentity
    refine ⟨‹_›, hfound, ⟨group, hgroup, hchannel.1, hchannel.2, hidentity⟩, ?_,
      by simp [hdecrypt, hparse]⟩
    by_cases hready : row.authState = .ready
    · exact .inl hready
    · exact .inr (by simpa [hready] using husable)
  · rintro ⟨found, rfl, ⟨group, hgroup, channel, connection, identity⟩, usable, secret⟩
    obtain ⟨plaintext, hdecrypt, hparse⟩ := Option.bind_eq_some_iff.mp secret
    simpa [readCurrent, found, hgroup, channel, connection, identity, hdecrypt, hparse] using
      usable.resolve_left

theorem readCurrent_ok {stored : Option Row} {current : Credential}
    (h : readCurrent env request stored = .ok (row, current)) : stored = some row :=
  (readCurrent_eq_ok_iff.mp h).stored

/-- The registry is set to the state of the row. -/
theorem Holds.setRegistry (h : Holds w row stored) (hsettled : Settled row.id w.registry)
    (hstate : authState ≠ .refreshing) :
    let registry := (w.registry.setCredentialAuthState env.clock row.id authState.published).1
    Holds { w with registry } row stored ∧ Settled row.id registry := by
  refine ⟨⟨h.found, h.id, h.groupID, h.coherent.perform _ (.setCredentialAuthState _ _)⟩, ?_⟩
  obtain ⟨r', entry, entry', hset, -, hentry', hpublished, -, -⟩ | ⟨hnone, hset⟩ :=
    setCredentialAuthState_spec w.registry env.clock row.id authState
  · rw [hset]
    exact settled_of_present hentry' (hpublished ▸ published_ne_refreshing hstate)
  · rw [hset]
    exact hsettled

theorem Holds.settled_reconcileFromDatabase (h : Holds w row stored)
    (hstored : stored.authState ≠ .refreshing) (hsettled : Settled row.id w.registry)
    (hrun : Subscription.reconcileFromDatabase env row.groupID w = (w', result)) :
    Settled row.id w'.registry := by
  obtain ⟨-, -, hresult⟩ := h.reconcileFromDatabase hrun
  cases result with
  | error e => exact hresult.1 ▸ hsettled
  | ok u =>
    obtain ⟨load, entry, -, hentry, -, hstate⟩ := hresult
    refine settled_of_present hentry (hstate ▸ ?_)
    have listed : (mapCredential load stored).authState ≠ .refreshing :=
      published_ne_refreshing hstored
    unfold reconciledAuthState
    split
    · rename_i existing hexisting
      split
      · exact hsettled existing hexisting
      · exact listed
    · exact listed

/-- The registry is repaired from a row that is not being refreshed. -/
theorem Holds.ensureRuntimeMatchesDurableSecret (h : Holds w row stored)
    (hrow : row.authState ≠ .refreshing) (hstored : stored.authState ≠ .refreshing)
    (hsettled : Settled row.id w.registry) :
    Settled row.id (ensureRuntimeMatchesDurableSecret env row w).1.registry := by
  unfold Subscription.ensureRuntimeMatchesDurableSecret
  split
  · exact hsettled
  dsimp only
  -- The registry before the reconciliation.
  obtain ⟨repaired, hrepaired, hholds, hsettled'⟩ : ∃ repaired : World,
      (if (w.registry.entryLocked row.id).any (·.version = row.secretVersion) then
        { w with registry :=
            (w.registry.setCredentialAuthState env.clock row.id row.authState.published).1 }
      else w) = repaired ∧ Holds repaired row stored ∧ Settled row.id repaired.registry := by
    refine ⟨_, rfl, ?_⟩
    split
    · exact h.setRegistry hsettled hrow
    · exact ⟨h, hsettled⟩
  rw [hrepaired]
  split
  · exact hsettled'
  cases hrun : Subscription.reconcileFromDatabase env row.groupID repaired with
  | mk w' result =>
    have := hholds.settled_reconcileFromDatabase hstored hsettled' hrun
    cases result <;> exact this

/-- What the registry shows while the provider is called: the entry from before, or one that was
loaded with the row's version. -/
def Shown (w : World) (row : Row) (w' : World) (entry : CredentialEntry) : Prop :=
  match w.registry.entryLocked row.id with
  | none => entry.version = row.secretVersion
  | some existing => samePersistedCredentialConfig entry = samePersistedCredentialConfig existing ∧
    w'.registry.credentialGroups = w.registry.credentialGroups ∧
    w'.loaded = w.loaded ∧ w'.reconciled = w.reconciled

/-- The provider call is made for a credential that the row and the registry show as refreshing. -/
structure Started (w : World) (attempt : Attempt) (w' : World) : Prop where
  holds : Holds w' attempt.row (attempt.row.withAuthState .refreshing "")
  written : w'.written = w.written + 1
  present : ∃ entry, w'.registry.entryLocked attempt.row.id = some entry ∧
    entry.authState = .refreshing ∧ Shown w attempt.row w' entry

/-- The provider is called: the row passes the checks, the credential is due, no cooldown holds it
back, and the state refreshing is written and shown. -/
structure Reaches (env : Environment) (request : Request) (w : World) (row : Row)
    (current : Credential) : Prop where
  selected : Selected env request w.row row current
  due : if request.forceRefresh then
      ¬ (request.expectedVersion < row.secretVersion ∧ row.authState = .ready)
    else ∃ expiration, current.expiresAt = some expiration ∧
      expiration ≤ env.expiryCheckedAt + refreshLeadTime
  cooled : request.respectCooldown = true → ∀ entry,
    w.registry.entryLocked row.id = some entry → entry.cooldownUntil ≤ env.cooldownCheckedAt
  marked : env.writes w.written = .done
  shown : w.registry.entryLocked row.id = none →
    ∃ load, Loadable env w (row.withAuthState .refreshing "") load

/-- What the first half leaves: a settled credential if the attempt is over. -/
def Underway (env : Environment) (request : Request) (w : World) (row : Row) (w' : World) :
    Progress → Prop
  | .returned _ => Settled row.id w'.registry ∧ ∀ current, ¬ Reaches env request w row current
  | .refreshing attempt =>
    attempt.row = row ∧ Reaches env request w row attempt.current ∧ Started w attempt w'

theorem activeCredentialCooldownEvidence_eq_none {id : Nat} {r : CredentialRegistry} :
    activeCredentialCooldownEvidence env r id = none ↔
      ∀ entry, r.entryLocked id = some entry → entry.cooldownUntil ≤ env.cooldownCheckedAt := by
  unfold activeCredentialCooldownEvidence
  cases r.entryLocked id with
  | none => simp
  | some entry => simp [Time.sub_le_zero]

theorem expiresSoon_eq_true {current : Credential} : expiresSoon env current = true ↔
    ∃ expiration, current.expiresAt = some expiration ∧
      expiration ≤ env.expiryCheckedAt + refreshLeadTime := by
  simp [expiresSoon, Option.any_eq_true]

section Start

variable {current : Credential} (hcoherent : Coherent w.registry)
include hcoherent

theorem underway_startRefreshing (selected : Selected env request w.row row current)
    (due : if request.forceRefresh then
        ¬ (request.expectedVersion < row.secretVersion ∧ row.authState = .ready)
      else ∃ expiration, current.expiresAt = some expiration ∧
        expiration ≤ env.expiryCheckedAt + refreshLeadTime)
    (cooled : request.respectCooldown = true → ∀ entry,
      w.registry.entryLocked row.id = some entry → entry.cooldownUntil ≤ env.cooldownCheckedAt)
    (bypassed : Time) :
    Underway env request w row (startRefreshing env ⟨row, current, bypassed⟩ w).1
      (startRefreshing env ⟨row, current, bypassed⟩ w).2 := by
  have h : Holds w row row := ⟨selected.stored, rfl, rfl, hcoherent⟩
  unfold startRefreshing
  dsimp only
  cases hrun : transitionAuthState env row row.secretVersion .refreshing "" w with
  | mk w' result =>
    obtain ⟨hwritten, htransition⟩ := h.transition hrun
    cases htransition with
    | refused failed holds =>
      exact ⟨holds.restoreAfterFailedStart, fun _ reaches => failed.elim (· reaches.marked) (· rfl)⟩
    | unpublished _ _ holds absent _ missing =>
      refine ⟨holds.restoreAfterFailedStart, fun _ reaches => ?_⟩
      obtain ⟨load, can⟩ := reaches.shown absent
      exact missing load can
    | published applied _ holds existed present state same groups loaded reconciled =>
      refine ⟨rfl, ⟨selected, due, cooled, applied, fun absent => ?_⟩, holds, hwritten, _, present,
        state, ?_⟩
      · cases absent.symm.trans existed
      · simp only [Shown, existed]
        exact ⟨same, groups, loaded, reconciled⟩
    | loaded applied _ holds absent found present state version =>
      refine ⟨rfl, ⟨selected, due, cooled, applied, fun _ => ⟨_, found⟩⟩, holds, hwritten,
        _, present,
        state, ?_⟩
      have positive := row.positive
      simp only [Shown, absent, version, credentialVersion]
      exact if_neg (by omega)

theorem underway_start (hstored : w.row = some row) (hrow : row.authState ≠ .refreshing)
    (hsettled : Settled row.id w.registry) :
    Underway env request w row (start env request w).1 (start env request w).2 := by
  have h : Holds w row row := ⟨hstored, rfl, rfl, hcoherent⟩
  unfold start
  cases hread : readCurrent env request w.row with
  | error e =>
    refine ⟨hsettled, fun current reaches => ?_⟩
    cases hread.symm.trans (readCurrent_eq_ok_iff.mpr reaches.selected)
  | ok read =>
    obtain ⟨found, current⟩ := read
    have selected := readCurrent_eq_ok_iff.mp hread
    cases hstored.symm.trans selected.stored
    have unique {other : Credential} (reaches : Reaches env request w row other) :
        other = current := by
      cases hread.symm.trans (readCurrent_eq_ok_iff.mpr reaches.selected)
      rfl
    dsimp only
    split
    · rename_i newer
      have settled : Settled row.id
          (Subscription.ensureRuntimeMatchesDurableSecret env row w).1.registry :=
        h.ensureRuntimeMatchesDurableSecret hrow hrow hsettled
      have notDue : ∀ current, ¬ Reaches env request w row current := by
        intro current reaches
        have due := reaches.due
        rw [if_pos newer.1] at due
        exact due newer.2
      cases hrun : Subscription.ensureRuntimeMatchesDurableSecret env row w with
      | mk w' result =>
        rw [hrun] at settled
        cases result <;> exact ⟨settled, notDue⟩
    rename_i notNewer
    split
    · rename_i early
      refine ⟨hsettled, fun other reaches => ?_⟩
      cases unique reaches
      have due := reaches.due
      simp only [Bool.not_eq_true'] at early
      rw [if_neg (by simp [early.1])] at due
      simp [expiresSoon_eq_true.mpr due] at early
    rename_i notEarly
    have due : if request.forceRefresh then
          ¬ (request.expectedVersion < row.secretVersion ∧ row.authState = .ready)
        else ∃ expiration, current.expiresAt = some expiration ∧
          expiration ≤ env.expiryCheckedAt + refreshLeadTime := by
      split
      · exact fun newer => notNewer ⟨‹_›, newer⟩
      · rename_i notForced
        refine expiresSoon_eq_true.mp ?_
        by_contra notSoon
        exact notEarly ⟨by simpa using notForced, by simpa using notSoon⟩
    split
    · cases hcooldown : activeCredentialCooldownEvidence env w.registry row.id with
      | some evidence =>
        refine ⟨hsettled, fun other reaches => ?_⟩
        cases hcooldown.symm.trans
          (activeCredentialCooldownEvidence_eq_none.mpr (reaches.cooled ‹_›))
      | none =>
        exact underway_startRefreshing hcoherent selected due
          (fun _ => activeCredentialCooldownEvidence_eq_none.mp hcooldown) 0
    · exact underway_startRefreshing hcoherent selected due (fun respects => absurd respects ‹_›) _

end Start

/-! ## Stranded credentials -/

def Unsaved (env : Environment) (refreshed : Credential) : Prop :=
  refreshed.canonical = "" ∨ env.encrypt refreshed.canonical = none

/-- The provider has answered with a credential of the same identity, but it is not saved, and the
write that records this fails, or finds the row changed by a commit that reported an error. The
first write after the state refreshing is number `n`. -/
def Unrecorded (env : Environment) (refreshed : Credential) (n : Nat) : Prop :=
  (Unsaved env refreshed ∧ env.writes n ≠ .done) ∨
    (¬ Unsaved env refreshed ∧
      (env.writes n = .unreported ∨ env.writes n = .lost ∧ env.writes (n + 1) ≠ .done))

/-- The row after the commit of a new secret. -/
abbrev Row.renew (row : Row) (fingerprint ciphertext : String) : Row :=
  { row with
    data := ciphertext
    fingerprint := fingerprint
    secretVersion := row.secretVersion + 1
    positive := row.succ_positive
    authState := .ready
    authErrorCode := "" }

/-- The new secret is saved, but the registry was ahead of the row and has it already, so that the
reconciliation keeps the entry. -/
def Kept (env : Environment) (w : World) (row : Row) (refreshed : Credential) : Prop :=
  refreshed.canonical ≠ "" ∧ env.writes (w.written + 1) = .done ∧
    ∃ ciphertext load existing, env.encrypt refreshed.canonical = some ciphertext ∧
      w.registry.entryLocked row.id = some existing ∧
      Loadable env w (row.renew (env.hash refreshed.canonical) ciphertext) load ∧
      samePersistedCredentialConfig existing
        (mapCredential load (row.renew (env.hash refreshed.canonical) ciphertext)) = true

/-- The attempt reaches the provider, which answers with a credential of the same identity, and this
is neither recorded nor shown. -/
def Strands (env : Environment) (request : Request) (w : World) : Prop :=
  ∃ row current refreshed, Reaches env request w row current ∧
    env.refresh current = .ok refreshed ∧ env.preservesIdentity current refreshed = true ∧
    (Unrecorded env refreshed (w.written + 1) ∨ Kept env w row refreshed)

theorem Started.abandon (h : Started w attempt w') :
    Settled attempt.row.id (abandon env attempt.row code w').1.registry ↔
      env.writes (w.written + 1) = .done := by
  obtain ⟨entry, present, state, -⟩ := h.present
  rw [h.holds.abandon present state, h.written]
  exact and_iff_left rfl

theorem Started.commit (h : Started w attempt w') (fingerprint ciphertext : String) :
    commit env attempt.row fingerprint ciphertext w' =
      ({ w' with
          row := some (if env.writes (w.written + 1) = .lost
            then attempt.row.withAuthState .refreshing ""
            else attempt.row.renew fingerprint ciphertext)
          written := w.written + 2 },
        if env.writes (w.written + 1) = .done then .ok 1 else .error env.databaseError) := by
  unfold Subscription.commit
  rw [update_of_match h.holds.found (by simp), h.written]

/-- After the commit, the registry has the new secret already exactly if it had it before. -/
theorem Shown.kept_iff (shown : Shown w attempt.row w' entry) (fingerprint ciphertext : String)
    (written : Nat) :
    let renewed := attempt.row.renew fingerprint ciphertext
    (∃ load, Loadable env { w' with row := some renewed, written } renewed load ∧
        samePersistedCredentialConfig entry (mapCredential load renewed) = true) ↔
      ∃ load existing, w.registry.entryLocked attempt.row.id = some existing ∧
        Loadable env w renewed load ∧
        samePersistedCredentialConfig existing (mapCredential load renewed) = true := by
  intro renewed
  unfold Shown at shown
  split at shown
  · rename_i absent
    -- The entry was loaded, so it has the old version.
    constructor
    · rintro ⟨load, -, same⟩
      have next := version_of_same same
      simp [renewed, mapCredential, credentialVersion, shown] at next
    · rintro ⟨load, existing, existed, -⟩
      cases absent.symm.trans existed
  · rename_i existing existed
    obtain ⟨same, groups, loaded, reconciled⟩ := shown
    constructor
    · rintro ⟨load, ⟨groupID, loads, valid, members, owned, reconciles⟩, kept⟩
      exact ⟨load, existing, existed, ⟨groupID, loaded ▸ loads, valid, members, groups ▸ owned,
        reconciled ▸ reconciles⟩, same ▸ kept⟩
    · rintro ⟨load, other, existed', ⟨groupID, loads, valid, members, owned, reconciles⟩, kept⟩
      cases existed.symm.trans existed'
      exact ⟨load, ⟨groupID, loaded ▸ loads, valid, members, groups ▸ owned,
        reconciled ▸ reconciles⟩, same ▸ kept⟩

/-- The commit of the new secret, and what follows if it fails. -/
theorem Started.persist_saved {ciphertext : String} (h : Started w attempt w')
    (hcanonical : refreshed.canonical ≠ "")
    (hencrypt : env.encrypt refreshed.canonical = some ciphertext) :
    Settled attempt.row.id (persist env attempt refreshed w').1.registry ↔
      env.writes (w.written + 1) = .done ∧ ¬ Kept env w attempt.row refreshed ∨
        env.writes (w.written + 1) = .lost ∧ env.writes (w.written + 2) = .done := by
  obtain ⟨entry, present, state, shown⟩ := h.present
  obtain ⟨-, hid, hgroup, hcoherent⟩ := h.holds
  unfold Subscription.persist
  simp only [hcanonical, if_false, hencrypt, h.commit]
  have renewed : Holds { w' with
      row := some (attempt.row.renew (env.hash refreshed.canonical) ciphertext)
      written := w.written + 2 }
      attempt.row (attempt.row.renew (env.hash refreshed.canonical) ciphertext) :=
    ⟨rfl, hid, hgroup, hcoherent⟩
  cases houtcome : env.writes (w.written + 1) with
  | done =>
    have settled := @Holds.publishSecret env _ _ _ attempt refreshed (env.hash refreshed.canonical)
      ciphertext renewed rfl rfl present state
    have kept := settled.trans (not_congr (shown.kept_iff _ _ _))
    simpa [Kept, hcanonical, hencrypt, houtcome] using kept
  | lost =>
    -- Nothing was written: the mark finds the row as the attempt knows it.
    have holds : Holds { w' with
        row := some (attempt.row.withAuthState .refreshing ""), written := w.written + 2 }
        attempt.row (attempt.row.withAuthState .refreshing "") := ⟨rfl, hid, hgroup, hcoherent⟩
    simpa using holds.abandon present state
  | unreported =>
    -- The version has moved on, so the mark finds no row.
    simpa using renewed.abandon present state

theorem Started.persist (h : Started w attempt w') :
    Settled attempt.row.id (persist env attempt refreshed w').1.registry ↔
      ¬ (Unrecorded env refreshed (w.written + 1) ∨ Kept env w attempt.row refreshed) := by
  by_cases hcanonical : refreshed.canonical = ""
  · have hunsaved : Unsaved env refreshed := .inl hcanonical
    unfold Subscription.persist
    simp [hcanonical, h.abandon, Unrecorded, Kept, hunsaved]
  cases hencrypt : env.encrypt refreshed.canonical with
  | none =>
    have hunsaved : Unsaved env refreshed := .inr hencrypt
    unfold Subscription.persist
    simp [hcanonical, hencrypt, h.abandon, Unrecorded, Kept, hunsaved]
  | some ciphertext =>
    have hsaved : ¬ Unsaved env refreshed := by simp [Unsaved, hcanonical, hencrypt]
    rw [h.persist_saved hcanonical hencrypt]
    cases houtcome : env.writes (w.written + 1) <;> simp [Unrecorded, Kept, hsaved, houtcome]

theorem Started.finish (h : Started w attempt w') :
    Settled attempt.row.id (finish env attempt w').1.registry ↔
      ¬ ∃ refreshed, env.refresh attempt.current = .ok refreshed ∧
        env.preservesIdentity attempt.current refreshed = true ∧
        (Unrecorded env refreshed (w.written + 1) ∨ Kept env w attempt.row refreshed) := by
  unfold Subscription.finish
  cases hrefresh : env.refresh attempt.current with
  | error failure => simpa using h.holds.fail failure
  | ok refreshed =>
    cases hidentity : env.preservesIdentity attempt.current refreshed with
    | false =>
      simpa [hidentity] using h.holds.settle
        (show reauthorizationRequired ≠ .refreshing by decide) _
    | true => simpa [hidentity] using h.persist

/-- A refresh of a credential that neither the database nor the registry shows as refreshing leaves
it so in the registry exactly if the provider's answer could not be saved and the write that
records this failed as well, or if the registry had the new secret already. -/
theorem refreshCredentialLocked_settled_iff (env : Environment) (request : Request) (w : World)
    (id : Nat) (coherent : Coherent w.registry)
    (durable : ∀ row, w.row = some row → row.id = id ∧ row.authState ≠ .refreshing)
    (settled : Settled id w.registry) :
    Settled id (refreshCredentialLocked env request w).1.registry ↔ ¬ Strands env request w := by
  cases stored : w.row with
  | none =>
    have unread : readCurrent env request none = .error (localEvidence "credential_unavailable"
        "subscription credential is unavailable") := by simp [readCurrent]
    refine ⟨fun _ ⟨row, current, refreshed, reaches, _⟩ => ?_, fun _ => ?_⟩
    · cases stored.symm.trans reaches.selected.stored
    · simpa [refreshCredentialLocked, start, stored, unread] using settled
  | some row =>
  obtain ⟨rfl, notRefreshing⟩ := durable row stored
  have h : Underway env request w row (start env request w).1 (start env request w).2 :=
    underway_start coherent stored notRefreshing settled
  have sameRow {other : Row} {current : Credential}
      (reaches : Reaches env request w other current) :
      other = row := Option.some.inj (reaches.selected.stored.symm.trans stored)
  unfold refreshCredentialLocked
  cases hstart : start env request w with
  | mk w' progress =>
    rw [hstart] at h
    cases progress with
    | returned result =>
      refine ⟨fun _ ⟨other, current, _, reaches, _⟩ => ?_, fun _ => h.1⟩
      cases sameRow reaches
      exact h.2 current reaches
    | refreshing attempt =>
      obtain ⟨rfl, reaches, started⟩ := h
      refine started.finish.trans (not_congr ⟨?_, ?_⟩)
      · rintro ⟨refreshed, strands⟩
        exact ⟨attempt.row, attempt.current, refreshed, reaches, strands⟩
      · rintro ⟨other, current, refreshed, reaches', strands⟩
        cases sameRow reaches'
        cases Option.some.inj (reaches.selected.secret.symm.trans reaches'.selected.secret)
        exact ⟨refreshed, strands⟩

/-! A credential whose refresh succeeds at the provider. -/

def sampleRow : Row where
  id := 1
  groupID := 1
  data := "sealed"
  fingerprint := "f1"
  secretVersion := 1
  positive := by decide
  authState := .ready

def sampleWorld : World where
  row := some sampleRow
  registry := (newCredentialRegistry.applyCredentialImport (fun _ => 0) 1
    [mapCredential { identityGeneration := 7 } sampleRow]).1

/-- Everything works but the writes from a number on. -/
def sampleEnvironment (healthy : Nat) : Environment where
  group := fun _ => some { channelID := "codex", connectionType := connectionTypeSubscription }
  identityGeneration := fun _ _ => 7
  decrypt := some
  parse := fun _ => some { canonical := "old" }
  writes := fun n => if n < healthy then .done else .lost
  loads := fun _ => some { identityGeneration := 7 }
  reconciles := fun _ => true
  replaces := true
  refresh := fun _ => .ok { canonical := "new" }
  preservesIdentity := fun _ _ => true
  encrypt := some
  hash := fun _ => "f2"

def sampleRequest : Request where
  channelID := "codex"
  expectedVersion := 1
  expectedIdentityGeneration := 7
  forceRefresh := true

theorem coherent_sampleWorld : Coherent sampleWorld.registry :=
  Coherent.perform ⟨_, represents_new⟩ (fun _ => 0)
    (.applyCredentialImport 1 [mapCredential { identityGeneration := 7 } sampleRow])

theorem sampleWorld_entry (h : sampleWorld.registry.entryLocked sampleRow.id = some entry) :
    entry.version = 1 ∧ entry.authState = .ready := by
  have hshown : (sampleWorld.registry.entryLocked sampleRow.id).map
      (fun entry => (entry.version, entry.authState)) = some (1, .ready) := by decide +kernel
  simpa [h] using hshown

theorem settled_sampleWorld : Settled sampleRow.id sampleWorld.registry := by
  intro entry hentry
  simp [(sampleWorld_entry hentry).2]

/-- The commit fails and so does the mark: the credential stays refreshing. -/
theorem refreshCredentialLocked_strands :
    sampleWorld.row = some sampleRow ∧ sampleRow.authState = .ready ∧
      Coherent sampleWorld.registry ∧ Settled sampleRow.id sampleWorld.registry ∧
      ((refreshCredentialLocked (sampleEnvironment 1) sampleRequest
        sampleWorld).1.registry.entryLocked sampleRow.id).map
          (fun entry => (entry.identityGeneration, entry.authState)) = some (7, .refreshing) :=
  ⟨rfl, rfl, coherent_sampleWorld, settled_sampleWorld, by decide +kernel⟩

/-- The registry of the sample is ahead of the row: it has the secret that the provider will
give. -/
def aheadWorld : World where
  row := some sampleRow
  registry := (newCredentialRegistry.applyCredentialImport (fun _ => 0) 1
    [mapCredential { identityGeneration := 7 } (sampleRow.renew "f2" "new")]).1

example : Reaches (sampleEnvironment 9) sampleRequest aheadWorld sampleRow { canonical := "old" } ∧
    ((refreshCredentialLocked (sampleEnvironment 9) sampleRequest
      aheadWorld).1.registry.entryLocked sampleRow.id).map (·.authState) = some .refreshing := by
  refine ⟨⟨⟨rfl, rfl, ⟨_, rfl, rfl, rfl, rfl⟩, .inl rfl, rfl⟩, by decide, nofun, rfl, ?_⟩,
    by decide +kernel⟩
  have present : (aheadWorld.registry.entryLocked sampleRow.id).isSome := by decide +kernel
  intro absent
  simp [absent] at present

/-- With a second write that works, the credential is settled. -/
theorem refreshCredentialLocked_settled_sample :
    Settled sampleRow.id
      (refreshCredentialLocked (sampleEnvironment 2) sampleRequest sampleWorld).1.registry := by
  have durable : ∀ row, sampleWorld.row = some row →
      row.id = sampleRow.id ∧ row.authState ≠ .refreshing := by
    intro row stored
    cases stored
    decide
  refine (refreshCredentialLocked_settled_iff (sampleEnvironment 2) sampleRequest sampleWorld
    sampleRow.id coherent_sampleWorld durable settled_sampleWorld).mpr ?_
  rintro ⟨row, current, refreshed, reaches, granted, -, unrecorded |
    ⟨-, -, ciphertext, load, existing, -, present, -, same⟩⟩
  · cases granted
    simp [Unrecorded, Unsaved, sampleEnvironment, sampleWorld] at unrecorded
  · -- The registry has the first version.
    cases reaches.selected.stored
    have next := version_of_same same
    rw [(sampleWorld_entry present).1] at next
    cases next

end ApiLoad.Subscription
