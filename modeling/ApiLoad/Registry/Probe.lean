import ApiLoad.Registry.Single

/-!
# Probes of blacklisted credentials

A probe keeps a reference to a blacklisted credential and recovers the credential later, if the
reference still matches. Every event in the failures of an entry moves its generation, but a newly
installed copy of the entry starts again at generation 0, and the checkpoint of an earlier process
replaces the failures without a new generation.
-/
namespace ApiLoad.Registry
open Std Foundation Scheduling CredentialRegistry

variable {r : CredentialRegistry} {f : Nat → Option CredentialEntry} {id : Nat}
  {ref : CredentialRef}

def credentialRef (entry : CredentialEntry) : CredentialRef where
  id := entry.id
  groupID := entry.groupID
  version := entry.version
  identityGeneration := entry.identityGeneration
  fingerprint := entry.fingerprint
  encryptedValue := entry.encryptedValue
  encryptedProxy := entry.encryptedProxy
  proxyFingerprint := entry.proxyFingerprint
  failureGeneration := entry.failureGeneration
  modelCooldownGeneration := entry.modelCooldownGeneration

def CredentialRegistry.blacklistedCredentials (r : CredentialRegistry) : List CredentialRef :=
  let refs := r.buckets.toList.flatMap fun (_, bucket) =>
    bucket.toList.filterMap fun (_, entry) =>
      if entry.status ≠ .active || !entry.blacklisted then none else some (credentialRef entry)
  refs.insertionSort fun a b => a.groupID < b.groupID ∨ a.groupID = b.groupID ∧ a.id ≤ b.id

theorem Coherent.mem_blacklistedCredentials (h : Coherent r)
    (href : ref ∈ r.blacklistedCredentials) :
    ∃ e, r.entryLocked ref.id = some e ∧ e.blacklisted = true ∧ credentialRef e = ref := by
  simp only [blacklistedCredentials, List.mem_insertionSort, List.mem_flatMap,
    List.mem_filterMap] at href
  obtain ⟨⟨groupID, entries⟩, hbucket, ⟨i, entry⟩, hentry, hlisted⟩ := href
  have hin : (r.bucket groupID)[i]? = some entry := by
    simp [bucket, OrderedMap.lookup_of_mem_toList hbucket, OrderedMap.lookup_of_mem_toList hentry]
  have hlocked := h.entryLocked_of_bucket hin
  obtain ⟨f, hf⟩ := h
  obtain rfl : entry.id = i := hf.ids i entry (hf.entryLocked i ▸ hlocked)
  split at hlisted
  · cases hlisted
  · cases hlisted
    exact ⟨entry, hlocked, by grind, rfl⟩

theorem entryLocked_of_recovered (h : (r.restoreRuntimeStateIfMatch clock ref none).2 = true) :
    ∃ e, r.entryLocked ref.id = some e ∧ e.failureGeneration = ref.failureGeneration := by
  unfold restoreRuntimeStateIfMatch at h
  split at h
  · cases h
  cases hchanged : r.changeEntry clock true ref.id _ with
  | none =>
    rw [hchanged] at h
    cases h
  | some r' =>
    obtain ⟨e, e', he, hchange, -⟩ := entryLocked_changeEntry hchanged
    exact ⟨e, he, by grind [CredentialRef.matchesBlacklisted]⟩

/-! ## The generation of the failures over a run -/

def performAll (r : CredentialRegistry) (calls : List (Call × Clock)) : CredentialRegistry :=
  calls.foldl (fun r call => (call.1.perform r call.2).1) r

theorem run_append (history later : List (Call × Clock)) :
    run (history ++ later) = performAll (run history) later :=
  List.foldl_append

/-- No call of the list that goes through installs the credential anew or restores a checkpoint of
it. -/
def undisturbed (id : Nat) (r : CredentialRegistry) : List (Call × Clock) → Bool
  | [] => true
  | call :: later =>
    (call.1.installs r call.2 id).isNone && undisturbed id (call.1.perform r call.2).1 later

/-- The generation counts the events, and without an event nothing about the failures changes. -/
theorem Represents.failureGeneration (h : Represents none r f)
    (hundisturbed : undisturbed id r later = true)
    (hend : (performAll r later).entryLocked id = some e') :
    ∃ e events, r.entryLocked id = some e ∧ events ≤ later.length ∧
      e'.failureGeneration % 2 ^ 64 = (e.failureGeneration + events) % 2 ^ 64 ∧
      (events = 0 → ∀ earlier, earlier <+: later → ∃ e'',
        (performAll r earlier).entryLocked id = some e'' ∧ failures e'' = failures e) := by
  induction later generalizing r f with
  | nil =>
    refine ⟨e', 0, hend, le_rfl, rfl, fun _ earlier hearlier => ⟨e', ?_, rfl⟩⟩
    rw [List.prefix_nil.mp hearlier]
    exact hend
  | cons call later ih =>
    simp only [undisturbed, Bool.and_eq_true, Option.isNone_iff_eq_none] at hundisturbed
    obtain ⟨f', h', heffect⟩ := h.perform call.2 call.1
    obtain ⟨e₁, events, he₁, hevents, hgeneration, hquiet⟩ := ih h' hundisturbed.2 hend
    -- What the first call does to the entry.
    have hstep := heffect id
    dsimp only at hstep
    rw [hundisturbed.1, ← h.entryLocked, ← h'.entryLocked, he₁] at hstep
    have hprefix : ∀ e, r.entryLocked id = some e → failures e₁ = failures e → events = 0 →
        ∀ earlier, earlier <+: call :: later → ∃ e'',
          (performAll r earlier).entryLocked id = some e'' ∧ failures e'' = failures e := by
      intro e he hsame hnone earlier hearlier
      cases earlier with
      | nil => exact ⟨e, he, rfl⟩
      | cons first earlier =>
        obtain ⟨rfl, hrest⟩ := List.cons_prefix_cons.mp hearlier
        obtain ⟨e'', he'', hsame''⟩ := hquiet hnone earlier hrest
        exact ⟨e'', he'', hsame''.trans hsame⟩
    cases hbefore : r.entryLocked id with
    | none => rw [hbefore] at hstep; cases hstep; contradiction
    | some e =>
      rw [hbefore] at hstep
      cases hstep with
      | kept => exact ⟨e₁, events, rfl, by simp; omega, hgeneration, hprefix e₁ hbefore rfl⟩
      | installed hnone => cases hnone
      | edited hedited =>
        obtain hsame | hmoved := hedited.failures
        · have : e₁.failureGeneration = e.failureGeneration := congrArg Prod.fst hsame
          exact ⟨e, events, rfl, by simp; omega, this ▸ hgeneration, hprefix e hbefore hsame⟩
        · refine ⟨e, events + 1, rfl, by simpa using hevents, ?_, nofun⟩
          rw [hgeneration, hmoved, nextGeneration]
          omega

/-- A probe recovers a credential that was not installed anew since the reference was taken only if
it has been blacklisted all the time and nothing happened to its failures. -/
theorem recoverIfMatch_untouched (history later : List (Call × Clock)) (clock : Clock)
    (hcaptured : ref ∈ (run history).blacklistedCredentials)
    (hundisturbed : undisturbed ref.id (run history) later = true) (hfew : later.length < 2 ^ 64)
    (hrecovered : ((run (history ++ later)).restoreRuntimeStateIfMatch clock ref none).2 = true) :
    ∃ captured, (run history).entryLocked ref.id = some captured ∧ credentialRef captured = ref ∧
      ∀ earlier, earlier <+: later → ∃ e, (run (history ++ earlier)).entryLocked ref.id = some e ∧
        e.blacklisted = true ∧ failures e = failures captured := by
  obtain ⟨f, h⟩ := represents_run history
  obtain ⟨captured, hentry, hblacklisted, href⟩ :=
    Coherent.mem_blacklistedCredentials ⟨f, h⟩ hcaptured
  obtain ⟨e', he', hmatch⟩ := entryLocked_of_recovered hrecovered
  rw [run_append] at he'
  obtain ⟨e, events, he, hevents, hgeneration, hquiet⟩ := h.failureGeneration hundisturbed he'
  cases hentry.symm.trans he
  -- The counter is where it was, and too few events have happened to bring it around.
  have hnone : events = 0 := by
    rw [hmatch, ← href] at hgeneration
    simp only [credentialRef] at hgeneration
    omega
  refine ⟨captured, hentry, href, fun earlier hearlier => ?_⟩
  obtain ⟨e'', he'', hsame⟩ := hquiet hnone earlier hearlier
  rw [run_append]
  exact ⟨e'', he'', (congrArg (·.2.1) hsame).trans hblacklisted, hsame⟩

section Example

/-- A credential that is imported and blacklisted. -/
def probeHistory : List (Call × Clock) :=
  [(.applyCredentialImport 1 [sampleEntry], fun _ => 0), (.setBlacklistedWithChange 3, fun _ => 1)]

theorem recoverIfMatch_untouched_cooldown :
    ∃ ref ∈ (run probeHistory).blacklistedCredentials,
      ∃ captured, (run probeHistory).entryLocked ref.id = some captured ∧
        credentialRef captured = ref ∧
        ∀ earlier, earlier <+: [(.setCooldownWithChange 3 50, fun _ => 2)] →
          ∃ e, (run (probeHistory ++ earlier)).entryLocked ref.id = some e ∧
            e.blacklisted = true ∧ failures e = failures captured := by
  have hprobe : ((run probeHistory).blacklistedCredentials.any fun ref =>
      undisturbed ref.id (run probeHistory) [(.setCooldownWithChange 3 50, fun _ => 2)] &&
      ((run (probeHistory ++
        [(.setCooldownWithChange 3 50, fun _ => 2)])).restoreRuntimeStateIfMatch
          (fun _ => 3) ref none).2) = true := by decide +kernel
  obtain ⟨ref, href, hok⟩ := List.any_eq_true.mp hprobe
  rw [Bool.and_eq_true] at hok
  exact ⟨ref, href, recoverIfMatch_untouched _ _ _ href hok.1 (by decide) hok.2⟩

/-- The group is reconciled with a new weight, which takes the credential off the blacklist. -/
def probeReload : CredentialRegistry :=
  run (probeHistory ++
    [(.reconcileGroup 1 [{ sampleEntry with weightManual := some 5 }], fun _ => 2)])

/-- After the reload the credential fails again, and the probe from before it recovers it. -/
theorem stale_probe_revives :
    ∃ ref ∈ (run probeHistory).blacklistedCredentials,
      (probeReload.entryLocked ref.id).map (·.blacklisted) = some false ∧
      ((probeReload.setBlacklistedWithChange (fun _ => 3) 3).1.restoreRuntimeStateIfMatch
        (fun _ => 4) ref none).2 = true := by
  have hprobe : ((run probeHistory).blacklistedCredentials.any fun ref =>
      (probeReload.entryLocked ref.id).map (·.blacklisted) = some false &&
      ((probeReload.setBlacklistedWithChange (fun _ => 3) 3).1.restoreRuntimeStateIfMatch
        (fun _ => 4) ref none).2) = true := by decide +kernel
  obtain ⟨ref, href, hok⟩ := List.any_eq_true.mp hprobe
  exact ⟨ref, href, by simpa using hok⟩

end Example

end ApiLoad.Registry
