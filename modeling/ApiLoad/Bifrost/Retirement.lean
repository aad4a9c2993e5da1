import ApiLoad.Bifrost.Effect

/-!
# Retiring a credential

`retireCredential` marks the entries of a credential, and the release of the last lease on a marked
entry drops it. `reconcile` writes the same mark: an entry whose target is active again loses it,
and then outlives its last lease.
-/
namespace ApiLoad.Bifrost
open Foundation Function Pool Transition Option

attribute [local simp] Phase.holds

/-- The runtime of an entry has left the pool and has been handed over to be shut down. -/
def Pool.Retired (p : Pool) (e : EntryID) : Prop :=
  e ∉ p.ids ∧ (⟨e⟩ : Runtime) ∈ p.retired ++ p.begun

variable {p p' p₁ : Pool} {e : EntryID}

/-! ## A runtime that has been handed over -/

variable {label : Label} {labels : List Label} {call : Call} {i : Nat}

theorem Pool.Retired.step (h : p.Retired e) (inv : p.Inv) (taken : step label p = some p') :
    p'.Retired e := by
  have effect := step_effect taken
  refine ⟨fun back => ?_, effect.left _ h.2⟩
  obtain old | young := effect.ids e back
  · exact h.1 old
  · exact absurd (inv.left.gone _ h.2).1 (Nat.not_lt.mpr young)

theorem Pool.Retired.run (h : p.Retired e) (inv : p.Inv)
    (ran : run Bifrost.step labels p = some p') : p'.Retired e ∧ p'.Inv :=
  run_invariant (P := fun p => p.Retired e ∧ p.Inv)
    (fun _ _ _ h taken => ⟨h.1.step h.2 taken, step_inv h.2 taken⟩) ⟨h, inv⟩ ran

/-- No call holds it, and none will. -/
theorem Pool.Retired.unleased (h : p.Retired e) (inv : p.Inv) (hc : call ∈ p.calls) :
    call.phase.holds e = false := by
  by_contra holds
  obtain ⟨f, mem⟩ := inv.held.listed_of_holds hc (by simpa using holds)
  exact h.1 (mem_ids.mpr ⟨f, mem⟩)

/-! ## The mark of an entry -/

/-- Whether the manager is closed and an entry marked, after one more call. -/
def nextMark (config : ProviderConfig) (before : Bool × Bool) (label : Label) : Bool × Bool :=
  (before.1 || label.closes, (label.mark before.1 config).getD before.2)

def lastMark (config : ProviderConfig) (closed : Bool) (labels : List Label) : Bool :=
  (labels.foldl (nextMark config) (closed, true)).2

/-- An entry that is still in the map. -/
theorem Pool.Inv.listed (inv : p.Inv) (mem : e ∈ p.ids) :
    ∃ f, (f, e) ∈ p.entries ∧ p.Listed f e := by
  obtain ⟨f, mem⟩ := mem_ids.mp mem
  exact ⟨f, mem, inv.held.listed f e mem⟩

theorem run_mark (inv : p.Inv) (old : e < p.next) (ran : run step labels p = some p')
    (mem : e ∈ p'.ids) :
    e ∈ p.ids ∧ (p'.heap e).config = (p.heap e).config ∧
      (p'.closed, (p'.heap e).retiring) =
        labels.foldl (nextMark (p.heap e).config) (p.closed, (p.heap e).retiring) := by
  induction labels generalizing p with
  | nil =>
    cases ran
    exact ⟨mem, rfl, rfl⟩
  | cons label labels ih =>
    obtain ⟨next, taken, ran⟩ := bind_eq_some_iff.mp ran
    have effect := step_effect taken
    obtain ⟨mem', config, marks⟩ :=
      ih (step_inv inv taken) (Nat.lt_of_lt_of_le old effect.next) ran
    have here : e ∈ p.ids := (effect.ids e mem').resolve_right (Nat.not_le.mpr old)
    refine ⟨here, config.trans (effect.config e old), ?_⟩
    rw [marks, effect.config e old, effect.closed, effect.retiring e old mem', List.foldl_cons]
    rfl

/-! ## The last release -/

@[simp] theorem calls_retire (p : Pool) (e : EntryID) :
    (p.retireEntryLocked e).calls = p.calls := by
  obtain same | ⟨_, _, _, _, _, _, eq⟩ := p.retireEntryLocked_cases e
  · rw [same]
  · rw [eq]

@[simp] theorem calls_close (p : Pool) : p.maybeCloseShutdownLocked.calls = p.calls := by
  unfold maybeCloseShutdownLocked
  split <;> rfl

@[simp] theorem calls_sweep (mark : Entry → Option Bool) (order : List EntryID) (p : Pool) :
    (sweep mark order p).calls = p.calls := by
  induction order generalizing p with
  | nil => rfl
  | cons e order ih =>
    rw [sweep]
    split
    · exact ih p
    · rw [ih, calls_retire]
      rfl

/-- A call that changes its phase does not let go of an entry, unless it releases it or gives up
building it. -/
theorem holders_le_setPhase {phase : Phase} {q : Pool} (found : p.calls[i]? = some call)
    (same : q.calls = (p.setPhase i phase).calls)
    (keeps : call.phase.holds e = true → phase.holds e = true) : p.holders e ≤ q.holders e := by
  have counted := holders_setPhase found phase e
  rw [← holders_congr same] at counted
  by_cases holds : call.phase.holds e = true
  · rw [if_pos holds, if_pos (keeps holds)] at counted
    omega
  · rw [if_neg holds] at counted
    omega

theorem callStep_holders (found : p.calls[i]? = some call)
    (taken : callStep p i call label = some p') (loses : p'.holders e < p.holders e) :
    call.phase = .releasing e ∧ p' = p.release i e ∨
      ∃ problem, call.phase = .building e ∧ p' = p.buildFailed i call.config e problem := by
  have keeps {phase : Phase} (same : p'.calls = (p.setPhase i phase).calls)
      (holds : call.phase.holds e = true → phase.holds e = true) : False :=
    absurd (holders_le_setPhase found same holds) (Nat.not_le.mpr loses)
  cases callStep_cases taken with
  | idle => exact absurd loses (Nat.lt_irrefl _)
  | phase same => exact (keeps rfl (same e).trans).elim
  | look called =>
    refine (?_ : False).elim
    have free : ∀ phase' : Phase, call.phase.holds e = true → phase'.holds e = true := by
      simp [called]
    unfold Pool.look at keeps
    split at keeps
    · exact keeps rfl (free _)
    split at keeps
    swap
    · exact keeps rfl (free _)
    dsimp only at keeps
    split at keeps
    · exact keeps rfl (free _)
    split at keeps
    · exact keeps rfl (free _)
    · exact keeps rfl (free _)
  | built building => exact (keeps rfl (by simp [building])).elim
  | @buildFailed x building problem =>
    by_cases same : x = e
    · exact .inr ⟨problem, by rw [building, same], by rw [same]⟩
    · exact (keeps (by simp [Pool.buildFailed]; rfl) (by simp [building, same])).elim
  | @release x releasing =>
    by_cases same : x = e
    · exact .inl ⟨by rw [releasing, same], by rw [same]⟩
    · exact (keeps (by simp [Pool.release, setPhase]; rfl) (by simp [releasing, same])).elim

theorem runtime_buildFailed (p : Pool) (i : Nat) (config : ProviderConfig) (e : EntryID)
    (problem : String) :
    ((p.buildFailed i config e problem).heap e).runtime = (p.heap e).runtime := by
  unfold Pool.buildFailed maybeCloseShutdownLocked
  dsimp only
  split <;> simp [setPhase, setEntry]

/-- The step after which no call holds an entry releases it, unless it gives up building it. -/
theorem last_release (inv : p.Inv) (taken : step label p = some p') (inUse : 0 < p.holders e)
    (free : p'.holders e = 0) (built : (p'.heap e).runtime ≠ none) :
    ∃ i call, p.calls[i]? = some call ∧ call.phase = .releasing e ∧ p' = p.release i e := by
  have loses : p'.holders e < p.holders e := by omega
  have kept (same : p'.calls = p.calls) : False := by
    rw [holders_congr same] at loses
    exact Nat.lt_irrefl _ loses
  cases label with
  | acquire config =>
    cases taken
    simp [holders] at loses
  | reconcile configs =>
    cases taken
    refine (kept ?_).elim
    unfold reconcile
    split <;> simp
  | retireCredential credentialID =>
    cases taken
    refine (kept ?_).elim
    unfold retireCredential
    split <;> simp
  | beginShutdown =>
    cases taken
    exact (kept (by simp [beginShutdown])).elim
  | startShutdown r =>
    simp only [step] at taken
    split at taken <;> cases taken
    exact (kept rfl).elim
  | completed r =>
    simp only [step] at taken
    split at taken <;> cases taken
    exact (kept (by simp [completed])).elim
  | _ =>
    obtain ⟨call, found, taken⟩ := bind_eq_some_iff.mp taken
    obtain ⟨releasing, rfl⟩ | ⟨problem, building, rfl⟩ := callStep_holders found taken loses
    · exact ⟨_, call, found, releasing, rfl⟩
    obtain ⟨f, mem, entry, sound⟩ := inv.holder (e := e) found (by simp [building])
    rw [building] at sound
    refine (built ?_).elim
    rw [runtime_buildFailed, (entry.alone sound.1).2]

/-- An entry that is marked and that no call holds is dropped. -/
theorem retire_drops (inv : p.Inv) (mem : e ∈ p.ids) (marked : (p.heap e).retiring = true)
    (free : p.holders e = 0) : (p.retireEntryLocked e).Retired e := by
  obtain ⟨f, mem, entry⟩ := inv.listed mem
  have refs : (p.heap e).refs = 0 := entry.refs.trans free
  have initializing : (p.heap e).initializing = false := by
    by_contra init
    have one := (entry.alone (by simpa using init)).1
    omega
  have listed : p.entries.lookup (p.heap e).config.fingerprint = some e := by
    rw [entry.fingerprint]
    exact inv.held.lookup.mpr mem
  have here :
      (⟨e⟩ : Runtime) ∈ (p.retireEntryLocked e).retired ++ (p.retireEntryLocked e).begun := by
    simp [retireEntryLocked, entry.built initializing, initializing, marked, refs, listed]
  exact ⟨((inv.retire e).left.gone _ here).2, here⟩

theorem retire_unmarked (unmarked : (p.heap e).retiring = false) : p.retireEntryLocked e = p := by
  obtain same | ⟨_, _, _, marked, _⟩ := p.retireEntryLocked_cases e
  · exact same
  · rw [unmarked] at marked
    cases marked

/-- A release that leaves no holder drops the entry if it is marked. -/
theorem release_iff (inv : p.Inv) (found : p.calls[i]? = some call)
    (releasing : call.phase = .releasing e) (free : (p.release i e).holders e = 0) :
    (p.release i e).Retired e ↔ (p.heap e).retiring = true := by
  obtain ⟨f, mem, -⟩ := inv.holder found (e := e) (by simp [releasing])
  have shape : p.release i e = _ := setPhase_retire _ i e .released
  set q :=
    (p.setEntry e { p.heap e with refs := (p.heap e).refs - 1 }).setPhase i .released with q_eq
  have listed : e ∈ q.ids := mem_ids.mpr ⟨f, mem⟩
  have retiring : (q.heap e).retiring = (p.heap e).retiring := by simp [q_eq, setPhase, setEntry]
  rw [shape] at free ⊢
  constructor
  · rintro ⟨gone, -⟩
    by_contra unmarked
    rw [retire_unmarked (retiring.trans (by simpa using unmarked))] at gone
    exact gone listed
  intro marked
  rw [holders_congr (calls_retire q e)] at free
  exact retire_drops (inv.letGo found releasing) listed (retiring.trans marked) free

/-! ## The call -/

/-- A sweep that marks an entry drops it unless a call holds it. -/
theorem sweep_drops (mark : ProviderConfig → Option Bool) (order : List EntryID) : ∀ p : Pool,
    p.Inv → e ∈ order → e ∈ p.ids → mark (p.heap e).config = some true → p.holders e = 0 →
    (sweep (fun entry => mark entry.config) order p).Retired e := by
  have stays (order : List EntryID) (p : Pool) (inv : p.Inv) (h : p.Retired e) :
      (sweep (fun entry => mark entry.config) order p).Retired e := by
    obtain ⟨plain, -⟩ := sweep_effect mark order p
    refine ⟨fun back => ?_, plain.left _ h.2⟩
    obtain old | young := plain.ids e back
    · exact h.1 old
    · exact absurd (inv.left.gone _ h.2).1 (Nat.not_lt.mpr young)
  induction order with
  | nil => exact fun p _ mem => by cases mem
  | cons x order ih =>
    intro p inv mem listed marked free
    rw [sweep]
    by_cases same : x = e
    · subst same
      rw [marked]
      dsimp only
      have markedInv := inv.mark x true
      refine stays order _ (markedInv.retire x) (retire_drops markedInv listed ?_ free)
      simp [setEntry]
    · have later : e ∈ order := (List.mem_cons.mp mem).resolve_left (Ne.symm same)
      split
      · exact ih p inv later listed marked free
      rename_i retiring _
      have markedInv := inv.mark x retiring
      have heap : (p.setEntry x { p.heap x with retiring }).heap e = p.heap e :=
        update_of_ne (Ne.symm same) ..
      obtain unchanged | ⟨_, _, _, _, _, found, eq⟩ :=
        (p.setEntry x { p.heap x with retiring }).retireEntryLocked_cases x
      · rw [unchanged]
        exact ih _ markedInv later listed (by rw [heap]; exact marked) free
      have inv' := markedInv.retire x
      rw [eq] at inv' ⊢
      refine ih _ inv' later ?_ ?_ free
      · exact (markedInv.held.ids_drop (markedInv.held.lookup.mp found)).mpr
          ⟨listed, Ne.symm same⟩
      · exact (congrArg (fun entry => mark entry.config) heap).trans marked

/-- The call of `retireCredential` drops an entry of the credential at once or marks it. -/
theorem retireCredential_effect {c : Nat} (inv : p.Inv) (mem : e ∈ p.ids)
    (partition : (p.heap e).config.credentialPartitionID = c) (nonzero : c ≠ 0)
    (called : step (.retireCredential c) p = some p₁) :
    (p₁.holders e = 0 → p₁.Retired e) ∧
      (e ∈ p₁.ids → p₁.closed = p.closed ∧ (p₁.heap e).config = (p.heap e).config ∧
        (p₁.heap e).retiring = true) := by
  have effect := step_effect called
  obtain ⟨f, -, entry⟩ := inv.listed mem
  have marked : (Label.retireCredential c).mark p.closed (p.heap e).config = some true := by
    simp [Label.mark, nonzero, partition]
  constructor
  · intro free
    cases called
    have same : (fun entry : Entry =>
        if entry.config.credentialPartitionID ≠ c then none else some true) =
        fun entry => (fun config : ProviderConfig =>
          if config.credentialPartitionID ≠ c then none else some true) entry.config := rfl
    unfold retireCredential at free ⊢
    rw [if_neg nonzero, same] at free ⊢
    rw [holders_congr (calls_sweep _ _ p)] at free
    exact sweep_drops
      (fun config => if config.credentialPartitionID ≠ c then none else some true) _ p
      inv mem mem (by simp [partition]) free
  · intro listed
    refine ⟨by simp [effect.closed, Label.closes], effect.config e entry.old, ?_⟩
    rw [effect.retiring e entry.old listed, marked, getD_some]

/-- After a call of `retireCredential`, the release of the last lease on an entry of the credential
hands its runtime over if and only if the last call that marked or unmarked the entry marked it;
once it is handed over, no lease on it is given any more. -/
theorem credential_retired_iff {c : Nat} (reachable : Reachable p) (mem : e ∈ p.ids)
    (partition : (p.heap e).config.credentialPartitionID = c) (nonzero : c ≠ 0)
    (called : step (.retireCredential c) p = some p₁) :
    (p₁.holders e = 0 → p₁.Retired e) ∧
    (∀ before last pₘ p', run step before p₁ = some pₘ → step last pₘ = some p' →
      0 < pₘ.holders e → p'.holders e = 0 → (p'.heap e).runtime ≠ none →
      (p'.Retired e ↔ lastMark (p.heap e).config p.closed before = true)) ∧
    ∀ labels p' later p'', run step labels p₁ = some p' → p'.Retired e →
      run step later p' = some p'' →
      p''.Retired e ∧ ∀ call ∈ p''.calls, call.phase.holds e = false := by
  have inv := Reachable.inv reachable
  have inv₁ := step_inv inv called
  obtain ⟨atOnce, marked⟩ := retireCredential_effect inv mem partition nonzero called
  obtain ⟨f, -, entry⟩ := inv.listed mem
  have old : e < p₁.next := Nat.lt_of_lt_of_le entry.old (step_effect called).next
  have reachable₁ : Reachable p₁ := reachable.step called
  refine ⟨atOnce, fun before last pₘ p' ran taken inUse free built => ?_,
    fun labels p' later p'' ran retired ran' => ?_⟩
  · have invₘ := Reachable.inv (reachable₁.run ran)
    obtain ⟨i, call, found, releasing, rfl⟩ := last_release invₘ taken inUse free built
    rw [release_iff invₘ found releasing free]
    obtain ⟨g, memₘ, -⟩ := invₘ.holder found (e := e) (by simp [releasing])
    obtain ⟨mem₁, -, marks⟩ := run_mark inv₁ old ran (mem_ids.mpr ⟨g, memₘ⟩)
    obtain ⟨closed, config, retiring⟩ := marked mem₁
    rw [closed, config, retiring] at marks
    rw [lastMark, ← marks]
  · obtain ⟨still, inv''⟩ := retired.run (Reachable.inv (reachable₁.run ran)) ran'
    exact ⟨still, fun call hc => still.unleased inv'' hc⟩

/-! ## A credential that is not retired -/

def partitioned : ProviderConfig :=
  { canonical := [1], fingerprint := "partitioned", targetCanonical := [2],
    targetFingerprint := "target", credentialPartitionID := 7 }

def target : ProviderConfig := { canonical := [2], fingerprint := "target" }

def leased : List Label := [.acquire partitioned, .look 0, .built 0, .lease 0]

/-- The configuration is reconciled while a lease on a retired credential is outstanding. -/
def revived : List Label :=
  leased ++ [.retireCredential 7, .reconcile [target], .callRelease 0, .release 0]

/-- All leases on the entry have been released, but it is in the pool, and it is leased again. -/
theorem retired_credential_lives_on :
    (run step revived {}).map (fun p => (p.holders 0, p.ids, p.retired ++ p.begun)) =
        some (0, [0], []) ∧
      (run step (revived ++ [.acquire partitioned, .look 1, .lease 1]) {}).map
        (fun p => p.calls.map Call.phase) = some [.released, .held 0 (some ⟨0⟩)] := by
  decide +kernel

theorem credential_retired_iff_leased : ∃ p p₁, run step leased {} = some p ∧
    step (.retireCredential 7) p = some p₁ ∧
    (p₁.holders 0 = 0 → p₁.Retired 0) ∧
    (∀ before last pₘ p', run step before p₁ = some pₘ → step last pₘ = some p' →
      0 < pₘ.holders 0 → p'.holders 0 = 0 → (p'.heap 0).runtime ≠ none →
      (p'.Retired 0 ↔ lastMark (p.heap 0).config p.closed before = true)) ∧
    ∀ labels p' later p'', run step labels p₁ = some p' → p'.Retired 0 →
      run step later p' = some p'' →
      p''.Retired 0 ∧ ∀ call ∈ p''.calls, call.phase.holds 0 = false := by
  have ends : (run step leased {}).map
      (fun p => (p.ids, (p.heap 0).config.credentialPartitionID)) = some ([0], 7) := by
    decide +kernel
  obtain ⟨p, ran, same⟩ := Option.map_eq_some_iff.mp ends
  obtain ⟨ids, partition⟩ := Prod.mk.injEq .. ▸ same
  have reachable : Reachable p := Reachable.init.run ran
  exact ⟨p, p.retireCredential 7, ran, rfl,
    credential_retired_iff reachable (by simp [ids]) partition (by decide) rfl⟩

end ApiLoad.Bifrost
