import ApiLoad.Scheduler.Safety

/-!
# Runs of an iterator

Calls of `Next`, `SkipGroup`, `AdvancePriority` and `ChargeReplay` in any order. Between two calls
other requests and the registry go on, so every call finds a ledger and a registry of its own. The
targets of the iterator stay what they were when it was built from a compiled snapshot.
-/
namespace ApiLoad.Scheduler
open Std (ExtTreeMap)
open Foundation Channel State Scheduling CandidatePool Iterator List Option

/-! ## The pools of a new iterator -/

theorem CandidatePool.targets_add (pool : CandidatePool) (t : CandidateTarget) (groupID : Nat) :
    (pool.add t).targets groupID =
      if t.target.groupID = groupID then pool.targets groupID ++ [t] else pool.targets groupID := by
  simp only [targets, add, OrderedMap.lookup_insert]
  grind

variable {t : CandidateTarget}

theorem CandidatePool.mem_targets_sort {pool : CandidatePool} :
    t ∈ pool.sort.targets groupID ↔ t ∈ pool.targets groupID := by
  unfold targets sort
  cases h : pool.targetsByGroup[groupID]? with
  | none => simp [h]
  | some targets => simp [h, (perm_insertionSort _ targets).mem_iff]

/-- The pool lists targets of a query under their groups. -/
def CandidatePool.Lists (targets : List CandidateTarget) (pool : CandidatePool) : Prop :=
  ∀ groupID, ∀ t ∈ pool.targets groupID, t ∈ targets ∧ t.target.groupID = groupID

theorem fillPools_lists (targets : List CandidateTarget) :
    (fillPools targets).1.Lists targets ∧ (fillPools targets).2.Lists targets := by
  induction targets using reverseRecOn with
  | nil => simp [fillPools, CandidatePool.Lists, targets]
  | append_singleton targets t ih =>
    have kept {pool : CandidatePool} (h : pool.Lists targets) : pool.Lists (targets ++ [t]) :=
      fun groupID t' ht' => ⟨mem_append_left _ (h groupID t' ht').1, (h groupID t' ht').2⟩
    have added {pool : CandidatePool} (h : pool.Lists targets) :
        (pool.add t).Lists (targets ++ [t]) := by
      intro groupID t' ht'
      rw [targets_add] at ht'
      split at ht'
      · next hg =>
        rcases mem_append.mp ht' with hold | hnew
        · exact kept h groupID t' hold
        · rw [mem_singleton.mp hnew]
          exact ⟨by simp, hg⟩
      · exact kept h groupID t' ht'
    simp only [fillPools, foldl_append, foldl_cons, foldl_nil]
    split
    · exact ⟨kept ih.1, added ih.2⟩
    · exact ⟨added ih.1, kept ih.2⟩

/-- A target of the query: an included decision and the view of its group. -/
structure Included (snapshot : ConfigSnapshot) (query : Query) (t : CandidateTarget) : Prop where
  decision : ∃ decisions reason, evaluateTargets (some snapshot) snapshot.executionCandidates
    (normalizeQuery query) true = .ok (decisions, reason) ∧ ∃ d ∈ decisions, d.included = true ∧
      d.target = t.target ∧ d.responsesStoreDowngraded = t.responsesStoreDowngraded
  group : snapshot.groups[t.target.groupID]? = some t.group

theorem filterTargets_included {snapshot : ConfigSnapshot} {query : Query}
    {targets : List CandidateTarget}
    (h : filterTargetsWithReason (some snapshot) query = .ok (targets, reason)) (ht : t ∈ targets) :
    Included snapshot query t := by
  unfold filterTargetsWithReason at h
  dsimp only at h
  split at h
  · cases h
    cases ht
  · cases h
  next decisions _ he =>
  cases h
  obtain ⟨d, hd, hmap⟩ := mem_filterMap.mp ht
  split at hmap
  · next included =>
    obtain ⟨group, hgroup, rfl⟩ := map_eq_some_iff.mp hmap
    exact ⟨⟨decisions, _, he, d, hd, included, rfl, rfl⟩, hgroup⟩
  · cases hmap

variable {input : CompileInput} {compiled : ConfigSnapshot} {revision : Nat} {query : Query}

/-- The targets of a query on a compiled snapshot are named by group and upstream model. -/
theorem Included.unique (ok : compile input = .ok compiled)
    (ha : Included { compiled with revision } query a)
    (hb : Included { compiled with revision } query b) (group : a.target.groupID = b.target.groupID)
    (upstream : a.target.upstreamModelID = b.target.upstreamModelID) : a = b := by
  obtain ⟨decisions, reason, he, d, hd, -, htarget, hstore⟩ := ha.decision
  obtain ⟨_, _, he', d', hd', -, htarget', hstore'⟩ := hb.decision
  cases he.symm.trans he'
  obtain ⟨same, sameStore⟩ := decisions_unique ok he hd hd'
    (by rw [htarget, htarget', group]) (by rw [htarget, htarget', upstream])
  have hgroup := ha.group
  rw [group, hb.group] at hgroup
  obtain ⟨target, group', store⟩ := a
  obtain ⟨target', group'', store'⟩ := b
  simp_all

theorem Included.groupID_ne_zero (ok : compile input = .ok compiled)
    (h : Included { compiled with revision } query t) : t.target.groupID ≠ 0 := by
  obtain ⟨decisions, reason, he, d, hd, -, htarget, -⟩ := h.decision
  rw [← htarget]
  exact decisions_groupID_ne_zero ok he hd

/-! ## What the calls keep -/

namespace Iterator

/-- An iterator for a query on a snapshot, at any point of its life. -/
structure Serves (snapshot : ConfigSnapshot) (query : Query) (it : Iterator) : Prop where
  operation : it.operation = (normalizeQuery query).operation
  routeModeTiers : it.routeModeTiers = Scheduler.routeModeTiers (some snapshot)
  allowedCredentialIDs : it.allowedCredentialIDs = query.allowedCredentialIDs
  allowedCredentialRefs : it.allowedCredentialRefs = query.allowedCredentialRefs.map fun refs =>
    refs.map fun _ (ref : CredentialRef) => ⟨ref.groupID, ref.identityGeneration⟩
  targets : ∀ kind groupID, ∀ t ∈ (it.pool kind).targets groupID,
    Included snapshot query t ∧ t.target.groupID = groupID

theorem serves_new {snapshot : ConfigSnapshot} {start ledger : SchedulingLedger}
    (h : newWithClock (some snapshot) query start = (ledger, .ok it)) :
    it.Serves snapshot query ∧ it.tried = [] ∧ it.skippedGroups = [] := by
  unfold newWithClock at h
  cases hf : filterTargetsWithReason (some snapshot) query with
  | error panic => simp [hf, Except.map] at h
  | ok result =>
    obtain ⟨targets, reason⟩ := result
    rw [hf] at h
    cases h
    refine ⟨⟨rfl, rfl, rfl, rfl, fun kind groupID t ht => ?_⟩, rfl, rfl⟩
    have lists := fillPools_lists targets
    cases kind with
    | regular =>
      obtain ⟨listed, hg⟩ := lists.1 groupID t (mem_targets_sort.mp ht)
      exact ⟨filterTargets_included hf listed, hg⟩
    | storeDowngraded =>
      obtain ⟨listed, hg⟩ := lists.2 groupID t (mem_targets_sort.mp ht)
      exact ⟨filterTargets_included hf listed, hg⟩

theorem Serves.named (ok : compile input = .ok compiled) {it : Iterator}
    (h : it.Serves { compiled with revision } query) (kind : PoolKind) : (it.pool kind).Named := by
  intro groupID a ha b hb upstream
  obtain ⟨ia, hga⟩ := h.targets kind groupID a ha
  obtain ⟨ib, hgb⟩ := h.targets kind groupID b hb
  exact ia.unique ok ib (hga.trans hgb.symm) upstream

variable {it : Iterator} {snapshot : ConfigSnapshot}

section

variable (h : it.Serves snapshot query)
include h

/-- Replacing a pool by one with the same targets changes nothing that matters here. -/
theorem Serves.setPool (kind : PoolKind) {pool : CandidatePool}
    (same : pool.targetsByGroup = (it.pool kind).targetsByGroup) :
    (it.setPool kind pool).Serves snapshot query := by
  have keeps {kind' : PoolKind} (groupID : Nat) :
      ((it.setPool kind pool).pool kind').targets groupID = (it.pool kind').targets groupID := by
    cases kind <;> cases kind' <;>
      simp_all [Iterator.setPool, Iterator.pool, CandidatePool.targets]
  cases kind <;> exact {
    operation := h.operation
    routeModeTiers := h.routeModeTiers
    allowedCredentialIDs := h.allowedCredentialIDs
    allowedCredentialRefs := h.allowedCredentialRefs
    targets := fun kind' groupID t ht => h.targets kind' groupID t (keeps groupID ▸ ht) }

/-- The marks of tried credentials and skipped groups do not matter either. -/
theorem Serves.mark (tried skippedGroups : List Nat) :
    ({ it with tried, skippedGroups } : Iterator).Serves snapshot query where
  operation := h.operation
  routeModeTiers := h.routeModeTiers
  allowedCredentialIDs := h.allowedCredentialIDs
  allowedCredentialRefs := h.allowedCredentialRefs
  targets
    | .regular => h.targets .regular
    | .storeDowngraded => h.targets .storeDowngraded

theorem Serves.skipGroup (groupID : Nat) : (it.skipGroup groupID).Serves snapshot query := by
  unfold Iterator.skipGroup
  split
  · exact h
  · exact h.mark it.tried _

theorem Serves.record (found : Found) : (it.record found).Serves snapshot query := by
  refine (h.mark (found.info.id :: it.tried) it.skippedGroups).setPool found.kind ?_
  cases found.kind <;> split <;> rfl

theorem Serves.next (ledger : SchedulingLedger) (first second : Moment) :
    (it.next ledger first second).1.Serves snapshot query := by
  unfold Iterator.next
  split
  · exact h.record _
  · exact h
  · exact h

theorem Serves.advancePriority (selection : Selection) :
    (it.advancePriority selection).Serves snapshot query := h.setPool _ rfl

end

/-! ## Runs -/

inductive Call where
  | next (first second : Moment)
  | skipGroup (groupID : Nat)
  | advancePriority (selection : Selection)
  | chargeReplay (moment : Moment) (selection : Selection) (ref : CredentialRef)

/-- The iterator after a call that found this ledger. A replay is charged in the ledger only. -/
def perform (it : Iterator) : SchedulingLedger × Call → Iterator
  | (ledger, .next first second) => (it.next ledger first second).1
  | (_, .skipGroup groupID) => it.skipGroup groupID
  | (_, .advancePriority selection) => it.advancePriority selection
  | (_, .chargeReplay ..) => it

def after (it : Iterator) (history : List (SchedulingLedger × Call)) : Iterator :=
  history.foldl perform it

/-- The results of the calls of `Next`, in order. -/
def results (it : Iterator) :
    List (SchedulingLedger × Call) → List (Except Panic (Option Selection))
  | [] => []
  | (ledger, .next first second) :: history =>
    (it.next ledger first second).2.2 :: (it.next ledger first second).1.results history
  | e :: history => (it.perform e).results history

def returned (it : Iterator) (history : List (SchedulingLedger × Call)) : List Nat :=
  (it.results history).filterMap fun
    | .ok (some selection) => some selection.credentialID
    | _ => none

def skipped (history : List (SchedulingLedger × Call)) : List Nat :=
  history.filterMap fun
    | (_, .skipGroup groupID) => some groupID
    | _ => none

theorem Serves.perform (h : it.Serves snapshot query) (e : SchedulingLedger × Call) :
    (it.perform e).Serves snapshot query := by
  obtain ⟨ledger, call⟩ := e
  cases call with
  | next first second => exact h.next ledger first second
  | skipGroup groupID => exact h.skipGroup groupID
  | advancePriority selection => exact h.advancePriority selection
  | chargeReplay => exact h

theorem Serves.after (h : it.Serves snapshot query) (history : List (SchedulingLedger × Call)) :
    (it.after history).Serves snapshot query := by
  induction history generalizing it with
  | nil => exact h
  | cons e history ih => exact ih (h.perform e)

@[simp] theorem setPool_tried (it : Iterator) (kind : PoolKind) (pool : CandidatePool) :
    (it.setPool kind pool).tried = it.tried := by cases kind <;> rfl

@[simp] theorem setPool_skippedGroups (it : Iterator) (kind : PoolKind) (pool : CandidatePool) :
    (it.setPool kind pool).skippedGroups = it.skippedGroups := by cases kind <;> rfl

@[simp] theorem skipGroup_tried (it : Iterator) (groupID : Nat) :
    (it.skipGroup groupID).tried = it.tried := by
  unfold skipGroup
  split <;> rfl

/-- A call of `Next` marks the credential it returns, and nothing else. -/
theorem next_marks (it : Iterator) (ledger : SchedulingLedger) (first second : Moment) :
    (it.next ledger first second).1.skippedGroups = it.skippedGroups ∧
      (it.next ledger first second).1.tried =
        match (it.next ledger first second).2.2 with
        | .ok (some selection) => selection.credentialID :: it.tried
        | _ => it.tried := by
  unfold next
  split <;> simp [record, Found.selection, newSelection]

theorem perform_skippedGroups (it : Iterator) (e : SchedulingLedger × Call)
    (h : groupID ∈ it.skippedGroups ∨ (groupID ≠ 0 ∧ groupID ∈ skipped [e])) :
    groupID ∈ (it.perform e).skippedGroups := by
  obtain ⟨ledger, call⟩ := e
  cases call with
  | next first second =>
    rw [perform, (it.next_marks ledger first second).1]
    simpa [skipped] using h
  | skipGroup id =>
    simp only [skipped, filterMap_cons, filterMap_nil, mem_singleton] at h
    rw [perform, skipGroup]
    grind
  | advancePriority selection =>
    rw [perform, advancePriority, setPool_skippedGroups]
    simpa [skipped] using h
  | chargeReplay moment selection ref =>
    rw [perform]
    simpa [skipped] using h

/-- A group that was skipped stays skipped. -/
theorem after_skippedGroups (it : Iterator) (history : List (SchedulingLedger × Call))
    (h : groupID ∈ it.skippedGroups ∨ (groupID ≠ 0 ∧ groupID ∈ skipped history)) :
    groupID ∈ (it.after history).skippedGroups := by
  induction history generalizing it with
  | nil => simpa [skipped, after] using h
  | cons e history ih =>
    apply ih
    by_cases hin : groupID ∈ skipped history
    · rcases h with h | h
      · exact .inl (it.perform_skippedGroups e (.inl h))
      · exact .inr ⟨h.1, hin⟩
    refine .inl (it.perform_skippedGroups e (h.imp_right fun h => ⟨h.1, ?_⟩))
    have split : skipped (e :: history) = skipped [e] ++ skipped history := by
      simp [skipped, ← filterMap_append]
    rw [split, mem_append] at h
    exact h.2.resolve_right hin

/-! ## Admissible selections -/

/-- What a selection has to satisfy at the moment it is made. -/
structure Admissible (snapshot : ConfigSnapshot) (query : Query) (skipped : List Nat) (m : Moment)
    (found : Found) : Prop where
  registered : ∃ bucket entry, m.registry.buckets[found.info.groupID]? = some bucket ∧
    bucket[found.info.id]? = some entry ∧ selectableAt entry m.now = true ∧
    found.info = credentialMeta entry
  allowedID : ∀ ids, query.allowedCredentialIDs = some ids → found.info.id ∈ ids
  allowedRef : ∀ refs, query.allowedCredentialRefs = some refs → ∃ ref,
    refs[found.info.id]? = some ref ∧ ref.groupID = found.info.groupID ∧
      ref.identityGeneration = found.info.identityGeneration
  notSkipped : found.info.groupID ∉ skipped
  weight : 0 < configuredWeight found.target.group.weightManual *
    configuredWeight found.info.weightManual
  groupID : found.target.target.groupID = found.info.groupID
  included : Included snapshot query found.target
  tier : found.modes ∈ Scheduler.routeModeTiers (some snapshot)
  mode : found.target.target.mode ∈ found.modes
  cooldown : ¬ m.now < modelCooldownUntil found.info.modelCooldowns
    found.target.target.upstreamModelID (normalizeQuery query).operation m.now

theorem effectiveWeight_pos (h : 0 < effectiveWeight group credential) :
    0 < configuredWeight group * configuredWeight credential := by
  unfold effectiveWeight at h
  dsimp only at h
  split at h
  · exact absurd h (lt_irrefl 0)
  · exact h

/-- The checks on the credential, read off the query. -/
theorem Serves.allows (h : it.Serves snapshot query) (allowed : it.allows c = true) :
    (∀ ids, query.allowedCredentialIDs = some ids → c.id ∈ ids) ∧
    (∀ refs, query.allowedCredentialRefs = some refs → ∃ ref, refs[c.id]? = some ref ∧
      ref.groupID = c.groupID ∧ ref.identityGeneration = c.identityGeneration) ∧
    c.groupID ∉ it.skippedGroups := by
  simp only [Iterator.allows, Bool.and_eq_true, decide_eq_true_eq] at allowed
  obtain ⟨⟨hids, hrefs⟩, hskip⟩ := allowed
  refine ⟨fun ids hq => ?_, fun refs hq => ?_, hskip⟩
  · rw [h.allowedCredentialIDs, hq] at hids
    simpa using hids
  rw [h.allowedCredentialRefs, hq] at hrefs
  simp only [map_some, all_some, ExtTreeMap.getElem?_map] at hrefs
  cases hr : refs[c.id]? with
  | none => simp [hr] at hrefs
  | some ref =>
    simp only [hr, map_some, any_some, Bool.and_eq_true, decide_eq_true_eq] at hrefs
    exact ⟨ref, rfl, hrefs⟩

/-- A call of `Next` does not panic. Its selection is admissible and was not tried before. -/
theorem Serves.search (ok : compile input = .ok compiled)
    (h : it.Serves { compiled with revision } query) (ledger : SchedulingLedger)
    (first second : Moment) :
    (∃ r, (it.search ledger first second).2 = .ok r) ∧
      ∀ found, (it.search ledger first second).2 = .ok (some found) →
        Admissible { compiled with revision } query it.skippedGroups
          (found.moment first second) found ∧ found.info.id ∉ it.tried := by
  obtain ⟨ledger', hs⟩ | ⟨ledger', found, hs, tier, finds⟩ :=
    search_returns (h.named ok) first second ledger
  · rw [hs]
    exact ⟨⟨none, rfl⟩, fun _ h => by cases h⟩
  rw [hs]
  refine ⟨⟨some found, rfl⟩, fun _ he => ?_⟩
  cases he
  obtain ⟨w, hw, hinfo⟩ := finds.candidate
  obtain ⟨hweigh, untried, registered⟩ :=
    mem_weightedPool ((it.priorityCandidates_sublist _ _).subset hw)
  rw [hinfo] at hweigh untried registered
  obtain ⟨-, allowed, -, t, ht, -, weight⟩ := weigh_some hweigh
  obtain ⟨hids, hrefs, hskip⟩ := h.allows allowed
  obtain ⟨included, hgroup⟩ := h.targets _ _ _ finds.target
  obtain ⟨included', hgroup'⟩ := h.targets _ _ _ ht
  -- The target that was weighed and the one that is returned belong to the same group.
  have sameGroup : t.group = found.target.group := by
    have := included'.group
    rw [hgroup', ← hgroup, included.group] at this
    exact (some.inj this).symm
  have available := finds.available
  simp only [targetAvailable, Bool.and_eq_true, decide_eq_true_eq, Bool.not_eq_true',
    decide_eq_false_iff_not, h.operation] at available
  exact ⟨{
    registered := registered
    allowedID := hids
    allowedRef := hrefs
    notSkipped := hskip
    weight := effectiveWeight_pos (sameGroup ▸ weight)
    groupID := hgroup
    included := included
    tier := h.routeModeTiers ▸ tier
    mode := available.1
    cooldown := available.2 }, untried⟩

theorem next_result (it : Iterator) (ledger : SchedulingLedger) (first second : Moment) :
    (it.next ledger first second).2.2 =
      (it.search ledger first second).2.map (Option.map Found.selection) := by
  unfold next
  split <;> next h => rw [h]; rfl

/-- The registry that is read holds no other IDs. -/
def Within (m : Moment) (ids : Finset ℕ) : Prop :=
  ∀ (groupID id : ℕ) (bucket : ExtTreeMap Nat CredentialRuntimeView)
    (entry : CredentialRuntimeView), m.registry.buckets[groupID]? = some bucket →
      bucket[id]? = some entry → id ∈ ids

def Call.moments : Call → List Moment
  | .next first second => [first, second]
  | .chargeReplay moment _ _ => [moment]
  | _ => []

theorem Found.moment_mem (found : Found) (first second : Moment) :
    found.moment first second ∈ [first, second] := by
  unfold Found.moment
  split <;> simp

/-- The returned credentials: no ID twice, none that was tried before, and all in the registry. -/
structure ReturnsFresh (it : Iterator) (history : List (SchedulingLedger × Call)) : Prop where
  nodup : (it.returned history).Nodup
  untried : ∀ id ∈ it.returned history, id ∉ it.tried
  within : ∀ ids : Finset ℕ, (∀ e ∈ history, ∀ m ∈ e.2.moments, Within m ids) →
    ∀ id ∈ it.returned history, id ∈ ids

section

variable (ok : compile input = .ok compiled) (h : it.Serves { compiled with revision } query)
  (history : List (SchedulingLedger × Call))
include ok h

theorem Serves.returnsFresh : it.ReturnsFresh history := by
  induction history generalizing it with
  | nil =>
    have none : it.returned [] = [] := rfl
    exact ⟨none ▸ nodup_nil, by simp [none], by simp [none]⟩
  | cons e history ih =>
    obtain ⟨nodup, untried, within⟩ := ih (h.perform e)
    have later (ids : Finset ℕ) (hw : ∀ e' ∈ e :: history, ∀ m ∈ e'.2.moments, Within m ids) :=
      within ids fun e' he' => hw e' (mem_cons_of_mem _ he')
    obtain ⟨ledger, call⟩ := e
    -- Only a call of `Next` returns something or tries a credential.
    have other (hr : it.returned ((ledger, call) :: history) =
        (it.perform (ledger, call)).returned history)
        (ht : (it.perform (ledger, call)).tried = it.tried) :
        it.ReturnsFresh ((ledger, call) :: history) :=
      ⟨hr ▸ nodup, hr ▸ ht ▸ untried, hr ▸ later⟩
    cases call with
    | next first second =>
      obtain ⟨⟨r, hr⟩, admissible⟩ := h.search ok ledger first second
      have result := it.next_result ledger first second
      have marks := (it.next_marks ledger first second).2
      rw [result, hr] at marks
      have head : it.returned ((ledger, .next first second) :: history) =
          ((r.map Found.selection).map Selection.credentialID).toList ++
            (it.perform (ledger, .next first second)).returned history := by
        rw [returned, results, filterMap_cons, result, hr]
        cases r <;> rfl
      cases r with
      | none => exact other head marks
      | some found =>
        obtain ⟨hfound, fresh⟩ := admissible found hr
        have tried : (it.perform (ledger, .next first second)).tried =
          found.info.id :: it.tried := marks
        rw [tried] at untried
        refine ⟨?_, ?_, ?_⟩ <;> rw [head]
        · exact nodup_cons.mpr ⟨fun hin => untried _ hin mem_cons_self, nodup⟩
        · intro id hid
          rcases mem_cons.mp hid with rfl | hid
          · exact fresh
          · exact fun hin => untried id hid (mem_cons_of_mem _ hin)
        intro ids hw id hid
        rcases mem_cons.mp hid with rfl | hid
        · obtain ⟨bucket, entry, hb, he, -⟩ := hfound.registered
          exact hw (ledger, .next first second) mem_cons_self _ (found.moment_mem first second)
            _ _ bucket entry hb he
        · exact later ids hw id hid
    | skipGroup groupID => exact other rfl (it.skipGroup_tried groupID)
    | advancePriority selection => exact other rfl (it.setPool_tried _ _)
    | chargeReplay moment selection ref => exact other rfl rfl

/-- Without a panic and without `ErrExhausted`, every call of `Next` returns a credential. -/
theorem Serves.results_length (unexhausted : .ok none ∉ it.results history) :
    (it.results history).length = (it.returned history).length := by
  induction history generalizing it with
  | nil => rfl
  | cons e history ih =>
    obtain ⟨ledger, call⟩ := e
    have rest := ih (h.perform (ledger, call))
    cases call with
    | next first second =>
      obtain ⟨⟨r, hr⟩, -⟩ := h.search ok ledger first second
      have result := it.next_result ledger first second
      rw [results, mem_cons, not_or, result, hr] at unexhausted
      rw [returned, results, filterMap_cons, result, hr]
      cases r with
      | none => exact absurd rfl unexhausted.1
      | some found => exact congrArg (· + 1) (rest unexhausted.2)
    | skipGroup | advancePriority | chargeReplay => exact rest unexhausted

end

/-- An iterator for a compiled snapshot is safe in every run: its calls of `Next` do not panic and
return admissible selections, no credential comes twice, and over finitely many credentials the
iterator is exhausted after as many successes. -/
theorem iterator_safety (ok : compile input = .ok compiled) {start ledger : SchedulingLedger}
    (built : newWithClock (some { compiled with revision }) query start = (ledger, .ok it))
    (history : List (SchedulingLedger × Call)) :
    (∀ early d first second late, history = early ++ (d, .next first second) :: late →
      (∃ r, ((it.after early).next d first second).2.2 = .ok r) ∧
      ∀ selection, ((it.after early).next d first second).2.2 = .ok (some selection) →
        ∃ found, ((it.after early).search d first second).2 = .ok (some found) ∧
          selection = found.selection ∧
          Admissible { compiled with revision } query (skipped early)
            (found.moment first second) found) ∧
    (it.returned history).Nodup ∧
    ∀ ids : Finset ℕ, (∀ e ∈ history, ∀ m ∈ e.2.moments, Within m ids) →
      (it.returned history).length ≤ ids.card ∧
      (ids.card < (it.results history).length → .ok none ∈ it.results history) := by
  obtain ⟨serves, -, -⟩ := serves_new built
  have fresh := serves.returnsFresh ok history
  refine ⟨fun early d first second late _ => ?_, fresh.nodup, fun ids hw => ?_⟩
  · obtain ⟨⟨r, hr⟩, admissible⟩ := (serves.after early).search ok d first second
    rw [next_result, hr]
    refine ⟨⟨_, rfl⟩, fun selection hs => ?_⟩
    obtain ⟨found, rfl, rfl⟩ := Option.map_eq_some_iff.mp (Except.ok.inj hs)
    obtain ⟨hfound, -⟩ := admissible found hr
    refine ⟨found, rfl, rfl, { hfound with notSkipped := fun hin => hfound.notSkipped ?_ }⟩
    have nonzero := hfound.included.groupID_ne_zero ok
    rw [hfound.groupID] at nonzero
    exact it.after_skippedGroups early (.inr ⟨nonzero, hin⟩)
  · have bound : (it.returned history).length ≤ ids.card := by
      rw [← toFinset_card_of_nodup fresh.nodup]
      exact Finset.card_le_card fun id hid => fresh.within ids hw id (mem_toFinset.mp hid)
    refine ⟨bound, fun more => ?_⟩
    by_contra unexhausted
    have := serves.results_length ok history unexhausted
    omega

/-! ## A sample run -/

/-- A channel that converts nothing and serves chat completions. -/
def sampleTarget : ResolvedTarget where
  channelID := .other "sample"
  targetConfig := ""
  responsesWebsocket := {}
  modes := (∅ : ExtTreeMap Protocol (ExtTreeMap Operation RouteMode)).insert .openAICompletions
    ((∅ : ExtTreeMap Operation RouteMode).insert .chatCompletion .native)
  resolvers := fun _ _ => none
  responsesStoreHandlings := fun _ _ => .none

def sampleInput : CompileInput where
  channelRegistry :=
    { get := fun _ => some ⟨[.openAICompletions], ["api_key"], "api_key"⟩
      resolve := fun _ _ => .ok sampleTarget
      validateParams := fun _ params => .ok params }
  routeStrategy := .nativeFirst
  groups := [{ id := 5, channelID := .other "sample", connectionType := "api_key",
               models := [⟨"north", "m"⟩, ⟨"south", "m"⟩], settings := .ok {} }]
  credentials := []

def sampleQuery : Query := { clientProtocol := .openAICompletions, externalModel := some "m" }

/-- The value of a computation that is known to return. -/
def returnedBy {ε α : Type} (x : Except ε α) (h : x.isOk = true) : α :=
  match x, h with
  | .ok a, _ => a

theorem returnedBy_eq {ε α : Type} (x : Except ε α) (h : x.isOk = true) :
    x = .ok (returnedBy x h) := by
  cases x with
  | error e => cases h
  | ok a => rfl

def sampleCompiled : ConfigSnapshot := returnedBy (compile sampleInput) (by decide +kernel)

def sampleEntry (id : Nat) : CredentialRuntimeView :=
  { id, groupID := 5, identityGeneration := 1 }

def sampleMoment : Moment where
  registry :=
    { buckets := (∅ : ExtTreeMap Nat (ExtTreeMap Nat CredentialRuntimeView)).insert 5
        (((∅ : ExtTreeMap Nat CredentialRuntimeView).insert 1 (sampleEntry 1)).insert 2
          (sampleEntry 2))
      filed := by
        intro groupID id bucket entry hb he
        simp only [OrderedMap.lookup_insert, ExtTreeMap.getElem?_empty] at hb
        split at hb
        · cases hb
          simp only [OrderedMap.lookup_insert, ExtTreeMap.getElem?_empty] at he
          grind [sampleEntry]
        · cases hb }
  now := 7
  order := id
  order_perm := fun l => .refl l

def sampleLedger : SchedulingLedger :=
  newSchedulingState.syncCredentials 0 [(sampleEntry 1, 7), (sampleEntry 2, 7)]

def sampleIterator : Iterator :=
  returnedBy (newWithClock (some { sampleCompiled with revision := 1 }) sampleQuery sampleLedger).2
    (by decide +kernel)

def sampleHistory : List (SchedulingLedger × Call) :=
  [(sampleLedger, .next sampleMoment sampleMoment), (sampleLedger, .next sampleMoment sampleMoment),
    (sampleLedger, .next sampleMoment sampleMoment)]

theorem sampleMoment_within : Within sampleMoment {1, 2} := by
  intro groupID id bucket entry hb he
  simp only [sampleMoment, OrderedMap.lookup_insert, ExtTreeMap.getElem?_empty] at hb
  split at hb
  · cases hb
    simp only [OrderedMap.lookup_insert, ExtTreeMap.getElem?_empty] at he
    grind
  · cases hb

/-- Two credentials are returned one after the other; the third call finds nothing. -/
theorem iterator_safety_sample :
    sampleIterator.returned sampleHistory = [1, 2] ∧
      .ok none ∈ sampleIterator.results sampleHistory := by
  refine ⟨by decide +kernel, ?_⟩
  have built : newWithClock (some { sampleCompiled with revision := 1 }) sampleQuery sampleLedger =
      ((newWithClock (some { sampleCompiled with revision := 1 }) sampleQuery sampleLedger).1,
        .ok sampleIterator) := Prod.ext rfl (returnedBy_eq _ _)
  refine ((iterator_safety (returnedBy_eq _ _) built sampleHistory).2.2 {1, 2} ?_).2
    (by decide +kernel)
  simp [sampleHistory, Call.moments, sampleMoment_within]

end Iterator
end ApiLoad.Scheduler
