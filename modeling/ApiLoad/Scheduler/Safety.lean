import ApiLoad.Scheduler.Iterator

/-!
# Safety of the iterator

Eligibility is decided in several passes: over all modes when the pool is weighed, over the modes
of a tier when the candidates are narrowed, and once more when the target of the selected credential
is picked. This module connects them. Whatever ledger and registry a call of `Next` finds, it does
not panic, and the selection it returns passes all the checks at once.
-/
namespace ApiLoad.Scheduler
open Std (ExtTreeMap)
open Foundation Channel State Scheduling SchedulingLedger List Option

/-! ## Candidates -/

variable {c : CredentialMeta}

/-- A candidate of a bucket comes from the entry under its ID. -/
theorem mem_bucketCandidates {registry : CredentialRegistry}
    (h : c ∈ registry.bucketCandidates excluded now groupID) :
    c.groupID = groupID ∧ excluded c.id = false ∧ ∃ bucket entry,
      registry.buckets[c.groupID]? = some bucket ∧ bucket[c.id]? = some entry ∧
      selectableAt entry now = true ∧ c = credentialMeta entry := by
  obtain ⟨⟨id, entry⟩, hmem, hc⟩ := mem_filterMap.mp h
  have lookup := OrderedMap.lookup_of_mem_toList hmem
  cases hb : registry.buckets[groupID]? with
  | none => simp [hb] at lookup
  | some bucket =>
    rw [hb, getD_some] at lookup
    obtain ⟨rfl, rfl⟩ := registry.filed hb lookup
    simp only [ite_none_right_eq_some, Bool.and_eq_true, Bool.not_eq_true',
      some.injEq] at hc
    obtain ⟨⟨excluded', selectable⟩, rfl⟩ := hc
    exact ⟨rfl, excluded', bucket, entry, hb, lookup, selectable, rfl⟩

/-- The candidates stand at different places in the registry. -/
def Apart (a b : CredentialMeta) : Prop := ¬ (a.groupID = b.groupID ∧ a.id = b.id)

theorem bucketCandidates_apart (registry : CredentialRegistry) (excluded : Nat → Bool) (now : Time)
    (groupID : Nat) : (registry.bucketCandidates excluded now groupID).Pairwise Apart := by
  unfold CredentialRegistry.bucketCandidates
  cases hb : registry.buckets[groupID]? with
  | none =>
    have : (∅ : ExtTreeMap Nat CredentialRuntimeView).toList = [] := by simp
    simp [this]
  | some bucket =>
    have keys := OrderedMap.nodup_keys_toList bucket
    rw [List.Nodup, pairwise_map] at keys
    refine List.Pairwise.filterMap _ (fun e e' h c hc c' hc' same => ?_)
      (List.Pairwise.and_mem.mp keys)
    obtain ⟨he, he', hne⟩ := h
    have id := (registry.filed hb (OrderedMap.lookup_of_mem_toList he)).1
    have id' := (registry.filed hb (OrderedMap.lookup_of_mem_toList he')).1
    simp only [ite_none_right_eq_some, some.injEq] at hc hc'
    obtain ⟨-, rfl⟩ := hc
    obtain ⟨-, rfl⟩ := hc'
    exact hne (id.symm.trans (same.2.trans id'))

theorem collect_apart (registry : CredentialRegistry) {groupIDs : List Nat} (nodup : groupIDs.Nodup)
    (excluded : Nat → Bool) (now : Time) :
    (registry.collectCredentialCandidates groupIDs excluded now).Pairwise Apart := by
  rw [CredentialRegistry.collectCredentialCandidates, pairwise_flatMap]
  refine ⟨fun groupID _ => bucketCandidates_apart .., nodup.imp fun hne c hc c' hc' same => hne ?_⟩
  rw [← (mem_bucketCandidates hc).1, ← (mem_bucketCandidates hc').1]
  exact same.1

theorem modeGroupIDs_nodup (pool : CandidatePool) (modes : List RouteMode) :
    (pool.modeGroupIDs modes).Nodup := by
  have added (l : List Nat) {ids : List Nat} (h : ids.Nodup) :
      (l.foldl CandidatePool.addGroupID ids).Nodup := by
    induction l generalizing ids with
    | nil => exact h
    | cons id l ih =>
      apply ih
      unfold CandidatePool.addGroupID
      split
      · exact h
      · next absent => exact h.append (by simp) (by simpa using absent)
  rw [CandidatePool.modeGroupIDs, ← foldl_flatMap]
  exact added _ nodup_nil

/-! ## Selection -/

variable {candidates : List WeightedCredential}

/-- The ledger knows at most one of the candidates with an ID. -/
theorem eligible_nodup (d : SchedulingLedger)
    (apart : candidates.Pairwise fun a b => Apart a.info b.info) :
    ((d.eligible candidates).map (·.id)).Nodup := by
  rw [List.Nodup, pairwise_map]
  refine (List.Pairwise.and_mem.mp (apart.filter _)).imp fun ⟨ha, hb, h⟩ same => h ?_
  obtain ⟨m, hm, hg, -⟩ := knows_iff.mp (mem_eligible.mp ha).2
  obtain ⟨m', hm', hg', -⟩ := knows_iff.mp (mem_eligible.mp hb).2
  change d.members[WeightedCredential.id _]? = some m at hm
  rw [same] at hm
  cases hm.symm.trans hm'
  exact ⟨hg.symm.trans hg', same⟩

/-- With candidates from different places and of positive weight, `selectCredential` returns. -/
theorem selectCredential_returns (d : SchedulingLedger) (snapshot : Option ConfigSnapshot)
    (preferred : Nat)
    (apart : candidates.Pairwise fun a b => Apart a.info b.info)
    (positive : ∀ c ∈ candidates, c.weight ≠ 0) :
    ∃ r, (d.selectCredential snapshot candidates preferred).2 = .ok r := by
  by_cases h : d.Proceeds candidates
  swap
  · exact ⟨none, by rw [selectCredential_idle snapshot preferred h]⟩
  obtain ⟨chosen, -, -, -, hcall | ⟨-, hcall⟩⟩ := selectCredential_chooses snapshot preferred h
    (eligible_nodup d apart) fun c hc => positive c (mem_eligible.mp hc).1
  · exact ⟨_, hcall⟩
  · exact ⟨_, hcall⟩

/-- The selected credential is one of the candidates. -/
theorem selectCredential_mem {d : SchedulingLedger}
    (h : d.selectCredential snapshot candidates preferred = (d', .ok (some c))) :
    ∃ w ∈ candidates, w.info = c := by
  have hs := d.selectCredential_selects snapshot candidates preferred
  rw [h] at hs
  generalize hr : (Except.ok (some c) : Except Panic (Option CredentialMeta)) = r at hs
  cases hs with
  | idle => cases hr
  | stopped hnone => exact absurd hr.symm (hnone c)
  | @charged chosen _ _ mem =>
    cases hr
    exact ⟨chosen, (mem_eligible.mp mem).1, rfl⟩

theorem selectModel_mem (d : SchedulingLedger) (groupID : Nat) (externalModel : String)
    (h : models ≠ []) : (d.selectModel groupID externalModel models).2 ∈ models := by
  unfold selectModel
  split
  · exact absurd rfl h
  dsimp only
  split
  · simp
  next model hmodel =>
  have found := find?_some hmodel
  exact mem_of_getElem? (of_decide_eq_true found)

/-- In the pool of a group the upstream model names the target. -/
def CandidatePool.Named (pool : CandidatePool) : Prop :=
  ∀ groupID, ∀ a ∈ pool.targets groupID, ∀ b ∈ pool.targets groupID,
    a.target.upstreamModelID = b.target.upstreamModelID → a = b

namespace Iterator

variable {it : Iterator} {m : Moment} {pool : CandidatePool} {modes : List RouteMode}

/-- What it takes to be weighed. -/
theorem weigh_some (h : it.weigh now pool modes c = some w) :
    w.info = c ∧ it.allows c = true ∧ w.weight ≠ 0 ∧ ∃ t ∈ pool.targets c.groupID,
      it.targetAvailable now modes c t = true ∧
      0 < effectiveWeight t.group.weightManual c.weightManual := by
  unfold weigh at h
  split at h
  swap
  · cases h
  next allowed =>
  obtain ⟨t, ht, h⟩ := bind_eq_some_iff.mp h
  dsimp only at h
  split at h
  · next positive =>
    cases h
    exact ⟨rfl, allowed, by dsimp only; omega, t, mem_of_find?_eq_some ht,
      find?_some ht, positive⟩
  · cases h

/-- The weighed candidates: each one has passed the checks and stands in the registry. -/
theorem mem_weightedPool (h : w ∈ it.weightedPool m pool modes) :
    it.weigh m.now pool modes w.info = some w ∧ w.info.id ∉ it.tried ∧ ∃ bucket entry,
      m.registry.buckets[w.info.groupID]? = some bucket ∧ bucket[w.info.id]? = some entry ∧
      selectableAt entry m.now = true ∧ w.info = credentialMeta entry := by
  obtain ⟨c, hc, hw⟩ := mem_filterMap.mp h
  have hinfo := (weigh_some hw).1
  rw [Moment.candidates, (m.order_perm _).mem_iff, CredentialRegistry.collectCredentialCandidates,
    mem_flatMap] at hc
  obtain ⟨groupID, -, hc⟩ := hc
  obtain ⟨-, untried, registered⟩ := mem_bucketCandidates hc
  rw [hinfo]
  exact ⟨hw, by simpa using untried, registered⟩

theorem weightedPool_apart (it : Iterator) (m : Moment) (pool : CandidatePool)
    (modes : List RouteMode) :
    (it.weightedPool m pool modes).Pairwise fun a b => Apart a.info b.info := by
  have apart : (m.candidates (pool.modeGroupIDs modes) (· ∈ it.tried)).Pairwise Apart :=
    ((m.order_perm _).pairwise_iff fun h same => h ⟨same.1.symm, same.2.symm⟩).mpr
      (collect_apart m.registry (modeGroupIDs_nodup pool modes) _ m.now)
  refine apart.filterMap _ fun c c' h w hw w' hw' => ?_
  rw [(weigh_some hw).1, (weigh_some hw').1]
  exact h

/-! ## The search -/

theorem priorityCandidates_sublist (it : Iterator) (pool : CandidatePool)
    (candidates : List WeightedCredential) :
    (it.priorityCandidates pool candidates).Sublist candidates := by
  unfold priorityCandidates
  split
  · exact nil_sublist _
  · exact filter_sublist

/-- If a target is available to the credential, `selectTarget` returns one. The model it settles
on belongs to an available target, and no other target of the group has that model. -/
theorem selectTarget_returns (named : pool.Named) (ht : t ∈ pool.targets c.groupID)
    (available : it.targetAvailable now modes c t = true) (ledger : SchedulingLedger) :
    ∃ ledger' t', it.selectTarget now pool modes c ledger = (ledger', .ok t') ∧
      t' ∈ pool.targets c.groupID ∧ it.targetAvailable now modes c t' = true := by
  have mem {model : String} (h : model ∈ ((pool.targets c.groupID).filter
      (it.targetAvailable now modes c)).map (·.target.upstreamModelID)) :
      ∃ t', targetOfModel (pool.targets c.groupID) model = .ok t' ∧
        t' ∈ pool.targets c.groupID ∧ it.targetAvailable now modes c t' = true := by
    obtain ⟨t₀, ht₀, rfl⟩ := mem_map.mp h
    obtain ⟨ht₀, h₀⟩ := mem_filter.mp ht₀
    have some : ((pool.targets c.groupID).find?
        (·.target.upstreamModelID = t₀.target.upstreamModelID)).isSome := by
      rw [find?_isSome]
      exact ⟨t₀, ht₀, by simp⟩
    obtain ⟨t', ht'⟩ := isSome_iff_exists.mp some
    have mem' := mem_of_find?_eq_some ht'
    have same : t' = t₀ := named _ _ mem' _ ht₀ (by simpa using find?_some ht')
    exact ⟨t', by unfold targetOfModel; rw [ht'], mem', same ▸ h₀⟩
  have listed : t.target.upstreamModelID ∈ ((pool.targets c.groupID).filter
      (it.targetAvailable now modes c)).map (·.target.upstreamModelID) :=
    mem_map_of_mem (mem_filter.mpr ⟨ht, available⟩)
  unfold selectTarget
  dsimp only
  generalize ((pool.targets c.groupID).filter (it.targetAvailable now modes c)).map
    (·.target.upstreamModelID) = models at mem listed
  cases models with
  | nil => cases listed
  | cons first rest =>
    dsimp only
    split
    · next externalModel _ =>
      obtain ⟨t', hok, found⟩ := mem (selectModel_mem ledger c.groupID externalModel (by simp))
      exact ⟨_, t', by rw [hok], found⟩
    · obtain ⟨t', hok, found⟩ := mem (by simp : first ∈ first :: rest)
      exact ⟨_, t', by rw [hok], found⟩

/-- Where a search has found its result. -/
structure Finds (it : Iterator) (now : Time) (weighted : List WeightedCredential)
    (found : Found) : Prop where
  candidate : ∃ w ∈ weighted, w.info = found.info
  target : found.target ∈ (it.pool found.kind).targets found.info.groupID
  available : it.targetAvailable now found.modes found.info found.target = true

theorem searchTiers_returns (named : (it.pool kind).Named) (now : Time)
    {weighted : List WeightedCredential} (apart : weighted.Pairwise fun a b => Apart a.info b.info)
    (positive : ∀ c ∈ weighted, c.weight ≠ 0) (tiers : List (List RouteMode))
    (ledger : SchedulingLedger) :
    (∃ ledger', it.searchTiers now kind weighted tiers ledger = (ledger', .ok none)) ∨
      ∃ ledger' found, it.searchTiers now kind weighted tiers ledger =
        (ledger', .ok (some found)) ∧ found.kind = kind ∧ found.modes ∈ tiers ∧
        Finds it now weighted found := by
  induction tiers generalizing ledger with
  | nil => exact .inl ⟨ledger, rfl⟩
  | cons modes tiers ih =>
    have sub : (it.tierCandidates now (it.pool kind) modes weighted).Sublist weighted :=
      filter_sublist
    obtain ⟨r, hr⟩ := selectCredential_returns ledger it.snapshot it.preferredCredentialID
      (apart.sublist sub) fun c hc => positive c (sub.subset hc)
    rw [searchTiers]
    generalize hs : ledger.selectCredential it.snapshot
      (it.tierCandidates now (it.pool kind) modes weighted) it.preferredCredentialID = result
    rw [hs] at hr
    obtain ⟨ledger₁, _⟩ := result
    dsimp only at hr
    subst hr
    cases r with
    | none =>
      obtain h | ⟨ledger', found, h, hkind, hmodes, hfinds⟩ := ih ledger₁
      · exact .inl h
      · exact .inr ⟨ledger', found, h, hkind, mem_cons_of_mem _ hmodes, hfinds⟩
    | some info =>
      obtain ⟨w, hw, rfl⟩ := selectCredential_mem hs
      obtain ⟨hw, hany⟩ := mem_filter.mp hw
      obtain ⟨t, ht, available⟩ := any_eq_true.mp hany
      obtain ⟨ledger₂, t', hok, ht', available'⟩ := selectTarget_returns named ht available ledger₁
      refine .inr ⟨ledger₂, ⟨kind, w.info, t', modes⟩, ?_, rfl, by simp, ⟨w, hw, rfl⟩, ht',
        available'⟩
      dsimp only
      rw [hok]

/-- The candidates of a pool that a search chooses from. -/
def searched (it : Iterator) (m : Moment) (kind : PoolKind) : List WeightedCredential :=
  it.priorityCandidates (it.pool kind) (it.weightedPool m (it.pool kind) [.native, .converted])

theorem searchPool_returns (named : (it.pool kind).Named) (m : Moment) (ledger : SchedulingLedger) :
    (∃ ledger', it.searchPool m kind ledger = (ledger', .ok none)) ∨
      ∃ ledger' found, it.searchPool m kind ledger = (ledger', .ok (some found)) ∧
        found.kind = kind ∧ found.modes ∈ it.routeModeTiers ∧
        Finds it m.now (it.searched m kind) found := by
  have sub := it.priorityCandidates_sublist (it.pool kind)
    (it.weightedPool m (it.pool kind) [.native, .converted])
  exact searchTiers_returns named m.now ((it.weightedPool_apart m _ _).sublist sub)
    (fun c hc => (weigh_some (mem_weightedPool (sub.subset hc)).1).2.2.1) it.routeModeTiers ledger

def Found.moment (found : Found) (first second : Moment) : Moment :=
  match found.kind with
  | .regular => first
  | .storeDowngraded => second

/-- A search returns; what it finds is a candidate with an available target. -/
theorem search_returns (named : ∀ kind, (it.pool kind).Named) (first second : Moment)
    (ledger : SchedulingLedger) :
    (∃ ledger', it.search ledger first second = (ledger', .ok none)) ∨
      ∃ ledger' found, it.search ledger first second = (ledger', .ok (some found)) ∧
        found.modes ∈ it.routeModeTiers ∧
        Finds it (found.moment first second).now
          (it.searched (found.moment first second) found.kind) found := by
  unfold search
  obtain ⟨ledger₁, h₁⟩ | ⟨ledger₁, found, h₁, hkind, hmodes, hfinds⟩ :=
    searchPool_returns (named .regular) first ledger
  · rw [h₁]
    dsimp only
    obtain ⟨ledger₂, h₂⟩ | ⟨ledger₂, found, h₂, hkind, hmodes, hfinds⟩ :=
      searchPool_returns (named .storeDowngraded) second ledger₁
    · exact .inl ⟨ledger₂, h₂⟩
    · refine .inr ⟨ledger₂, found, h₂, hmodes, ?_⟩
      simpa [Found.moment, hkind] using hfinds
  · rw [h₁]
    refine .inr ⟨ledger₁, found, rfl, hmodes, ?_⟩
    simpa [Found.moment, hkind] using hfinds

end Iterator

end ApiLoad.Scheduler
