import ApiLoad.Registry.Run
import ApiLoad.Scheduler.Inspect
import ApiLoad.Scheduler.Run
import ApiLoad.Scheduling.Pace

/-!
# Inspection agrees with scheduling

`Inspect` walks the catalog and a list of credentials; `Next` walks the candidates, the pools, the
tiers and the ledger. On a compiled snapshot and a consistent registry both find something for the
same queries, as long as no wildcard is in play and the sequence of the ledger is not exhausted.
-/
namespace ApiLoad.Scheduler
open Std (ExtTreeMap)
open Foundation Channel State Scheduling Iterator SchedulingLedger Registry CandidatePool List

/-! ## The ledger -/

/-- A ledger that can charge a member it knows. -/
structure Ready (d : SchedulingLedger) : Prop where
  sound : d.Sound
  paced : d.Paced
  room : d.sequence < SchedulingProgress.MaxUint64.toNat

variable {d : SchedulingLedger} {pool : CandidatePool} {query : NormalizedQuery}
  {route : RouteTarget} {snapshot : ConfigSnapshot}

/-- A ready ledger selects one of the candidates, if it knows them all. -/
theorem Ready.select (h : Ready d) (snapshot : Option ConfigSnapshot)
    {candidates : List WeightedCredential} (preferred : Nat)
    (apart : candidates.Pairwise fun a b => Apart a.info b.info)
    (positive : ∀ c ∈ candidates, c.weight ≠ 0) (known : ∀ c ∈ candidates, d.knows c.info = true)
    (nonempty : candidates ≠ []) :
    ∃ d' c, d.selectCredential snapshot candidates preferred = (d', .ok (some c)) := by
  have eligible : d.eligible candidates = candidates := filter_eq_self.mpr known
  have proceeds : d.Proceeds candidates := ⟨eligible.symm ▸ nonempty, h.room.ne⟩
  obtain ⟨chosen, hmem, m, hm, hcall | ⟨hstuck, -⟩⟩ := selectCredential_chooses snapshot preferred
    proceeds (eligible_nodup d apart) (eligible.symm ▸ positive)
  · exact ⟨_, _, Prod.ext rfl hcall⟩
  obtain ⟨members, hadmitted, -⟩ := d.admitEligible_eq snapshot (d.eligible candidates)
  have sound := h.sound.admitEligible snapshot (d.eligible candidates)
  rw [hadmitted] at sound hm
  have paced : ({ d with members } : SchedulingLedger).Paced := h.paced.congr rfl
  have advances := paced.advances sound h.room hm (positive chosen (mem_eligible.mp hmem).1)
  simp [hstuck] at advances

/-- Reporting a publication keeps the ledger ready and its members known. -/
theorem Ready.syncGroups (h : Ready d) (snapshot : Option ConfigSnapshot) :
    Ready (d.syncGroups snapshot) := by
  have pace := @SchedulingLedger.syncGroups_pace d snapshot
  refine ⟨h.sound.syncGroups snapshot, h.paced.congr pace, ?_⟩
  rw [show (d.syncGroups snapshot).sequence = d.sequence from congrArg Prod.snd pace]
  exact h.room

theorem knows_syncGroups (snapshot : Option ConfigSnapshot) (h : d.knows c = true) :
    (d.syncGroups snapshot).knows c = true := by
  obtain ⟨m, hm, hg, hi⟩ := knows_iff.mp h
  obtain ⟨m', hm', same⟩ := syncGroups_lookup snapshot hm
  refine knows_iff.mpr ⟨m', hm', ?_⟩
  rcases same with rfl | rfl <;> exact ⟨hg, hi⟩

/-! ## The pools -/

variable {t : CandidateTarget}

/-- A pool has a target under its group and lists the group under its mode. -/
def CandidatePool.Holds (pool : CandidatePool) (t : CandidateTarget) : Prop :=
  t ∈ pool.targets t.target.groupID ∧
    t.target.groupID ∈ pool.groupIDsByMode[t.target.mode]?.getD []

theorem CandidatePool.holds_add (pool : CandidatePool) (t : CandidateTarget) :
    (pool.add t).Holds t := by
  refine ⟨by simp [targets_add], ?_⟩
  unfold add
  dsimp only
  split
  · assumption
  · simp

theorem CandidatePool.Holds.add (h : pool.Holds t) (other : CandidateTarget) :
    (pool.add other).Holds t := by
  obtain ⟨listed, grouped⟩ := h
  refine ⟨?_, ?_⟩
  · rw [CandidatePool.targets_add]
    split
    · exact mem_append_left _ listed
    · exact listed
  unfold CandidatePool.add
  dsimp only
  split
  · exact grouped
  rw [OrderedMap.lookup_insert]
  split
  · next same =>
    rw [same, Option.getD_some]
    exact mem_append_left _ grouped
  · exact grouped

theorem CandidatePool.Holds.sort (h : pool.Holds t) :
    pool.sort.Holds t := ⟨mem_targets_sort.mpr h.1, h.2⟩

def CandidateTarget.kind (t : CandidateTarget) : PoolKind :=
  if t.responsesStoreDowngraded then .storeDowngraded else .regular

def poolOf (pools : CandidatePool × CandidatePool) : PoolKind → CandidatePool
  | .regular => pools.1
  | .storeDowngraded => pools.2

theorem fillPools_append (targets : List CandidateTarget) (last : CandidateTarget) :
    fillPools (targets ++ [last]) = if last.responsesStoreDowngraded then
      ((fillPools targets).1, (fillPools targets).2.add last)
      else ((fillPools targets).1.add last, (fillPools targets).2) := by
  simp [fillPools, foldl_append]

theorem fillPools_holds {targets : List CandidateTarget} (ht : t ∈ targets) :
    (poolOf (fillPools targets) t.kind).Holds t := by
  induction targets using reverseRecOn with
  | nil => cases ht
  | append_singleton targets last ih =>
    rw [fillPools_append]
    rcases mem_append.mp ht with hold | hnew
    · have held := ih hold
      generalize t.kind = kind at held ⊢
      cases kind <;> split <;> first | exact held | exact held.add last
    rw [mem_singleton.mp hnew]
    unfold CandidateTarget.kind
    split <;> exact holds_add ..

theorem mem_modeGroupIDs (hmode : mode ∈ modes) (h : groupID ∈ pool.groupIDsByMode[mode]?.getD []) :
    groupID ∈ pool.modeGroupIDs modes := by
  have added (l ids : List Nat) {id : Nat} (hid : id ∈ ids ∨ id ∈ l) :
      id ∈ l.foldl addGroupID ids := by
    induction l generalizing ids with
    | nil => simpa using hid
    | cons first l ih =>
      apply ih
      unfold addGroupID
      grind
  rw [modeGroupIDs, ← foldl_flatMap]
  exact added _ _ (.inr (mem_flatMap.mpr ⟨mode, hmode, h⟩))

theorem fillPools_priorityLimit (targets : List CandidateTarget) (kind : PoolKind) :
    (poolOf (fillPools targets) kind).priorityLimit = none := by
  induction targets using reverseRecOn with
  | nil => cases kind <;> rfl
  | append_singleton targets last ih =>
    rw [fillPools_append]
    cases kind <;> split <;> exact ih

/-! ## Candidates -/

theorem mem_bucketCandidates_of {registry : CredentialRegistry} {entry : CredentialRuntimeView}
    (hb : registry.buckets[groupID]? = some bucket) (he : bucket[entry.id]? = some entry)
    (included : excluded entry.id = false) (selectable : selectableAt entry now = true) :
    credentialMeta entry ∈ registry.bucketCandidates excluded now groupID := by
  refine mem_filterMap.mpr ⟨(entry.id, entry), ?_, by simp [included, selectable]⟩
  rw [hb]
  exact ExtTreeMap.mem_toList_iff_getElem?_eq_some.mpr he

namespace Iterator

variable {it : Iterator} {m : Moment} {pool : CandidatePool} {modes : List RouteMode}

/-- A credential with an available target in the pool is weighed, and counts if the targets of its
group have weight. -/
theorem mem_weightedPool_of (held : pool.Holds t) {entry : CredentialRuntimeView}
    (hb : m.registry.buckets[t.target.groupID]? = some bucket) (he : bucket[entry.id]? = some entry)
    (selectable : selectableAt entry m.now = true) (untried : entry.id ∉ it.tried)
    (allowed : it.allows (credentialMeta entry) = true)
    (available : it.targetAvailable m.now modes (credentialMeta entry) t = true)
    (weighty : ∀ t' ∈ pool.targets t.target.groupID, 0 < effectiveWeight t'.group.weightManual
      entry.weightManual) : ∃ w ∈ it.weightedPool m pool modes, w.info = credentialMeta entry := by
  have hmode : t.target.mode ∈ modes := by
    simp only [targetAvailable, Bool.and_eq_true, decide_eq_true_eq] at available
    exact available.1
  have candidate : credentialMeta entry ∈
      m.candidates (pool.modeGroupIDs modes) (· ∈ it.tried) := by
    rw [Moment.candidates, (m.order_perm _).mem_iff]
    exact mem_flatMap.mpr ⟨t.target.groupID, mem_modeGroupIDs hmode held.2,
      mem_bucketCandidates_of hb he (by simpa using untried) selectable⟩
  have group : (credentialMeta entry).groupID = t.target.groupID := (m.registry.filed hb he).2
  obtain ⟨t', ht'⟩ : ∃ t', (pool.targets (credentialMeta entry).groupID).find?
      (it.targetAvailable m.now modes (credentialMeta entry)) = some t' := by
    rw [← Option.isSome_iff_exists, find?_isSome]
    exact ⟨t, group ▸ held.1, available⟩
  have weight := weighty t' (group ▸ mem_of_find?_eq_some ht')
  refine ⟨⟨credentialMeta entry,
    (effectiveWeight t'.group.weightManual entry.weightManual).toNat⟩, ?_, rfl⟩
  refine mem_filterMap.mpr ⟨_, candidate, ?_⟩
  simp only [weigh, allowed, if_true, ht', Option.bind_some]
  exact if_pos weight

/-- Without a limit the candidates of the highest priority remain. -/
theorem priorityCandidates_ne_nil (unlimited : pool.priorityLimit = none)
    (nonempty : candidates ≠ []) : it.priorityCandidates pool candidates ≠ [] := by
  have fold (values : List Int) (start : Int) : ∃ best ∈ start :: values,
      values.foldl (raisePriority pool) (some start, none) = (some best, none) := by
    induction values generalizing start with
    | nil => exact ⟨start, by simp, rfl⟩
    | cons value values ih =>
      have step : raisePriority pool (some start, none) value =
          (some (if start < value then value else start), none) := by
        by_cases h : start < value <;> simp [raisePriority, unlimited, h]
      obtain ⟨best, hbest, h⟩ := ih (if start < value then value else start)
      refine ⟨best, ?_, by rw [foldl_cons, step, h]⟩
      grind
  cases candidates with
  | nil => exact absurd rfl nonempty
  | cons first rest =>
    have start : raisePriority pool (none, none) (it.priorityOf first) =
        (some (it.priorityOf first), none) := by simp [raisePriority, unlimited]
    obtain ⟨best, hbest, h⟩ := fold (rest.map it.priorityOf) (it.priorityOf first)
    obtain ⟨c, hc, hp⟩ := mem_map.mp (show best ∈ (first :: rest).map it.priorityOf from hbest)
    unfold priorityCandidates
    rw [map_cons, foldl_cons, start, h]
    exact ne_nil_of_mem (mem_filter.mpr ⟨hc, by simpa using hp⟩)

/-! ## The search -/

variable {ledger : SchedulingLedger}

/-- A ready ledger that knows all credentials of a reading of the registry. -/
structure Serviced (m : Moment) (ledger : SchedulingLedger) : Prop extends Ready ledger where
  knows : ∀ {groupID : Nat} {bucket : ExtTreeMap Nat CredentialRuntimeView} {id : Nat}
    {entry : CredentialRuntimeView}, m.registry.buckets[groupID]? = some bucket →
      bucket[id]? = some entry → ledger.knows (credentialMeta entry) = true

variable {kind : PoolKind} {w : WeightedCredential}

theorem searchTiers_found (named : (it.pool kind).Named) (now : Time)
    {weighted : List WeightedCredential} (apart : weighted.Pairwise fun a b => Apart a.info b.info)
    (positive : ∀ c ∈ weighted, c.weight ≠ 0) (ready : Ready ledger)
    (known : ∀ c ∈ weighted, ledger.knows c.info = true) (hmodes : modes ∈ tiers)
    (hw : w ∈ it.tierCandidates now (it.pool kind) modes weighted) :
    ∃ ledger' found, it.searchTiers now kind weighted tiers ledger =
      (ledger', .ok (some found)) := by
  induction tiers with
  | nil => cases hmodes
  | cons first tiers ih =>
    have sub : (it.tierCandidates now (it.pool kind) first weighted).Sublist weighted :=
      filter_sublist
    rw [searchTiers]
    by_cases empty : it.tierCandidates now (it.pool kind) first weighted = []
    · -- A tier without candidates leaves the ledger as it is.
      rw [empty]
      rcases mem_cons.mp hmodes with rfl | later
      · rw [empty] at hw
        cases hw
      · exact ih later
    · obtain ⟨ledger₁, info, hs⟩ := ready.select it.snapshot it.preferredCredentialID
        (apart.sublist sub) (fun c hc => positive c (sub.subset hc))
        (fun c hc => known c (sub.subset hc)) empty
      obtain ⟨w', hw', rfl⟩ := selectCredential_mem hs
      obtain ⟨t, ht, available⟩ := any_eq_true.mp (mem_filter.mp hw').2
      obtain ⟨ledger₂, t', hok, -⟩ := selectTarget_returns named ht available ledger₁
      exact ⟨ledger₂, _, by rw [hs]; dsimp only; rw [hok]⟩

theorem searchTiers_nil (it : Iterator) (now : Time) (kind : PoolKind)
    (tiers : List (List RouteMode)) (ledger : SchedulingLedger) :
    it.searchTiers now kind [] tiers ledger = (ledger, .ok none) := by
  induction tiers with
  | nil => rfl
  | cons modes tiers ih =>
    rw [searchTiers]
    exact ih

/-- Every weighed candidate has a target in one of the tiers. -/
theorem mem_tierCandidates (snapshot : Option ConfigSnapshot)
    (tiers : it.routeModeTiers = Scheduler.routeModeTiers snapshot) (hw : w ∈ it.searched m kind) :
    ∃ modes ∈ it.routeModeTiers,
      w ∈ it.tierCandidates m.now (it.pool kind) modes (it.searched m kind) := by
  obtain ⟨-, -, -, t, ht, available, -⟩ :=
    weigh_some (mem_weightedPool ((it.priorityCandidates_sublist _ _).subset hw)).1
  simp only [targetAvailable, Bool.and_eq_true, decide_eq_true_eq] at available
  have tier : ∃ modes ∈ it.routeModeTiers, t.target.mode ∈ modes := by
    rw [tiers, Scheduler.routeModeTiers]
    split <;> simpa using available.1
  obtain ⟨modes, hmodes, hmode⟩ := tier
  refine ⟨modes, hmodes, mem_filter.mpr ⟨hw, any_eq_true.mpr ⟨t, ht, ?_⟩⟩⟩
  simp only [targetAvailable, Bool.and_eq_true, decide_eq_true_eq]
  exact ⟨hmode, available.2⟩

/-- A pool is searched with success exactly when it has candidates; otherwise the ledger stays. -/
theorem searchPool_found (named : (it.pool kind).Named) (snapshot : Option ConfigSnapshot)
    (tiers : it.routeModeTiers = Scheduler.routeModeTiers snapshot) (serviced : Serviced m ledger) :
    (it.searched m kind = [] ∧ it.searchPool m kind ledger = (ledger, .ok none)) ∨
      ∃ ledger' found, it.searchPool m kind ledger = (ledger', .ok (some found)) := by
  rcases eq_nil_or_concat (it.searched m kind) with empty | ⟨_, w, hsearched⟩
  · refine .inl ⟨empty, ?_⟩
    unfold searchPool
    rw [show it.priorityCandidates (it.pool kind) (it.weightedPool m (it.pool kind)
      [.native, .converted]) = [] from empty]
    exact searchTiers_nil ..
  · have hw : w ∈ it.searched m kind := by simp [hsearched]
    have sub := it.priorityCandidates_sublist (it.pool kind)
      (it.weightedPool m (it.pool kind) [.native, .converted])
    have known : ∀ c ∈ it.searched m kind, ledger.knows c.info = true := by
      intro c hc
      obtain ⟨-, -, bucket, entry, hb, he, -, hinfo⟩ := mem_weightedPool (sub.subset hc)
      rw [hinfo]
      exact serviced.knows hb he
    obtain ⟨modes, hmodes, hw⟩ := mem_tierCandidates snapshot tiers hw
    exact .inr (searchTiers_found named m.now ((it.weightedPool_apart m _ _).sublist sub)
      (fun c hc => (weigh_some (mem_weightedPool (sub.subset hc)).1).2.2.1) serviced.toReady known
      hmodes hw)

theorem search_found (named : ∀ kind, (it.pool kind).Named) (snapshot : Option ConfigSnapshot)
    (tiers : it.routeModeTiers = Scheduler.routeModeTiers snapshot) (hfirst : Serviced first ledger)
    (hsecond : Serviced second ledger)
    (nonempty : it.searched first .regular ≠ [] ∨ it.searched second .storeDowngraded ≠ []) :
    ∃ ledger' found, it.search ledger first second = (ledger', .ok (some found)) := by
  unfold search
  rcases searchPool_found (named .regular) snapshot tiers hfirst with ⟨empty, h⟩ |
    ⟨ledger', found, h⟩
  · rw [h]
    dsimp only
    rcases searchPool_found (named .storeDowngraded) snapshot tiers hsecond with
      ⟨empty', h'⟩ | found
    · rcases nonempty with nonempty | nonempty
      · exact absurd empty nonempty
      · exact absurd empty' nonempty
    · exact found
  · rw [h]
    exact ⟨ledger', found, rfl⟩

end Iterator

/-! ## Included routes -/

theorem mode_of_satisfied (h : (routeRequirementSatisfied query route).1 = true) :
    route.mode ∈ [RouteMode.native, .converted] := by
  have allowed : query.routeRequirement.allows route.mode = true := by
    by_contra refused
    rw [Bool.not_eq_true] at refused
    simp [routeRequirementSatisfied, refused] at h
  simp only [RouteRequirement.allows, RouteMode.valid, Bool.and_eq_true, decide_eq_true_eq]
    at allowed
  simpa using allowed.1.1

theorem decideTarget_included (h : (decideTarget snapshot query route group).included = true) :
    (routeRequirementSatisfied query route).1 = true ∧ group.enabled = true := by
  unfold decideTarget at h
  grind

theorem upstreamTarget_mode (query : NormalizedQuery) (route : RouteTarget) :
    (upstreamTarget query route).mode = route.mode := by
  unfold upstreamTarget
  split
  · split <;> rfl
  · rfl

/-- Without wildcards the targets of a query are the included routes of the enabled groups. -/
theorem filterTargets_exact (h : Catalogued snapshot) {query : Query}
    (plain : wildcardsAt snapshot.wildcardCandidates query.clientProtocol (normalizeQuery
      query).operation = []) :
    ∃ targets reason, filterTargetsWithReason (some snapshot) query = .ok (targets, reason) ∧
      ∀ t, t ∈ targets ↔ ∃ route group,
        Decided snapshot snapshot.executionRouteCatalog (normalizeQuery query) route group ∧
        (decideTarget snapshot (normalizeQuery query) route group).included = true ∧
        t.target = upstreamTarget (normalizeQuery query) route ∧
        t.responsesStoreDowngraded =
          (routeRequirementSatisfied (normalizeQuery query) route).2.1 ∧
        snapshot.groups[route.groupID]? = some t.group := by
  obtain ⟨decisions, reason, hok, hmem⟩ := @evaluateTargets_exact snapshot
    snapshot.executionCandidates (normalizeQuery query) true (.inr plain)
    fun route hroute => h.listed _ _ _ route ((h.candidates _ _ _ route).mp hroute).1
  unfold filterTargetsWithReason
  dsimp only
  rw [hok]
  refine ⟨_, reason, rfl, fun t => ?_⟩
  simp only [mem_filterMap, hmem]
  constructor
  · rintro ⟨d, ⟨route, group, ⟨accepted, hroute, hgroup⟩, rfl⟩, hmap⟩
    split at hmap
    · next included =>
      obtain ⟨view, hview, rfl⟩ := Option.map_eq_some_iff.mp hmap
      rw [(decideTarget_target ..).1, upstreamTarget_groupID] at hview
      exact ⟨route, group, ⟨accepted, ((h.candidates _ _ _ _).mp hroute).1, hgroup⟩, included, rfl,
        rfl, hview⟩
    · cases hmap
  · rintro ⟨route, group, ⟨accepted, hroute, hgroup⟩, included, htarget, hstore, hview⟩
    refine ⟨_,
      ⟨route, group, ⟨accepted, (h.candidates _ _ _ _).mpr ⟨hroute, _, hview⟩, hgroup⟩, rfl⟩,
      ?_⟩
    rw [if_pos included, (decideTarget_target ..).1, (decideTarget_target ..).2,
      upstreamTarget_groupID, hview, ← htarget, ← hstore]
    rfl

/-! ## Agreement -/

/-- A registry state that goes with a snapshot: consistent in itself, with a ledger that its
operations have produced, and with credentials of known groups only. -/
structure ConsistentWith (snapshot : ConfigSnapshot) (r : Registry.CredentialRegistry) : Prop
    extends Registry.Consistent r where
  reachable : Reachable r.scheduling
  catalogued : ∀ groupID ∈ r.buckets, groupID ∈ snapshot.groupCatalog

/-- What the scheduler finds when it reads this registry at this time. -/
structure Reads (m : Moment) (r : Registry.CredentialRegistry) (now : Time) : Prop where
  buckets : m.registry.buckets = r.buckets.map fun _ bucket =>
    bucket.map fun _ entry => runtimeView entry
  now : m.now = now

section Registered

variable {snapshot : ConfigSnapshot} {r : Registry.CredentialRegistry} {now : Time}

variable {view : CredentialRuntimeView} {groupID id : Nat}
  {bucket : ExtTreeMap Nat Registry.CredentialEntry}

theorem mem_snapshot :
    view ∈ r.snapshot ↔ ∃ (groupID : Nat) (bucket : ExtTreeMap Nat Registry.CredentialEntry)
      (id : Nat) (entry : Registry.CredentialEntry), r.buckets[groupID]? = some bucket ∧
      bucket[id]? = some entry ∧ view = runtimeView entry := by
  rw [Registry.CredentialRegistry.snapshot, Registry.CredentialRegistry.sortRuntimeViews,
    (perm_insertionSort _ _).mem_iff]
  simp only [mem_flatMap, mem_map, Prod.exists,
    ExtTreeMap.mem_toList_iff_getElem?_eq_some]
  grind

/-- The readings and the snapshot have the same views. -/
theorem Reads.entry (h : Reads m r now) :
    (∃ bucket, m.registry.buckets[groupID]? = some bucket ∧ bucket[id]? = some view) ↔
      ∃ bucket entry, r.buckets[groupID]? = some bucket ∧ bucket[id]? = some entry ∧
        view = runtimeView entry := by
  simp only [h.buckets, ExtTreeMap.getElem?_map, Option.map_eq_some_iff]
  constructor
  · rintro ⟨_, ⟨bucket, hb, rfl⟩, he⟩
    rw [ExtTreeMap.getElem?_map, Option.map_eq_some_iff] at he
    obtain ⟨entry, he, rfl⟩ := he
    exact ⟨bucket, entry, hb, he, rfl⟩
  · rintro ⟨bucket, entry, hb, he, rfl⟩
    exact ⟨_, ⟨bucket, hb, rfl⟩, by simp [he]⟩

theorem entryIn_of_lookup (hb : r.buckets[groupID]? = some bucket) (he : bucket[id]? = some entry) :
    r.entryIn groupID id = some entry := by
  simp [Registry.CredentialRegistry.entryIn, Registry.CredentialRegistry.bucket, hb, he]

/-- The ledger knows the registered credentials under their present identity. -/
theorem ConsistentWith.knows (h : ConsistentWith snapshot r)
    (hb : r.buckets[groupID]? = some bucket) (he : bucket[id]? = some entry) :
    r.scheduling.knows (credentialMeta (runtimeView entry)) = true := by
  have hentry := entryIn_of_lookup hb he
  have hindex := (h.index id groupID).mpr ⟨entry, hentry⟩
  have hmember := h.members id
  rw [Registry.CredentialRegistry.entryLocked, hindex, Option.bind_some, hentry, Option.map_some,
    identityOf, Option.map_eq_some_iff] at hmember
  obtain ⟨m, hm, hidentity⟩ := hmember
  obtain ⟨rfl, -⟩ := h.located _ _ _ hentry
  exact knows_iff.mpr ⟨m, hm, congrArg Prod.fst hidentity,
    congrArg Prod.snd hidentity⟩

theorem ConsistentWith.serviced (h : ConsistentWith snapshot r)
    (room : r.scheduling.sequence < SchedulingProgress.MaxUint64.toNat) (reads : Reads m r now)
    (published : Option ConfigSnapshot) :
    Serviced m (r.scheduling.syncGroups published) where
  toReady := Ready.syncGroups ⟨h.reachable.sound, h.reachable.paced, room⟩ published
  knows hb he := by
    obtain ⟨bucket, entry, hb', he', rfl⟩ := reads.entry.mp ⟨_, hb, he⟩
    exact knows_syncGroups published (h.knows hb' he')

end Registered

section Agreement

variable {input : CompileInput} {compiled : ConfigSnapshot} {revision : Nat}
  {r : Registry.CredentialRegistry} {query : Query} {now : Time} {first second : Moment}
  {it : Iterator}

/-- The iterator that `newWithClock` builds for a query without wildcards. -/
structure Fresh (snapshot : ConfigSnapshot) (query : Query) (it : Iterator) : Prop
    extends it.Serves snapshot query where
  tried : it.tried = []
  skippedGroups : it.skippedGroups = []
  unlimited : ∀ kind, (it.pool kind).priorityLimit = none
  holds : ∀ t : CandidateTarget, (∃ route group,
    Decided snapshot snapshot.executionRouteCatalog (normalizeQuery query) route group ∧
    (decideTarget snapshot (normalizeQuery query) route group).included = true ∧
    t.target = upstreamTarget (normalizeQuery query) route ∧
    t.responsesStoreDowngraded = (routeRequirementSatisfied (normalizeQuery query) route).2.1 ∧
    snapshot.groups[route.groupID]? = some t.group) → (it.pool t.kind).Holds t

variable {snapshot : ConfigSnapshot}

theorem newWithClock_fresh (h : Catalogued snapshot)
    (plain : wildcardsAt snapshot.wildcardCandidates query.clientProtocol (normalizeQuery
      query).operation = []) (ledger : SchedulingLedger) :
    ∃ it, newWithClock (some snapshot) query ledger =
      (ledger.syncGroups (some snapshot), .ok it) ∧ Fresh snapshot query it := by
  obtain ⟨targets, reason, hok, hmem⟩ := filterTargets_exact h plain
  have built : ∃ it, newWithClock (some snapshot) query ledger =
      (ledger.syncGroups (some snapshot), .ok it) ∧
      ∀ kind, it.pool kind = (poolOf (fillPools targets) kind).sort := by
    refine ⟨_, by rw [newWithClock, hok]; rfl, fun kind => ?_⟩
    cases kind <;> rfl
  obtain ⟨it, hit, pools⟩ := built
  obtain ⟨serves, tried, skipped⟩ := serves_new hit
  refine ⟨it, hit, serves, tried, skipped, fun kind => ?_, fun t ht => ?_⟩
  · rw [pools]
    exact fillPools_priorityLimit targets kind
  · rw [pools]
    exact (fillPools_holds ((hmem t).mpr ht)).sort

/-- A usable credential of an included route is among the candidates of a fresh iterator. -/
theorem Fresh.searched_ne_nil (fresh : Fresh snapshot query it) (catalogued : Catalogued snapshot)
    (refs : query.allowedCredentialRefs = none) (h : ConsistentWith snapshot r)
    (hview : view ∈ r.snapshot) (hs : Serviceable snapshot query now route group view) :
    ∃ kind, ∀ m, Reads m r now → it.searched m kind ≠ [] := by
  obtain ⟨satisfied, enabled⟩ := decideTarget_included hs.included
  obtain ⟨groupView, hgroup⟩ := (catalogued.viewed _ _ hs.decided.2.2).2 enabled
  let t : CandidateTarget := ⟨upstreamTarget (normalizeQuery query) route, groupView,
    (routeRequirementSatisfied (normalizeQuery query) route).2.1⟩
  have held : (it.pool t.kind).Holds t :=
    fresh.holds t ⟨route, group, hs.decided, hs.included, rfl, rfl, hgroup⟩
  have hid : t.target.groupID = route.groupID := upstreamTarget_groupID ..
  have weight : group.weightManual = groupView.weightManual := by
    obtain ⟨catalogView, hcatalog, -, hweight⟩ := catalogued.enabled _ _ hgroup
    cases hs.decided.2.2.symm.trans hcatalog
    exact hweight
  refine ⟨t.kind, fun m reads => priorityCandidates_ne_nil (fresh.unlimited t.kind) ?_⟩
  obtain ⟨groupID, bucket, id, entry, hb, he, rfl⟩ := mem_snapshot.mp hview
  obtain ⟨rfl, rfl⟩ := h.located _ _ _ (entryIn_of_lookup hb he)
  have same : entry.groupID = route.groupID := hs.groupID
  obtain ⟨bucket', hb', he'⟩ := reads.entry.mpr ⟨bucket, entry, hb, he, rfl⟩
  have allowed : it.allows (credentialMeta (runtimeView entry)) = true := by
    simp only [allows, fresh.allowedCredentialIDs, fresh.allowedCredentialRefs, refs,
      fresh.skippedGroups, Bool.and_eq_true]
    exact ⟨⟨hs.usable.allowed, rfl⟩, by simp⟩
  have available : it.targetAvailable m.now [.native, .converted]
      (credentialMeta (runtimeView entry)) t = true := by
    simp only [targetAvailable, Bool.and_eq_true, decide_eq_true_eq, Bool.not_eq_true',
      decide_eq_false_iff_not, fresh.operation, reads.now]
    exact ⟨(upstreamTarget_mode _ _).symm ▸ mode_of_satisfied satisfied, hs.usable.model⟩
  obtain ⟨w, hw, -⟩ := mem_weightedPool_of held (hid ▸ same ▸ hb') he'
    (reads.now ▸ hs.usable.selectable) (by simp [fresh.tried]) allowed available
    (fun t' ht' => by
      obtain ⟨included, hgroup'⟩ := fresh.targets _ _ _ ht'
      have hview := included.group
      rw [hgroup', hid, hgroup] at hview
      cases hview
      exact weight ▸ hs.usable.weight)
  exact ne_nil_of_mem hw

/-- A candidate of a fresh iterator is a usable credential of an included route. -/
theorem Fresh.serviceable (fresh : Fresh snapshot query it) (catalogued : Catalogued snapshot)
    (plain : wildcardsAt snapshot.wildcardCandidates query.clientProtocol (normalizeQuery
      query).operation = []) (reads : Reads m r now) (hw : w ∈ it.searched m kind) :
    ∃ route group, ∃ view ∈ r.snapshot, Serviceable snapshot query now route group view := by
  obtain ⟨hweigh, -, bucket, view, hb, he, selectable, hinfo⟩ :=
    mem_weightedPool ((it.priorityCandidates_sublist _ _).subset hw)
  obtain ⟨-, allowed, -, t, ht, available, weight⟩ := weigh_some hweigh
  obtain ⟨included, hgroup⟩ := fresh.targets _ _ _ ht
  obtain ⟨decisions, reason, hok, d, hd, hincluded, htarget, -⟩ := included.decision
  obtain ⟨_, _, hok', hmem⟩ := @evaluateTargets_exact snapshot
    snapshot.executionCandidates (normalizeQuery query) true (.inr plain)
    fun route hroute =>
      catalogued.listed _ _ _ route ((catalogued.candidates _ _ _ route).mp hroute).1
  cases hok.symm.trans hok'
  obtain ⟨route, group, ⟨accepted, hroute, hlisted⟩, rfl⟩ := (hmem d).mp hd
  rw [(decideTarget_target ..).1] at htarget
  have hid : t.target.groupID = route.groupID := by rw [← htarget, upstreamTarget_groupID]
  have sameWeight : group.weightManual = t.group.weightManual := by
    obtain ⟨catalogView, hcatalog, -, hweight⟩ := catalogued.enabled _ _ (hid ▸ included.group)
    cases hlisted.symm.trans hcatalog
    exact hweight
  obtain ⟨bucket', entry, hb', he', rfl⟩ := reads.entry.mp ⟨bucket, hb, he⟩
  refine ⟨route, group, _, mem_snapshot.mpr ⟨_, bucket', _, entry, hb', he', rfl⟩,
    ⟨accepted, ((catalogued.candidates _ _ _ _).mp hroute).1, hlisted⟩, hincluded, ?_, ?_,
      ?_, ?_, ?_⟩
  · rw [← hid, hgroup, hinfo]
    rfl
  · simp only [allows, fresh.allowedCredentialIDs, Bool.and_eq_true, hinfo] at allowed
    exact allowed.1.1
  · exact reads.now ▸ selectable
  · simp only [targetAvailable, Bool.and_eq_true, decide_eq_true_eq, Bool.not_eq_true',
      decide_eq_false_iff_not, fresh.operation, reads.now, hinfo, ← htarget] at available
    exact available.2
  · rw [hinfo] at weight
    exact sameWeight ▸ weight

/-- `Inspect` calls a query routable exactly when `Next` on a fresh iterator selects a credential
for it. -/
theorem inspect_agrees (ok : compile input = .ok compiled)
    (h : ConsistentWith { compiled with revision } r)
    (refs : query.allowedCredentialRefs = none)
    (plain : wildcardsAt compiled.wildcardCandidates query.clientProtocol
      (normalizeQuery query).operation = [])
    (room : r.scheduling.sequence < SchedulingProgress.MaxUint64.toNat)
    (hfirst : Reads first r now) (hsecond : Reads second r now) :
    ∃ inspection ledger it,
      inspect (some { compiled with revision }) r.snapshot query now = .ok inspection ∧
      newWithClock (some { compiled with revision }) query r.scheduling = (ledger, .ok it) ∧
      (inspection.routable = true ↔
        ∃ selection, (it.next ledger first second).2.2 = .ok (some selection)) := by
  have built := catalogued_of_compile ok
  have catalogued : Catalogued { compiled with revision } :=
    ⟨built.candidates, built.listed, built.enabled, built.viewed⟩
  have known : ∀ view ∈ r.snapshot, view.groupID ∈ compiled.groupCatalog := by
    intro view hview
    obtain ⟨groupID, bucket, id, entry, hb, he, rfl⟩ := mem_snapshot.mp hview
    rw [runtimeView_groupID, (h.located _ _ _ (entryIn_of_lookup hb he)).2]
    exact h.catalogued _ (ExtTreeMap.mem_iff_isSome_getElem?.mpr (by simp [hb]))
  obtain ⟨inspection, hinspect, hroutable⟩ := inspect_routable catalogued known query now
  obtain ⟨it, hit, fresh⟩ := newWithClock_fresh catalogued plain r.scheduling
  refine ⟨inspection, _, it, hinspect, hit, ?_⟩
  have named := fresh.toServes.named ok
  rw [hroutable, next_result]
  constructor
  · rintro ⟨route, group, view, hview, hs⟩
    obtain ⟨kind, nonempty⟩ := fresh.searched_ne_nil catalogued refs h hview hs
    obtain ⟨ledger', found, hfound⟩ := search_found named _ fresh.routeModeTiers
      (h.serviced room hfirst _) (h.serviced room hsecond _) (by
        cases kind with
        | regular => exact .inl (nonempty first hfirst)
        | storeDowngraded => exact .inr (nonempty second hsecond))
    exact ⟨found.selection, by rw [hfound]; rfl⟩
  · rintro ⟨selection, hselection⟩
    obtain ⟨ledger', hnone⟩ | ⟨ledger', found, hfound, -, finds⟩ :=
      search_returns named first second _
    · rw [hnone] at hselection
      cases hselection
    obtain ⟨w, hw, -⟩ := finds.candidate
    have reads : Reads (found.moment first second) r now := by
      unfold Found.moment
      split <;> assumption
    exact fresh.serviceable catalogued plain reads hw

end Agreement

/-! ## A sample query -/

/-- The reading of a consistent registry, in the order of the buckets. -/
def readingOf (r : Registry.CredentialRegistry) (h : Registry.Consistent r) (now : Time) :
    Moment where
  registry :=
    { buckets := r.buckets.map fun _ bucket => bucket.map fun _ entry => runtimeView entry
      filed := by
        intro groupID id bucket view hb he
        rw [ExtTreeMap.getElem?_map, Option.map_eq_some_iff] at hb
        obtain ⟨bucket, hb, rfl⟩ := hb
        rw [ExtTreeMap.getElem?_map, Option.map_eq_some_iff] at he
        obtain ⟨entry, he, rfl⟩ := he
        exact h.located _ _ _ (entryIn_of_lookup hb he) }
  now
  order := id
  order_perm := fun l => .refl l

theorem reads_readingOf (h : Registry.Consistent r) (now : Time) :
    Reads (readingOf r h now) r now := ⟨rfl, rfl⟩

def sampleCredential (id : Nat) : Registry.CredentialEntry :=
  { id, groupID := 5, version := 1, identityGeneration := 1, fingerprint := "f", status := .active,
    encryptedValue := "v" }

/-- A registry with a disabled and an active credential of the sample group. -/
def sampleRegistry : Registry.CredentialRegistry :=
  run [(.replaceCredentials
    [{ sampleCredential 1 with status := .disabled }, sampleCredential 2], fun _ => 7)]

theorem sampleRegistry_consistent : Registry.Consistent sampleRegistry :=
  (represents_run _).choose_spec.consistent

theorem sampleRegistry_reachable : Reachable sampleRegistry.scheduling := by
  have valid : validateCredentialEntries
      [{ sampleCredential 1 with status := .disabled }, sampleCredential 2] = .ok () := by
    decide +kernel
  have stepped : sampleRegistry.scheduling = Op.apply newSchedulingState
      (.syncCredentials 0 ([{ sampleCredential 1 with status := .disabled }, sampleCredential 2].map
        fun entry => (runtimeView entry, 7))) := by
    simp [sampleRegistry, run, Registry.Call.perform,
      Registry.CredentialRegistry.replaceCredentials, valid, newCredentialRegistry,
      Op.apply]
  rw [stepped]
  refine .step .new fun view hv => ?_
  simp only [Op.views, map_cons, map_nil, mem_cons,
    not_mem_nil, or_false] at hv
  rcases hv with rfl | rfl <;> decide

def sampleSnapshot : ConfigSnapshot := { sampleCompiled with revision := 1 }

theorem sampleRegistry_consistentWith : ConsistentWith sampleSnapshot sampleRegistry where
  toConsistent := sampleRegistry_consistent
  reachable := sampleRegistry_reachable
  catalogued := by
    have keys : ∀ groupID ∈ sampleRegistry.buckets.keys,
        groupID ∈ sampleSnapshot.groupCatalog := by decide +kernel
    exact fun groupID h => keys groupID (ExtTreeMap.mem_keys.mpr h)

/-- The sample query is routable through the active credential, and `Next` selects it. -/
theorem inspect_agrees_sample :
    let m := readingOf sampleRegistry sampleRegistry_consistent 9
    ∃ inspection ledger it selection,
      inspect (some sampleSnapshot) sampleRegistry.snapshot sampleQuery 9 =
        .ok inspection ∧ inspection.routable = true ∧
      newWithClock (some sampleSnapshot) sampleQuery sampleRegistry.scheduling =
        (ledger, .ok it) ∧
      (it.next ledger m m).2.2 = .ok (some selection) := by
  intro m
  have reads : Reads m sampleRegistry 9 := reads_readingOf _ _
  have ok : compile sampleInput = .ok sampleCompiled := returnedBy_eq _ _
  obtain ⟨inspection, ledger, it, hinspect, hit, agrees⟩ :=
    inspect_agrees ok sampleRegistry_consistentWith
      (show sampleQuery.allowedCredentialRefs = none from rfl) (by decide +kernel)
      (by decide +kernel) reads reads
  have evaluated : (inspect (some sampleSnapshot) sampleRegistry.snapshot sampleQuery
      9).toOption.map Inspection.routable = some true := by
    decide +kernel
  have routable : inspection.routable = true := by
    rw [show inspect (some sampleSnapshot) _ _ _ = _ from hinspect] at evaluated
    exact Option.some.inj evaluated
  obtain ⟨selection, hselection⟩ := agrees.mp routable
  exact ⟨inspection, ledger, it, selection, hinspect, routable, hit, hselection⟩

end ApiLoad.Scheduler
