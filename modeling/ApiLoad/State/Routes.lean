import ApiLoad.Foundation.Fallible
import ApiLoad.State.Snapshot

/-!
# The routes of a compiled configuration

Every route of a compiled snapshot is one that a group offers, and a group offers at most one route
to an upstream model under a given protocol, operation and external model. A route is therefore
determined by its group and its upstream model, whatever the order of the index.
-/
namespace ApiLoad.State
open Std (ExtTreeMap)
open Foundation Channel Fallible List
open Text (trimSpace)

/-! ## Looking up the index -/

def routesAt (index : ExecutionCandidateIndex) (clientProtocol : Protocol) (operation : Operation)
    (model : String) : List RouteTarget :=
  ((index[clientProtocol]?.bind (·[operation]?)).bind (·[model]?)).getD []

def wildcardsAt (index : WildcardIndex) (clientProtocol : Protocol) (operation : Operation) :
    List RouteTarget :=
  (index[clientProtocol]?.bind (·[operation]?)).getD []

theorem routesAt_append (index : ExecutionCandidateIndex) (p p' : Protocol) (op op' : Operation)
    (model model' : String) (target : RouteTarget) :
    routesAt (appendExecutionTarget index p op model target) p' op' model' =
      if p = p' ∧ op = op' ∧ model = model' then routesAt index p op model ++ [target]
      else routesAt index p' op' model' := by
  unfold appendExecutionTarget routesAt
  by_cases hp : p = p'
  swap
  · simp [hp]
  subst hp
  by_cases ho : op = op'
  swap
  · cases h : index[p]? <;> simp [ho]
  subst ho
  by_cases hm : model = model'
  · subst hm
    cases h : index[p]? with
    | none => simp
    | some byOperation => cases h' : byOperation[op]? <;> simp [h']
  cases h : index[p]? with
  | none => simp [hm]
  | some byOperation => cases h' : byOperation[op]? <;> simp [h', hm]

variable {model : String} {op : Operation} {p : Protocol} {index : ExecutionCandidateIndex}
  {route : RouteTarget} {groupIDs : List Nat} {registry : Registry} {input : CompileInput}

theorem mem_routesAt_sort :
    route ∈ routesAt (sortExecutionRouteIndex index) p op model ↔
      route ∈ routesAt index p op model := by
  unfold routesAt sortExecutionRouteIndex
  cases h : index[p]? with
  | none => simp [h]
  | some byOperation =>
    cases h' : byOperation[op]? with
    | none => simp [h, h']
    | some byModel =>
      cases h'' : byModel[model]? with
      | none => simp [h, h', h'']
      | some routes =>
        simp [h, h', h'', sortRoutes, (perm_insertionSort _ routes).mem_iff]

/-! ## The routes that a group offers -/

/-- A route that `appendExecutionTargets` files for a group under a protocol, an operation and an
external model. -/
inductive Offers (registry : Registry) (group : GroupConfig) :
    Protocol → Operation → String → RouteTarget → Prop
  | transparent {target : ResolvedTarget}
      (resolved : registry.resolve group.channelID group.params = .ok target) :
      Offers registry group .transparentHTTP .transparentRequest NoModelRouteKey
        { groupID := group.id, mode := .native, resolvedTarget := target.withTransparentHTTP }
  | live {target : ResolvedTarget} {mode : RouteMode}
      (resolved : registry.resolve group.channelID group.params = .ok target)
      (hmode : target.mode .codexLive .liveCall = some mode) :
      Offers registry group .codexLive .liveCall NoModelRouteKey
        { groupID := group.id, mode, resolvedTarget := target }
  | resource {target : ResolvedTarget} {p : Protocol} {op : Operation} {mode : RouteMode}
      (resolved : registry.resolve group.channelID group.params = .ok target)
      (routed : registration op ≠ .skipped) (hmode : target.mode p op = some mode) :
      Offers registry group p op NoModelRouteKey
        { groupID := group.id, mode, resolvedTarget := target }
  | model {target : ResolvedTarget} {p : Protocol} {op : Operation} {mode : RouteMode}
      {model : ModelConfig} (resolved : registry.resolve group.channelID group.params = .ok target)
      (listed : model ∈ group.models) (hmode : target.modeForModel p op model.id = some mode) :
      Offers registry group p op (externalModelName model)
        { groupID := group.id, upstreamModelID := trimSpace model.id, mode,
          resolvedTarget := target }

/-- A route that `appendWildcardTargets` files for a group. -/
def OffersAny (registry : Registry) (group : GroupConfig) (p : Protocol) (op : Operation)
    (route : RouteTarget) : Prop :=
  ∃ target mode, registry.resolve group.channelID group.params = .ok target ∧
    target.mode p op = some mode ∧
    route = { groupID := group.id, mode, resolvedTarget := target }

/-- All routes of an index are offered by groups of a list. -/
def Sourced (registry : Registry) (groups : List GroupConfig) (index : ExecutionCandidateIndex) :
    Prop :=
  ∀ p op model, ∀ route ∈ routesAt index p op model,
    ∃ group ∈ groups, Offers registry group p op model route

def SourcedAny (registry : Registry) (groups : List GroupConfig) (index : WildcardIndex) : Prop :=
  ∀ p op, ∀ route ∈ wildcardsAt index p op, ∃ group ∈ groups, OffersAny registry group p op route

variable {registry : Registry} {groups : List GroupConfig} {group : GroupConfig}

theorem Sourced.append (h : Sourced registry groups index) (hg : group ∈ groups)
    (offers : Offers registry group p op model route) :
    Sourced registry groups (appendExecutionTarget index p op model route) := by
  intro p' op' model' route' hroute
  rw [routesAt_append] at hroute
  split at hroute
  swap
  · exact h _ _ _ _ hroute
  next same =>
  obtain ⟨rfl, rfl, rfl⟩ := same
  rcases mem_append.mp hroute with hold | hnew
  · exact h _ _ _ _ hold
  · rw [mem_singleton.mp hnew]
    exact ⟨group, hg, offers⟩

section

variable {target : ResolvedTarget} {index index' : ExecutionCandidateIndex}
  (h : Sourced registry groups index) (hg : group ∈ groups)
  (resolved : registry.resolve group.channelID group.params = .ok target) {p : Protocol}
  {op : Operation}
include h hg resolved

theorem Sourced.appendModel {model : ModelConfig} (listed : model ∈ group.models)
    (ok : appendModelTargets group target p op index model = .ok index') :
    Sourced registry groups index' := by
  unfold appendModelTargets at ok
  split at ok
  · cases ok
    exact h
  split at ok
  · cases ok
  next mode hmode =>
  cases ok
  exact h.append hg (.model resolved listed hmode)

theorem Sourced.appendOperation (ok : appendOperationTargets group target p index op = .ok index') :
    Sourced registry groups index' := by
  unfold appendOperationTargets at ok
  split at ok
  · cases ok
    exact h
  next routed =>
  split at ok
  · cases ok
  next mode hmode =>
  have filed := h.append hg (.resource resolved routed hmode)
  have models {start : ExecutionCandidateIndex} (hs : Sourced registry groups start)
      (hfold : group.models.foldlM (appendModelTargets group target p op) start = .ok index') :
      Sourced registry groups index' :=
    foldlM_ok (fun _ model listed _ hs hok => hs.appendModel hg resolved listed hok)
      hs hfold
  dsimp only at ok
  split at ok
  · cases ok
    exact h
  · cases ok
    exact filed
  · exact models filed ok
  · exact models h ok
  · cases ok

end

theorem Sourced.appendTargets (h : Sourced registry groups index) (hg : group ∈ groups)
    (ok : appendExecutionTargets index registry group transparent = .ok index') :
    Sourced registry groups index' := by
  unfold appendExecutionTargets at ok
  obtain ⟨target, resolved, ok⟩ := bind_ok.mp ok
  rw [mapError_ok] at resolved
  split at ok
  swap
  · cases ok
  next descriptor _ =>
  have proxied : Sourced registry groups
      (if transparent.enabled then
        appendExecutionTarget index .transparentHTTP .transparentRequest NoModelRouteKey
          { groupID := group.id, mode := .native, resolvedTarget := target.withTransparentHTTP }
      else index) := by
    split
    · exact h.append hg (.transparent resolved)
    · exact h
  have models {live : ExecutionCandidateIndex} (hs : Sourced registry groups live)
      (hok : (if group.models = [] then .ok live
        else descriptor.clientProtocols.foldlM (fun index clientProtocol =>
          (target.operations clientProtocol).foldlM
            (appendOperationTargets group target clientProtocol) index) live) = .ok index') :
      Sourced registry groups index' := by
    split at hok
    · cases hok
      exact hs
    refine foldlM_ok (fun s p _ s' hs hok => ?_) hs hok
    exact foldlM_ok (fun _ op _ _ hs' hok' => hs'.appendOperation hg resolved hok')
      hs hok
  dsimp only at ok
  split at ok
  · split at ok
    · cases ok
    · next mode hmode => exact models (proxied.append hg (.live resolved hmode)) ok
  · exact models proxied ok

theorem wildcardsAt_append (index : WildcardIndex) (p p' : Protocol) (op op' : Operation)
    (route : RouteTarget) :
    wildcardsAt (index.insert p ((index[p]?.getD ∅).insert op
      (((index[p]?.getD ∅)[op]?.getD []) ++ [route]))) p' op' =
      if p = p' ∧ op = op' then wildcardsAt index p op ++ [route]
      else wildcardsAt index p' op' := by
  unfold wildcardsAt
  by_cases hp : p = p'
  · subst hp
    by_cases ho : op = op'
    · subst ho
      cases h : index[p]? <;> simp
    · cases h : index[p]? <;> simp [ho]
  · simp [hp]

theorem SourcedAny.append {index : WildcardIndex} (h : SourcedAny registry groups index)
    (hg : group ∈ groups) (resolved : registry.resolve group.channelID group.params = .ok target)
    (descriptor : Descriptor) :
    SourcedAny registry groups (appendWildcardTargets index group.id target descriptor) := by
  have one {index : WildcardIndex} (h : SourcedAny registry groups index) (p : Protocol)
      (op : Operation) :
      SourcedAny registry groups (appendWildcardTarget group.id target p index op) := by
    unfold appendWildcardTarget
    split
    swap
    · exact h
    split
    · exact h
    next mode hmode =>
    intro p' op' route hroute
    rw [wildcardsAt_append] at hroute
    split at hroute
    · next same =>
      obtain ⟨rfl, rfl⟩ := same
      rcases mem_append.mp hroute with hold | hnew
      · exact h _ _ _ hold
      · exact ⟨group, hg, target, mode, resolved, hmode, mem_singleton.mp hnew⟩
    · exact h _ _ _ hroute
  have operations (ops : List Operation) (p : Protocol) {index : WildcardIndex}
      (h : SourcedAny registry groups index) :
      SourcedAny registry groups (ops.foldl (appendWildcardTarget group.id target p) index) := by
    induction ops generalizing index with
    | nil => exact h
    | cons op ops ih => exact ih (one h p op)
  unfold appendWildcardTargets
  generalize descriptor.clientProtocols = protocols
  induction protocols generalizing index with
  | nil => exact h
  | cons p protocols ih => exact ih (operations _ p h)

/-! ## What validation establishes -/

theorem validateModels_ok (ok : validateModels groupID seen models = .ok ()) :
    (∀ model ∈ models, trimSpace model.id ≠ "" ∧
      (externalModelName model, trimSpace model.id) ∉ seen) ∧
    ∀ a ∈ models, ∀ b ∈ models, externalModelName a = externalModelName b →
      trimSpace a.id = trimSpace b.id → a = b := by
  induction models generalizing seen with
  | nil => simp
  | cons model models ih =>
    unfold validateModels at ok
    split at ok
    · cases ok
    next named =>
    dsimp only at ok
    split at ok
    · cases ok
    next fresh =>
    obtain ⟨later, distinct⟩ := ih ok
    -- A later model with the same mapping would have been refused.
    have apart (b : ModelConfig) (hb : b ∈ models)
        (he : externalModelName model = externalModelName b)
        (hi : trimSpace model.id = trimSpace b.id) : False :=
      (later b hb).2 (by simp [he, hi])
    refine ⟨fun m hm => ?_, fun a ha b hb he hi => ?_⟩
    · rcases mem_cons.mp hm with rfl | hm
      · exact ⟨named, fresh⟩
      · exact ⟨(later m hm).1, fun hin => (later m hm).2 (mem_cons_of_mem _ hin)⟩
    rcases mem_cons.mp ha with rfl | ha' <;> rcases mem_cons.mp hb with rfl | hb'
    · rfl
    · exact (apart b hb' he hi).elim
    · exact (apart a ha' he.symm hi.symm).elim
    · exact distinct a ha' b hb' he hi

theorem externalModelName_ne {model : ModelConfig} (h : trimSpace model.id ≠ "") :
    externalModelName model ≠ NoModelRouteKey := by
  unfold externalModelName NoModelRouteKey
  dsimp only
  split
  · assumption
  · exact h

theorem validateGroup_ok (ok : validateGroup registry groupIDs group = .ok ()) :
    group.id ≠ 0 ∧ group.id ∉ groupIDs ∧ validateModels group.id [] group.models = .ok () := by
  unfold validateGroup at ok
  dsimp only at ok
  split at ok
  · cases ok
  next nonzero =>
  split at ok
  · cases ok
  next fresh =>
  split at ok
  · cases ok
  split at ok
  swap
  · cases ok
  split at ok
  · cases ok
  obtain ⟨target, -, ok⟩ := bind_ok.mp ok
  split at ok
  · split at ok
    · cases ok
    · obtain ⟨-, -, ok⟩ := bind_ok.mp ok
      exact ⟨nonzero, fresh, ok⟩
  · obtain ⟨-, -, ok⟩ := bind_ok.mp ok
    exact ⟨nonzero, fresh, ok⟩

theorem validateGroups_ok (ok : validateGroups registry groupIDs groups = .ok ()) :
    (∀ group ∈ groups, group.id ≠ 0 ∧ group.id ∉ groupIDs ∧
      validateModels group.id [] group.models = .ok ()) ∧
    ∀ a ∈ groups, ∀ b ∈ groups, a.id = b.id → a = b := by
  induction groups generalizing groupIDs with
  | nil => simp
  | cons group groups ih =>
    unfold validateGroups at ok
    obtain ⟨⟨⟩, first, rest⟩ := bind_ok.mp ok
    obtain ⟨later, distinct⟩ := ih rest
    have apart (b : GroupConfig) (hb : b ∈ groups) (he : group.id = b.id) : False :=
      (later b hb).2.1 (by simp [he])
    refine ⟨fun g hg => ?_, fun a ha b hb he => ?_⟩
    · rcases mem_cons.mp hg with rfl | hg
      · exact validateGroup_ok first
      · obtain ⟨nonzero, fresh, models⟩ := later g hg
        exact ⟨nonzero, fun hin => fresh (mem_cons_of_mem _ hin), models⟩
    rcases mem_cons.mp ha with rfl | ha' <;> rcases mem_cons.mp hb with rfl | hb'
    · rfl
    · exact (apart b hb' he).elim
    · exact (apart a ha' he.symm).elim
    · exact distinct a ha' b hb' he

/-! ## Compiled snapshots -/

/-- The routes of a snapshot are offered by the configured groups. -/
structure Routed (registry : Registry) (groups : List GroupConfig) (snapshot : ConfigSnapshot) :
    Prop where
  candidates : Sourced registry groups snapshot.executionCandidates
  wildcards : SourcedAny registry groups snapshot.wildcardCandidates

theorem Routed.compileGroup {snapshot : ConfigSnapshot}
    (h : Routed input.channelRegistry input.groups snapshot) (hg : group ∈ input.groups)
    (ok : compileGroup input snapshot group = .ok snapshot') :
    Routed input.channelRegistry input.groups snapshot' := by
  unfold State.compileGroup at ok
  obtain ⟨settings, -, ok⟩ := bind_ok.mp ok
  obtain ⟨-, -, ok⟩ := bind_ok.mp ok
  obtain ⟨catalog, -, ok⟩ := bind_ok.mp ok
  dsimp only at ok
  split at ok
  · cases ok
    exact ⟨h.candidates, h.wildcards⟩
  obtain ⟨-, -, ok⟩ := bind_ok.mp ok
  obtain ⟨target, resolved, ok⟩ := bind_ok.mp ok
  obtain ⟨candidates, hcandidates, ok⟩ := bind_ok.mp ok
  rw [mapError_ok] at resolved
  cases ok
  refine ⟨h.candidates.appendTargets hg hcandidates, ?_⟩
  dsimp only
  split
  · exact h.wildcards.append hg resolved _
  · exact h.wildcards

theorem routed_of_compile (ok : compile input = .ok snapshot) :
    validateGroups input.channelRegistry [] input.groups = .ok () ∧
      Routed input.channelRegistry input.groups snapshot := by
  unfold compile at ok
  obtain ⟨⟨⟩, valid, ok⟩ := bind_ok.mp ok
  obtain ⟨raw, hraw, ok⟩ := bind_ok.mp ok
  have start : Routed input.channelRegistry input.groups
      { routeStrategy := input.routeStrategy } :=
    ⟨fun _ _ _ _ h => by simp [routesAt] at h, fun _ _ _ h => by simp [wildcardsAt] at h⟩
  have routed : Routed input.channelRegistry input.groups raw :=
    foldlM_ok (fun _ _ hg _ hs hok => hs.compileGroup hg hok) start hraw
  cases ok
  exact ⟨valid, fun p op model route hroute =>
    routed.candidates p op model route (mem_routesAt_sort.mp hroute), routed.wildcards⟩

theorem Offers.groupID_eq (h : Offers registry group p op model route) :
    route.groupID = group.id := by
  cases h <;> rfl

/-- A validated group offers at most one route to an upstream model. -/
theorem Offers.unique (valid : validateModels group.id [] group.models = .ok ())
    (ha : Offers registry group p op model a) (hb : Offers registry group p op model b)
    (same : a.upstreamModelID = b.upstreamModelID) : a = b := by
  obtain ⟨named, distinct⟩ := validateModels_ok valid
  have unnamed {m : ModelConfig} (hm : m ∈ group.models) :
      externalModelName m ≠ NoModelRouteKey := externalModelName_ne (named m hm).1
  generalize hkey : model = key at hb
  generalize hp : p = p' at hb
  generalize hop : op = op' at hb
  cases ha <;> cases hb <;> subst_vars
  all_goals grind [registration]

section

variable {input : CompileInput} {snapshot : ConfigSnapshot} (ok : compile input = .ok snapshot)
  {p : Protocol} {op : Operation}
include ok

variable {a b : RouteTarget}

theorem Routed.unique (ha : a ∈ routesAt snapshot.executionCandidates p op model)
    (hb : b ∈ routesAt snapshot.executionCandidates p op model) (group : a.groupID = b.groupID)
    (upstream : a.upstreamModelID = b.upstreamModelID) : a = b := by
  obtain ⟨valid, routed⟩ := routed_of_compile ok
  obtain ⟨each, distinct⟩ := validateGroups_ok valid
  obtain ⟨g, hg, offers⟩ := routed.candidates _ _ _ _ ha
  obtain ⟨g', hg', offers'⟩ := routed.candidates _ _ _ _ hb
  have same : g = g' :=
    distinct g hg g' hg' (offers.groupID_eq.symm.trans (group.trans offers'.groupID_eq))
  subst same
  exact offers.unique (each g hg).2.2 offers' upstream

theorem Routed.unique_wildcard (ha : a ∈ wildcardsAt snapshot.wildcardCandidates p op)
    (hb : b ∈ wildcardsAt snapshot.wildcardCandidates p op) (group : a.groupID = b.groupID) :
    a = b := by
  obtain ⟨valid, routed⟩ := routed_of_compile ok
  obtain ⟨-, distinct⟩ := validateGroups_ok valid
  obtain ⟨g, hg, target, mode, resolved, hmode, rfl⟩ := routed.wildcards _ _ _ ha
  obtain ⟨g', hg', target', mode', resolved', hmode', rfl⟩ := routed.wildcards _ _ _ hb
  have same : g = g' := distinct g hg g' hg' group
  subst same
  cases resolved.symm.trans resolved'
  cases hmode.symm.trans hmode'
  rfl

/-- Under the key of no model every route leaves the upstream model open. -/
theorem Routed.upstream_empty
    (ha : a ∈ routesAt snapshot.executionCandidates p op NoModelRouteKey) :
    a.upstreamModelID = "" := by
  obtain ⟨valid, routed⟩ := routed_of_compile ok
  obtain ⟨each, -⟩ := validateGroups_ok valid
  obtain ⟨g, hg, offers⟩ := routed.candidates _ _ _ _ ha
  obtain ⟨named, -⟩ := validateModels_ok (each g hg).2.2
  generalize hkey : NoModelRouteKey = key at offers
  cases offers with
  | transparent | live | resource => rfl
  | model _ listed _ => exact absurd hkey.symm (externalModelName_ne (named _ listed).1)

/-- The groups of the routes have IDs. -/
theorem Routed.groupID_ne_zero (model : String)
    (ha : a ∈ routesAt snapshot.executionCandidates p op model ∨ a ∈ wildcardsAt
      snapshot.wildcardCandidates p op) : a.groupID ≠ 0 := by
  obtain ⟨valid, routed⟩ := routed_of_compile ok
  obtain ⟨each, -⟩ := validateGroups_ok valid
  rcases ha with ha | ha
  · obtain ⟨g, hg, offers⟩ := routed.candidates _ _ _ _ ha
    rw [offers.groupID_eq]
    exact (each g hg).1
  · obtain ⟨g, hg, _, _, _, _, rfl⟩ := routed.wildcards _ _ _ ha
    exact (each g hg).1

end

end ApiLoad.State
