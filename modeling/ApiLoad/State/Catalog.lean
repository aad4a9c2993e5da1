import ApiLoad.State.Routes

/-!
# The catalog and the candidates

`Compile` files the routes of every group in the catalog and once more, for the enabled groups, in
the index of candidates. Both passes run the same code on different indexes, so the candidates are
exactly the routes of the catalog whose group is enabled.
-/
namespace ApiLoad.State
open Std (ExtTreeMap)
open Foundation Channel Fallible List

/-! ## Filing routes -/

/-- A pass that files routes of a group behind those the index has, the same ones whatever the
index is. -/
def Files (groupID : Nat) (pass : ExecutionCandidateIndex → Except String ExecutionCandidateIndex) :
    Prop :=
  ∃ filed : Protocol → Operation → String → List RouteTarget,
    (∀ p op model, ∀ route ∈ filed p op model, route.groupID = groupID) ∧
    ∀ index index', pass index = .ok index' → ∀ p op model,
      routesAt index' p op model = routesAt index p op model ++ filed p op model

variable {groupID : Nat}
  {pass next : ExecutionCandidateIndex → Except String ExecutionCandidateIndex}

theorem Files.nothing : Files groupID .ok :=
  ⟨fun _ _ _ => [], by simp, by rintro index _ ⟨⟩; simp⟩

theorem Files.failure (e : String) : Files groupID fun _ => .error e :=
  ⟨fun _ _ _ => [], by simp, nofun⟩

theorem Files.append (p : Protocol) (op : Operation) (model : String) {target : RouteTarget}
    (h : target.groupID = groupID) :
    Files groupID fun index => .ok (appendExecutionTarget index p op model target) := by
  refine ⟨fun p' op' model' => if p = p' ∧ op = op' ∧ model = model' then [target] else [], ?_, ?_⟩
  · grind
  rintro index _ ⟨⟩ p' op' model'
  rw [routesAt_append]
  grind

theorem Files.andThen (h : Files groupID pass) (h' : Files groupID next) :
    Files groupID fun index => pass index >>= next := by
  obtain ⟨filed, own, hpass⟩ := h
  obtain ⟨filed', own', hnext⟩ := h'
  refine ⟨fun p op model => filed p op model ++ filed' p op model, ?_, ?_⟩
  · grind
  intro index index' hok p op model
  obtain ⟨middle, hmiddle, hok⟩ := bind_ok.mp hok
  rw [hnext middle index' hok, hpass index middle hmiddle, append_assoc]

theorem Files.loop {α : Type}
    {f : ExecutionCandidateIndex → α → Except String ExecutionCandidateIndex}
    {l : List α} (h : ∀ a ∈ l, Files groupID fun index => f index a) :
    Files groupID (l.foldlM f) := by
  induction l with
  | nil => exact .nothing
  | cons a l ih =>
    exact (h a mem_cons_self).andThen (ih fun b hb => h b (mem_cons_of_mem _ hb))

section Passes

variable (group : GroupConfig) (target : ResolvedTarget)

theorem files_appendModelTargets (p : Protocol) (op : Operation) (model : ModelConfig) :
    Files group.id fun index => appendModelTargets group target p op index model := by
  unfold appendModelTargets
  split
  · exact .nothing
  split
  · exact .failure _
  · exact .append _ _ _ rfl

theorem files_appendOperationTargets (p : Protocol) (op : Operation) :
    Files group.id fun index => appendOperationTargets group target p index op := by
  have hmodels : Files group.id (group.models.foldlM (appendModelTargets group target p op)) :=
    .loop fun model _ => files_appendModelTargets group target p op model
  unfold appendOperationTargets
  split
  · exact .nothing
  split
  · exact .failure _
  next mode _ =>
  have resource : Files group.id fun index => .ok (appendExecutionTarget index p op
      NoModelRouteKey { groupID := group.id, mode, resolvedTarget := target }) :=
    .append _ _ _ rfl
  dsimp only
  split
  · exact .nothing
  · exact resource
  · exact resource.andThen hmodels
  · exact hmodels
  · exact .failure _

theorem files_appendExecutionTargets (registry : Registry) (transparent : TransparentProxyConfig) :
    Files group.id fun index => appendExecutionTargets index registry group transparent := by
  unfold appendExecutionTargets
  cases registry.resolve group.channelID group.params with
  | error e => exact .failure _
  | ok target =>
    cases registry.get group.channelID with
    | none => exact .failure _
    | some descriptor =>
      have proxied : Files group.id fun index => .ok (if transparent.enabled then
          appendExecutionTarget index .transparentHTTP .transparentRequest NoModelRouteKey
            { groupID := group.id, mode := .native, resolvedTarget := target.withTransparentHTTP }
          else index) := by
        split
        · exact .append _ _ _ rfl
        · exact .nothing
      have models : Files group.id fun index => if group.models = [] then .ok index
          else descriptor.clientProtocols.foldlM (fun index clientProtocol =>
            (target.operations clientProtocol).foldlM
              (appendOperationTargets group target clientProtocol) index) index := by
        split
        · exact .nothing
        · exact .loop fun p _ => .loop fun op _ => files_appendOperationTargets group target p op
      simp only [Except.mapError, bind, Except.bind]
      by_cases codex : group.channelID = .codex
      · cases live : target.mode .codexLive .liveCall with
        | none =>
          simp only [codex, if_true]
          exact .failure _
        | some mode =>
          have filed : Files group.id fun index => .ok (appendExecutionTarget index .codexLive
              .liveCall NoModelRouteKey { groupID := group.id, mode, resolvedTarget := target }) :=
            .append _ _ _ rfl
          simp only [codex, if_true]
          exact proxied.andThen (filed.andThen models)
      · simp only [codex, if_false]
        exact proxied.andThen models

end Passes

/-! ## Compiled snapshots -/

/-- The candidates are the catalogued routes of the enabled groups, and the views of a group agree
on its weight. -/
structure Catalogued (snapshot : ConfigSnapshot) : Prop where
  candidates : ∀ p op model route, route ∈ routesAt snapshot.executionCandidates p op model ↔
    route ∈ routesAt snapshot.executionRouteCatalog p op model ∧
      ∃ view, snapshot.groups[route.groupID]? = some view
  listed : ∀ p op model, ∀ route ∈ routesAt snapshot.executionRouteCatalog p op model,
    ∃ view, snapshot.groupCatalog[route.groupID]? = some view
  enabled : ∀ (groupID : Nat) (view : GroupView), snapshot.groups[groupID]? = some view →
    ∃ catalogView, snapshot.groupCatalog[groupID]? = some catalogView ∧
      catalogView.enabled = true ∧ catalogView.weightManual = view.weightManual
  viewed : ∀ (groupID : Nat) (catalogView : GroupCatalogView),
    snapshot.groupCatalog[groupID]? = some catalogView → catalogView.id = groupID ∧
      (catalogView.enabled = true → ∃ view, snapshot.groups[groupID]? = some view)

section AddGroup

variable {snapshot : ConfigSnapshot} {filed : Protocol → Operation → String → List RouteTarget}
  {catalog candidates : ExecutionCandidateIndex} {catalogView : GroupCatalogView}

/-- The routes that a snapshot has belong to other groups than one that it does not know. -/
theorem Catalogued.apart (h : Catalogued snapshot) (fresh : groupID ∉ snapshot.groupCatalog)
    {p : Protocol} {op : Operation} {model : String} {route : RouteTarget}
    (hroute : route ∈ routesAt snapshot.executionRouteCatalog p op model) :
    route.groupID ≠ groupID := by
  rintro rfl
  obtain ⟨view, hview⟩ := h.listed _ _ _ _ hroute
  exact fresh (ExtTreeMap.mem_iff_isSome_getElem?.mpr (by simp [hview]))

theorem Catalogued.not_enabled (h : Catalogued snapshot) (fresh : groupID ∉ snapshot.groupCatalog) :
    snapshot.groups[groupID]? = none := by
  cases hview : snapshot.groups[groupID]? with
  | none => rfl
  | some view =>
    obtain ⟨_, hlisted, _⟩ := h.enabled _ _ hview
    exact absurd (ExtTreeMap.mem_iff_isSome_getElem?.mpr (by simp [hlisted])) fresh

variable (h : Catalogued snapshot) (fresh : catalogView.id ∉ snapshot.groupCatalog)
  (own : ∀ p op model, ∀ route ∈ filed p op model, route.groupID = catalogView.id)
  (catalogued : ∀ p op model, routesAt catalog p op model =
    routesAt snapshot.executionRouteCatalog p op model ++ filed p op model)
include h own catalogued

theorem Catalogued.listed_insert (p : Protocol) (op : Operation) (model : String)
    (route : RouteTarget) (hroute : route ∈ routesAt catalog p op model) :
    ∃ view, (snapshot.groupCatalog.insert catalogView.id catalogView)[route.groupID]? =
      some view := by
  simp only [catalogued, mem_append] at hroute
  by_cases same : catalogView.id = route.groupID
  · exact ⟨catalogView, by simp [same]⟩
  rcases hroute with hold | hnew
  · simpa [ExtTreeMap.getElem?_insert, same] using h.listed _ _ _ _ hold
  · exact absurd (own _ _ _ _ hnew).symm same

include fresh

/-- A disabled group only enters the catalog. -/
theorem Catalogued.addDisabled (off : catalogView.enabled = false) :
    Catalogued { snapshot with
      groupCatalog := snapshot.groupCatalog.insert catalogView.id catalogView
      executionRouteCatalog := catalog } where
  candidates p op model route := by
    have disabled := h.not_enabled fresh
    simp only [catalogued, mem_append, h.candidates p op model route]
    constructor
    · rintro ⟨hold, hview⟩
      exact ⟨.inl hold, hview⟩
    rintro ⟨hold | hnew, view, hview⟩
    · exact ⟨hold, view, hview⟩
    · simp [own _ _ _ _ hnew, disabled] at hview
  listed := h.listed_insert own catalogued
  enabled groupID view hview := by
    have old := h.enabled _ _ hview
    by_cases same : catalogView.id = groupID
    · subst same
      simp [h.not_enabled fresh] at hview
    · simpa [ExtTreeMap.getElem?_insert, same] using old
  viewed groupID view hview := by
    by_cases same : catalogView.id = groupID
    · grind
    · exact h.viewed groupID view (by simpa [ExtTreeMap.getElem?_insert, same] using hview)

/-- An enabled group enters the catalog and the candidates with the same routes. -/
theorem Catalogued.addEnabled {view : GroupView}
    (weight : catalogView.weightManual = view.weightManual) (on : catalogView.enabled = true)
    (chosen : ∀ p op model, routesAt candidates p op model =
      routesAt snapshot.executionCandidates p op model ++ filed p op model)
    (wildcards : WildcardIndex) :
    Catalogued { snapshot with
      groupCatalog := snapshot.groupCatalog.insert catalogView.id catalogView
      executionRouteCatalog := catalog
      executionCandidates := candidates
      wildcardCandidates := wildcards
      groups := snapshot.groups.insert catalogView.id view } where
  candidates p op model route := by
    have other := @Catalogued.apart _ _ h fresh p op model route
    simp only [catalogued, chosen, mem_append, ExtTreeMap.getElem?_insert, compare_eq_iff_eq,
      h.candidates p op model route]
    by_cases same : catalogView.id = route.groupID
    · simp only [same, if_true, Option.some.injEq, exists_eq', and_true]
      grind
    · have foreign : route ∉ filed p op model := fun hnew => same (own _ _ _ _ hnew).symm
      simp [same, foreign]
  listed := h.listed_insert own catalogued
  enabled groupID found hfound := by
    by_cases same : catalogView.id = groupID
    · simp only [same, ExtTreeMap.getElem?_insert_self, Option.some.injEq] at hfound
      exact ⟨catalogView, by simp [same], on, by rw [weight, hfound]⟩
    · simp only [ExtTreeMap.getElem?_insert, compare_eq_iff_eq, same, if_false] at hfound ⊢
      exact h.enabled groupID found hfound
  viewed groupID found hfound := by
    by_cases same : catalogView.id = groupID
    · simp only [same, ExtTreeMap.getElem?_insert_self, Option.some.injEq] at hfound
      exact ⟨hfound ▸ same, fun _ => ⟨view, by simp [same]⟩⟩
    · simp only [ExtTreeMap.getElem?_insert, compare_eq_iff_eq, same, if_false] at hfound ⊢
      exact h.viewed groupID found hfound

end AddGroup

variable {input : CompileInput} {snapshot snapshot' : ConfigSnapshot} {groups : List GroupConfig}

/-- `Compile` fails on two groups with one ID, so each group is new to the snapshot. -/
theorem Catalogued.compileGroup {group : GroupConfig} (h : Catalogued snapshot)
    (fresh : group.id ∉ snapshot.groupCatalog)
    (ok : compileGroup input snapshot group = .ok snapshot') :
    Catalogued snapshot' ∧ ∀ groupID, groupID ∈ snapshot'.groupCatalog ↔
      groupID = group.id ∨ groupID ∈ snapshot.groupCatalog := by
  unfold State.compileGroup at ok
  obtain ⟨settings, -, ok⟩ := bind_ok.mp ok
  obtain ⟨-, -, ok⟩ := bind_ok.mp ok
  obtain ⟨catalog, hcatalog, ok⟩ := bind_ok.mp ok
  obtain ⟨filed, own, files⟩ :=
    files_appendExecutionTargets group input.channelRegistry settings.transparentProxy
  let view : GroupCatalogView :=
    { id := group.id, priority := group.priority, enabled := group.enabled,
      weightManual := group.weightManual }
  dsimp only at ok
  split at ok
  · next off =>
    cases ok
    have off : view.enabled = false := by simpa using off
    refine ⟨h.addDisabled fresh own (files _ _ hcatalog) off, ?_⟩
    simp only [ExtTreeMap.mem_insert, compare_eq_iff_eq]
    grind
  · next on =>
    obtain ⟨-, -, ok⟩ := bind_ok.mp ok
    obtain ⟨target, -, ok⟩ := bind_ok.mp ok
    obtain ⟨candidates, hcandidates, ok⟩ := bind_ok.mp ok
    cases ok
    have on : view.enabled = true := by simpa using on
    refine ⟨h.addEnabled fresh own (files _ _ hcatalog) rfl on (files _ _ hcandidates) _, ?_⟩
    simp only [ExtTreeMap.mem_insert, compare_eq_iff_eq]
    grind

theorem Catalogued.compileGroups (h : Catalogued snapshot)
    (fresh : ∀ group ∈ groups, group.id ∉ snapshot.groupCatalog)
    (distinct : groups.Pairwise fun a b => a.id ≠ b.id)
    (ok : groups.foldlM (State.compileGroup input) snapshot = .ok snapshot') :
    Catalogued snapshot' ∧ ∀ groupID, groupID ∈ snapshot.groupCatalog ∨
      groupID ∈ groups.map (·.id) → groupID ∈ snapshot'.groupCatalog := by
  induction groups generalizing snapshot with
  | nil =>
    cases ok
    exact ⟨h, by simp⟩
  | cons group groups ih =>
    obtain ⟨middle, hmiddle, ok⟩ := bind_ok.mp ok
    obtain ⟨hnext, known⟩ := h.compileGroup (fresh group mem_cons_self) hmiddle
    obtain ⟨apart, distinct⟩ := pairwise_cons.mp distinct
    obtain ⟨built, grown⟩ := ih hnext (by grind) distinct ok
    exact ⟨built, by grind⟩

theorem validateGroups_distinct (ok : validateGroups registry groupIDs groups = .ok ()) :
    groups.Pairwise fun a b => a.id ≠ b.id := by
  induction groups generalizing groupIDs with
  | nil => exact .nil
  | cons group groups ih =>
    unfold validateGroups at ok
    obtain ⟨⟨⟩, -, rest⟩ := bind_ok.mp ok
    refine .cons (fun other hother same => ?_) (ih rest)
    exact ((validateGroups_ok rest).1 other hother).2.1 (by simp [same])

theorem listed_of_compile (ok : compile input = .ok snapshot) :
    Catalogued snapshot ∧ ∀ group ∈ input.groups, group.id ∈ snapshot.groupCatalog := by
  unfold compile at ok
  obtain ⟨⟨⟩, valid, ok⟩ := bind_ok.mp ok
  obtain ⟨raw, hraw, ok⟩ := bind_ok.mp ok
  have start : Catalogued { routeStrategy := input.routeStrategy } :=
    ⟨by simp [routesAt], by simp [routesAt], by simp, by simp⟩
  obtain ⟨built, listed⟩ := start.compileGroups (by simp) (validateGroups_distinct valid) hraw
  cases ok
  refine ⟨⟨fun p op model route => ?_, fun p op model route hroute => ?_, built.enabled,
    built.viewed⟩, fun group hg => listed _ (.inr (mem_map_of_mem hg))⟩
  · simpa only [mem_routesAt_sort] using built.candidates p op model route
  · exact built.listed p op model route (mem_routesAt_sort.mp hroute)

theorem catalogued_of_compile (ok : compile input = .ok snapshot) :
    Catalogued snapshot := (listed_of_compile ok).1

end ApiLoad.State
