import ApiLoad.Scheduler.Inspect

/-!
# Route evaluation without panics

`evaluateTargets` reads the reason of the first decision when no target is included. For a compiled
snapshot there is one, except when the query goes to the groups that forward any model and the
resolvers of all of them reject the model.
-/
namespace ApiLoad.Scheduler
open Std (ExtTreeMap)
open Foundation Channel State Scheduling

/-- Every group that could forward the model of the query rejects it. -/
def WildcardsReject (snapshot : ConfigSnapshot) (index : ExecutionCandidateIndex)
    (query : NormalizedQuery) : Prop :=
  refusal query = none ∧ AsksWildcards snapshot index query ∧
    ∀ route ∈ wildcardsAt snapshot.wildcardCandidates query.clientProtocol query.operation,
      route.resolvedTarget.modeForModel query.clientProtocol query.operation query.modelKey = none

/-- The decisions name groups of the catalog, and the reason is empty if one is included. -/
def Answered (snapshot : ConfigSnapshot) (decisions : List TargetDecision) (reason : ReasonCode) :
    Prop :=
  (∀ d ∈ decisions, snapshot.groupCatalog[d.target.groupID]? = some d.group) ∧
    (reason = .none ↔ ∃ d ∈ decisions, d.included = true)

section

variable {snapshot : ConfigSnapshot} {index : ExecutionCandidateIndex} {query : NormalizedQuery}

theorem decideRoutes_answered
    (listed : ∀ route ∈ routes, ∃ group, snapshot.groupCatalog[route.groupID]? = some group)
    (taken : ∃ route ∈ routes, ∃ route', (if wildcard then wildcardRoute query route else some
      route) = some route') :
    ∃ decisions reason, decideRoutes snapshot query wildcard routes = .ok (decisions, reason) ∧
      Answered snapshot decisions reason := by
  obtain ⟨decisions, reason, h, mem, empty⟩ := decideRoutes_listed listed taken
  refine ⟨decisions, reason, h, fun d hd => ?_, empty⟩
  obtain ⟨route, -, hd⟩ := (mem d).mp hd
  simp only [routeDecision, Option.bind_eq_some_iff, Option.map_eq_some_iff] at hd
  obtain ⟨group, hgroup, route', hroute, rfl⟩ := hd
  have same : route'.groupID = route.groupID := by
    cases wildcard with
    | true => exact wildcardRoute_groupID hroute
    | false =>
      cases hroute
      rfl
  rw [(decideTarget_target ..).1, upstreamTarget_groupID, same, hgroup]
  rfl

/-- No decision is left of wildcards that all reject the model. -/
theorem decideRoutes_rejected
    (listed : ∀ route ∈ routes, ∃ group, snapshot.groupCatalog[route.groupID]? = some group)
    (rejected : ∀ route ∈ routes, wildcardRoute query route = none) :
    decideRoutes snapshot query true routes = .error (.panicked .indexOutOfRange) := by
  have none : routes.filterMap (routeDecision snapshot query true) = [] := by
    rw [List.filterMap_eq_nil_iff]
    intro route hroute
    simp [routeDecision, rejected route hroute]
  rw [decideRoutes, evaluateRoutes_ok.mpr ⟨listed, none⟩]
  rfl

/-- What `evaluateTargets` returns when the groups of all routes are in the catalog. -/
theorem evaluateTargets_total (allowWildcard : Bool)
    (listed : ∀ route, route ∈ routesAt index query.clientProtocol query.operation query.modelKey ∨
        route ∈ wildcardsAt snapshot.wildcardCandidates query.clientProtocol query.operation →
      ∃ group, snapshot.groupCatalog[route.groupID]? = some group) :
    (allowWildcard = true ∧ WildcardsReject snapshot index query ∧
      evaluateTargets (some snapshot) index query allowWildcard =
        .error (.panicked .indexOutOfRange)) ∨
    ¬ (allowWildcard = true ∧ WildcardsReject snapshot index query) ∧ ∃ decisions reason,
      evaluateTargets (some snapshot) index query allowWildcard = .ok (decisions, reason) ∧
        Answered snapshot decisions reason := by
  obtain ⟨reason, named, h, unrouted⟩ | ⟨open_, ⟨routes, h⟩ | ⟨rfl, asks, h⟩⟩ :=
    evaluateTargets_cases snapshot index query allowWildcard
  · exact .inr ⟨by grind [WildcardsReject], [], reason, h, by simp [Answered, named]⟩
  · refine .inr ⟨by grind [WildcardsReject, AsksWildcards], h ▸ decideRoutes_answered
      (fun route hr => listed route (.inl hr)) ?_⟩
    simpa using List.exists_mem_of_ne_nil _ routes
  · have hlisted := fun route hr => listed route (.inr hr)
    rw [h]
    by_cases rejected : ∀ route ∈ wildcardsAt snapshot.wildcardCandidates query.clientProtocol
        query.operation, wildcardRoute query route = none
    · exact .inl ⟨rfl, ⟨open_, asks, by simpa [wildcardRoute] using rejected⟩,
        decideRoutes_rejected hlisted rejected⟩
    · push Not at rejected
      refine .inr ⟨?_, decideRoutes_answered hlisted ?_⟩
      · rintro ⟨-, -, -, reject⟩
        obtain ⟨route, hr, taken⟩ := rejected
        simp [wildcardRoute, reject route hr] at taken
      · simpa [Option.ne_none_iff_exists'] using rejected

end

/-- `CooldownUntil`, of an iterator whose source lists its credentials. -/
def Iterator.cooldownUntil (it : Iterator) (credentials : Option (List CredentialRuntimeView))
    (now : Time) : Except Panic (Time × Bool) :=
  match credentials with
  | none => .ok (0, false)
  | some credentials =>
    match inspect it.snapshot credentials it.query now with
    | .error (.panicked panic) => .error panic
    | .error (.inconsistentSnapshot _) => .ok (0, false)
    | .ok inspection =>
      let limited := (inspection.groups.filter (·.included)).flatMap fun group =>
        group.credentials.filter fun c => c.reason = .credentialCooldown ∨ c.reason = .modelCooldown
      let earliest := limited.foldl (fun earliest c =>
        if earliest = 0 ∨ c.cooldownUntil < earliest then c.cooldownUntil else earliest) 0
      .ok (if inspection.routable then (0, false) else (earliest, earliest ≠ 0))

section

variable {input : CompileInput} {compiled : ConfigSnapshot} (ok : compile input = .ok compiled)
  (revision : Nat)
include ok

/-- Every route of a compiled snapshot belongs to a group of the catalog. -/
theorem listed_of_routed
    (hindex : index = compiled.executionCandidates ∨ index = compiled.executionRouteCatalog)
    (h : route ∈ routesAt index p op model ∨ route ∈ wildcardsAt compiled.wildcardCandidates p op) :
    ∃ group, compiled.groupCatalog[route.groupID]? = some group := by
  obtain ⟨catalogued, known⟩ := listed_of_compile ok
  obtain h | h := h
  · obtain rfl | rfl := hindex
    · exact catalogued.listed _ _ _ _ ((catalogued.candidates _ _ _ _).mp h).1
    · exact catalogued.listed _ _ _ _ h
  · obtain ⟨group, hgroup, _, _, _, _, rfl⟩ := (routed_of_compile ok).2.wildcards _ _ _ h
    exact ⟨_, ExtTreeMap.getElem?_eq_some_getElem (known group hgroup)⟩

/-- `evaluateTargets` on a compiled snapshot answers exactly when the wildcards it asks do not all
reject the model; so does `New`, and `Inspect` and `CooldownUntil` never panic. -/
theorem route_evaluation_total :
    (∀ index, (index = compiled.executionCandidates ∨ index = compiled.executionRouteCatalog) →
      ∀ query allowWildcard, (∃ decisions reason,
        evaluateTargets (some { compiled with revision }) index query allowWildcard =
          .ok (decisions, reason) ∧ Answered compiled decisions reason) ↔
        ¬ (allowWildcard = true ∧ WildcardsReject compiled index query)) ∧
    (∀ query ledger,
      (∃ it, (newWithClock (some { compiled with revision }) query ledger).2 = .ok it) ↔
        ¬ WildcardsReject compiled compiled.executionCandidates (normalizeQuery query)) ∧
    (∀ credentials query now panic,
      inspect (some { compiled with revision }) credentials query now ≠ .error (.panicked panic)) ∧
    ∀ (it : Iterator) credentials now, it.snapshot = some { compiled with revision } →
      ∃ limit, it.cooldownUntil credentials now = .ok limit := by
  have total {index} hindex query allowWildcard := @evaluateTargets_total { compiled with revision }
    index query allowWildcard fun route => listed_of_routed ok hindex
  have calm (credentials query now panic) :
      inspect (some { compiled with revision }) credentials query now ≠
        .error (.panicked panic) := by
    obtain ⟨⟨⟩, -⟩ | ⟨-, decisions, reason, h, -⟩ := total (.inr rfl) (normalizeQuery query) false
    unfold inspect
    dsimp only
    rw [h]
    intro hpanic
    split at hpanic
    · cases hpanic
    · split at hpanic <;> cases hpanic
  refine ⟨fun index hindex query allowWildcard => ?_, fun query ledger => ?_, calm, ?_⟩
  · obtain ⟨on, reject, h⟩ | ⟨fine, h⟩ := total hindex query allowWildcard
    · rw [h]
      exact iff_of_false (by simp) (not_not.mpr ⟨on, reject⟩)
    · exact iff_of_true h fine
  · obtain ⟨-, reject, h⟩ | ⟨fine, _, _, h, -⟩ := total (.inl rfl) (normalizeQuery query) true
    · refine iff_of_false ?_ (not_not.mpr reject)
      simp [newWithClock, filterTargetsWithReason, h, Except.map]
    · refine iff_of_true ?_ fun reject => fine ⟨rfl, reject⟩
      simp [newWithClock, filterTargetsWithReason, h, Except.map]
  · intro it credentials now hit
    unfold Iterator.cooldownUntil
    rw [hit]
    split
    · exact ⟨_, rfl⟩
    · split
      case h_1 panic h => exact absurd h (calm _ _ _ _)
      all_goals exact ⟨_, rfl⟩

end

/-- A channel whose resolver takes one model only, in a group that forwards any model. -/
def choosyInput : CompileInput where
  channelRegistry :=
    { get := fun _ => some ⟨[.openAICompletions], ["api_key"], "api_key"⟩
      resolve := fun id params => .ok
        { channelID := id, targetConfig := params, responsesWebsocket := {}
          modes := ExtTreeMap.ofList [(Protocol.openAICompletions,
            ExtTreeMap.ofList [(Operation.chatCompletion, RouteMode.native)])]
          resolvers :=
            fun _ _ => some fun model mode => if model = "known" then mode else .unrecognized
          responsesStoreHandlings := fun _ _ => .none }
      validateParams := fun _ params => .ok params }
  routeStrategy := .weightedMix
  groups := [{ id := 1, channelID := .other "choosy", connectionType := "api_key", models := []
               settings := .ok { transparentModels := true } }]
  credentials := []

/-- `New` panics on a model that the only wildcard rejects, and not on one that it takes. -/
def newPanic (model : String) : Option Panic :=
  (compile choosyInput).toOption.bind fun compiled =>
    match (newWithClock (some compiled)
      { clientProtocol := .openAICompletions, externalModel := some model } {}).2 with
    | .error panic => some panic
    | .ok _ => none

theorem route_evaluation_panics :
    newPanic "other" = some .indexOutOfRange ∧ newPanic "known" = none := by decide +kernel

theorem route_evaluation_total_choosy : ∃ compiled, compile choosyInput = .ok compiled ∧
    ∀ query ledger, (∃ it, (newWithClock (some compiled) query ledger).2 = .ok it) ↔
      ¬ WildcardsReject compiled compiled.executionCandidates (normalizeQuery query) := by
  cases ok : compile choosyInput with
  | ok compiled => exact ⟨compiled, rfl, (route_evaluation_total ok compiled.revision).2.1⟩
  | error e =>
    have : (compile choosyInput).isOk = true := by decide +kernel
    simp [ok, Except.isOk, Except.toBool] at this

end ApiLoad.Scheduler
