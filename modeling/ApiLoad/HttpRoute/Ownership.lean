import ApiLoad.HttpRoute.Registry

/-!
# Namespace ownership

A request that a route matches is authenticated by the module of the longest namespace that contains
its path. The checks of `NewRegistry` on finitely many patterns make this the module of the route,
for every path.
-/
namespace ApiLoad.HttpRoute
open Foundation Foundation.Text Foundation.Fallible List

/-! ## What is collected -/

variable {c c' : Collected} {index : Nat} {module : Module}

theorem addNamespace_ok (h : addNamespace module index c staticPrefix = .ok c') :
    validateStaticPrefix staticPrefix true = .ok () ∧
      c'.namespaces = c.namespaces ++ [⟨index, staticPrefix⟩] ∧ c'.routes = c.routes ∧
      c'.methodPaths = c.methodPaths := by
  unfold addNamespace at h
  obtain ⟨_, valid, h⟩ := bind_ok.mp h
  refine ⟨mapError_ok.mp valid, ?_⟩
  cases hl : c.namespaceOwners.lookup staticPrefix with
  | some owner => simp [hl, bind, Except.bind, throw, throwThe, MonadExceptOf.throw] at h
  | none =>
    simp only [hl] at h
    cases h
    exact ⟨rfl, rfl, rfl⟩

theorem addMethod_ok (h : addMethod route path c method = .ok c') :
    c'.namespaces = c.namespaces ∧ c'.routes = c.routes := by
  unfold addMethod at h
  split at h
  · cases h
  · cases h
    exact ⟨rfl, rfl⟩

theorem addRoute_ok (h : addRoute module index c declared = .ok c') :
    c'.routes = c.routes ++ [⟨index, declared.2, module.pathPrefix ++ declared.1.path⟩] ∧
      c'.namespaces = c.namespaces ∧ validateRoute declared.1 = .ok () ∧
      validateRoutePattern (module.pathPrefix ++ declared.1.path) = .ok () ∧
      ∃ c₀ c₁, c₀.methodPaths = c.methodPaths ∧ declared.1.methods.foldlM
        (addMethod declared.1 (module.pathPrefix ++ declared.1.path)) c₀ = .ok c₁ ∧
        c'.methodPaths = c₁.methodPaths := by
  unfold addRoute at h
  dsimp only at h
  obtain ⟨_, -, h⟩ := bind_ok.mp h
  split at h
  · cases h
  obtain ⟨_, valid, h⟩ := bind_ok.mp h
  obtain ⟨_, validPath, h⟩ := bind_ok.mp h
  obtain ⟨c₁, methods, h⟩ := bind_ok.mp h
  cases h
  have kept := foldlM_ok (P := fun s => s.namespaces = c.namespaces ∧ s.routes = c.routes)
    (fun s m _ s' hs hm => by
      obtain ⟨hn, hr⟩ := addMethod_ok hm
      exact ⟨hn.trans hs.1, hr.trans hs.2⟩) ⟨rfl, rfl⟩ methods
  exact ⟨by simp [kept.2], kept.1, mapError_ok.mp valid, mapError_ok.mp validPath, _, c₁, by rfl,
    methods, rfl⟩

/-- A module first adds its namespaces and then its routes. -/
theorem addModule_cases (h : addModule c (module, index) = .ok c') : ∃ c₀ c₁ c₂ : Collected,
      (c₀.namespaces = c.namespaces ∧ c₀.routes = c.routes ∧ c₀.methodPaths = c.methodPaths) ∧
      module.namespacePrefixes.foldlM (addNamespace module index) c₀ = .ok c₁ ∧
      (c₂.namespaces = c₁.namespaces ∧ c₂.routes = c₁.routes ∧ c₂.methodPaths = c₁.methodPaths) ∧
      module.routes.zipIdx.foldlM (addRoute module index) c₂ = .ok c' := by
  unfold addModule at h
  dsimp only at h
  obtain ⟨_, -, h⟩ := bind_ok.mp h
  split at h
  · cases h
  obtain ⟨_, -, h⟩ := bind_ok.mp h
  obtain ⟨_, -, h⟩ := bind_ok.mp h
  obtain ⟨_, -, h⟩ := bind_ok.mp h
  obtain ⟨c₁, namespaces, h⟩ := bind_ok.mp h
  split at h
  · exact ⟨_, c₁, c₁, by exact ⟨rfl, rfl, rfl⟩, namespaces, ⟨rfl, rfl, rfl⟩, h⟩
  obtain ⟨_, -, h⟩ := bind_ok.mp h
  split at h
  · cases h
  · exact ⟨_, c₁, { c₁ with hasFallback := true }, by exact ⟨rfl, rfl, rfl⟩, namespaces,
      ⟨rfl, rfl, rfl⟩, h⟩

/-- A module adds its namespaces and its routes. -/
theorem addModule_ok (h : addModule c declared = .ok c') :
    (∀ p ∈ declared.1.namespacePrefixes, validateStaticPrefix p true = .ok ()) ∧
      c'.namespaces = c.namespaces ++ declared.1.namespacePrefixes.map (⟨declared.2, ·⟩) ∧
      c'.routes = c.routes ++ declared.1.routes.zipIdx.map fun r =>
        ⟨declared.2, r.2, declared.1.pathPrefix ++ r.1.path⟩ := by
  obtain ⟨module, index⟩ := declared
  obtain ⟨c₀, c₁, c₂, start, namespaces, kept, routes⟩ := addModule_cases h
  have valid : ∀ p ∈ module.namespacePrefixes, validateStaticPrefix p true = .ok () :=
    foldlM_all (fun _ _ _ h => (addNamespace_ok h).1) namespaces
  have added := foldlM_append Collected.namespaces (fun p => [⟨index, p⟩])
    (fun _ _ _ h => (addNamespace_ok h).2.1) namespaces
  have same := foldlM_ok (P := fun s => s.routes = c.routes)
    (fun _ _ _ _ hs h => (addNamespace_ok h).2.2.1.trans hs) start.2.1 namespaces
  have addedRoutes := foldlM_append Collected.routes
    (fun r => [⟨index, r.2, module.pathPrefix ++ r.1.path⟩])
    (fun _ _ _ h => (addRoute_ok h).1) routes
  have sameNamespaces := foldlM_ok (P := fun s => s.namespaces = c₂.namespaces)
    (fun _ _ _ _ hs h => (addRoute_ok h).2.1.trans hs) rfl routes
  refine ⟨valid, ?_, ?_⟩
  · rw [sameNamespaces, kept.1, added, start.1, ← map_eq_flatMap]
  · rw [addedRoutes, kept.2.1, same, ← map_eq_flatMap]

/-! ## What is accepted -/

/-- The facts about an accepted set of modules that ownership rests on. -/
structure Accepted (modules : List Module) (routes : List CompiledRoute)
    (namespaces : List NamespaceBinding) : Prop where
  filed : ∀ (i : Nat) module route, modules[i]? = some module → route ∈ module.routes →
    ∃ r ∈ routes, r.moduleIndex = i ∧ r.path = module.pathPrefix ++ route.path
  bound : ∀ (i : Nat) staticPrefix, ⟨i, staticPrefix⟩ ∈ namespaces ↔
    ∃ module, modules[i]? = some module ∧ staticPrefix ∈ module.namespacePrefixes
  valid : ∀ n ∈ namespaces, validateStaticPrefix n.staticPrefix true = .ok ()
  owned : ∀ r ∈ routes, ∀ n ∈ namespaces, n.moduleIndex ≠ r.moduleIndex →
    patternIntersectsNamespace r.path n.staticPrefix = true →
    routeIsInsideLongerOwnedNamespace r n namespaces = true

theorem accepted_of_newRegistry (h : newRegistry gin modules = .ok registry) :
    Accepted modules registry.routes registry.namespaces := by
  unfold newRegistry at h
  obtain ⟨c, collected, h⟩ := bind_ok.mp h
  obtain ⟨_, ownership, h⟩ := bind_ok.mp h
  obtain ⟨_, -, h⟩ := bind_ok.mp h
  cases h
  have valid : ∀ declared ∈ modules.zipIdx, ∀ p ∈ declared.1.namespacePrefixes,
      validateStaticPrefix p true = .ok () :=
        foldlM_all (fun _ _ _ h => (addModule_ok h).1) collected
  have namespaces := foldlM_append Collected.namespaces
    (fun d => d.1.namespacePrefixes.map (⟨d.2, ·⟩)) (fun _ _ _ h => (addModule_ok h).2.1) collected
  have routes := foldlM_append Collected.routes
    (fun d => d.1.routes.zipIdx.map fun r => ⟨d.2, r.2, d.1.pathPrefix ++ r.1.path⟩)
    (fun _ _ _ h => (addModule_ok h).2.2) collected
  have mem (i : Nat) (module : Module) :
      (module, i) ∈ modules.zipIdx ↔ modules[i]? = some module := by
    rw [mem_zipIdx_iff_getElem?]
  refine ⟨?_, ?_, ?_, ?_⟩
  · intro i module route hm hr
    obtain ⟨k, hk⟩ := getElem?_of_mem hr
    refine ⟨⟨i, k, module.pathPrefix ++ route.path⟩, ?_, rfl, rfl⟩
    rw [routes]
    simp only [nil_append, mem_flatMap, mem_map]
    exact ⟨(module, i), (mem i module).mpr hm, (route, k),
      mem_zipIdx_iff_getElem?.mpr hk, rfl⟩
  · intro i p
    rw [mem_insertionSort, namespaces]
    simp only [nil_append, mem_flatMap, mem_map, NamespaceBinding.mk.injEq]
    constructor
    · rintro ⟨⟨module, j⟩, hm, q, hq, rfl, rfl⟩
      exact ⟨module, (mem j module).mp hm, hq⟩
    · rintro ⟨module, hm, hp⟩
      exact ⟨(module, i), (mem i module).mpr hm, p, hp, rfl, rfl⟩
  · intro n hn
    rw [mem_insertionSort, namespaces] at hn
    simp only [nil_append, mem_flatMap, mem_map] at hn
    obtain ⟨declared, hm, p, hp, rfl⟩ := hn
    exact valid declared hm p hp
  · intro r hr n hn foreign intersects
    have checked := forM_ok (forM_ok ownership r hr) n hn
    simp only [foreign, intersects] at checked
    by_contra outside
    simp [outside] at checked

/-- For every accepted set of modules, the longest namespace that contains a path which a route
matches belongs to the module of the route; and the check that this rests on is exact. -/
theorem namespace_ownership_sound {gin : List RoutePattern → Except String Unit}
    {modules : List Module} {registry : Registry}
    (accepted : newRegistry gin modules = .ok registry) :
    (∀ (i : Nat) module route path, modules[i]? = some module → route ∈ module.routes →
      matchPattern (module.pathPrefix ++ route.path) path = true →
      ∀ (j : Nat) owner staticPrefix, modules[j]? = some owner →
        staticPrefix ∈ owner.namespacePrefixes → namespaceMatches staticPrefix path = true →
        (∀ (k : Nat) other p, modules[k]? = some other → p ∈ other.namespacePrefixes →
          namespaceMatches p path = true → p.utf8ByteSize ≤ staticPrefix.utf8ByteSize) → j = i) ∧
    ∀ pattern staticPrefix, validateRoutePattern pattern = .ok () →
      validateStaticPrefix staticPrefix true = .ok () →
      (patternIntersectsNamespace pattern staticPrefix = true ↔
        ∃ path, matchPattern pattern path = true ∧ namespaceMatches staticPrefix path = true) := by
  refine ⟨?_, fun _ _ => patternIntersectsNamespace_iff⟩
  have facts := accepted_of_newRegistry accepted
  intro i module route path hm hr matched j owner staticPrefix ho hp inside longest
  obtain ⟨r, hrm, rfl, hpath⟩ := facts.filed i module route hm hr
  have hn : ⟨j, staticPrefix⟩ ∈ registry.namespaces :=
    (facts.bound j staticPrefix).mpr ⟨owner, ho, hp⟩
  by_contra foreign
  have intersects := intersects_of_matches (facts.valid _ hn) (hpath ▸ matched) inside
  have covered := facts.owned r hrm _ hn foreign intersects
  -- A longer namespace of the module contains the pattern, and so the path.
  obtain ⟨candidate, hc, covered⟩ := any_eq_true.mp covered
  simp only [Bool.and_eq_true, decide_eq_true_eq] at covered
  obtain ⟨⟨⟨-, longer⟩, -⟩, contains⟩ := covered
  have notRoot : candidate.staticPrefix ≠ "/" := by
    intro hroot
    have size : "/".utf8ByteSize = 1 := by decide
    have blank : staticPrefix = "" := String.utf8ByteSize_eq_zero_iff.mp (by
      rw [hroot] at longer
      omega)
    obtain ⟨rest, hrest⟩ := (validateStaticPrefix_ok (facts.valid _ hn)).1
    simp [blank] at hrest
  have containsPath :=
    namespaceMatches_of_contains (facts.valid _ hc) notRoot contains (hpath ▸ matched)
  obtain ⟨other, hk, hq⟩ := (facts.bound candidate.moduleIndex candidate.staticPrefix).mp hc
  have := longest candidate.moduleIndex other candidate.staticPrefix hk hq containsPath
  omega

def sampleRoute : Route where
  name := "model"
  methods := ["GET"]
  path := "/models/:id"
  handlers := [true]

def sampleData : Module where
  name := "data"
  owner := .data
  auth := .accessKey
  pathPrefix := "/v1"
  namespacePrefixes := ["/v1"]
  hasAuthenticate := true
  routes := [sampleRoute]

def sampleControl : Module where
  name := "control"
  owner := .control
  auth := .control
  pathPrefix := "/api"
  namespacePrefixes := ["/api"]
  hasAuthenticate := true
  routes := []

theorem namespace_ownership_sample :
    ∃ registry, newRegistry (fun _ => .ok ()) [sampleData, sampleControl] = .ok registry ∧
      ∀ (j : Nat) owner staticPrefix, [sampleData, sampleControl][j]? = some owner →
        staticPrefix ∈ owner.namespacePrefixes →
        namespaceMatches staticPrefix "/v1/models/x" = true →
        (∀ (k : Nat) other p, [sampleData, sampleControl][k]? = some other →
          p ∈ other.namespacePrefixes → namespaceMatches p "/v1/models/x" = true →
          p.utf8ByteSize ≤ staticPrefix.utf8ByteSize) → j = 0 := by
  have accepted : (newRegistry (fun _ => .ok ()) [sampleData, sampleControl]).isOk = true := by
    decide +kernel
  cases h : newRegistry (fun _ => .ok ()) [sampleData, sampleControl] with
  | error e => simp [h, Except.isOk, Except.toBool] at accepted
  | ok registry =>
    exact ⟨registry, rfl,
      (namespace_ownership_sound h).1 0 sampleData sampleRoute "/v1/models/x" rfl
      (by simp [sampleData]) (by decide +kernel)⟩

end ApiLoad.HttpRoute
