import ApiLoad.HttpRoute.Dispatch
import ApiLoad.HttpRoute.Ownership

/-!
# The routes of an accepted registry

Every route is a valid declaration, and no two routes declare one method at one path.
-/
namespace ApiLoad.HttpRoute
open Foundation Foundation.Text Foundation.Fallible List

variable {modules : List Module}

def methodsOf (modules : List Module) (r : CompiledRoute) : List String :=
  ((modules[r.moduleIndex]?.bind (·.routes[r.routeIndex]?)).map Route.methods).getD []

structure Filed (modules : List Module) (c : Collected) : Prop where
  declared : ∀ r ∈ c.routes, ∃ module route, modules[r.moduleIndex]? = some module ∧
    module.routes[r.routeIndex]? = some route ∧ validateRoute route = .ok () ∧
    validateRoutePattern r.path = .ok ()
  recorded : ∀ r ∈ c.routes, ∀ m ∈ methodsOf modules r, (c.methodPaths.lookup (m, r.path)).isSome
  unique : c.routes.Pairwise fun a b =>
    a.path = b.path → ∀ m ∈ methodsOf modules a, m ∉ methodsOf modules b

variable {methods : List String} {c c' : Collected} {registry : Registry}

/-- The methods of a route are recorded, and were not before. -/
theorem addMethods_ok :
    ∀ {c c' : Collected}, methods.foldlM (addMethod route path) c = .ok c' →
    (∀ key, (c.methodPaths.lookup key).isSome → (c'.methodPaths.lookup key).isSome) ∧
      ∀ m ∈ methods, c.methodPaths.lookup (m, path) = none ∧
        (c'.methodPaths.lookup (m, path)).isSome := by
  induction methods with
  | nil =>
    intro c c' h
    cases h
    exact ⟨fun _ h => h, fun m hm => by cases hm⟩
  | cons m methods ih =>
    intro c c' h
    obtain ⟨c₁, first, rest⟩ := bind_ok.mp h
    obtain ⟨kept, added⟩ := ih rest
    unfold addMethod at first
    split at first
    · cases first
    rename_i absent
    cases first
    have grows (key : String × String) (old : (c.methodPaths.lookup key).isSome) :
        ((((m, path), route.name) :: c.methodPaths).lookup key).isSome := by
      rw [lookup_cons]
      split
      · rfl
      · exact old
    refine ⟨fun key old => kept key (grows key old), forall_mem_cons.mpr ⟨⟨absent, ?_⟩, ?_⟩⟩
    · exact kept _ (by simp)
    intro m' hm'
    obtain ⟨absent', present⟩ := added m' hm'
    refine ⟨?_, present⟩
    by_contra old
    have := grows (m', path) (by simpa [Option.isSome_iff_ne_none] using old)
    rw [absent'] at this
    cases this

theorem addRoute_filed (filed : Filed modules c) (hm : modules[index]? = some module)
    (hr : module.routes[declared.2]? = some declared.1)
    (h : addRoute module index c declared = .ok c') : Filed modules c' := by
  obtain ⟨route, k⟩ := declared
  obtain ⟨routes, -, valid, validPath, c₀, c₁, start, methods, same⟩ := addRoute_ok h
  obtain ⟨kept, added⟩ := addMethods_ok methods
  simp only [start, ← same] at kept added
  have own : methodsOf modules ⟨index, k, module.pathPrefix ++ route.path⟩ = route.methods := by
    simp [methodsOf, hm, hr]
  have old (r : CompiledRoute) (hr : r ∈ c.routes) (m : String) (hm : m ∈ methodsOf modules r) :
      (c'.methodPaths.lookup (m, r.path)).isSome := kept _ (filed.recorded r hr m hm)
  refine ⟨?_, ?_, ?_⟩
  · rw [routes]
    intro r hmem
    obtain hmem | hmem := mem_append.mp hmem
    · exact filed.declared r hmem
    · obtain rfl := mem_singleton.mp hmem
      exact ⟨module, route, hm, hr, valid, validPath⟩
  · rw [routes]
    intro r hmem
    obtain hmem | hmem := mem_append.mp hmem
    · exact old r hmem
    obtain rfl := mem_singleton.mp hmem
    rw [own]
    exact fun m hm => (added m hm).2
  · rw [routes, pairwise_append]
    refine ⟨filed.unique, pairwise_singleton _ _, fun a ha b hb same m hma hmb => ?_⟩
    obtain rfl := mem_singleton.mp hb
    rw [own] at hmb
    have recorded := filed.recorded a ha m hma
    rw [same] at recorded
    have fresh : c.methodPaths.lookup (m, module.pathPrefix ++ route.path) = none := (added m hmb).1
    rw [fresh] at recorded
    cases recorded

theorem Filed.of_same (h : Filed modules c) (routes : c'.routes = c.routes)
    (methodPaths : c'.methodPaths = c.methodPaths) : Filed modules c' :=
  ⟨routes ▸ h.declared, fun r hr m hm => methodPaths ▸ h.recorded r (routes ▸ hr) m hm,
    routes ▸ h.unique⟩

theorem addModule_filed (filed : Filed modules c) (hm : modules[declared.2]? = some declared.1)
    (h : addModule c declared = .ok c') : Filed modules c' := by
  obtain ⟨module, index⟩ := declared
  obtain ⟨c₀, c₁, c₂, ⟨-, start⟩, namespaces, ⟨-, kept⟩, routes⟩ := addModule_cases h
  have filed₁ : Filed modules c₁ := foldlM_ok (fun _ _ _ _ hs h =>
    have same := (addNamespace_ok h).2.2
    hs.of_same same.1 same.2) (filed.of_same start.1 start.2) namespaces
  refine foldlM_ok (fun s d hd s' hs h => ?_) (filed₁.of_same kept.1 kept.2) routes
  exact addRoute_filed hs hm (mem_zipIdx_iff_getElem?.mp hd) h

structure Served (routes : List RuntimeRoute) : Prop where
  valid : ∀ r ∈ routes, validateRoutePattern r.path = .ok ()
  methods : ∀ r ∈ routes, r.methods ≠ [] ∧ ∀ m ∈ r.methods, validMethod m = true
  unique : ∀ r ∈ routes, ∀ r' ∈ routes, r.path = r'.path →
    ∀ m, m ∈ r.methods → m ∈ r'.methods → r = r'

theorem validateMethods_ok : ∀ {seen : List String},
    validateMethods seen methods = .ok () → ∀ m ∈ methods, validMethod m = true := by
  induction methods with
  | nil => exact fun _ m hm => by cases hm
  | cons m methods ih =>
    intro seen h
    rw [validateMethods] at h
    split at h
    · cases h
    rename_i valid
    split at h
    · cases h
    split at h
    · cases h
    · exact forall_mem_cons.mpr ⟨by simpa using valid, ih h⟩

theorem validateRoute_ok (h : validateRoute route = .ok ()) :
    route.methods ≠ [] ∧ ∀ m ∈ route.methods, validMethod m = true := by
  unfold validateRoute at h
  split at h
  · cases h
  rename_i nonempty
  obtain ⟨_, methods, -⟩ := bind_ok.mp h
  exact ⟨by simpa using nonempty, validateMethods_ok methods⟩

/-- What is served of a compiled route. -/
def Registry.runtimeRoute (registry : Registry) (route : CompiledRoute) : Option RuntimeRoute :=
  (registry.declaration route).map fun d =>
    ⟨route.moduleIndex, route.path, d.2.methods, d.2.pathValidator⟩

theorem Registry.runtimeRoute_some (h : registry.runtimeRoute compiled = some r) :
    r.path = compiled.path ∧ r.methods = methodsOf registry.modules compiled := by
  obtain ⟨⟨module, route⟩, declared, rfl⟩ := Option.map_eq_some_iff.mp h
  obtain ⟨module', hm, declared⟩ := Option.bind_eq_some_iff.mp declared
  obtain ⟨route', hr, same⟩ := Option.bind_eq_some_iff.mp declared
  cases same
  exact ⟨rfl, by simp [methodsOf, hm, hr]⟩

theorem served_of_filed (filed : Filed registry.modules c) (routes : registry.routes = c.routes) :
    Served registry.runtimeRoutes := by
  have origin (r : RuntimeRoute) (hr : r ∈ registry.runtimeRoutes) :
      validateRoutePattern r.path = .ok () ∧ r.methods ≠ [] ∧
        ∀ m ∈ r.methods, validMethod m = true := by
    obtain ⟨compiled, hc, made⟩ := mem_filterMap.mp hr
    obtain ⟨path, methods⟩ := Registry.runtimeRoute_some made
    obtain ⟨module, route, hm, hr, valid, validPath⟩ := filed.declared compiled (routes ▸ hc)
    have own : methodsOf registry.modules compiled = route.methods := by simp [methodsOf, hm, hr]
    rw [path, methods, own]
    exact ⟨validPath, validateRoute_ok valid⟩
  have pairwise : registry.runtimeRoutes.Pairwise fun a b =>
      a.path = b.path → ∀ m ∈ a.methods, m ∉ b.methods := by
    refine pairwise_filterMap.mpr (routes ▸ filed.unique.imp fun {a b} apart x hx y hy => ?_)
    obtain ⟨path, methods⟩ := Registry.runtimeRoute_some hx
    obtain ⟨path', methods'⟩ := Registry.runtimeRoute_some hy
    rw [path, path', methods, methods']
    exact apart
  refine ⟨fun r hr => (origin r hr).1, fun r hr => (origin r hr).2, ?_⟩
  intro r hr r' hr' same m hm hm'
  by_contra differ
  have symmetric : Std.Symm fun a b : RuntimeRoute =>
      a.path = b.path → ∀ m ∈ a.methods, m ∉ b.methods :=
    ⟨fun a b apart same m hb ha => apart same.symm m ha hb⟩
  exact pairwise.forall hr hr' differ same m hm hm'

theorem served_of_newRegistry (h : newRegistry gin modules = .ok registry) :
    Served registry.runtimeRoutes := by
  unfold newRegistry at h
  obtain ⟨c, collected, h⟩ := bind_ok.mp h
  obtain ⟨_, -, h⟩ := bind_ok.mp h
  obtain ⟨_, -, h⟩ := bind_ok.mp h
  cases h
  refine served_of_filed (c := c) ?_ rfl
  refine foldlM_ok (fun s d hd s' hs h => ?_) ⟨?_, ?_, List.Pairwise.nil⟩ collected
  · exact addModule_filed hs (mem_zipIdx_iff_getElem?.mp hd) h
  · exact fun r hr => by cases hr
  · exact fun r hr => by cases hr

end ApiLoad.HttpRoute
