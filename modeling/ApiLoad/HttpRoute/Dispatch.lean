import ApiLoad.Foundation.Lookup
import ApiLoad.HttpRoute.Registry

/-!
# Serving requests

What `Bind` hands to the router, and how a request is answered
(`internal/platform/httproute/registry.go`). The router chooses a route of the method of the
request, whose chain starts with a guard for the static paths below its pattern, or calls
`handleNoMethod`. A route is passed on itself where the source passes its index; handlers do not run
here, an answer says which of them would.
-/
namespace ApiLoad.HttpRoute
open Foundation Foundation.Text

structure RuntimeRoute where
  moduleIndex : Nat
  path : String
  methods : List String
  validator : Option (Request → Bool)

def RuntimeRoute.accepts (route : RuntimeRoute) (request : Request) : Bool :=
  route.validator.all (· request)

inductive Answer where
  /-- 405, with the header `Allow` and the module whose handler is called. -/
  | methodNotAllowed (allow : List Char) (module : Option Nat)
  | notFound (module : Option Nat)
  | fallback
  /-- The middleware, the authenticator and the handlers of a route run. -/
  | handlers (route : RuntimeRoute)

/-! ## Bind -/

def ginMaximumHandlerChainLength : Nat := 63

def Registry.declaration (registry : Registry) (route : CompiledRoute) :
    Option (Module × Route) := do
  let module ← registry.modules[route.moduleIndex]?
  let declaration ← module.routes[route.routeIndex]?
  some (module, declaration)

def Registry.runtimeRoutes (registry : Registry) : List RuntimeRoute :=
  registry.routes.filterMap fun route => (registry.declaration route).map fun d =>
    ⟨route.moduleIndex, route.path, d.2.methods, d.2.pathValidator⟩

def isStaticRoutePattern (pattern : String) : Bool :=
  (segments pattern).all fun s => s.head? ≠ some ':' && s.head? ≠ some '*'

def staticPathOwners (matchedPattern : String) (routes : List RuntimeRoute) : List RuntimeRoute :=
  routes.filter fun route => route.path ≠ matchedPattern && isStaticRoutePattern route.path &&
    matchPattern matchedPattern route.path

def routeChainLength (module : Module) (route : Route) (hasOwnershipGuard : Bool) : Nat :=
  module.beforeAuth.length + route.prepare.length + route.handlers.length +
    (if hasOwnershipGuard then 1 else 0) + (if route.pathValidator.isSome then 1 else 0) +
    (if module.hasAuthenticate then 1 else 0)

/-- `Bind`, for an engine with some handlers and routes of its own. -/
def Registry.bind (registry : Registry)
    (validateGinPatterns : List RoutePattern → Except String Unit)
    (bound : Bool) (engineHandlers existingRoutes : Nat) : Except String (List RuntimeRoute) :=
  if bound then .error "HTTP route registry is already bound"
  else if ginMaximumHandlerChainLength ≤ engineHandlers + 1 then
    .error ("global HTTP fallback has too many handlers after engine middleware: " ++
      s!"{engineHandlers + 1}")
  else if existingRoutes ≠ 0 then
    .error ("HTTP route registry requires an empty Gin engine, " ++
      s!"found {existingRoutes} existing routes")
  else do
    let routes := registry.runtimeRoutes
    (validateGinPatterns (routes.flatMap fun r => r.methods.map (⟨·, r.path⟩))).mapError
      fun e => s!"preflight Gin engine routes: {e}"
    registry.routes.forM fun route =>
      match registry.declaration route with
      | none => .ok ()
      | some (module, declaration) =>
        let length := engineHandlers + routeChainLength module declaration
          (!(staticPathOwners route.path routes).isEmpty)
        if ginMaximumHandlerChainLength ≤ length then
          .error (s!"module {quoted module.name} route {quoted declaration.name} has too many " ++
            s!"handlers after engine middleware: {length}")
        else .ok ()
    return routes

/-! ## Specificity -/

def routeSegmentSpecificity (segment : Segment) : Nat :=
  if segment.head? = some '*' then 0 else if segment.head? = some ':' then 1 else 2

/-- The loop of `moreSpecific` over the segments of the candidate and of the current route. -/
def moreSpecificSegments : List Segment → List Segment → Bool
  | candidate :: candidates, current :: currents =>
    if routeSegmentSpecificity candidate ≠ routeSegmentSpecificity current then
      routeSegmentSpecificity current < routeSegmentSpecificity candidate
    else moreSpecificSegments candidates currents
  | candidates, currents => currents.length < candidates.length

def moreSpecific (path : String) (current : Option RuntimeRoute) : Bool :=
  match current with
  | none => true
  | some route => moreSpecificSegments (segments path) (segments route.path)

/-! ## The header `Allow` -/

def methodSet (routes : List RuntimeRoute) : List String :=
  routes.foldl (fun set route => route.methods.foldl (fun set m => set.insert m) set) []

def joinMethods (methods : List String) : List Char :=
  [',', ' '].intercalate (methods.map String.toList)

def allowHeader (methods : List String) : List Char :=
  joinMethods (methods.insertionSort (· ≤ ·))

def parseAllow (header : List Char) : List String :=
  ((header.splitOn ',').map fun m => trimSpace (String.ofList m)).filter (· ≠ "")

/-! ## Routes that are chosen -/

/-- `staticPathOwnershipGuard`; `none` if the request goes on. -/
def staticPathOwnershipGuard (matchedPattern : String) (routes : List RuntimeRoute)
    (request : Request) : Option Answer :=
  let owners := (staticPathOwners matchedPattern routes).filter (·.path = request.path)
  let accepting := owners.filter (·.accepts request)
  let allowed := methodSet accepting
  if allowed.isEmpty || allowed.contains request.method then none
  else some (.methodNotAllowed (allowHeader allowed) (accepting.head?.map (·.moduleIndex)))

def runRoute (routes : List RuntimeRoute) (route : RuntimeRoute) (request : Request) : Answer :=
  match staticPathOwnershipGuard route.path routes request with
  | some answer => answer
  | none => if route.accepts request then .handlers route else .notFound (some route.moduleIndex)

/-! ## Requests without a route -/

section NoRoute

variable (registry : Registry) (fallbackMatches : Request → Bool)

def handleNoRoute (request : Request) : Answer :=
  match registry.namespaces.find? fun n => namespaceMatches n.staticPrefix request.path with
  | some n => .notFound (some n.moduleIndex)
  | none => if fallbackMatches request then .fallback else .notFound none

/-- The loop of `handleNoMethod` over the methods of a route. -/
def noteRoute (ginAllowed : List String) (bestByMethod : List (String × RuntimeRoute))
    (route : RuntimeRoute) : List (String × RuntimeRoute) :=
  route.methods.foldl (fun best m =>
    if !ginAllowed.contains m then best
    else match best.lookup m with
      | none => assign best m route
      | some current =>
        if moreSpecific route.path (some current) then assign best m route else best)
    bestByMethod

def mostSpecific (routes : List RuntimeRoute) : Option RuntimeRoute :=
  routes.foldl (fun best route => if moreSpecific route.path best then some route else best) none

/-- `handleNoMethod`; the map of the best routes is run through in any order. -/
def handleNoMethod (shuffle : List (String × RuntimeRoute) → List (String × RuntimeRoute))
    (routes : List RuntimeRoute) (header : List Char) (request : Request) : Answer :=
  let matching := routes.filter fun route => matchPattern route.path request.path
  let bestRaw := mostSpecific matching
  let bestByMethod := matching.foldl (noteRoute (parseAllow header)) []
  let valid := (shuffle bestByMethod).filter fun e => e.2.accepts request
  let bestSemantic := mostSpecific (valid.map Prod.snd)
  let allowed := (valid.filter fun e =>
    !bestSemantic.any fun best => moreSpecific best.path (some e.2)).map Prod.fst
  if allowed.isEmpty then
    match bestRaw with
    | some route => .notFound (some route.moduleIndex)
    | none => handleNoRoute registry fallbackMatches request
  else .methodNotAllowed (allowHeader allowed) (bestSemantic.map (·.moduleIndex))

end NoRoute

/-! ## The router -/

/-- How the router matches: a catch-all takes what follows its slash, at the root as elsewhere. -/
def ginMatches (pattern requestPath : String) : Bool :=
  hasPrefix requestPath "/" && matchSegments (segments pattern) (segments requestPath)

/-- A router, and the order in which a map is run through. For each method it prefers static
segments to parameters and these to catch-alls; it lists the methods that have a matching route. -/
structure Engine where
  find : List RuntimeRoute → Request → Option RuntimeRoute
  allow : List RuntimeRoute → Request → List String
  shuffle : List (String × RuntimeRoute) → List (String × RuntimeRoute)
  find_some : ∀ routes request route, find routes request = some route →
    (route ∈ routes ∧ request.method ∈ route.methods ∧ ginMatches route.path request.path = true) ∧
      ∀ other ∈ routes, request.method ∈ other.methods →
        ginMatches other.path request.path = true → moreSpecific other.path (some route) = false
  find_none : ∀ routes request, find routes request = none →
    ∀ route ∈ routes, request.method ∈ route.methods → ginMatches route.path request.path = false
  mem_allow : ∀ routes request m, m ∈ allow routes request ↔
    ∃ route ∈ routes, m ∈ route.methods ∧ ginMatches route.path request.path = true
  shuffle_perm : ∀ entries, (shuffle entries).Perm entries

def serve (engine : Engine) (registry : Registry) (fallbackMatches : Request → Bool)
    (routes : List RuntimeRoute) (request : Request) : Answer :=
  match engine.find routes request with
  | some route => runRoute routes route request
  | none =>
    let allow := engine.allow routes request
    if allow.isEmpty then handleNoRoute registry fallbackMatches request
    else handleNoMethod registry fallbackMatches engine.shuffle routes (joinMethods allow) request

end ApiLoad.HttpRoute
