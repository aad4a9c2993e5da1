import ApiLoad.Foundation.Fallible
import ApiLoad.HttpRoute.Pattern

/-!
# The route registry

`NewRegistry` of `internal/platform/httproute/registry.go`: the checks that a set of modules must
pass before its routes are served. Handlers are functions that the registry only compares with nil,
so a chain of handlers is the list of the answers. Whether the router accepts the patterns together
is left to a parameter.
-/
namespace ApiLoad.HttpRoute
open Foundation Foundation.Text

inductive Owner where
  | system | control | data | web
  | other (text : String)
deriving DecidableEq

def Owner.text : Owner → String
  | .system => "system"
  | .control => "control"
  | .data => "data"
  | .web => "web"
  | .other text => text

inductive AuthPolicy where
  | none | control | accessKey
  | other (text : String)
deriving DecidableEq

def AuthPolicy.text : AuthPolicy → String
  | .none => "none"
  | .control => "control"
  | .accessKey => "access-key"
  | .other text => text

/-- For each handler whether it is there. -/
abbrev HandlersChain := List Bool

/-- The method and the path of a request, and what else a validator may read. -/
structure Request where
  method : String
  path : String
  rest : String := ""

structure Route where
  name : String
  methods : List String
  path : String
  pathValidator : Option (Request → Bool) := none
  prepare : HandlersChain := []
  handlers : HandlersChain

structure Fallback where
  name : String
  hasMatch : Bool
  hasHandler : Bool

structure Module where
  name : String
  owner : Owner
  auth : AuthPolicy
  pathPrefix : String
  namespacePrefixes : List String
  beforeAuth : HandlersChain := []
  hasAuthenticate : Bool
  routes : List Route
  fallback : Option Fallback := none

structure CompiledRoute where
  moduleIndex : Nat
  routeIndex : Nat
  path : String

structure NamespaceBinding where
  moduleIndex : Nat
  staticPrefix : String

structure RoutePattern where
  method : String
  path : String

/-! ## Checks of single declarations -/

def validateName (kind name : String) : Except String Unit :=
  if name = "" || trimSpace name ≠ name then
    .error s!"{kind} name must be non-empty without surrounding whitespace"
  else .ok ()

def validateOwnerAuth (module : Module) : Except String Unit := do
  let required ← match module.owner with
    | .system | .web => pure AuthPolicy.none
    | .control => pure AuthPolicy.control
    | .data => pure AuthPolicy.accessKey
    | owner => throw s!"invalid owner {quoted owner.text}"
  if module.auth ≠ required then
    throw (s!"owner {quoted module.owner.text} requires auth policy " ++
      s!"{quoted required.text}, got {quoted module.auth.text}")
  if module.auth = .none && module.hasAuthenticate then
    throw s!"auth policy {quoted module.auth.text} forbids an authenticator"
  if module.auth ≠ .none && !module.hasAuthenticate then
    throw s!"auth policy {quoted module.auth.text} requires an authenticator"

def validatePrefix (pathPrefix : String) : Except String Unit :=
  if pathPrefix = "" then .ok ()
  else if pathPrefix = "/" then .error "root prefix must be represented by an empty string"
  else validateStaticPrefix pathPrefix false

def validateHandlers (kind : String) (handlers : HandlersChain) (optional : Bool) :
    Except String Unit :=
  if !optional && handlers.isEmpty then .error s!"{kind} handler chain is empty"
  else match handlers.findIdx? (!·) with
    | some index => .error s!"{kind} handler {index} is nil"
    | none => .ok ()

def validateFallback (fallback : Fallback) : Except String Unit := do
  validateName "fallback" fallback.name
  if !fallback.hasMatch then throw s!"fallback {quoted fallback.name} requires a matcher"
  if !fallback.hasHandler then throw s!"fallback {quoted fallback.name} requires a handler"

def validMethod (method : String) : Bool :=
  method ≠ "" && method.toList.all fun c =>
    ('a' ≤ c && c ≤ 'z') || ('A' ≤ c && c ≤ 'Z') || ('0' ≤ c && c ≤ '9') ||
      "!#$%&'*+-.^_`|~".toList.contains c

/-- The loop of `validateRoute` over the methods, with those seen so far. -/
def validateMethods (seen : List String) : List String → Except String Unit
  | [] => .ok ()
  | method :: rest =>
    if !validMethod method then .error s!"invalid HTTP method {quoted method}"
    else if method ≠ method.toUpper then .error s!"HTTP method {quoted method} must be uppercase"
    else if seen.contains method then .error s!"duplicate HTTP method {quoted method}"
    else validateMethods (method :: seen) rest

def validateRoute (route : Route) : Except String Unit := do
  if route.methods.isEmpty then throw "at least one method is required"
  validateMethods [] route.methods
  validateRoutePattern route.path
  validateHandlers "prepare" route.prepare true
  validateHandlers "route" route.handlers false

/-! ## Ownership of namespaces -/

def routeIsInsideLongerOwnedNamespace (route : CompiledRoute) (foreign : NamespaceBinding)
    (namespaces : List NamespaceBinding) : Bool :=
  namespaces.any fun candidate =>
    candidate.moduleIndex = route.moduleIndex &&
      foreign.staticPrefix.utf8ByteSize < candidate.staticPrefix.utf8ByteSize &&
      namespaceMatches foreign.staticPrefix candidate.staticPrefix &&
      namespaceContainsPattern candidate.staticPrefix route.path

/-- The name of a module and of one of its routes, for messages. -/
def moduleName (modules : List Module) (index : Nat) : String :=
  (modules[index]?.map Module.name).getD ""

def routeName (modules : List Module) (route : CompiledRoute) : String :=
  ((modules[route.moduleIndex]?.bind (·.routes[route.routeIndex]?)).map Route.name).getD ""

def validateNamespaceOwnership (modules : List Module) (routes : List CompiledRoute)
    (namespaces : List NamespaceBinding) : Except String Unit :=
  routes.forM fun route => namespaces.forM fun binding =>
    if binding.moduleIndex = route.moduleIndex ||
        !patternIntersectsNamespace route.path binding.staticPrefix then .ok ()
    else if routeIsInsideLongerOwnedNamespace route binding namespaces then .ok ()
    else .error (s!"module {quoted (moduleName modules route.moduleIndex)} route " ++
      s!"{quoted (routeName modules route)} pattern {quoted route.path} intersects namespace " ++
      s!"{quoted binding.staticPrefix} owned by module " ++
      s!"{quoted (moduleName modules binding.moduleIndex)}")

/-! ## NewRegistry -/

/-- What `NewRegistry` has collected from the modules so far. -/
structure Collected where
  moduleNames : List String := []
  routeNames : List String := []
  methodPaths : List ((String × String) × String) := []
  namespaceOwners : List (String × String) := []
  patterns : List RoutePattern := []
  routes : List CompiledRoute := []
  namespaces : List NamespaceBinding := []
  hasFallback : Bool := false

/-- An error with the module that it is about. -/
def inModule (module : Module) (check : Except String α) : Except String α :=
  check.mapError fun e => s!"module {quoted module.name}: {e}"

def addNamespace (module : Module) (moduleIndex : Nat) (collected : Collected)
    (staticPrefix : String) : Except String Collected := do
  (validateStaticPrefix staticPrefix true).mapError fun e =>
    s!"module {quoted module.name} namespace prefix {quoted staticPrefix}: {e}"
  if let some owner := collected.namespaceOwners.lookup staticPrefix then
    throw (s!"duplicate namespace prefix {quoted staticPrefix} in modules " ++
      s!"{quoted owner} and {quoted module.name}")
  return { collected with
    namespaceOwners := (staticPrefix, module.name) :: collected.namespaceOwners
    namespaces := collected.namespaces ++ [⟨moduleIndex, staticPrefix⟩] }

def addMethod (route : Route) (fullPath : String) (collected : Collected) (method : String) :
    Except String Collected :=
  match collected.methodPaths.lookup (method, fullPath) with
  | some existing =>
    .error (s!"duplicate route pattern {method} {fullPath} in routes " ++
      s!"{quoted existing} and {quoted route.name}")
  | none => .ok { collected with
      methodPaths := ((method, fullPath), route.name) :: collected.methodPaths
      patterns := collected.patterns ++ [⟨method, fullPath⟩] }

def addRoute (module : Module) (moduleIndex : Nat) (collected : Collected)
    (declared : Route × Nat) : Except String Collected := do
  let (route, routeIndex) := declared
  inModule module (validateName "route" route.name)
  if collected.routeNames.contains route.name then
    throw s!"duplicate route name {quoted route.name}"
  (validateRoute route).mapError fun e =>
    s!"module {quoted module.name} route {quoted route.name}: {e}"
  let fullPath := module.pathPrefix ++ route.path
  (validateRoutePattern fullPath).mapError fun e =>
    s!"module {quoted module.name} route {quoted route.name} full path {quoted fullPath}: {e}"
  let collected := { collected with routeNames := route.name :: collected.routeNames }
  let collected ← route.methods.foldlM (addMethod route fullPath) collected
  return { collected with
    routes := collected.routes ++ [⟨moduleIndex, routeIndex, fullPath⟩] }

def addModule (collected : Collected) (declared : Module × Nat) : Except String Collected := do
  let (module, moduleIndex) := declared
  validateName "module" module.name
  if collected.moduleNames.contains module.name then
    throw s!"duplicate module name {quoted module.name}"
  let collected := { collected with moduleNames := module.name :: collected.moduleNames }
  inModule module (validateOwnerAuth module)
  (validatePrefix module.pathPrefix).mapError fun e =>
    s!"module {quoted module.name} prefix: {e}"
  inModule module (validateHandlers "before-auth" module.beforeAuth true)
  let collected ← module.namespacePrefixes.foldlM (addNamespace module moduleIndex) collected
  let collected ← match module.fallback with
    | none => pure collected
    | some fallback => do
      inModule module (validateFallback fallback)
      if collected.hasFallback then throw "multiple global fallbacks are not allowed"
      pure { collected with hasFallback := true }
  module.routes.zipIdx.foldlM (addRoute module moduleIndex) collected

structure Registry where
  modules : List Module
  routes : List CompiledRoute
  namespaces : List NamespaceBinding

/-- The router either accepts the patterns or reports a conflict. -/
def newRegistry (validateGinPatterns : List RoutePattern → Except String Unit)
    (modules : List Module) : Except String Registry := do
  let collected ← modules.zipIdx.foldlM addModule {}
  let namespaces := collected.namespaces.insertionSort fun x y =>
    y.staticPrefix.utf8ByteSize ≤ x.staticPrefix.utf8ByteSize
  validateNamespaceOwnership modules collected.routes namespaces
  validateGinPatterns collected.patterns
  return ⟨modules, collected.routes, namespaces⟩

end ApiLoad.HttpRoute
