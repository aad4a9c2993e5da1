import ApiLoad.HttpRoute.Declared

/-!
# Static paths

A request for the path of a static route, with a method that no static route of this path declares,
is answered by the static routes: by the guard of the route that the router chooses, or by
`handleNoMethod`. Both answer with the methods of the static routes that accept the request. Only a
catch-all at the root escapes them: the router matches the root with it, and `matchPattern` does
not.
-/
namespace ApiLoad.HttpRoute
open Foundation Foundation.Text List

/-! ## Specificity -/

def ranks (parts : List Segment) : List Nat := parts.map routeSegmentSpecificity

/-- The order is the lexicographic one. -/
theorem moreSpecificSegments_iff (candidate current : List Segment) :
    moreSpecificSegments candidate current = true ↔ ranks current < ranks candidate := by
  induction candidate generalizing current with
  | nil => cases current <;> simp [moreSpecificSegments, ranks]
  | cons c candidates ih =>
    cases current with
    | nil => simp [moreSpecificSegments, ranks]
    | cons d currents =>
      rw [moreSpecificSegments, ranks, ranks, map_cons, map_cons, cons_lt_cons_iff]
      split
      · rename_i differ
        simp [Ne.symm differ]
      rename_i same
      have same := not_not.mp same
      simp [same, ih, ranks]

theorem moreSpecific_iff :
    moreSpecific path (some current) = true ↔
      ranks (segments current.path) < ranks (segments path) :=
  moreSpecificSegments_iff _ _

/-- A static path is more specific than any other pattern that matches it. -/
theorem ranks_lt_of_match (static : ∀ s ∈ path, s.head? ≠ some ':' ∧ s.head? ≠ some '*')
    (matched : matchSegments pattern path = true) (differ : pattern ≠ path) :
    ranks pattern < ranks path := by
  induction pattern generalizing path with
  | nil =>
    have : path = [] := by simpa [matchSegments] using matched
    exact absurd this.symm differ
  | cons segment rest ih =>
    cases path with
    | nil =>
      simp only [matchSegments] at matched
      split at matched <;> simp at matched
    | cons s path =>
      obtain ⟨notParameter, notCatchAll⟩ := static s (by simp)
      have top : routeSegmentSpecificity s = 2 := by
        simp [routeSegmentSpecificity, notParameter, notCatchAll]
      rw [ranks, ranks, map_cons, map_cons, cons_lt_cons_iff, top]
      rw [matchSegments] at matched
      split at matched
      · rename_i catchAll
        simp [routeSegmentSpecificity, catchAll]
      rename_i single
      split at matched
      · rename_i parameter
        simp [routeSegmentSpecificity, parameter]
      simp only [Bool.and_eq_true, decide_eq_true_eq] at matched
      obtain ⟨rfl, matched⟩ := matched
      refine .inr ⟨top, ih (fun x hx => static x (by simp [hx])) matched fun eq => ?_⟩
      exact differ (by rw [eq])

/-- The choice is one of the maximum. -/
theorem mostSpecific_eq_argmax (routes : List RuntimeRoute) :
    mostSpecific routes = routes.argmax fun r => ranks (segments r.path) := by
  refine congrFun (congrFun (congrArg foldl (funext₂ fun best route => ?_)) none) routes
  cases best with
  | none => rfl
  | some best => simp [argAux, moreSpecific_iff]

section

variable {routes : List RuntimeRoute} {best : RuntimeRoute} (h : mostSpecific routes = some best)
include h

theorem mem_of_mostSpecific : best ∈ routes :=
  argmax_mem (mostSpecific_eq_argmax routes ▸ h)

theorem mostSpecific_top (hr : r ∈ routes) :
    ¬ ranks (segments best.path) < ranks (segments r.path) := by
  rw [mostSpecific_eq_argmax] at h
  have top := not_lt_of_mem_argmax hr h
  exact top

end

variable {routes : List RuntimeRoute} {m : String} {request : Request}

theorem exists_mostSpecific (hr : r ∈ routes) : ∃ best, mostSpecific routes = some best := by
  rw [← Option.isSome_iff_exists, Option.isSome_iff_ne_none, mostSpecific_eq_argmax, Ne,
    argmax_eq_none]
  exact ne_nil_of_mem hr

/-! ## Paths -/

theorem segments_inj (ha : Absolute a) (hb : Absolute b) (same : segments a = segments b) :
    a = b := by
  obtain ⟨l, hl⟩ := ha
  obtain ⟨r, hr⟩ := hb
  rw [segments_absolute hl, segments_absolute hr] at same
  have joined : l = r := by
    have back : ['/'].intercalate (l.splitOn '/') = l := intercalate_splitOn '/'
    rw [← back, same, intercalate_splitOn]
  exact String.toList_inj.mp (by rw [hl, hr, joined])

/-- A segment that is no wildcard. -/
theorem isStaticRoutePattern_iff : isStaticRoutePattern pattern = true ↔
    ∀ s ∈ segments pattern, s.head? ≠ some ':' ∧ s.head? ≠ some '*' := by
  simp [isStaticRoutePattern]

theorem matchSegments_self (static : ∀ s ∈ path, s.head? ≠ some ':' ∧ s.head? ≠ some '*') :
    matchSegments path path = true := by
  induction path with
  | nil => rfl
  | cons s path ih =>
    obtain ⟨h1, h2⟩ := static s (by simp)
    simp [matchSegments, h1, h2, ih fun x hx => static x (by simp [hx])]

section Static

variable {path pattern : String} (absolute : Absolute path)

include absolute

/-- The router and `matchPattern` agree away from the root. -/
theorem ginMatches_eq (notRoot : path ≠ "/") :
    ginMatches pattern path = matchPattern pattern path := by
  have slash := absolute_iff.mpr absolute
  unfold ginMatches matchPattern
  split
  swap
  · simp [notRoot, slash]
  rename_i root
  subst root
  rw [slash, segments_root, Bool.true_and]
  obtain ⟨s, rest, eq⟩ := exists_segments path
  by_contra matched
  have alone : segments path = [[]] := by
    rw [eq] at matched ⊢
    simp only [matchSegments] at matched
    cases rest with
    | nil =>
      by_cases empty : s = []
      · rw [empty]
      · simp [Ne.symm empty, notRoot] at matched
    | cons => simp [notRoot] at matched
  exact notRoot (segments_inj absolute ⟨[], rfl⟩ (alone.trans segments_root.symm))

theorem matchPattern_self (static : isStaticRoutePattern path = true) :
    matchPattern path path = true := by
  unfold matchPattern
  split
  · rename_i root
    simp [root]
  rename_i notRoot
  simp [notRoot, absolute_iff.mpr absolute,
    matchSegments_self (isStaticRoutePattern_iff.mp static)]

theorem ginMatches_self (static : isStaticRoutePattern path = true) :
    ginMatches path path = true := by
  rw [ginMatches, absolute_iff.mpr absolute,
    matchSegments_self (isStaticRoutePattern_iff.mp static)]
  rfl

/-- The static path is more specific than another pattern that matches it. -/
theorem ranks_lt_of_matchPattern (static : isStaticRoutePattern path = true)
    (valid : Absolute pattern) (matched : matchPattern pattern path = true)
    (differ : pattern ≠ path) : ranks (segments pattern) < ranks (segments path) := by
  unfold matchPattern at matched
  split at matched
  · rename_i root
    exact absurd (root.trans (Eq.symm (by simpa using matched))) differ
  split at matched
  · cases matched
  · refine ranks_lt_of_match (isStaticRoutePattern_iff.mp static) matched fun same => differ ?_
    exact segments_inj valid absolute same

end Static

/-! ## The header -/

/-- The methods are those of the routes, each once. -/
theorem methodSet_spec (routes : List RuntimeRoute) :
    (methodSet routes).Nodup ∧ ∀ m, m ∈ methodSet routes ↔ ∃ r ∈ routes, m ∈ r.methods := by
  have inner (methods set : List String) (h : set.Nodup) :
      (methods.foldl (fun set m => set.insert m) set).Nodup ∧ ∀ m,
        m ∈ methods.foldl (fun set m => set.insert m) set ↔ m ∈ set ∨ m ∈ methods := by
    induction methods generalizing set with
    | nil => simpa using h
    | cons x methods ih =>
      obtain ⟨nodup, mem⟩ := ih _ (h.insert (a := x))
      exact ⟨nodup, fun m => by rw [foldl_cons, mem, mem_insert_iff, mem_cons]; tauto⟩
  induction routes using reverseRecOn with
  | nil => simp [methodSet]
  | append_singleton routes route ih =>
    obtain ⟨nodup, mem⟩ := inner route.methods _ ih.1
    rw [methodSet, foldl_append]
    exact ⟨nodup, fun m => (mem m).trans (by rw [ih.2]; simp [or_and_right, exists_or])⟩

theorem mem_methodSet : m ∈ methodSet routes ↔ ∃ r ∈ routes, m ∈ r.methods :=
  (methodSet_spec routes).2 m

/-- The header depends on the set of the methods only. -/
theorem allowHeader_congr {a b : List String} (ha : a.Nodup) (hb : b.Nodup)
    (same : ∀ m, m ∈ a ↔ m ∈ b) : allowHeader a = allowHeader b := by
  have perm : a.Perm b := (perm_ext_iff_of_nodup ha hb).mpr same
  rw [allowHeader, allowHeader]
  congr 1
  refine List.Perm.eq_of_pairwise' (pairwise_insertionSort _ _) (pairwise_insertionSort _ _) ?_
  exact ((perm_insertionSort _ _).trans perm).trans (perm_insertionSort _ _).symm

/-- The letters of a method are neither commas nor blanks. -/
theorem methodChar_plain (valid : validMethod m = true) :
    ∀ c ∈ m.toList, isSpace c = false ∧ c ≠ ',' := by
  intro c hc
  simp only [validMethod, Bool.and_eq_true, all_eq_true] at valid
  have letter := valid.2 c hc
  simp only [Bool.or_eq_true, Bool.and_eq_true, decide_eq_true_eq] at letter
  have bound (a b : Char) (h : a ≤ c ∧ c ≤ b) : a.toNat ≤ c.toNat ∧ c.toNat ≤ b.toNat := h
  have plain (low high : Nat) (h : low ≤ c.toNat ∧ c.toNat ≤ high) (l : 0x2d ≤ low)
      (u : high < 0x7f) : isSpace c = false ∧ c ≠ ',' := by
    refine ⟨isSpace_eq_false (by omega), ?_⟩
    rintro rfl
    have : (',' : Char).toNat = 0x2c := rfl
    omega
  obtain ((h | h) | h) | h := letter
  · exact plain _ _ (bound _ _ h) (by decide) (by decide)
  · exact plain _ _ (bound _ _ h) (by decide) (by decide)
  · exact plain _ _ (bound _ _ h) (by decide) (by decide)
  · simp only [contains_iff_mem] at h
    fin_cases h <;> decide

theorem trimSpace_blank (valid : validMethod m = true) :
    trimSpace m = m ∧ trimSpace (String.ofList (' ' :: m.toList)) = m := by
  have same : trimSpace m = m := trimSpace_eq_self fun c hc => (methodChar_plain valid c hc).1
  exact ⟨same, (trimSpace_cons (by decide)).trans same⟩

/-- What the router has listed is read back. -/
theorem mem_parseAllow (valid : ∀ m ∈ methods, validMethod m = true) :
    m ∈ parseAllow (joinMethods methods) ↔ m ∈ methods := by
  have blanks (l : List (List Char)) (x : List Char) :
      [',', ' '].intercalate (x :: l) = [','].intercalate (x :: l.map (' ' :: ·)) := by
    induction l generalizing x with
    | nil => simp
    | cons y l ih =>
      rw [intercalate_cons_cons, ih, map_cons, intercalate_cons_cons]
      cases l <;> simp
  have nonempty (m : String) (h : validMethod m = true) : m ≠ "" := by
    rintro rfl
    simp [validMethod] at h
  cases methods with
  | nil =>
    have empty : parseAllow (joinMethods []) = [] := by decide
    simp [empty]
  | cons first rest =>
    have parts : (joinMethods (first :: rest)).splitOn ',' =
        first.toList :: rest.map fun m => ' ' :: m.toList := by
      rw [joinMethods, map_cons, blanks, map_map]
      refine splitOn_intercalate ',' (fun part mem => ?_) (by simp)
      obtain rfl | mem := mem_cons.mp mem
      · exact fun comma => (methodChar_plain (valid first (by simp)) _ comma).2 rfl
      obtain ⟨m, hm, rfl⟩ := mem_map.mp mem
      intro comma
      obtain h | h := mem_cons.mp comma
      · cases h
      · exact (methodChar_plain (valid m (by simp [hm])) _ h).2 rfl
    have trimmed : ((joinMethods (first :: rest)).splitOn ',').map
        (fun m => trimSpace (String.ofList m)) = first :: rest := by
      rw [parts, map_cons, map_map, String.ofList_toList,
        (trimSpace_blank (valid first (by simp))).1]
      congr 1
      refine (map_congr_left fun m hm => ?_).trans (map_id rest)
      exact (trimSpace_blank (valid m (by simp [hm]))).2
    rw [parseAllow, trimmed, mem_filter]
    exact ⟨fun h => h.1, fun h => ⟨h, by simpa using nonempty m (valid m h)⟩⟩

/-! ## The best route for each method -/

section Noted

variable (allowed : List String)

/-- A route is noted for those of its methods for which it is more specific than the noted one. -/
theorem lookup_noteRoute (best : List (String × RuntimeRoute)) (route : RuntimeRoute) (m : String) :
    (noteRoute allowed best route).lookup m =
      if m ∈ allowed ∧ m ∈ route.methods ∧ moreSpecific route.path (best.lookup m) = true then
        some route
      else best.lookup m := by
  have once : moreSpecific route.path (some route) = false := by
    simp [← Bool.not_eq_true, moreSpecific_iff]
  unfold noteRoute
  induction route.methods generalizing best with
  | nil => simp
  | cons x methods ih =>
    rw [foldl_cons, ih]
    by_cases hx : x ∈ allowed
    swap
    · grind
    cases hl : best.lookup x with
    | none => grind [lookup_assign, moreSpecific]
    | some current => grind [lookup_assign]

/-- The route noted for a method that the router lists is the most specific of those that declare
the method. -/
theorem lookup_noteRoutes (routes : List RuntimeRoute) (m : String) :
    (routes.foldl (noteRoute allowed) []).lookup m =
      if m ∈ allowed then mostSpecific (routes.filter (m ∈ ·.methods)) else none := by
  induction routes using reverseRecOn with
  | nil => simp [mostSpecific]
  | append_singleton routes route ih =>
    rw [foldl_append, foldl_cons, foldl_nil, lookup_noteRoute, ih]
    by_cases hm : m ∈ allowed <;> by_cases declared : m ∈ route.methods <;>
      simp [hm, declared, mostSpecific]

theorem nodup_noteRoutes (routes : List RuntimeRoute) :
    ((routes.foldl (noteRoute allowed) []).map Prod.fst).Nodup := by
  refine foldlRecOn (motive := fun best : List (String × RuntimeRoute) => (best.map Prod.fst).Nodup)
    routes _ nodup_nil
    fun best h route _ => ?_
  refine foldlRecOn (motive := fun best : List (String × RuntimeRoute) => (best.map Prod.fst).Nodup)
    route.methods _ h
    fun best h m _ => ?_
  split_ifs
  · exact h
  split
  · exact keys_assign h m route
  split_ifs
  · exact keys_assign h m route
  · exact h

end Noted

/-! ## The answer of the static routes -/

/-- The static routes at the path of a request that accept it. -/
def acceptingAt (routes : List RuntimeRoute) (request : Request) : List RuntimeRoute :=
  routes.filter fun r => r.path = request.path && r.accepts request

theorem mem_acceptingAt :
    r ∈ acceptingAt routes request ↔ r ∈ routes ∧ r.path = request.path ∧
      r.accepts request = true := by
  simp [acceptingAt]

section Owned

variable {routes : List RuntimeRoute} {request : Request} (served : Served routes)
  (static : isStaticRoutePattern request.path = true)
  (owner : ∃ r ∈ routes, r.path = request.path ∧ r.accepts request = true)

include served

theorem Served.absolute (hr : r ∈ routes) : Absolute r.path :=
  (validateRoutePattern_ok (served.valid r hr)).1

include owner

theorem request_absolute : Absolute request.path := by
  obtain ⟨r, hr, path, -⟩ := owner
  exact path ▸ served.absolute hr

theorem methodSet_ne_nil : methodSet (acceptingAt routes request) ≠ [] := by
  obtain ⟨r, hr, path, accepts⟩ := owner
  obtain ⟨m, hm⟩ := exists_mem_of_ne_nil _ (served.methods r hr).1
  exact ne_nil_of_mem (mem_methodSet.mpr ⟨r, mem_acceptingAt.mpr ⟨hr, path, accepts⟩, hm⟩)

include static

/-- A route that is not less specific than the static path is at this path. -/
theorem path_eq_of_top (hr : r ∈ routes) (matched : matchPattern r.path request.path = true)
    (top : ¬ ranks (segments r.path) < ranks (segments request.path)) : r.path = request.path := by
  by_contra differ
  have absolute := request_absolute served owner
  exact top (ranks_lt_of_matchPattern absolute static (served.absolute hr) matched differ)

theorem handleNoMethod_static (registry : Registry) (fallbackMatches : Request → Bool)
    (perm : ∀ entries, (shuffle entries).Perm entries)
    (listed : ∀ m, m ∈ allow ↔ ∃ r ∈ routes, m ∈ r.methods ∧
      ginMatches r.path request.path = true) :
    ∃ module, handleNoMethod registry fallbackMatches shuffle routes (joinMethods allow) request =
      .methodNotAllowed (allowHeader (methodSet (acceptingAt routes request))) module := by
  have absolute := request_absolute served owner
  have validAllow (m : String) (hm : m ∈ allow) : validMethod m = true := by
    obtain ⟨r, hr, hm, -⟩ := (listed m).mp hm
    exact (served.methods r hr).2 m hm
  set matching := routes.filter fun route => matchPattern route.path request.path with matching_eq
  set best := matching.foldl (noteRoute (parseAllow (joinMethods allow))) [] with best_eq
  have mem_best (m : String) (r : RuntimeRoute) : (m, r) ∈ shuffle best ↔ best.lookup m = some r :=
    (perm best).mem_iff.trans (lookup_eq_some_iff (nodup_noteRoutes _ _)).symm
  have lookup_best (m : String) : best.lookup m = if m ∈ parseAllow (joinMethods allow) then
      mostSpecific (matching.filter (m ∈ ·.methods)) else none := lookup_noteRoutes _ _ _
  -- the route noted for a method of a static route is this route
  have owned {m : String} {r : RuntimeRoute} (hr : r ∈ routes) (path : r.path = request.path)
      (hm : m ∈ r.methods) : best.lookup m = some r := by
    have allowed : m ∈ parseAllow (joinMethods allow) := by
      refine (mem_parseAllow validAllow).mpr ((listed m).mpr ⟨r, hr, hm, ?_⟩)
      rw [path]
      exact ginMatches_self absolute static
    have here : r ∈ matching.filter (m ∈ ·.methods) := by
      have matched := matchPattern_self absolute static
      simp [matching_eq, hr, hm, path, matched]
    rw [lookup_best, if_pos allowed]
    obtain ⟨r', found⟩ := exists_mostSpecific here
    have hr' := mem_of_mostSpecific found
    simp only [matching_eq, mem_filter, decide_eq_true_eq] at hr'
    have top := mostSpecific_top found here
    rw [path] at top
    have path' := path_eq_of_top served static owner hr'.1.1 hr'.1.2 top
    rw [found, served.unique r' hr'.1.1 r hr (path'.trans path.symm) m hr'.2 hm]
  set valid := (shuffle best).filter fun e => e.2.accepts request with valid_eq
  have mem_valid (m : String) (r : RuntimeRoute) :
      (m, r) ∈ valid ↔ best.lookup m = some r ∧ r.accepts request = true := by
    rw [valid_eq, mem_filter, mem_best]
  have valid_route {m : String} {r : RuntimeRoute} (h : (m, r) ∈ valid) :
      r ∈ routes ∧ m ∈ r.methods ∧ matchPattern r.path request.path = true := by
    have noted := ((mem_valid m r).mp h).1
    rw [lookup_best] at noted
    split at noted
    · simpa [matching_eq] using mem_of_mostSpecific noted
    · cases noted
  -- the most specific of the valid routes is at the static path
  obtain ⟨o, ho, opath, oaccepts⟩ := id owner
  obtain ⟨om, hom⟩ := exists_mem_of_ne_nil _ (served.methods o ho).1
  have oValid : o ∈ valid.map Prod.snd :=
    mem_map_of_mem (f := Prod.snd) ((mem_valid om o).mpr ⟨owned ho opath hom, oaccepts⟩)
  obtain ⟨b, b_eq⟩ := exists_mostSpecific oValid
  have bpath : b.path = request.path := by
    obtain ⟨⟨bm, b⟩, hb, rfl⟩ := mem_map.mp (mem_of_mostSpecific b_eq)
    obtain ⟨hr, -, matched⟩ := valid_route hb
    exact path_eq_of_top served static owner hr matched (opath ▸ mostSpecific_top b_eq oValid)
  set allowed := (valid.filter fun e =>
    !(mostSpecific (valid.map Prod.snd)).any fun best => moreSpecific best.path (some e.2)).map
      Prod.fst with allowed_eq
  have mem_allowed (m : String) : m ∈ allowed ↔ m ∈ methodSet (acceptingAt routes request) := by
    rw [allowed_eq, mem_map, mem_methodSet]
    constructor
    · rintro ⟨⟨m', r⟩, mem, rfl⟩
      obtain ⟨mem, kept⟩ := mem_filter.mp mem
      obtain ⟨hr, hm, matched⟩ := valid_route mem
      rw [b_eq] at kept
      refine ⟨r, mem_acceptingAt.mpr ⟨hr, ?_, ((mem_valid m' r).mp mem).2⟩, hm⟩
      refine path_eq_of_top served static owner hr matched fun below => ?_
      rw [← bpath] at below
      simp [moreSpecific_iff.mpr below] at kept
    · rintro ⟨r, hr, hm⟩
      obtain ⟨hr, path, accepts⟩ := mem_acceptingAt.mp hr
      refine ⟨(m, r), mem_filter.mpr ⟨(mem_valid m r).mpr ⟨owned hr path hm, accepts⟩, ?_⟩, rfl⟩
      rw [b_eq]
      simp [moreSpecific, bpath, path, ← Bool.not_eq_true, moreSpecificSegments_iff]
  have nodup : allowed.Nodup := by
    have keys : ((shuffle best).map Prod.fst).Nodup :=
      ((perm best).map _).nodup_iff.mpr (nodup_noteRoutes _ _)
    exact (keys.sublist (filter_sublist.map _)).sublist (filter_sublist.map _)
  have nonempty : allowed.isEmpty = false := by
    obtain ⟨m, hm⟩ := exists_mem_of_ne_nil _ (methodSet_ne_nil served owner)
    simpa using ne_nil_of_mem ((mem_allowed m).mpr hm)
  refine ⟨some b.moduleIndex, ?_⟩
  unfold handleNoMethod
  dsimp only
  rw [← matching_eq, ← best_eq, ← valid_eq, ← allowed_eq, if_neg (by simp [nonempty]), b_eq,
    allowHeader_congr nodup (methodSet_spec _).1 mem_allowed]
  rfl

/-- The guard of a route whose pattern matches the path. -/
theorem guard_static {route : RuntimeRoute} (matched : matchPattern route.path request.path = true)
    (foreign : ∀ r ∈ routes, r.path = request.path → request.method ∉ r.methods)
    (differ : route.path ≠ request.path) :
    ∃ module, runRoute routes route request =
      .methodNotAllowed (allowHeader (methodSet (acceptingAt routes request))) module := by
  have owners : ((staticPathOwners route.path routes).filter (·.path = request.path)).filter
      (·.accepts request) = acceptingAt routes request := by
    rw [staticPathOwners, acceptingAt, filter_filter, filter_filter]
    refine filter_congr fun r _ => ?_
    by_cases path : r.path = request.path
    · simp [path, static, matched, Ne.symm differ]
    · simp [path]
  have nonempty := methodSet_ne_nil served owner
  have missing : request.method ∉ methodSet (acceptingAt routes request) := by
    intro mem
    obtain ⟨r, hr, hm⟩ := mem_methodSet.mp mem
    obtain ⟨hr, path, -⟩ := mem_acceptingAt.mp hr
    exact foreign r hr path hm
  refine ⟨((acceptingAt routes request).head?.map (·.moduleIndex)), ?_⟩
  unfold runRoute staticPathOwnershipGuard
  dsimp only
  rw [owners, if_neg (by simp [nonempty, missing])]

end Owned

/-- The guard of a route that is not told of the path. -/
theorem guard_silent {route : RuntimeRoute}
    (unmatched : matchPattern route.path request.path = false) :
    staticPathOwnershipGuard route.path routes request = none := by
  have owners : (staticPathOwners route.path routes).filter (·.path = request.path) = [] := by
    rw [filter_eq_nil_iff]
    intro r hr path
    have matched := (mem_filter.mp hr).2
    simp only [decide_eq_true_eq] at path
    simp [path, unmatched] at matched
  unfold staticPathOwnershipGuard
  dsimp only
  rw [owners]
  rfl

/-- `Bind` serves the routes of the registry. -/
theorem bind_routes {registry : Registry}
    (h : registry.bind gin bound engineHandlers existingRoutes = .ok routes) :
    registry.runtimeRoutes = routes := by
  unfold Registry.bind at h
  split at h
  · cases h
  split at h
  · cases h
  split at h
  · cases h
  obtain ⟨_, -, h⟩ := Fallible.bind_ok.mp h
  obtain ⟨_, -, h⟩ := Fallible.bind_ok.mp h
  exact Except.ok.inj h

/-- A request for a static path, with a method that no static route declares there, is answered with
405 and the methods of the static routes that accept it, unless it is for the root and the router
has a catch-all for the method there. -/
theorem static_path_owned_iff {gin : List RoutePattern → Except String Unit} {modules : List Module}
    {registry : Registry} {bound : Bool} {engineHandlers existingRoutes : Nat}
    {routes : List RuntimeRoute} (engine : Engine) (fallbackMatches : Request → Bool)
    {request : Request} (accepted : newRegistry gin modules = .ok registry)
    (isBound : registry.bind gin bound engineHandlers existingRoutes = .ok routes)
    (static : isStaticRoutePattern request.path = true)
    (owner : ∃ r ∈ routes, r.path = request.path ∧ r.accepts request = true)
    (foreign : ∀ r ∈ routes, r.path = request.path → request.method ∉ r.methods) :
    (∃ module, serve engine registry fallbackMatches routes request =
      .methodNotAllowed (allowHeader (methodSet (acceptingAt routes request))) module) ↔
    ¬ (request.path = "/" ∧
      ∃ r ∈ routes, request.method ∈ r.methods ∧ ginMatches r.path request.path = true) := by
  have served : Served routes := bind_routes isBound ▸ served_of_newRegistry accepted
  have absolute := request_absolute served owner
  unfold serve
  cases found : engine.find routes request with
  | none =>
    have noRoute := engine.find_none routes request found
    have nonempty : (engine.allow routes request).isEmpty = false := by
      obtain ⟨o, ho, opath, -⟩ := owner
      obtain ⟨m, hm⟩ := exists_mem_of_ne_nil _ (served.methods o ho).1
      have mem := (engine.mem_allow routes request m).mpr
        ⟨o, ho, hm, by rw [opath]; exact ginMatches_self absolute static⟩
      simpa using ne_nil_of_mem mem
    dsimp only
    rw [if_neg (by simp [nonempty])]
    refine iff_of_true ?_ fun ⟨_, r, hr, hm, matched⟩ => ?_
    · exact handleNoMethod_static served static owner registry fallbackMatches engine.shuffle_perm
        (engine.mem_allow routes request)
    · rw [noRoute r hr hm] at matched
      cases matched
  | some route =>
    obtain ⟨⟨hr, hm, matched⟩, -⟩ := engine.find_some routes request route found
    have differ : route.path ≠ request.path := fun path => foreign route hr path hm
    dsimp only
    by_cases root : request.path = "/"
    · have unmatched : matchPattern route.path request.path = false := by
        rw [root] at differ ⊢
        simp [matchPattern, differ]
      refine iff_of_false ?_ fun h => h ⟨root, route, hr, hm, matched⟩
      rintro ⟨module, answer⟩
      rw [runRoute, guard_silent unmatched] at answer
      dsimp only at answer
      split at answer <;> cases answer
    · rw [ginMatches_eq absolute root] at matched
      exact iff_of_true (guard_static served static owner matched foreign differ)
        fun h => root h.1

/-! ## The root -/

/-- A router that prefers static segments, and runs through maps in the order of their entries. -/
def ginRouter : Engine where
  find routes request := mostSpecific (routes.filter fun r =>
    r.methods.contains request.method && ginMatches r.path request.path)
  allow routes request := methodSet (routes.filter fun r => ginMatches r.path request.path)
  shuffle := id
  find_some routes request route h := by
    have mem := mem_of_mostSpecific h
    simp only [mem_filter, Bool.and_eq_true, contains_iff_mem] at mem
    refine ⟨⟨mem.1, mem.2⟩, fun other ho hm matched => ?_⟩
    rw [← Bool.not_eq_true, moreSpecific_iff]
    exact mostSpecific_top h (by simp [ho, hm, matched])
  find_none routes request h r hr hm := by
    by_contra matched
    have mem : r ∈ routes.filter fun r =>
        r.methods.contains request.method && ginMatches r.path request.path :=
      mem_filter.mpr ⟨hr, by simpa [hm] using matched⟩
    obtain ⟨best, found⟩ := exists_mostSpecific mem
    cases h.symm.trans found
  mem_allow routes request m := by
    rw [mem_methodSet]
    simp only [mem_filter]
    exact ⟨fun ⟨r, ⟨hr, matched⟩, hm⟩ => ⟨r, hr, hm, matched⟩,
      fun ⟨r, hr, hm, matched⟩ => ⟨r, ⟨hr, matched⟩, hm⟩⟩
  shuffle_perm _ := List.Perm.refl _

def sampleWeb (path pattern : String) : Module where
  name := "web"
  owner := .web
  auth := .none
  pathPrefix := ""
  namespacePrefixes := []
  hasAuthenticate := false
  routes := [
    { name := "page", methods := ["GET"], path, handlers := [true] },
    { name := "form", methods := ["POST"], path := pattern, handlers := [true] }]

def boundWeb (path pattern : String) : Except String (Registry × List RuntimeRoute) := do
  let registry ← newRegistry (fun _ => .ok ()) [sampleWeb path pattern]
  let routes ← registry.bind (fun _ => .ok ()) false 0 0
  .ok (registry, routes)

def posted (path pattern : String) : Except String (Option String) := do
  let (registry, routes) ← boundWeb path pattern
  match serve ginRouter registry (fun _ => false) routes { method := "POST", path } with
  | .handlers route => .ok (some route.path)
  | _ => .ok none

/-- The handlers of a catch-all run for a static path, the root. -/
theorem root_not_owned : (posted "/" "/*rest").toOption = some (some "/*rest") := by
  decide +kernel

theorem static_path_owned_iff_about : ∃ registry routes,
    newRegistry (fun _ => .ok ()) [sampleWeb "/about" "/*rest"] = .ok registry ∧
    registry.bind (fun _ => .ok ()) false 0 0 = .ok routes ∧
    ((∃ module, serve ginRouter registry (fun _ => false) routes
        { method := "POST", path := "/about" } =
      .methodNotAllowed (allowHeader (methodSet (acceptingAt routes
        { method := "POST", path := "/about" }))) module) ↔
    ¬ ("/about" = "/" ∧ ∃ r ∈ routes, "POST" ∈ r.methods ∧ ginMatches r.path "/about" = true)) := by
  have rows : (boundWeb "/about" "/*rest").toOption.map
      (fun x => x.2.map fun r => (r.path, r.methods, r.validator.isNone)) =
      some [("/about", ["GET"], true), ("/*rest", ["POST"], true)] := by decide +kernel
  cases h : boundWeb "/about" "/*rest" with
  | error problem =>
    rw [h] at rows
    cases rows
  | ok made =>
    rw [h] at rows
    obtain ⟨registry, accepted, rest⟩ := Fallible.bind_ok.mp h
    obtain ⟨routes, isBound, same⟩ := Fallible.bind_ok.mp rest
    cases same
    have rows : (routes.map fun r => (r.path, r.methods, r.validator.isNone)) =
      [("/about", ["GET"], true), ("/*rest", ["POST"], true)] := Option.some.inj rows
    refine ⟨registry, routes, accepted, isBound,
      static_path_owned_iff ginRouter _ accepted isBound (by decide +kernel) ?_ ?_⟩
    · have mem : ("/about", ["GET"], true) ∈
          routes.map fun r => (r.path, r.methods, r.validator.isNone) := by simp [rows]
      obtain ⟨r, hr, same⟩ := mem_map.mp mem
      simp only [Prod.mk.injEq] at same
      obtain ⟨path, -, unset⟩ := same
      have unset : r.validator = none := by simpa using unset
      exact ⟨r, hr, path, by simp [RuntimeRoute.accepts, unset]⟩
    · intro r hr path
      have mem := mem_map_of_mem (f := fun r : RuntimeRoute =>
        (r.path, r.methods, r.validator.isNone)) hr
      rw [rows] at mem
      simp only [mem_cons, Prod.mk.injEq, not_mem_nil, or_false] at mem
      obtain ⟨-, methods, -⟩ | ⟨path', -, -⟩ := mem
      · simp [methods]
      · simp [path'] at path

end ApiLoad.HttpRoute
