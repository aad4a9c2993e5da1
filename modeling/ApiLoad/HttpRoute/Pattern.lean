import Mathlib
import ApiLoad.Foundation.Splitting
import ApiLoad.Foundation.Text

/-!
# Route patterns and namespaces

The paths of `internal/platform/httproute/registry.go`. A pattern is a path whose segments may be
parameters (`:name`) and whose last segment may be a catch-all (`*name`). A namespace is a static
path; it contains the paths below it. Whether a pattern meets a namespace is decided segment by
segment, and this is shown to be a statement about request paths.
-/
namespace ApiLoad.HttpRoute
open Foundation Foundation.Splitting Foundation.Text List

abbrev Segment := List Char

/-- `strings.TrimPrefix(path, "/")`. -/
def trimSlash : List Char → List Char
  | '/' :: rest => rest
  | path => path

/-- `strings.Split(strings.TrimPrefix(path, "/"), "/")`. -/
def segments (path : String) : List Segment := (trimSlash path.toList).splitOn '/'

/-! ## Validation -/

def validateStaticPrefix (staticPrefix : String) (allowRoot : Bool) : Except String Unit :=
  if staticPrefix = "" || !hasPrefix staticPrefix "/" then .error "must be an absolute path"
  else if staticPrefix = "/" then
    if allowRoot then .ok () else .error "root prefix is not allowed"
  else if hasSuffix staticPrefix "/" then .error "must not have a trailing slash"
  else if staticPrefix.toList.any ("?#\\:*".toList.contains ·) then
    .error "must be a static path without query, fragment, or wildcard"
  else if (segments staticPrefix).any fun s => s = [] || s = ['.'] || s = ['.', '.'] then
    .error "contains a non-canonical path segment"
  else .ok ()

def validWildcardName (name : Segment) : Bool :=
  name ≠ [] && name.all fun c =>
    ('a' ≤ c && c ≤ 'z') || ('A' ≤ c && c ≤ 'Z') || ('0' ≤ c && c ≤ '9') || c = '_' || c = '-'

/-- The loop of `validateRoutePattern` over the segments, with the wildcard names seen so far. -/
def validateSegments (wildcardNames : List Segment) : List Segment → Except String Unit
  | [] => .ok ()
  | segment :: rest =>
    if segment = [] || segment = ['.'] || segment = ['.', '.'] then
      .error "path contains a non-canonical segment"
    else if segment.head? ≠ some ':' ∧ segment.head? ≠ some '*' then
      if segment.any (":*".toList.contains ·) then
        .error "wildcard must occupy its complete path segment"
      else validateSegments wildcardNames rest
    else
      let name := segment.tail
      if !validWildcardName name then
        .error s!"invalid wildcard name {quoted (String.ofList name)}"
      else if wildcardNames.contains name then
        .error s!"duplicate wildcard name {quoted (String.ofList name)}"
      else if segment.head? = some '*' ∧ rest ≠ [] then
        .error "catch-all wildcard must be the final segment"
      else validateSegments (name :: wildcardNames) rest

def validateRoutePattern (pattern : String) : Except String Unit :=
  if pattern = "" || !hasPrefix pattern "/" then .error "path must be absolute"
  else if pattern ≠ "/" && hasSuffix pattern "/" then .error "path must not have a trailing slash"
  else if pattern.toList.any ("?#\\".toList.contains ·) then
    .error "path contains query, fragment, or backslash"
  else if pattern = "/" then .ok ()
  else validateSegments [] (segments pattern)

/-! ## Matching -/

/-- The loop of `matchPattern`. -/
def matchSegments : List Segment → List Segment → Bool
  | [], path => path.isEmpty
  | segment :: rest, path =>
    if segment.head? = some '*' then rest.isEmpty && !path.isEmpty
    else match path with
      | [] => false
      | s :: path =>
        if segment.head? = some ':' then s ≠ [] && matchSegments rest path
        else segment = s && matchSegments rest path

def matchPattern (pattern requestPath : String) : Bool :=
  if pattern = "/" then requestPath = "/"
  else if requestPath = "/" || !hasPrefix requestPath "/" then false
  else matchSegments (segments pattern) (segments requestPath)

def namespaceMatches (staticPrefix requestPath : String) : Bool :=
  if staticPrefix = "/" then hasPrefix requestPath "/"
  else requestPath = staticPrefix || hasPrefix requestPath (staticPrefix ++ "/")

/-- The loop of `patternIntersectsNamespace`. -/
def intersectSegments : List Segment → List Segment → Bool
  | [], staticSegments => staticSegments.isEmpty
  | segment :: rest, staticSegments =>
    if segment.head? = some '*' then true
    else match staticSegments with
      | [] => true
      | s :: staticSegments =>
        if segment.head? = some ':' then intersectSegments rest staticSegments
        else segment = s && intersectSegments rest staticSegments

def patternIntersectsNamespace (pattern staticPrefix : String) : Bool :=
  staticPrefix = "/" || intersectSegments (segments pattern) (segments staticPrefix)

def namespaceContainsPattern (staticPrefix pattern : String) : Bool :=
  staticPrefix = "/" || (segments staticPrefix).isPrefixOf (segments pattern)

/-! ## Namespaces as sets of paths -/

variable {path staticPrefix : String}

theorem hasPrefix_iff :
    hasPrefix text start = true ↔ start.toList <+: text.toList := isPrefixOf_iff_prefix

/-- The segments of a path start with those of another exactly if it lies below it. -/
theorem splitOn_prefix_iff {l r : List Char} :
    l.splitOn '/' <+: r.splitOn '/' ↔ r = l ∨ l ++ ['/'] <+: r := by
  constructor
  · rintro ⟨tail, h⟩
    have joined : ['/'].intercalate (r.splitOn '/') = r := intercalate_splitOn '/'
    rw [← h] at joined
    by_cases ht : tail = []
    · left
      rw [ht, append_nil, intercalate_splitOn] at joined
      exact joined.symm
    right
    rw [intercalate_append (splitOn_ne_nil _ _) ht, intercalate_splitOn] at joined
    exact ⟨_, by simpa using joined⟩
  · rintro (rfl | ⟨tail, rfl⟩)
    · exact prefix_rfl
    · rw [append_assoc, singleton_append, splitOn_append_cons]
      exact prefix_append _ _

def Absolute (path : String) : Prop := ∃ rest, path.toList = '/' :: rest

theorem absolute_iff : hasPrefix path "/" = true ↔ Absolute path := by
  rw [hasPrefix_iff]
  constructor
  · rintro ⟨rest, h⟩
    exact ⟨rest, h.symm⟩
  · rintro ⟨rest, h⟩
    exact ⟨rest, h.symm⟩

theorem segments_absolute (h : path.toList = '/' :: rest) : segments path = rest.splitOn '/' := by
  simp [segments, h, trimSlash]

/-- A namespace other than the root contains the paths whose segments start with its own. -/
theorem namespaceMatches_iff (hroot : staticPrefix ≠ "/") (hstatic : Absolute staticPrefix)
    (hpath : Absolute path) :
    namespaceMatches staticPrefix path = true ↔ segments staticPrefix <+: segments path := by
  obtain ⟨l, hl⟩ := hstatic
  obtain ⟨r, hr⟩ := hpath
  rw [segments_absolute hl, segments_absolute hr, splitOn_prefix_iff]
  simp only [namespaceMatches, hroot, if_false, Bool.or_eq_true, decide_eq_true_eq, hasPrefix_iff,
    String.toList_append, ← String.toList_inj, hl, hr]
  simp

/-- A path in a namespace is absolute. -/
theorem absolute_of_namespaceMatches (hstatic : Absolute staticPrefix)
    (h : namespaceMatches staticPrefix path = true) :
    Absolute path := by
  unfold namespaceMatches at h
  split at h
  · exact absolute_iff.mp h
  simp only [Bool.or_eq_true, decide_eq_true_eq, hasPrefix_iff] at h
  obtain rfl | ⟨tail, ht⟩ := h
  · exact hstatic
  · obtain ⟨rest, hrest⟩ := hstatic
    exact ⟨rest ++ '/' :: tail, by simp [← ht, hrest]⟩

/-! ## Static paths and patterns that pass validation -/

variable {pattern : List Segment}

/-- A segment that stands for itself. -/
def Segment.Static (s : Segment) : Prop := s ≠ [] ∧ s.head? ≠ some ':' ∧ s.head? ≠ some '*'

theorem validateStaticPrefix_ok (h : validateStaticPrefix staticPrefix true = .ok ()) :
    Absolute staticPrefix ∧
      (staticPrefix ≠ "/" → ∀ s ∈ segments staticPrefix, Segment.Static s) := by
  unfold validateStaticPrefix at h
  split at h
  · cases h
  rename_i absolute
  simp only [Bool.or_eq_true, decide_eq_true_eq, Bool.not_eq_true', not_or, Bool.not_eq_false]
    at absolute
  refine ⟨absolute_iff.mp absolute.2, fun hroot => ?_⟩
  rw [if_neg hroot] at h
  split at h
  · cases h
  split at h
  · cases h
  rename_i noWildcard
  split at h
  · cases h
  rename_i canonical
  intro s hs
  have nonempty : s ≠ [] := by
    rintro rfl
    exact canonical (any_eq_true.mpr ⟨[], hs, rfl⟩)
  obtain ⟨rest, hrest⟩ := absolute_iff.mp absolute.2
  have member (c : Char) (hc : c ∈ s) : c ∈ staticPrefix.toList := by
    rw [segments_absolute hrest] at hs
    rw [hrest]
    exact mem_cons_of_mem _ ((of_mem_splitOn hs).1 c hc)
  have plain (c : Char) (hc : s.head? = some c) : c ≠ ':' ∧ c ≠ '*' := by
    have hmem := member c (mem_of_head? hc)
    constructor <;>
    · rintro rfl
      exact noWildcard (any_eq_true.mpr ⟨_, hmem, by decide⟩)
  exact ⟨nonempty, fun hc => (plain _ hc).1 rfl, fun hc => (plain _ hc).2 rfl⟩

/-- A pattern's segments: none is empty, and a catch-all is the last. -/
def ValidSegments : List Segment → Prop
  | [] => True
  | segment :: rest => segment ≠ [] ∧ (segment.head? = some '*' → rest = []) ∧ ValidSegments rest

theorem validateSegments_ok (h : validateSegments names pattern = .ok ()) :
    ValidSegments pattern := by
  induction pattern generalizing names with
  | nil => trivial
  | cons segment rest ih =>
    rw [validateSegments] at h
    split at h
    · cases h
    rename_i canonical
    have nonempty : segment ≠ [] := by
      rintro rfl
      simp at canonical
    split at h
    · rename_i plain
      split at h
      · cases h
      · exact ⟨nonempty, fun hs => absurd hs plain.2, ih h⟩
    dsimp only at h
    split at h
    · cases h
    split at h
    · cases h
    split at h
    · cases h
    rename_i last
    refine ⟨nonempty, fun hs => ?_, ih h⟩
    by_contra hrest
    exact last ⟨hs, hrest⟩

theorem validateRoutePattern_ok {pattern : String} (h : validateRoutePattern pattern = .ok ()) :
    Absolute pattern ∧ (pattern ≠ "/" → ValidSegments (segments pattern)) := by
  unfold validateRoutePattern at h
  split at h
  · cases h
  rename_i absolute
  simp only [Bool.or_eq_true, decide_eq_true_eq, Bool.not_eq_true', not_or, Bool.not_eq_false]
    at absolute
  refine ⟨absolute_iff.mp absolute.2, fun hroot => ?_⟩
  split at h
  · cases h
  split at h
  · cases h
  exact validateSegments_ok h

/-! ## The decision on segments -/

/-- A path that matches a pattern and starts with static segments shows that the two intersect. -/
theorem intersect_of_match {path : List Segment} (hmatch : matchSegments pattern path = true)
    (hstart : static <+: path) : intersectSegments pattern static = true := by
  induction pattern generalizing path static with
  | nil =>
    have : path = [] := by simpa [matchSegments] using hmatch
    have : static = [] := by simpa [this] using hstart
    simp [intersectSegments, this]
  | cons segment rest ih =>
    rw [matchSegments.eq_def] at hmatch
    rw [intersectSegments.eq_def]
    dsimp only at hmatch ⊢
    split at hmatch
    · rename_i catchAll
      simp [catchAll]
    rename_i notCatchAll
    rw [if_neg notCatchAll]
    cases path with
    | nil => cases hmatch
    | cons s path =>
      cases static with
      | nil => rfl
      | cons t static =>
        obtain ⟨rfl, below⟩ := cons_prefix_cons.mp hstart
        dsimp only at hmatch ⊢
        split at hmatch
        · rename_i parameter
          simp only [Bool.and_eq_true] at hmatch
          simp [parameter, ih hmatch.2 below]
        rename_i notParameter
        simp only [Bool.and_eq_true] at hmatch
        simp [notParameter, hmatch.1, ih hmatch.2 below]

/-- A path that matches a pattern starts with the static segments that the pattern starts with. -/
theorem start_of_match {path : List Segment} (hmatch : matchSegments pattern path = true)
    (hstatic : ∀ s ∈ static, Segment.Static s) (hstart : static <+: pattern) : static <+: path := by
  induction static generalizing pattern path with
  | nil => exact nil_prefix
  | cons t static ih =>
    cases pattern with
    | nil => simp at hstart
    | cons segment rest =>
      obtain ⟨rfl, below⟩ := cons_prefix_cons.mp hstart
      obtain ⟨-, notParameter, notCatchAll⟩ := hstatic t (by simp)
      rw [matchSegments.eq_def] at hmatch
      dsimp only at hmatch
      rw [if_neg notCatchAll] at hmatch
      cases path with
      | nil => cases hmatch
      | cons s path =>
        simp only [notParameter, if_false, Bool.and_eq_true, decide_eq_true_eq] at hmatch
        obtain ⟨rfl, hmatch⟩ := hmatch
        exact cons_prefix_cons.mpr ⟨rfl, ih hmatch (fun s hs => hstatic s (by simp [hs])) below⟩

/-- A path that matches the pattern and starts with the static segments, if they intersect. -/
def meetingPath : List Segment → List Segment → List Segment
  | [], static => static
  | segment :: rest, static =>
    if segment.head? = some '*' then if static = [] then [['x']] else static
    else match static with
      | [] => (if segment.head? = some ':' then ['x'] else segment) :: meetingPath rest []
      | s :: static => s :: meetingPath rest static

theorem meetingPath_spec (hpattern : ValidSegments pattern) (hstatic : ∀ s ∈ static, s ≠ [])
    (h : static ≠ [] → intersectSegments pattern static = true) :
    matchSegments pattern (meetingPath pattern static) = true ∧
      static <+: meetingPath pattern static := by
  induction pattern generalizing static with
  | nil =>
    have : static = [] := by
      by_contra hs
      simpa [intersectSegments, hs] using h hs
    simp [this, meetingPath, matchSegments]
  | cons segment rest ih =>
    obtain ⟨nonempty, last, hrest⟩ := hpattern
    rw [matchSegments.eq_def, meetingPath.eq_def]
    dsimp only
    by_cases catchAll : segment.head? = some '*'
    · by_cases hs : static = [] <;> simp [catchAll, last catchAll, hs]
    cases static with
    | nil =>
      have := @ih [] hrest (by simp) (by simp)
      by_cases parameter : segment.head? = some ':' <;> simp [catchAll, parameter, this.1]
    | cons s static =>
      have meets := h (by simp)
      rw [intersectSegments.eq_def] at meets
      dsimp only at meets
      rw [if_neg catchAll] at meets
      have hs : s ≠ [] := hstatic s (by simp)
      by_cases parameter : segment.head? = some ':'
      · rw [if_pos parameter] at meets
        have := ih hrest (fun s hs => hstatic s (by simp [hs])) (fun _ => meets)
        simp [parameter, hs, this.1, this.2]
      simp only [parameter, if_false, Bool.and_eq_true, decide_eq_true_eq] at meets
      obtain ⟨rfl, meets⟩ := meets
      have := ih hrest (fun s hs => hstatic s (by simp [hs])) (fun _ => meets)
      simp [catchAll, parameter, this.1, this.2]

/-- The segments of the meeting path come from the two, or are made up. -/
theorem of_mem_meetingPath (h : s ∈ meetingPath pattern static) :
    s ∈ pattern ∨ s ∈ static ∨ s = ['x'] := by
  induction pattern generalizing static with
  | nil => exact Or.inr (Or.inl h)
  | cons segment rest ih =>
    rw [meetingPath.eq_def] at h
    dsimp only at h
    split at h
    · split at h
      · exact Or.inr (Or.inr (by simpa using h))
      · exact Or.inr (Or.inl h)
    split at h
    · rcases mem_cons.mp h with rfl | h
      · split <;> simp
      · have := ih h
        grind
    rcases mem_cons.mp h with rfl | h
    · simp
    · have := ih h
      grind

/-! ## The decision on paths -/

theorem ValidSegments.nonempty (h : ValidSegments pattern) : ∀ s ∈ pattern, s ≠ [] := by
  induction pattern with
  | nil => simp
  | cons segment rest ih =>
    intro s hs
    rcases mem_cons.mp hs with rfl | hs
    · exact h.1
    · exact ih h.2.2 s hs

def joinPath (parts : List Segment) : String := String.ofList ('/' :: ['/'].intercalate parts)

theorem segments_joinPath (nonempty : parts ≠ []) (noSlash : ∀ s ∈ parts, '/' ∉ s) :
    segments (joinPath parts) = parts := by
  have absolute : (joinPath parts).toList = '/' :: ['/'].intercalate parts := by simp [joinPath]
  rw [segments_absolute absolute]
  exact splitOn_intercalate '/' noSlash nonempty

theorem segments_root : segments "/" = [[]] := by decide

theorem exists_segments (path : String) : ∃ s rest, segments path = s :: rest :=
  exists_cons_of_ne_nil (splitOn_ne_nil _ _)

/-- The root is in no namespace but the root. -/
theorem not_below_root (static : ∀ s ∈ segments staticPrefix, Segment.Static s) :
    ¬ segments staticPrefix <+: [[]] := by
  obtain ⟨s, rest, hs⟩ := exists_segments staticPrefix
  intro below
  rw [hs, cons_prefix_cons] at below
  exact (static s (by simp [hs])).1 below.1

theorem noSlash_of_mem_segments (h : s ∈ segments path) : '/' ∉ s :=
  (of_mem_splitOn h).2

/-- A path that matches a pattern and lies in a namespace shows that the two intersect. -/
theorem intersects_of_matches {pattern : String}
    (hstatic : validateStaticPrefix staticPrefix true = .ok ())
    (hmatch : matchPattern pattern path = true)
    (hnamespace : namespaceMatches staticPrefix path = true) :
    patternIntersectsNamespace pattern staticPrefix = true := by
  unfold patternIntersectsNamespace
  by_cases hroot : staticPrefix = "/"
  · simp [hroot]
  obtain ⟨absolute, static⟩ := validateStaticPrefix_ok hstatic
  have below := (namespaceMatches_iff hroot absolute
    (absolute_of_namespaceMatches absolute hnamespace)).mp hnamespace
  unfold matchPattern at hmatch
  split at hmatch
  · have pathRoot : path = "/" := by simpa using hmatch
    rw [pathRoot, segments_root] at below
    exact absurd below (not_below_root (static hroot))
  split at hmatch
  · cases hmatch
  · simp [hroot, intersect_of_match hmatch below]

/-- The check of the registry is exact: a pattern intersects a namespace if and only if some request
path matches the pattern and lies in the namespace. -/
theorem patternIntersectsNamespace_iff {pattern : String}
    (hpattern : validateRoutePattern pattern = .ok ())
    (hstatic : validateStaticPrefix staticPrefix true = .ok ()) :
    patternIntersectsNamespace pattern staticPrefix = true ↔
      ∃ path, matchPattern pattern path = true ∧ namespaceMatches staticPrefix path = true := by
  refine ⟨fun h => ?_, fun ⟨path, hmatch, hnamespace⟩ =>
    intersects_of_matches hstatic hmatch hnamespace⟩
  obtain ⟨absolute, static⟩ := validateStaticPrefix_ok hstatic
  obtain ⟨-, valid⟩ := validateRoutePattern_ok hpattern
  by_cases patternRoot : pattern = "/"
  · by_cases hroot : staticPrefix = "/"
    · exact ⟨"/", by simp [matchPattern, patternRoot], by simp [namespaceMatches, hroot, hasPrefix]⟩
    -- The empty segment of the root is not a segment of a static path.
    obtain ⟨t, rest, ht⟩ := exists_segments staticPrefix
    have := (static hroot t (by simp [ht])).1
    simp [patternIntersectsNamespace, hroot, patternRoot, segments_root, ht, intersectSegments,
      Ne.symm this] at h
  · have valid := valid patternRoot
    let start := if staticPrefix = "/" then [] else segments staticPrefix
    have hstart : ∀ s ∈ start, s ≠ [] ∧ '/' ∉ s := by
      intro s hs
      by_cases hroot : staticPrefix = "/"
      · simp [start, hroot] at hs
      · simp only [start, hroot, if_false] at hs
        exact ⟨(static hroot s hs).1, noSlash_of_mem_segments hs⟩
    obtain ⟨matched, below⟩ := meetingPath_spec valid (fun s hs => (hstart s hs).1) (by
      intro hs
      by_cases hroot : staticPrefix = "/"
      · simp [start, hroot] at hs
      · simpa [patternIntersectsNamespace, start, hroot] using h)
    have parts : ∀ s ∈ meetingPath (segments pattern) start, s ≠ [] ∧ '/' ∉ s := by
      intro s hs
      obtain hs | hs | rfl := of_mem_meetingPath hs
      · exact ⟨valid.nonempty s hs, noSlash_of_mem_segments hs⟩
      · exact hstart s hs
      · decide
    have nonempty : meetingPath (segments pattern) start ≠ [] := by
      intro hm
      obtain ⟨t, rest, ht⟩ := exists_segments pattern
      rw [hm, ht, matchSegments.eq_def] at matched
      by_cases catchAll : t.head? = some '*' <;> simp [catchAll] at matched
    have split := segments_joinPath nonempty fun s hs => (parts s hs).2
    have notRoot : joinPath (meetingPath (segments pattern) start) ≠ "/" := by
      intro hroot
      rw [hroot, segments_root] at split
      exact (parts [] (by simp [← split])).1 rfl
    have absolutePath : Absolute (joinPath (meetingPath (segments pattern) start)) :=
      ⟨_, by simp [joinPath]; rfl⟩
    refine ⟨joinPath (meetingPath (segments pattern) start), ?_, ?_⟩
    · simp [matchPattern, patternRoot, notRoot, absolute_iff.mpr absolutePath, split, matched]
    by_cases hroot : staticPrefix = "/"
    · simp [namespaceMatches, hroot, absolute_iff.mpr absolutePath]
    · rw [namespaceMatches_iff hroot absolute absolutePath, split]
      simpa [start, hroot] using below

/-- A namespace that contains a pattern contains the paths that match it. -/
theorem namespaceMatches_of_contains {pattern : String}
    (hstatic : validateStaticPrefix staticPrefix true = .ok ())
    (hroot : staticPrefix ≠ "/") (hcontains : namespaceContainsPattern staticPrefix pattern = true)
    (hmatch : matchPattern pattern path = true) : namespaceMatches staticPrefix path = true := by
  obtain ⟨absolute, static⟩ := validateStaticPrefix_ok hstatic
  have below : segments staticPrefix <+: segments pattern := by
    simpa [namespaceContainsPattern, hroot] using hcontains
  unfold matchPattern at hmatch
  split at hmatch
  · rename_i patternRoot
    rw [patternRoot, segments_root] at below
    exact absurd below (not_below_root (static hroot))
  split at hmatch
  · cases hmatch
  rename_i path
  simp only [Bool.or_eq_true, decide_eq_true_eq, Bool.not_eq_true', not_or,
    Bool.not_eq_false] at path
  exact (namespaceMatches_iff hroot absolute (absolute_iff.mp path.2)).mpr
    (start_of_match hmatch (static hroot) below)

end ApiLoad.HttpRoute
