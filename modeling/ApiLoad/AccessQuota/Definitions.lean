import ApiLoad.Foundation.OrderedMap

/-!
# Cost limit definitions

The rules that the control plane hands to the quota runtime, their validation and their
canonical order (`internal/accessquota/runtime.go`). `normalizeDefinitions` returns the
definitions together with what it has checked: the rule IDs of one key are distinct, no rule ID
belongs to two keys, and every rule is well formed.
-/
namespace ApiLoad.AccessQuota
open Std Foundation OrderedMap List

def MinPeriodSeconds : Int := 60
def MaxPeriodSeconds : Int := 365 * 24 * 60 * 60
def MaxPeriodicRules : Nat := 10

/-- `Kind` is a string in the source; only two values pass `validateRules`. -/
inductive Kind where
  | total
  | periodic
  | other (name : String)
deriving DecidableEq, Repr

def Kind.text : Kind → String
  | .total => "total"
  | .periodic => "periodic"
  | .other name => name

structure Rule where
  id : Nat
  revision : Nat
  kind : Kind
  limitNanoUSD : Int
  periodSeconds : Int
deriving DecidableEq, Repr

/-- What `validateRules` checks of one rule on its own. -/
structure Rule.Valid (rule : Rule) : Prop where
  id : rule.id ≠ 0
  revision : rule.revision ≠ 0
  limit : 0 < rule.limitNanoUSD
  shape : (rule.kind = .total ∧ rule.periodSeconds = 0) ∨
    (rule.kind = .periodic ∧ MinPeriodSeconds ≤ rule.periodSeconds ∧
      rule.periodSeconds ≤ MaxPeriodSeconds)

/-- The variables of the loop in `validateRules`; `owners` is `globalRuleIDs`. -/
structure Tally where
  totalCount : Nat := 0
  periodicCount : Nat := 0
  periods : List Int := []
  owners : ExtTreeMap Nat Nat

/-- One round of the loop in `validateRules`. -/
def validateRule (accessKeyID : Nat) (t : Tally) (rule : Rule) : Except String Tally :=
  if rule.id = 0 ∨ rule.revision = 0 ∨ rule.limitNanoUSD ≤ 0 then
    .error (s!"reconcile access quota rule for key {accessKeyID}: " ++
      "invalid identity, revision, or limit")
  else match t.owners[rule.id]? with
    | some owner =>
      .error (s!"reconcile access quota rule {rule.id}: " ++
        s!"duplicate across keys {owner} and {accessKeyID}")
    | none =>
      let owners := t.owners.insert rule.id accessKeyID
      match rule.kind with
      | .total =>
        if rule.periodSeconds ≠ 0 then
          .error s!"reconcile total access quota rule {rule.id}: period must be zero"
        else .ok { t with totalCount := t.totalCount + 1, owners }
      | .periodic =>
        if rule.periodSeconds < MinPeriodSeconds ∨ rule.periodSeconds > MaxPeriodSeconds then
          .error s!"reconcile periodic access quota rule {rule.id}: period is out of range"
        else if rule.periodSeconds ∈ t.periods then
          .error s!"reconcile periodic access quota rule {rule.id}: duplicate period"
        else .ok { t with
          periodicCount := t.periodicCount + 1
          periods := rule.periodSeconds :: t.periods
          owners }
      | .other name =>
        .error s!"reconcile access quota rule {rule.id}: invalid kind {name.quote}"

def validateEach (accessKeyID : Nat) : Tally → List Rule → Except String Tally
  | t, [] => .ok t
  | t, rule :: rules =>
    match validateRule accessKeyID t rule with
    | .error message => .error message
    | .ok t => validateEach accessKeyID t rules

/-- Validates the rules of one key and returns the extended `globalRuleIDs`. -/
def validateRules (accessKeyID : Nat) (rules : List Rule) (owners : ExtTreeMap Nat Nat) :
    Except String (ExtTreeMap Nat Nat) :=
  match validateEach accessKeyID { owners } rules with
  | .error message => .error message
  | .ok t =>
    if t.totalCount > 1 ∨ t.periodicCount > MaxPeriodicRules then
      .error s!"reconcile access quota rules for key {accessKeyID}: rule count exceeds limit"
    else .ok t.owners

/-- The order of `sortRules`: the total rule first, then by period, then by ID. -/
def ruleBefore (left right : Rule) : Bool :=
  if left.kind ≠ right.kind then left.kind = .total
  else if left.periodSeconds ≠ right.periodSeconds then left.periodSeconds < right.periodSeconds
  else left.id ≤ right.id

def sortRules (rules : List Rule) : List Rule := rules.insertionSort (ruleBefore · ·)

theorem sortRules_perm (rules : List Rule) : (sortRules rules).Perm rules :=
  perm_insertionSort _ rules

/-! ## What validation establishes -/

variable {key : Nat} {rules : List Rule} {owners : ExtTreeMap Nat Nat}
  {normalized : List (Nat × KeyRules)} {source : List (Nat × List Rule)}

theorem validateRule_ok (h : validateRule key t rule = .ok t') :
    rule.Valid ∧ t.owners[rule.id]? = none ∧ t'.owners = t.owners.insert rule.id key := by
  unfold validateRule at h
  split at h
  · cases h
  next identity =>
  push Not at identity
  obtain ⟨hid, hrev, hlimit⟩ := identity
  split at h
  · cases h
  next fresh =>
  cases hk : rule.kind with
  | total =>
    simp only [hk] at h
    split at h
    · cases h
    next hp =>
    cases h
    exact ⟨⟨hid, hrev, hlimit, .inl ⟨hk, not_not.mp hp⟩⟩, fresh, rfl⟩
  | periodic =>
    simp only [hk] at h
    split at h
    · cases h
    next hp =>
    push Not at hp
    split at h
    · cases h
    · cases h
      exact ⟨⟨hid, hrev, hlimit, .inr ⟨hk, hp⟩⟩, fresh, rfl⟩
  | other name =>
    simp only [hk] at h
    cases h

/-- A validated list extends the owners by exactly its own IDs, none of which was taken. -/
theorem validateEach_ok (h : validateEach key t rules = .ok t') :
    (∀ rule ∈ rules, rule.Valid ∧ t.owners[rule.id]? = none) ∧ (rules.map Rule.id).Nodup ∧
      ∀ id, t'.owners[id]? = if id ∈ rules.map Rule.id then some key else t.owners[id]? := by
  induction rules generalizing t with
  | nil =>
    cases h
    simp
  | cons rule rules ih =>
    rw [validateEach] at h
    split at h
    · cases h
    next t₁ first =>
    obtain ⟨valid, fresh, owners⟩ := validateRule_ok first
    obtain ⟨each, nodup, after⟩ := ih h
    have distinct : ∀ other ∈ rules, other.id ≠ rule.id := by
      intro other hm he
      have := (each other hm).2
      rw [owners, he] at this
      simp at this
    refine ⟨?_, ?_, ?_⟩
    · intro other hm
      rcases mem_cons.mp hm with rfl | hm
      · exact ⟨valid, fresh⟩
      have free := (each other hm).2
      rw [owners, lookup_insert, if_neg (distinct other hm).symm] at free
      exact ⟨(each other hm).1, free⟩
    · rw [map_cons, nodup_cons]
      refine ⟨?_, nodup⟩
      simp only [mem_map, not_exists, not_and]
      exact distinct
    · intro id
      rw [after, owners, lookup_insert, map_cons]
      by_cases hm : id ∈ rules.map Rule.id
      · simp [hm]
      by_cases he : rule.id = id
      · simp [he]
      · simp [hm, he, Ne.symm he]

theorem validateRules_ok (h : validateRules key rules owners = .ok owners') :
    (∀ rule ∈ rules, rule.Valid ∧ owners[rule.id]? = none) ∧ (rules.map Rule.id).Nodup ∧
      ∀ id, owners'[id]? = if id ∈ rules.map Rule.id then some key else owners[id]? := by
  unfold validateRules at h
  split at h
  · cases h
  next each =>
  split at h
  · cases h
  · cases h
    exact validateEach_ok each

/-! ## Normalized definitions -/

/-- The rules of one key as `normalizeDefinitions` leaves them. -/
structure KeyRules where
  rules : List Rule
  nonempty : rules ≠ []
  valid : ∀ rule ∈ rules, rule.Valid
  ids_nodup : (rules.map Rule.id).Nodup

def DisjointIDs (left right : Nat × KeyRules) : Prop :=
  ∀ a ∈ left.2.rules, ∀ b ∈ right.2.rules, a.id ≠ b.id

instance : Symm DisjointIDs where
  symm _ _ h a ha b hb := (h b hb a ha).symm

/-- The loop of `normalizeDefinitions` over the keys of the map. -/
def normalizeKeys : List (Nat × List Rule) → ExtTreeMap Nat Nat →
    Except String (List (Nat × KeyRules))
  | [], _ => .ok []
  | (accessKeyID, source) :: rest, owners =>
    if accessKeyID = 0 then
      .error "reconcile access quota runtime: access key ID is required"
    else if empty : source = [] then normalizeKeys rest owners
    else match checked : validateRules accessKeyID source owners with
      | .error message => .error message
      | .ok owners =>
        match normalizeKeys rest owners with
        | .error message => .error message
        | .ok normalized =>
          have perm := sortRules_perm source
          .ok ((accessKeyID,
            { rules := sortRules source
              nonempty := fun h => empty (nil_perm.mp (h ▸ perm))
              valid := fun rule hm =>
                ((validateRules_ok checked).1 rule (perm.mem_iff.mp hm)).1
              ids_nodup := (perm.map Rule.id).nodup_iff.mpr (validateRules_ok checked).2.1 }) ::
            normalized)

/-- What `normalizeKeys` guarantees: it keeps the keys with rules, in order, and no rule ID
occurs twice, neither among the listed keys nor among the owners seen before. -/
theorem normalizeKeys_ok (h : normalizeKeys source owners = .ok normalized) :
    (∀ entry ∈ source, entry.1 ≠ 0) ∧
      normalized.map (fun entry => (entry.1, entry.2.rules)) =
        (source.filter (·.2 ≠ [])).map (fun entry => (entry.1, sortRules entry.2)) ∧
      (∀ entry ∈ normalized, ∀ rule ∈ entry.2.rules, owners[rule.id]? = none) ∧
      normalized.Pairwise DisjointIDs := by
  induction source generalizing owners normalized with
  | nil =>
    cases h
    simp
  | cons head rest ih =>
    obtain ⟨key, rules⟩ := head
    rw [normalizeKeys] at h
    split at h
    · cases h
    next hkey =>
    split at h
    · next empty =>
      obtain ⟨keys, kept, free, distinct⟩ := ih h
      refine ⟨forall_mem_cons.mpr ⟨hkey, keys⟩, ?_, free, distinct⟩
      simpa [empty] using kept
    next nonempty =>
    split at h
    · cases h
    next owners' checked =>
    split at h
    · cases h
    next tail htail =>
    cases h
    obtain ⟨keys, kept, free, distinct⟩ := ih htail
    obtain ⟨each, -, after⟩ := validateRules_ok checked
    have perm := sortRules_perm rules
    have taken : ∀ entry ∈ tail, ∀ rule ∈ entry.2.rules,
        rule.id ∉ rules.map Rule.id ∧ owners[rule.id]? = none := by
      intro entry hm rule hr
      have hfree := free entry hm rule hr
      rw [after] at hfree
      by_cases hin : rule.id ∈ rules.map Rule.id
      · simp [hin] at hfree
      · exact ⟨hin, by simpa [hin] using hfree⟩
    refine ⟨forall_mem_cons.mpr ⟨hkey, keys⟩, ?_, ?_, ?_⟩
    · simpa [nonempty] using kept
    · intro entry hm rule hr
      rcases mem_cons.mp hm with rfl | hm
      · exact (each rule (perm.mem_iff.mp hr)).2
      · exact (taken entry hm rule hr).2
    refine pairwise_cons.mpr ⟨?_, distinct⟩
    intro entry hm a ha b hb he
    apply (taken entry hm b hb).1
    rw [← he]
    exact mem_map_of_mem (perm.mem_iff.mp ha)

/-- The result of `normalizeDefinitions`: a map from access keys to their rules in which every
rule ID occurs once. -/
structure Normalized where
  byKey : ExtTreeMap Nat KeyRules
  key_ne_zero : ∀ (key : Nat) (rules : KeyRules), byKey[key]? = some rules → key ≠ 0
  owner_unique : ∀ (left right : Nat) (rules rules' : KeyRules), byKey[left]? = some rules →
    byKey[right]? = some rules' → ∀ a ∈ rules.rules, ∀ b ∈ rules'.rules, a.id = b.id → left = right

abbrev Definitions := ExtTreeMap Nat (List Rule)

/-- The keys that `normalizeKeys` lists are distinct when those of the source are. -/
theorem normalizeKeys_nodup (h : normalizeKeys source owners = .ok normalized)
    (nodup : (source.map Prod.fst).Nodup) : (normalized.map Prod.fst).Nodup := by
  have kept := congrArg (map Prod.fst) (normalizeKeys_ok h).2.1
  simp only [map_map, Function.comp_def] at kept
  have hsub := (filter_sublist (l := source) (p := (·.2 ≠ []))).map Prod.fst
  rw [kept]
  exact hsub.nodup nodup

def normalizeDefinitions (definitions : Definitions) : Except String Normalized :=
  match checked : normalizeKeys definitions.toList ∅ with
  | .error message => .error message
  | .ok normalized =>
    have nodup := normalizeKeys_nodup checked (nodup_keys_toList definitions)
    .ok {
      byKey := ExtTreeMap.ofList normalized
      key_ne_zero := by
        intro key rules hm
        rw [lookup_ofList nodup] at hm
        obtain ⟨keys, kept, -⟩ := normalizeKeys_ok checked
        have listed : (key, rules.rules) ∈ normalized.map (fun e => (e.1, e.2.rules)) :=
          mem_map.mpr ⟨_, hm, rfl⟩
        rw [kept] at listed
        obtain ⟨e, he, heq⟩ := mem_map.mp listed
        have first : e.1 = key := congrArg Prod.fst heq
        exact first ▸ keys e (mem_of_mem_filter he)
      owner_unique := by
        intro left right rules rules' hl hr a ha b hb he
        rw [lookup_ofList nodup] at hl hr
        by_contra hne
        have distinct := (normalizeKeys_ok checked).2.2.2
        exact distinct.forall hl hr (fun h => hne (Prod.mk.inj h).1) a ha b hb he }

/-- A successful normalization keeps exactly the keys that have rules, with their rules in
canonical order. -/
theorem normalizeDefinitions_ok {normalized : Normalized}
    (h : normalizeDefinitions definitions = .ok normalized) (key : Nat) :
    normalized.byKey[key]?.map KeyRules.rules =
      (definitions[key]?.filter (· ≠ [])).map sortRules := by
  unfold normalizeDefinitions at h
  split at h
  · cases h
  next listed checked =>
  cases h
  have nodup := normalizeKeys_nodup checked (nodup_keys_toList definitions)
  obtain ⟨-, kept, -⟩ := normalizeKeys_ok checked
  ext rules
  have hmem : (key, rules) ∈ listed.map (fun e => (e.1, e.2.rules)) ↔
      (key, rules) ∈ (definitions.toList.filter (·.2 ≠ [])).map
        (fun e => (e.1, sortRules e.2)) := by rw [kept]
  simp only [mem_map, Prod.mk.injEq, Prod.exists, mem_filter,
    ExtTreeMap.mem_toList_iff_getElem?_eq_some] at hmem
  simp only [Option.map_eq_some_iff, lookup_ofList nodup, Option.filter_eq_some_iff]
  constructor
  · rintro ⟨kr, hk, rfl⟩
    obtain ⟨k, src, ⟨hs, hne⟩, rfl, hsort⟩ := hmem.mp ⟨key, kr, hk, rfl, rfl⟩
    exact ⟨src, ⟨hs, hne⟩, hsort⟩
  rintro ⟨src, ⟨hs, hne⟩, rfl⟩
  obtain ⟨k, kr, hk, rfl, hr⟩ := hmem.mpr ⟨key, src, ⟨hs, hne⟩, rfl, rfl⟩
  exact ⟨kr, hk, hr⟩

end ApiLoad.AccessQuota
