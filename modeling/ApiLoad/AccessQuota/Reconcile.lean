import ApiLoad.AccessQuota.RuleState

/-!
# What reconciliation installs

A successful `Reconcile` installs exactly the rules of the definitions. A rule that kept its
revision keeps its state, every other rule starts from zero. After `Restore` the first successful
`Reconcile` takes the state of every rule from the restored states instead, and there is one for
each rule and none left over.
-/
namespace ApiLoad.AccessQuota
open Std Foundation OrderedMap AccessKeyEntry List

def definitionAt (definitions : Definitions) (key id : Nat) : Option Rule :=
  definitions[key]?.bind (·.find? (·.id = id))

variable {definitions : Definitions} {normalized : Normalized} {key : Nat} {rules : KeyRules}
  {states left : ExtTreeMap Nat RestoredState}

theorem normalized_find (h : normalizeDefinitions definitions = .ok normalized) (key id : Nat) :
    normalized.byKey[key]?.bind (·.rules.find? (·.id = id)) = definitionAt definitions key id := by
  have kept := normalizeDefinitions_ok h key
  unfold definitionAt
  cases hs : definitions[key]? with
  | none =>
    rw [hs] at kept
    have : normalized.byKey[key]? = none := by simpa using kept
    simp [this]
  | some source =>
    rw [hs] at kept
    by_cases hempty : source = []
    · have : normalized.byKey[key]? = none := by
        simpa [hempty, Option.filter] using kept
      simp [this, hempty]
    have hk : normalized.byKey[key]?.map KeyRules.rules = some (sortRules source) := by
      simpa [hempty, Option.filter] using kept
    obtain ⟨rules, hr, hsort⟩ := Option.map_eq_some_iff.mp hk
    simp only [hr, Option.bind_some]
    rw [hsort]
    exact KeyedList.find_perm (sortRules_perm source) (hsort ▸ rules.ids_nodup) id

theorem byID_newAccessKeyEntry (rules : KeyRules) (id : Nat) :
    (newAccessKeyEntry rules).byID id =
      (rules.rules.find? (·.id = id)).map fun definition => { definition } := by
  simp only [byID, newAccessKeyEntry, find?_map, Function.comp_def]

/-! ## Without restored states -/

theorem reconcileEntry_ok (h : reconcileEntry entries key rules = .ok entry) (id : Nat) :
    entry.byID id = ((newAccessKeyEntry rules).byID id).map
      (fun rule => (entries[key]?.map (carryOver · rule)).getD rule) ∧
    ∀ current rule, entries[key]? = some current → (newAccessKeyEntry rules).byID id = some rule →
      changedWithoutRevision current rule = false := by
  unfold reconcileEntry at h
  cases he : entries[key]? with
  | none =>
    simp only [he] at h
    cases h
    simp
  | some current =>
    simp only [he] at h
    split at h
    · cases h
    next unchanged =>
    cases h
    refine ⟨by simp, ?_⟩
    rintro _ rule ⟨⟩ hrule
    have := find?_eq_none.mp unchanged rule (byID_eq_some.mp hrule).1
    simpa using this

/-- The state of a rule after `Reconcile`: fresh, or that of the previous rule if it had the same
revision. -/
def reconciled (previous : Option RuntimeRule) (definition : Rule) : RuntimeRule :=
  match previous with
  | none => { definition }
  | some previous =>
    if previous.definition.revision = definition.revision then
      cloneRuntimeState { definition } previous
    else { definition }

@[simp] theorem reconciled_definition (previous : Option RuntimeRule) (definition : Rule) :
    (reconciled previous definition).definition = definition := by
  unfold reconciled
  split
  · rfl
  · split <;> rfl

theorem carryOver_eq (current : AccessKeyEntry) (definition : Rule) :
    carryOver current { definition } = reconciled (current.byID definition.id) definition := by
  unfold carryOver previousState reconciled
  cases h : current.byID definition.id with
  | none => simp
  | some previous =>
    by_cases hr : previous.definition.revision = definition.revision
    · simp [hr, Option.filter]
    · simp [hr, Option.filter]

theorem lockEntry_of_normalized (h : normalized.byKey[key]? = some rules) (runtime : Runtime) :
    lockEntry runtime key = runtime.entries[key]? := by
  simp [lockEntry, normalized.key_ne_zero key rules h]

section

variable {runtime runtime' : Runtime} {definitions : Definitions}
  (h : reconcile runtime definitions = .ok runtime') (settled : runtime.restorePending = false)
include h settled

/-- `Reconcile` of a runtime without restored states. -/
theorem ruleAt_reconcile (key id : Nat) :
    ruleAt runtime' key id =
      (definitionAt definitions key id).map (reconciled (ruleAt runtime key id)) := by
  unfold reconcile at h
  split at h
  · cases h
  next normalized hn =>
  rw [settled] at h
  simp only [Bool.false_eq_true, if_false] at h
  split at h
  · cases h
  next entries ht =>
  cases h
  have entry_iff := traverse_ok ht key
  rw [← normalized_find hn]
  cases hk : normalized.byKey[key]? with
  | none =>
    have : entries[key]? = none := by
      rw [Option.eq_none_iff_forall_ne_some]
      intro entry he
      obtain ⟨rules, hr, -⟩ := (entry_iff entry).mp he
      rw [hk] at hr
      cases hr
    simp [ruleAt, lockEntry, this]
  | some rules =>
    obtain ⟨entry, he⟩ : ∃ entry, entries[key]? = some entry := by
      have total := (traverse_mem ht key).mpr ⟨rules, hk⟩
      exact total
    obtain ⟨rules', hr, hrec⟩ := (entry_iff entry).mp he
    rw [hk] at hr
    cases hr
    have hlock : ∀ rt : Runtime, lockEntry rt key = rt.entries[key]? :=
      lockEntry_of_normalized hk
    have hbyID := (reconcileEntry_ok hrec id).1
    rw [byID_newAccessKeyEntry] at hbyID
    simp only [ruleAt, hlock, he, Option.bind_some, hbyID, Option.map_map]
    refine Option.map_congr fun definition hd => ?_
    have hid : definition.id = id := by simpa using find?_some hd
    cases hc : runtime.entries[key]? with
    | none => simp [reconciled]
    | some current => simp [carryOver_eq, hid]

/-- `Reconcile` refuses a rule that kept its revision but not its kind or period. -/
theorem reconcile_same_shape {id : Nat} (hp : ruleAt runtime key id = some previous)
    (hd : definitionAt definitions key id = some definition)
    (hr : previous.definition.revision = definition.revision) :
    previous.definition.kind = definition.kind ∧
      previous.definition.periodSeconds = definition.periodSeconds := by
  unfold reconcile at h
  split at h
  · cases h
  next normalized hn =>
  rw [settled] at h
  simp only [Bool.false_eq_true, if_false] at h
  split at h
  · cases h
  next entries ht =>
  cases h
  rw [← normalized_find hn] at hd
  obtain ⟨rules, hk, hfind⟩ := Option.bind_eq_some_iff.mp hd
  obtain ⟨entry, he⟩ := (traverse_mem ht key).mpr ⟨rules, hk⟩
  obtain ⟨rules', hr', hrec⟩ := (traverse_ok ht key entry).mp he
  rw [hk] at hr'
  cases hr'
  rw [ruleAt, lockEntry_of_normalized hk] at hp
  obtain ⟨current, hc, hbyID⟩ := Option.bind_eq_some_iff.mp hp
  have hid : definition.id = id := by simpa using find?_some hfind
  have unchanged := (reconcileEntry_ok hrec id).2 current { definition } hc (by
    rw [byID_newAccessKeyEntry, hfind]
    rfl)
  simpa [changedWithoutRevision, previousState, RuntimeRule.id, hid, hbyID, hr,
    Option.filter] using unchanged

end

/-! ## With restored states -/

/-- The restored states hold one for this rule, and it fits. -/
def Restorable (states : ExtTreeMap Nat RestoredState) (key : Nat) (definition : Rule) : Prop :=
  ∃ state, states[definition.id]? = some state ∧ state.accessKeyID = key ∧
    state.ruleRevision = definition.revision ∧ checkRestoredShape definition state = .ok ()

/-- The rule with the state restored for it. -/
def loadFrom (states : ExtTreeMap Nat RestoredState) (rule : RuntimeRule) : RuntimeRule :=
  (states[rule.id]?.map rule.load).getD rule

@[simp] theorem loadFrom_definition (states : ExtTreeMap Nat RestoredState) (rule : RuntimeRule) :
    (loadFrom states rule).definition = rule.definition := by
  unfold loadFrom
  cases states[rule.id]? <;> rfl

/-- Two maps of states that agree on the ID of a rule load the same state. -/
theorem loadFrom_congr {states' : ExtTreeMap Nat RestoredState} {rule : RuntimeRule}
    (h : states[rule.id]? = states'[rule.id]?) : loadFrom states rule = loadFrom states' rule := by
  rw [loadFrom, loadFrom, h]

theorem restoreRules_ok {rules : List RuntimeRule} (nodup : (rules.map RuntimeRule.id).Nodup)
    (h : restoreRules key rules states = .ok (rules', left)) :
    (∀ rule ∈ rules, Restorable states key rule.definition) ∧
      rules' = rules.map (loadFrom states) ∧
      ∀ id, left[id]? = if id ∈ rules.map RuntimeRule.id then none else states[id]? := by
  induction rules generalizing states rules' with
  | nil =>
    cases h
    simp
  | cons rule rules ih =>
    rw [map_cons, nodup_cons] at nodup
    obtain ⟨absent, nodup⟩ := nodup
    rw [restoreRules] at h
    split at h
    · cases h
    next state hstate =>
    split at h
    · cases h
    next matches_ =>
    push Not at matches_
    split at h
    · cases h
    next loaded happly =>
    obtain ⟨hshape, rfl⟩ := applyRestoredState_ok happly
    split at h
    · cases h
    next tail rest htail =>
    cases h
    obtain ⟨each, heq, hleft⟩ := ih nodup htail
    have keep : ∀ other ∈ rules, (states.erase rule.id)[other.id]? = states[other.id]? := by
      intro other hm
      have : rule.id ≠ other.id := fun he => absent (he ▸ mem_map_of_mem hm)
      simp [this]
    refine ⟨?_, ?_, ?_⟩
    · intro other hm
      rcases mem_cons.mp hm with rfl | hm
      · exact ⟨state, hstate, matches_.1, matches_.2, hshape⟩
      · obtain ⟨found, hf, rest⟩ := each other hm
        exact ⟨found, (keep other hm).symm.trans hf, rest⟩
    · rw [heq, map_cons]
      congr 1
      · simp [loadFrom, hstate]
      · exact map_congr_left fun other hm => loadFrom_congr (keep other hm)
    · intro id
      rw [hleft, lookup_erase, map_cons]
      by_cases hin : id ∈ rules.map RuntimeRule.id
      · simp [hin]
      by_cases he : rule.id = id
      · simp [he]
      · simp [hin, he, Ne.symm he]

theorem restoreRules_total {rules : List RuntimeRule} (nodup : (rules.map RuntimeRule.id).Nodup)
    (each : ∀ rule ∈ rules, Restorable states key rule.definition) :
    ∃ out, restoreRules key rules states = .ok out := by
  induction rules generalizing states with
  | nil => exact ⟨_, rfl⟩
  | cons rule rules ih =>
    rw [map_cons, nodup_cons] at nodup
    obtain ⟨absent, nodup⟩ := nodup
    obtain ⟨state, hstate, hkey, hrevision, hshape⟩ := each rule mem_cons_self
    have tail : ∀ other ∈ rules, Restorable (states.erase rule.id) key other.definition := by
      intro other hm
      obtain ⟨found, hf, rest⟩ := each other (mem_cons_of_mem _ hm)
      have : rule.id ≠ other.id := fun he => absent (he ▸ mem_map_of_mem hm)
      exact ⟨found, by simpa [this] using hf, rest⟩
    obtain ⟨⟨tailRules, left⟩, htail⟩ := ih nodup tail
    refine ⟨(rule.load state :: tailRules, left), ?_⟩
    simp [restoreRules, hstate, hkey, hrevision, applyRestoredState, hshape, htail]

/-- The entry that `entriesFromRestore` builds for one key. -/
def restoredEntry (states : ExtTreeMap Nat RestoredState) (rules : KeyRules) : AccessKeyEntry :=
  (newAccessKeyEntry rules).mapRules (loadFrom states) fun rule => by simp [RuntimeRule.id]

theorem newAccessKeyEntry_ids (rules : KeyRules) :
    (newAccessKeyEntry rules).rules.map RuntimeRule.id = rules.rules.map Rule.id := by
  simp [newAccessKeyEntry, RuntimeRule.id, Function.comp_def]

theorem mem_newAccessKeyEntry {p : Rule → Prop} :
    (∀ rule ∈ (newAccessKeyEntry rules).rules, p rule.definition) ↔
      ∀ rule ∈ rules.rules, p rule := by
  simp [newAccessKeyEntry]

theorem restoreEntries_ok {definitions : List (Nat × KeyRules)}
    {entries : List (Nat × AccessKeyEntry)} (disjoint : definitions.Pairwise DisjointIDs)
    (h : restoreEntries definitions states = .ok (entries, left)) :
    (∀ e ∈ definitions, ∀ rule ∈ e.2.rules, Restorable states e.1 rule) ∧
      entries = definitions.map (fun e => (e.1, restoredEntry states e.2)) ∧
      ∀ id, left[id]? =
        if ∃ e ∈ definitions, id ∈ e.2.rules.map Rule.id then none else states[id]? := by
  induction definitions generalizing states entries with
  | nil =>
    cases h
    simp
  | cons head rest ih =>
    obtain ⟨key, rules⟩ := head
    obtain ⟨apart, disjoint⟩ := pairwise_cons.mp disjoint
    rw [restoreEntries] at h
    split at h
    · cases h
    next loaded left₁ hload =>
    split at h
    · cases h
    next tail left₂ htail =>
    cases h
    obtain ⟨here, hloaded, hleft⟩ := restoreRules_ok (newAccessKeyEntry rules).ids_nodup hload
    obtain ⟨each, heq, hkeep⟩ := ih disjoint htail
    -- The IDs of the later keys are untouched by the first one.
    have keep : ∀ e ∈ rest, ∀ rule ∈ e.2.rules, left₁[rule.id]? = states[rule.id]? := by
      intro e he rule hm
      rw [hleft, newAccessKeyEntry_ids, if_neg]
      rintro hin
      obtain ⟨first, hf, hid⟩ := mem_map.mp hin
      exact apart e he first hf rule hm hid
    refine ⟨?_, ?_, ?_⟩
    · intro e he
      rcases mem_cons.mp he with rfl | he
      · exact mem_newAccessKeyEntry.mp here
      intro rule hm
      obtain ⟨state, hs, fits⟩ := each e he rule hm
      exact ⟨state, (keep e he rule hm).symm.trans hs, fits⟩
    · rw [map_cons, heq]
      congr 1
      · simp only [restoredEntry, mapRules, Prod.mk.injEq, true_and]
        simp only [hloaded]
      refine map_congr_left fun e he => ?_
      have : restoredEntry left₁ e.2 = restoredEntry states e.2 := by
        simp only [restoredEntry, mapRules, mk.injEq]
        refine map_congr_left fun rule hm => loadFrom_congr ?_
        obtain ⟨definition, hd, rfl⟩ := mem_map.mp hm
        exact keep e he definition hd
      rw [this]
    · intro id
      rw [hkeep, hleft, newAccessKeyEntry_ids]
      simp only [exists_mem_cons_iff, ite_or]
      split_ifs <;> rfl

theorem restoreEntries_total {definitions : List (Nat × KeyRules)}
    (disjoint : definitions.Pairwise DisjointIDs)
    (each : ∀ e ∈ definitions, ∀ rule ∈ e.2.rules, Restorable states e.1 rule) :
    ∃ out, restoreEntries definitions states = .ok out := by
  induction definitions generalizing states with
  | nil => exact ⟨_, rfl⟩
  | cons head rest ih =>
    obtain ⟨key, rules⟩ := head
    obtain ⟨apart, disjoint⟩ := pairwise_cons.mp disjoint
    have nodup := (newAccessKeyEntry rules).ids_nodup
    have here := mem_newAccessKeyEntry.mpr (each (key, rules) mem_cons_self)
    obtain ⟨⟨loaded, left⟩, hload⟩ := restoreRules_total nodup here
    obtain ⟨-, -, hleft⟩ := restoreRules_ok nodup hload
    have tail : ∀ e ∈ rest, ∀ rule ∈ e.2.rules, Restorable left e.1 rule := by
      intro e he rule hm
      obtain ⟨state, hs, fits⟩ := each e (mem_cons_of_mem _ he) rule hm
      refine ⟨state, ?_, fits⟩
      rw [hleft, newAccessKeyEntry_ids, if_neg, hs]
      intro hin
      obtain ⟨first, hf, hid⟩ := mem_map.mp hin
      exact apart e he first hf rule hm hid
    obtain ⟨⟨entries, left'⟩, htail⟩ := ih disjoint tail
    refine ⟨((key, ⟨loaded, restoreRules_ids hload ▸ nodup⟩) :: entries, left'), ?_⟩
    rw [restoreEntries]
    split
    · next message herror =>
      rw [hload] at herror
      cases herror
    next rules' left'' hok =>
    rw [hload] at hok
    cases hok
    simp [htail]

theorem Normalized.pairwise (normalized : Normalized) :
    normalized.byKey.toList.Pairwise DisjointIDs := by
  have nodup := (nodup_keys_toList normalized.byKey).of_map
  refine nodup.pairwise_of_forall_ne fun left hl right hr hne a ha b hb hid => hne ?_
  have hleft := lookup_of_mem_toList hl
  have hright := lookup_of_mem_toList hr
  have hkey := normalized.owner_unique left.1 right.1 left.2 right.2 hleft hright a ha b hb hid
  rw [← hkey, hleft] at hright
  exact Prod.ext hkey (Option.some.inj hright)

section

variable {normalized : Normalized} {states : ExtTreeMap Nat RestoredState}

/-- The restored states are exactly those of the defined rules, and every entry is loaded from
them. -/
theorem entriesFromRestore_ok (h : entriesFromRestore normalized states = .ok entries) (key : Nat) :
    entries[key]? = normalized.byKey[key]?.map (restoredEntry states) ∧
      ∀ rules, normalized.byKey[key]? = some rules →
        ∀ rule ∈ rules.rules, Restorable states key rule := by
  unfold entriesFromRestore at h
  split at h
  · cases h
  next listed left hlisted =>
  split at h
  · cases h
  cases h
  obtain ⟨each, rfl, -⟩ := restoreEntries_ok normalized.pairwise hlisted
  refine ⟨lookup_ofList_map normalized.byKey (fun _ => restoredEntry states) key, ?_⟩
  intro rules hr
  exact each (key, rules) (mem_toList_of_lookup hr)

theorem entriesFromRestore_total
    (each : ∀ (key : Nat) (rules : KeyRules), normalized.byKey[key]? = some rules →
      ∀ rule ∈ rules.rules, Restorable states key rule)
    (defined : ∀ id state, states[id]? = some state → ∃ (key : Nat) (rules : KeyRules),
      normalized.byKey[key]? = some rules ∧ id ∈ rules.rules.map Rule.id) :
    ∃ entries, entriesFromRestore normalized states = .ok entries := by
  have pairwise := normalized.pairwise
  have restorable : ∀ e ∈ normalized.byKey.toList, ∀ rule ∈ e.2.rules,
      Restorable states e.1 rule := fun e he => each e.1 e.2 (lookup_of_mem_toList he)
  obtain ⟨⟨listed, left⟩, hlisted⟩ := restoreEntries_total pairwise restorable
  obtain ⟨-, -, hleft⟩ := restoreEntries_ok pairwise hlisted
  have empty : left.toList = [] := by
    rw [eq_nil_iff_forall_not_mem]
    rintro ⟨id, state⟩ hm
    have hs := lookup_of_mem_toList hm
    rw [hleft] at hs
    split_ifs at hs with hin
    obtain ⟨key, rules, hr, hid⟩ := defined id state hs
    exact hin ⟨(key, rules), mem_toList_of_lookup hr, hid⟩
  exact ⟨ExtTreeMap.ofList listed, by simp [entriesFromRestore, hlisted, empty]⟩

end

/-- The first `Reconcile` after a `Restore` takes every rule from the restored states. -/
theorem ruleAt_reconcile_restored (h : reconcile runtime definitions = .ok runtime')
    (pending : runtime.restorePending = true) (key id : Nat) :
    (ruleAt runtime' key id = (definitionAt definitions key id).map fun definition =>
      loadFrom runtime.restored { definition }) ∧
    ∀ definition, definitionAt definitions key id = some definition →
      Restorable runtime.restored key definition := by
  unfold reconcile at h
  split at h
  · cases h
  next normalized hn =>
  rw [pending] at h
  simp only [if_true] at h
  split at h
  · cases h
  next entries hentries =>
  cases h
  obtain ⟨hentry, each⟩ := entriesFromRestore_ok hentries key
  rw [← normalized_find hn]
  cases hk : normalized.byKey[key]? with
  | none =>
    rw [hk] at hentry
    have : entries[key]? = none := hentry
    simp [ruleAt, lockEntry, this]
  | some rules =>
    rw [hk] at hentry
    refine ⟨?_, ?_⟩
    · simp only [ruleAt, lockEntry_of_normalized hk, hentry, Option.map_some, Option.bind_some,
        restoredEntry, byID_mapRules, byID_newAccessKeyEntry, Option.map_map]
      rfl
    · intro definition hd
      exact each rules hk definition (mem_of_find?_eq_some hd)

end ApiLoad.AccessQuota
