import ApiLoad.AccessQuota.Checkpoint

/-!
# Checkpoints never lose state

`Consistent` relates the three parties. A row, and a snapshot in the hands of the worker, is
behind the rule it was taken from, and equal to it as long as the versions are equal. A row whose
revision the runtime does not have yet is still the zero state that the control plane wrote.
-/
namespace ApiLoad.AccessQuota
open Std Foundation List Option

attribute [local simp] System.initial Worker.snapshots

/-! ## The definitions of the database -/

def Database.committed (db : Database) (key id : Nat) : Option Rule :=
  db.rules[id]?.bind fun row => if row.accessKeyID = key then some (row.definition id) else none

theorem definitionAt_insert (definitions : Definitions) (target key id : Nat) (rule : Rule) :
    definitionAt (definitions.insert target (definitions.getD target [] ++ [rule])) key id =
      (definitionAt definitions key id).or
        (if target = key ∧ rule.id = id then some rule else none) := by
  unfold definitionAt
  by_cases ht : target = key
  swap
  · simp [ht]
  subst ht
  rw [OrderedMap.lookup_insert, if_pos rfl, ExtTreeMap.getD_eq_getD_getElem?]
  cases hd : definitions[target]? with
  | none => by_cases hid : rule.id = id <;> simp [hid]
  | some rules =>
    by_cases hid : rule.id = id <;> simp [find?_append, hid]

theorem definitionAt_fold {l : List (Nat × RuleRow)} (nodup : (l.map Prod.fst).Nodup)
    (definitions : Definitions) (key id : Nat) :
    definitionAt (l.foldl (fun definitions e =>
      definitions.insert e.2.accessKeyID
        (definitions.getD e.2.accessKeyID [] ++ [e.2.definition e.1])) definitions) key id =
      (definitionAt definitions key id).or ((l.find? (·.1 = id)).bind fun e =>
        if e.2.accessKeyID = key then some (e.2.definition id) else none) := by
  induction l generalizing definitions with
  | nil => simp
  | cons head rest ih =>
    obtain ⟨a, row⟩ := head
    rw [map_cons, nodup_cons] at nodup
    obtain ⟨absent, nodup⟩ := nodup
    rw [foldl_cons, ih nodup, definitionAt_insert, Option.or_assoc]
    congr 1
    by_cases ha : a = id
    · subst ha
      have none_later : rest.find? (·.1 = a) = none := by
        rw [find?_eq_none]
        intro e he hid
        have same : e.1 = a := by simpa using hid
        exact absent (mem_map.mpr ⟨e, he, same⟩)
      by_cases hk : row.accessKeyID = key <;> simp [none_later, hk, RuleRow.definition]
    · have : (row.definition a).id ≠ id := ha
      simp [ha, this]

theorem Database.definitionAt_eq (db : Database) (key id : Nat) :
    definitionAt db.definitions key id = db.committed key id := by
  have nodup := OrderedMap.nodup_keys_toList db.rules
  have found : db.rules.toList.find? (·.1 = id) = db.rules[id]?.map fun row => (id, row) := by
    ext ⟨a, row⟩
    rw [KeyedList.find_eq_some nodup, ExtTreeMap.mem_toList_iff_getElem?_eq_some]
    constructor
    · rintro ⟨h, rfl⟩
      simp [h]
    intro h
    obtain ⟨row', hr, he⟩ := map_eq_some_iff.mp h
    cases he
    exact ⟨hr, rfl⟩
  have empty : definitionAt ∅ key id = none := by simp [definitionAt]
  rw [definitions, definitionAt_fold nodup, found, empty, committed]
  cases db.rules[id]? <;> rfl

/-! ## Rows and rules -/

variable {row : StateRow} {runtime : Runtime}

def RuntimeRule.saved (rule : RuntimeRule) : StateRow := (restoredState 0 rule).row

/-- The row is a checkpoint of this revision of the rule, now or earlier, or of another one. -/
def Behind (row : StateRow) (rule : RuntimeRule) : Prop :=
  row.ruleRevision = rule.definition.revision →
    row.snapshotVersion ≤ rule.snapshotVersion ∧
      (row.snapshotVersion = rule.snapshotVersion → row = rule.saved)

/-- A request has changed the rule: it is marked and has the next version. -/
def Advanced (rule rule' : RuntimeRule) : Prop :=
  rule'.definition = rule.definition ∧ rule'.snapshotVersion = rule.snapshotVersion + 1 ∧
    rule'.dirty = true

theorem Behind.advanced (h : Behind row rule) (ha : Advanced rule rule') : Behind row rule' := by
  obtain ⟨hdef, hversion, -⟩ := ha
  intro hrev
  rw [hdef] at hrev
  have := (h hrev).1
  exact ⟨by omega, fun he => by omega⟩

theorem advanceVersion_advanced {rule rule' : RuntimeRule}
    (h : rule.snapshotVersion < MaxUint64) (hdef : rule'.definition = rule.definition)
    (hversion : rule'.snapshotVersion = rule.snapshotVersion) :
    Advanced rule (advanceVersion rule') :=
  ⟨hdef, by simp [advanceVersion, hversion, h], rfl⟩

theorem openWindow_advanced {rule : RuntimeRule} (h : rule.snapshotVersion < MaxUint64) :
    openWindow now rule = rule ∨ Advanced rule (openWindow now rule) := by
  by_cases ho : rule.definition.kind = .periodic ∧ periodicInactive rule now.unixMilli = true
  · rw [openWindow, if_pos ho]
    exact .inr (advanceVersion_advanced h rfl rfl)
  · exact .inl (openWindow_of_not ho)

theorem charge_advanced {rule : RuntimeRule} (h : rule.snapshotVersion < MaxUint64) :
    charge cost rule = rule ∨ Advanced rule (charge cost rule) := by
  unfold charge
  split_ifs
  · exact .inl rfl
  · exact .inr (advanceVersion_advanced h rfl rfl)

/-! ## The worker's reads -/

variable {key : Nat} {limit period : Int} {rest result : List RestoredState} {db' : Database}
  {outcome : PersistOutcome} {runtime' : Runtime} {definition : Rule} {state : RestoredState}
  {system system' : System} {row' : StateRow}

theorem mem_collectRules {snapshot : RestoredState}
    (h : snapshot ∈ collectRules limit key rules result) :
    snapshot ∈ result ∨ ∃ rule ∈ rules, snapshot = restoredState key rule := by
  induction rules generalizing result with
  | nil => exact .inl h
  | cons rule rules ih =>
    rw [collectRules] at h
    have here : ∀ {s}, s ∈ result ++ [restoredState key rule] →
        s ∈ result ∨ ∃ r ∈ rule :: rules, s = restoredState key r := by
      intro s hs
      rcases mem_append.mp hs with hs | hs
      · exact .inl hs
      · exact .inr ⟨rule, mem_cons_self, mem_singleton.mp hs⟩
    have later : (∃ r ∈ rules, snapshot = restoredState key r) →
        ∃ r ∈ rule :: rules, snapshot = restoredState key r := by
      rintro ⟨r, hr, he⟩
      exact ⟨r, mem_cons_of_mem _ hr, he⟩
    dsimp only at h
    split_ifs at h
    · exact here h
    · rcases ih h with hs | hs
      · exact here hs
      · exact .inr (later hs)
    rcases ih h with hs | hs
    · exact .inl hs
    · exact .inr (later hs)

theorem mem_collectKey {snapshot : RestoredState}
    (h : snapshot ∈ collectKey runtime limit key result) :
    snapshot ∈ result ∨ ∃ rule, ruleAt runtime key rule.id = some rule ∧
      snapshot = restoredState key rule := by
  unfold collectKey at h
  cases hl : lockEntry runtime key with
  | none => exact .inl (by simpa [hl] using h)
  | some entry =>
    rw [hl] at h
    rcases mem_collectRules h with hs | ⟨rule, hr, he⟩
    · exact .inl hs
    refine .inr ⟨rule, ?_, he⟩
    rw [ruleAt, hl]
    exact AccessKeyEntry.byID_eq_some.mpr ⟨hr, rfl⟩

/-! ## The worker's writes -/

variable {id : Nat} {snapshots : List RestoredState}

/-- Every rule has a state of its own revision. -/
structure Database.Paired (db : Database) : Prop where
  states_iff : ∀ id : Nat, db.states[id]? = none ↔ db.rules[id]? = none
  revision : ∀ (id : Nat) (rule : RuleRow) (row : StateRow), db.rules[id]? = some rule →
    db.states[id]? = some row → row.ruleRevision = rule.ruleRevision

theorem Database.Paired.rule {db : Database} (h : db.Paired) (hrow : db.states[id]? = some row) :
    ∃ rule, db.rules[id]? = some rule := by
  cases hr : db.rules[id]? with
  | none =>
    rw [(h.states_iff id).mpr hr] at hrow
    cases hrow
  | some rule => exact ⟨rule, rfl⟩

/-- What one conditional update does: it replaces an older row of the same revision, or the row is
not older, or there is none of that revision. -/
theorem persist_cases {snapshot : RestoredState}
    (h : persistAccessQuotaSnapshot db snapshot = .ok (db', outcome)) :
    (∃ row, db.states[snapshot.ruleID]? = some row ∧ row.Older snapshot ∧
      db' = { db with states := db.states.insert snapshot.ruleID snapshot.row }) ∨
    (db' = db ∧ (∀ row, db.states[snapshot.ruleID]? = some row → ¬ row.Older snapshot)) := by
  unfold persistAccessQuotaSnapshot at h
  split_ifs at h with hvalid holder
  · obtain ⟨row, hrow, hold⟩ := (any_eq_true _ _).mp holder
    cases h
    exact .inl ⟨row, hrow, by simpa using hold, rfl⟩
  refine .inr ?_
  have none_older : ∀ row, db.states[snapshot.ruleID]? = some row → ¬ row.Older snapshot := by
    intro row hrow hold
    apply holder
    rw [hrow]
    simpa using hold
  split at h
  · cases h
  · cases h
    exact ⟨rfl, none_older⟩

/-- What a committed transaction of the worker has done. -/
structure Written (db db' : Database) (snapshots : List RestoredState) : Prop where
  rules : db'.rules = db.rules
  nextID : db'.nextID = db.nextID
  absent : ∀ id : Nat, db.states[id]? = none → db'.states[id]? = none
  row : ∀ (id : Nat) (row : StateRow), db.states[id]? = some row →
    ∃ row', db'.states[id]? = some row' ∧ row'.ruleRevision = row.ruleRevision ∧
      row.snapshotVersion ≤ row'.snapshotVersion ∧
      (row' = row ∨ row.snapshotVersion < row'.snapshotVersion ∧
        ∃ snapshot ∈ snapshots, snapshot.ruleID = id ∧ row' = snapshot.row)
  current : ∀ snapshot ∈ snapshots, ∀ row, db'.states[snapshot.ruleID]? = some row →
    row.ruleRevision = snapshot.ruleRevision → snapshot.snapshotVersion ≤ row.snapshotVersion

/-- A row after the transaction, with the row it was before. -/
theorem Written.before (h : Written db db' snapshots) (hrow' : db'.states[id]? = some row') :
    ∃ row, db.states[id]? = some row ∧ row'.ruleRevision = row.ruleRevision ∧
      row.snapshotVersion ≤ row'.snapshotVersion ∧
      (row' = row ∨ row.snapshotVersion < row'.snapshotVersion ∧
        ∃ snapshot ∈ snapshots, snapshot.ruleID = id ∧ row' = snapshot.row) := by
  cases hrow : db.states[id]? with
  | none =>
    rw [h.absent id hrow] at hrow'
    cases hrow'
  | some row =>
    obtain ⟨row'', hrow'', moved⟩ := h.row id row hrow
    obtain rfl : row' = row'' := some.inj (hrow'.symm.trans hrow'')
    exact ⟨row, rfl, moved⟩

theorem persist_written {snapshot : RestoredState}
    (h : persistAccessQuotaSnapshot db snapshot = .ok (db', outcome)) :
    Written db db' [snapshot] := by
  rcases persist_cases h with ⟨old, hold, holder, rfl⟩ | ⟨rfl, hnone⟩
  · refine ⟨rfl, rfl, ?_, ?_, ?_⟩
    · intro id hid
      have : snapshot.ruleID ≠ id := fun he => by rw [he, hid] at hold; cases hold
      simp [this, hid]
    · intro id row hrow
      by_cases he : snapshot.ruleID = id
      · subst he
        rw [hold] at hrow
        cases hrow
        refine ⟨snapshot.row, by simp, holder.1.symm, holder.2.le, .inr ⟨holder.2, ?_⟩⟩
        exact ⟨snapshot, mem_singleton_self _, rfl, rfl⟩
      · exact ⟨row, by simp [he, hrow], rfl, le_rfl, .inl rfl⟩
    · intro other hm row hrow hrev
      rw [mem_singleton.mp hm] at hrow ⊢
      have hrow' : row = snapshot.row := by simpa using hrow.symm
      rw [hrow']
      exact le_rfl
  · refine ⟨rfl, rfl, fun _ h => h, fun id row hrow => ⟨row, hrow, rfl, le_rfl, .inl rfl⟩, ?_⟩
    intro other hm row hrow hrev
    rw [mem_singleton.mp hm] at hrow hrev ⊢
    by_contra hlt
    exact hnone row hrow ⟨hrev, by omega⟩

theorem Written.trans (h : Written db db' first) (h' : Written db' db'' rest) :
    Written db db'' (first ++ rest) where
  rules := h'.rules.trans h.rules
  nextID := h'.nextID.trans h.nextID
  absent id hid := h'.absent id (h.absent id hid)
  row id row hrow := by
    obtain ⟨mid, hmid, hrev, hle, hcase⟩ := h.row id row hrow
    obtain ⟨last, hlast, hrev', hle', hcase'⟩ := h'.row id mid hmid
    refine ⟨last, hlast, hrev'.trans hrev, hle.trans hle', ?_⟩
    rcases hcase' with rfl | ⟨hlt, snapshot, hm, hid, he⟩
    · rcases hcase with rfl | ⟨hlt, snapshot, hm, hid, he⟩
      · exact .inl rfl
      · exact .inr ⟨hlt, snapshot, mem_append_left _ hm, hid, he⟩
    · exact .inr ⟨hle.trans_lt hlt, snapshot, mem_append_right _ hm, hid, he⟩
  current snapshot hm row hrow hrev := by
    rcases mem_append.mp hm with hm | hm
    · obtain ⟨mid, hmid, hrev', hle, -⟩ := h'.before hrow
      exact (h.current snapshot hm mid hmid (hrev'.symm.trans hrev)).trans hle
    · exact h'.current snapshot hm row hrow hrev

theorem writeSnapshots_written {db : Database} (h : writeSnapshots db snapshots = .ok db') :
    Written db db' snapshots := by
  induction snapshots generalizing db with
  | nil =>
    cases h
    exact ⟨rfl, rfl, fun _ h => h, fun id row hrow => ⟨row, hrow, rfl, le_rfl, .inl rfl⟩, by simp⟩
  | cons first rest ih =>
    rw [writeSnapshots] at h
    split at h
    · cases h
    · next mid outcome hfirst => exact (persist_written hfirst).trans (ih h)

theorem Written.paired (h : Written db db' snapshots) (hp : db.Paired) :
    db'.Paired where
  states_iff id := by
    rw [h.rules, ← hp.states_iff id]
    refine ⟨fun hnone => ?_, h.absent id⟩
    cases hs : db.states[id]? with
    | none => rfl
    | some row =>
      obtain ⟨row', hrow', -⟩ := h.row id row hs
      rw [hrow'] at hnone
      cases hnone
  revision id rule row hrule hrow := by
    rw [h.rules] at hrule
    obtain ⟨old, hold, hrev, -⟩ := h.before hrow
    exact hrev.trans (hp.revision id rule old hrule hold)

/-! ## The invariant -/

variable {worker : Worker}

def Worker.written : Worker → List RestoredState
  | .acking snapshots => snapshots
  | _ => []

/-- A snapshot in the hands of the worker was taken from the rule it names. -/
structure Held (runtime : Runtime) (db : Database) (snapshot : RestoredState) : Prop where
  id_lt : snapshot.ruleID < db.nextID
  owner : ∀ rule, db.rules[snapshot.ruleID]? = some rule →
    rule.accessKeyID = snapshot.accessKeyID ∧ snapshot.ruleRevision ≤ rule.ruleRevision
  behind : ∀ rule, ruleAt runtime snapshot.accessKeyID snapshot.ruleID = some rule →
    Behind snapshot.row rule

/-- The row is a checkpoint of the rule, and a current one unless the rule is marked. -/
structure Covered (row : StateRow) (rule : RuntimeRule) : Prop where
  behind : Behind row rule
  clean : rule.dirty = false → row.ruleRevision = rule.definition.revision → row = rule.saved

/-- The rule is installed, or its row is still what the control plane wrote. -/
def InstalledOrNew (runtime : Runtime) (snapshots : List RestoredState) (id : Nat)
    (rule : RuleRow) (row : StateRow) : Prop :=
  Configured runtime rule.accessKeyID id rule.ruleRevision ∨
    row = { ruleRevision := rule.ruleRevision } ∧
      ∀ snapshot ∈ snapshots, snapshot.ruleID = id → snapshot.ruleRevision ≠ rule.ruleRevision

structure Consistent (system : System) : Prop where
  settled : system.runtime.restorePending = false
  paired : system.db.Paired
  id_lt : ∀ id rule, system.db.rules[id]? = some rule → id < system.db.nextID
  configured : ∀ key id rule, ruleAt system.runtime key id = some rule →
    id < system.db.nextID ∧ ∀ row, system.db.rules[id]? = some row →
      row.accessKeyID = key ∧ rule.definition.revision ≤ row.ruleRevision
  covered : ∀ key id rule row, ruleAt system.runtime key id = some rule →
    system.db.states[id]? = some row → Covered row rule
  installed : ∀ id rule row, system.db.rules[id]? = some rule →
    system.db.states[id]? = some row →
      InstalledOrNew system.runtime system.worker.snapshots id rule row
  held : ∀ snapshot ∈ system.worker.snapshots, Held system.runtime system.db snapshot
  current : ∀ snapshot ∈ system.worker.written, ∀ row,
    system.db.states[snapshot.ruleID]? = some row →
      row.ruleRevision = snapshot.ruleRevision → snapshot.snapshotVersion ≤ row.snapshotVersion

theorem consistent_initial : Consistent System.initial where
  settled := rfl
  paired := ⟨by simp, by simp⟩
  id_lt := by simp
  configured := by simp [ruleAt, lockEntry, newRuntime]
  covered := by simp
  installed := by simp
  held := by simp
  current := by simp [Worker.written]

/-- A rule has its definition, and every checkpoint of it still is one. -/
structure Continues (stored : Option StateRow) (rule rule' : RuntimeRule) : Prop where
  definition : rule'.definition = rule.definition
  behind : ∀ row, Behind row rule → Behind row rule'
  covered : ∀ row, stored = some row → Covered row rule → Covered row rule'

section

variable {stored : Option StateRow}

theorem Continues.refl (rule : RuntimeRule) : Continues stored rule rule :=
  ⟨rfl, fun _ h => h, fun _ _ h => h⟩

/-- A request leaves a rule alone or advances it. -/
theorem continues_of_request (h : rule' = rule ∨ Advanced rule rule') :
    Continues stored rule rule' := by
  obtain rfl | advanced := h
  · exact .refl rule'
  refine ⟨advanced.1, fun _ h => h.advanced advanced, fun row _ h => ?_⟩
  refine ⟨h.behind.advanced advanced, fun clean => ?_⟩
  rw [advanced.2.2] at clean
  cases clean

/-- If the acknowledged version is stored, a rule that loses its mark has a current row. -/
theorem ackRule_continues {revision version : Nat} (rule : RuntimeRule)
    (written : ∀ row, stored = some row → row.ruleRevision = revision →
      version ≤ row.snapshotVersion) :
    Continues stored rule (ackRule revision version rule) := by
  unfold ackRule
  split_ifs with stale
  · exact .refl rule
  push Not at stale
  refine ⟨rfl, fun _ h => h, fun row hrow h => ⟨h.behind, fun _ hrev => ?_⟩⟩
  obtain ⟨hge, heq⟩ := h.behind hrev
  have hle := written row hrow (hrev.trans stale.1)
  exact heq (by omega)

end

/-- A change of the rules of the runtime, each on its own. -/
theorem Consistent.change (h : Consistent ⟨runtime, db, worker⟩)
    (change : Nat → Nat → RuntimeRule → RuntimeRule) (settled : runtime'.restorePending = false)
    (after : ∀ key id, ruleAt runtime' key id = (ruleAt runtime key id).map (change key id))
    (continues : ∀ key id rule, ruleAt runtime key id = some rule →
      Continues db.states[id]? rule (change key id rule)) :
    Consistent ⟨runtime', db, worker⟩ := by
  have before {key id rule'} (hr' : ruleAt runtime' key id = some rule') :
      ∃ rule, ruleAt runtime key id = some rule ∧ Continues db.states[id]? rule rule' := by
    rw [after] at hr'
    obtain ⟨rule, hr, rfl⟩ := map_eq_some_iff.mp hr'
    exact ⟨rule, hr, continues key id rule hr⟩
  refine ⟨settled, h.paired, h.id_lt, ?_, ?_, ?_, ?_, h.current⟩
  · intro key id rule' hr'
    obtain ⟨rule, hr, same⟩ := before hr'
    rw [same.definition]
    exact h.configured key id rule hr
  · intro key id rule' row hr' hrow
    obtain ⟨rule, hr, same⟩ := before hr'
    exact same.covered row hrow (h.covered key id rule row hr hrow)
  · intro id rule row hrule hrow
    refine (h.installed id rule row hrule hrow).imp_left ?_
    rintro ⟨r, hr, hrev⟩
    exact ⟨_, by rw [after, hr]; rfl, by rw [(continues _ id r hr).definition, hrev]⟩
  · intro snapshot hm
    have hheld := h.held snapshot hm
    refine ⟨hheld.id_lt, hheld.owner, fun rule' hr' => ?_⟩
    obtain ⟨rule, hr, same⟩ := before hr'
    exact same.behind _ (hheld.behind rule hr)

theorem Consistent.admit (h : Consistent ⟨runtime, db, worker⟩) (below : VersionsBelow runtime)
    (target : Nat) (now : Time) : Consistent ⟨(admitKey runtime target now).1, db, worker⟩ := by
  refine h.change (fun key _ rule =>
    if target = key ∧ (check runtime target now).allowed then openWindow now rule else rule)
    (by simpa using h.settled) (fun key id => ?_) fun key id rule hr => continues_of_request ?_
  · rw [ruleAt_admitKey]
    split_ifs <;> simp
  · split_ifs
    · exact openWindow_advanced (below key id rule hr)
    · exact .inl rfl

theorem Consistent.complete (h : Consistent ⟨runtime, db, worker⟩) (below : VersionsBelow runtime)
    (ticket : Ticket) (cost : Int) :
    Consistent ⟨(complete runtime ticket cost).1, db, worker⟩ := by
  refine h.change _ (by simpa using h.settled) (ruleAt_complete runtime ticket cost)
    fun key id rule hr => continues_of_request ?_
  split_ifs
  · exact charge_advanced (below key id rule hr)
  · exact .inl rfl

/-- Reconciling a rule that keeps its revision keeps what a checkpoint of it holds. -/
theorem reconciled_saved {previous : RuntimeRule}
    (h : previous.definition.revision = definition.revision) :
    (reconciled (some previous) definition).saved = previous.saved ∧
      (reconciled (some previous) definition).dirty = previous.dirty := by
  simp only [reconciled, if_pos h]
  refine ⟨?_, rfl⟩
  simp only [RuntimeRule.saved, restoredState, RestoredState.row, cloneRuntimeState, h]

theorem Behind.congr {rule' : RuntimeRule} (h : Behind row rule)
    (saved : rule'.saved = rule.saved) :
    Behind row rule' := by
  have hrev : rule'.definition.revision = rule.definition.revision :=
    congrArg StateRow.ruleRevision saved
  have hversion : rule'.snapshotVersion = rule.snapshotVersion :=
    congrArg StateRow.snapshotVersion saved
  intro he
  rw [hrev] at he
  rw [hversion, saved]
  exact h he

/-- A row that equals the checkpoint of the rule is behind it. -/
theorem behind_saved {rule : RuntimeRule} (h : row = rule.saved) : Behind row rule := by
  subst h
  exact fun _ => ⟨le_rfl, fun _ => rfl⟩

theorem committed_iff {db : Database} :
    db.committed key id = some definition ↔
      ∃ row, db.rules[id]? = some row ∧ row.accessKeyID = key ∧
        definition = row.definition id := by
  unfold Database.committed
  constructor
  · intro h
    obtain ⟨row, hrow, hif⟩ := bind_eq_some_iff.mp h
    split_ifs at hif with hkey
    cases hif
    exact ⟨row, hrow, hkey, rfl⟩
  · rintro ⟨row, hrow, hkey, rfl⟩
    simp [hrow, hkey]

theorem Consistent.reconcile (h : Consistent ⟨runtime, db, worker⟩)
    (ok : reconcile runtime db.definitions = .ok runtime') : Consistent ⟨runtime', db, worker⟩ := by
  have after : ∀ key id, ruleAt runtime' key id =
      (db.committed key id).map (reconciled (ruleAt runtime key id)) := by
    intro key id
    rw [ruleAt_reconcile ok h.settled, db.definitionAt_eq]
  -- The state of a rule whose revision was installed before is kept.
  have kept : ∀ key id rule' , ruleAt runtime' key id = some rule' →
      ∃ row, db.rules[id]? = some row ∧ row.accessKeyID = key ∧
        rule'.definition = row.definition id ∧
        ((∃ rule, ruleAt runtime key id = some rule ∧ rule'.saved = rule.saved ∧
          rule'.dirty = rule.dirty) ∨
        (¬ Configured runtime key id row.ruleRevision ∧
          rule' = { definition := row.definition id })) := by
    intro key id rule' hr'
    rw [after] at hr'
    obtain ⟨definition, hd, rfl⟩ := map_eq_some_iff.mp hr'
    obtain ⟨row, hrow, hkey, rfl⟩ := committed_iff.mp hd
    refine ⟨row, hrow, hkey, by simp, ?_⟩
    by_cases hc : Configured runtime key id row.ruleRevision
    · obtain ⟨rule, hr, hrev⟩ := hc
      rw [hr]
      exact .inl ⟨rule, rfl, reconciled_saved hrev⟩
    refine .inr ⟨hc, ?_⟩
    cases hp : ruleAt runtime key id with
    | none => rfl
    | some previous =>
      have : previous.definition.revision ≠ (row.definition id).revision := fun he =>
        hc ⟨previous, hp, he⟩
      simp [reconciled, this]
  refine ⟨reconcile_settles ok, h.paired, h.id_lt, ?_, ?_, ?_, ?_, h.current⟩
  · intro key id rule' hr'
    obtain ⟨row, hrow, hkey, hdef, -⟩ := kept key id rule' hr'
    refine ⟨h.id_lt id row hrow, fun row' hrow' => ?_⟩
    rw [hrow] at hrow'
    cases hrow'
    exact ⟨hkey, by rw [hdef]; rfl⟩
  · intro key id rule' state hr' hstate
    obtain ⟨row, hrow, hkey, -, hcase⟩ := kept key id rule' hr'
    rcases hcase with ⟨rule, hr, hsaved, hdirty⟩ | ⟨hnew, rfl⟩
    · have hcov := h.covered key id rule state hr hstate
      refine ⟨hcov.behind.congr hsaved, fun hclean hrev => ?_⟩
      have hrule : rule'.definition.revision = rule.definition.revision :=
        congrArg StateRow.ruleRevision hsaved
      rw [hsaved]
      exact hcov.clean (hdirty ▸ hclean) (hrev.trans hrule)
    · rcases h.installed id row state hrow hstate with hc | ⟨hzero, -⟩
      · exact absurd (hkey ▸ hc) hnew
      · have hsaved : state = RuntimeRule.saved { definition := row.definition id } := hzero
        exact ⟨behind_saved hsaved, fun _ _ => hsaved⟩
  · intro id rule row hrule hrow
    refine .inl ⟨reconciled (ruleAt runtime rule.accessKeyID id) (rule.definition id), ?_,
      by simp [RuleRow.definition]⟩
    rw [after, committed_iff.mpr ⟨rule, hrule, rfl, rfl⟩]
    rfl
  · intro snapshot hm
    have hheld := h.held snapshot hm
    refine ⟨hheld.id_lt, hheld.owner, fun rule' hr' => ?_⟩
    obtain ⟨row, hrow, hkey, hdef, hcase⟩ := kept _ _ rule' hr'
    rcases hcase with ⟨rule, hr, hsaved, -⟩ | ⟨hnew, rfl⟩
    · exact (hheld.behind rule hr).congr hsaved
    -- No snapshot of a revision exists before it is installed.
    intro hrev
    obtain ⟨state, hstate⟩ : ∃ state, db.states[snapshot.ruleID]? = some state := by
      cases hs : db.states[snapshot.ruleID]? with
      | none =>
        rw [(h.paired.states_iff _).mp hs] at hrow
        cases hrow
      | some state => exact ⟨state, rfl⟩
    rcases h.installed _ row state hrow hstate with hc | ⟨-, hnone⟩
    · exact absurd (hkey ▸ hc) hnew
    · exact absurd hrev (hnone snapshot hm rfl)

/-! ## Steps of the control plane -/

theorem mem_written {snapshot : RestoredState} (h : snapshot ∈ worker.written) :
    snapshot ∈ worker.snapshots := by
  cases worker with
  | acking snapshots => exact h
  | _ => simp [Worker.written] at h

/-- What a change of the control plane does to a rule: it is gone, or its owner, revision and state
are kept, or it has a zero state of a new revision. -/
inductive Change (db db' : Database) (id : Nat) : Prop
  | gone (rules : db'.rules[id]? = none) (states : db'.states[id]? = none)
  | kept {rule rule' : RuleRow} (old : db.rules[id]? = some rule)
    (new : db'.rules[id]? = some rule')
      (owner : rule.accessKeyID = rule'.accessKeyID)
      (revision : rule.ruleRevision = rule'.ruleRevision)
      (states : db'.states[id]? = db.states[id]?)
  | renewed {rule' : RuleRow} (new : db'.rules[id]? = some rule')
      (states : db'.states[id]? = some { ruleRevision := rule'.ruleRevision })
      (id_lt : id < db'.nextID)
      (old : db.nextID ≤ id ∨ ∃ rule, db.rules[id]? = some rule ∧
        rule.accessKeyID = rule'.accessKeyID ∧ rule.ruleRevision < rule'.ruleRevision)

structure Evolves (db db' : Database) : Prop where
  nextID : db.nextID ≤ db'.nextID
  change : ∀ id, Change db db' id

theorem Database.Paired.same {db : Database} (h : db.Paired)
    (rules : db'.rules[id]? = db.rules[id]?) (states : db'.states[id]? = db.states[id]?) :
    Change db db' id := by
  cases hrule : db.rules[id]? with
  | none => exact .gone (rules.trans hrule) (states.trans ((h.states_iff id).mpr hrule))
  | some rule => exact .kept hrule (rules.trans hrule) rfl rfl states

theorem create_evolves {db : Database} (h : db.Paired) (key : Nat) (kind : Kind)
    (limit period : Int) : Evolves db (createRule db key kind limit period) where
  nextID := Nat.le_succ _
  change id := by
    by_cases hid : db.nextID = id
    · subst hid
      exact .renewed (ExtTreeMap.getElem?_insert_self ..) (ExtTreeMap.getElem?_insert_self ..)
        (Nat.lt_succ_self _) (.inl le_rfl)
    · exact h.same (by simp [createRule, hid]) (by simp [createRule, hid])

theorem advanceRevision_ok (h : advanceRevision db id period = .ok db') :
    ∃ rule row, db.rules[id]? = some rule ∧ db.states[id]? = some row ∧
      row.ruleRevision = rule.ruleRevision ∧
      db' = { db with
        rules := db.rules.insert id
          { rule with periodSeconds := period, ruleRevision := rule.ruleRevision + 1 }
        states := db.states.insert id { ruleRevision := rule.ruleRevision + 1 } } := by
  unfold advanceRevision at h
  split at h
  · cases h
  next rule hrule =>
  split_ifs at h
  unfold resetState at h
  dsimp only at h
  split_ifs at h with hrow
  obtain ⟨row, hs, hrev⟩ := (any_eq_true _ _).mp hrow
  cases h
  exact ⟨rule, row, hrule, hs, by simpa using hrev, rfl⟩

theorem advance_evolves {db : Database} (h : db.Paired)
    (id_lt : ∀ id rule, db.rules[id]? = some rule → id < db.nextID)
    (ok : advanceRevision db id period = .ok db') : Evolves db db' := by
  obtain ⟨rule, row, hrule, hrow, hrev, rfl⟩ := advanceRevision_ok ok
  refine ⟨le_rfl, fun other => ?_⟩
  by_cases he : id = other
  · subst he
    exact .renewed (ExtTreeMap.getElem?_insert_self ..) (ExtTreeMap.getElem?_insert_self ..)
      (id_lt id rule hrule) (.inr ⟨rule, hrule, rfl, Nat.lt_succ_self _⟩)
  · exact h.same (by simp [he]) (by simp [he])

/-- The invariant reads of a rule row its owner and revision only. -/
theorem limit_evolves {db : Database} (h : db.Paired) (id : Nat) (limit : Int) :
    Evolves db (changeLimit db id limit) := by
  unfold changeLimit
  cases hrule : db.rules[id]? with
  | none => exact ⟨le_rfl, fun other => h.same rfl rfl⟩
  | some rule =>
    refine ⟨le_rfl, fun other => ?_⟩
    by_cases he : id = other
    · subst he
      exact .kept hrule (ExtTreeMap.getElem?_insert_self ..) rfl rfl rfl
    · exact h.same (by simp [he]) rfl

theorem delete_evolves {db : Database} (h : db.Paired) (id : Nat) :
    Evolves db (deleteRule db id) where
  nextID := le_rfl
  change other := by
    by_cases he : id = other
    · exact .gone (by simp [deleteRule, he]) (by simp [deleteRule, he])
    · exact h.same (by simp [deleteRule, he]) (by simp [deleteRule, he])

theorem Evolves.paired (e : Evolves db db') (h : db.Paired) : db'.Paired where
  states_iff id := by
    have := h.states_iff id
    cases e.change id <;> grind
  revision id rule row hrule hrow := by
    have := h.revision id
    cases e.change id <;> grind

theorem Consistent.evolve {db : Database} (h : Consistent ⟨runtime, db, worker⟩)
    (e : Evolves db db') : Consistent ⟨runtime, db', worker⟩ := by
  have hnext := e.nextID
  refine ⟨h.settled, e.paired h.paired, ?_, ?_, ?_, ?_, ?_, ?_⟩ <;> dsimp only
  · intro id rule hrule
    have := h.id_lt id
    cases e.change id <;> grind
  · intro key id rule hr
    have := h.configured key id rule hr
    cases e.change id <;> grind
  · intro key id rule row hr hrow
    have hconfigured := h.configured key id rule hr
    have hcovered := h.covered key id rule row hr
    cases e.change id with
    | gone | kept => grind
    | renewed _ states _ old =>
      -- The runtime still has an older revision.
      have hne : row.ruleRevision ≠ rule.definition.revision := by grind
      exact ⟨fun heq => absurd heq hne, fun _ heq => absurd heq hne⟩
  · intro id rule row hrule hrow
    have hinstalled := h.installed id
    have hheld := h.held
    unfold InstalledOrNew at *
    cases e.change id with
    | gone | kept => grind
    | renewed new states _ old =>
      refine .inr ⟨by grind, fun snapshot hm hid => ?_⟩
      have := hheld snapshot hm
      have := this.id_lt
      have := (hheld snapshot hm).owner
      grind
  · intro snapshot hm
    obtain ⟨hlt, howner, hbehind⟩ := h.held snapshot hm
    refine ⟨by grind, fun rule hrule => ?_, hbehind⟩
    cases e.change snapshot.ruleID <;> grind
  · intro snapshot hm row hrow hrev
    obtain ⟨hlt, howner, -⟩ := h.held snapshot (mem_written hm)
    have := h.current snapshot hm row
    cases e.change snapshot.ruleID <;> grind

/-! ## Steps of the worker -/

/-- A worker that holds fewer snapshots, or some just read from the runtime. -/
theorem Consistent.hold {worker' : Worker} (h : Consistent ⟨runtime, db, worker⟩)
    (written : worker'.written ⊆ worker.written)
    (source : ∀ snapshot ∈ worker'.snapshots, snapshot ∈ worker.snapshots ∨ ∃ key rule, ruleAt
      runtime key rule.id = some rule ∧ snapshot = restoredState key rule) :
    Consistent ⟨runtime, db, worker'⟩ := by
  refine ⟨h.settled, h.paired, h.id_lt, h.configured, h.covered, ?_, ?_,
    fun snapshot hm => h.current snapshot (written hm)⟩
  · intro id rule row hrule hrow
    rcases h.installed id rule row hrule hrow with hc | ⟨hzero, hnone⟩
    · exact .inl hc
    by_cases hc : Configured runtime rule.accessKeyID id rule.ruleRevision
    · exact .inl hc
    refine .inr ⟨hzero, fun snapshot hm hid hrev => ?_⟩
    rcases source snapshot hm with hold | ⟨key, r, hr, rfl⟩
    · exact hnone snapshot hold hid hrev
    have hid' : r.id = id := hid
    rw [hid'] at hr
    have hkey := ((h.configured key id r hr).2 rule hrule).1
    exact hc ⟨r, hkey ▸ hr, hrev⟩
  · intro snapshot hm
    rcases source snapshot hm with hold | ⟨key, r, hr, rfl⟩
    · exact h.held snapshot hold
    obtain ⟨hlt, hsame⟩ := h.configured key r.id r hr
    refine ⟨hlt, fun rule hrule => hsame rule hrule, fun rule hrule => ?_⟩
    have : some r = some rule := hr.symm.trans hrule
    cases this
    exact behind_saved rfl

theorem Consistent.write (h : Consistent ⟨runtime, db, .writing snapshots⟩)
    (ok : writeSnapshots db snapshots = .ok db') :
    Consistent ⟨runtime, db', .acking snapshots⟩ := by
  have hw := writeSnapshots_written ok
  refine ⟨h.settled, hw.paired h.paired, ?_, ?_, ?_, ?_, ?_, hw.current⟩
  · intro id rule hrule
    rw [hw.rules] at hrule
    rw [hw.nextID]
    exact h.id_lt id rule hrule
  · intro key id rule hr
    rw [hw.rules, hw.nextID]
    exact h.configured key id rule hr
  · intro key id rule row' hr hrow'
    obtain ⟨row, hrow, hrev, -, hcase⟩ := hw.before hrow'
    have hcov := h.covered key id rule row hr hrow
    rcases hcase with rfl | ⟨hlt, snapshot, hm, rfl, rfl⟩
    · exact hcov
    have hheld := h.held snapshot hm
    have hkey : snapshot.accessKeyID = key := by
      obtain ⟨owner, howner⟩ := h.paired.rule hrow
      exact (hheld.owner owner howner).1.symm.trans
        ((h.configured key _ rule hr).2 owner howner).1
    have hbehind := hheld.behind rule (hkey ▸ hr)
    refine ⟨hbehind, fun hclean hrev' => ?_⟩
    -- An unmarked rule had a current row already, so nothing newer was written.
    have hrow_rev : row.ruleRevision = rule.definition.revision := hrev.symm.trans hrev'
    have hsaved := hcov.clean hclean hrow_rev
    have hversion : row.snapshotVersion = rule.snapshotVersion :=
      congrArg StateRow.snapshotVersion hsaved
    have := (hbehind hrev').1
    omega
  · intro id rule row' hrule hrow'
    rw [hw.rules] at hrule
    obtain ⟨row, hrow, hrev, -, hcase⟩ := hw.before hrow'
    rcases h.installed id rule row hrule hrow with hc | ⟨hzero, hnone⟩
    · exact .inl hc
    rcases hcase with rfl | ⟨-, snapshot, hm, hid, rfl⟩
    · exact .inr ⟨hzero, hnone⟩
    · exact absurd (hrev.trans (h.paired.revision id rule row hrule hrow))
        (hnone snapshot hm hid)
  · intro snapshot hm
    have hheld := h.held snapshot hm
    refine ⟨hw.nextID ▸ hheld.id_lt, fun rule hrule => ?_, hheld.behind⟩
    rw [hw.rules] at hrule
    exact hheld.owner rule hrule

theorem Consistent.ack {snapshot : RestoredState}
    (h : Consistent ⟨runtime, db, .acking (snapshot :: rest)⟩) :
    Consistent ⟨ack runtime snapshot.accessKeyID snapshot.ruleID snapshot.ruleRevision
      snapshot.snapshotVersion, db, .acking rest⟩ := by
  -- Only the mark of the named rule can change.
  have acked : Consistent ⟨AccessQuota.ack runtime snapshot.accessKeyID snapshot.ruleID
      snapshot.ruleRevision snapshot.snapshotVersion, db, .acking (snapshot :: rest)⟩ := by
    refine h.change (fun key id rule =>
      if snapshot.accessKeyID = key ∧ snapshot.ruleID = id then
        ackRule snapshot.ruleRevision snapshot.snapshotVersion rule
      else rule) (by simpa using h.settled) (fun key id => ?_) fun key id rule _ => ?_
    · rw [ruleAt_ack]
      split_ifs <;> simp
    · split_ifs with named
      · exact ackRule_continues rule (named.2 ▸ h.current snapshot mem_cons_self)
      · exact .refl rule
  exact acked.hold (subset_cons_self ..) fun other hm => .inl (mem_cons_of_mem _ hm)

/-! ## Restart -/

variable {states : List RestoredState}

theorem mem_loadStates (h : loadStates rules rows = .ok states) (hm : state ∈ states) :
    ∃ (id : Nat) (row : StateRow) (rule : RuleRow), (id, row) ∈ rows ∧ rules[id]? = some rule ∧
      state = row.restored rule.accessKeyID id := by
  induction rows generalizing states with
  | nil =>
    cases h
    cases hm
  | cons head rest ih =>
    obtain ⟨id, row⟩ := head
    rw [loadStates] at h
    split at h
    · cases h
    next rule hrule =>
    split at h
    · cases h
    next tail htail =>
    cases h
    rcases mem_cons.mp hm with rfl | hm
    · exact ⟨id, row, rule, mem_cons_self, hrule, rfl⟩
    · obtain ⟨id', row', rule', hrow, hfound⟩ := ih htail hm
      exact ⟨id', row', rule', mem_cons_of_mem _ hrow, hfound⟩

theorem collectRestored_mem (h : collectRestored seen states = .ok restored)
    (hs : restored[id]? = some state) :
    (state ∈ states ∧ state.ruleID = id) ∨ seen[id]? = some state := by
  induction states generalizing seen with
  | nil =>
    cases h
    exact .inr hs
  | cons first rest ih =>
    rw [collectRestored] at h
    split at h
    · cases h
    split_ifs at h
    rcases ih h with ⟨hm, hid⟩ | hseen
    · exact .inl ⟨mem_cons_of_mem _ hm, hid⟩
    rw [OrderedMap.lookup_insert] at hseen
    split_ifs at hseen with he
    · cases hseen
      exact .inl ⟨mem_cons_self, he⟩
    · exact .inr hseen

theorem restore_restored (h : restore runtime states = .ok runtime') :
    runtime'.restorePending = true ∧
      ∀ (id : Nat) (state : RestoredState), runtime'.restored[id]? = some state →
        state ∈ states ∧ state.ruleID = id := by
  unfold restore at h
  split at h
  · cases h
  next restored hcollect =>
  split_ifs at h
  cases h
  refine ⟨rfl, fun id state hs => ?_⟩
  rcases collectRestored_mem hcollect hs with hm | hempty
  · exact hm
  · simp at hempty

theorem Consistent.restart (h : Consistent ⟨runtime, db, worker⟩)
    (read : loadStates db.rules db.states.toList = .ok states)
    (restored : restore newRuntime states = .ok loaded)
    (ok : AccessQuota.reconcile loaded db.definitions = .ok runtime') :
    Consistent ⟨runtime', db, .idle⟩ := by
  obtain ⟨pending, hstates⟩ := restore_restored restored
  -- Every rule of the new runtime is its row.
  have after : ∀ key id rule', ruleAt runtime' key id = some rule' →
      ∃ row state, db.rules[id]? = some row ∧ row.accessKeyID = key ∧
        rule'.definition = row.definition id ∧ db.states[id]? = some state ∧
        state = rule'.saved := by
    intro key id rule' hr'
    obtain ⟨hrule, hfits⟩ := ruleAt_reconcile_restored ok pending key id
    rw [hrule] at hr'
    obtain ⟨definition, hd, rfl⟩ := map_eq_some_iff.mp hr'
    obtain ⟨found, hfound, -, hrev, -⟩ := hfits definition hd
    rw [db.definitionAt_eq] at hd
    obtain ⟨row, hrow, hkey, rfl⟩ := committed_iff.mp hd
    obtain ⟨hm, hid⟩ := hstates _ found hfound
    obtain ⟨id', state, owner, hmem, -, rfl⟩ := mem_loadStates read hm
    have hsame : id' = id := hid
    subst hsame
    refine ⟨row, state, hrow, hkey, by simp, OrderedMap.lookup_of_mem_toList hmem, ?_⟩
    have hload : loadFrom loaded.restored { definition := row.definition id' } =
        RuntimeRule.load { definition := row.definition id' }
          (state.restored owner.accessKeyID id') := by
      simp only [loadFrom, RuntimeRule.id, hfound, map_some, getD_some]
    have hstate : state.ruleRevision = (row.definition id').revision := hrev
    rw [hload]
    simp only [RuntimeRule.saved, restoredState, RestoredState.row, RuntimeRule.load,
      StateRow.restored, ← hstate]
  refine ⟨reconcile_settles ok, h.paired, h.id_lt, ?_, ?_, ?_, by simp,
    by simp [Worker.written]⟩
  · intro key id rule' hr'
    obtain ⟨row, state, hrow, hkey, hdef, -⟩ := after key id rule' hr'
    refine ⟨h.id_lt id row hrow, fun row' hrow' => ?_⟩
    rw [hrow] at hrow'
    cases hrow'
    exact ⟨hkey, by rw [hdef]; rfl⟩
  · intro key id rule' row' hr' hrow'
    obtain ⟨row, state, -, -, -, hstate, hsaved⟩ := after key id rule' hr'
    rw [hstate] at hrow'
    cases hrow'
    exact ⟨behind_saved hsaved, fun _ _ => hsaved⟩
  · intro id rule row hrule hrow
    obtain ⟨hafter, -⟩ := ruleAt_reconcile_restored ok pending rule.accessKeyID id
    rw [db.definitionAt_eq, committed_iff.mpr ⟨rule, hrule, rfl, rfl⟩] at hafter
    exact .inl ⟨_, hafter, by simp [RuleRow.definition]⟩

/-! ## Every interleaving -/

theorem Consistent.step (h : Consistent system) (step : Step system system') :
    Consistent system' := by
  cases step with
  | admitted key now below => exact h.admit below key now
  | completed ticket cost below => exact h.complete below ticket cost
  | reconciled ok => exact h.reconcile ok
  | created key kind limit period => exact h.evolve (create_evolves h.paired ..)
  | advanced id period ok => exact h.evolve (advance_evolves h.paired h.id_lt ok)
  | limited id limit => exact h.evolve (limit_evolves h.paired id limit)
  | deleted id => exact h.evolve (delete_evolves h.paired id)
  | started limit nonzero | nothing | failed | finished =>
    exact h.hold (nil_subset _) (by simp)
  | @collected runtime db limit id ids result =>
    have same : ∀ result, (afterCollect limit ids result).snapshots = result ∧
        (afterCollect limit ids result).written = [] := by
      intro result
      unfold afterCollect
      split_ifs <;> exact ⟨rfl, rfl⟩
    refine h.hold ((same _).2 ▸ nil_subset _) fun snapshot hm => ?_
    rw [(same _).1] at hm
    rcases mem_collectKey hm with hold | ⟨rule, hr, he⟩
    · exact .inl hold
    · exact .inr ⟨id, rule, hr, he⟩
  | handed nonempty => exact h.hold (nil_subset _) fun snapshot hm => .inl hm
  | written ok => exact h.write ok
  | acked => exact h.ack
  | restarted read restored ok => exact h.restart read restored ok

theorem reachable_consistent (h : Reachable system) : Consistent system := by
  induction h with
  | refl => exact consistent_initial
  | tail _ step ih => exact ih.step step

/-- How a row may move on: to a later revision, or to a later version of its revision. -/
def StateRow.Reaches (row row' : StateRow) : Prop :=
  row.ruleRevision < row'.ruleRevision ∨
    row.ruleRevision = row'.ruleRevision ∧ row.snapshotVersion ≤ row'.snapshotVersion

theorem StateRow.Reaches.trans (h : row.Reaches row') (h' : row'.Reaches row'') :
    row.Reaches row'' := by
  unfold StateRow.Reaches at *
  omega

theorem Evolves.reaches (e : Evolves db db') (h : db.Paired) (hlt : id < db.nextID)
    (hrow' : db'.states[id]? = some row') :
    ∃ row, db.states[id]? = some row ∧ row.Reaches row' := by
  cases e.change id with
  | gone _ states => simp [states] at hrow'
  | kept _ _ _ _ states => exact ⟨row', states ▸ hrow', .inr ⟨rfl, le_rfl⟩⟩
  | renewed _ states _ old =>
    obtain rfl : _ = row' := some.inj (states.symm.trans hrow')
    obtain hge | ⟨rule, hrule, -, hrev⟩ := old
    · omega
    obtain ⟨row, hrow⟩ : ∃ row, db.states[id]? = some row := by
      rw [← ne_none_iff_exists', ne_eq, h.states_iff, hrule]
      nofun
    exact ⟨row, hrow, .inl (by rw [h.revision id rule row hrule hrow]; exact hrev)⟩

theorem step_reaches (h : Consistent system) (step : Step system system')
    (hlt : id < system.db.nextID) (hrow' : system'.db.states[id]? = some row') :
    ∃ row, system.db.states[id]? = some row ∧ row.Reaches row' := by
  cases step with
  | created => exact (create_evolves h.paired ..).reaches h.paired hlt hrow'
  | advanced id' period ok =>
    exact (advance_evolves h.paired h.id_lt ok).reaches h.paired hlt hrow'
  | limited => exact (limit_evolves h.paired ..).reaches h.paired hlt hrow'
  | deleted => exact (delete_evolves h.paired _).reaches h.paired hlt hrow'
  | written ok =>
    obtain ⟨row, hrow, hrev, hle, -⟩ := (writeSnapshots_written ok).before hrow'
    exact ⟨row, hrow, .inr ⟨hrev.symm, hle⟩⟩
  | _ => exact ⟨row', hrow', .inr ⟨rfl, le_rfl⟩⟩

theorem step_nextID (h : Consistent system) (step : Step system system') :
    system.db.nextID ≤ system'.db.nextID := by
  cases step with
  | created => exact (create_evolves h.paired ..).nextID
  | advanced id period ok => exact (advance_evolves h.paired h.id_lt ok).nextID
  | limited => exact (limit_evolves h.paired ..).nextID
  | written ok => exact (writeSnapshots_written ok).nextID.ge
  | _ => exact le_rfl

theorem run_reaches (h : Consistent system) (run : Relation.ReflTransGen Step system later)
    (hlt : id < system.db.nextID) :
    Consistent later ∧ id < later.db.nextID ∧ ∀ row', later.db.states[id]? = some row' →
      ∃ row, system.db.states[id]? = some row ∧ row.Reaches row' := by
  induction run with
  | refl => exact ⟨h, hlt, fun row' hrow' => ⟨row', hrow', .inr ⟨rfl, le_rfl⟩⟩⟩
  | tail _ step ih =>
    obtain ⟨hmid, hidmid, hback⟩ := ih
    refine ⟨hmid.step step, hidmid.trans_le (step_nextID hmid step), fun row' hrow' => ?_⟩
    obtain ⟨mid, hrow, hreach⟩ := step_reaches hmid step hidmid hrow'
    obtain ⟨row, hfirst, hreach'⟩ := hback mid hrow
    exact ⟨row, hfirst, hreach'.trans hreach⟩

/-- In every interleaving, the stored version of a revision never falls, a transaction that
writes other revisions leaves the row alone, and the row of an unmarked rule is the rule. -/
theorem checkpoints_never_lose {system : System} (reachable : Reachable system) :
    (∀ later, Relation.ReflTransGen Step system later → ∀ (id : Nat) (row row' : StateRow),
      system.db.states[id]? = some row → later.db.states[id]? = some row' →
      row.ruleRevision = row'.ruleRevision → row.snapshotVersion ≤ row'.snapshotVersion) ∧
    (∀ snapshots db', writeSnapshots system.db snapshots = .ok db' →
      ∀ (id : Nat) (row : StateRow), system.db.states[id]? = some row →
      (∀ snapshot ∈ snapshots, snapshot.ruleID = id →
        snapshot.ruleRevision ≠ row.ruleRevision) → db'.states[id]? = some row) ∧
    (∀ key id rule row, ruleAt system.runtime key id = some rule →
      system.db.states[id]? = some row → rule.dirty = false →
      row.ruleRevision = rule.definition.revision →
      row.usedNanoUSD = rule.usedNanoUSD ∧ row.windowStartedAtMS = rule.windowStartedAtMS ∧
        row.windowEndsAtMS = rule.windowEndsAtMS ∧
        row.windowGeneration = rule.windowGeneration ∧
        row.snapshotVersion = rule.snapshotVersion) := by
  have h := reachable_consistent reachable
  refine ⟨?_, ?_, ?_⟩
  · intro later run id row row' hrow hrow' hrev
    obtain ⟨rule, hrule⟩ := h.paired.rule hrow
    obtain ⟨-, -, hback⟩ := run_reaches h run (h.id_lt id rule hrule)
    obtain ⟨first, hfirst, hreach⟩ := hback row' hrow'
    rw [hrow] at hfirst
    cases hfirst
    rcases hreach with hlt | ⟨-, hle⟩
    · omega
    · exact hle
  · intro snapshots db' ok id row hrow hother
    obtain ⟨row', hrow', hrev, -, hcase⟩ := (writeSnapshots_written ok).row id row hrow
    rcases hcase with rfl | ⟨-, snapshot, hm, hid, rfl⟩
    · exact hrow'
    · exact absurd hrev (hother snapshot hm hid)
  · intro key id rule row hr hrow hclean hrev
    rw [(h.covered key id rule row hr hrow).clean hclean hrev]
    exact ⟨rfl, rfl, rfl, rfl, rfl⟩

/-! One full cycle: a rule is created and installed, a request opens its window and is charged,
and the worker stores and acknowledges it. -/

namespace Cycle

def db : Database := createRule {} 1 .periodic 100 60

def installed : Runtime := (reconcile newRuntime db.definitions).toOption.getD newRuntime

def ticket : Ticket where
  accessKeyID := 1
  rules := [{ ruleID := 1, ruleRevision := 1, windowGeneration := 1 }]

def opened : Runtime := (admitKey installed 1 (.unix 0)).1
def charged : Runtime := (complete opened ticket 5).1

theorem five_le : 5 ≤ MaxInt64 := by decide

def snapshot : RestoredState where
  used_le := five_le
  accessKeyID := 1
  ruleID := 1
  ruleRevision := 1
  usedNanoUSD := 5
  windowStartedAtMS := some 0
  windowEndsAtMS := some 60000
  windowGeneration := 1
  snapshotVersion := 3

def stored : Database := (writeSnapshots db [snapshot]).toOption.getD db
def final : System := ⟨ack charged 1 1 1 3, stored, .idle⟩

theorem versionsBelow
    (h : ∀ e ∈ runtime.entries.toList, ∀ rule ∈ e.2.rules, rule.snapshotVersion < MaxUint64) :
    VersionsBelow runtime := by
  intro key id rule hr
  obtain ⟨e, he, hm⟩ := ruleAt_mem hr
  exact h e he rule hm

theorem reachable : Reachable final := by
  have s₁ : Step System.initial ⟨newRuntime, db, .idle⟩ := .created 1 .periodic 100 60
  have s₂ : Step ⟨newRuntime, db, .idle⟩ ⟨installed, db, .idle⟩ := .reconciled rfl
  have s₃ : Step ⟨installed, db, .idle⟩ ⟨opened, db, .idle⟩ :=
    .admitted 1 (.unix 0) (versionsBelow (by decide +kernel))
  have s₄ : Step ⟨opened, db, .idle⟩ ⟨charged, db, .idle⟩ :=
    .completed ticket 5 (versionsBelow (by decide +kernel))
  have keys : charged.entries.keys = [1] := by decide +kernel
  have s₅ : Step ⟨charged, db, .idle⟩ ⟨charged, db, .collecting 10 [1] []⟩ :=
    keys ▸ .started 10 (by decide)
  have collect : collectKey charged 10 1 [] = [snapshot] := by decide +kernel
  have s₆ : Step ⟨charged, db, .collecting 10 [1] []⟩
      ⟨charged, db, .collecting 10 [] [snapshot]⟩ := by
    have := @Step.collected charged db 10 1 [] []
    rwa [collect] at this
  have s₇ : Step ⟨charged, db, .collecting 10 [] [snapshot]⟩ ⟨charged, db, .writing [snapshot]⟩ :=
    .handed (by simp)
  have s₈ : Step ⟨charged, db, .writing [snapshot]⟩ ⟨charged, stored, .acking [snapshot]⟩ :=
    .written rfl
  have s₉ : Step ⟨charged, stored, .acking [snapshot]⟩ ⟨ack charged 1 1 1 3, stored, .acking []⟩ :=
    .acked
  exact .tail (.tail (.tail (.tail (.tail (.tail (.tail (.tail (.tail (.tail .refl s₁) s₂) s₃) s₄)
    s₅) s₆) s₇) s₈) s₉) .finished

end Cycle

theorem checkpoints_never_lose_cycle :
    Reachable Cycle.final ∧ ∃ rule row, ruleAt Cycle.final.runtime 1 1 = some rule ∧
      Cycle.final.db.states[1]? = some row ∧ rule.dirty = false ∧ row.usedNanoUSD = 5 ∧
      row.usedNanoUSD = rule.usedNanoUSD := by
  refine ⟨Cycle.reachable, ?_⟩
  have found : ∃ rule row, ruleAt Cycle.final.runtime 1 1 = some rule ∧
      Cycle.final.db.states[1]? = some row ∧ rule.dirty = false ∧ row.usedNanoUSD = 5 ∧
      row.ruleRevision = rule.definition.revision := by
    refine ⟨_, _, rfl, rfl, ?_⟩
    decide +kernel
  obtain ⟨rule, row, hr, hrow, hclean, hused, hrev⟩ := found
  exact ⟨rule, row, hr, hrow, hclean, hused,
    ((checkpoints_never_lose Cycle.reachable).2.2 1 1 rule row hr hrow hclean hrev).1⟩

end ApiLoad.AccessQuota
