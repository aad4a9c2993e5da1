import ApiLoad.AccessQuota.Reconcile

/-!
# Runs of the quota runtime

A run is any sequence of calls on one runtime. `RuleStep` says what a call can do to a rule that
keeps its revision, and `obtained_cases` where a new revision comes from.
-/
namespace ApiLoad.AccessQuota
open Std Foundation Option

attribute [local simp] Except.toOption

variable {runtime : Runtime}

inductive Op where
  | restore (states : List RestoredState)
  | reconcile (definitions : Definitions)
  | check (accessKeyID : Nat) (now : Time)
  | admitKey (accessKeyID : Nat) (now : Time)
  | complete (ticket : Ticket) (costNanoUSD : Int)
  | snapshot (accessKeyID : Nat) (now : Time)
  | dirtySnapshots (limit : Int)
  | ack (accessKeyID ruleID revision snapshotVersion : Nat)

variable {ops : List Op}

/-- The runtime after a call. A call that returns an error leaves the runtime as it was. -/
def apply (runtime : Runtime) : Op → Runtime
  | .restore states => (restore runtime states).toOption.getD runtime
  | .reconcile definitions => (reconcile runtime definitions).toOption.getD runtime
  | .check _ _ => runtime
  | .admitKey key now => (admitKey runtime key now).1
  | .complete ticket cost => (complete runtime ticket cost).1
  | .snapshot _ _ => runtime
  | .dirtySnapshots _ => runtime
  | .ack key id revision version => ack runtime key id revision version

def run (ops : List Op) : Runtime := ops.foldl apply newRuntime

@[simp] theorem run_nil : run [] = newRuntime := rfl

@[simp] theorem run_snoc (ops : List Op) (op : Op) : run (ops ++ [op]) = apply (run ops) op := by
  simp [run]

def issuedFrom : Runtime → List Op → List Ticket
  | _, [] => []
  | runtime, .admitKey key now :: ops =>
    (admitKey runtime key now).2.1 :: issuedFrom (apply runtime (.admitKey key now)) ops
  | runtime, op :: ops => issuedFrom (apply runtime op) ops

def issued (ops : List Op) : List Ticket := issuedFrom newRuntime ops

theorem mem_issuedFrom :
    ticket ∈ issuedFrom runtime ops ↔
      ∃ early key now late, ops = early ++ .admitKey key now :: late ∧
      ticket = (admitKey (early.foldl apply runtime) key now).2.1 := by
  induction ops generalizing runtime with
  | nil => simp [issuedFrom]
  | cons op ops ih =>
    have shift : (∃ early key now late, op :: ops = early ++ .admitKey key now :: late ∧
          ticket = (admitKey (early.foldl apply runtime) key now).2.1) ↔
        (∃ key now, op = .admitKey key now ∧ ticket = (admitKey runtime key now).2.1) ∨
          ticket ∈ issuedFrom (apply runtime op) ops := by
      rw [ih]
      constructor
      · rintro ⟨early, key, now, late, h, ht⟩
        cases early with
        | nil =>
          obtain ⟨rfl, -⟩ := List.cons.inj h
          exact .inl ⟨key, now, rfl, ht⟩
        | cons first early =>
          obtain ⟨rfl, rest⟩ := List.cons.inj h
          exact .inr ⟨early, key, now, late, rest, ht⟩
      · rintro (⟨key, now, rfl, ht⟩ | ⟨early, key, now, late, rfl, ht⟩)
        · exact ⟨[], key, now, ops, rfl, ht⟩
        · exact ⟨op :: early, key, now, late, rfl, ht⟩
    rw [shift]
    cases op <;> simp [issuedFrom]

theorem mem_issued :
    ticket ∈ issued ops ↔ ∃ early key now late, ops = early ++ .admitKey key now :: late ∧
      ticket = (admitKey (run early) key now).2.1 := mem_issuedFrom

def Configured (runtime : Runtime) (key id revision : Nat) : Prop :=
  ∃ rule, ruleAt runtime key id = some rule ∧ rule.definition.revision = revision

/-! ## Restored states wait for the first reconciliation -/

variable {runtime' : Runtime} {definitions : Definitions} {key id : Nat} {rule' : RuntimeRule}

theorem restore_ok (h : restore runtime states = .ok runtime') :
    runtime.restorePending = false ∧ runtime.entries = ∅ ∧ runtime'.entries = runtime.entries := by
  unfold restore at h
  split at h
  · cases h
  split_ifs at h with hinit
  push Not at hinit
  cases h
  exact ⟨by simpa using hinit.1, ExtTreeMap.isEmpty_iff.mp hinit.2, rfl⟩

theorem reconcile_settles (h : reconcile runtime definitions = .ok runtime') :
    runtime'.restorePending = false := by
  unfold reconcile at h
  split at h
  · cases h
  split_ifs at h with hp
  · split at h
    · cases h
    · cases h
      rfl
  split at h
  · cases h
  · cases h
    simpa using hp

@[simp] theorem admit_restorePending (runtime : Runtime) (key : Nat) (now : Time) :
    (admitKey runtime key now).1.restorePending = runtime.restorePending := by
  unfold admitKey
  split
  · rfl
  · dsimp only
    split_ifs <;> rfl

@[simp] theorem complete_restorePending (runtime : Runtime) (ticket : Ticket) (cost : Int) :
    (complete runtime ticket cost).1.restorePending = runtime.restorePending := by
  unfold complete
  split_ifs
  · rfl
  · split <;> rfl

@[simp] theorem ack_restorePending (runtime : Runtime) (key id revision version : Nat) :
    (ack runtime key id revision version).restorePending = runtime.restorePending := by
  unfold ack
  split <;> rfl

/-- While restored states wait, no rule is configured. -/
theorem run_pending (ops : List Op) (key id : Nat) :
    (run ops).restorePending = true → ruleAt (run ops) key id = none := by
  induction ops using List.reverseRecOn with
  | nil =>
    intro pending
    cases pending
  | append_singleton ops op ih =>
    rw [run_snoc]
    cases op with
    | restore states =>
      simp only [apply]
      cases hr : restore (run ops) states with
      | error message => exact ih
      | ok runtime' =>
        obtain ⟨-, hempty, hsame⟩ := restore_ok hr
        intro _
        simp [ruleAt, lockEntry, hsame, hempty]
    | reconcile definitions =>
      simp only [apply]
      cases hr : reconcile (run ops) definitions with
      | error message => exact ih
      | ok runtime' =>
        intro pending
        have settled : runtime'.restorePending = false := reconcile_settles hr
        simp [settled] at pending
    | admitKey | complete | ack =>
      intro pending
      simp only [apply, admit_restorePending, complete_restorePending, ack_restorePending]
        at pending
      simp [apply, ruleAt_admitKey, ruleAt_complete, ruleAt_ack, ih pending]
    | check | snapshot | dirtySnapshots => exact ih

/-! ## One call -/

variable {rule : RuntimeRule} {op : Op}

theorem ruleAt_restore (runtime : Runtime) (states : List RestoredState) (key id : Nat) :
    ruleAt (apply runtime (.restore states)) key id = ruleAt runtime key id := by
  simp only [apply]
  cases hr : restore runtime states with
  | error message => rfl
  | ok runtime' => simp [ruleAt, lockEntry, (restore_ok hr).2.2]

def OpensWindow (runtime : Runtime) (key id : Nat) (now : Time) : Prop :=
  (check runtime key now).allowed = true ∧ ∃ rule, ruleAt runtime key id = some rule ∧
    rule.definition.kind = .periodic ∧ periodicInactive rule now.unixMilli = true

/-- What a call can do to a rule that keeps its revision. -/
inductive RuleStep (runtime : Runtime) (op : Op) (key : Nat) (rule rule' : RuntimeRule) : Prop
  | kept (kind : rule'.definition.kind = rule.definition.kind)
      (period : rule'.definition.periodSeconds = rule.definition.periodSeconds)
      (state : RuntimeRule.load rule' (restoredState key rule) = rule')
      (uncharged : ∀ ticket cost, op = .complete ticket cost → ¬ ticket.Covers key rule)
      (unopened : ∀ now, op = .admitKey key now → ¬ OpensWindow runtime key rule.id now)
  | opened (now : Time) (call : op = .admitKey key now)
      (periodic : rule.definition.kind = .periodic)
      (inactive : periodicInactive rule now.unixMilli = true) (eq : rule' = openWindow now rule)
  | charged (ticket : Ticket) (cost : Int) (call : op = .complete ticket cost)
      (covers : ticket.Covers key rule) (eq : rule' = charge cost rule)

theorem openWindow_of_not {now : Time}
    (h : ¬ (rule.definition.kind = .periodic ∧ periodicInactive rule now.unixMilli = true)) :
    openWindow now rule = rule := if_neg h

theorem ruleStep_run (h : ruleAt (run ops) key id = some rule)
    (h' : ruleAt (apply (run ops) op) key id = some rule')
    (revision : rule'.definition.revision = rule.definition.revision) :
    RuleStep (run ops) op key rule rule' := by
  have hid := ruleAt_id h
  -- Calls that leave the rule alone.
  have unchanged : rule' = rule → (∀ ticket cost, op ≠ .complete ticket cost) →
      (∀ now, op = .admitKey key now → ¬ OpensWindow (run ops) key rule.id now) →
      RuleStep (run ops) op key rule rule' := by
    rintro rfl hc ha
    exact .kept rfl rfl rfl (fun ticket cost he => absurd he (hc ticket cost)) ha
  cases op with
  | restore states =>
    rw [ruleAt_restore, h] at h'
    exact unchanged (some.inj h').symm (by simp) (by simp)
  | reconcile definitions =>
    have settled : (run ops).restorePending = false := by
      by_contra hp
      have := run_pending ops key id (by simpa using hp)
      rw [h] at this
      cases this
    simp only [apply] at h'
    cases hr : reconcile (run ops) definitions with
    | error message =>
      rw [hr] at h'
      exact unchanged (some.inj (h.symm.trans h')).symm (by simp) (by simp)
    | ok runtime' =>
      rw [hr] at h'
      change ruleAt runtime' key id = some rule' at h'
      rw [ruleAt_reconcile hr settled, h] at h'
      obtain ⟨definition, hd, rfl⟩ := map_eq_some_iff.mp h'
      rw [reconciled_definition] at revision
      have shape := reconcile_same_shape hr settled h hd revision.symm
      have carried : reconciled (some rule) definition = cloneRuntimeState { definition } rule := by
        simp [reconciled, revision]
      refine .kept ?_ ?_ ?_ (by simp) (by simp)
      · rw [reconciled_definition, shape.1]
      · rw [reconciled_definition, shape.2]
      · rw [carried]
        rfl
  | check | snapshot | dirtySnapshots =>
    exact unchanged (some.inj (h.symm.trans h')).symm (by simp) (by simp)
  | admitKey target now =>
    simp only [apply, ruleAt_admitKey, h, map_some] at h'
    split_ifs at h' with hcall
    · obtain ⟨rfl, -⟩ := hcall
      by_cases ho : rule.definition.kind = .periodic ∧ periodicInactive rule now.unixMilli = true
      · exact .opened now rfl ho.1 ho.2 (some.inj h').symm
      rw [openWindow_of_not ho] at h'
      refine unchanged (some.inj h').symm (by simp) ?_
      rintro now' hnow ⟨-, found, hf, hopen⟩
      cases hnow
      rw [hid, h] at hf
      cases hf
      exact ho hopen
    · refine unchanged (some.inj h').symm (by simp) ?_
      rintro now' hnow ⟨hallowed, -⟩
      cases hnow
      exact hcall ⟨rfl, hallowed⟩
  | complete ticket cost =>
    simp only [apply, ruleAt_complete, h, map_some, some.injEq] at h'
    split_ifs at h' with hcover
    · exact .charged ticket cost rfl hcover h'.symm
    subst h'
    refine .kept rfl rfl rfl ?_ (by simp)
    intro ticket' cost' he
    cases he
    exact hcover
  | ack target ruleID acked version =>
    simp only [apply, ruleAt_ack, h, map_some] at h'
    split_ifs at h'
    · cases h'
      refine .kept (by simp) (by simp) ?_ (by simp) (by simp)
      unfold ackRule
      split <;> rfl
    · exact unchanged (some.inj h').symm (by simp) (by simp)

theorem RuleStep.kind_eq (h : RuleStep runtime op key rule rule') :
    rule'.definition.kind = rule.definition.kind := by
  cases h with
  | kept kind => exact kind
  | opened now call periodic inactive eq => rw [eq, openWindow_definition]
  | charged ticket cost call covers eq => rw [eq, charge_definition]

@[simp] theorem charge_windowGeneration (cost : Int) (rule : RuntimeRule) :
    (charge cost rule).windowGeneration = rule.windowGeneration := by
  unfold charge
  split <;> rfl

@[simp] theorem charge_usedNanoUSD (cost : Int) (rule : RuntimeRule) :
    (charge cost rule).usedNanoUSD = chargedAmount rule.usedNanoUSD cost := by
  unfold charge
  split
  · next h => exact h.symm
  · rfl

theorem openWindow_fields {now : Time} (periodic : rule.definition.kind = .periodic)
    (inactive : periodicInactive rule now.unixMilli = true)
    (bound : rule.windowGeneration < MaxUint64) :
    (openWindow now rule).usedNanoUSD = 0 ∧
      (openWindow now rule).windowGeneration = rule.windowGeneration + 1 := by
  simp [openWindow, advanceVersion, periodic, inactive, bound]

/-- Within a revision the generation never falls, and it rises with every window. -/
theorem RuleStep.generation_le (h : RuleStep runtime op key rule rule')
    (bound : rule.windowGeneration < MaxUint64) :
    rule.windowGeneration ≤ rule'.windowGeneration := by
  cases h with
  | kept kind period state =>
    rw [← state]
    rfl
  | opened now call periodic inactive eq =>
    rw [eq, (openWindow_fields periodic inactive bound).2]
    omega
  | charged ticket cost call covers eq => rw [eq, charge_windowGeneration]

/-! ## How a rule obtains a revision -/

theorem reconcile_definition (h : reconcile runtime definitions = .ok runtime')
    (hr : ruleAt runtime' key id = some rule) :
    definitionAt definitions key id = some rule.definition := by
  cases hp : runtime.restorePending with
  | false =>
    rw [ruleAt_reconcile h hp] at hr
    obtain ⟨definition, hd, rfl⟩ := map_eq_some_iff.mp hr
    simpa using hd
  | true =>
    rw [(ruleAt_reconcile_restored h hp key id).1] at hr
    obtain ⟨definition, hd, rfl⟩ := map_eq_some_iff.mp hr
    simpa using hd

/-- Only a successful `Reconcile` changes the definition of a rule. -/
theorem definition_cases (h : ruleAt (apply runtime op) key id = some rule) :
    (∃ before, ruleAt runtime key id = some before ∧ before.definition = rule.definition) ∨
      ∃ definitions runtime', op = .reconcile definitions ∧
        reconcile runtime definitions = .ok runtime' ∧ apply runtime op = runtime' := by
  -- A call that maps the rule without touching its definition.
  have mapped : ∀ f : RuntimeRule → RuntimeRule, (∀ r, (f r).definition = r.definition) →
      ruleAt (apply runtime op) key id = (ruleAt runtime key id).map f →
      ∃ before, ruleAt runtime key id = some before ∧ before.definition = rule.definition := by
    intro f hf he
    rw [he] at h
    obtain ⟨before, hb, rfl⟩ := map_eq_some_iff.mp h
    exact ⟨before, hb, (hf before).symm⟩
  cases op with
  | restore states => exact .inl ⟨rule, by simpa only [ruleAt_restore] using h, rfl⟩
  | reconcile definitions =>
    cases hr : reconcile runtime definitions with
    | error message => exact .inl ⟨rule, by simpa [apply, hr] using h, rfl⟩
    | ok runtime' => exact .inr ⟨definitions, runtime', rfl, hr, by simp [apply, hr]⟩
  | check | snapshot | dirtySnapshots => exact .inl ⟨rule, h, rfl⟩
  | admitKey target now =>
    refine .inl (mapped (fun r => if target = key ∧ (check runtime target now).allowed = true
      then openWindow now r else r) (fun r => ?_) ?_)
    · split <;> simp
    · rw [apply, ruleAt_admitKey]
      split <;> simp
  | complete ticket cost =>
    refine .inl (mapped _ (fun r => ?_) (ruleAt_complete runtime ticket cost key id))
    split <;> simp
  | ack target ruleID acked version =>
    refine .inl (mapped (fun r => if target = key ∧ ruleID = id then ackRule acked version r else r)
      (fun r => ?_) ?_)
    · split <;> simp
    · rw [apply, ruleAt_ack]
      split <;> simp

theorem configured_cases (h : Configured (apply runtime op) key id revision) :
    Configured runtime key id revision ∨
      ∃ definitions runtime', op = .reconcile definitions ∧
        reconcile runtime definitions = .ok runtime' ∧ apply runtime op = runtime' := by
  obtain ⟨rule, hr, rfl⟩ := h
  rcases definition_cases hr with ⟨before, hb, hd⟩ | hrec
  · exact .inl ⟨before, hb, by rw [hd]⟩
  · exact .inr hrec

/-- A rule that has just obtained its revision is fresh, or loaded from its restored state. -/
theorem obtained_cases (hr : ruleAt (apply (run ops) op) key id = some rule)
    (hnew : ¬ Configured (run ops) key id rule.definition.revision) :
    ((run ops).restorePending = false ∧ rule = { definition := rule.definition }) ∨
      (run ops).restorePending = true ∧ ∃ state, (run ops).restored[id]? = some state ∧
        rule = RuntimeRule.load { definition := rule.definition } state := by
  rcases configured_cases ⟨rule, hr, rfl⟩ with hold | ⟨definitions, runtime', rfl, hok, happly⟩
  · exact absurd hold hnew
  rw [happly] at hr
  cases hp : (run ops).restorePending with
  | true =>
    obtain ⟨hrule, hstates⟩ := ruleAt_reconcile_restored hok hp key id
    rw [hrule] at hr
    obtain ⟨definition, hd, rfl⟩ := map_eq_some_iff.mp hr
    obtain ⟨state, hstate, -⟩ := hstates definition hd
    have hid : definition.id = id := by
      obtain ⟨rules, -, hfind⟩ := bind_eq_some_iff.mp hd
      simpa using List.find?_some hfind
    exact .inr ⟨rfl, state, hid ▸ hstate, by simp [loadFrom, hstate]; rfl⟩
  | false =>
    rw [ruleAt_reconcile hok hp] at hr
    obtain ⟨definition, hd, rfl⟩ := map_eq_some_iff.mp hr
    refine .inl ⟨rfl, ?_⟩
    rw [reconciled_definition] at hnew ⊢
    cases hprev : ruleAt (run ops) key id with
    | none => rfl
    | some previous =>
      have : previous.definition.revision ≠ definition.revision := fun he =>
        hnew ⟨previous, hprev, he⟩
      simp [reconciled, this]

/-! A run with one periodic rule: its window opens with the admission, and one completion is
charged to it. -/

def sampleRule : Rule :=
  { id := 7, revision := 1, kind := .periodic, limitNanoUSD := 100, periodSeconds := 60 }

def sampleTicket : Ticket where
  accessKeyID := 1
  rules := [{ ruleID := 7, ruleRevision := 1, windowGeneration := 1 }]

def sampleRun : List Op :=
  [.reconcile (ExtTreeMap.ofList [(1, [sampleRule])]), .admitKey 1 (.unix 0),
    .complete sampleTicket 5]

def sampleCharged : RuntimeRule where
  definition := sampleRule
  usedNanoUSD := 5
  windowStartedAtMS := some 0
  windowEndsAtMS := some 60000
  windowGeneration := 1
  snapshotVersion := 3
  dirty := true

theorem sampleRun_tickets (pre : List Op) (ticket : Ticket) (cost : Int) (post : List Op)
    (h : sampleRun = pre ++ .complete ticket cost :: post) : ticket ∈ issued pre := by
  have hsplit : pre = sampleRun.take 2 ∧ ticket = sampleTicket := by
    rcases pre with _ | ⟨a, _ | ⟨b, _ | ⟨c, pre⟩⟩⟩ <;> simp_all [sampleRun]
  rw [hsplit.1, hsplit.2]
  decide +kernel

end ApiLoad.AccessQuota
