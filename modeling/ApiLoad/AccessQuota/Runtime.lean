import ApiLoad.AccessQuota.Definitions
import ApiLoad.Foundation.Time

/-!
# The quota runtime

The in-memory quota state of `internal/accessquota/runtime.go`. Every public method locks the
entry it works on, and `Restore` and `Reconcile` hold the write lock of the whole runtime, so each
method is one atomic state transformer here. An entry carries the fact that its rule IDs are
distinct; `byID` is then a lookup in the rule list.
-/
namespace ApiLoad.AccessQuota
open Std Foundation

def MaxInt64 : Int := 2 ^ 63 - 1

theorem zero_le_max : 0 ≤ MaxInt64 := by decide
def MaxUint64 : Nat := 2 ^ 64 - 1

/-- The persisted state of a rule. The amount is an `int64`; only its upper bound matters below. -/
structure RestoredState where
  accessKeyID : Nat
  ruleID : Nat
  ruleRevision : Nat
  usedNanoUSD : Int
  used_le : usedNanoUSD ≤ MaxInt64 := by first | exact zero_le_max | decide
  windowStartedAtMS : Option Int
  windowEndsAtMS : Option Int
  windowGeneration : Nat
  snapshotVersion : Nat
deriving DecidableEq, Repr

structure TicketRule where
  ruleID : Nat
  ruleRevision : Nat
  windowGeneration : Nat
deriving DecidableEq, Repr

/-- A ticket lists every rule of its entry once. -/
structure Ticket where
  accessKeyID : Nat
  rules : List TicketRule := []
  ids_nodup : (rules.map TicketRule.ruleID).Nodup := by simp
deriving DecidableEq

inductive RuleStatus where
  | available
  | inactive
  | exhausted
deriving DecidableEq, Repr

structure RuleView where
  rule : Rule
  usedNanoUSD : Int := 0
  remainingNanoUSD : Int
  status : RuleStatus
  windowStartedAtMS : Option Int := none
  windowEndsAtMS : Option Int := none
  windowGeneration : Nat
deriving DecidableEq, Repr

structure Decision where
  allowed : Bool
  recoverable : Bool
  nextAvailableAtMS : Option Int := none
  blockingRules : List RuleView
deriving DecidableEq, Repr

structure View where
  observedAtMS : Int
  allowed : Bool
  recoverable : Bool
  nextAvailableAtMS : Option Int := none
  rules : List RuleView
deriving DecidableEq, Repr

inductive CompletionFault where
  | negativeEstimate
  | overflow
deriving DecidableEq, Repr

structure RuntimeRule where
  definition : Rule
  usedNanoUSD : Int := 0
  used_le : usedNanoUSD ≤ MaxInt64 := by first | exact zero_le_max | decide
  windowStartedAtMS : Option Int := none
  windowEndsAtMS : Option Int := none
  windowGeneration : Nat := 0
  snapshotVersion : Nat := 1
  dirty : Bool := false
deriving DecidableEq, Repr

abbrev RuntimeRule.id (rule : RuntimeRule) : Nat := rule.definition.id

/-- The rules of one access key. The source keeps a second map `byID`; the distinct IDs make the
rule list determine it. -/
structure AccessKeyEntry where
  rules : List RuntimeRule
  ids_nodup : (rules.map RuntimeRule.id).Nodup

structure Runtime where
  entries : ExtTreeMap Nat AccessKeyEntry := ∅
  restored : ExtTreeMap Nat RestoredState := ∅
  restorePending : Bool := false
  overflowFaultTotal : Nat := 0

def newRuntime : Runtime := {}

/-! ## Entries -/

namespace AccessKeyEntry

def byID (entry : AccessKeyEntry) (id : Nat) : Option RuntimeRule :=
  entry.rules.find? (·.id = id)

/-- Change every rule in place; no change touches the identity of a rule. -/
def mapRules (entry : AccessKeyEntry) (f : RuntimeRule → RuntimeRule)
    (same : ∀ rule, (f rule).id = rule.id) : AccessKeyEntry where
  rules := entry.rules.map f
  ids_nodup := by
    have ids : RuntimeRule.id ∘ f = RuntimeRule.id := funext same
    rw [List.map_map, ids]
    exact entry.ids_nodup

def update (entry : AccessKeyEntry) (id : Nat) (f : RuntimeRule → RuntimeRule)
    (same : ∀ rule, (f rule).id = rule.id) : AccessKeyEntry :=
  entry.mapRules (fun rule => if rule.id = id then f rule else rule) fun rule => by
    split
    · exact same rule
    · rfl

end AccessKeyEntry

def newAccessKeyEntry (definitions : KeyRules) : AccessKeyEntry where
  rules := definitions.rules.map fun definition => { definition }
  ids_nodup := by
    rw [List.map_map]
    exact definitions.ids_nodup

/-! ## Restoring persisted state -/

def validateRestoredState (state : RestoredState) : Except String Unit :=
  if state.accessKeyID = 0 ∨ state.ruleID = 0 ∨ state.ruleRevision = 0 ∨
      state.usedNanoUSD < 0 ∨ state.snapshotVersion = 0 then
    .error s!"restore access quota rule {state.ruleID}: invalid persisted state"
  else match state.windowStartedAtMS, state.windowEndsAtMS with
    | none, none => .ok ()
    | some started, some ends =>
      if started < 0 ∨ ends ≤ started then
        .error s!"restore access quota rule {state.ruleID}: invalid window"
      else .ok ()
    | _, _ => .error s!"restore access quota rule {state.ruleID}: incomplete window"

/-- The loop of `Restore` that collects the states by rule ID. -/
def collectRestored : ExtTreeMap Nat RestoredState → List RestoredState →
    Except String (ExtTreeMap Nat RestoredState)
  | restored, [] => .ok restored
  | restored, state :: states =>
    match validateRestoredState state with
    | .error message => .error message
    | .ok () =>
      if state.ruleID ∈ restored then
        .error s!"restore access quota rule {state.ruleID}: duplicate state"
      else collectRestored (restored.insert state.ruleID state) states

def restore (runtime : Runtime) (states : List RestoredState) : Except String Runtime :=
  match collectRestored ∅ states with
  | .error message => .error message
  | .ok restored =>
    if runtime.restorePending ∨ ¬ runtime.entries.isEmpty then
      .error "restore access quota runtime: runtime is already initialized"
    else .ok { runtime with restored, restorePending := true }

/-- The fields that `applyRestoredState` assigns once its checks have passed. -/
def RuntimeRule.load (rule : RuntimeRule) (state : RestoredState) : RuntimeRule :=
  { rule with
    usedNanoUSD := state.usedNanoUSD
    used_le := state.used_le
    windowStartedAtMS := state.windowStartedAtMS
    windowEndsAtMS := state.windowEndsAtMS
    windowGeneration := state.windowGeneration
    snapshotVersion := state.snapshotVersion }

/-- The checks of `applyRestoredState`: the shape of the state fits the kind of the rule. -/
def checkRestoredShape (definition : Rule) (state : RestoredState) : Except String Unit :=
  if definition.kind = .total then
    if state.windowStartedAtMS ≠ none ∨ state.windowEndsAtMS ≠ none ∨
        state.windowGeneration ≠ 0 then
      .error s!"restore total access quota rule {definition.id}: window state is not allowed"
    else .ok ()
  else match state.windowStartedAtMS with
    | none =>
      if state.usedNanoUSD ≠ 0 ∨ state.windowGeneration ≠ 0 then
        .error (s!"restore periodic access quota rule {definition.id}: " ++
          "inactive state has usage or generation")
      else .ok ()
    | some started =>
      if state.windowGeneration = 0 then
        .error
          s!"restore periodic access quota rule {definition.id}: active state has no generation"
      -- `Restore` has rejected a window with one bound, so the end is never missing here.
      else if state.windowEndsAtMS.getD 0 - started ≠ definition.periodSeconds * 1000 then
        .error (s!"restore periodic access quota rule {definition.id}: " ++
          "window duration does not match period")
      else .ok ()

def applyRestoredState (rule : RuntimeRule) (state : RestoredState) : Except String RuntimeRule :=
  match checkRestoredShape rule.definition state with
  | .error message => .error message
  | .ok () => .ok (rule.load state)

/-- The inner loop of `entriesFromRestore`, over the rules of one key. -/
def restoreRules (accessKeyID : Nat) : List RuntimeRule → ExtTreeMap Nat RestoredState →
    Except String (List RuntimeRule × ExtTreeMap Nat RestoredState)
  | [], remaining => .ok ([], remaining)
  | rule :: rules, remaining =>
    match remaining[rule.id]? with
    | none =>
      .error s!"restore access quota rule {rule.id} for key {accessKeyID}: state is missing"
    | some state =>
      if state.accessKeyID ≠ accessKeyID ∨ state.ruleRevision ≠ rule.definition.revision then
        .error s!"restore access quota rule {rule.id}: state identity or revision mismatch"
      else match applyRestoredState rule state with
        | .error message => .error message
        | .ok loaded =>
          match restoreRules accessKeyID rules (remaining.erase rule.id) with
          | .error message => .error message
          | .ok (rules, remaining) => .ok (loaded :: rules, remaining)

theorem applyRestoredState_ok (h : applyRestoredState rule state = .ok loaded) :
    checkRestoredShape rule.definition state = .ok () ∧ loaded = rule.load state := by
  unfold applyRestoredState at h
  split at h
  · cases h
  next hcheck =>
  cases h
  exact ⟨hcheck, rfl⟩

theorem restoreRules_ids (h : restoreRules key rules remaining = .ok (rules', remaining')) :
    rules'.map RuntimeRule.id = rules.map RuntimeRule.id := by
  induction rules generalizing remaining rules' with
  | nil =>
    cases h
    rfl
  | cons rule rules ih =>
    rw [restoreRules] at h
    split at h
    · cases h
    split at h
    · cases h
    split at h
    · cases h
    next loaded happly =>
    split at h
    · cases h
    next tail rest htail =>
    cases h
    rw [List.map_cons, List.map_cons, ih htail, (applyRestoredState_ok happly).2]
    rfl

/-- The outer loop of `entriesFromRestore`. -/
def restoreEntries : List (Nat × KeyRules) → ExtTreeMap Nat RestoredState →
    Except String (List (Nat × AccessKeyEntry) × ExtTreeMap Nat RestoredState)
  | [], remaining => .ok ([], remaining)
  | (accessKeyID, definitions) :: rest, remaining =>
    let entry := newAccessKeyEntry definitions
    match loaded : restoreRules accessKeyID entry.rules remaining with
    | .error message => .error message
    | .ok (rules, remaining) =>
      match restoreEntries rest remaining with
      | .error message => .error message
      | .ok (entries, remaining) =>
        .ok ((accessKeyID, ⟨rules, restoreRules_ids loaded ▸ entry.ids_nodup⟩) :: entries,
          remaining)

def entriesFromRestore (definitions : Normalized) (restored : ExtTreeMap Nat RestoredState) :
    Except String (ExtTreeMap Nat AccessKeyEntry) :=
  match restoreEntries definitions.byKey.toList restored with
  | .error message => .error message
  | .ok (entries, remaining) =>
    match remaining.toList with
    | (id, _) :: _ => .error s!"restore access quota runtime: orphan state for rule {id}"
    | [] => .ok (ExtTreeMap.ofList entries)

/-! ## Reconciling with the definitions -/

def cloneRuntimeState (target source : RuntimeRule) : RuntimeRule :=
  { target with
    usedNanoUSD := source.usedNanoUSD
    used_le := source.used_le
    windowStartedAtMS := source.windowStartedAtMS
    windowEndsAtMS := source.windowEndsAtMS
    windowGeneration := source.windowGeneration
    snapshotVersion := source.snapshotVersion
    dirty := source.dirty }

def previousState (current : AccessKeyEntry) (rule : RuntimeRule) : Option RuntimeRule :=
  (current.byID rule.id).filter (·.definition.revision = rule.definition.revision)

/-- The rule kept its revision but not its kind or period. -/
def changedWithoutRevision (current : AccessKeyEntry) (rule : RuntimeRule) : Bool :=
  match previousState current rule with
  | none => false
  | some previous =>
    previous.definition.kind ≠ rule.definition.kind ∨
      previous.definition.periodSeconds ≠ rule.definition.periodSeconds

/-- One round of the loop in `Reconcile`: the fresh rule with the state it had before. -/
def carryOver (current : AccessKeyEntry) (rule : RuntimeRule) : RuntimeRule :=
  match previousState current rule with
  | none => rule
  | some previous => cloneRuntimeState rule previous

@[simp] theorem carryOver_definition (current : AccessKeyEntry) (rule : RuntimeRule) :
    (carryOver current rule).definition = rule.definition := by
  unfold carryOver
  split <;> rfl

def reconcileEntry (entries : ExtTreeMap Nat AccessKeyEntry) (accessKeyID : Nat)
    (definitions : KeyRules) : Except String AccessKeyEntry :=
  let entry := newAccessKeyEntry definitions
  match entries[accessKeyID]? with
  | none => .ok entry
  | some current =>
    match entry.rules.find? (changedWithoutRevision current) with
    | some rule =>
      .error s!"reconcile access quota rule {rule.id}: kind or period changed without revision"
    | none => .ok (entry.mapRules (carryOver current) fun rule => by simp [RuntimeRule.id])

def reconcile (runtime : Runtime) (definitions : Definitions) : Except String Runtime :=
  match normalizeDefinitions definitions with
  | .error message => .error message
  | .ok normalized =>
    if runtime.restorePending then
      match entriesFromRestore normalized runtime.restored with
      | .error message => .error message
      | .ok entries => .ok { runtime with entries, restored := ∅, restorePending := false }
    else
      match OrderedMap.traverse (reconcileEntry runtime.entries) normalized.byKey with
      | .error message => .error message
      | .ok entries => .ok { runtime with entries }

/-! ## Decisions and views -/

def periodicInactive (rule : RuntimeRule) (nowMS : Int) : Bool :=
  match rule.windowStartedAtMS, rule.windowEndsAtMS with
  | some _, some ends => nowMS ≥ ends
  | _, _ => true

def remaining (limit used : Int) : Int := if used ≥ limit then 0 else limit - used

def ruleViewLocked (rule : RuntimeRule) (nowMS : Int) : RuleView :=
  if rule.definition.kind = .periodic ∧ periodicInactive rule nowMS then
    { rule := rule.definition
      remainingNanoUSD := rule.definition.limitNanoUSD
      status := .inactive
      windowGeneration := rule.windowGeneration }
  else
    { rule := rule.definition
      usedNanoUSD := rule.usedNanoUSD
      remainingNanoUSD := remaining rule.definition.limitNanoUSD rule.usedNanoUSD
      status := if rule.usedNanoUSD ≥ rule.definition.limitNanoUSD then .exhausted else .available
      windowStartedAtMS := rule.windowStartedAtMS
      windowEndsAtMS := rule.windowEndsAtMS
      windowGeneration := rule.windowGeneration }

def allowedDecision : Decision := { allowed := true, recoverable := true, blockingRules := [] }

/-- One round of the loop in `decisionLocked`; the second component is `next`. -/
def decisionRound (nowMS : Int) (acc : Decision × Int) (rule : RuntimeRule) : Decision × Int :=
  let view := ruleViewLocked rule nowMS
  if view.status ≠ .exhausted then acc
  else
    let decision := { acc.1 with
      allowed := false
      blockingRules := acc.1.blockingRules ++ [view] }
    if rule.definition.kind = .total then
      ({ decision with recoverable := false, nextAvailableAtMS := none }, acc.2)
    else match view.windowEndsAtMS with
      | some ends => (decision, if decision.recoverable ∧ ends > acc.2 then ends else acc.2)
      | none => (decision, acc.2)

def decisionLocked (entry : AccessKeyEntry) (nowMS : Int) : Decision :=
  let (decision, next) := entry.rules.foldl (decisionRound nowMS) (allowedDecision, 0)
  if ¬ decision.allowed ∧ decision.recoverable ∧ next > 0 then
    { decision with nextAvailableAtMS := some next }
  else decision

def lockEntry (runtime : Runtime) (accessKeyID : Nat) : Option AccessKeyEntry :=
  if accessKeyID = 0 then none else runtime.entries[accessKeyID]?

def check (runtime : Runtime) (accessKeyID : Nat) (now : Time) : Decision :=
  match lockEntry runtime accessKeyID with
  | none => allowedDecision
  | some entry => decisionLocked entry now.unixMilli

def snapshot (runtime : Runtime) (accessKeyID : Nat) (now : Time) : View :=
  match lockEntry runtime accessKeyID with
  | none => { observedAtMS := now.unixMilli, allowed := true, recoverable := true, rules := [] }
  | some entry =>
    let decision := decisionLocked entry now.unixMilli
    { observedAtMS := now.unixMilli
      allowed := decision.allowed
      recoverable := decision.recoverable
      nextAvailableAtMS := decision.nextAvailableAtMS
      rules := entry.rules.map (ruleViewLocked · now.unixMilli) }

/-! ## Admission and completion -/

def advanceVersion (rule : RuntimeRule) : RuntimeRule :=
  { rule with
    snapshotVersion :=
      if rule.snapshotVersion < MaxUint64 then rule.snapshotVersion + 1 else rule.snapshotVersion
    dirty := true }

def openWindow (now : Time) (rule : RuntimeRule) : RuntimeRule :=
  if rule.definition.kind = .periodic ∧ periodicInactive rule now.unixMilli then
    advanceVersion { rule with
      windowStartedAtMS := some now.unixMilli
      windowEndsAtMS :=
        some (now.addSeconds rule.definition.periodSeconds).unixMilli
      usedNanoUSD := 0
      used_le := by decide
      windowGeneration :=
        if rule.windowGeneration < MaxUint64 then rule.windowGeneration + 1
        else rule.windowGeneration }
  else rule

@[simp] theorem openWindow_definition (now : Time) (rule : RuntimeRule) :
    (openWindow now rule).definition = rule.definition := by
  unfold openWindow
  split <;> rfl

def ticketRule (rule : RuntimeRule) : TicketRule where
  ruleID := rule.id
  ruleRevision := rule.definition.revision
  windowGeneration := rule.windowGeneration

def ticketFor (accessKeyID : Nat) (entry : AccessKeyEntry) : Ticket where
  accessKeyID
  rules := entry.rules.map ticketRule
  ids_nodup := by
    rw [List.map_map]
    exact entry.ids_nodup

def admitKey (runtime : Runtime) (accessKeyID : Nat) (now : Time) : Runtime × Ticket × Decision :=
  match lockEntry runtime accessKeyID with
  | none => (runtime, { accessKeyID }, allowedDecision)
  | some entry =>
    let decision := decisionLocked entry now.unixMilli
    if ¬ decision.allowed then (runtime, { accessKeyID }, decision)
    else
      let opened := entry.mapRules (openWindow now) fun rule => by simp [RuntimeRule.id]
      ({ runtime with entries := runtime.entries.insert accessKeyID opened },
        ticketFor accessKeyID opened, allowedDecision)

/-- The ticket was issued for this revision and, for a periodic rule, for this window. -/
def TicketRule.Covers (ticketRule : TicketRule) (rule : RuntimeRule) : Prop :=
  rule.definition.revision = ticketRule.ruleRevision ∧
    (rule.definition.kind = .periodic → rule.windowGeneration = ticketRule.windowGeneration)

instance (ticketRule : TicketRule) (rule : RuntimeRule) : Decidable (ticketRule.Covers rule) :=
  inferInstanceAs (Decidable (_ ∧ _))

/-- The amount after a completion: a negative cost and an overflow both saturate. -/
def chargedAmount (used costNanoUSD : Int) : Int :=
  if costNanoUSD < 0 then MaxInt64
  else if costNanoUSD = 0 then used
  else if used > MaxInt64 - costNanoUSD then MaxInt64
  else used + costNanoUSD

theorem chargedAmount_le (h : used ≤ MaxInt64) (cost : Int) :
    chargedAmount used cost ≤ MaxInt64 := by
  unfold chargedAmount
  split_ifs <;> omega

/-- The fault of a completion after one more rule of the ticket. -/
def chargeFault (used costNanoUSD : Int) (fault : Option CompletionFault) :
    Option CompletionFault :=
  if costNanoUSD < 0 then some .negativeEstimate
  else if costNanoUSD = 0 then fault
  else if used > MaxInt64 - costNanoUSD then fault.or (some .overflow)
  else fault

def charge (costNanoUSD : Int) (rule : RuntimeRule) : RuntimeRule :=
  if chargedAmount rule.usedNanoUSD costNanoUSD = rule.usedNanoUSD then rule
  else advanceVersion { rule with
    usedNanoUSD := chargedAmount rule.usedNanoUSD costNanoUSD
    used_le := chargedAmount_le rule.used_le costNanoUSD }

@[simp] theorem charge_definition (cost : Int) (rule : RuntimeRule) :
    (charge cost rule).definition = rule.definition := by
  unfold charge
  split <;> rfl

/-- The loop of `Complete` over the rules of the ticket. -/
def completeRules (costNanoUSD : Int) : List TicketRule → AccessKeyEntry →
    Option CompletionFault → AccessKeyEntry × Option CompletionFault
  | [], entry, fault => (entry, fault)
  | ticketRule :: rest, entry, fault =>
    match entry.byID ticketRule.ruleID with
    | none => completeRules costNanoUSD rest entry fault
    | some rule =>
      if ticketRule.Covers rule then
        completeRules costNanoUSD rest
          (entry.update ticketRule.ruleID (charge costNanoUSD) fun rule => by simp [RuntimeRule.id])
          (chargeFault rule.usedNanoUSD costNanoUSD fault)
      else completeRules costNanoUSD rest entry fault

def complete (runtime : Runtime) (ticket : Ticket) (costNanoUSD : Int) :
    Runtime × Option CompletionFault :=
  if ticket.accessKeyID = 0 ∨ ticket.rules = [] then (runtime, none)
  else match lockEntry runtime ticket.accessKeyID with
    | none => (runtime, none)
    | some entry =>
      let (charged, fault) := completeRules costNanoUSD ticket.rules entry none
      ({ runtime with
          entries := runtime.entries.insert ticket.accessKeyID charged
          overflowFaultTotal :=
            if fault.isSome then (runtime.overflowFaultTotal + 1) % 2 ^ 64
            else runtime.overflowFaultTotal }, fault)

/-! ## Checkpoints -/

def restoredState (accessKeyID : Nat) (rule : RuntimeRule) : RestoredState where
  accessKeyID
  ruleID := rule.id
  ruleRevision := rule.definition.revision
  usedNanoUSD := rule.usedNanoUSD
  used_le := rule.used_le
  windowStartedAtMS := rule.windowStartedAtMS
  windowEndsAtMS := rule.windowEndsAtMS
  windowGeneration := rule.windowGeneration
  snapshotVersion := rule.snapshotVersion

/-- Whether `DirtySnapshots` returns what it has collected so far. A limit below zero is none. -/
def limitReached (limit : Int) (result : List RestoredState) : Bool :=
  limit > 0 ∧ (result.length : Int) ≥ limit

/-- The inner loop of `DirtySnapshots`, over the rules of one key. -/
def collectRules (limit : Int) (accessKeyID : Nat) :
    List RuntimeRule → List RestoredState → List RestoredState
  | [], result => result
  | rule :: rules, result =>
    if ¬ rule.dirty then collectRules limit accessKeyID rules result
    else
      let result := result ++ [restoredState accessKeyID rule]
      if limitReached limit result then result
      else collectRules limit accessKeyID rules result

/-- One round of the outer loop of `DirtySnapshots`: the entry is locked, read and released. -/
def collectKey (runtime : Runtime) (limit : Int) (accessKeyID : Nat)
    (result : List RestoredState) : List RestoredState :=
  match lockEntry runtime accessKeyID with
  | none => result
  | some entry => collectRules limit accessKeyID entry.rules result

def collectKeys (runtime : Runtime) (limit : Int) :
    List Nat → List RestoredState → List RestoredState
  | [], result => result
  | id :: ids, result =>
    let result := collectKey runtime limit id result
    if limitReached limit result then result else collectKeys runtime limit ids result

def dirtySnapshots (runtime : Runtime) (limit : Int) : List RestoredState :=
  if limit = 0 then [] else collectKeys runtime limit runtime.entries.keys []

/-- `Ack` on the rule it names: the mark goes only if the rule is still as it was written. -/
def ackRule (revision snapshotVersion : Nat) (rule : RuntimeRule) : RuntimeRule :=
  if rule.definition.revision ≠ revision ∨ rule.snapshotVersion ≠ snapshotVersion then rule
  else { rule with dirty := false }

@[simp] theorem ackRule_definition (revision version : Nat) (rule : RuntimeRule) :
    (ackRule revision version rule).definition = rule.definition := by
  unfold ackRule
  split <;> rfl

def ack (runtime : Runtime) (accessKeyID ruleID revision snapshotVersion : Nat) : Runtime :=
  match lockEntry runtime accessKeyID with
  | none => runtime
  | some entry =>
    { runtime with
      entries := runtime.entries.insert accessKeyID
        (entry.update ruleID (ackRule revision snapshotVersion) fun rule => by
          simp [RuntimeRule.id]) }

end ApiLoad.AccessQuota
