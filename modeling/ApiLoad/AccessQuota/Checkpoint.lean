import ApiLoad.AccessQuota.Run

/-!
# The checkpoint protocol

Three parties share the quota state. Requests change the runtime, the control plane changes the
rule tables and reconciles the runtime with them, and the checkpoint worker copies marked rules
from the runtime to the state table (`internal/requestlog/access_quota_checkpoint.go`,
`internal/requestlog/worker.go`, `internal/control/access_key_cost_limits.go`). A step is one call
on the runtime or one database transaction; a transaction that fails has no effect.
-/
namespace ApiLoad.AccessQuota
open Std Foundation

/-! ## The database -/

structure RuleRow where
  accessKeyID : Nat
  kind : Kind
  limitNanoUSD : Int
  periodSeconds : Int
  ruleRevision : Nat
deriving DecidableEq, Repr

structure StateRow where
  ruleRevision : Nat
  usedNanoUSD : Int := 0
  used_le : usedNanoUSD ≤ MaxInt64 := by first | exact zero_le_max | decide
  windowStartedAtMS : Option Int := none
  windowEndsAtMS : Option Int := none
  windowGeneration : Nat := 0
  snapshotVersion : Nat := 1
deriving Repr

/-- Rule IDs come from an auto-increment column, so none is used twice. -/
structure Database where
  rules : ExtTreeMap Nat RuleRow := ∅
  states : ExtTreeMap Nat StateRow := ∅
  nextID : Nat := 1

def RuleRow.definition (row : RuleRow) (id : Nat) : Rule :=
  { id
    revision := row.ruleRevision
    kind := row.kind
    limitNanoUSD := row.limitNanoUSD
    periodSeconds := row.periodSeconds }

/-- The rules by access key, as the published configuration hands them to `Reconcile`. -/
def Database.definitions (db : Database) : Definitions :=
  db.rules.toList.foldl (fun definitions e =>
    definitions.insert e.2.accessKeyID
      (definitions.getD e.2.accessKeyID [] ++ [e.2.definition e.1])) ∅

def RestoredState.row (snapshot : RestoredState) : StateRow where
  ruleRevision := snapshot.ruleRevision
  usedNanoUSD := snapshot.usedNanoUSD
  used_le := snapshot.used_le
  windowStartedAtMS := snapshot.windowStartedAtMS
  windowEndsAtMS := snapshot.windowEndsAtMS
  windowGeneration := snapshot.windowGeneration
  snapshotVersion := snapshot.snapshotVersion

inductive PersistOutcome where
  | applied
  | alreadyCurrent
  | staleRevision
  | ruleDeleted
deriving DecidableEq, Repr

/-- The condition of the conditional update: same revision, older version. -/
def StateRow.Older (row : StateRow) (snapshot : RestoredState) : Prop :=
  row.ruleRevision = snapshot.ruleRevision ∧ row.snapshotVersion < snapshot.snapshotVersion

instance (row : StateRow) (snapshot : RestoredState) : Decidable (row.Older snapshot) :=
  inferInstanceAs (Decidable (_ ∧ _))

/-- Why the conditional update changed no row. -/
def classifySnapshot (db : Database) (snapshot : RestoredState) : Except String PersistOutcome :=
  match db.rules[snapshot.ruleID]? with
  | none => .ok .ruleDeleted
  | some rule =>
    if rule.accessKeyID ≠ snapshot.accessKeyID then
      .error s!"classify access key cost limit rule {snapshot.ruleID}: access key mismatch"
    else if rule.ruleRevision ≠ snapshot.ruleRevision then .ok .staleRevision
    else match db.states[snapshot.ruleID]? with
      | none => .error s!"classify access key cost limit rule {snapshot.ruleID}: state is missing"
      | some state =>
        if state.ruleRevision ≠ snapshot.ruleRevision then
          .error s!"classify access key cost limit rule {snapshot.ruleID}: state revision mismatch"
        else if state.snapshotVersion ≥ snapshot.snapshotVersion then .ok .alreadyCurrent
        else .error (s!"classify access key cost limit rule {snapshot.ruleID}: database version " ++
          s!"{state.snapshotVersion} is behind incoming {snapshot.snapshotVersion} " ++
          "after no-op update")

def persistAccessQuotaSnapshot (db : Database) (snapshot : RestoredState) :
    Except String (Database × PersistOutcome) :=
  if snapshot.accessKeyID = 0 ∨ snapshot.ruleID = 0 ∨ snapshot.ruleRevision = 0 ∨
      snapshot.snapshotVersion = 0 ∨ snapshot.usedNanoUSD < 0 ∨
      (snapshot.windowStartedAtMS.isNone ≠ snapshot.windowEndsAtMS.isNone) then
    .error s!"persist access key cost limit rule {snapshot.ruleID}: invalid snapshot"
  else if db.states[snapshot.ruleID]?.any (·.Older snapshot) then
    .ok ({ db with states := db.states.insert snapshot.ruleID snapshot.row }, .applied)
  else match classifySnapshot db snapshot with
    | .error message => .error message
    | .ok outcome => .ok (db, outcome)

/-- One transaction: an error rolls everything back. -/
def writeSnapshots (db : Database) : List RestoredState → Except String Database
  | [] => .ok db
  | snapshot :: rest =>
    match persistAccessQuotaSnapshot db snapshot with
    | .error message => .error message
    | .ok (db, _) => writeSnapshots db rest

/-! ## The control plane -/

/-- One round of `createAccessKeyCostLimitRules`. -/
def createRule (db : Database) (accessKeyID : Nat) (kind : Kind)
    (limitNanoUSD periodSeconds : Int) : Database where
  rules := db.rules.insert db.nextID
    { accessKeyID, kind, limitNanoUSD, periodSeconds, ruleRevision := 1 }
  states := db.states.insert db.nextID { ruleRevision := 1 }
  nextID := db.nextID + 1

/-- `resetAccessKeyCostLimitRuleState`. -/
def resetState (db : Database) (ruleID currentRevision nextRevision : Nat) :
    Except String Database :=
  if db.states[ruleID]?.any (·.ruleRevision = currentRevision) then
    .ok { db with states := db.states.insert ruleID { ruleRevision := nextRevision } }
  else .error s!"reset access key cost limit rule {ruleID} state: An unexpected error occurred"

/-- A change of the period, or a reset with the period it has: the rule gets the next revision
and its state starts again. -/
def advanceRevision (db : Database) (ruleID : Nat) (periodSeconds : Int) :
    Except String Database :=
  match db.rules[ruleID]? with
  | none => .error "Input validation failed"
  | some rule =>
    if rule.ruleRevision = MaxUint64 then
      .error s!"advance access key cost limit rule {ruleID} revision: An unexpected error occurred"
    else
      let next := { rule with periodSeconds, ruleRevision := rule.ruleRevision + 1 }
      resetState { db with rules := db.rules.insert ruleID next } ruleID rule.ruleRevision
        next.ruleRevision

def changeLimit (db : Database) (ruleID : Nat) (limitNanoUSD : Int) : Database :=
  match db.rules[ruleID]? with
  | none => db
  | some rule => { db with rules := db.rules.insert ruleID { rule with limitNanoUSD } }

/-- The foreign key deletes the state with the rule. -/
def deleteRule (db : Database) (ruleID : Nat) : Database :=
  { db with rules := db.rules.erase ruleID, states := db.states.erase ruleID }

def StateRow.restored (row : StateRow) (accessKeyID ruleID : Nat) : RestoredState where
  accessKeyID
  ruleID
  ruleRevision := row.ruleRevision
  usedNanoUSD := row.usedNanoUSD
  used_le := row.used_le
  windowStartedAtMS := row.windowStartedAtMS
  windowEndsAtMS := row.windowEndsAtMS
  windowGeneration := row.windowGeneration
  snapshotVersion := row.snapshotVersion

/-- The states that the loader hands to `Restore` when the process starts. -/
def loadStates (rules : ExtTreeMap Nat RuleRow) :
    List (Nat × StateRow) → Except String (List RestoredState)
  | [] => .ok []
  | (id, row) :: rest =>
    match rules[id]? with
    | none => .error s!"query access key cost limit states: orphan state for rule {id}"
    | some rule =>
      match loadStates rules rest with
      | .error message => .error message
      | .ok states => .ok (row.restored rule.accessKeyID id :: states)

/-! ## The worker and the whole system -/

/-- Where `flushAccessQuotaCheckpoints` stands. -/
inductive Worker where
  | idle
  /-- Inside `DirtySnapshots`, with the keys still to visit. -/
  | collecting (limit : Int) (ids : List Nat) (result : List RestoredState)
  | writing (snapshots : List RestoredState)
  /-- The transaction has committed; these are still to be acknowledged. -/
  | acking (snapshots : List RestoredState)

def Worker.snapshots : Worker → List RestoredState
  | .idle => []
  | .collecting _ _ result => result
  | .writing snapshots => snapshots
  | .acking snapshots => snapshots

structure System where
  runtime : Runtime
  db : Database
  worker : Worker

def System.initial : System := ⟨newRuntime, {}, .idle⟩

def VersionsBelow (runtime : Runtime) : Prop :=
  ∀ key id rule, ruleAt runtime key id = some rule → rule.snapshotVersion < MaxUint64

/-- After `DirtySnapshots` has visited a key. -/
def afterCollect (limit : Int) (ids : List Nat) (result : List RestoredState) : Worker :=
  if limitReached limit result then .writing result else .collecting limit ids result

inductive Step : System → System → Prop where
  | admitted {runtime db worker} (key now) (below : VersionsBelow runtime) :
      Step ⟨runtime, db, worker⟩ ⟨(admitKey runtime key now).1, db, worker⟩
  | completed {runtime db worker} (ticket cost) (below : VersionsBelow runtime) :
      Step ⟨runtime, db, worker⟩ ⟨(complete runtime ticket cost).1, db, worker⟩
  | reconciled {runtime db worker runtime'}
      (ok : reconcile runtime db.definitions = .ok runtime') :
      Step ⟨runtime, db, worker⟩ ⟨runtime', db, worker⟩
  | created {runtime db worker} (key kind limit period) :
      Step ⟨runtime, db, worker⟩ ⟨runtime, createRule db key kind limit period, worker⟩
  | advanced {runtime db worker db'} (id period) (ok : advanceRevision db id period = .ok db') :
      Step ⟨runtime, db, worker⟩ ⟨runtime, db', worker⟩
  | limited {runtime db worker} (id limit) :
      Step ⟨runtime, db, worker⟩ ⟨runtime, changeLimit db id limit, worker⟩
  | deleted {runtime db worker} (id) :
      Step ⟨runtime, db, worker⟩ ⟨runtime, deleteRule db id, worker⟩
  | started {runtime db} (limit : Int) (nonzero : limit ≠ 0) :
      Step ⟨runtime, db, .idle⟩ ⟨runtime, db, .collecting limit runtime.entries.keys []⟩
  | collected {runtime db limit id ids result} :
      Step ⟨runtime, db, .collecting limit (id :: ids) result⟩
        ⟨runtime, db, afterCollect limit ids (collectKey runtime limit id result)⟩
  | handed {runtime db limit result} (nonempty : result ≠ []) :
      Step ⟨runtime, db, .collecting limit [] result⟩ ⟨runtime, db, .writing result⟩
  | nothing {runtime db limit} :
      Step ⟨runtime, db, .collecting limit [] []⟩ ⟨runtime, db, .idle⟩
  | written {runtime db snapshots db'} (ok : writeSnapshots db snapshots = .ok db') :
      Step ⟨runtime, db, .writing snapshots⟩ ⟨runtime, db', .acking snapshots⟩
  | failed {runtime db snapshots} :
      Step ⟨runtime, db, .writing snapshots⟩ ⟨runtime, db, .idle⟩
  | acked {runtime db snapshot rest} :
      Step ⟨runtime, db, .acking (snapshot :: rest)⟩
        ⟨ack runtime snapshot.accessKeyID snapshot.ruleID snapshot.ruleRevision
          snapshot.snapshotVersion, db, .acking rest⟩
  | finished {runtime db} : Step ⟨runtime, db, .acking []⟩ ⟨runtime, db, .idle⟩
  | restarted {runtime db worker states loaded runtime'}
      (read : loadStates db.rules db.states.toList = .ok states)
      (restored : restore newRuntime states = .ok loaded)
      (ok : reconcile loaded db.definitions = .ok runtime') :
      Step ⟨runtime, db, worker⟩ ⟨runtime', db, .idle⟩

def Reachable (system : System) : Prop := Relation.ReflTransGen Step System.initial system

end ApiLoad.AccessQuota
