import ApiLoad.UsageAggregation.Delta

/-!
# Writing a batch of request logs

`WriteBatch` (`internal/requestlog/worker.go`) drops the rows that the log has already, and in one
transaction stages a journal for every row to aggregate, inserts the rows, and adds the journals
that are not applied yet to the statistics. Every statement may fail, and a call that fails leaves
the tables as they were. The tables of attempts, of audit usage and of decision usage are written
in the same transaction and not read here, so that of them only the failure of a statement is left.
-/
namespace ApiLoad.UsageAggregation
open Std Foundation Text Execution

/-! ## Tables -/

@[ext] structure CredentialAttemptStatKey where
  credentialID : Nat
  bucketStartMS : Int
deriving DecidableEq, Repr

instance : Ord CredentialAttemptStatKey :=
  ⟨compareLex (compareOn CredentialAttemptStatKey.credentialID)
    (compareOn CredentialAttemptStatKey.bucketStartMS)⟩
instance : TransOrd CredentialAttemptStatKey :=
  inferInstanceAs (TransCmp (compareLex (compareOn CredentialAttemptStatKey.credentialID)
    (compareOn CredentialAttemptStatKey.bucketStartMS)))
instance : LawfulEqOrd CredentialAttemptStatKey :=
  KeyOrder.lawful_of_pair fun _ _ => CredentialAttemptStatKey.ext

/-- The counts of `CredentialAttemptStat`, and of a delta of them. -/
structure AttemptCounts where
  successCount : Int := 0
  failureCount : Int := 0
deriving DecidableEq, Repr

structure Database where
  requestLogs : ExtTreeMap String RequestLog := ∅
  journals : ExtTreeMap String UsageAggregationJournal := ∅
  attemptStats : ExtTreeMap CredentialAttemptStatKey AttemptCounts := ∅
  usageStats : ExtTreeMap UsageStatKey UsageCounters := ∅

/-! ## Statements -/

inductive Statement where
  | queryExistingIDs | beginTransaction | stageJournals | insertRequestLogs | saveAuditUsage
  | saveDecisionUsage | insertAttempts | queryJournals | queryAttemptStats | upsertAttemptStat
  | queryUsageStats | upsertUsageStat | markApplied | commitTransaction
deriving DecidableEq, Repr

def Statement.label : Statement → String
  | .queryExistingIDs => "query existing request log IDs"
  | .beginTransaction => "request log transaction: begin transaction"
  | .stageJournals => "stage usage aggregation journals"
  | .insertRequestLogs => "insert request logs"
  | .saveAuditUsage => "save audit usage"
  | .saveDecisionUsage => "save automatic decision usage"
  | .insertAttempts => "insert request log attempts"
  | .queryJournals => "query current usage journals"
  | .queryAttemptStats => "query credential attempt stats"
  | .upsertAttemptStat => "upsert credential attempt stat"
  | .queryUsageStats => "query existing usage stats"
  | .upsertUsageStat => "upsert usage stat"
  | .markApplied => "mark usage journals applied"
  | .commitTransaction => "request log transaction: commit transaction"

/-- How the database answers the statements of a call. -/
structure Driver where
  fault : Statement → Option String := fun _ => none
  constraintViolation : String := "constraint failed"

def Statement.failure (statement : Statement) (text : String) : String :=
  s!"{statement.label}: {text}"

def Driver.exec (driver : Driver) (statement : Statement) : Except String Unit :=
  match driver.fault statement with
  | some text => .error (statement.failure text)
  | none => .ok ()

/-! ## Rows and journals -/

/-- The first row of every request that the log does not have. -/
def newRows (db : Database) (rows : List RequestLog) : List RequestLog :=
  (KeyedList.firsts RequestLog.id [] rows).filter fun row => row.id ∉ db.requestLogs

def prepareNewRequestLogRows (driver : Driver) (db : Database) (rows : List RequestLog) :
    Except String (List RequestLog) := do
  if KeyedList.firsts RequestLog.id [] rows = [] then return []
  driver.exec .queryExistingIDs
  return newRows db rows

/-- The journals of a batch are inserted; a journal whose request has one already is skipped. -/
def staged (table : ExtTreeMap String UsageAggregationJournal)
    (journals : List UsageAggregationJournal) : ExtTreeMap String UsageAggregationJournal :=
  journals.foldl (fun table journal => table.insertIfNew journal.requestID journal) table

def stageUsageAggregationJournals (driver : Driver) (journals : List UsageAggregationJournal)
    (db : Database) : Except String Database := do
  if journals = [] then return db
  driver.exec .stageJournals
  return { db with journals := staged db.journals journals }

/-- A row of the table has a key of its own and a count of attempts that is not negative. -/
def insertRequestLog (driver : Driver) (table : ExtTreeMap String RequestLog) (row : RequestLog) :
    Except String (ExtTreeMap String RequestLog) :=
  if row.id ∈ table || row.attemptCount < 0 then
    .error (Statement.insertRequestLogs.failure driver.constraintViolation)
  else .ok (table.insert row.id row)

/-- The journals of some requests that are not applied yet, in the order of their request IDs. -/
def pendingJournals (table : ExtTreeMap String UsageAggregationJournal) (ids : List String) :
    List UsageAggregationJournal :=
  (table.toList.filter fun entry => entry.1 ∈ ids && !entry.2.applied).map Prod.snd

/-! ## Attempt statistics -/

def addAttempt (deltas : ExtTreeMap CredentialAttemptStatKey AttemptCounts)
    (attempt : RequestLogAttempt) :
    Except String (ExtTreeMap CredentialAttemptStatKey AttemptCounts) := do
  if attempt.credentialID = 0 then throw "aggregate credential attempt: credential ID is zero"
  if attempt.dispatchState = .localOnly || attempt.failureCategory = .downstreamCancel then
    return deltas
  let bucketStartMS ← (alignDown attempt.completedAtMS millisecondsPerHour).mapError
    fun e => s!"aggregate credential attempt completion time: {e}"
  let key : CredentialAttemptStatKey := { credentialID := attempt.credentialID, bucketStartMS }
  let delta := deltas[key]?.getD {}
  match attempt.failureCategory with
  | .ok =>
    let successCount ←
      checkedInt64Add delta.successCount 1 "credential attempt success_count"
    return deltas.insert key { delta with successCount }
  | .unrecognized text =>
    throw s!"aggregate credential attempt: invalid failure category {quoted text}"
  | _ =>
    let failureCount ←
      checkedInt64Add delta.failureCount 1 "credential attempt failure_count"
    return deltas.insert key { delta with failureCount }

def buildCredentialAttemptStatDeltas (attempts : List RequestLogAttempt) :
    Except String (ExtTreeMap CredentialAttemptStatKey AttemptCounts) :=
  attempts.foldlM addAttempt ∅

def upsertAttemptStat (driver : Driver) (stats : ExtTreeMap CredentialAttemptStatKey AttemptCounts)
    (entry : CredentialAttemptStatKey × AttemptCounts) :
    Except String (ExtTreeMap CredentialAttemptStatKey AttemptCounts) := do
  let row := stats[entry.1]?.getD {}
  let successCount ← checkedInt64Add row.successCount entry.2.successCount
    "credential attempt success_count"
  let failureCount ← checkedInt64Add row.failureCount entry.2.failureCount
    "credential attempt failure_count"
  driver.exec .upsertAttemptStat
  return stats.insert entry.1 { successCount, failureCount }

/-- The rows that the query for the statistics of some keys returns: it asks for the credentials
and for the buckets separately. -/
def queriedAttemptStats (stats deltas : ExtTreeMap CredentialAttemptStatKey AttemptCounts) :
    List (CredentialAttemptStatKey × AttemptCounts) :=
  stats.toList.filter fun row =>
    row.1.credentialID ∈ deltas.keys.map (·.credentialID) &&
      row.1.bucketStartMS ∈ deltas.keys.map (·.bucketStartMS)

def applyCredentialAttemptStats (driver : Driver) (attempts : List RequestLogAttempt)
    (db : Database) : Except String Database := do
  let deltas ← buildCredentialAttemptStatDeltas attempts
  if deltas.isEmpty then return db
  driver.exec .queryAttemptStats
  if (queriedAttemptStats db.attemptStats deltas).any fun row =>
      row.2.successCount < 0 || row.2.failureCount < 0 then
    throw "query credential attempt stats: corrupt row"
  let attemptStats ← deltas.toList.foldlM (upsertAttemptStat driver) db.attemptStats
  return { db with attemptStats }

/-! ## Usage statistics -/

/-- The text of a failed addition in `checkedUsageStatTotal`. -/
def totalFailure (field : UsageField) : String :=
  s!"calculate absolute usage stat {field.column}: checked addition failed"

def checkedUsageStatTotal (existing : Option UsageCounters) (delta : UsageCounters) :
    Except String UsageCounters :=
  checkedSum totalFailure (existing.getD 0) delta

/-- The pending journals of some requests with their flag set. -/
def marked (ids : List String) (table : ExtTreeMap String UsageAggregationJournal) :
    ExtTreeMap String UsageAggregationJournal :=
  table.map fun id journal =>
    if id ∈ ids && !journal.applied then { journal with applied := true } else journal

def markApplied (driver : Driver) (ids : List String)
    (table : ExtTreeMap String UsageAggregationJournal) :
    Except String (ExtTreeMap String UsageAggregationJournal) := do
  driver.exec .markApplied
  let updated := (pendingJournals table ids).length
  if updated ≠ ids.length then
    throw (Statement.markApplied.failure s!"updated {updated} of {ids.length} rows")
  return marked ids table

def applyUsageJournalBatch (driver : Driver) (journals : List UsageAggregationJournal)
    (db : Database) : Except String Database := do
  if journals = [] then return db
  let deltas ← buildUsageJournalDeltas journals
  driver.exec .queryUsageStats
  let absolute ← OrderedMap.traverse
    (fun key delta => checkedUsageStatTotal db.usageStats[key]? delta) deltas
  driver.exec .upsertUsageStat
  let table ← markApplied driver (journals.map (·.requestID)) db.journals
  return { db with
    usageStats := absolute.toList.foldl (fun stats entry => stats.insert entry.1 entry.2)
      db.usageStats
    journals := table }

/-! ## The call -/

def writeRequestLogBatch (driver : Driver) (rows : List RequestLog) (db : Database) :
    Except String Database := do
  if rows = [] then return db
  driver.exec .insertRequestLogs
  let requestLogs ← rows.foldlM (insertRequestLog driver) db.requestLogs
  let db := { db with requestLogs }
  driver.exec .saveAuditUsage
  driver.exec .saveDecisionUsage
  let attemptRows := rows.flatMap (·.attemptRows)
  (if attemptRows ≠ [] then driver.exec .insertAttempts else pure ())
  driver.exec .queryJournals
  let journals := pendingJournals db.journals (rows.map (·.id))
  let db ←
    if attemptRows ≠ [] && journals ≠ [] then
      applyCredentialAttemptStats driver
        (attemptRows.filter fun attempt => attempt.requestID ∈ journals.map (·.requestID)) db
    else pure db
  applyUsageJournalBatch driver journals db

/-- The tables after a call that succeeds. -/
def written (driver : Driver) (db : Database) (rows : List RequestLog) :
    Except String Database := do
  let newRows ← prepareNewRequestLogRows driver db rows
  if newRows = [] then return db
  let journals ← buildUsageAggregationJournals newRows
  driver.exec .beginTransaction
  let staged ← stageUsageAggregationJournals driver journals db
  let result ← writeRequestLogBatch driver newRows staged
  driver.exec .commitTransaction
  return result

/-- `WriteBatch`. A transaction that fails is rolled back. -/
def writeBatch (driver : Driver) (db : Database) (rows : List RequestLog) :
    Database × Except String Unit :=
  match written driver db rows with
  | .ok result => (result, .ok ())
  | .error e => (db, .error e)

end ApiLoad.UsageAggregation
