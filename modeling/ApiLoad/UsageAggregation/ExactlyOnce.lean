import ApiLoad.UsageAggregation.Effects

/-!
# Every request is counted once

The worker writes batches one after the other, and between two of them the retention may delete
rows of the request log while their journals stay. The rows of the successful calls, taken one by
one, decide what the tables hold: a row is written if the log does not have its request, and a
statistic is the sum over the requests of what the first written row to aggregate adds to it.
-/
namespace ApiLoad.UsageAggregation
open Std Foundation KeyedList List

/-! ## Histories -/

inductive Event where
  | writeBatch (driver : Driver) (rows : List RequestLog)
  | retention (ids : List String)

def Event.perform (db : Database) : Event → Database
  | .writeBatch driver rows => (UsageAggregation.writeBatch driver db rows).1
  | .retention ids =>
    { db with requestLogs := ids.foldl (fun table id => table.erase id) db.requestLogs }

def run (history : List Event) : Database := history.foldl Event.perform {}

/-- What reaches the tables one by one: a row of a successful call, or a deletion. -/
inductive Delivery where
  | row (row : RequestLog)
  | deletion (ids : List String)
deriving DecidableEq

def Event.deliveries (db : Database) : Event → List Delivery
  | .writeBatch driver rows =>
    match (UsageAggregation.writeBatch driver db rows).2 with
    | .ok () => rows.map .row
    | .error _ => []
  | .retention ids => [.deletion ids]

/-- The rows that an event inserts into the request log. -/
def Event.writes (db : Database) : Event → List RequestLog
  | .writeBatch driver rows =>
    match (UsageAggregation.writeBatch driver db rows).2 with
    | .ok () => newRows db rows
    | .error _ => []
  | .retention _ => []

/-- What the events of a history contribute, each at the tables that the events before it left. -/
def collect {α : Type} (f : Database → Event → List α) (db : Database) : List Event → List α
  | [] => []
  | event :: history => f db event ++ collect f (event.perform db) history

def deliveries (history : List Event) : List Delivery := collect Event.deliveries {} history

def writes (history : List Event) : List RequestLog := collect Event.writes {} history

theorem collect_append {α : Type} (f : Database → Event → List α) (db : Database)
    (history : List Event) (event : Event) :
    collect f db (history ++ [event]) =
      collect f db history ++ f (history.foldl Event.perform db) event := by
  induction history generalizing db with
  | nil => simp [collect]
  | cons first history ih => simp [collect, ih]

/-! ## Rows one by one -/

/-- The request log, and all rows that were ever written to it. -/
structure Log where
  requestLogs : ExtTreeMap String RequestLog := ∅
  written : List RequestLog := []

def Log.deliver (log : Log) : Delivery → Log
  | .row row =>
    if row.id ∈ log.requestLogs then log
    else { requestLogs := log.requestLogs.insert row.id row, written := log.written ++ [row] }
  | .deletion ids =>
    { log with requestLogs := ids.foldl (fun table id => table.erase id) log.requestLogs }

/-- The written rows that take part in the statistics: the first one of each request. -/
def counted (written : List RequestLog) : List RequestLog :=
  firsts RequestLog.id [] (written.filter (·.aggregatable))

theorem newRows_eq (db : Database) (rows : List RequestLog) :
    newRows db rows = firsts RequestLog.id db.requestLogs.keys rows := by
  have h := @KeyedList.filter_firsts _ _ _ RequestLog.id [] db.requestLogs.keys rows
  simpa [newRows] using h

theorem deliver_rows (log : Log) (rows : List RequestLog) :
    (rows.map Delivery.row).foldl Log.deliver log =
      let new := firsts RequestLog.id log.requestLogs.keys rows
      { requestLogs := new.foldl (fun table row => table.insert row.id row) log.requestLogs
        written := log.written ++ new } := by
  induction rows generalizing log with
  | nil => simp [firsts]
  | cons row rows ih =>
    rw [map_cons, foldl_cons, ih, firsts]
    by_cases hrow : row.id ∈ log.requestLogs
    · simp [Log.deliver, hrow]
    have hkeys : firsts RequestLog.id (log.requestLogs.insert row.id row).keys rows =
        firsts RequestLog.id (row.id :: log.requestLogs.keys) rows :=
      firsts_congr (fun k => by
        rw [ExtTreeMap.mem_keys, ExtTreeMap.mem_insert, LawfulEqOrd.compare_eq_iff_eq]
        simp [eq_comm]) rows
    simp [Log.deliver, hrow, hkeys]

/-! ## What the tables hold -/

/-- The attempts of a row name its request, as the rows do that are made of a request event. -/
def RequestLog.Attached (row : RequestLog) : Prop :=
  ∀ attempt ∈ row.attemptRows, attempt.requestID = row.id

instance : DecidablePred RequestLog.Attached := fun row => by
  unfold RequestLog.Attached
  infer_instance

/-- The tables after the rows of a log. -/
structure Represents (db : Database) (log : Log) : Prop where
  requestLogs : db.requestLogs = log.requestLogs
  journaled : ∀ row ∈ log.written, row.aggregatable → (journalOf row).isSome
  journals : ∀ id : String, db.journals[id]? =
    ((log.written.filter (·.aggregatable)).find? (·.id = id)).bind fun row =>
      (journalOf row).map ({ · with applied := true })
  sums : ∀ key : UsageStatKey, db.usageStats[key]?.getD 0 =
    ((counted log.written).map fun row => (deltaFor key row).getD 0).sum
  present : ∀ key : UsageStatKey, db.usageStats[key]?.isSome ↔
    ∃ row ∈ counted log.written, (deltaFor key row).isSome
  attempts : (∀ row ∈ log.written, row.Attached) → ∀ key : CredentialAttemptStatKey,
    db.attemptStats[key]? = tallied key ((counted log.written).flatMap (·.attemptRows))

theorem represents_empty : Represents {} {} where
  requestLogs := rfl
  journaled := by simp
  journals := by simp
  sums := by simp [counted, firsts]
  present := by simp [counted, firsts]
  attempts := by simp [counted, firsts, tallied]

variable {db : Database} {log : Log}

theorem Represents.mem_journals (h : Represents db log) (id : String) :
    id ∈ db.journals ↔ id ∈ (log.written.filter (·.aggregatable)).map (·.id) := by
  rw [ExtTreeMap.mem_iff_isSome_getElem?, h.journals]
  cases hfind : (log.written.filter (·.aggregatable)).find? (·.id = id) with
  | none =>
    simp only [find?_eq_none, decide_eq_true_eq] at hfind
    simpa using fun row hrow hagg => hfind row (mem_filter.mpr ⟨hrow, hagg⟩)
  | some row =>
    have hmem := mem_of_find?_eq_some hfind
    obtain ⟨hrow, hagg⟩ := mem_filter.mp hmem
    have hid : row.id = id := by simpa using find?_some hfind
    simpa [h.journaled row hrow hagg] using ⟨row, ⟨hrow, hagg⟩, hid⟩

theorem Represents.applied (h : Represents db log) {id : String}
    (hj : db.journals[id]? = some journal) : journal.applied = true ∧ journal.requestID = id := by
  rw [h.journals, Option.bind_eq_some_iff] at hj
  obtain ⟨row, hrow, hj⟩ := hj
  obtain ⟨own, hown, rfl⟩ := Option.map_eq_some_iff.mp hj
  refine ⟨rfl, ?_⟩
  rw [(journalOf_eq_some hown).1]
  simpa using find?_some hrow

/-! ## A successful call -/

section Call

variable {rows : List RequestLog} {journals : List UsageAggregationJournal}

section

variable (h : JournalsOf rows journals)
include h

theorem find_journals (id : String) :
    journals.find? (·.requestID = id) = (rows.find? (·.id = id)).bind journalOf := by
  induction h with
  | nil => rfl
  | @cons row journal _ _ hrow _ ih =>
    rw [find?_cons, find?_cons, ih, (journalOf_eq_some hrow).1]
    by_cases hid : row.id = id <;> simp [hid, hrow]

theorem requestIDs_journals : journals.map (·.requestID) = rows.map (·.id) := by
  induction h with
  | nil => rfl
  | cons hrow _ ih => simp [ih, (journalOf_eq_some hrow).1]

/-- The journals that pass a test of their request, and the deltas of their rows. -/
theorem deltas_journals (p : String → Bool) (key : UsageStatKey) :
    (journals.filter (p ·.requestID)).map (·.at key) =
      (rows.filter (p ·.id)).map (deltaFor key) := by
  induction h with
  | nil => rfl
  | @cons row journal _ _ hrow _ ih =>
    obtain ⟨hid, -, hat⟩ := journalOf_eq_some hrow
    by_cases hp : p row.id <;> simp [hid, hp, hat, ih]

theorem journaled_rows (hrow : row ∈ rows) : (journalOf row).isSome := by
  induction h with
  | nil => cases hrow
  | cons hfirst _ ih =>
    rcases mem_cons.mp hrow with rfl | hrow
    · simp [hfirst]
    · exact ih hrow

theorem unapplied_journals (hj : journal ∈ journals) : journal.applied = false := by
  induction h with
  | nil => cases hj
  | cons hrow _ ih =>
    rcases mem_cons.mp hj with rfl | hj
    · exact (journalOf_eq_some hrow).2.1
    · exact ih hj

end

variable {db : Database} {log : Log} {ids : List String}

theorem lookup_staged (table : ExtTreeMap String UsageAggregationJournal) (id : String) :
    (staged table journals)[id]? = table[id]?.or (journals.find? (·.requestID = id)) := by
  simpa [staged] using @OrderedMap.lookup_insertNewEach _ _ _ _ _ _ _
    UsageAggregationJournal.requestID (fun journal => journal) journals table id

theorem Represents.filed_staged (h : Represents db log) : Filed (staged db.journals journals) := by
  intro id journal hj
  rw [lookup_staged, Option.or_eq_some_iff] at hj
  rcases hj with hj | ⟨-, hj⟩
  · exact (h.applied hj).2
  · simpa using find?_some hj

section

variable (h : Represents db log) (hjournals : JournalsOf rows journals)
  (hnodup : (rows.map (·.id)).Nodup) (hids : ∀ row ∈ rows, row.id ∈ ids)
include h hjournals hnodup hids

/-- Among the staged journals exactly those of requests without a journal are pending. -/
theorem Represents.pending_perm :
    (pendingJournals (staged db.journals journals) ids).Perm
      (journals.filter (·.requestID ∉ db.journals)) := by
  have hkeys : (journals.map (·.requestID)).Nodup := requestIDs_journals hjournals ▸ hnodup
  refine (perm_ext_iff_of_nodup (nodup_pendingJournals h.filed_staged ids)
    (hkeys.of_map.filter _)).mpr fun journal => ?_
  rw [mem_pendingJournals h.filed_staged, lookup_staged, mem_filter, decide_eq_true_eq,
    ExtTreeMap.mem_iff_isSome_getElem?, Option.or_eq_some_iff]
  constructor
  · rintro ⟨hj | ⟨hnone, hj⟩, -, happlied⟩
    · rw [(h.applied hj).1] at happlied
      cases happlied
    · exact ⟨mem_of_find?_eq_some hj, by simp [hnone]⟩
  rintro ⟨hj, hnone⟩
  have hid : journal.requestID ∈ rows.map (·.id) :=
    requestIDs_journals hjournals ▸ mem_map_of_mem hj
  obtain ⟨row, hrow, hid⟩ := mem_map.mp hid
  exact ⟨.inr ⟨by simpa using hnone, (find_eq_some hkeys).mpr ⟨hj, rfl⟩⟩,
    hid ▸ hids row hrow, unapplied_journals hjournals hj⟩

/-- Once marked, a staged journal is that of the first row of its request. -/
theorem Represents.lookup_marked (id : String) :
    (marked ((pendingJournals (staged db.journals journals) ids).map (·.requestID))
      (staged db.journals journals))[id]? =
    ((log.written.filter (·.aggregatable) ++ rows).find? (·.id = id)).bind fun row =>
      (journalOf row).map ({ · with applied := true }) := by
  rw [marked, ExtTreeMap.getElem?_map, lookup_staged, find?_append]
  cases hold : (log.written.filter (·.aggregatable)).find? (·.id = id) with
  | some row =>
    obtain ⟨hrow, hagg⟩ := mem_filter.mp (mem_of_find?_eq_some hold)
    obtain ⟨own, hown⟩ := Option.isSome_iff_exists.mp (h.journaled row hrow hagg)
    simp [h.journals, hold, hown]
  | none =>
    have hnone : db.journals[id]? = none := by simp [h.journals, hold]
    rw [hnone, Option.none_or, Option.none_or]
    cases hfind : journals.find? (·.requestID = id) with
    | none =>
      rw [find_journals hjournals] at hfind
      cases hrow : rows.find? (·.id = id) with
      | none => rfl
      | some row => simpa [hrow] using hfind
    | some journal =>
      have hj := mem_of_find?_eq_some hfind
      have hid : journal.requestID = id := by simpa using find?_some hfind
      have hpending : id ∈ (pendingJournals (staged db.journals journals) ids).map (·.requestID) :=
        mem_map.mpr ⟨journal, (h.pending_perm hjournals hnodup hids).mem_iff.mpr
          (mem_filter.mpr ⟨hj, by
            simp [ExtTreeMap.mem_iff_isSome_getElem?, hid, hnone]⟩), hid⟩
      rw [find_journals hjournals, Option.bind_eq_some_iff] at hfind
      obtain ⟨row, hrow, hown⟩ := hfind
      simp [hpending, unapplied_journals hjournals hj, hrow, hown]

end

/-- Attached attempts that pass a test of their request are those of the rows that pass it. -/
theorem attempts_filter (attached : ∀ row ∈ rows, row.Attached) (p : String → Bool) :
    (rows.flatMap (·.attemptRows)).filter (p ·.requestID) =
      (rows.filter (p ·.id)).flatMap (·.attemptRows) := by
  induction rows with
  | nil => rfl
  | cons row rows ih =>
    have same : ∀ attempt ∈ row.attemptRows, p attempt.requestID = p row.id := fun attempt h =>
      congrArg p (attached row mem_cons_self attempt h)
    rw [flatMap_cons, filter_append, ih fun row h => attached row (mem_cons_of_mem _ h),
      filter_congr same]
    by_cases hp : p row.id <;> simp [hp]

/-- The attempts of a batch that are counted are those of the new rows without a journal. -/
theorem Represents.attempts_pending (h : Represents db log) {new : List RequestLog}
    (hnodup : (new.map (·.id)).Nodup) (attached : ∀ row ∈ new, row.Attached)
    (hjournals : JournalsOf (new.filter (·.aggregatable)) journals) :
    attemptsOf new (pendingJournals (staged db.journals journals) (new.map (·.id))) =
      ((new.filter (·.aggregatable)).filter (·.id ∉ db.journals)).flatMap (·.attemptRows) := by
  have hperm := h.pending_perm hjournals (hnodup.sublist (filter_sublist.map _))
    (fun row hrow => mem_map_of_mem (mem_of_mem_filter hrow))
  have pending (id : String) :
      id ∈ (pendingJournals (staged db.journals journals) (new.map (·.id))).map (·.requestID) ↔
        id ∉ db.journals ∧ id ∈ (new.filter (·.aggregatable)).map (·.id) := by
    rw [(hperm.map _).mem_iff, ← requestIDs_journals hjournals]
    simp only [mem_map, mem_filter, decide_eq_true_eq]
    grind
  refine (attempts_filter attached fun id => id ∈ (pendingJournals (staged db.journals journals)
    (new.map (·.id))).map (·.requestID)).trans ?_
  rw [filter_filter]
  refine congrArg _ (filter_congr fun row hrow => ?_)
  have own : row.id ∈ (new.filter (·.aggregatable)).map (·.id) ↔ row.aggregatable = true := by
    constructor
    · intro listed
      obtain ⟨other, hother, same⟩ := mem_map.mp listed
      obtain rfl := inj_on_of_nodup_map hnodup (mem_of_mem_filter hother) hrow same
      exact (mem_filter.mp hother).2
    · exact fun agg => mem_map_of_mem (mem_filter.mpr ⟨hrow, agg⟩)
  simp only [pending, own, Bool.decide_and, Bool.decide_eq_true]

theorem Represents.counted_append (h : Represents db log) {new : List RequestLog}
    (hnodup : ((new.filter (·.aggregatable)).map (·.id)).Nodup) :
    counted (log.written ++ new) =
      counted log.written ++ (new.filter (·.aggregatable)).filter (·.id ∉ db.journals) := by
  rw [counted, filter_append, firsts_append, nil_append,
    firsts_of_nodup hnodup]
  simp only [h.mem_journals, counted]

/-! ## A successful call -/

theorem Represents.written (h : Represents db log)
    (hwritten : UsageAggregation.written driver db rows = .ok db') :
    Represents db' ((rows.map Delivery.row).foldl Log.deliver log) := by
  obtain ⟨journals, attemptStats, hjournals, htallies, happly⟩ := written_ok hwritten
  rw [deliver_rows, ← h.requestLogs, ← newRows_eq]
  have hagg : (((newRows db rows).filter (·.aggregatable)).map (·.id)).Nodup := by
    rw [newRows_eq]
    exact (nodup_firsts ..).sublist (filter_sublist.map _)
  have hids : ∀ row ∈ (newRows db rows).filter (·.aggregatable),
      row.id ∈ (newRows db rows).map (·.id) := fun row hrow =>
    mem_map_of_mem (mem_of_mem_filter hrow)
  have hperm := h.pending_perm hjournals hagg hids
  have hdeltas := fun key => deltas_journals hjournals (fun id => id ∉ db.journals) key
  obtain ⟨htable, hlogs, hattempts⟩ := applyUsageJournalBatch_journals happly
  constructor
  case requestLogs => exact hlogs
  case journaled =>
    intro row hrow hagg
    rcases mem_append.mp hrow with hrow | hrow
    · exact h.journaled row hrow hagg
    · exact journaled_rows hjournals (mem_filter.mpr ⟨hrow, hagg⟩)
  case journals =>
    intro id
    rw [htable, filter_append]
    exact h.lookup_marked hjournals hagg hids id
  case sums =>
    intro key
    obtain ⟨hsum, -⟩ := applyUsageJournalBatch_stats happly key
    rw [hsum, h.sums, h.counted_append hagg, map_append, sum_append,
      (hperm.map _).sum_eq]
    congr 2
    simpa [Function.comp_def] using congrArg (map (·.getD 0)) (hdeltas key)
  case present =>
    intro key
    obtain ⟨-, hmem⟩ := applyUsageJournalBatch_stats happly key
    have hnew := congrArg (fun l : List (Option UsageCounters) => ∃ delta ∈ l, delta.isSome)
      (hdeltas key)
    simp only [mem_map, exists_exists_and_eq_and] at hnew
    simp only [hmem, h.present, h.counted_append hagg, hperm.mem_iff, hnew, mem_append,
      or_and_right, exists_or]
  case attempts =>
    intro attached key
    have old := h.attempts (fun row hrow => attached row (mem_append_left _ hrow)) key
    have pending := h.attempts_pending (newRows_eq db rows ▸ nodup_firsts ..)
      (fun row hrow => attached row (mem_append_right _ hrow)) hjournals
    rw [hattempts, htallies, old, pending, h.counted_append hagg, flatMap_append, tallied_append]

end Call

/-! ## Whole histories -/

theorem Represents.perform (h : Represents db log) (event : Event) :
    Represents (event.perform db) ((event.deliveries db).foldl Log.deliver log) ∧
      ((event.deliveries db).foldl Log.deliver log).written =
        log.written ++ event.writes db := by
  cases event with
  | retention ids =>
    refine ⟨⟨?_, h.journaled, h.journals, h.sums, h.present, h.attempts⟩, ?_⟩
    · simp [Event.perform, Event.deliveries, Log.deliver, h.requestLogs]
    · simp [Event.deliveries, Event.writes, Log.deliver]
  | writeBatch driver rows =>
    cases hwritten : UsageAggregation.written driver db rows with
    | error e => simpa [Event.perform, Event.deliveries, Event.writes, writeBatch, hwritten] using h
    | ok db' =>
      simp only [Event.perform, Event.deliveries, Event.writes, writeBatch, hwritten]
      refine ⟨h.written hwritten, ?_⟩
      rw [deliver_rows, newRows_eq, h.requestLogs]

/-- The rows of the successful calls and the deletions, one by one. -/
def delivered (history : List Event) : Log := (deliveries history).foldl Log.deliver {}

theorem represents_run (history : List Event) :
    Represents (run history) (delivered history) ∧
      (delivered history).written = writes history := by
  induction history using reverseRecOn with
  | nil => exact ⟨represents_empty, rfl⟩
  | append_singleton history event ih =>
    obtain ⟨h, hwrites⟩ := ih
    obtain ⟨h, hwritten⟩ := h.perform event
    rw [run, delivered, deliveries, writes, collect_append, collect_append, foldl_append,
      foldl_append]
    exact ⟨h, by rw [← writes, ← hwrites]; exact hwritten⟩

/-- Tables of one log are equal, those of the attempts if they name their requests. -/
theorem Represents.unique (h : Represents db log) (h' : Represents db' log) :
    db.requestLogs = db'.requestLogs ∧ db.journals = db'.journals ∧
      db.usageStats = db'.usageStats ∧
      ((∀ row ∈ log.written, row.Attached) → db.attemptStats = db'.attemptStats) := by
  refine ⟨h.requestLogs.trans h'.requestLogs.symm, ?_, ?_, fun attached => ?_⟩
  · ext id : 1
    rw [h.journals, h'.journals]
  · ext key : 1
    have hsum := (h.sums key).trans (h'.sums key).symm
    have hpresent := (h.present key).trans (h'.present key).symm
    cases hl : db.usageStats[key]? <;> cases hr : db'.usageStats[key]? <;> simp_all
  · ext key : 1
    rw [h.attempts attached, h'.attempts attached]

section Example

def sampleRow (id model : String) : RequestLog :=
  { id, completedAtMS := 7200001, accessKeyID := 1, groupID := 1, channelID := "openai",
    credentialID := 1, operation := .chatCompletion, upstreamModel := model, status := .success,
    attemptCount := 1, billingUnit := .token, usageState := .notApplicable,
    costState := .notApplicable, pricingCompleteness := .notApplicable
    attemptRows := [⟨id, 7200001, 1, .maybeSent, .ok⟩] }

/-- Request `"a"` is written for model `"m"`; after its row was deleted it is written again for
model `"n"`, with another request of that model. -/
def sampleHistory : List Event :=
  [.writeBatch {} [sampleRow "a" "m"], .retention ["a"],
   .writeBatch {} [sampleRow "a" "n", sampleRow "b" "n"]]

end Example

end ApiLoad.UsageAggregation
