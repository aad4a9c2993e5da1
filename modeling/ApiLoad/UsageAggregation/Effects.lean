import ApiLoad.UsageAggregation.Write

/-!
# What a successful call writes

The loops of `WriteBatch` read as updates of the tables. The journals of a batch are those of its
rows to aggregate; what is staged is found unless the request has a journal already; and a
statistic grows by the counters of the journals that were not applied yet, those of the attempts by
the attempts of their requests.
-/
namespace ApiLoad.UsageAggregation
open Std Foundation Fallible OrderedMap List

/-! ## The journal of a row -/

/-- The counters that a row adds to the statistic of a key. -/
def deltaFor (key : UsageStatKey) (row : RequestLog) : Option UsageCounters :=
  match buildUsageStatDeltas [row] with
  | .ok deltas => deltas[key]?
  | .error _ => none

/-- The journal of a row that can be aggregated. -/
def journalOf (row : RequestLog) : Option UsageAggregationJournal :=
  match buildUsageAggregationJournal row with
  | .ok [journal] => some journal
  | _ => none

/-- The counters that a journal holds for a key. -/
def UsageAggregationJournal.at (journal : UsageAggregationJournal) (key : UsageStatKey) :
    Option UsageCounters :=
  if journal.key = key then some journal.counters else none

variable {journals : List UsageAggregationJournal}

theorem buildUsageAggregationJournal_ok (h : buildUsageAggregationJournal row = .ok journals) :
    ∃ journal, journals = [journal] ∧ journalOf row = some journal ∧ journal.requestID = row.id ∧
      journal.applied = false ∧ ∀ key, journal.at key = deltaFor key row := by
  have hjournals := h
  obtain ⟨deltas, hdeltas, h⟩ := bind_ok.mp h
  split at h
  · cases h
  rename_i hsize
  obtain ⟨⟨key, delta⟩, hlist⟩ : ∃ e, deltas.toList = [e] := by
    rw [← length_eq_one_iff, ExtTreeMap.length_toList]
    exact not_not.mp hsize
  simp only [hlist, map_cons, map_nil] at h
  cases h
  refine ⟨_, rfl, by simp only [journalOf, hjournals], rfl, rfl, fun k => ?_⟩
  have hlookup : ∀ v, deltas[k]? = some v ↔ (k, v) = (key, delta) := by
    intro v
    rw [← ExtTreeMap.mem_toList_iff_getElem?_eq_some, hlist, mem_singleton]
  ext v
  simp only [deltaFor, hdeltas, hlookup, UsageAggregationJournal.at]
  grind

theorem journalOf_eq_some (h : journalOf row = some journal) :
    journal.requestID = row.id ∧ journal.applied = false ∧
      ∀ key, journal.at key = deltaFor key row := by
  unfold journalOf at h
  split at h
  · rename_i hok
    obtain ⟨j, hj, -, hspec⟩ := buildUsageAggregationJournal_ok hok
    cases hj
    cases h
    exact hspec
  · cases h

abbrev JournalsOf (rows : List RequestLog) (journals : List UsageAggregationJournal) : Prop :=
  List.Forall₂ (fun row journal => journalOf row = some journal) rows journals

theorem buildUsageAggregationJournals_ok (h : buildUsageAggregationJournals rows = .ok journals) :
    JournalsOf (rows.filter (·.aggregatable)) journals := by
  -- The loop appends to the journals of the rows before.
  suffices hloop : ∀ (before journals : List UsageAggregationJournal),
      rows.foldlM (fun journals row =>
        if row.aggregatable then do return journals ++ (← buildUsageAggregationJournal row)
        else return journals) before = .ok journals →
      ∃ own, journals = before ++ own ∧ JournalsOf (rows.filter (·.aggregatable)) own by
    obtain ⟨own, rfl, hown⟩ := hloop [] journals h
    exact hown
  clear h
  induction rows with
  | nil =>
    intro before journals h
    cases h
    exact ⟨[], by simp, .nil⟩
  | cons row rows ih =>
    intro before journals h
    rw [foldlM_cons] at h
    obtain ⟨next, hnext, h⟩ := bind_ok.mp h
    obtain ⟨own, rfl, hown⟩ := ih next journals h
    split at hnext
    · rename_i hrow
      obtain ⟨first, hfirst, hnext⟩ := bind_ok.mp hnext
      cases hnext
      obtain ⟨journal, rfl, hjournal, -⟩ := buildUsageAggregationJournal_ok hfirst
      refine ⟨journal :: own, by simp, ?_⟩
      rw [filter_cons_of_pos hrow]
      exact .cons hjournal hown
    · rename_i hrow
      cases hnext
      exact ⟨own, rfl, by rwa [filter_cons_of_neg hrow]⟩

/-! ## Sums of journals -/

theorem buildUsageJournalDeltas_ok (h : buildUsageJournalDeltas journals = .ok deltas)
    (key : UsageStatKey) :
    deltas[key]?.getD 0 = (journals.map fun journal => (journal.at key).getD 0).sum ∧
      (deltas[key]?.isSome ↔ ∃ journal ∈ journals, (journal.at key).isSome) := by
  suffices hloop : ∀ start : ExtTreeMap UsageStatKey UsageCounters,
      journals.foldlM (fun deltas journal => do
        let delta ← checkedSum journalSumFailure (deltas[journal.key]?.getD 0) journal.counters
        return deltas.insert journal.key delta) start = .ok deltas →
      deltas[key]?.getD 0 =
        start[key]?.getD 0 + (journals.map fun journal => (journal.at key).getD 0).sum ∧
      (deltas[key]?.isSome ↔
        start[key]?.isSome ∨ ∃ journal ∈ journals, (journal.at key).isSome) by
    simpa using hloop ∅ h
  clear h
  induction journals with
  | nil =>
    intro start h
    cases h
    simp
  | cons journal journals ih =>
    intro start h
    rw [foldlM_cons] at h
    obtain ⟨next, hnext, h⟩ := bind_ok.mp h
    obtain ⟨delta, hdelta, hnext⟩ := bind_ok.mp hnext
    cases hnext
    obtain ⟨hsum, hmem⟩ := ih _ h
    rw [hsum, hmem, checkedSum_ok hdelta, lookup_insert]
    simp only [map_cons, sum_cons, UsageAggregationJournal.at,
      exists_mem_cons_iff]
    by_cases hkey : journal.key = key
    · subst hkey
      simp [add_assoc]
    · simp [hkey]

section

variable {driver : Driver} {journals : List UsageAggregationJournal} {db db' : Database}
  (h : applyUsageJournalBatch driver journals db = .ok db')
include h

theorem applyUsageJournalBatch_ok :
    (journals = [] ∧ db' = db) ∨ ∃ deltas absolute,
      buildUsageJournalDeltas journals = .ok deltas ∧
      traverse (fun key delta => checkedUsageStatTotal db.usageStats[key]? delta) deltas
        = .ok absolute ∧
      db' = { db with
        usageStats := absolute.toList.foldl (fun stats entry => stats.insert entry.1 entry.2)
          db.usageStats
        journals := marked (journals.map (·.requestID)) db.journals } := by
  unfold applyUsageJournalBatch at h
  split at h
  · cases h
    exact .inl ⟨‹_›, rfl⟩
  obtain ⟨deltas, hdeltas, h⟩ := bind_ok.mp h
  obtain ⟨-, -, h⟩ := bind_ok.mp h
  obtain ⟨absolute, habsolute, h⟩ := bind_ok.mp h
  obtain ⟨-, -, h⟩ := bind_ok.mp h
  obtain ⟨table, htable, h⟩ := bind_ok.mp h
  obtain ⟨-, -, htable⟩ := bind_ok.mp htable
  dsimp only at htable
  split at htable
  · cases htable
  cases htable
  cases h
  exact .inr ⟨deltas, absolute, hdeltas, habsolute, rfl⟩

theorem applyUsageJournalBatch_stats (key : UsageStatKey) :
    db'.usageStats[key]?.getD 0 = db.usageStats[key]?.getD 0 +
      (journals.map fun journal => (journal.at key).getD 0).sum ∧
    (db'.usageStats[key]?.isSome ↔
      db.usageStats[key]?.isSome ∨ ∃ journal ∈ journals, (journal.at key).isSome) := by
  obtain ⟨rfl, rfl⟩ | ⟨deltas, absolute, hdeltas, habsolute, rfl⟩ := applyUsageJournalBatch_ok h
  · simp
  obtain ⟨hsum, hmem⟩ := buildUsageJournalDeltas_ok hdeltas key
  rw [← hsum, ← hmem]
  simp only [lookup_insertAll]
  cases hdelta : deltas[key]? with
  | none =>
    have hnone : absolute[key]? = none := by
      by_contra hsome
      obtain ⟨total, htotal⟩ := Option.ne_none_iff_exists'.mp hsome
      obtain ⟨delta, hd, -⟩ := (traverse_ok habsolute key total).mp htotal
      rw [hdelta] at hd
      cases hd
    simp [hnone]
  | some delta =>
    obtain ⟨total, htotal⟩ := (traverse_mem habsolute key).mpr ⟨delta, hdelta⟩
    obtain ⟨d, hd, hchecked⟩ := (traverse_ok habsolute key total).mp htotal
    rw [hdelta] at hd
    cases hd
    simp [htotal, checkedSum_ok hchecked]

theorem applyUsageJournalBatch_journals :
    db'.journals = marked (journals.map (·.requestID)) db.journals ∧
      db'.requestLogs = db.requestLogs ∧ db'.attemptStats = db.attemptStats := by
  obtain ⟨rfl, rfl⟩ | ⟨deltas, absolute, -, -, rfl⟩ := applyUsageJournalBatch_ok h
  · refine ⟨?_, rfl, rfl⟩
    ext id : 1
    simp [marked]
  · exact ⟨rfl, rfl, rfl⟩

end

/-! ## Pending journals -/

/-- Where every journal is filed under its request. -/
def Filed (table : ExtTreeMap String UsageAggregationJournal) : Prop :=
  ∀ (id : String) (journal : UsageAggregationJournal),
    table[id]? = some journal → journal.requestID = id

section

variable {table : ExtTreeMap String UsageAggregationJournal} (hfiled : Filed table)
include hfiled

theorem mem_pendingJournals :
    journal ∈ pendingJournals table ids ↔
      table[journal.requestID]? = some journal ∧ journal.requestID ∈ ids ∧
        journal.applied = false := by
  simp only [pendingJournals, mem_map, mem_filter, Bool.and_eq_true, decide_eq_true_eq,
    Bool.not_eq_true', Prod.exists, exists_eq_right, ExtTreeMap.mem_toList_iff_getElem?_eq_some]
  constructor
  · rintro ⟨id, hid, hids, happlied⟩
    obtain rfl := hfiled id journal hid
    exact ⟨hid, hids, happlied⟩
  · rintro ⟨hid, hids, happlied⟩
    exact ⟨_, hid, hids, happlied⟩

theorem nodup_pendingJournals (ids : List String) : (pendingJournals table ids).Nodup := by
  refine List.Nodup.of_map (·.requestID) ?_
  have hids : (pendingJournals table ids).map (·.requestID) =
      (table.toList.filter fun entry => entry.1 ∈ ids && !entry.2.applied).map Prod.fst := by
    rw [pendingJournals, map_map]
    refine map_congr_left fun entry hentry => ?_
    exact hfiled entry.1 entry.2 (lookup_of_mem_toList (mem_filter.mp hentry).1)
  rw [hids]
  exact (nodup_keys_toList table).sublist (filter_sublist.map _)

end

/-! ## Attempts -/

instance : Add AttemptCounts where
  add a b := ⟨a.successCount + b.successCount, a.failureCount + b.failureCount⟩

instance : Std.Associative (HAdd.hAdd : AttemptCounts → AttemptCounts → AttemptCounts) where
  assoc a b c := by
    show AttemptCounts.mk _ _ = AttemptCounts.mk _ _
    exact congrArg₂ AttemptCounts.mk (add_assoc ..) (add_assoc ..)

/-- What an attempt adds to the statistic of a key. -/
def RequestLogAttempt.at (attempt : RequestLogAttempt) (key : CredentialAttemptStatKey) :
    Option AttemptCounts :=
  if attempt.dispatchState = .localOnly || attempt.failureCategory = .downstreamCancel then none
  else match alignDown attempt.completedAtMS millisecondsPerHour with
    | .error _ => none
    | .ok bucketStartMS =>
      if ⟨attempt.credentialID, bucketStartMS⟩ = key then
        some (if attempt.failureCategory = .ok then ⟨1, 0⟩ else ⟨0, 1⟩)
      else none

/-- What several attempts add to it. -/
def tallied (key : CredentialAttemptStatKey) (attempts : List RequestLogAttempt) :
    Option AttemptCounts :=
  (attempts.map (·.at key)).foldl (Option.merge (· + ·)) none

theorem tallied_append (key : CredentialAttemptStatKey) (attempts more : List RequestLogAttempt) :
    tallied key (attempts ++ more) =
      Option.merge (· + ·) (tallied key attempts) (tallied key more) := by
  have assoc : Std.Associative
      (Option.merge ((· + ·) : AttemptCounts → AttemptCounts → AttemptCounts)) := ⟨by
    rintro (_ | a) (_ | b) (_ | c) <;> simp [Option.merge, Std.Associative.assoc]⟩
  rw [tallied, map_append, foldl_append, ← tallied]
  conv_lhs => rw [← @Option.merge_none_right _ (· + ·) (tallied key attempts), foldl_assoc]
  rfl

theorem checkedInt64Add_ok (h : checkedInt64Add target value field = .ok total) :
    total = target + value := by
  unfold checkedInt64Add at h
  split at h
  · cases h
  rename_i sum hsum
  cases h
  unfold Pricing.checkedAdd at hsum
  split at hsum <;> cases hsum
  rfl

section Attempts

theorem merge_some (before : Option AttemptCounts) (counts : AttemptCounts) :
    some (before.getD {} + counts) = Option.merge (· + ·) before (some counts) := by
  cases before with
  | some _ => rfl
  | none => exact congrArg some (congrArg₂ AttemptCounts.mk (zero_add _) (zero_add _))

variable {deltas deltas' stats stats' : ExtTreeMap CredentialAttemptStatKey AttemptCounts}

theorem addAttempt_ok (h : addAttempt deltas attempt = .ok deltas')
    (key : CredentialAttemptStatKey) :
    deltas'[key]? = Option.merge (· + ·) deltas[key]? (attempt.at key) := by
  unfold addAttempt at h
  dsimp only at h
  split at h
  · cases h
  split at h
  · cases h
    rename_i skipped
    simp only [RequestLogAttempt.at, if_pos skipped, Option.merge_none_right]
  rename_i counted
  obtain ⟨bucket, hbucket, h⟩ := bind_ok.mp h
  rw [mapError_ok] at hbucket
  rw [RequestLogAttempt.at, if_neg counted, hbucket]
  have added {one sum : AttemptCounts}
      (hsum : sum = deltas[(⟨attempt.credentialID, bucket⟩ : CredentialAttemptStatKey)]?.getD {} +
        one) :
      (deltas.insert ⟨attempt.credentialID, bucket⟩ sum)[key]? = Option.merge (· + ·) deltas[key]?
        (if ⟨attempt.credentialID, bucket⟩ = key then some one else none) := by
    rw [lookup_insert]
    split
    · subst hsum
      subst key
      exact merge_some _ _
    · rw [Option.merge_none_right]
  dsimp only at h ⊢
  split at h
  · rename_i success
    obtain ⟨total, htotal, h⟩ := bind_ok.mp h
    cases h
    rw [if_pos success]
    refine added ?_
    rw [checkedInt64Add_ok htotal]
    exact congrArg (AttemptCounts.mk _) (add_zero _).symm
  · cases h
  · rename_i failure _
    obtain ⟨total, htotal, h⟩ := bind_ok.mp h
    cases h
    rw [if_neg failure]
    refine added ?_
    rw [checkedInt64Add_ok htotal]
    exact congrArg (AttemptCounts.mk · _) (add_zero _).symm

theorem buildCredentialAttemptStatDeltas_ok
    (h : buildCredentialAttemptStatDeltas attempts = .ok deltas) (key : CredentialAttemptStatKey) :
    deltas[key]? = tallied key attempts := by
  suffices hloop : ∀ start : ExtTreeMap CredentialAttemptStatKey AttemptCounts,
      attempts.foldlM addAttempt start = .ok deltas →
      deltas[key]? = (attempts.map (·.at key)).foldl (Option.merge (· + ·)) start[key]? by
    simpa [tallied] using hloop ∅ h
  clear h
  induction attempts with
  | nil =>
    intro start h
    cases h
    rfl
  | cons attempt attempts ih =>
    intro start h
    rw [foldlM_cons] at h
    obtain ⟨next, hnext, h⟩ := bind_ok.mp h
    rw [ih next h, addAttempt_ok hnext, map_cons, foldl_cons]

theorem upsertAttemptStat_ok (h : upsertAttemptStat driver stats entry = .ok stats') :
    stats' = stats.insert entry.1 (stats[entry.1]?.getD {} + entry.2) := by
  obtain ⟨success, hsuccess, h⟩ := bind_ok.mp h
  obtain ⟨failure, hfailure, h⟩ := bind_ok.mp h
  obtain ⟨-, -, h⟩ := bind_ok.mp h
  cases h
  rw [checkedInt64Add_ok hsuccess, checkedInt64Add_ok hfailure]
  rfl

theorem upsertAttemptStats_ok {entries : List (CredentialAttemptStatKey × AttemptCounts)}
    (nodup : (entries.map Prod.fst).Nodup)
    (h : entries.foldlM (upsertAttemptStat driver) stats = .ok stats')
    (key : CredentialAttemptStatKey) :
    stats'[key]? =
      Option.merge (· + ·) stats[key]? ((entries.find? (·.1 = key)).map Prod.snd) := by
  induction entries generalizing stats with
  | nil =>
    cases h
    simp
  | cons entry entries ih =>
    rw [foldlM_cons] at h
    obtain ⟨next, hnext, h⟩ := bind_ok.mp h
    rw [ih (nodup_cons.mp nodup).2 h, upsertAttemptStat_ok hnext, lookup_insert]
    by_cases hkey : entry.1 = key
    · rw [if_pos hkey, KeyedList.find_tail nodup hkey, find?_cons_of_pos (by simpa using hkey),
        Option.map_none, Option.merge_none_right, hkey]
      exact merge_some _ _
    · rw [if_neg hkey, find?_cons_of_neg (by simpa using hkey)]

end Attempts

/-- The statistics of attempts after some more of them. -/
def Tallies (before : ExtTreeMap CredentialAttemptStatKey AttemptCounts)
    (attempts : List RequestLogAttempt)
    (after : ExtTreeMap CredentialAttemptStatKey AttemptCounts) : Prop :=
  ∀ key : CredentialAttemptStatKey,
    after[key]? = Option.merge (· + ·) before[key]? (tallied key attempts)

theorem Tallies.refl (stats : ExtTreeMap CredentialAttemptStatKey AttemptCounts) :
    Tallies stats [] stats := fun _ => (Option.merge_none_right).symm

/-! ## The whole call -/

section

variable {driver : Driver}

variable {db db' : Database} {rows : List RequestLog}

theorem prepareNewRequestLogRows_ok (h : prepareNewRequestLogRows driver db rows = .ok new) :
    new = newRows db rows := by
  unfold prepareNewRequestLogRows at h
  split at h
  · rename_i hempty
    cases h
    simp [newRows, hempty]
  obtain ⟨-, -, h⟩ := bind_ok.mp h
  cases h
  rfl

theorem stageUsageAggregationJournals_ok
    (h : stageUsageAggregationJournals driver journals db = .ok db') :
    db' = { db with journals := staged db.journals journals } := by
  unfold stageUsageAggregationJournals at h
  split at h
  · rename_i hempty
    cases h
    subst hempty
    rfl
  obtain ⟨-, -, h⟩ := bind_ok.mp h
  cases h
  rfl

theorem insertRequestLogs_ok (h : rows.foldlM (insertRequestLog driver) table = .ok table') :
    table' = rows.foldl (fun table row => table.insert row.id row) table := by
  induction rows generalizing table with
  | nil =>
    cases h
    rfl
  | cons row rows ih =>
    rw [foldlM_cons] at h
    obtain ⟨next, hnext, h⟩ := bind_ok.mp h
    unfold insertRequestLog at hnext
    split at hnext
    · cases hnext
    · cases hnext
      exact ih h

theorem applyCredentialAttemptStats_ok
    (h : applyCredentialAttemptStats driver attempts db = .ok db') :
    ∃ attemptStats, db' = { db with attemptStats } ∧
      Tallies db.attemptStats attempts attemptStats := by
  obtain ⟨deltas, hdeltas, h⟩ := bind_ok.mp h
  have tally := buildCredentialAttemptStatDeltas_ok hdeltas
  split at h
  · rename_i hempty
    cases h
    refine ⟨_, rfl, fun key => ?_⟩
    rw [← tally, ExtTreeMap.isEmpty_iff.mp hempty, ExtTreeMap.getElem?_empty,
      Option.merge_none_right]
  obtain ⟨-, -, h⟩ := bind_ok.mp h
  split at h
  · cases h
  obtain ⟨attemptStats, hstats, h⟩ := bind_ok.mp h
  cases h
  refine ⟨attemptStats, rfl, fun key => ?_⟩
  have nodup := nodup_keys_toList deltas
  rw [upsertAttemptStats_ok nodup hstats key, ← tally]
  congr 1
  ext counts
  simp [KeyedList.find_eq_some nodup, ExtTreeMap.mem_toList_iff_getElem?_eq_some]

/-- The attempts of some rows that belong to the requests of some journals. -/
def attemptsOf (rows : List RequestLog) (journals : List UsageAggregationJournal) :
    List RequestLogAttempt :=
  (rows.flatMap (·.attemptRows)).filter fun attempt =>
    attempt.requestID ∈ journals.map (·.requestID)

theorem writeRequestLogBatch_ok (hrows : rows ≠ [])
    (h : writeRequestLogBatch driver rows db = .ok db') :
    ∃ attemptStats,
      Tallies db.attemptStats
        (attemptsOf rows (pendingJournals db.journals (rows.map (·.id)))) attemptStats ∧
      applyUsageJournalBatch driver (pendingJournals db.journals (rows.map (·.id)))
        { db with
          requestLogs := rows.foldl (fun table row => table.insert row.id row) db.requestLogs
          attemptStats } = .ok db' := by
  unfold writeRequestLogBatch at h
  rw [if_neg hrows] at h
  obtain ⟨-, -, h⟩ := bind_ok.mp h
  obtain ⟨requestLogs, hlogs, h⟩ := bind_ok.mp h
  cases insertRequestLogs_ok hlogs
  obtain ⟨-, -, h⟩ := bind_ok.mp h
  obtain ⟨-, -, h⟩ := bind_ok.mp h
  obtain ⟨-, -, h⟩ := bind_ok.mp h
  obtain ⟨-, -, h⟩ := bind_ok.mp h
  dsimp only at h
  split at h
  · obtain ⟨counted, hcounted, h⟩ := bind_ok.mp h
    obtain ⟨attemptStats, rfl, tallies⟩ := applyCredentialAttemptStats_ok hcounted
    exact ⟨attemptStats, tallies, h⟩
  · rename_i nothing
    refine ⟨db.attemptStats, ?_, h⟩
    have empty : attemptsOf rows (pendingJournals db.journals (rows.map (·.id))) = [] := by
      simp only [Bool.and_eq_true, decide_eq_true_eq, not_and_or, not_not] at nothing
      obtain h | h := nothing <;> simp [attemptsOf, h]
    rw [empty]
    exact .refl _

/-- A call that succeeds stages the journals of the new rows, inserts the rows and applies the
journals of these requests that are still pending. -/
theorem written_ok (h : written driver db rows = .ok db') :
    ∃ (journals : List UsageAggregationJournal)
        (attemptStats : ExtTreeMap CredentialAttemptStatKey AttemptCounts),
      JournalsOf ((newRows db rows).filter (·.aggregatable)) journals ∧
      Tallies db.attemptStats (attemptsOf (newRows db rows)
        (pendingJournals (staged db.journals journals) ((newRows db rows).map (·.id))))
        attemptStats ∧
      applyUsageJournalBatch driver
        (pendingJournals (staged db.journals journals) ((newRows db rows).map (·.id)))
        { db with
          requestLogs :=
            (newRows db rows).foldl (fun table row => table.insert row.id row) db.requestLogs
          journals := staged db.journals journals
          attemptStats } = .ok db' := by
  obtain ⟨new, hnew, h⟩ := bind_ok.mp h
  cases prepareNewRequestLogRows_ok hnew
  split at h
  · rename_i hempty
    cases h
    refine ⟨[], db.attemptStats, by simp [hempty], by rw [hempty]; exact .refl _, ?_⟩
    simp only [hempty, map_nil, foldl_nil, staged, pendingJournals, not_mem_nil,
      decide_false, Bool.false_and, filter_false, applyUsageJournalBatch, if_true]
    rfl
  · rename_i hrows
    obtain ⟨journals, hjournals, h⟩ := bind_ok.mp h
    obtain ⟨-, -, h⟩ := bind_ok.mp h
    obtain ⟨next, hstaged, h⟩ := bind_ok.mp h
    obtain ⟨result, hresult, h⟩ := bind_ok.mp h
    obtain ⟨-, -, h⟩ := bind_ok.mp h
    cases h
    cases stageUsageAggregationJournals_ok hstaged
    obtain ⟨attemptStats, tallies, happly⟩ := writeRequestLogBatch_ok hrows hresult
    exact ⟨journals, attemptStats, buildUsageAggregationJournals_ok hjournals, tallies, happly⟩

end

end ApiLoad.UsageAggregation
