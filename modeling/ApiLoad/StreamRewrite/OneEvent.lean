import ApiLoad.StreamRewrite.Event

/-!
# A rewritten event is one event

Each line that is kept has its own terminator, and the data lines after the first are dropped. What
is left is again an event with the payload that the callback gave and with the other lines of the
original, except in one arrangement: when the blank line ends with LF and the last line kept before
it ends with CR. The two then join to one line end, and no blank line is left.
-/
namespace ApiLoad.StreamRewrite

open Foundation Newline SseEventLine List

/-- A fresh scanner finds the first boundary exactly at the end. -/
def CompleteEvent (event : Bytes) : Prop :=
  (({} : SseRewriteBoundaryScanner).find event).1 = some event.length

instance (event : Bytes) : Decidable (CompleteEvent event) :=
  inferInstanceAs (Decidable (_ = _))

variable {event : Bytes} {blank : SseEventLine}

theorem CompleteEvent.lines (h : CompleteEvent event) :
    ∃ lines blank, splitSSEEventLines event = lines ++ [blank] ∧ (∀ line ∈ lines, Full line) ∧
      Blank blank := by
  have found : ({} : SseRewriteBoundaryScanner).findFrom event =
      (some (0 + event.length), (({} : SseRewriteBoundaryScanner).findFrom event).2) := by
    rw [Nat.zero_add]
    exact Prod.ext h rfl
  exact lines_of_complete {} [] found clean_nil rfl (by simp)

/-- The lines of which something is written: the first data line and those that carry no data. -/
def keptLines (written : Bool) : List SseEventLine → List SseEventLine
  | [] => []
  | line :: rest =>
    if line.isData then (if written then [] else [line]) ++ keptLines true rest
    else line :: keptLines written rest

/-- The blank line of the event ends with LF, and the last line kept before it with CR. -/
def JoinsBlankLine (event : Bytes) : Prop :=
  let kept := keptLines false (splitSSEEventLines event)
  endsCR false kept.dropLast = true ∧ kept.getLast?.map terminator = some [LF]

instance (event : Bytes) : Decidable (JoinsBlankLine event) :=
  inferInstanceAs (Decidable (_ ∧ _))

def dataLines (payload terminator : Bytes) : List SseEventLine :=
  (payload.splitOn LF).map fun part => ⟨dataField ++ [colon, space] ++ part, terminator⟩

/-- The lines of the event that is written. -/
def newLines (payload : Bytes) (written : Bool) : List SseEventLine → List SseEventLine
  | [] => []
  | line :: rest =>
    if line.isData then
      (if written then [] else dataLines payload line.terminator) ++ newLines payload true rest
    else line :: newLines payload written rest

theorem render_append (xs ys : List SseEventLine) : render (xs ++ ys) = render xs ++ render ys := by
  simp [render]

theorem render_dataLines (payload terminator : Bytes) :
    render (dataLines payload terminator) = writeData payload terminator := by
  simp [render, dataLines, writeData, flatMap_map]

theorem render_newLines (payload : Bytes) (written : Bool) (lines : List SseEventLine) :
    render (newLines payload written lines) = writeLines payload written lines := by
  induction lines generalizing written with
  | nil => rfl
  | cons line rest ih =>
    unfold newLines writeLines
    split
    · rw [render_append, ih]
      cases written
      · simp only [Bool.false_eq_true, if_false, render_dataLines]
      · rfl
    · rw [render_cons, ih]

section Data

variable {payload : Bytes}

theorem dataLine_data (part terminator : Bytes) :
    data ⟨dataField ++ [colon, space] ++ part, terminator⟩ = some part := by
  simp [data, parseSSEDataLine, fieldValue, dataField, colon, space]

variable {line : SseEventLine}

theorem data_of_mem_dataLines {terminator : Bytes} (h : line ∈ dataLines payload terminator) :
    line.isData = true := by
  obtain ⟨part, -, rfl⟩ := mem_map.mp h
  rw [isData, dataLine_data]
  rfl

theorem dataValues_dataLines (terminator : Bytes) :
    dataValues (dataLines payload terminator) = payload.splitOn LF := by
  unfold dataValues dataLines
  rw [filterMap_map]
  have each : (data ∘ fun part => ⟨dataField ++ [colon, space] ++ part, terminator⟩) =
      some := funext fun part => dataLine_data part terminator
  rw [each, filterMap_some]

theorem data_eq_none (h : ¬line.isData = true) : line.data = none := by
  simpa [isData] using h

/-- Only the data lines that replace the first one carry data. -/
theorem dataValues_newLines (written : Bool) (lines : List SseEventLine) :
    dataValues (newLines payload written lines) =
      if written ∨ dataValues lines = [] then [] else payload.splitOn LF := by
  induction lines generalizing written with
  | nil => cases written <;> rfl
  | cons line rest ih =>
    unfold newLines
    split
    · rename_i hd
      obtain ⟨value, hv⟩ := Option.isSome_iff_exists.mp hd
      have rest_eq : dataValues (newLines payload true rest) = [] := by
        rw [ih]
        simp
      rw [dataValues, filterMap_append, ← dataValues, ← dataValues, rest_eq, append_nil]
      have some_data : dataValues (line :: rest) ≠ [] := by simp [dataValues, hv]
      cases written
      · simp only [Bool.false_eq_true, if_false, dataValues_dataLines, some_data, or_self]
      · rfl
    · rename_i hd
      have skip (others : List SseEventLine) : dataValues (line :: others) = dataValues others :=
        filterMap_cons_none (data_eq_none hd)
      rw [skip, skip, ih]

theorem others_newLines (written : Bool) (lines : List SseEventLine) :
    (newLines payload written lines).filter (!·.isData) = lines.filter (!·.isData) := by
  induction lines generalizing written with
  | nil => rfl
  | cons line rest ih =>
    unfold newLines
    split
    · rename_i hd
      have dropped : ((if written then [] else dataLines payload line.terminator).filter
          (!·.isData)) = [] := by
        rw [filter_eq_nil_iff]
        intro l hl
        split at hl
        · cases hl
        · simp [data_of_mem_dataLines hl]
      rw [filter_append, dropped, ih]
      simp [hd]
    · rename_i hd
      simp [hd, ih]

/-- A data line has another field than the line that names the event. -/
theorem eventName_none_of_data (h : line.isData = true) :
    parseSSEEventName line.content = none := by
  have field : (fieldValue line.content).1 = dataField := by
    unfold isData data parseSSEDataLine at h
    split at h
    · cases h
    split at h
    · assumption
    · cases h
  have other : dataField ≠ eventField := by decide
  rw [parseSSEEventName, field, if_neg other]

theorem eventName_filter (lines : List SseEventLine) :
    eventName (lines.filter (!·.isData)) = eventName lines := by
  unfold eventName
  congr 2
  induction lines with
  | nil => rfl
  | cons line rest ih =>
    by_cases hd : line.isData = true
    · rw [filter_cons_of_neg (by simp [hd]), ih]
      simp [eventName_none_of_data hd]
    · rw [filter_cons_of_pos (by simp [hd]), filterMap_cons, filterMap_cons, ih]

/-- The parts of a payload without CR fill lines. -/
theorem full_dataLines (noCR : CR ∉ payload) (h : Full old) :
    ∀ line ∈ dataLines payload old.terminator, Full line := by
  intro line hl
  obtain ⟨part, hp, rfl⟩ := mem_map.mp hl
  obtain ⟨inside, noLF⟩ := Foundation.Splitting.of_mem_splitOn hp
  refine ⟨?_, by simp [dataField], h.ended⟩
  refine clean_append.mpr ⟨?_, fun hc => noCR (inside CR hc), noLF⟩
  exact ⟨by decide, by decide⟩

theorem full_newLines (noCR : CR ∉ payload) (written : Bool) (full : ∀ line ∈ lines, Full line) :
    ∀ line ∈ newLines payload written lines, Full line := by
  induction lines generalizing written with
  | nil => simp [newLines]
  | cons line rest ih =>
    obtain ⟨first, others⟩ := forall_mem_cons.mp full
    unfold newLines
    split
    · refine forall_mem_append.mpr ⟨?_, ih true others⟩
      split
      · simp
      · exact full_dataLines noCR first
    · exact forall_mem_cons.mpr ⟨first, ih written others⟩

theorem endsCR_dataLines (before : Bool) (terminator : Bytes) :
    endsCR before (dataLines payload terminator) = decide (terminator = [CR]) := by
  have some_part : payload.splitOn LF ≠ [] := splitOn_ne_nil LF payload
  unfold dataLines
  generalize payload.splitOn LF = parts at some_part
  induction parts generalizing before with
  | nil => exact absurd rfl some_part
  | cons part parts ih =>
    cases parts with
    | nil => rfl
    | cons next parts => exact ih (terminator = [CR]) (by simp)

theorem endsCR_newLines (before written : Bool) (lines : List SseEventLine) :
    endsCR before (newLines payload written lines) = endsCR before (keptLines written lines) := by
  induction lines generalizing before written with
  | nil => rfl
  | cons line rest ih =>
    unfold newLines keptLines
    split
    · rw [endsCR_append, endsCR_append, ih]
      cases written
      · simp only [Bool.false_eq_true, if_false, endsCR_dataLines]
        rfl
      · rfl
    · exact ih _ written

end Data

theorem newLines_blank (payload : Bytes) (written : Bool) (lines : List SseEventLine)
    (hb : Blank blank) :
    newLines payload written (lines ++ [blank]) = newLines payload written lines ++ [blank] := by
  have noData : blank.isData = false := by simp [isData, hb.not_data]
  induction lines generalizing written with
  | nil => simp [newLines, noData]
  | cons line rest ih =>
    rw [cons_append]
    unfold newLines
    split <;> simp [ih]

theorem keptLines_blank (written : Bool) (lines : List SseEventLine) (hb : Blank blank) :
    keptLines written (lines ++ [blank]) = keptLines written lines ++ [blank] := by
  have noData : blank.isData = false := by simp [isData, hb.not_data]
  induction lines generalizing written with
  | nil => simp [keptLines, noData]
  | cons line rest ih =>
    rw [cons_append]
    unfold keptLines
    split <;> simp [ih]

/-- What a rewritten event must be: one event, with the payload of the callback, and with the lines
of the original that carry no data. -/
structure Rewritten (event payload out : Bytes) : Prop where
  complete : CompleteEvent out
  payload_eq : payloadOf (splitSSEEventLines out) = payload
  others_eq : (splitSSEEventLines out).filter (!·.isData) =
    (splitSSEEventLines event).filter (!·.isData)
  name_eq : eventName (splitSSEEventLines out) = eventName (splitSSEEventLines event)

theorem Rewriter.invocation_some {rewriter : Rewriter}
    (h : rewriter.invocation event = some (call, errorEvent)) :
    dataValues (splitSSEEventLines event) ≠ [] ∧
      call.payload = payloadOf (splitSSEEventLines event) := by
  simp only [Rewriter.invocation] at h
  split at h
  · cases h
  split at h
  · cases h
  · cases h
    exact ⟨by assumption, rfl⟩

/-- The event written for another payload is one event exactly when its blank line stays apart from
the line before it. -/
theorem rewritten_writeLines (complete : CompleteEvent event)
    (hasData : dataValues (splitSSEEventLines event) ≠ []) (noCR : CR ∉ payload) :
    Rewritten event payload (writeLines payload false (splitSSEEventLines event)) ↔
      ¬JoinsBlankLine event := by
  obtain ⟨lines, blank, hsplit, full, hb⟩ := complete.lines
  have hfull : ∀ line ∈ newLines payload false lines, Full line := full_newLines noCR false full
  have joins : JoinsBlankLine event ↔
      endsCR false (newLines payload false lines) = true ∧ blank.terminator = [LF] := by
    simp only [JoinsBlankLine, hsplit, keptLines_blank false lines hb, endsCR_newLines,
      dropLast_concat, getLast?_concat, Option.map_some, Option.some.injEq]
  have written : writeLines payload false (splitSSEEventLines event) =
      render (newLines payload false lines ++ [blank]) := by
    rw [← render_newLines, hsplit, newLines_blank payload false lines hb]
  have found := find_event hfull hb
  rw [joins, written]
  constructor
  · rintro ⟨again, -, -, -⟩ joined
    rw [CompleteEvent, found, if_pos joined] at again
    cases again
  intro apart
  have split : splitSSEEventLines (render (newLines payload false lines ++ [blank])) =
      newLines payload false (splitSSEEventLines event) := by
    rw [split_render hfull hb apart, hsplit, newLines_blank payload false lines hb]
  have others : (newLines payload false (splitSSEEventLines event)).filter (!·.isData) =
      (splitSSEEventLines event).filter (!·.isData) := others_newLines false _
  refine ⟨?_, ?_, by rw [split, others], ?_⟩
  · rw [CompleteEvent, found, if_neg apart]
  · rw [split, payloadOf, dataValues_newLines]
    simp only [Bool.false_eq_true, hasData, or_self, if_false]
    exact intercalate_splitOn LF
  · rw [split, ← eventName_filter, others, eventName_filter]

/-- For every complete event and every payload without CR that the callback gives for it, the event
that is written is one event with that payload and with the other lines of the original, exactly
when the payload did not change or the blank line stays apart from the last line kept. -/
theorem rewritten_event_iff (rewriter : Rewriter) {event : Bytes} (complete : CompleteEvent event)
    {call : StreamEvent} {errorEvent : Bool}
    (called : rewriter.invocation event = some (call, errorEvent))
    {result : SseEventRewriteResult} (answer : rewriter.rewrite call errorEvent = .ok result)
    (noCR : CR ∉ result.body) :
    ∃ out, rewriteSSEEventWithMetadata rewriter event = .ok out ∧
      (Rewritten event result.body out.body ↔
        result.body = call.payload ∨ ¬JoinsBlankLine event) := by
  obtain ⟨hasData, payload⟩ := Rewriter.invocation_some called
  simp only [rewriteSSEEventWithMetadata, called, answer]
  by_cases same : result.body = call.payload
  · refine ⟨_, if_pos same, ?_⟩
    simp only [same, true_or, iff_true]
    exact ⟨complete, payload.symm, rfl, rfl⟩
  · refine ⟨_, if_neg same, ?_⟩
    simpa only [same, false_or] using rewritten_writeLines complete hasData noCR

/-- A callback that answers `x` to everything. -/
def constantRewriter : Rewriter where
  isSSEErrorPayload _ := false
  rewrite _ _ := .ok ⟨[120], false⟩

/-- The event `event: e`, `data: a`, `data: b` and a blank line, with CR LF at each end. -/
def pairEvent : Bytes :=
  eventField ++ [colon, space, 101, CR, LF] ++ dataField ++ [colon, space, 97, CR, LF] ++
    dataField ++ [colon, space, 98, CR, LF] ++ [CR, LF]

theorem rewritten_event_pairs :
    ∃ out, rewriteSSEEventWithMetadata constantRewriter pairEvent = .ok out ∧
      (Rewritten pairEvent [120] out.body ↔
        [120] = [97, LF, 98] ∨ ¬JoinsBlankLine pairEvent) :=
  have called : constantRewriter.invocation pairEvent = some (⟨[101], [97, LF, 98]⟩, false) := by
    decide +kernel
  rewritten_event_iff constantRewriter (by decide +kernel) called rfl (by decide)

/-- The event `data: a` ended with CR, `data: b` ended with LF, and a blank line ended with LF. -/
def mixedEvent : Bytes :=
  dataField ++ [colon, space, 97, CR] ++ dataField ++ [colon, space, 98, LF] ++ [LF]

/-- The second data line is dropped. The CR of the first and the LF of the blank line are then one
line end, and what is written is not an event. -/
theorem blank_line_joined :
    CompleteEvent mixedEvent ∧
      constantRewriter.invocation mixedEvent = some (⟨[], [97, LF, 98]⟩, false) ∧
      rewriteSSEEventWithMetadata constantRewriter mixedEvent =
        .ok ⟨dataField ++ [colon, space, 120, CR, LF], false⟩ ∧
      ¬Rewritten mixedEvent [120] (dataField ++ [colon, space, 120, CR, LF]) := by
  refine ⟨by decide +kernel, by decide +kernel, by decide +kernel, fun h => ?_⟩
  exact absurd h.complete (by decide +kernel)

end ApiLoad.StreamRewrite
