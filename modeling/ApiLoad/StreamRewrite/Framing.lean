import ApiLoad.StreamRewrite.Stream

/-!
# The events of a byte sequence

A byte sequence is cut into events by a fresh scanner that sees all of it; what is left has no
boundary. This says what a stream over the bytes comes to. The reads decide one thing only: whether
the LF of a blank line that ends with CR LF is there when the scanner reports the event. `Yields`
lets every event be taken from any part of the bytes that a read has completed, and what can be made
of a byte sequence this way is determined by its events, and by whether a read has ended before the
LF of the first event that is too large by this LF.

A place in the bytes is given by the number of the bytes from there on, which stays the same when
events are taken from the front.
-/
namespace ApiLoad.StreamRewrite

open Foundation Newline SseRewriteBoundaryScanner SseRewriteStream List

namespace SseRewriteBoundaryScanner

variable {scanner after : SseRewriteBoundaryScanner} {data : Bytes} {n : Nat}

theorem findFrom_none_offset (h : scanner.findFrom data = (none, after)) :
    after.scanOffset = scanner.scanOffset + data.length := by
  induction scanner, data using scanInduction with
  | nil =>
    cases h
    rfl
  | on scanner next front rest _ offset step ih =>
    rw [ih (by simpa [h] using (step []).symm), offset, length_append, Nat.add_assoc]
  | found scanner _ front rest _ _ carries => cases (carries []).now.symm.trans h

/-- A boundary lies behind what was scanned before, within the bytes; and if its CR has no LF, none
follows. -/
theorem findFrom_some_bounds (h : scanner.findFrom data = (some n, after)) :
    scanner.scanOffset < n ∧ n ≤ scanner.scanOffset + data.length ∧
      (after.skipLineFeed = true → (data.drop (n - scanner.scanOffset)).head? ≠ some LF) := by
  induction scanner, data using scanInduction with
  | nil => cases h
  | on scanner next front rest hf offset step ih =>
    obtain ⟨lower, upper, apart⟩ := ih (by simpa [h] using (step []).symm)
    rw [length_append]
    refine ⟨by omega, by omega, ?_⟩
    rwa [drop_append, drop_eq_nil_of_le (by omega), nil_append,
      show n - scanner.scanOffset - front.length = n - next.scanOffset by omega]
  | found scanner _ front rest hf apart carries =>
    cases (carries []).now.symm.trans h
    have := length_pos_iff.mpr hf
    rw [length_append]
    refine ⟨by omega, by omega, ?_⟩
    simpa using apart

/-- A CR that is no boundary is waiting for its LF. -/
theorem skips_of_findFrom_none {start : Bytes}
    (h : scanner.findFrom (start ++ [CR]) = (none, after)) :
    after.skipLineFeed = true := by
  cases hf : scanner.findFrom start with
  | mk found middle =>
    cases found with
    | some n =>
      obtain same | ⟨-, -, -, ⟨later, cr⟩, -⟩ := findFrom_append_some [CR] hf
      · cases same.symm.trans h
      · cases cr
    | none =>
      rw [findFrom_append_none _ hf, ← append_nil [CR],
        findFrom_newline (.cr (by simp)) (by simp)] at h
      split at h
      · cases h
        rfl
      · cases h

end SseRewriteBoundaryScanner

/-- What a fresh scanner finds in `data`. -/
def firstEvent (data : Bytes) : Option Nat × SseRewriteBoundaryScanner :=
  ({} : SseRewriteBoundaryScanner).findFrom data

variable {data seen more : Bytes} {n : Nat} {scanner scanner' : SseRewriteBoundaryScanner}

theorem firstEvent_bounds (h : firstEvent data = (some n, scanner)) :
    0 < n ∧ n ≤ data.length ∧
      (scanner.skipLineFeed = true → (data.drop n).head? ≠ some LF) := by
  simpa using findFrom_some_bounds h

/-- No boundary lies before the first one. -/
theorem le_of_firstEvent_none (h : firstEvent (seen ++ more) = (some n, scanner))
    (none : firstEvent seen = (none, scanner')) : seen.length < n := by
  have goes : scanner'.findFrom more = (some n, scanner) :=
    (findFrom_append_none more none).symm.trans h
  have offset := findFrom_none_offset none
  have lower := (findFrom_some_bounds goes).1
  simp only [Nat.zero_add] at offset
  omega

/-- A boundary at the LF of a pair would have been found at its CR, without the LF. -/
theorem firstEvent_before_lf {start : Bytes} (h : firstEvent data = (some n, scanner))
    (last : data.take n = start ++ [CR, LF]) :
    firstEvent (start ++ [CR]) ≠ (none, scanner') := by
  intro none
  have upper := (firstEvent_bounds h).2.1
  have length := congrArg List.length last
  have split : data = (start ++ [CR]) ++ LF :: data.drop n := by
    conv_lhs => rw [← take_append_drop n data, last]
    simp
  have goes : scanner'.skipped.findFrom (data.drop n) = (some n, scanner) := by
    rw [← findFrom_skip (skips_of_findFrom_none none), ← findFrom_append_none _ none, ← split]
    exact h
  have offset := findFrom_none_offset none
  have lower := (findFrom_some_bounds goes).1
  simp only [skipped, length_append, length_take, length_cons, length_nil] at *
  omega

/-- The events of a byte sequence, and the bytes behind the last of them. -/
def events (data : Bytes) : List Bytes × Bytes :=
  match _h : firstEvent data with
  | (none, _) => ([], data)
  | (some n, _) =>
    let rest := events (data.drop n)
    (data.take n :: rest.1, rest.2)
termination_by data.length
decreasing_by
  have := firstEvent_bounds _h
  simp only [length_drop]
  omega

theorem events_none (h : firstEvent data = (none, scanner)) :
    events data = ([], data) := by
  rw [events]
  split <;> simp_all

theorem events_some (h : firstEvent data = (some n, scanner)) :
    events data = (data.take n :: (events (data.drop n)).1, (events (data.drop n)).2) := by
  rw [events]
  split <;> simp_all

theorem events_flatten (data : Bytes) : (events data).1.flatten ++ (events data).2 = data := by
  induction data using events.induct with
  | case1 data after h => simp [events_none h]
  | case2 data n after h ih =>
    rw [events_some h, flatten_cons, append_assoc, ih, take_append_drop]

section Outcome

variable (limit : Nat) (rewriter : Rewriter)

/-- `result` with calls and output before it. -/
def SseRewriteStream.Result.after (result : Result) (calls : List (StreamEvent × Bool))
    (output : Bytes) : Result :=
  ⟨output ++ result.output, calls ++ result.calls, result.err⟩

/-- The event ends with CR LF and is one byte too large. -/
def LastByteTooMuch (event : Bytes) : Prop :=
  event.length = limit + 1 ∧ ∃ start, event = start ++ [CR, LF]

/-- The error of an event whose LF comes too late to reject it before the callback. -/
def lateError (event : Bytes) : StreamError :=
  match rewriteSSEEventWithMetadata rewriter event.dropLast with
  | .error err => err
  | .ok _ => .eventTooLarge

open Classical in
/-- What a stream comes to whose bytes are these events and this tail. `Cut n` says that a read has
ended when `n` bytes were left; before the LF of an event that it makes too large, the callback has
been called then. -/
noncomputable def outcome (Cut : Nat → Prop) (tail : Bytes) : List Bytes → Result
  | [] =>
    ⟨[], [], if limit < tail.length then .eventTooLarge
      else if tail = [] then .eof else .eventIncomplete⟩
  | event :: rest =>
    let calls := (rewriter.invocation event).toList
    if limit < event.length then
      if LastByteTooMuch limit event ∧ Cut ((rest.flatten ++ tail).length + 1) then
        ⟨[], (rewriter.invocation event.dropLast).toList, lateError rewriter event⟩
      else ⟨[], [], .eventTooLarge⟩
    else
      match rewriteSSEEventWithMetadata rewriter event with
      | .error err => ⟨[], calls, err⟩
      | .ok rewritten =>
        if limit < rewritten.body.length then ⟨[], calls, .eventTooLarge⟩
        else (outcome Cut tail rest).after calls rewritten.body

variable (Cut : Nat → Prop)

/-- What can be made of the bytes `data` when the scanner has seen any part of them that a read has
completed. No read has ended before the LF of an event that is rejected at once for it. The first
argument is the length of the previous event and of what it became, if a LF may still belong to
it. -/
inductive Yields : Option (Nat × Nat) → Bytes → Result → Prop
  | lineFeed {input output : Nat} {rest : Bytes} {result : Result} (hi : input < limit)
      (ho : output < limit) (h : Yields none rest result) :
      Yields (some (input, output)) (LF :: rest) (result.after [] [LF])
  | lineFeedOverflow {input output : Nat} {rest : Bytes} (h : limit ≤ input ∨ limit ≤ output) :
      Yields (some (input, output)) (LF :: rest) ⟨[], [], .eventTooLarge⟩
  | noLineFeed {previous : Nat × Nat} {data : Bytes} {result : Result}
      (hd : data.head? ≠ some LF) (h : Yields none data result) :
      Yields (some previous) data result
  | ended {data : Bytes} {after : SseRewriteBoundaryScanner}
      (h : firstEvent data = (none, after)) (hl : data.length ≤ limit) :
      Yields none data ⟨[], [], if data = [] then .eof else .eventIncomplete⟩
  | overlong {seen more : Bytes} {after : SseRewriteBoundaryScanner}
      (h : firstEvent seen = (none, after)) (hl : limit < seen.length) :
      Yields none (seen ++ more) ⟨[], [], .eventTooLarge⟩
  | eventOverlong {seen more : Bytes} {n : Nat} {after : SseRewriteBoundaryScanner}
      (h : firstEvent seen = (some n, after)) (hl : limit < n)
      (whole : LastByteTooMuch limit (seen.take n) → ¬ Cut ((seen ++ more).length - limit)) :
      Yields none (seen ++ more) ⟨[], [], .eventTooLarge⟩
  | rewriteFails {seen more : Bytes} {n : Nat} {after : SseRewriteBoundaryScanner}
      {err : StreamError} (h : firstEvent seen = (some n, after)) (hl : n ≤ limit)
      (cut : Cut more.length)
      (hr : rewriteSSEEventWithMetadata rewriter (seen.take n) = .error err) :
      Yields none (seen ++ more) ⟨[], (rewriter.invocation (seen.take n)).toList, err⟩
  | rewriteOverlong {seen more : Bytes} {n : Nat} {after : SseRewriteBoundaryScanner}
      {rewritten : SseEventRewriteResult} (h : firstEvent seen = (some n, after)) (hl : n ≤ limit)
      (cut : Cut more.length)
      (hr : rewriteSSEEventWithMetadata rewriter (seen.take n) = .ok rewritten)
      (ho : limit < rewritten.body.length) :
      Yields none (seen ++ more) ⟨[], (rewriter.invocation (seen.take n)).toList, .eventTooLarge⟩
  | event {seen more : Bytes} {n : Nat} {after : SseRewriteBoundaryScanner}
      {rewritten : SseEventRewriteResult} {result : Result}
      (h : firstEvent seen = (some n, after)) (hl : n ≤ limit)
      (cut : Cut more.length)
      (hr : rewriteSSEEventWithMetadata rewriter (seen.take n) = .ok rewritten)
      (ho : rewritten.body.length ≤ limit)
      (hrest : Yields (if after.skipLineFeed then some (n, rewritten.body.length) else none)
        (seen.drop n ++ more) result) :
      Yields none (seen ++ more)
        (result.after (rewriter.invocation (seen.take n)).toList rewritten.body)

variable {limit : Nat} {rewriter : Rewriter}

/-- Two results agree as far as a stream's result is determined: what a failed stream has put out
before it failed is left open. -/
structure SseRewriteStream.Result.Agrees (a b : Result) : Prop where
  calls : a.calls = b.calls
  err : a.err = b.err
  output : a.err = .eof → a.output = b.output

variable {a b result : Result} {tail event : Bytes} {pieces rest : List Bytes}
  {Cut : Nat → Prop}

@[refl] theorem SseRewriteStream.Result.Agrees.refl (a : Result) : a.Agrees a :=
  ⟨rfl, rfl, fun _ => rfl⟩

theorem SseRewriteStream.Result.Agrees.symm (h : a.Agrees b) : b.Agrees a :=
  ⟨h.calls.symm, h.err.symm, fun he => (h.output (h.err.trans he)).symm⟩

theorem SseRewriteStream.Result.Agrees.trans (h : a.Agrees b) (g : b.Agrees c) : a.Agrees c :=
  ⟨h.calls.trans g.calls, h.err.trans g.err, fun he =>
    (h.output he).trans (g.output (h.err.symm.trans he))⟩

theorem SseRewriteStream.Result.Agrees.after (h : a.Agrees b) (calls : List (StreamEvent × Bool))
    (output : Bytes) : (a.after calls output).Agrees (b.after calls output) :=
  ⟨congrArg (calls ++ ·) h.calls, h.err, fun he => congrArg (output ++ ·) (h.output he)⟩

/-- The lines of bytes that end with CR, when a LF follows. -/
theorem splitFrom_append_lf (acc : Bytes) (h : data.getLast? = some CR) :
    ∃ lines last, splitFrom acc data = lines ++ [last] ∧
      splitFrom acc (data ++ [LF]) =
        lines ++ [⟨last.content, last.terminator ++ [LF]⟩] := by
  induction data using newlineInduction generalizing acc with
  | nil => cases h
  | newline terminator rest ht ih =>
    rw [splitFrom_newline ht, append_assoc]
    by_cases hne : rest = []
    · subst hne
      obtain rfl : terminator = [CR] := by rcases ht.ended with rfl | rfl | rfl <;> simp_all
      exact ⟨[], ⟨acc, [CR]⟩, rfl, splitFrom_newline .crlf⟩
    obtain ⟨lines, last, hl, hlf⟩ := ih [] (by rwa [getLast?_append_of_ne_nil _ hne] at h)
    have apart : Terminates terminator (rest ++ [LF]) :=
      ⟨ht.ended, fun cr => by rw [head?_append_of_ne_nil _ hne]; exact ht.apart cr⟩
    exact ⟨⟨acc, terminator⟩ :: lines, last, by rw [hl]; rfl,
      by rw [splitFrom_newline apart, hlf]; rfl⟩
  | other b rest hc hl ih =>
    have hne : rest ≠ [] := by
      rintro rfl
      exact hc (by simpa using h)
    rw [cons_append, splitFrom_other hc hl, splitFrom_other hc hl]
    exact ih _ (by rwa [getLast?_cons_of_ne_nil hne] at h)

theorem writeLines_concat (payload : Bytes) (written : Bool) (lines : List SseEventLine)
    {last : SseEventLine} (h : last.isData = false) :
    writeLines payload written (lines ++ [last]) =
      writeLines payload written lines ++ last.content ++ last.terminator := by
  induction lines generalizing written with
  | nil => simp [writeLines, h]
  | cons line rest ih =>
    rw [cons_append]
    unfold writeLines
    split <;> simp [ih]

/-- A LF behind the CR of the blank line changes nothing of an event but its end. -/
theorem rewrite_append_lf (rewriter : Rewriter) (complete : CompleteEvent event)
    (h : event.getLast? = some CR) :
    rewriter.invocation (event ++ [LF]) = rewriter.invocation event ∧
      rewriteSSEEventWithMetadata rewriter (event ++ [LF]) =
        (rewriteSSEEventWithMetadata rewriter event).map
          fun rewritten => { rewritten with body := rewritten.body ++ [LF] } := by
  obtain ⟨lines, blank, hsplit, -, hb⟩ := complete.lines
  obtain ⟨lines', last, hl, hlf⟩ := splitFrom_append_lf [] h
  obtain ⟨rfl, hlast⟩ := append_inj' (hl.symm.trans hsplit) rfl
  obtain rfl : last = blank := by simpa using hlast
  have hdata (terminator : Bytes) : SseEventLine.data ⟨last.content, terminator⟩ = none :=
    hb.not_data
  have invoked : rewriter.invocation (event ++ [LF]) = rewriter.invocation event := by
    have data_eq : dataValues (splitSSEEventLines (event ++ [LF])) =
        dataValues (splitSSEEventLines event) := by
      rw [splitSSEEventLines, hlf, splitSSEEventLines, hl]
      simp [dataValues, hdata]
    have name_eq : eventName (splitSSEEventLines (event ++ [LF])) =
        eventName (splitSSEEventLines event) := by
      rw [splitSSEEventLines, hlf, splitSSEEventLines, hl]
      simp [eventName]
    unfold Rewriter.invocation payloadOf
    dsimp only
    rw [data_eq, name_eq]
  refine ⟨invoked, ?_⟩
  have written (payload : Bytes) : writeLines payload false (splitSSEEventLines (event ++ [LF])) =
      writeLines payload false (splitSSEEventLines event) ++ [LF] := by
    rw [splitSSEEventLines, hlf, splitSSEEventLines, hl,
      writeLines_concat payload false lines' (by simp [SseEventLine.isData, hdata]),
      writeLines_concat payload false lines' (by simp [SseEventLine.isData, hb.not_data])]
    simp
  unfold rewriteSSEEventWithMetadata
  rw [invoked]
  cases rewriter.invocation event with
  | none => rfl
  | some invocation =>
    obtain ⟨call, errorEvent⟩ := invocation
    dsimp only
    cases rewriter.rewrite call errorEvent with
    | error cause => rfl
    | ok rewritten =>
      dsimp only
      split
      · rfl
      · rw [written]
        rfl

/-- How the first event of bytes relates to one that a scanner reported in a part of them: it is the
same, or it has the LF in addition. -/
theorem firstEvent_append (more : Bytes) (h : firstEvent seen = (some n, scanner)) :
    firstEvent (seen ++ more) = (some n, scanner) ∨
      scanner.skipLineFeed = true ∧ n = seen.length ∧ seen.getLast? = some CR ∧
        ∃ later, more = LF :: later ∧
          ∃ scanner', firstEvent (seen ++ more) = (some (n + 1), scanner') := by
  rcases findFrom_append_some more h with same | ⟨hskip, hn, ⟨start, rfl⟩, ⟨later, hlater⟩, found⟩
  · exact .inl same
  · exact .inr ⟨hskip, by simpa using hn, by simp, later, hlater, _, found⟩

theorem outcome_event {event : Bytes} (hl : event.length ≤ limit) :
    outcome limit rewriter Cut tail (event :: rest) =
      match rewriteSSEEventWithMetadata rewriter event with
      | .error err => ⟨[], (rewriter.invocation event).toList, err⟩
      | .ok rewritten =>
        if limit < rewritten.body.length then
          ⟨[], (rewriter.invocation event).toList, .eventTooLarge⟩
        else
          (outcome limit rewriter Cut tail rest).after (rewriter.invocation event).toList
            rewritten.body := by
  rw [outcome, if_neg (by omega)]

theorem outcome_overlong (hl : limit < event.length)
    (whole : LastByteTooMuch limit event → ¬ Cut ((rest.flatten ++ tail).length + 1)) :
    outcome limit rewriter Cut tail (event :: rest) = ⟨[], [], .eventTooLarge⟩ := by
  rw [outcome, if_pos hl, if_neg fun ⟨much, cut⟩ => whole much cut]

theorem outcome_late (h : LastByteTooMuch limit event)
    (cut : Cut ((rest.flatten ++ tail).length + 1)) :
    outcome limit rewriter Cut tail (event :: rest) =
      ⟨[], (rewriter.invocation event.dropLast).toList, lateError rewriter event⟩ := by
  have hl := h.1
  rw [outcome, if_pos (by omega), if_pos ⟨h, cut⟩]

/-- The result that the events of `data` determine. -/
noncomputable def outcomeOf (limit : Nat) (rewriter : Rewriter) (Cut : Nat → Prop) (data : Bytes) :
    Result :=
  outcome limit rewriter Cut (events data).2 (events data).1

theorem outcomeOf_none (h : firstEvent data = (none, scanner)) :
    outcomeOf limit rewriter Cut data = ⟨[], [], if limit < data.length then .eventTooLarge
      else if data = [] then .eof else .eventIncomplete⟩ := by
  rw [outcomeOf, events_none h, outcome]

theorem outcomeOf_some (h : firstEvent data = (some n, scanner)) :
    outcomeOf limit rewriter Cut data = outcome limit rewriter Cut
      (events (data.drop n)).2 (data.take n :: (events (data.drop n)).1) := by
  rw [outcomeOf, events_some h]

/-- Bytes too many without a boundary are too large in any case: the event is longer still. -/
theorem outcomeOf_overlong (h : firstEvent seen = (none, scanner)) (hl : limit < seen.length) :
    outcomeOf limit rewriter Cut (seen ++ more) = ⟨[], [], .eventTooLarge⟩ := by
  cases hf : firstEvent (seen ++ more) with
  | mk found scanner' =>
    cases found with
    | none =>
      rw [outcomeOf_none hf, if_pos (by rw [length_append]; omega)]
    | some n =>
      have lower := le_of_firstEvent_none hf h
      have upper := (firstEvent_bounds hf).2.1
      rw [outcomeOf_some hf, outcome_overlong (by rw [length_take]; omega)]
      rintro ⟨length, -⟩
      rw [length_take] at length
      omega

section Grown

/-! An event that was reported at the CR of its blank line, because a read has ended there, and the
LF behind it. -/

variable {event : Bytes} (complete : CompleteEvent event) (hcr : event.getLast? = some CR)
  (hl : event.length ≤ limit) (cut : Cut ((rest.flatten ++ tail).length + 1))
include complete hcr hl cut

omit complete cut in
theorem lastByteTooMuch (hn : limit ≤ event.length) : LastByteTooMuch limit (event ++ [LF]) := by
  obtain ⟨start, rfl⟩ := getLast?_eq_some_iff.mp hcr
  exact ⟨by rw [length_append]; simp only [length_singleton]; omega, start, by simp⟩

theorem outcome_grown :
    outcome limit rewriter Cut tail ((event ++ [LF]) :: rest) =
      match rewriteSSEEventWithMetadata rewriter event with
      | .error err => ⟨[], (rewriter.invocation event).toList, err⟩
      | .ok rewritten =>
        if limit ≤ event.length ∨ limit ≤ rewritten.body.length then
          ⟨[], (rewriter.invocation event).toList, .eventTooLarge⟩
        else
          ((outcome limit rewriter Cut tail rest).after [] [LF]).after
            (rewriter.invocation event).toList rewritten.body := by
  obtain ⟨invoked, longer⟩ := rewrite_append_lf rewriter complete hcr
  by_cases hn : limit ≤ event.length
  · rw [outcome_late (lastByteTooMuch hcr hl hn) cut, lateError, dropLast_concat]
    cases rewriteSSEEventWithMetadata rewriter event <;> simp [hn]
  rw [outcome_event (by rw [length_append]; simp only [length_singleton]; omega), longer, invoked]
  cases rewriteSSEEventWithMetadata rewriter event with
  | error err => rfl
  | ok rewritten =>
    simp only [Except.map, length_append, length_singleton, Nat.lt_add_one_iff, hn, false_or]
    simp [Result.after]

end Grown

/-- The two ways in which an event is reported in a part of the bytes. -/
theorem outcomeOf_reported (limit : Nat) (rewriter : Rewriter) (Cut : Nat → Prop) (more : Bytes)
    (h : firstEvent seen = (some n, scanner)) :
    (firstEvent (seen ++ more) = (some n, scanner) ∧ (seen ++ more).take n = seen.take n ∧
        (seen ++ more).drop n = seen.drop n ++ more) ∨
      scanner.skipLineFeed = true ∧ CompleteEvent seen ∧ seen.getLast? = some CR ∧
        n = seen.length ∧ ∃ later, more = LF :: later ∧
          outcomeOf limit rewriter Cut (seen ++ more) =
            outcome limit rewriter Cut (events later).2 ((seen ++ [LF]) :: (events later).1) := by
  have upper := (firstEvent_bounds h).2.1
  rcases firstEvent_append more h with same | ⟨hskip, hn, hcr, later, rfl, scanner', grown⟩
  · exact .inl ⟨same, take_append_of_le_length upper, drop_append_of_le_length upper⟩
  refine .inr ⟨hskip, ?_, hcr, hn, later, rfl, ?_⟩
  · exact (congrArg Prod.fst h).trans (congrArg some hn)
  have hsplit : seen ++ LF :: later = (seen ++ [LF]) ++ later := by simp
  have hlen : n + 1 = (seen ++ [LF]).length := by simp [hn]
  rw [outcomeOf_some grown, hsplit, hlen, take_left, drop_left]

theorem Yields.of_no_line_feed (h : Yields limit rewriter Cut (some previous) data result)
    (hd : data.head? ≠ some LF) : Yields limit rewriter Cut none data result := by
  cases h with
  | noLineFeed _ h => exact h
  | lineFeed | lineFeedOverflow => exact absurd rfl hd

/-- Whatever is made of the bytes agrees with what their events determine. -/
theorem Yields.agrees (h : Yields limit rewriter Cut none data result) :
    result.Agrees (outcomeOf limit rewriter Cut data) := by
  induction hn : data.length using Nat.strongRecOn generalizing data result with
  | _ length ih =>
    -- The LF behind a CR at which a read has ended, with all that follows it.
    have cutLater {later : Bytes} (cut : Cut (LF :: later).length) :
        Cut (((events later).1.flatten ++ (events later).2).length + 1) := by
      rwa [events_flatten]
    cases h with
    | ended h hl =>
      rw [outcomeOf_none h, if_neg (Nat.not_lt.mpr hl)]
    | overlong h hl => rw [outcomeOf_overlong h hl]
    | @eventOverlong seen more n after h hl whole =>
      have upper := (firstEvent_bounds h).2.1
      rcases outcomeOf_reported limit rewriter Cut more h with
        ⟨same, taken, dropped⟩ | ⟨-, -, -, hlen, later, rfl, grown⟩
      · rw [outcomeOf_some same, taken, outcome_overlong (by rw [length_take]; omega)]
        intro much
        have length := much.1
        rw [length_take] at length
        rw [events_flatten, length_drop]
        have := whole much
        rwa [show (seen ++ more).length - limit = (seen ++ more).length - n + 1 by
          rw [length_append]; omega] at this
      · rw [grown, outcome_overlong (by rw [length_append]; omega)]
        rintro ⟨length, -⟩
        rw [length_append, length_singleton] at length
        omega
    | @rewriteFails seen more n after err h hl cut hr =>
      have upper := (firstEvent_bounds h).2.1
      rcases outcomeOf_reported limit rewriter Cut more h with
        ⟨same, taken, -⟩ | ⟨-, complete, hcr, rfl, later, rfl, grown⟩
      · rw [outcomeOf_some same, taken, outcome_event (by rw [length_take]; omega), hr]
      rw [take_length] at hr ⊢
      rw [grown, outcome_grown complete hcr hl (cutLater cut), hr]
    | @rewriteOverlong seen more n after rewritten h hl cut hr ho =>
      have upper := (firstEvent_bounds h).2.1
      rcases outcomeOf_reported limit rewriter Cut more h with
        ⟨same, taken, -⟩ | ⟨-, complete, hcr, rfl, later, rfl, grown⟩
      · rw [outcomeOf_some same, taken, outcome_event (by rw [length_take]; omega), hr]
        simp only [ho, if_true]
        rfl
      rw [take_length] at hr ⊢
      rw [grown, outcome_grown complete hcr hl (cutLater cut), hr]
      simp only [Nat.le_of_lt ho, or_true, if_true]
      rfl
    | @event seen more n after rewritten result h hl cut hr ho hrest =>
      obtain ⟨lower, upper, apart⟩ := firstEvent_bounds h
      rcases outcomeOf_reported limit rewriter Cut more h with ⟨same, taken, dropped⟩ |
        ⟨hskip, complete, hcr, rfl, later, rfl, grown⟩
      · -- What follows is cut off from the event: a pending line feed is not there.
        have plain : Yields limit rewriter Cut none (seen.drop n ++ more) result := by
          cases hs : after.skipLineFeed with
          | false => simpa [hs] using hrest
          | true =>
            have notLF := (firstEvent_bounds same).2.2 hs
            rw [dropped] at notLF
            simp only [hs, if_true] at hrest
            exact hrest.of_no_line_feed notLF
        have agrees := ih _ (by
          rw [← hn, length_append, length_append, length_drop]; omega) plain rfl
        rw [outcomeOf_some same, taken, outcome_event (by rw [length_take]; omega), hr]
        simp only [Nat.not_lt.mpr ho, if_false]
        rw [dropped]
        exact agrees.after _ _
      · simp only [hskip, if_true, drop_length, nil_append] at hrest
        rw [take_length] at hr ⊢
        rw [grown, outcome_grown complete hcr hl (cutLater cut), hr]
        cases hrest with
        | noLineFeed hd h => simp at hd
        | lineFeedOverflow large =>
          simp only [large, if_true]
          exact ⟨by simp [Result.after], rfl, fun he => by cases he⟩
        | lineFeed hi ho h =>
          have agrees := ih _ (by
            rw [← hn, length_append, length_cons]; omega) h rfl
          simp only [Nat.not_le.mpr hi, Nat.not_le.mpr ho, or_self, if_false]
          exact (agrees.after _ _).after _ _

/-- The event is rewritten and stays within the limit. -/
def Passes (limit : Nat) (rewriter : Rewriter) (event : Bytes) : Prop :=
  event.length ≤ limit ∧ ∃ rewritten, rewriteSSEEventWithMetadata rewriter event = .ok rewritten ∧
    rewritten.body.length ≤ limit

/-- The first failure among some events is one that is too large by the LF of its blank line. -/
structure FailsByLineFeed (limit : Nat) (rewriter : Rewriter) (pieces before : List Bytes)
    (event : Bytes) (after : List Bytes) : Prop where
  split : pieces = before ++ event :: after
  passed : ∀ earlier ∈ before, Passes limit rewriter earlier
  much : LastByteTooMuch limit event

/-- The calls of the callback for some events. -/
def callsOf (rewriter : Rewriter) (pieces : List Bytes) : List (StreamEvent × Bool) :=
  pieces.flatMap fun event => (rewriter.invocation event).toList

theorem outcome_passed (passed : ∀ earlier ∈ before, Passes limit rewriter earlier) :
    ∃ output, ∀ Cut, outcome limit rewriter Cut tail (before ++ pieces) =
      (outcome limit rewriter Cut tail pieces).after (callsOf rewriter before) output := by
  induction before with
  | nil => exact ⟨[], fun Cut => by simp [Result.after, callsOf]⟩
  | cons event before ih =>
    obtain ⟨⟨hl, rewritten, hr, ho⟩, passed⟩ := forall_mem_cons.mp passed
    obtain ⟨output, same⟩ := ih passed
    refine ⟨rewritten.body ++ output, fun Cut => ?_⟩
    rw [cons_append, outcome_event hl, hr]
    simp [Nat.not_lt.mpr ho, same, Result.after, callsOf]

/-- The events and the reads decide how a stream ends whose first failure is an event that is too
large by the LF of its blank line. -/
theorem FailsByLineFeed.outcome {before after : List Bytes}
    (h : FailsByLineFeed limit rewriter pieces before event after) :
    (Cut ((after.flatten ++ tail).length + 1) →
      (StreamRewrite.outcome limit rewriter Cut tail pieces).calls =
        callsOf rewriter before ++ (rewriter.invocation event.dropLast).toList ∧
      (StreamRewrite.outcome limit rewriter Cut tail pieces).err = lateError rewriter event) ∧
    (¬ Cut ((after.flatten ++ tail).length + 1) →
      (StreamRewrite.outcome limit rewriter Cut tail pieces).calls = callsOf rewriter before ∧
      (StreamRewrite.outcome limit rewriter Cut tail pieces).err = .eventTooLarge) := by
  obtain ⟨output, same⟩ := @outcome_passed limit rewriter tail (event :: after) before h.passed
  rw [h.split, same]
  have length := h.much.1
  constructor
  · intro cut
    rw [outcome_late h.much cut]
    exact ⟨rfl, rfl⟩
  · intro whole
    rw [outcome_overlong (by omega) fun _ => whole]
    exact ⟨by simp [Result.after], rfl⟩

/-- The reads make no difference but for an event that is too large by the LF of its blank line. -/
theorem outcome_congr {Cut' : Nat → Prop}
    (same : ∀ before event after, FailsByLineFeed limit rewriter pieces before event after →
      (Cut ((after.flatten ++ tail).length + 1) ↔ Cut' ((after.flatten ++ tail).length + 1))) :
    outcome limit rewriter Cut tail pieces = outcome limit rewriter Cut' tail pieces := by
  induction pieces with
  | nil => rfl
  | cons event rest ih =>
    by_cases hl : event.length ≤ limit
    · rw [outcome_event hl, outcome_event hl]
      cases hr : rewriteSSEEventWithMetadata rewriter event with
      | error err => rfl
      | ok rewritten =>
        dsimp only
        split
        · rfl
        rename_i ho
        rw [ih fun before late after fails => same (event :: before) late after
          ⟨by rw [fails.split]; rfl,
            forall_mem_cons.mpr ⟨⟨hl, rewritten, hr, Nat.not_lt.mp ho⟩, fails.passed⟩, fails.much⟩]
    · by_cases much : LastByteTooMuch limit event
      · have agree := same [] event rest ⟨rfl, nofun, much⟩
        by_cases cut : Cut ((rest.flatten ++ tail).length + 1)
        · rw [outcome_late much cut, outcome_late much (agree.mp cut)]
        · rw [outcome_overlong (by omega) fun _ => cut,
            outcome_overlong (by omega) fun _ => mt agree.mpr cut]
      · rw [outcome_overlong (by omega) fun h => absurd h much,
          outcome_overlong (by omega) fun h => absurd h much]

/-- The callback returns the payload it is called with. -/
def Rewriter.IsIdentity (rewriter : Rewriter) : Prop :=
  ∀ call errorEvent, ∃ terminal, rewriter.rewrite call errorEvent = .ok ⟨call.payload, terminal⟩

/-- What an event within the limit becomes stays within it. -/
def Rewriter.Fits (limit : Nat) (rewriter : Rewriter) : Prop :=
  ∀ event : Bytes, event.length ≤ limit →
    ∃ rewritten, rewriteSSEEventWithMetadata rewriter event = .ok rewritten ∧
      rewritten.body.length ≤ limit

theorem Rewriter.IsIdentity.rewrite_eq (h : rewriter.IsIdentity) (event : Bytes) :
    ∃ terminal, rewriteSSEEventWithMetadata rewriter event = .ok ⟨event, terminal⟩ := by
  unfold rewriteSSEEventWithMetadata
  cases rewriter.invocation event with
  | none => exact ⟨false, rfl⟩
  | some invocation =>
    obtain ⟨terminal, hr⟩ := h invocation.1 invocation.2
    exact ⟨terminal, by simp [hr]⟩

/-- With the identity, what comes out of a stream that ends well is what went in. -/
theorem outcome_identity (h : rewriter.IsIdentity)
    (ended : (outcome limit rewriter Cut tail pieces).err = .eof) :
    (outcome limit rewriter Cut tail pieces).output = pieces.flatten ++ tail := by
  induction pieces with
  | nil =>
    rw [outcome] at ended ⊢
    dsimp only at ended
    split at ended
    · cases ended
    split at ended
    · rename_i ht
      simp [ht]
    · cases ended
  | cons event rest ih =>
    obtain ⟨terminal, hr⟩ := h.rewrite_eq event
    by_cases hl : event.length ≤ limit
    · rw [outcome_event hl, hr] at ended ⊢
      simp only [Nat.not_lt.mpr hl, if_false] at ended ⊢
      simp [Result.after, ih ended]
    rw [outcome, if_pos (by omega)] at ended
    split at ended
    · simp only [lateError] at ended
      obtain ⟨_, hd⟩ := h.rewrite_eq event.dropLast
      rw [hd] at ended
      cases ended
    · cases ended

/-- An event is rejected as too large exactly if it is, its LF included. -/
theorem outcome_tooLarge_iff (fits : rewriter.Fits limit) :
    (outcome limit rewriter Cut tail pieces).err = .eventTooLarge ↔
      (∃ event ∈ pieces, limit < event.length) ∨ limit < tail.length := by
  induction pieces with
  | nil =>
    rw [outcome]
    dsimp only
    split
    · simp_all
    · split <;> simp_all
  | cons event rest ih =>
    by_cases hl : event.length ≤ limit
    · obtain ⟨rewritten, hr, ho⟩ := fits event hl
      rw [outcome_event hl, hr]
      simp only [Nat.not_lt.mpr ho, if_false, Result.after, ih, mem_cons, exists_eq_or_imp,
        Nat.not_lt.mpr hl, false_or]
    have large : ∃ e ∈ event :: rest, limit < e.length := ⟨event, by simp, by omega⟩
    simp only [large, true_or, iff_true]
    rw [outcome, if_pos (by omega)]
    split
    · rename_i much
      obtain ⟨rewritten, hr, -⟩ := fits event.dropLast (by
        rw [length_dropLast, much.1.1]; omega)
      simp [lateError, hr]
    · rfl

end Outcome

end ApiLoad.StreamRewrite
