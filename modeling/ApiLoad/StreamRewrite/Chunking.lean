import ApiLoad.StreamRewrite.Framing

/-!
# Framing does not depend on the reads

Every pass of the loop of `Read` makes of the bytes that are left something that `Yields` allows,
whatever the body delivers and however the consumer reads. A run therefore ends, with a result that
the events of the bytes determine, up to the one thing that depends on where the reads have ended.
-/
namespace ApiLoad.StreamRewrite

open Foundation Newline SseRewriteBoundaryScanner SseRewriteStream Result

attribute [local simp] consumeOptionalLineFeed

namespace SseRewriteBoundaryScanner

/-- The scanner with another memory of the previous event. -/
def withPrevious (scanner : SseRewriteBoundaryScanner) (optionalLineFeed : Bool)
    (input output : Nat) : SseRewriteBoundaryScanner :=
  { scanner with
    optionalLineFeed := optionalLineFeed
    previousInputBytes := input
    previousOutputBytes := output }

section Previous

variable (scanner : SseRewriteBoundaryScanner) (optional : Bool) (input output bytes : Nat)

@[simp] theorem withPrevious_scanOffset :
    (scanner.withPrevious optional input output).scanOffset = scanner.scanOffset := rfl

@[simp] theorem withPrevious_lineHasContent :
    (scanner.withPrevious optional input output).lineHasContent = scanner.lineHasContent := rfl

@[simp] theorem withPrevious_skipLineFeed :
    (scanner.withPrevious optional input output).skipLineFeed = scanner.skipLineFeed := rfl

@[simp] theorem withPrevious_lineEnd (skip : Bool) :
    (scanner.withPrevious optional input output).lineEnd bytes skip =
      (scanner.lineEnd bytes skip).withPrevious optional input output := rfl

/-- A scan neither reads nor changes what is known of the previous event. -/
theorem findFrom_withPrevious (data : Bytes) :
    (scanner.withPrevious optional input output).findFrom data =
      ((scanner.findFrom data).1,
        (scanner.findFrom data).2.withPrevious optional input output) := by
  induction data using newlineInduction generalizing scanner with
  | nil => rfl
  | newline terminator rest h ih =>
    have skip := withPrevious_skipLineFeed scanner optional input output
    by_cases hs : terminator = [LF] ∧ scanner.skipLineFeed = true
    · obtain ⟨rfl, hs⟩ := hs
      rw [List.singleton_append, findFrom_skip hs, findFrom_skip (skip.trans hs)]
      exact ih scanner.skipped
    have hs : terminator = [LF] → scanner.skipLineFeed = false := by simpa using hs
    rw [findFrom_newline h hs, findFrom_newline h fun lf => skip.trans (hs lf)]
    cases hc : scanner.lineHasContent <;> simp [hc, ih]
  | other b rest hc hl ih =>
    rw [findFrom_other hc hl, findFrom_other hc hl]
    exact ih (scanner.content 1)

end Previous

end SseRewriteBoundaryScanner

namespace SseRewriteStream

/-- The bytes that are left: those pending and those that the body still has. -/
def left (stream : SseRewriteStream) : Bytes := stream.pending ++ stream.body.chunks.flatten

/-- The sizes of the previous event, if a LF may still belong to it. -/
def previous (stream : SseRewriteStream) : Option (Nat × Nat) :=
  if stream.scanner.optionalLineFeed then
    some (stream.scanner.previousInputBytes, stream.scanner.previousOutputBytes)
  else none

/-- The bytes that the body still has. -/
def unread (stream : SseRewriteStream) : Nat := stream.body.chunks.flatten.length

/-- The reads have got as far as the body, and a scanner that had only what they had returned up to
one within the pending bytes would not have found a boundary there. -/
structure Arrived (stream : SseRewriteStream) : Prop where
  last : stream.pending ≠ [] → stream.unread ∈ stream.reads
  le : ∀ n ∈ stream.reads, stream.unread ≤ n
  uncut : ∀ n ∈ stream.reads, stream.unread < n → n < stream.left.length →
    ∃ scanner, firstEvent (stream.pending.take (stream.left.length - n)) = (none, scanner)

variable (limit : Nat) (rewriter : Rewriter)

/-- A stream that has not failed, over a body of non-empty pieces that ends with EOF. -/
structure Running (stream : SseRewriteStream) : Prop where
  limit_eq : stream.maxEventBytes = limit
  bounded : 0 < limit ∧ limit < 2 ^ 63 - 1
  callback : stream.rewrite = some rewriter
  running : stream.finished = false
  ending : stream.body.ending = .eof
  pieces : ∀ chunk ∈ stream.body.chunks, chunk ≠ []
  ended : ∀ err, stream.deferredErr = some err → err = .eof ∧ stream.body.chunks = []
  arrived : stream.Arrived

/-- The scanner has seen a part of the pending bytes and found no boundary there. -/
def Scanned (stream : SseRewriteStream) : Prop :=
  ∃ seen more scanner, stream.pending = seen ++ more ∧ firstEvent seen = (none, scanner) ∧
    stream.scanner = scanner.withPrevious stream.scanner.optionalLineFeed
      stream.scanner.previousInputBytes stream.scanner.previousOutputBytes ∧
    (stream.scanner.optionalLineFeed = true → seen = [])

/-- What a stream may still come to, with what it has put out and called before, and with the reads
that there will have been. -/
def Owes (reads : List Nat) (stream : SseRewriteStream) (result : Result) : Prop :=
  stream.reads ⊆ reads ∧
    ∃ rest, Yields limit rewriter (· ∈ reads) stream.previous stream.left rest ∧
      result = rest.after stream.calls stream.output

/-- There is less to do: fewer bytes, or as many and less output, or less to read. -/
def Less (next stream : SseRewriteStream) : Prop :=
  next.left.length < stream.left.length ∨
    next.left.length = stream.left.length ∧
      (next.output.length < stream.output.length ∨
        next.output.length = stream.output.length ∧
          next.body.chunks.flatten.length + (if next.deferredErr.isNone then 1 else 0) <
            stream.body.chunks.flatten.length + if stream.deferredErr.isNone then 1 else 0)

/-- A pass does what it may: it goes on to a stream with less to do that owes what this one does,
or it ends with a result that is owed. -/
def Goes (stream : SseRewriteStream) : Pass → Prop
  | .again next zeroReads =>
    zeroReads = 0 ∧ Running limit rewriter next ∧ next.Scanned ∧ Less next stream ∧
      ∀ reads result, Owes limit rewriter reads next result →
        Owes limit rewriter reads stream result
  | .returned next read none =>
    Running limit rewriter next ∧ next.Scanned ∧ Less next stream ∧
      ∀ reads result, Owes limit rewriter reads next result →
        Owes limit rewriter reads stream ⟨read ++ result.output, result.calls, result.err⟩
  | .returned next read (some err) =>
    Owes limit rewriter next.reads stream ⟨read, next.calls, err⟩
  | .panicked => False

variable {limit rewriter} {stream : SseRewriteStream}

/-- The output and the scanner are free. -/
theorem Running.set (h : Running limit rewriter stream) (output : Bytes)
    (scanner : SseRewriteBoundaryScanner) (readEnded outputEnds terminal : Bool) :
    Running limit rewriter
      { stream with
        output := output
        scanner := scanner
        readEndedTerminal := readEnded
        outputEndsEvent := outputEnds
        outputEndsTerminal := terminal } :=
  ⟨h.limit_eq, h.bounded, h.callback, h.running, h.ending, h.pieces, h.ended,
    ⟨h.arrived.last, h.arrived.le, h.arrived.uncut⟩⟩

theorem Scanned.find_pending (h : stream.Scanned) :
    stream.scanner.find stream.pending =
      ((firstEvent stream.pending).1,
        (firstEvent stream.pending).2.withPrevious stream.scanner.optionalLineFeed
          stream.scanner.previousInputBytes stream.scanner.previousOutputBytes) := by
  obtain ⟨seen, more, scanner, hp, found, hs, -⟩ := h
  have offset : stream.scanner.scanOffset = seen.length := by
    rw [hs]
    simpa using findFrom_none_offset found
  rw [find, offset, hp, List.drop_left, firstEvent, findFrom_append_none more found,
    ← findFrom_withPrevious, ← hs]

theorem copyOutput_goes (h : Running limit rewriter stream) (hs : stream.Scanned)
    (hout : stream.output ≠ []) (ht : 0 < target) :
    Goes limit rewriter stream (stream.copyOutput target) := by
  have shorter : (stream.output.drop target).length < stream.output.length := by
    have := List.length_pos_iff.mpr hout
    rw [List.length_drop]
    omega
  unfold copyOutput
  dsimp only
  by_cases hd : stream.output.drop target = []
  · rw [if_pos hd]
    refine ⟨h.set _ _ _ _ _, hs, .inr ⟨rfl, .inl (List.length_pos_iff.mpr hout)⟩, ?_⟩
    rintro reads _ ⟨older, rest, yields, rfl⟩
    refine ⟨older, rest, yields, ?_⟩
    have whole : stream.output.take target = stream.output :=
      List.take_of_length_le (List.drop_eq_nil_iff.mp hd)
    simp [after, whole]
  · rw [if_neg hd]
    refine ⟨h.set _ _ _ _ _, hs, .inr ⟨rfl, .inl shorter⟩, ?_⟩
    rintro reads _ ⟨older, rest, yields, rfl⟩
    refine ⟨older, rest, yields, ?_⟩
    simp only [after]
    rw [← List.append_assoc, List.take_append_drop]

/-- What is left of the pending bytes behind an event came with one read. -/
theorem Arrived.drop (h : stream.Arrived) {scanner : SseRewriteBoundaryScanner}
    (found : firstEvent stream.pending = (some n, scanner)) {next : SseRewriteStream}
    (pending : next.pending = stream.pending.drop n) (body : next.body = stream.body)
    (reads : next.reads = stream.reads) : next.Arrived := by
  have upper := (firstEvent_bounds found).2.1
  have unread : next.unread = stream.unread := by rw [SseRewriteStream.unread, body]; rfl
  have left : next.left.length = stream.left.length - n := by
    simp only [SseRewriteStream.left, pending, body, List.length_append, List.length_drop]
    omega
  refine ⟨fun ne => ?_, ?_, ?_⟩
  · rw [unread, reads]
    refine h.last fun none => ne ?_
    rw [pending, none, List.drop_nil]
  · rw [unread, reads]
    exact h.le
  · rw [unread, reads, left]
    intro k hk after before
    -- A read that ended behind the event would have had the event.
    obtain ⟨scanner', none⟩ := h.uncut k hk after (by omega)
    have split := List.take_append_drop (stream.left.length - k) stream.pending
    have := le_of_firstEvent_none (split.symm ▸ found) none
    simp only [List.length_take, SseRewriteStream.left, List.length_append] at this before
    simp only [SseRewriteStream.unread] at after
    omega

/-- A read after pending bytes without a boundary. -/
theorem Arrived.append (h : stream.Arrived) {scanner : SseRewriteBoundaryScanner}
    (found : firstEvent stream.pending = (none, scanner)) {chunk : Bytes} {body : Body}
    (bytes : chunk ++ body.chunks.flatten = stream.body.chunks.flatten) {next : SseRewriteStream}
    (pending : next.pending = stream.pending ++ chunk) (body_eq : next.body = body)
    (reads : next.reads = stream.reads ++ [body.chunks.flatten.length]) : next.Arrived := by
  have unread : next.unread = body.chunks.flatten.length := by rw [SseRewriteStream.unread, body_eq]
  have left : next.left = stream.left := by
    rw [SseRewriteStream.left, pending, body_eq, List.append_assoc, bytes, SseRewriteStream.left]
  have parts : stream.left.length = stream.pending.length + stream.unread := by
    simp [SseRewriteStream.left, SseRewriteStream.unread]
  have fewer : stream.unread = chunk.length + next.unread := by
    rw [SseRewriteStream.unread, ← bytes, List.length_append, unread]
  refine ⟨fun _ => by simp [unread, reads], fun n hn => ?_, fun n hn after before => ?_⟩
  · rw [reads] at hn
    obtain hn | hn := List.mem_append.mp hn
    · have := h.le n hn
      omega
    · exact Nat.le_of_eq (unread.trans (List.mem_singleton.mp hn).symm)
  · rw [left] at before ⊢
    rw [reads] at hn
    obtain hn | hn := List.mem_append.mp hn
    swap
    · have := List.mem_singleton.mp hn
      omega
    have old := h.le n hn
    rw [pending, List.take_append_of_le_length (by omega)]
    -- The read before this one ended where the pending bytes ended, and those have no boundary.
    obtain eq | lt := Nat.eq_or_lt_of_le old
    · exact ⟨scanner, by rw [List.take_of_length_le (by omega), found]⟩
    · exact h.uncut n hn lt before

theorem takeEvent_goes (h : Running limit rewriter stream) (hout : stream.output = [])
    {scanner : SseRewriteBoundaryScanner} (found : firstEvent stream.pending = (some n, scanner))
    {output : Nat} (hs : stream.scanner = scanner.withPrevious false input output) :
    Goes limit rewriter stream (stream.takeEvent n 0) := by
  have none_previous : stream.previous = none := by simp [previous, hs, withPrevious]
  have owed {reads : List Nat} (older : stream.reads ⊆ reads) {rest : Result}
      (yields : Yields limit rewriter (· ∈ reads) none stream.left rest) :
      Owes limit rewriter reads stream (rest.after stream.calls []) :=
    ⟨older, rest, none_previous ▸ yields, by rw [hout]⟩
  obtain ⟨lower, upper, -⟩ := firstEvent_bounds found
  have cut {reads : List Nat} (older : stream.reads ⊆ reads) :
      stream.body.chunks.flatten.length ∈ reads :=
    older (h.arrived.last fun none => by simp [none] at upper; omega)
  unfold takeEvent
  rw [h.limit_eq, h.callback]
  dsimp only
  split
  · rename_i hl
    have whole : LastByteTooMuch limit (stream.pending.take n) →
        stream.left.length - limit ∉ stream.reads := by
      rintro ⟨length, start, last⟩ read
      rw [List.length_take] at length
      have positive := h.bounded.1
      obtain ⟨scanner', none⟩ := h.arrived.uncut _ read
        (by simp only [unread, left, List.length_append]; omega)
        (by simp only [left, List.length_append]; omega)
      have taken : stream.pending.take (stream.left.length - (stream.left.length - limit)) =
          start ++ [CR] := by
        have short : stream.left.length - (stream.left.length - limit) = n - 1 := by
          simp only [left, List.length_append]
          omega
        rw [short, show start ++ [CR] = (start ++ [CR, LF]).take (n - 1) by
          have := congrArg List.length last
          simp only [List.length_take, List.length_append, List.length_cons,
            List.length_nil] at this
          rw [List.take_append, List.take_of_length_le (by omega),
            show n - 1 - start.length = 1 by omega]
          rfl, ← last, List.take_take, Nat.min_eq_left (by omega)]
      rw [taken] at none
      exact firstEvent_before_lf found last none
    simpa [Goes, fail, finish, after] using
      owed (List.Subset.refl _) (.eventOverlong found hl whole)
  rename_i hl
  cases hr : rewriteSSEEventWithMetadata rewriter (stream.pending.take n) with
  | error err =>
    simpa [Goes, fail, finish, after] using owed (List.Subset.refl _)
      (.rewriteFails found (Nat.not_lt.mp hl) (cut (List.Subset.refl _)) hr)
  | ok rewritten =>
    dsimp only
    split
    · rename_i ho
      simpa [Goes, fail, finish, after] using owed (List.Subset.refl _)
        (.rewriteOverlong found (Nat.not_lt.mp hl) (cut (List.Subset.refl _)) hr ho)
    rename_i ho
    refine ⟨rfl, ⟨rfl, h.bounded, rfl, h.running, h.ending, h.pieces, h.ended,
      h.arrived.drop found rfl rfl rfl⟩,
      ⟨[], stream.pending.drop n, {}, rfl, rfl, rfl, fun _ => rfl⟩, .inl ?_, ?_⟩
    · simp only [left, List.length_append, List.length_drop]
      omega
    rintro reads _ ⟨older, rest, yields, rfl⟩
    have skip : stream.scanner.skipLineFeed = scanner.skipLineFeed := by
      rw [hs]
      rfl
    simp only [previous, afterEvent, skip] at yields
    have := owed older (.event found (Nat.not_lt.mp hl) (cut older) hr (Nat.not_lt.mp ho) yields)
    simpa [after] using this

/-- A read of a body of non-empty pieces: it returns bytes, or the end and no bytes; and the end
comes only when no byte is left. -/
theorem read_spec {body : Body} (positive : 0 < limit) (pieces : ∀ chunk ∈ body.chunks, chunk ≠ [])
    {err : Option ReadEnd} (h : body.read limit = (chunk, err, next)) :
    chunk ++ next.chunks.flatten = body.chunks.flatten ∧ next.ending = body.ending ∧
      (∀ chunk ∈ next.chunks, chunk ≠ []) ∧ (chunk = [] → err.isSome = true) ∧
      ∀ e, err = some e → e = body.ending ∧ next.chunks = [] := by
  unfold Body.read at h
  cases hc : body.chunks with
  | nil =>
    simp only [hc] at h
    cases h
    refine ⟨by simp [hc], rfl, pieces, fun _ => rfl, ?_⟩
    rintro _ ⟨⟩
    exact ⟨rfl, hc⟩
  | cons first chunks =>
    have hne : first ≠ [] := pieces first (by simp [hc])
    have later : ∀ c ∈ chunks, c ≠ [] := fun c hm => pieces c (by simp [hc, hm])
    simp only [hc] at h
    split at h
    · rename_i hm
      cases h
      refine ⟨?_, rfl, List.forall_mem_cons.mpr ⟨?_, later⟩, ?_, by simp⟩
      · rw [List.flatten_cons, ← List.append_assoc, List.take_append_drop, List.flatten_cons]
      · rw [ne_eq, List.drop_eq_nil_iff]
        omega
      intro none_read
      rcases List.take_eq_nil_iff.mp none_read with h | h
      · omega
      · exact absurd h hne
    · cases h
      refine ⟨rfl, rfl, later, fun h => absurd h hne, ?_⟩
      intro e he
      split at he
      · rename_i last
        cases he
        exact ⟨rfl, last.1⟩
      · cases he

section

variable (h : Running limit rewriter stream)
include h

variable {input output : Nat} {scanner : SseRewriteBoundaryScanner}

omit h in
/-- The sum of `int`s does not overflow below the largest limit. -/
theorem readLimit_pos (bounded : stream.maxEventBytes < 2 ^ 63 - 1)
    (hl : stream.pending.length ≤ stream.maxEventBytes) : 0 < stream.readLimit := by
  have exact : (stream.maxEventBytes + 1 - stream.pending.length : Int).bmod (2 ^ 64) =
      stream.maxEventBytes + 1 - stream.pending.length :=
    Int.bmod_eq_of_le (by omega) (by omega)
  rw [readLimit, exact]
  simp only [streamReadBufferSize]
  omega

/-- Reading more keeps the bytes that are left. -/
theorem fill_goes (found : firstEvent stream.pending = (none, scanner)) {optional : Bool}
    (hs : stream.scanner = scanner.withPrevious optional input output)
    (hopt : optional = true → stream.pending = []) (hdef : stream.deferredErr = none)
    (hl : stream.pending.length ≤ limit) : Goes limit rewriter stream (stream.fill 0) := by
  obtain rfl := h.limit_eq
  have positive := readLimit_pos h.bounded.2 hl
  unfold fill
  rw [if_neg (by omega)]
  dsimp only
  generalize hr : stream.body.read stream.readLimit.toNat = result
  obtain ⟨chunk, err, body⟩ := result
  obtain ⟨bytes, ending, pieces, progress, last⟩ := read_spec (by omega) h.pieces hr
  have zero : (if chunk ≠ [] then 0 else if err = none then 0 + 1 else 0) = 0 := by
    by_cases hc : chunk = []
    · have := progress hc
      cases err <;> simp_all
    · simp [hc]
  have same : stream.pending ++ chunk ++ body.chunks.flatten = stream.left := by
    rw [List.append_assoc, bytes, left]
  have length := congrArg List.length bytes
  rw [List.length_append] at length
  simp only [zero, show ¬100 ≤ 0 by omega, if_false]
  refine ⟨rfl, ⟨rfl, h.bounded, h.callback, h.running, ending.trans h.ending, pieces, ?_, ?_⟩,
    ⟨stream.pending, chunk, scanner, rfl, found, ?_, ?_⟩,
    .inr ⟨congrArg List.length same, .inr ⟨rfl, ?_⟩⟩, ?_⟩
  · intro e he
    cases err with
    | none => simp [hdef] at he
    | some e' =>
      obtain ⟨rfl, hlast⟩ := last e' rfl
      cases he
      exact ⟨h.ending, hlast⟩
  · exact h.arrived.append found bytes rfl rfl rfl
  · simp [hs, withPrevious]
  · simpa [hs, withPrevious] using hopt
  · by_cases hc : chunk = []
    · have := progress hc
      cases err <;> simp_all
    have := List.length_pos_iff.mpr hc
    have bounded (e : Option ReadEnd) : (if e.isNone then 1 else 0) ≤ 1 := by
      split <;> omega
    have := bounded (if err.isSome then err else none)
    simp only [hdef, Option.isNone_none, if_true]
    omega
  · rintro reads _ ⟨older, rest, yields, rfl⟩
    exact ⟨fun n hn => older (List.mem_append_left _ hn), rest, same ▸ yields, rfl⟩

theorem starve_goes (hout : stream.output = [])
    (found : firstEvent stream.pending = (none, scanner)) {optional : Bool}
    (hs : stream.scanner = scanner.withPrevious optional input output)
    (hopt : optional = true → stream.pending = [] ∧ stream.deferredErr = none) :
    Goes limit rewriter stream (stream.starve 0) := by
  have none_previous (ho : optional = false) : stream.previous = none := by
    simp [previous, hs, withPrevious, ho]
  unfold starve
  rw [h.limit_eq, h.callback]
  split
  · rename_i hl
    have ho : optional = false := by
      by_contra ho
      have := (hopt (by simpa using ho)).1
      simp [this] at hl
    refine ⟨List.Subset.refl _, ⟨[], [], .eventTooLarge⟩, ?_, by simp [after, finish, hout]⟩
    rw [none_previous ho]
    exact .overlong found hl
  · rename_i hl
    cases hd : stream.deferredErr with
    | none => exact fill_goes h found hs (fun ho => (hopt ho).1) hd (Nat.not_lt.mp hl)
    | some err =>
      obtain ⟨rfl, hc⟩ := h.ended err hd
      have ho : optional = false := by
        by_contra ho
        simp [(hopt (by simpa using ho)).2] at hd
      have all : stream.left = stream.pending := by simp [left, hc]
      refine ⟨List.Subset.refl _,
        ⟨[], [], if stream.pending = [] then .eof else .eventIncomplete⟩, ?_,
        by simp [after, finish, hout, endOf]⟩
      rw [none_previous ho, all]
      exact .ended found (Nat.not_lt.mp hl)

/-- What `find` reports, it reports as of a fresh scanner; the pass goes on accordingly. -/
theorem scan_goes (scanned : stream.Scanned) (hout : stream.output = [])
    (hopt : stream.scanner.optionalLineFeed = true →
      stream.pending = [] ∧ stream.deferredErr = none) :
    Goes limit rewriter stream (stream.scan 0) := by
  unfold scan
  rw [scanned.find_pending]
  cases hf : firstEvent stream.pending with
  | mk found scanner =>
    have running (scanner : SseRewriteBoundaryScanner) :
        Running limit rewriter { stream with scanner := scanner } :=
      h.set _ _ _ _ _
    cases found with
    | some n =>
      have ho : stream.scanner.optionalLineFeed = false := by
        by_contra ho
        have := (hopt (by simpa using ho)).1
        rw [this] at hf
        cases hf
      have goes := takeEvent_goes (running (scanner.withPrevious false
        stream.scanner.previousInputBytes stream.scanner.previousOutputBytes)) hout hf rfl
      rw [← ho] at goes
      exact goes
    | none => exact starve_goes (running _) hout hf rfl hopt

end

/-- A stream that waited for a LF and no longer does. -/
def cleared (stream : SseRewriteStream) : SseRewriteStream :=
  { stream with scanner := stream.scanner.clearOptionalLineFeed }

theorem Scanned.clear (h : stream.Scanned) (ho : stream.scanner.optionalLineFeed = true) :
    stream.scanner.clearOptionalLineFeed = {} := by
  obtain ⟨seen, more, scanner, -, found, hs, hseen⟩ := h
  obtain rfl := hseen ho
  cases found
  rw [hs]
  rfl

theorem Scanned.of_fresh {next : SseRewriteStream} (h : next.scanner = {}) : next.Scanned := by
  refine ⟨[], next.pending, {}, rfl, rfl, ?_, fun _ => rfl⟩
  rw [h]
  rfl

/-- Where no LF comes, it makes no difference whether the stream waits for one. -/
theorem goes_of_cleared (ho : stream.scanner.optionalLineFeed = true)
    (noLF : stream.left.head? ≠ some LF) {pass : Pass}
    (h : Goes limit rewriter stream.cleared pass) : Goes limit rewriter stream pass := by
  have owed (reads : List Nat) (result : Result)
      (owes : Owes limit rewriter reads stream.cleared result) :
      Owes limit rewriter reads stream result := by
    obtain ⟨older, rest, yields, rfl⟩ := owes
    refine ⟨older, rest, ?_, rfl⟩
    rw [previous, if_pos ho]
    exact .noLineFeed noLF yields
  match pass, h with
  | .again _ _, ⟨zero, running, scanned, less, goes⟩ =>
    exact ⟨zero, running, scanned, less,
      fun reads result h => owed reads result (goes reads result h)⟩
  | .returned _ _ none, ⟨running, scanned, less, goes⟩ =>
    exact ⟨running, scanned, less, fun reads result h => owed reads _ (goes reads result h)⟩
  | .returned _ _ (some _), h => exact owed _ _ h

section

variable (h : Running limit rewriter stream) (scanned : stream.Scanned)
include h scanned

theorem cleared_goes (hout : stream.output = []) (ho : stream.scanner.optionalLineFeed = true)
    (noLF : stream.left.head? ≠ some LF) : Goes limit rewriter stream (stream.cleared.scan 0) := by
  have running : Running limit rewriter stream.cleared := h.set _ _ _ _ _
  refine goes_of_cleared ho noLF (scan_goes running (.of_fresh (scanned.clear ho)) hout ?_)
  simp [cleared, clearOptionalLineFeed]

/-- The LF of the previous event, or what it makes of an event that is too large. -/
theorem lineFeed_goes (hout : stream.output = []) (ho : stream.scanner.optionalLineFeed = true)
    (hp : stream.pending = LF :: rest) : Goes limit rewriter stream (stream.pass target 0) := by
  have hleft : stream.left = LF :: (rest ++ stream.body.chunks.flatten) := by simp [left, hp]
  have hprev : stream.previous = some (stream.scanner.previousInputBytes,
      stream.scanner.previousOutputBytes) := by simp [previous, ho]
  have consumed : stream.scanner.consumeOptionalLineFeed stream.pending stream.deferredErr.isSome
      stream.maxEventBytes = (1, decide (limit ≤ stream.scanner.previousInputBytes) ||
        decide (limit ≤ stream.scanner.previousOutputBytes),
        stream.scanner.clearOptionalLineFeed) := by
    simp [ho, hp, h.limit_eq]
  rw [pass, if_neg (by simp [h.running]), if_neg (not_not.mpr hout), consumed]
  cases hover : decide (limit ≤ stream.scanner.previousInputBytes) ||
      decide (limit ≤ stream.scanner.previousOutputBytes) with
  | true =>
    refine ⟨List.Subset.refl _, ⟨[], [], .eventTooLarge⟩, ?_, by simp [after, finish, hout]⟩
    rw [hleft, hprev]
    exact .lineFeedOverflow (by simpa using hover)
  | false =>
    obtain ⟨hi, hout'⟩ : stream.scanner.previousInputBytes < limit ∧
        stream.scanner.previousOutputBytes < limit := by simpa using hover
    -- A fresh scanner takes the LF for a boundary.
    have found : firstEvent stream.pending =
        (some 1, ({} : SseRewriteBoundaryScanner).lineEnd 1 false) := by
      rw [hp, firstEvent, ← List.singleton_append,
        findFrom_newline .lf fun _ => rfl]
      rfl
    refine ⟨rfl, ⟨h.limit_eq, h.bounded, h.callback, h.running, h.ending, h.pieces, h.ended,
      h.arrived.drop found rfl rfl rfl⟩, .of_fresh (scanned.clear ho), .inl ?_, ?_⟩
    · rw [hleft]
      simp [left, hp]
    rintro reads _ ⟨older, result, yields, rfl⟩
    refine ⟨older, result.after [] [LF], ?_, by simp [after, hout]⟩
    rw [hleft, hprev]
    refine .lineFeed hi hout' ?_
    simpa [left, previous, clearOptionalLineFeed, hp] using yields

theorem pass_goes (ht : 0 < target) : Goes limit rewriter stream (stream.pass target 0) := by
  by_cases hout : stream.output ≠ []
  · rw [pass, if_neg (by simp [h.running]), if_pos hout]
    exact copyOutput_goes h scanned hout ht
  have unfolded (scanner : SseRewriteBoundaryScanner)
      (consumed : stream.scanner.consumeOptionalLineFeed stream.pending stream.deferredErr.isSome
        stream.maxEventBytes = (0, false, scanner)) :
      stream.pass target 0 = scan { stream with scanner := scanner } 0 := by
    rw [pass, if_neg (by simp [h.running]), if_neg hout, consumed]
  rw [not_not] at hout
  cases ho : stream.scanner.optionalLineFeed with
  | false =>
    rw [unfolded stream.scanner (by simp [ho])]
    exact scan_goes h scanned hout (by simp [ho])
  | true =>
    rcases hp : stream.pending with _ | ⟨b, rest⟩
    · cases hd : stream.deferredErr with
      | none =>
        rw [unfolded stream.scanner (by simp [ho, hp, hd])]
        exact scan_goes h scanned hout fun _ => ⟨hp, hd⟩
      | some err =>
        rw [unfolded _ (by simp [ho, hp, hd]; rfl)]
        exact cleared_goes h scanned hout ho (by simp [left, hp, (h.ended err hd).2])
    · by_cases hb : b = LF
      · exact lineFeed_goes h scanned hout ho (hb ▸ hp)
      · rw [unfolded _ (by simp [ho, hp, hb]; rfl)]
        exact cleared_goes h scanned hout ho (by simp [left, hp, hb])

end

/-- Every run of a consumer ends, with a result that is owed. -/
theorem readAll_owes (ht : ∀ k, 0 < targets k) (stream : SseRewriteStream)
    (h : Running limit rewriter stream) (scanned : stream.Scanned) (calls : Nat) (read : Bytes) :
    ∃ result reads fuel, Owes limit rewriter reads stream result ∧ ∀ more,
      readAll targets (fuel + more) calls 0 read stream =
        some (⟨read ++ result.output, result.calls, result.err⟩, reads) := by
  have goes := pass_goes h scanned (ht calls)
  cases hp : stream.pass (targets calls) 0 with
  | again next zeroReads =>
    rw [hp] at goes
    obtain ⟨rfl, running, scanned', less, owed⟩ := goes
    obtain ⟨result, reads, fuel, owes, run⟩ := readAll_owes ht next running scanned' calls read
    refine ⟨result, reads, fuel + 1, owed reads result owes, fun more => ?_⟩
    rw [Nat.add_right_comm, readAll, hp]
    exact run more
  | panicked =>
    rw [hp] at goes
    exact goes.elim
  | returned next bytes err =>
    cases err with
    | none =>
      rw [hp] at goes
      obtain ⟨running, scanned', less, owed⟩ := goes
      obtain ⟨result, reads, fuel, owes, run⟩ := readAll_owes ht
        { next with readEndedTerminal := false } (running.set _ _ _ _ _) scanned' (calls + 1)
        (read ++ bytes)
      refine ⟨_, reads, fuel + 1, owed reads result owes, fun more => ?_⟩
      rw [Nat.add_right_comm, readAll, hp]
      simpa using run more
    | some err =>
      rw [hp] at goes
      refine ⟨_, _, 1, goes, fun more => ?_⟩
      rw [Nat.add_comm, readAll, hp]
termination_by (stream.left.length, stream.output.length,
  stream.body.chunks.flatten.length + if stream.deferredErr.isNone then 1 else 0)
decreasing_by
  all_goals
    simp only [Prod.lex_def]
    exact less

end SseRewriteStream

/-- A body that delivers `data` in non-empty pieces and then ends. -/
structure Delivers (body : Body) (data : Bytes) : Prop where
  pieces : ∀ chunk ∈ body.chunks, chunk ≠ []
  bytes : body.chunks.flatten = data
  ending : body.ending = .eof

/-- What a consumer with buffers of the sizes `targets` reads from a stream over `body`. `reads` are
the numbers of bytes that the body still had when its reads ended. -/
def Reads (limit : Nat) (rewriter : Rewriter) (body : Body) (targets : Nat → Nat)
    (result : Result) (reads : List Nat) : Prop :=
  ∃ fuel, ∀ more, readAll targets (fuel + more) 0 0 []
    (newSSEEventRewriteStream body limit (some rewriter)) = some (result, reads)

/-- A run that has ended does not depend on the fuel. -/
theorem readAll_add (more : Nat) {fuel calls zeroReads : Nat} {read : Bytes}
    {stream : SseRewriteStream} (h : readAll targets fuel calls zeroReads read stream = some end') :
    readAll targets (fuel + more) calls zeroReads read stream = some end' := by
  induction fuel generalizing calls zeroReads read stream with
  | zero => cases h
  | succ fuel ih =>
    rw [Nat.add_right_comm]
    rw [readAll] at h ⊢
    cases hp : stream.pass (targets calls) zeroReads with
    | again next zeroReads =>
      rw [hp] at h
      exact ih h
    | panicked =>
      rw [hp] at h
      cases h
    | returned next bytes err =>
      rw [hp] at h
      cases err with
      | none => exact ih h
      | some err => exact h

theorem Reads.reads_eq {body : Body} {reads reads' : List Nat}
    (h : Reads limit rewriter body targets result reads) (fuel : Nat)
    (run : (readAll targets fuel 0 0 []
      (newSSEEventRewriteStream body limit (some rewriter))).map (·.2) = some reads') :
    reads = reads' := by
  obtain ⟨enough, ended⟩ := h
  obtain ⟨end', reached, rfl⟩ := Option.map_eq_some_iff.mp run
  have same := readAll_add enough reached
  rw [Nat.add_comm, ended fuel] at same
  cases same
  rfl

/-- A consumer reads to the end, and has what the events of the bytes and the reads determine. -/
theorem reads_agree (positive : 0 < limit) (bounded : limit < 2 ^ 63 - 1) (rewriter : Rewriter)
    {body : Body} (delivers : Delivers body data) (ht : ∀ k, 0 < targets k) :
    ∃ result reads, Reads limit rewriter body targets result reads ∧
      result.Agrees (outcomeOf limit rewriter (· ∈ reads) data) := by
  have normalized : normalizedSSEEventLimit limit = limit := by
    rw [normalizedSSEEventLimit, if_pos (by omega)]
    rfl
  have running : Running limit rewriter (newSSEEventRewriteStream body limit (some rewriter)) :=
    ⟨normalized, ⟨positive, bounded⟩, rfl, rfl, delivers.ending, delivers.pieces,
      by simp [newSSEEventRewriteStream], ⟨fun none => absurd rfl none, nofun, nofun⟩⟩
  obtain ⟨result, reads, fuel, ⟨-, rest, yields, rfl⟩, run⟩ :=
    readAll_owes ht _ running (.of_fresh rfl) 0 []
  have whole : (newSSEEventRewriteStream body limit (some rewriter)).left = data := by
    simpa [left, newSSEEventRewriteStream] using delivers.bytes
  rw [whole] at yields
  exact ⟨_, reads, ⟨fuel, run⟩, yields.agrees⟩

/-- The first failure in the bytes is the LF of a blank line that ends with CR LF, which makes its
event too large. -/
abbrev FirstFailsByLineFeed (limit : Nat) (rewriter : Rewriter) (data : Bytes) :=
  FailsByLineFeed limit rewriter (events data).1

/-- A read has ended between the CR and the LF that are followed by these events. -/
def CutBeforeLineFeed (data : Bytes) (after : List Bytes) (reads : List Nat) : Prop :=
  (after.flatten ++ (events data).2).length + 1 ∈ reads

/-- How a stream ends at an event that its last LF makes too large. If a read has ended before the
LF, the callback has been called for the event without it. -/
structure EndsAtLineFeed (rewriter : Rewriter) (data : Bytes) (before : List Bytes) (event : Bytes)
    (after : List Bytes) (result : Result) (reads : List Nat) : Prop where
  late : CutBeforeLineFeed data after reads →
    result.calls = callsOf rewriter before ++ (rewriter.invocation event.dropLast).toList ∧
      result.err = lateError rewriter event
  together : ¬ CutBeforeLineFeed data after reads →
    result.calls = callsOf rewriter before ∧ result.err = .eventTooLarge

/-- For every byte sequence, limit and callback, any two deliveries lead to the same calls and the
same end, and to the same output if they end well, unless the first failure is an event that is too
large by the LF of its blank line and only one delivery has a read that ends before this LF. With
the identity the output is the input. An event is rejected as too large exactly when it is longer
than the limit, its LF included. -/
theorem framing_independent_of_reads {limit : Nat} (positive : 0 < limit)
    (bounded : limit < 2 ^ 63 - 1) (rewriter : Rewriter) {data : Bytes} {body₁ body₂ : Body}
    (delivers₁ : Delivers body₁ data) (delivers₂ : Delivers body₂ data)
    {targets₁ targets₂ : Nat → Nat} (ht₁ : ∀ k, 0 < targets₁ k) (ht₂ : ∀ k, 0 < targets₂ k) :
    ∃ r₁ r₂ reads₁ reads₂, Reads limit rewriter body₁ targets₁ r₁ reads₁ ∧
      Reads limit rewriter body₂ targets₂ r₂ reads₂ ∧
      ((∀ before event after, FirstFailsByLineFeed limit rewriter data before event after →
          (CutBeforeLineFeed data after reads₁ ↔ CutBeforeLineFeed data after reads₂)) →
        r₁.Agrees r₂) ∧
      (∀ before event after, FirstFailsByLineFeed limit rewriter data before event after →
        EndsAtLineFeed rewriter data before event after r₁ reads₁ ∧
          EndsAtLineFeed rewriter data before event after r₂ reads₂) ∧
      (rewriter.IsIdentity → r₁.err = .eof → r₁.output = data) ∧
      (rewriter.Fits limit → (r₁.err = .eventTooLarge ↔
        (∃ event ∈ (events data).1, limit < event.length) ∨ limit < (events data).2.length)) := by
  obtain ⟨r₁, cuts₁, reads₁, agrees₁⟩ := reads_agree positive bounded rewriter delivers₁ ht₁
  obtain ⟨r₂, cuts₂, reads₂, agrees₂⟩ := reads_agree positive bounded rewriter delivers₂ ht₂
  have ends {result : Result} {reads : List Nat}
      (agrees : result.Agrees (outcomeOf limit rewriter (· ∈ reads) data)) {before event after}
      (fails : FirstFailsByLineFeed limit rewriter data before event after) :
      EndsAtLineFeed rewriter data before event after result reads := by
    obtain ⟨late, together⟩ := @FailsByLineFeed.outcome limit rewriter (events data).2 event
      (events data).1 (· ∈ reads) before after fails
    constructor
    · intro cut
      rw [agrees.calls, agrees.err]
      exact late cut
    · intro whole
      rw [agrees.calls, agrees.err]
      exact together whole
  refine ⟨r₁, r₂, cuts₁, cuts₂, reads₁, reads₂, fun same => ?_,
    fun before event after fails => ⟨ends agrees₁ fails, ends agrees₂ fails⟩, ?_, ?_⟩
  · have congr : outcomeOf limit rewriter (· ∈ cuts₁) data =
        outcomeOf limit rewriter (· ∈ cuts₂) data := outcome_congr same
    exact agrees₁.trans (congr ▸ agrees₂.symm)
  · intro identity ended
    rw [agrees₁.output ended]
    rw [agrees₁.err] at ended
    exact (outcome_identity identity ended).trans (events_flatten data)
  · intro fits
    rw [agrees₁.err]
    exact outcome_tooLarge_iff fits


/-- A callback that fails. -/
def failingRewriter : Rewriter where
  isSSEErrorPayload _ := false
  rewrite _ _ := .error "refused"

/-- The event `data: a` and a blank line, with CR LF at each end: eleven bytes. -/
def elevenBytes : Bytes := dataField ++ [colon, space, 97, CR, LF, CR, LF]

theorem framing_independent_of_reads_pair :
    FirstFailsByLineFeed 10 failingRewriter elevenBytes [] elevenBytes [] ∧
    ∃ r₁ r₂ reads₁ reads₂,
      Reads 10 failingRewriter { chunks := [elevenBytes] } (fun _ => 64) r₁ reads₁ ∧
      Reads 10 failingRewriter { chunks := [elevenBytes.take 10, [LF]] } (fun _ => 1) r₂ reads₂ ∧
      ¬ CutBeforeLineFeed elevenBytes [] reads₁ ∧ CutBeforeLineFeed elevenBytes [] reads₂ ∧
      r₁.calls = [] ∧ r₁.err = .eventTooLarge ∧
      r₂.calls = [(⟨[], [97]⟩, false)] ∧ r₂.err = .payload "refused" := by
  have once : Delivers { chunks := [elevenBytes] } elevenBytes :=
    ⟨by decide +kernel, by decide +kernel, rfl⟩
  have twice : Delivers { chunks := [elevenBytes.take 10, [LF]] } elevenBytes :=
    ⟨by decide +kernel, by decide +kernel, rfl⟩
  have fails : FirstFailsByLineFeed 10 failingRewriter elevenBytes [] elevenBytes [] :=
    ⟨by decide +kernel, nofun, by decide +kernel, elevenBytes.take 9, by decide +kernel⟩
  obtain ⟨r₁, r₂, cuts₁, cuts₂, reads₁, reads₂, -, ends, -⟩ :=
    framing_independent_of_reads (by decide : 0 < 10) (by decide) failingRewriter once twice
      (fun _ => (by decide : 0 < 64)) (fun _ => (by decide : 0 < 1))
  -- The reads of the two runs, by evaluation.
  have whole : cuts₁ = [0] := reads₁.reads_eq 20 (by decide +kernel)
  have apart : cuts₂ = [1] := reads₂.reads_eq 20 (by decide +kernel)
  have together : ¬ CutBeforeLineFeed elevenBytes [] cuts₁ := by
    rw [whole]
    unfold CutBeforeLineFeed
    decide +kernel
  have late : CutBeforeLineFeed elevenBytes [] cuts₂ := by
    rw [apart]
    unfold CutBeforeLineFeed
    decide +kernel
  obtain ⟨ends₁, ends₂⟩ := ends [] elevenBytes [] fails
  obtain ⟨calls₁, err₁⟩ := ends₁.together together
  obtain ⟨calls₂, err₂⟩ := ends₂.late late
  refine ⟨fails, r₁, r₂, cuts₁, cuts₂, reads₁, reads₂, together, late, calls₁, err₁, ?_, ?_⟩
  · rw [calls₂]
    decide +kernel
  · rw [err₂]
    decide +kernel

/-- Over a limit of ten, the eleven bytes are rejected without a call when they arrive at once. When
their last LF arrives later, the callback is called, and its error ends the stream. A stream whose
limit is the largest `int` panics at its first read. -/
theorem last_line_feed_late :
    readAll (fun _ => 64) 20 0 0 []
        (newSSEEventRewriteStream { chunks := [elevenBytes] } 10 (some failingRewriter)) =
      some (⟨[], [], .eventTooLarge⟩, [0]) ∧
    readAll (fun _ => 64) 20 0 0 []
        (newSSEEventRewriteStream { chunks := [elevenBytes.take 10, [LF]] } 10
          (some failingRewriter)) =
      some (⟨[], [(⟨[], [97]⟩, false)], .payload "refused"⟩, [1]) ∧
    ∀ fuel, readAll (fun _ => 64) fuel 0 0 []
        (newSSEEventRewriteStream { chunks := [elevenBytes] } (2 ^ 63 - 1)
          (some failingRewriter)) = none := by
  refine ⟨by decide +kernel, by decide +kernel, fun fuel => ?_⟩
  cases fuel with
  | zero => rfl
  | succ fuel => rfl

end ApiLoad.StreamRewrite
