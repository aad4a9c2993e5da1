import ApiLoad.Foundation.Newline

/-!
# The boundary scanner of an event stream

An event of a server-sent event stream ends with a blank line, and a line ends with CR, LF or
CR LF. The scanner is called with the bytes that are pending, again and again as they grow, and
continues where it stopped. It reports an event as soon as the CR of its blank line has arrived;
a LF that follows in a later read is then an optional line feed, which belongs to the event.

The lemmas say what the scanner does at each kind of line end, and that its state carries over the
place where the bytes were cut.
-/
namespace ApiLoad.StreamRewrite

open Foundation Newline List

structure SseRewriteBoundaryScanner where
  scanOffset : Nat := 0
  lineHasContent : Bool := false
  skipLineFeed : Bool := false
  optionalLineFeed : Bool := false
  previousInputBytes : Nat := 0
  previousOutputBytes : Nat := 0
  deriving DecidableEq, Repr

namespace SseRewriteBoundaryScanner

/-- The state after a line end of `bytes` bytes. -/
def lineEnd (scanner : SseRewriteBoundaryScanner) (bytes : Nat) (skipLineFeed : Bool) :
    SseRewriteBoundaryScanner :=
  { scanner with
    scanOffset := scanner.scanOffset + bytes
    lineHasContent := false
    skipLineFeed := skipLineFeed }

/-- The loop of `Find` over the bytes from `scanOffset` on. -/
def findFrom (scanner : SseRewriteBoundaryScanner) :
    Bytes → Option Nat × SseRewriteBoundaryScanner
  | [] => (none, scanner)
  | value :: rest =>
    if scanner.skipLineFeed && value == LF then
      findFrom
        { scanner with skipLineFeed := false, scanOffset := scanner.scanOffset + 1 } rest
    else if value = CR then
      match rest with
      | [] =>
        if scanner.lineHasContent then (none, scanner.lineEnd 1 true)
        else (some (scanner.scanOffset + 1), scanner.lineEnd 1 true)
      | next :: rest' =>
        if next = LF then
          if scanner.lineHasContent then findFrom (scanner.lineEnd 2 false) rest'
          else (some (scanner.scanOffset + 2), scanner.lineEnd 2 false)
        else
          if scanner.lineHasContent then findFrom (scanner.lineEnd 1 true) (next :: rest')
          else (some (scanner.scanOffset + 1), scanner.lineEnd 1 true)
    else if value = LF then
      if scanner.lineHasContent then findFrom (scanner.lineEnd 1 false) rest
      else (some (scanner.scanOffset + 1), scanner.lineEnd 1 false)
    else
      findFrom
        { scanner with
          lineHasContent := true
          skipLineFeed := false
          scanOffset := scanner.scanOffset + 1 } rest

/-- Where the first event of the pending bytes ends, if it is complete. -/
def find (scanner : SseRewriteBoundaryScanner) (data : Bytes) :
    Option Nat × SseRewriteBoundaryScanner :=
  scanner.findFrom (data.drop scanner.scanOffset)

def afterEvent (scanner : SseRewriteBoundaryScanner) (inputBytes outputBytes : Nat) :
    SseRewriteBoundaryScanner where
  optionalLineFeed := scanner.skipLineFeed
  previousInputBytes := inputBytes
  previousOutputBytes := outputBytes

def clearOptionalLineFeed (scanner : SseRewriteBoundaryScanner) : SseRewriteBoundaryScanner :=
  { scanner with optionalLineFeed := false, previousInputBytes := 0, previousOutputBytes := 0 }

/-- How many bytes of the pending ones complete the previous event, and whether they make it too
large. -/
def consumeOptionalLineFeed (scanner : SseRewriteBoundaryScanner) (data : Bytes) (final : Bool)
    (maxEventBytes : Nat) : Nat × Bool × SseRewriteBoundaryScanner :=
  if !scanner.optionalLineFeed then (0, false, scanner)
  else
    match data with
    | [] => (0, false, if final then scanner.clearOptionalLineFeed else scanner)
    | value :: _ =>
      if value ≠ LF then (0, false, scanner.clearOptionalLineFeed)
      else
        (1, decide (maxEventBytes ≤ scanner.previousInputBytes) ||
            decide (maxEventBytes ≤ scanner.previousOutputBytes),
          scanner.clearOptionalLineFeed)

variable {scanner : SseRewriteBoundaryScanner} {rest terminator : Bytes}

/-- The state after a byte that does not end a line. -/
def content (scanner : SseRewriteBoundaryScanner) (bytes : Nat) : SseRewriteBoundaryScanner :=
  { scanner with
    lineHasContent := true
    skipLineFeed := false
    scanOffset := scanner.scanOffset + bytes }

/-- The LF of a pair whose CR came with the bytes before. -/
def skipped (scanner : SseRewriteBoundaryScanner) : SseRewriteBoundaryScanner :=
  { scanner with skipLineFeed := false, scanOffset := scanner.scanOffset + 1 }

theorem findFrom_skip (h : scanner.skipLineFeed = true) :
    scanner.findFrom (LF :: rest) = scanner.skipped.findFrom rest := by
  rw [findFrom.eq_def]
  simp [h, skipped]

theorem findFrom_newline (h : Terminates terminator rest)
    (hs : terminator = [LF] → scanner.skipLineFeed = false) :
    scanner.findFrom (terminator ++ rest) =
      if scanner.lineHasContent then
        (scanner.lineEnd terminator.length (terminator = [CR])).findFrom rest
      else
        (some (scanner.scanOffset + terminator.length),
          scanner.lineEnd terminator.length (terminator = [CR])) := by
  obtain ⟨rfl | rfl | rfl, apart⟩ := h
  · rw [findFrom.eq_def]
    simp [hs]
  · rw [findFrom.eq_def]
    cases rest with
    | nil => simp [findFrom]
    | cons next rest =>
      have hn : next ≠ LF := by simpa using apart
      simp [hn]
  · rw [findFrom.eq_def]
    simp

theorem findFrom_other {b : UInt8} (hc : b ≠ CR) (hl : b ≠ LF) :
    scanner.findFrom (b :: rest) = (scanner.content 1).findFrom rest := by
  rw [findFrom.eq_def]
  simp [hc, hl, content]

/-- A boundary that was found in `seen` when `more` follows: it stays, or it grows by the LF of a
pair whose CR was the last byte. -/
def Carries (scanner : SseRewriteBoundaryScanner) (seen more : Bytes) (n : Nat)
    (after : SseRewriteBoundaryScanner) : Prop :=
  scanner.findFrom (seen ++ more) = (some n, after) ∨
    after.skipLineFeed = true ∧ n = scanner.scanOffset + seen.length ∧
      (∃ start, seen = start ++ [CR]) ∧ (∃ later, more = LF :: later) ∧
      scanner.findFrom (seen ++ more) = (some (n + 1), after.skipped)

/-- Induction along a scan. A step goes on behind some bytes, whatever follows, or it reports the
boundary there; a CR that is reported without a LF has none behind it. -/
theorem scanInduction {P : SseRewriteBoundaryScanner → Bytes → Prop} (nil : ∀ scanner, P scanner [])
    (on : ∀ scanner next front rest, front ≠ [] →
      next.scanOffset = scanner.scanOffset + front.length →
      (∀ more, scanner.findFrom (front ++ rest ++ more) = next.findFrom (rest ++ more)) →
      P next rest → P scanner (front ++ rest))
    (found : ∀ scanner after front rest, front ≠ [] →
      (after.skipLineFeed = true → rest.head? ≠ some LF) →
      (∀ more, Carries scanner (front ++ rest) more (scanner.scanOffset + front.length) after) →
      P scanner (front ++ rest))
    (scanner : SseRewriteBoundaryScanner) (data : Bytes) : P scanner data := by
  induction data using newlineInduction generalizing scanner with
  | nil => exact nil scanner
  | newline terminator rest h ih =>
    by_cases hs : terminator = [LF] ∧ scanner.skipLineFeed = true
    · obtain ⟨rfl, hs⟩ := hs
      exact on _ scanner.skipped _ _ h.ne_nil rfl (fun _ => findFrom_skip hs) (ih _)
    have hs : terminator = [LF] → scanner.skipLineFeed = false := by simpa using hs
    -- A LF behind a CR at the end of the bytes belongs to it.
    have pair (later : Bytes) : scanner.findFrom (CR :: LF :: later) = _ :=
      findFrom_newline .crlf (by simp)
    cases hc : scanner.lineHasContent with
    | true =>
      refine on _ (scanner.lineEnd terminator.length (terminator = [CR])) _ _ h.ne_nil rfl
        (fun more => ?_) (ih _)
      rw [append_assoc]
      obtain h | ⟨rfl, rfl, later, rfl⟩ := h.append more
      · rw [findFrom_newline h hs, if_pos hc]
      · exact (pair later).trans (by simp [hc, findFrom_skip, lineEnd, skipped])
    | false =>
      refine found _ (scanner.lineEnd terminator.length (terminator = [CR])) _ _ h.ne_nil
        (fun cr => h.apart (by simpa [lineEnd] using cr)) fun more => ?_
      obtain h | ⟨rfl, rfl, later, rfl⟩ := h.append more
      · refine .inl ?_
        rw [append_assoc, findFrom_newline h hs, if_neg (by simp [hc])]
      · refine .inr ⟨rfl, rfl, ⟨[], rfl⟩, ⟨later, rfl⟩, ?_⟩
        exact (pair later).trans (by simp [hc, lineEnd, skipped])
  | other b rest hc hl ih =>
    exact on _ (scanner.content 1) [b] _ (by simp) rfl (fun _ => findFrom_other hc hl) (ih _)

variable {after : SseRewriteBoundaryScanner} {seen : Bytes} {n : Nat}

theorem Carries.now (h : scanner.Carries seen [] n after) :
    scanner.findFrom seen = (some n, after) := by
  obtain same | ⟨-, -, -, ⟨later, none⟩, -⟩ := h
  · rwa [append_nil] at same
  · cases none

theorem Carries.front {next : SseRewriteBoundaryScanner} {more : Bytes} (front : Bytes)
    (h : next.Carries seen more n after)
    (step : scanner.findFrom (front ++ seen ++ more) = next.findFrom (seen ++ more))
    (offset : next.scanOffset = scanner.scanOffset + front.length) :
    scanner.Carries (front ++ seen) more n after := by
  rcases h with same | ⟨hskip, hn, ⟨start, hstart⟩, hmore, found⟩
  · exact .inl (step.trans same)
  refine .inr ⟨hskip, ?_, ⟨front ++ start, by simp [hstart]⟩, hmore, step.trans found⟩
  rw [length_append]
  omega

/-- A scan that found nothing goes on with more bytes as if it had had them at once. -/
theorem findFrom_append_none (more : Bytes) (h : scanner.findFrom seen = (none, after)) :
    scanner.findFrom (seen ++ more) = after.findFrom more := by
  induction scanner, seen using scanInduction with
  | nil scanner =>
    cases h
    rfl
  | on scanner next front rest _ _ step ih =>
    rw [step]
    exact ih (by simpa [h] using (step []).symm)
  | found scanner _ front rest _ _ carries => cases (carries []).now.symm.trans h

/-- A scan that found a boundary finds it with more bytes as well. -/
theorem findFrom_append_some (more : Bytes) (h : scanner.findFrom seen = (some n, after)) :
    scanner.Carries seen more n after := by
  induction scanner, seen using scanInduction with
  | nil => cases h
  | on scanner next front rest _ offset step ih =>
    exact (ih (by simpa [h] using (step []).symm)).front front (step more) offset
  | found scanner _ front rest _ _ carries =>
    cases (carries []).now.symm.trans h
    exact carries more

end SseRewriteBoundaryScanner

end ApiLoad.StreamRewrite
