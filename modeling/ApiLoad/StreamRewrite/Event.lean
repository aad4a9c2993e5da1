import ApiLoad.Foundation.Splitting
import ApiLoad.StreamRewrite.Scanner
import Mathlib.Data.List.Basic

/-!
# Rewriting one event

The lines of an event, the payload its data lines carry, and the event that is written with another
payload: the first data line is replaced by one data line for each line of the payload, the other
data lines are left out, and every other line is written as it was, each with its own terminator.
-/
namespace ApiLoad.StreamRewrite

open Foundation Newline List

inductive StreamError where
  | eof
  | eventTooLarge
  | eventIncomplete
  | payload (cause : String)
  | read (cause : String)
  | noProgress
  | callbackRequired
  | bodyAndCallbackRequired
  deriving DecidableEq, Repr

def StreamError.text : StreamError → String
  | .eof => "EOF"
  | .eventTooLarge => "SSE event exceeds size limit"
  | .eventIncomplete => "stream ended with an incomplete SSE event"
  | .payload cause => "rewrite SSE event payload: " ++ cause
  | .read cause => "read SSE stream: " ++ cause
  | .noProgress => "multiple Read calls return no data or error"
  | .callbackRequired => "SSE rewrite callback is required"
  | .bodyAndCallbackRequired => "SSE rewrite stream body and callback are required"

structure StreamEvent where
  name : Bytes
  payload : Bytes
  deriving DecidableEq, Repr

structure SseEventRewriteResult where
  body : Bytes
  terminal : Bool
  deriving DecidableEq, Repr

/-- The callback of a stream, and the decoder that tells whether a payload is an error envelope. -/
structure Rewriter where
  isSSEErrorPayload : Bytes → Bool
  rewrite : StreamEvent → Bool → Except String SseEventRewriteResult

structure SseEventLine where
  content : Bytes
  terminator : Bytes
  deriving DecidableEq, Repr

def space : UInt8 := 32
def colon : UInt8 := 58

def dataField : Bytes := [100, 97, 116, 97]
def eventField : Bytes := [101, 118, 101, 110, 116]
def errorName : Bytes := [101, 114, 114, 111, 114]
def doneMark : Bytes := [91, 68, 79, 78, 69, 93]

/-- The field of a line and what follows its colon, without one leading space. -/
def fieldValue (line : Bytes) : Bytes × Bytes :=
  (line.takeWhile (· ≠ colon),
    match line.dropWhile (· ≠ colon) with
    | _ :: first :: value => if first = space then value else first :: value
    | _ => [])

def parseSSEDataLine (line : Bytes) : Option Bytes :=
  if line = [] ∨ line.head? = some colon then none
  else if (fieldValue line).1 = dataField then some (fieldValue line).2
  else none

def parseSSEEventName (line : Bytes) : Option Bytes :=
  if (fieldValue line).1 = eventField then some (fieldValue line).2 else none

def SseEventLine.data (line : SseEventLine) : Option Bytes := parseSSEDataLine line.content
def SseEventLine.isData (line : SseEventLine) : Bool := line.data.isSome

/-- The lines of `event` from a place where `content` is what its current line holds so far. -/
def splitFrom (content : Bytes) : Bytes → List SseEventLine
  | [] => if content = [] then [] else [⟨content, []⟩]
  | value :: rest =>
    if value = LF then ⟨content, [LF]⟩ :: splitFrom [] rest
    else if value = CR then
      match rest with
      | [] => [⟨content, [CR]⟩]
      | next :: rest' =>
        if next = LF then ⟨content, [CR, LF]⟩ :: splitFrom [] rest'
        else ⟨content, [CR]⟩ :: splitFrom [] (next :: rest')
    else splitFrom (content ++ [value]) rest

def splitSSEEventLines (event : Bytes) : List SseEventLine := splitFrom [] event

/-- The last event name among the lines, or the empty one. -/
def eventName (lines : List SseEventLine) : Bytes :=
  (lines.filterMap fun line => parseSSEEventName line.content).getLast?.getD []

def dataValues (lines : List SseEventLine) : List Bytes := lines.filterMap SseEventLine.data

/-- The payload of an event: its data lines joined by LF. -/
def payloadOf (lines : List SseEventLine) : Bytes := [LF].intercalate (dataValues lines)

/-- What the callback is called with for an event. It is not called for an event without data,
with an empty payload or with the payload `[DONE]`. -/
def Rewriter.invocation (rewriter : Rewriter) (event : Bytes) : Option (StreamEvent × Bool) :=
  let lines := splitSSEEventLines event
  let payload := payloadOf lines
  if dataValues lines = [] then none
  else if payload = [] ∨ payload = doneMark then none
  else
    some (⟨eventName lines, payload⟩,
      decide (eventName lines = errorName) || rewriter.isSSEErrorPayload payload)

/-- The data lines of a payload, each with the terminator of the line that it replaces. -/
def writeData (payload terminator : Bytes) : Bytes :=
  (payload.splitOn LF).flatMap fun part => dataField ++ [colon, space] ++ part ++ terminator

/-- The lines with another payload; `written` says whether the first data line has been passed. -/
def writeLines (payload : Bytes) (written : Bool) : List SseEventLine → Bytes
  | [] => []
  | line :: rest =>
    if line.isData then
      (if written then [] else writeData payload line.terminator) ++ writeLines payload true rest
    else line.content ++ line.terminator ++ writeLines payload written rest

def rewriteSSEEventWithMetadata (rewriter : Rewriter) (event : Bytes) :
    Except StreamError SseEventRewriteResult :=
  match rewriter.invocation event with
  | none => .ok ⟨event, false⟩
  | some (call, errorEvent) =>
    match rewriter.rewrite call errorEvent with
    | .error cause => .error (.payload cause)
    | .ok rewritten =>
      if rewritten.body = call.payload then .ok { rewritten with body := event }
      else
        .ok { rewritten with
          body := writeLines rewritten.body false (splitSSEEventLines event) }

section Lines

variable {acc rest terminator : Bytes}

theorem splitFrom_newline (h : Terminates terminator rest) :
    splitFrom acc (terminator ++ rest) = ⟨acc, terminator⟩ :: splitFrom [] rest := by
  obtain ⟨rfl | rfl | rfl, apart⟩ := h
  · rw [splitFrom.eq_def]
    simp
  · rw [splitFrom.eq_def]
    cases rest with
    | nil => simp [splitFrom]
    | cons next rest =>
      have hn : next ≠ LF := by simpa using apart
      simp [hn]
  · rw [splitFrom.eq_def]
    simp

theorem splitFrom_other (hc : b ≠ CR) (hl : b ≠ LF) :
    splitFrom acc (b :: rest) = splitFrom (acc ++ [b]) rest := by
  rw [splitFrom.eq_def]
  simp [hc, hl]

theorem splitFrom_clean (h : Clean content) :
    splitFrom acc (content ++ rest) = splitFrom (acc ++ content) rest := by
  induction content generalizing acc with
  | nil => simp
  | cons b content ih =>
    obtain ⟨⟨hc, hl⟩, clean⟩ := clean_cons.mp h
    rw [cons_append, splitFrom_other hc hl, ih clean]
    simp

/-- A line that ends, in a way that is no blank line. -/
structure Full (line : SseEventLine) : Prop where
  clean : Clean line.content
  nonempty : line.content ≠ []
  ended : line.terminator = [LF] ∨ line.terminator = [CR] ∨ line.terminator = [CR, LF]

structure Blank (line : SseEventLine) : Prop where
  empty : line.content = []
  ended : line.terminator = [LF] ∨ line.terminator = [CR] ∨ line.terminator = [CR, LF]

variable {blank line : SseEventLine} {lines : List SseEventLine}

theorem Blank.not_data (h : Blank line) : line.data = none := by
  simp [SseEventLine.data, parseSSEDataLine, h.empty]

def render (lines : List SseEventLine) : Bytes :=
  lines.flatMap fun line => line.content ++ line.terminator

theorem render_cons (line : SseEventLine) (lines : List SseEventLine) :
    render (line :: lines) = line.content ++ line.terminator ++ render lines := rfl

/-- Whether the last of the lines ends with a CR alone; without a line, `before` is the answer. -/
def endsCR (before : Bool) : List SseEventLine → Bool
  | [] => before
  | line :: rest => endsCR (line.terminator = [CR]) rest

theorem endsCR_append (before : Bool) (xs ys : List SseEventLine) :
    endsCR before (xs ++ ys) = endsCR (endsCR before xs) ys := by
  induction xs generalizing before with
  | nil => rfl
  | cons line rest ih => exact ih _

namespace SseRewriteBoundaryScanner

theorem findFrom_clean {scanner : SseRewriteBoundaryScanner} {content : Bytes}
    (h : Clean content) (hne : content ≠ []) :
    scanner.findFrom (content ++ rest) = (scanner.content content.length).findFrom rest := by
  induction content generalizing scanner with
  | nil => exact absurd rfl hne
  | cons b more ih =>
    obtain ⟨⟨hc, hl⟩, clean⟩ := clean_cons.mp h
    rw [cons_append, findFrom_other hc hl]
    by_cases hm : more = []
    · subst hm
      rfl
    · rw [ih clean hm]
      simp [content, Nat.add_assoc, Nat.add_comm 1]

theorem findFrom_full (scanner : SseRewriteBoundaryScanner) {line : SseEventLine} (h : Full line) :
    scanner.findFrom (line.content ++ line.terminator) =
      (none, scanner.lineEnd (line.content ++ line.terminator).length
        (line.terminator = [CR])) := by
  have last := @findFrom_newline (scanner.content line.content.length) [] line.terminator
    ⟨h.ended, by simp⟩ fun _ => rfl
  rw [append_nil] at last
  rw [findFrom_clean h.clean h.nonempty, last]
  simp [content, lineEnd, findFrom, Nat.add_assoc]

/-- No boundary lies among full lines. The scanner goes on behind them. -/
theorem findFrom_render (scanner : SseRewriteBoundaryScanner) (full : ∀ line ∈ lines, Full line)
    (hc : scanner.lineHasContent = false) :
    ∃ after : SseRewriteBoundaryScanner, (∀ rest, scanner.findFrom (render lines ++ rest) =
        after.findFrom rest) ∧
      after.scanOffset = scanner.scanOffset + (render lines).length ∧
      after.lineHasContent = false ∧ after.skipLineFeed = endsCR scanner.skipLineFeed lines := by
  induction lines generalizing scanner with
  | nil => exact ⟨scanner, fun _ => rfl, rfl, hc, rfl⟩
  | cons line lines ih =>
    have first := findFrom_full scanner (full line (by simp))
    obtain ⟨after, found, offset, content, skip⟩ :=
      ih (scanner.lineEnd _ _) (fun l hl => full l (by simp [hl])) rfl
    refine ⟨after, fun rest => ?_, ?_, content, skip⟩
    · rw [render_cons, append_assoc, findFrom_append_none _ first]
      exact found rest
    rw [offset, render_cons]
    simp only [lineEnd, length_append]
    omega

end SseRewriteBoundaryScanner

open SseRewriteBoundaryScanner

/-- Full lines and a blank line are an event, unless the LF of the blank line joins the CR before
it; then no blank line is left. -/
theorem find_event (full : ∀ line ∈ lines, Full line) (hb : Blank blank) :
    ((({} : SseRewriteBoundaryScanner).find (render (lines ++ [blank]))).1 =
      if endsCR false lines ∧ blank.terminator = [LF] then none
      else some (render (lines ++ [blank])).length) := by
  obtain ⟨after, found, offset, content, skip⟩ :=
    findFrom_render {} full rfl
  have whole : render (lines ++ [blank]) = render lines ++ blank.terminator := by
    simp [render, hb.empty]
  rw [find, drop_zero, whole, found]
  by_cases joined : endsCR false lines ∧ blank.terminator = [LF]
  · rw [if_pos joined, joined.2, findFrom_skip (skip.trans joined.1)]
    simp [findFrom]
  have last := @findFrom_newline after [] blank.terminator ⟨hb.ended, by simp⟩ (by grind)
  rw [append_nil] at last
  rw [if_neg joined, last]
  simp [content, offset]

theorem splitFrom_full (h : Full line) (apart : line.terminator = [CR] → rest.head? ≠ some LF) :
    splitFrom [] (line.content ++ line.terminator ++ rest) = line :: splitFrom [] rest := by
  rw [append_assoc, splitFrom_clean h.clean, nil_append, splitFrom_newline ⟨h.ended, apart⟩]

/-- The lines of an event that was put together of full lines and a blank line. -/
theorem split_render (full : ∀ line ∈ lines, Full line) (hb : Blank blank)
    (apart : ¬(endsCR false lines ∧ blank.terminator = [LF])) :
    splitSSEEventLines (render (lines ++ [blank])) = lines ++ [blank] := by
  unfold splitSSEEventLines
  generalize false = before at apart
  induction lines generalizing before with
  | nil =>
    have alone : render ([] ++ [blank]) = blank.terminator := by simp [render, hb.empty]
    rw [alone, nil_append]
    have eq : blank = ⟨[], blank.terminator⟩ := by
      rw [← hb.empty]
    rw [eq]
    rcases hb.ended with ht | ht | ht <;> rw [ht] <;> decide
  | cons line lines ih =>
    rw [cons_append, render_cons, splitFrom_full (full line (by simp)),
      ih (fun l hl => full l (by simp [hl])) _ apart]
    intro ht
    cases lines with
    | nil =>
      have notLF : blank.terminator ≠ [LF] := fun h => apart ⟨by simp [endsCR, ht], h⟩
      rcases hb.ended with hbt | hbt | hbt <;> simp_all [render, hb.empty]
    | cons next lines =>
      have hn := full next (by simp)
      obtain ⟨b, content, hcontent⟩ := exists_cons_of_ne_nil hn.nonempty
      have hlf := (clean_cons.mp (hcontent ▸ hn.clean)).1.2
      simpa [render, hcontent] using hlf

/-- The lines of a complete event: full lines, and a blank line at the end. -/
theorem lines_of_complete (scanner : SseRewriteBoundaryScanner) (acc : Bytes)
    {after : SseRewriteBoundaryScanner}
    (found : scanner.findFrom data = (some (scanner.scanOffset + data.length), after))
    (clean : Clean acc) (hacc : scanner.lineHasContent = decide (acc ≠ []))
    (apart : scanner.skipLineFeed = true → data.head? ≠ some LF) :
    ∃ lines blank, splitFrom acc data = lines ++ [blank] ∧ (∀ line ∈ lines, Full line) ∧
      Blank blank := by
  induction data using newlineInduction generalizing scanner acc with
  | nil => cases found
  | newline terminator rest h ih =>
    have hs : terminator = [LF] → scanner.skipLineFeed = false := by
      rintro rfl
      by_contra hs
      exact apart (by simpa using hs) rfl
    rw [findFrom_newline h hs, hacc] at found
    rw [splitFrom_newline h]
    by_cases ha : acc = []
    · simp only [ha, ne_eq, not_true, decide_false, length_append] at found
      cases rest with
      | nil => exact ⟨[], ⟨acc, terminator⟩, by simp [splitFrom], by simp, ha, h.ended⟩
      | cons b rest => simp at found
    simp only [ha, ne_eq, not_false_eq_true, decide_true, if_true, length_append] at found
    obtain ⟨lines, blank, heq, full, hb⟩ := ih (scanner.lineEnd _ (terminator = [CR])) []
      (by rw [found, lineEnd, Nat.add_assoc]) clean_nil rfl
      (fun cr => h.apart (by simpa [lineEnd] using cr))
    refine ⟨⟨acc, terminator⟩ :: lines, blank, by rw [heq]; rfl, ?_, hb⟩
    exact forall_mem_cons.mpr ⟨⟨clean, ha, h.ended⟩, full⟩
  | other b rest hc hl ih =>
    rw [findFrom_other hc hl] at found
    rw [splitFrom_other hc hl]
    refine ih (scanner.content 1) (acc ++ [b]) (by rw [found]; simp [content]; omega) ?_
      (by simp [content]) (by simp [content])
    exact clean_append.mpr ⟨clean, clean_cons.mpr ⟨⟨hc, hl⟩, clean_nil⟩⟩

end Lines

end ApiLoad.StreamRewrite
