import Mathlib.Algebra.Group.Int.Defs
import Mathlib.Algebra.Group.Nat.Defs
import ApiLoad.StreamRewrite.OneEvent

/-!
# The rewriting stream

`sseRewriteStream.Read` as a loop: one pass of the loop either returns or goes on. The body is read
in pieces of its own choice. A consumer calls `Read` with buffers of its own choice until it returns
an error. The stream records the calls of the callback and what the body still had after each read.
-/
namespace ApiLoad.StreamRewrite

open Foundation Newline

def streamReadBufferSize : Nat := 32 * 1024

/-- How a body ends. -/
inductive ReadEnd where
  | eof
  | failed (cause : String)
  deriving DecidableEq, Repr

/-- A body: the pieces in which its bytes are delivered, and its end, which may come with the last
of them. -/
structure Body where
  chunks : List Bytes
  ending : ReadEnd := .eof
  endsWithData : Bool := false

/-- A read of at most `limit` bytes. What a piece has beyond the limit stays for the next read. -/
def Body.read (body : Body) (limit : Nat) : Bytes × Option ReadEnd × Body :=
  match body.chunks with
  | [] => ([], some body.ending, body)
  | chunk :: chunks =>
    if limit < chunk.length then
      (chunk.take limit, none, { body with chunks := chunk.drop limit :: chunks })
    else
      (chunk, if chunks = [] ∧ body.endsWithData then some body.ending else none,
        { body with chunks := chunks })

structure SseRewriteStream where
  body : Body
  rewrite : Option Rewriter
  maxEventBytes : Nat
  pending : Bytes := []
  output : Bytes := []
  scanner : SseRewriteBoundaryScanner := {}
  deferredErr : Option ReadEnd := none
  readEndedTerminal : Bool := false
  outputEndsEvent : Bool := false
  outputEndsTerminal : Bool := false
  finished : Bool := false
  /-- The calls of the callback so far. -/
  calls : List (StreamEvent × Bool) := []
  /-- How many bytes the body still had after each of the reads so far. -/
  reads : List Nat := []

def maxSSEEventBytes : Nat := 10 * 1024 * 1024

def normalizedSSEEventLimit (limit : Int) : Nat :=
  if 0 < limit then limit.toNat else maxSSEEventBytes

def newSSEEventRewriteStream (body : Body) (maxEventBytes : Int) (rewrite : Option Rewriter) :
    SseRewriteStream where
  body := body
  rewrite := rewrite
  maxEventBytes := normalizedSSEEventLimit maxEventBytes

/-- What one pass of the loop of `Read` comes to. -/
inductive Pass where
  | again (stream : SseRewriteStream) (zeroReads : Nat)
  | returned (stream : SseRewriteStream) (read : Bytes) (err : Option StreamError)
  | panicked

namespace SseRewriteStream

/-- `finishLocked`. -/
def finish (stream : SseRewriteStream) : SseRewriteStream :=
  { stream with
    pending := []
    output := []
    readEndedTerminal := false
    outputEndsEvent := false
    outputEndsTerminal := false
    deferredErr := none
    finished := true
    scanner := {} }

def fail (stream : SseRewriteStream) (err : StreamError) : Pass :=
  .returned stream.finish [] (some err)

/-- Copy what fits of the output. -/
def copyOutput (stream : SseRewriteStream) (target : Nat) : Pass :=
  let rest := stream.output.drop target
  let stream' :=
    if rest = [] then
      { stream with
        output := []
        readEndedTerminal := stream.readEndedTerminal ||
          (stream.outputEndsEvent && stream.outputEndsTerminal)
        outputEndsEvent := false
        outputEndsTerminal := false }
    else { stream with output := rest }
  .returned stream' (stream.output.take target) none

/-- A complete event: rewrite it, unless it or what it becomes is too large. -/
def takeEvent (stream : SseRewriteStream) (eventEnd zeroReads : Nat) : Pass :=
  if stream.maxEventBytes < eventEnd then stream.fail .eventTooLarge
  else
    let event := stream.pending.take eventEnd
    let stream := { stream with pending := stream.pending.drop eventEnd }
    match stream.rewrite with
    | none => stream.fail .callbackRequired
    | some rewriter =>
      let stream := { stream with calls := stream.calls ++ (rewriter.invocation event).toList }
      match rewriteSSEEventWithMetadata rewriter event with
      | .error err => stream.fail err
      | .ok rewritten =>
        if stream.maxEventBytes < rewritten.body.length then stream.fail .eventTooLarge
        else
          .again
            { stream with
              scanner := stream.scanner.afterEvent eventEnd rewritten.body.length
              output := rewritten.body
              outputEndsEvent := true
              outputEndsTerminal := rewritten.terminal } zeroReads

/-- The end of the body, when no complete event is left. -/
def endOf (stream : SseRewriteStream) : ReadEnd → StreamError
  | .eof => if stream.pending = [] then .eof else .eventIncomplete
  | .failed cause => .read cause

/-- How many bytes the next read may have; the sum of `int`s may overflow. -/
def readLimit (stream : SseRewriteStream) : Int :=
  min streamReadBufferSize
    ((stream.maxEventBytes + 1 - stream.pending.length : Int).bmod (2 ^ 64))

/-- Read more of the body. A slice of a negative length panics. -/
def fill (stream : SseRewriteStream) (zeroReads : Nat) : Pass :=
  if stream.readLimit < 0 then .panicked
  else
    let (chunk, err, body) := stream.body.read stream.readLimit.toNat
    let zeroReads := if chunk ≠ [] then 0 else if err = none then zeroReads + 1 else zeroReads
    let stream :=
      { stream with
        body := body
        pending := stream.pending ++ chunk
        deferredErr := if err.isSome then err else stream.deferredErr
        reads := stream.reads ++ [body.chunks.flatten.length] }
    if 100 ≤ zeroReads then stream.fail .noProgress else .again stream zeroReads

/-- No complete event is pending. -/
def starve (stream : SseRewriteStream) (zeroReads : Nat) : Pass :=
  if stream.maxEventBytes < stream.pending.length then stream.fail .eventTooLarge
  else
    match stream.deferredErr with
    | some err => stream.fail (stream.endOf err)
    | none =>
      if stream.rewrite.isNone then stream.fail .bodyAndCallbackRequired
      else stream.fill zeroReads

/-- Look for a complete event among the pending bytes. -/
def scan (stream : SseRewriteStream) (zeroReads : Nat) : Pass :=
  match stream.scanner.find stream.pending with
  | (some eventEnd, scanner) => { stream with scanner := scanner }.takeEvent eventEnd zeroReads
  | (none, scanner) => { stream with scanner := scanner }.starve zeroReads

/-- One pass of the loop of `Read`. -/
def pass (stream : SseRewriteStream) (target zeroReads : Nat) : Pass :=
  if stream.finished then .returned stream [] (some .eof)
  else if stream.output ≠ [] then stream.copyOutput target
  else
    match stream.scanner.consumeOptionalLineFeed stream.pending stream.deferredErr.isSome
        stream.maxEventBytes with
    | (_, true, _) => stream.fail .eventTooLarge
    | (optionalLF + 1, false, scanner) =>
      .again
        { stream with
          scanner := scanner
          pending := stream.pending.drop (optionalLF + 1)
          output := [LF]
          outputEndsEvent := false
          outputEndsTerminal := false } zeroReads
    | (0, false, scanner) => { stream with scanner := scanner }.scan zeroReads

/-- What a consumer has at the end: the bytes it read, the error that ended them, and the calls of
the callback. -/
structure Result where
  output : Bytes
  calls : List (StreamEvent × Bool)
  err : StreamError
  deriving DecidableEq, Repr

/-- A consumer that calls `Read` with buffers of the sizes `targets` until it returns an error. Each
unit of fuel is one pass of the loop; `calls` counts the calls so far, and `read` is what they
returned. The result comes with the reads of the body; there is none after a panic. -/
def readAll (targets : Nat → Nat) :
    Nat → Nat → Nat → Bytes → SseRewriteStream → Option (Result × List Nat)
  | 0, _, _, _, _ => none
  | fuel + 1, calls, zeroReads, read, stream =>
    match stream.pass (targets calls) zeroReads with
    | .again stream zeroReads => readAll targets fuel calls zeroReads read stream
    | .returned stream more none =>
      readAll targets fuel (calls + 1) 0 (read ++ more) { stream with readEndedTerminal := false }
    | .returned stream more (some err) => some (⟨read ++ more, stream.calls, err⟩, stream.reads)
    | .panicked => none

end SseRewriteStream

end ApiLoad.StreamRewrite
