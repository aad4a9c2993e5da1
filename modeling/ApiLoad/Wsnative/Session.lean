import ApiLoad.Foundation.Transition
import ApiLoad.Wsnative.Frame

/-!
# Sessions

A session of `internal/execution/wsnative/session.go` as a system of steps. The parties are the
goroutine of `readLoop`, the calls of `ExecuteTurn` with the contexts that may end them, and the
callers of `Close`. A step is what happens between two points at which another party could come in:
a critical section, an operation on a channel, or a call that waits for the outside. A frame is
handed over only while both sides wait, and neither waits once `done` is closed.

The fields marked as history are not in the source. They record what the parties have done.
-/
namespace ApiLoad.Wsnative
open Std (ExtTreeMap)
open Execution

abbrev TurnID := Nat

inductive Actor where
  | reader
  | turn (t : TurnID)
  | context (t : TurnID)
  | closer (k : Nat)
deriving DecidableEq, Repr

/-- How far the function inside `once.Do` has come. -/
inductive Stage where
  | claimed | recorded | closed
deriving DecidableEq, Repr

inductive Once where
  | idle
  | running (actor : Actor) (stage : Stage)
  | finished
deriving DecidableEq, Repr

/-! ## The reader -/

inductive ReaderState where
  | reading
  /-- A frame has been read; its lane is about to be looked up. -/
  | parsed (lane : String) (f : Frame)
  | offering (t : TurnID) (f : Frame)
  /-- The frame is handed over; the flag says whether its channel `done` is closed. -/
  | awaiting (t : TurnID) (acknowledged : Bool)
  | failing (evidence : ErrorEvidence)
  | ended
deriving DecidableEq

/-- A frame whose lane was looked up, and the turn that was found. -/
structure Lookup where
  lane : String
  frame : Frame
  slot : Option TurnID
deriving DecidableEq

/-! ## Turns -/

inductive TurnState where
  | called
  | registered
  /-- Waiting for the right to write. -/
  | acquiring
  | holding
  | sending
  | failing (evidence : ErrorEvidence)
  /-- At the `select` of the loop. -/
  | waiting
  | checking (f : Frame)
  | emitting (f : Frame)
  /-- The terminal frame has been emitted. -/
  | completed (f : Frame)
  | closing (f : Frame)
  /-- The deferred calls of a turn without a terminal frame. -/
  | leaving
  | unregistering
  /-- The deferred calls of a turn that has unregistered already. -/
  | stopping
  | returned
deriving DecidableEq

/-- The function that `context.AfterFunc` runs. -/
inductive Alarm where
  | unset
  | armed
  | firing (evidence : ErrorEvidence)
  | finished
deriving DecidableEq

inductive EmitOutcome where
  | running | succeeded | failed
deriving DecidableEq, Repr

structure Result where
  dispatchState : DispatchState := .notSent
  header : Header := []
  error : Option ErrorEvidence := none
deriving DecidableEq

structure Turn where
  lane : String
  state : TurnState
  responseID : String := ""
  result : Result := {}
  context : Option ContextError := none
  alarm : Alarm := .unset
  slotClosed : Bool := false
  /-- History: how many frames had been looked up, and how many messages read, when the turn
  registered. -/
  start : Option Nat := none
  readBefore : Nat := 0
  /-- History: the frames that were handed over, and those passed to `emit`. -/
  received : List Frame := []
  emits : List (Frame × EmitOutcome) := []
  /-- History: the terminal frame, once `emit` has returned for it. -/
  final : Option Frame := none
  /-- History: the turn has failed the session itself. -/
  faulted : Bool := false
  /-- History: the turn has left before sending because its context had ended. -/
  abandoned : Bool := false
deriving DecidableEq

/-- The turn gives up with an error; the deferred calls follow. -/
def Turn.leave (T : Turn) (error : Option ErrorEvidence) : Turn :=
  { T with state := .leaving, result := { T.result with error } }

/-- A turn that leaves before it has sent anything because its context has ended. -/
def Turn.abandon (T : Turn) (c : ContextError) : Turn :=
  { T.leave (some (contextFailure c)) with abandoned := true }

/-- A turn that fails the session. -/
def Turn.fault (T : Turn) (evidence : ErrorEvidence) : Turn :=
  { T with state := .failing evidence, faulted := true }

inductive CloserState where
  | failing | returned
deriving DecidableEq, Repr

/-! ## The session -/

structure Session where
  reader : ReaderState := .reading
  turns : ExtTreeMap String TurnID := ∅
  calls : ExtTreeMap TurnID Turn := ∅
  closers : ExtTreeMap Nat CloserState := ∅
  writing : Option TurnID := none
  header : Header
  failure : Option ErrorEvidence := none
  connClosed : Bool := false
  closeErr : Option String := none
  done : Bool := false
  once : Once := .idle
  /-- History: the messages that were read, and the frames that were looked up. -/
  reads : List Message := []
  looked : List Lookup := []
  /-- History: who has failed the session. -/
  cause : Option Actor := none

inductive SendOutcome where
  | sent | writeFailed | deadlineFailed
deriving DecidableEq, Repr

inductive Action where
  | read (m : Message)
  | readError
  | lookUp
  | slotClosed
  | readerDone
  | proceed
  | call (t : TurnID) (request : Request)
  | register (t : TurnID)
  | checkContext (t : TurnID)
  | acquire (t : TurnID)
  | acquireCanceled (t : TurnID)
  | acquireDone (t : TurnID)
  | begin (t : TurnID)
  | send (t : TurnID) (outcome : SendOutcome)
  | handOver (t : TurnID)
  | observeDone (t : TurnID)
  | check (t : TurnID)
  | emitReturn (t : TurnID) (ok : Bool)
  | unregister (t : TurnID)
  | acknowledge (t : TurnID)
  | stop (t : TurnID)
  | cancel (t : TurnID) (reason : ContextError)
  | fire (t : TurnID)
  | close (k : Nat)
  | claim (actor : Actor)
  | record
  | closeConn (err : Bool)
  | finish
  | resume (actor : Actor)

namespace Session

def put (s : Session) (t : TurnID) (T : Turn) : Session := { s with calls := s.calls.insert t T }

/-- `close(item.done)`. -/
def acknowledged (s : Session) (t : TurnID) : Session :=
  if s.reader = .awaiting t false then { s with reader := .awaiting t true } else s

def unregistered (s : Session) (t : TurnID) (T : Turn) (next : TurnState) : Session :=
  if s.turns[T.lane]? = some t then
    { s with turns := s.turns.erase T.lane }.put t { T with state := next, slotClosed := true }
  else s.put t { T with state := next }

/-- What a party that is inside `fail` has called it with. -/
def failingWith (s : Session) : Actor → Option ErrorEvidence
  | .reader => match s.reader with
    | .failing e => some e
    | _ => none
  | .turn t => s.calls[t]?.bind fun T => match T.state with
    | .failing e => some e
    | _ => none
  | .context t => s.calls[t]?.bind fun T => match T.alarm with
    | .firing e => some e
    | _ => none
  | .closer k => if s.closers[k]? = some .failing then
      some (Wsnative.failure .canceled "websocket_closed" 0) else none

def resumed (s : Session) : Actor → Session
  | .reader => { s with reader := .ended }
  | .turn t => match s.calls[t]? with
    | some T => s.put t { T with state := .waiting }
    | none => s
  | .context t => match s.calls[t]? with
    | some T => s.put t { T with alarm := .finished }
    | none => s
  | .closer k => { s with closers := s.closers.insert k .returned }

/-! ## Steps of the reader -/

def readStep (s : Session) (m : Message) : Option Session :=
  if s.reader = .reading then
    some { s with
      reads := s.reads ++ [m]
      reader := match route m with
        | .error e => .failing e
        | .ok (lane, f) => .parsed lane f }
  else none

def lookUpStep (s : Session) : Option Session :=
  match s.reader with
  | .parsed lane f =>
    let slot := s.turns[lane]?
    some { s with
      looked := s.looked ++ [⟨lane, f, slot⟩]
      reader := match slot with
        | some t => if f.reachesLimit then .failing (unmatchedFailure f) else .offering t f
        | none => .failing (unmatchedFailure f) }
  | _ => none

def slotClosedStep (s : Session) : Option Session :=
  match s.reader with
  | .offering t _ =>
    if s.calls[t]?.any (·.slotClosed) then
      some { s with reader := .failing (protocolFailure "unmatched_websocket_event") }
    else none
  | _ => none

def readerDoneStep (s : Session) : Option Session :=
  if s.done then
    match s.reader with
    | .offering .. | .awaiting .. => some { s with reader := .ended }
    | _ => none
  else none

/-! ## Steps of a turn -/

def callStep (s : Session) (t : TurnID) (request : Request) : Option Session :=
  if s.calls[t]? = none then
    some (s.put t (match requestLane request with
      | .error e => { lane := "", state := .returned, result := { error := some e } }
      | .ok lane => { lane, state := .called }))
  else none

def registerStep (s : Session) (t : TurnID) (T : Turn) : Option Session :=
  if T.state = .called then
    match s.failure with
    | some e =>
      some (s.put t { T with state := .returned, result := { T.result with error := some e } })
    | none =>
      if s.turns[T.lane]? ≠ none then
        some (s.put t { T with
          state := .returned
          result := { T.result with
            error := some (Wsnative.failure .invalidRequest "websocket_stream_busy" 0) } })
      else
        some ({ s with turns := s.turns.insert T.lane t, header := [] }.put t { T with
          state := .registered
          result := { T.result with header := s.header }
          start := some s.looked.length
          readBefore := s.reads.length })
  else none

def checkContextStep (s : Session) (t : TurnID) (T : Turn) : Option Session :=
  if T.state = .registered then
    some (s.put t (match T.context with
      | some c => T.abandon c
      | none => { T with state := .acquiring }))
  else none

def acquireStep (s : Session) (t : TurnID) (T : Turn) : Option Session :=
  if T.state = .acquiring ∧ s.writing = none then
    some ({ s with writing := some t }.put t { T with state := .holding })
  else none

def acquireCanceledStep (s : Session) (t : TurnID) (T : Turn) : Option Session :=
  match T.context with
  | some c => if T.state = .acquiring then some (s.put t (T.abandon c)) else none
  | none => none

def acquireDoneStep (s : Session) (t : TurnID) (T : Turn) : Option Session :=
  if T.state = .acquiring ∧ s.done then
    some (s.put t (T.leave (some (Wsnative.failure .transport "websocket_disconnected" 0))))
  else none

def beginStep (s : Session) (t : TurnID) (T : Turn) : Option Session :=
  if T.state = .holding then
    match T.context with
    | some c => some ({ s with writing := none }.put t (T.abandon c))
    | none => some (s.put t { T with state := .sending, alarm := .armed })
  else none

def sendStep (s : Session) (t : TurnID) (T : Turn) (outcome : SendOutcome) : Option Session :=
  if T.state = .sending then
    let T := if outcome = SendOutcome.deadlineFailed then T
      else { T with result := { T.result with dispatchState := .maybeSent } }
    some ({ s with writing := none }.put t (
      if outcome = SendOutcome.sent then { T with state := .waiting }
      else T.fault (Wsnative.failure .transport "websocket_send_failed" 0)))
  else none

def handOverStep (s : Session) (t : TurnID) (T : Turn) : Option Session :=
  match s.reader with
  | .offering t' f =>
    if t' = t ∧ T.state = .waiting ∧ s.done = false then
      some ({ s with reader := .awaiting t false }.put t
        { T with state := .checking f, received := T.received ++ [f] })
    else none
  | _ => none

def observeDoneStep (s : Session) (t : TurnID) (T : Turn) : Option Session :=
  if T.state = .waiting ∧ s.done then some (s.put t (T.leave s.failure)) else none

def checkStep (s : Session) (t : TurnID) (T : Turn) : Option Session :=
  match T.state with
  | .checking f =>
    match inspectFrame T.responseID f with
    | .error e => some ((s.acknowledged t).put t (T.fault e))
    | .ok responseID =>
      some (s.put t
        { T with state := .emitting f, responseID, emits := T.emits ++ [(f, .running)] })
  | _ => none

def emitReturnStep (s : Session) (t : TurnID) (T : Turn) (ok : Bool) : Option Session :=
  match T.state with
  | .emitting f =>
    let outcome : EmitOutcome := if ok then .succeeded else .failed
    let T := { T with emits := T.emits.dropLast ++ [(f, outcome)] }
    if !ok then
      some ((s.acknowledged t).put t
        (T.fault (Wsnative.failure .canceled "websocket_consumer_failed" 0)))
    else if f.terminal then
      some (s.put t { T with
        state := .completed f
        result := { T.result with error := terminalError T.responseID f }
        final := some f })
    else some ((s.acknowledged t).put t { T with state := .waiting })
  | _ => none

def unregisterStep (s : Session) (t : TurnID) (T : Turn) : Option Session :=
  match T.state with
  | .completed f => some (s.unregistered t T (.closing f))
  | .unregistering => some (s.unregistered t T .returned)
  | _ => none

def acknowledgeStep (s : Session) (t : TurnID) (T : Turn) : Option Session :=
  match T.state with
  | .closing _ => some ((s.acknowledged t).put t { T with state := .stopping })
  | _ => none

def stopStep (s : Session) (t : TurnID) (T : Turn) : Option Session :=
  let T := if T.alarm = .armed then { T with alarm := .unset } else T
  match T.state with
  | .leaving => some (s.put t { T with state := .unregistering })
  | .stopping => some (s.put t { T with state := .returned })
  | _ => none

def cancelStep (s : Session) (t : TurnID) (T : Turn) (reason : ContextError) : Option Session :=
  if T.context = none then some (s.put t { T with context := some reason }) else none

def fireStep (s : Session) (t : TurnID) (T : Turn) : Option Session :=
  match T.context with
  | some c =>
    if T.alarm = .armed then some (s.put t { T with alarm := .firing (contextFailure c) }) else none
  | none => none

/-! ## Steps of `fail` -/

def claimStep (s : Session) (actor : Actor) : Option Session :=
  if s.once = .idle ∧ (s.failingWith actor).isSome then
    some { s with once := .running actor .claimed, cause := some actor }
  else none

def recordStep (s : Session) : Option Session :=
  match s.once with
  | .running actor .claimed =>
    some { s with once := .running actor .recorded, failure := s.failingWith actor }
  | _ => none

def closeConnStep (s : Session) (err : Bool) : Option Session :=
  match s.once with
  | .running actor .recorded =>
    some { s with
      once := .running actor .closed
      connClosed := true
      closeErr := if err then some "close upstream websocket" else s.closeErr }
  | _ => none

def finishStep (s : Session) : Option Session :=
  match s.once with
  | .running _ .closed => some { s with once := .finished, done := true }
  | _ => none

def resumeStep (s : Session) (actor : Actor) : Option Session :=
  if s.once = .finished ∧ (s.failingWith actor).isSome then some (s.resumed actor) else none

/-- The step of a turn, if the turn exists. -/
def ofTurn (s : Session) (t : TurnID) (step : Session → TurnID → Turn → Option Session) :
    Option Session := s.calls[t]?.bind (step s t)

def step : Action → Session → Option Session
  | .read m, s => s.readStep m
  | .readError, s =>
    if s.reader = .reading then
      some { s with reader := .failing (Wsnative.failure .transport "websocket_disconnected" 0) }
    else none
  | .lookUp, s => s.lookUpStep
  | .slotClosed, s => s.slotClosedStep
  | .readerDone, s => s.readerDoneStep
  | .proceed, s => match s.reader with
    | .awaiting _ true => some { s with reader := .reading }
    | _ => none
  | .call t request, s => s.callStep t request
  | .register t, s => s.ofTurn t registerStep
  | .checkContext t, s => s.ofTurn t checkContextStep
  | .acquire t, s => s.ofTurn t acquireStep
  | .acquireCanceled t, s => s.ofTurn t acquireCanceledStep
  | .acquireDone t, s => s.ofTurn t acquireDoneStep
  | .begin t, s => s.ofTurn t beginStep
  | .send t outcome, s => s.ofTurn t fun s t T => s.sendStep t T outcome
  | .handOver t, s => s.ofTurn t handOverStep
  | .observeDone t, s => s.ofTurn t observeDoneStep
  | .check t, s => s.ofTurn t checkStep
  | .emitReturn t ok, s => s.ofTurn t fun s t T => s.emitReturnStep t T ok
  | .unregister t, s => s.ofTurn t unregisterStep
  | .acknowledge t, s => s.ofTurn t acknowledgeStep
  | .stop t, s => s.ofTurn t stopStep
  | .cancel t reason, s => s.ofTurn t fun s t T => s.cancelStep t T reason
  | .fire t, s => s.ofTurn t fireStep
  | .close k, s =>
    if s.closers[k]? = none then some { s with closers := s.closers.insert k .failing } else none
  | .claim actor, s => s.claimStep actor
  | .record, s => s.recordStep
  | .closeConn err, s => s.closeConnStep err
  | .finish, s => s.finishStep
  | .resume actor, s => s.resumeStep actor

end Session

/-- The session that `Dial` returns with the header of the handshake. -/
def newSession (header : Header) : Session := { header }

abbrev Session.Reachable (header : Header) : Session → Prop :=
  Foundation.Transition.Reachable Session.step (newSession header)

end ApiLoad.Wsnative
