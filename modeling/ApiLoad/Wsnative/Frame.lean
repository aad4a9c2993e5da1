import ApiLoad.Execution.Evidence

/-!
# Frames of an upstream WebSocket

The events that an upstream sends over a native Responses WebSocket, and what
`internal/execution/wsnative/session.go` reads off them: the lane of a frame, whether it belongs to
the response of a turn, whether it ends the turn and with which result. JSON is decoded beforehand;
a field that the source keeps as raw JSON is `none` when it is absent and `some none` when it is not
a string.
-/
namespace ApiLoad.Wsnative
open Execution

def MaxMessageBytes : Nat := 10 * 2 ^ 20

structure Response where
  id : String := ""
  object : String := ""
  status : String := ""
  errorCode : String := ""
deriving DecidableEq, Repr

structure Envelope where
  type : String
  streamID : Option (Option String) := none
  responseID : String := ""
  status : Int := 0
  response : Response := {}
  errorCode : String := ""
deriving DecidableEq, Repr

/-- A message as it is read; a body that is not UTF-8 or does not decode has no envelope. -/
structure Message where
  text : Bool := true
  body : String
  envelope : Option Envelope
deriving DecidableEq, Repr

/-- A message that has passed the checks of `readLoop`. -/
structure Frame where
  body : String
  envelope : Envelope
deriving DecidableEq, Repr

/-! ## Failures -/

def failure (kind : ErrorKind) (code : String) (status : Int) : ErrorEvidence where
  kind := kind
  code := code
  statusCode := status
  originHint := .upstream
  scopeHint := .request
  summary := "WebSocket upstream request failed."
  replaySafety := .unknown

def protocolFailure (code : String) : ErrorEvidence :=
  { failure .provider "upstream_protocol_error" 0 with
    summary := "Invalid upstream WebSocket event: " ++ code ++ "." }

inductive ContextError where
  | canceled | deadlineExceeded
deriving DecidableEq, Repr

def contextFailure : ContextError → ErrorEvidence
  | .canceled => { failure .canceled "websocket_canceled" 0 with originHint := .downstream }
  | .deadlineExceeded => { failure .timeout "websocket_timeout" 0 with originHint := .upstream }

def safeCharacter (c : Char) : Bool :=
  ('a' ≤ c && c ≤ 'z') || ('A' ≤ c && c ≤ 'Z') || ('0' ≤ c && c ≤ '9') || c = '_' || c = '-' ||
    c = '.'

def safeCode (value : String) : String :=
  if 256 < value.utf8ByteSize || !value.toList.all safeCharacter then "" else value

/-! ## Reading -/

/-- The checks of `readLoop` on a message: its lane and the frame. -/
def route (m : Message) : Except ErrorEvidence (String × Frame) :=
  match m.text, m.envelope with
  | true, some e =>
    if e.type = "" then .error (protocolFailure "invalid_websocket_event")
    else match e.streamID with
      | none => .ok ("", ⟨m.body, e⟩)
      | some none => .error (protocolFailure "invalid_websocket_stream")
      | some (some lane) =>
        if lane = "" ∨ safeCode lane = "" then .error (protocolFailure "invalid_websocket_stream")
        else .ok (lane, ⟨m.body, e⟩)
  | _, _ => .error (protocolFailure "invalid_websocket_event")

/-- The upstream takes no more requests on this connection. -/
def Frame.reachesLimit (f : Frame) : Bool :=
  f.envelope.errorCode = "websocket_connection_limit_reached"

/-- The failure of a session that a frame ends in `readLoop`. -/
def unmatchedFailure (f : Frame) : ErrorEvidence :=
  let code := safeCode f.envelope.errorCode
  failure .provider (if code = "" then "upstream_protocol_error" else code) f.envelope.status

/-! ## Requests -/

/-- The JSON object of a request: its stream, and its size with the type of the event set. -/
structure RequestObject where
  streamID : Option (Option String) := none
  encodedSize : Nat := 0
deriving DecidableEq, Repr

/-- The payload of a turn; one that is not UTF-8 or no JSON object has none. -/
structure Request where
  size : Nat := 0
  object : Option RequestObject
deriving DecidableEq, Repr

/-- The checks of `ExecuteTurn` on its payload, and the lane of the turn. -/
def requestLane (request : Request) : Except ErrorEvidence String := do
  let invalid := failure .invalidRequest "invalid_websocket_request" 0
  let invalidStream := failure .invalidRequest "invalid_stream_id" 0
  if MaxMessageBytes < request.size then throw invalid
  let some object := request.object | throw invalid
  let lane ← match object.streamID with
    | none => pure ""
    | some none => throw invalidStream
    | some (some lane) =>
      if lane = "" ∨ 256 < lane.utf8ByteSize ∨ safeCode lane = "" then throw invalidStream
      else pure lane
  if MaxMessageBytes < object.encodedSize then
    throw (failure .invalidRequest "websocket_request_too_large" 0)
  return lane

/-! ## The frames of a turn -/

def Envelope.id (e : Envelope) : String :=
  if e.response.id = "" then e.responseID else e.response.id

def Envelope.completes (e : Envelope) : Bool :=
  e.type = "response.completed" || (e.type = "response.done" && e.response.status = "completed")

/-- The checks of `ExecuteTurn` on a frame: the ID of the response that the turn has seen by
then. -/
def inspectFrame (responseID : String) (f : Frame) : Except ErrorEvidence String :=
  let e := f.envelope
  if (e.id ≠ "" ∧ responseID ≠ "" ∧ e.id ≠ responseID) ∨
      (e.response.id ≠ "" ∧ e.responseID ≠ "" ∧ e.response.id ≠ e.responseID) then
    .error (protocolFailure "websocket_response_mismatch")
  else if e.completes ∧ (e.response.id = "" ∨ e.response.object ≠ "response" ∨
      (e.response.status ≠ "" ∧ e.response.status ≠ "completed")) then
    .error (protocolFailure "invalid_websocket_terminal")
  else .ok (if e.id = "" then responseID else e.id)

def Frame.terminal (f : Frame) : Bool :=
  ["response.completed", "response.done", "response.failed", "response.incomplete",
    "error"].contains
    f.envelope.type

/-- The error of a turn that ends with a terminal frame. -/
def terminalError (responseID : String) (f : Frame) : Option ErrorEvidence :=
  let e := f.envelope
  if e.completes then
    if responseID = "" then some (protocolFailure "missing_response_id") else none
  else
    let code := if safeCode e.errorCode = "" then safeCode e.response.errorCode
      else safeCode e.errorCode
    some { failure .provider (if code = "" then "upstream_response_failed" else code) e.status with
      replaySafety :=
        if e.type = "error" ∨ e.type = "response.failed" ∨
            (e.type = "response.done" ∧ e.response.status = "failed") then .unset
        else .unknown
      scopeHint := .unset }

end ApiLoad.Wsnative
