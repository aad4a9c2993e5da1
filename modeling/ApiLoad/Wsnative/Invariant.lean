import ApiLoad.Wsnative.Shutdown

/-!
# The turns of a session

What holds of every turn in every interleaving. A turn is described by its own record and by the few
things it shares with the other parties: the reader, the registered turns, whether the session has
ended, and who has ended it.
-/
namespace ApiLoad.Wsnative
open Std (ExtTreeMap)
open Foundation Execution

namespace TurnState

def isRegistered : TurnState → Bool
  | .called | .closing _ | .stopping | .returned => false
  | _ => true

/-- The states before the loop of a turn. -/
def early : TurnState → Bool
  | .called | .registered | .acquiring | .holding | .sending => true
  | _ => false

/-- The frame whose channel `done` the turn has yet to close. -/
def item : TurnState → Option Frame
  | .checking f | .emitting f | .completed f | .closing f => some f
  | _ => none

def concluded : TurnState → Bool
  | .completed _ | .closing _ | .stopping | .returned => true
  | _ => false

/-- The states after the loop has been left without a terminal frame. -/
def left : TurnState → Bool
  | .leaving | .unregistering | .returned => true
  | _ => false

end TurnState

/-- The frame that the reader offers to a turn. -/
def ReaderState.pending (r : ReaderState) (t : TurnID) : List Frame :=
  match r with
  | .offering t' f => if t' = t then [f] else []
  | _ => []

theorem ReaderState.mem_pending {r : ReaderState} {t : TurnID} {f : Frame} :
    f ∈ r.pending t ↔ r = .offering t f := by
  cases r <;> grind [pending]

/-- What a turn shares with the other parties. -/
structure View where
  reader : ReaderState
  turns : ExtTreeMap String TurnID
  done : Bool
  looked : List Lookup
  cause : Option Actor

def Session.view (s : Session) : View := ⟨s.reader, s.turns, s.done, s.looked, s.cause⟩

/-- The frames of the turn's lane that were looked up since it registered. -/
def heard (looked : List Lookup) (T : Turn) : List Frame :=
  match T.start with
  | none => []
  | some start => ((looked.drop start).filter (·.lane = T.lane)).map Lookup.frame

/-- A frame was emitted, and it does not end the turn. -/
def Passed (e : Frame × EmitOutcome) : Prop := e.2 = .succeeded ∧ e.1.terminal = false

/-- The calls of `emit`: in the order of the frames, and none after a failure or a terminal
frame. -/
structure Orderly (done : Bool) (T : Turn) : Prop where
  emitted : T.emits.map Prod.fst <+: T.received
  passed : ∀ e ∈ T.emits.dropLast, Passed e
  phase : match T.state with
    | .called | .registered | .acquiring | .holding | .sending => T.received = [] ∧ T.emits = []
    | .waiting => done = false → T.emits.map Prod.fst = T.received ∧ ∀ e ∈ T.emits, Passed e
    | .checking f => T.received = T.emits.map Prod.fst ++ [f] ∧ ∀ e ∈ T.emits, Passed e
    | .emitting f => ∃ before, T.emits = before ++ [(f, .running)] ∧
        T.emits.map Prod.fst = T.received ∧ ∀ e ∈ before, Passed e
    | _ => True
  final : ∀ f, T.final = some f ↔ (f, .succeeded) ∈ T.emits ∧ f.terminal = true
  result : ∀ f, T.final = some f →
    T.state.concluded = true ∧ T.result.error = terminalError T.responseID f
  concluded : T.state.concluded = true → T.state ≠ .returned → T.final.isSome

/-- What has become of a terminal frame that the reader has found a turn for. -/
def Settled (v : View) (t : TurnID) (T : Turn) (f : Frame) : Prop :=
  v.reader = .offering t f ∨ T.state = .checking f ∨ T.state = .emitting f ∨ T.final = some f ∨
    T.faulted = true ∨ T.abandoned = true ∨ ∃ actor, v.cause = some actor ∧ actor ≠ .reader

structure TurnSound (v : View) (t : TurnID) (T : Turn) : Prop where
  orderly : Orderly v.done T
  listed : v.turns[T.lane]? = some t ↔ T.state.isRegistered = true
  started : T.state.isRegistered = true → T.start.isSome
  unstarted : T.state = .called → T.start = none
  bound : ∀ start, T.start = some start → start ≤ v.looked.length
  unarmed : T.state.early = true → T.state ≠ .sending → T.alarm = .unset
  slotClosed : T.slotClosed = true → T.state.isRegistered = false ∧ T.start.isSome
  item : T.state.item.isSome → v.reader = .awaiting t false ∨ v.reader = .ended
  heard : T.received <+: Wsnative.heard v.looked T
  caught : T.state.isRegistered = true → v.reader.stopped = false →
    Wsnative.heard v.looked T = T.received ++ v.reader.pending t
  offered : v.reader.pending t ≠ [] → T.start.isSome ∧ T.final = none
  left : T.start.isSome → T.final = none → T.state.left = true → T.abandoned = true ∨ v.done = true
  known : ∀ l ∈ v.looked, l.slot = some t → T.start.isSome
  settled : ∀ l ∈ v.looked, l.slot = some t → l.frame.terminal = true →
    l.frame.reachesLimit = false → Settled v t T l.frame

namespace Session

/-- What holds of the turns at all times. -/
structure Tracked (s : Session) : Prop where
  turn : ∀ t T, s.calls[t]? = some T → TurnSound s.view t T
  listed : ∀ lane t, s.turns[lane]? = some t → ∃ T : Turn, s.calls[t]? = some T ∧ T.lane = lane
  known : ∀ l ∈ s.looked, ∀ t, l.slot = some t → (s.calls[t]?).isSome
  offered : ∀ t f, s.reader = .offering t f → (s.calls[t]?).isSome

structure Sound (s : Session) : Prop where
  shutdown : s.Shutdown
  tracked : s.Tracked

end Session

/-! ## What a turn sees of the others -/

variable {v v' : View} {t u : TurnID} {T T' : Turn}

theorem Orderly.of_done {done done' : Bool} (h : Orderly done T) (hd : done = true → done' = true) :
    Orderly done' T := by
  refine { h with phase := ?_ }
  have phase := h.phase
  cases hs : T.state with
  | waiting =>
    simp only [hs] at phase ⊢
    exact fun open' => phase (by grind)
  | _ => grind

/-- A turn is not concerned by a step of another party that looks up no frame, leaves the turn's
entry alone, does not close its item, and withdraws no frame from it without a reason. -/
theorem TurnSound.frame (h : TurnSound v t T) (looked : v'.looked = v.looked)
    (turns : v'.turns[T.lane]? = some t ↔ v.turns[T.lane]? = some t)
    (done : v.done = true → v'.done = true)
    (cause : ∀ actor, v.cause = some actor → v'.cause = some actor)
    (item : T.state.item.isSome → v.reader = .awaiting t false →
      v'.reader = .awaiting t false ∨ v'.reader = .ended)
    (ended : v.reader = .ended → v'.reader = .ended)
    (stopped : v'.reader.stopped = false → v.reader.stopped = false)
    (pending : v'.reader.pending t = v.reader.pending t ∨ v'.reader.stopped = true ∧
      v'.reader.pending t = [] ∧ ∀ f ∈ v.reader.pending t,
        T.abandoned = true ∨ ∃ actor, v'.cause = some actor ∧ actor ≠ .reader) :
    TurnSound v' t T where
  orderly := h.orderly.of_done done
  listed := by rw [turns]; exact h.listed
  started := h.started
  unstarted := h.unstarted
  bound := by rw [looked]; exact h.bound
  unarmed := h.unarmed
  slotClosed := h.slotClosed
  item hi := (h.item hi).elim (item hi) (Or.inr ∘ ended)
  heard := by rw [looked]; exact h.heard
  caught hr live := by
    have same : v'.reader.pending t = v.reader.pending t := by grind
    rw [looked, same]
    exact h.caught hr (stopped live)
  offered hp := h.offered (by grind)
  left h₁ h₂ h₃ := (h.left h₁ h₂ h₃).imp id done
  known := by rw [looked]; exact h.known
  settled l hl hslot hterm hlimit := by
    rw [looked] at hl
    have settled := h.settled l hl hslot hterm hlimit
    simp only [Settled, ← ReaderState.mem_pending] at settled ⊢
    grind

/-! ## What a turn does itself -/

/-- A step of a turn that keeps its registration and what it has received. -/
theorem TurnSound.move (h : TurnSound v t T) (orderly : Orderly v.done T')
    (same : T'.lane = T.lane ∧ T'.start = T.start ∧ T'.slotClosed = T.slotClosed ∧
      T'.received = T.received)
    (registered : T'.state.isRegistered = T.state.isRegistered)
    (unstarted : T'.state ≠ .called ∨ T'.state = T.state)
    (unarmed : T'.state.early = true → T'.state ≠ .sending → T'.alarm = .unset)
    (item : T'.state.item.isSome → T.state.item.isSome)
    (final : T'.final = T.final ∨ T.state.item.isSome)
    (left : T'.start.isSome → T'.final = none → T'.state.left = true →
      T'.abandoned = true ∨ v.done = true)
    (settled : ∀ f, f.terminal = true →
      T.state = .checking f ∨ T.state = .emitting f ∨ T.final = some f ∨ T.faulted = true ∨
        T.abandoned = true →
      T'.state = .checking f ∨ T'.state = .emitting f ∨ T'.final = some f ∨ T'.faulted = true ∨
        T'.abandoned = true) : TurnSound v t T' := by
  obtain ⟨lane, start, slotClosed, received⟩ := same
  have heard_eq : Wsnative.heard v.looked T' = Wsnative.heard v.looked T := by
    simp only [Wsnative.heard, lane, start]
  refine {
    orderly
    listed := by rw [lane, registered]; exact h.listed
    started := by rw [registered, start]; exact h.started
    unstarted := by rw [start]; grind [h.unstarted]
    bound := by rw [start]; exact h.bound
    unarmed
    slotClosed := by rw [slotClosed, registered, start]; exact h.slotClosed
    item := fun hi => h.item (item hi)
    heard := by rw [heard_eq, received]; exact h.heard
    caught := by rw [heard_eq, received, registered]; exact h.caught
    offered := ?_
    left
    known := by rw [start]; exact h.known
    settled := ?_ }
  · intro hp
    obtain ⟨hs, hf⟩ := h.offered hp
    obtain hfinal | hitem := final
    · exact ⟨start ▸ hs, hfinal ▸ hf⟩
    · obtain hr | hr := h.item hitem <;> simp [hr, ReaderState.pending] at hp
  · intro l hl hslot hterm hlimit
    have := h.settled l hl hslot hterm hlimit
    have := settled l.frame hterm
    simp only [Settled] at *
    grind

end ApiLoad.Wsnative
