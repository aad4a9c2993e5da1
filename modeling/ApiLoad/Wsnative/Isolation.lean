import ApiLoad.Wsnative.Answer

/-!
# Turns of one session are isolated

What a turn gets from the shared connection, in every interleaving of the reader, the turns, their
contexts and `Close`.
-/
namespace ApiLoad.Wsnative
open Foundation Foundation.Transition Execution Session

variable {header : Header} {s s' : Session} {t u : TurnID} {T U : Turn}

namespace Session

/-- Two turns that are registered at the same time have different lanes. -/
theorem Sound.lane_injective (h : s.Sound) (hT : s.calls[t]? = some T) (hU : s.calls[u]? = some U)
    (registered : T.state.isRegistered = true ∧ U.state.isRegistered = true)
    (lane : T.lane = U.lane) : t = u := by
  have ht := (h.tracked.turn t T hT).listed.mpr registered.1
  have hu := (h.tracked.turn u U hU).listed.mpr registered.2
  rw [lane, hu] at ht
  exact (Option.some.inj ht).symm

end Session

/-- A message without a stream that announces a piece of an answer. -/
def sampleDelta : Message where
  body := "delta"
  envelope := some { type := "response.output_text.delta" }

def completedFrame : Frame where
  body := "completed"
  envelope :=
    { type := "response.completed"
      response := { id := "r", object := "response", status := "completed" } }

def sampleCompleted : Message where
  body := completedFrame.body
  envelope := some completedFrame.envelope

/-- A turn calls, registers and sends. -/
def sampleSend (outcome : SendOutcome) : List Action :=
  [.call 0 { object := some {} }, .register 0, .checkContext 0, .acquire 0, .begin 0,
    .send 0 outcome]

/-- The reader has read a message before the turn registers, and looks up its lane afterwards. -/
def staleRun : List Action :=
  .read sampleDelta :: sampleSend .sent ++ [.lookUp, .handOver 0, .check 0]

/-- The reader has found the turn for its completed response, but the send of the turn fails. -/
def lostRun : List Action :=
  (sampleSend .sent).dropLast ++ [.read sampleCompleted, .lookUp, .send 0 .writeFailed,
    .claim (.turn 0), .record, .closeConn false, .finish, .resume (.turn 0), .observeDone 0,
    .stop 0, .unregister 0]

/-- A turn emits a frame that was read before it registered, and a turn whose completed response was
read returns with the failure of its own send. -/
theorem stale_frame_and_lost_answer :
    ((run step staleRun (newSession [])).bind fun s => s.calls[0]?.map fun T =>
      (T.emits.length, T.readBefore, s.reads.length)) = some (1, 1, 1) ∧
    ((run step lostRun (newSession [])).bind fun s => s.calls[0]?.map fun T =>
      (s.looked.map fun l => (l.slot, l.frame.terminal), decide (T.state = .returned), s.cause,
        T.result.error.map (·.code))) =
      some ([(some 0, true)], true, some (.turn 0), some "websocket_send_failed") := by
  decide +kernel

/-- In every state that the parties can reach: the frames passed to the `emit` of a turn are the
first frames of its lane that were looked up since it registered; `emit` is not called after it has
failed or after a terminal frame; no two registered turns share a lane; a frame that no turn was
found for ends the session; a turn returns once the session has ended or its terminal frame has been
emitted; a terminal frame that was emitted determines the result, which it fails to be only if the
turn itself, a context, another turn or `Close` came in between; and under a fair schedule in which
none of them does, a terminal frame that was looked up is emitted and the turn returns. -/
theorem turns_isolated {header : Header} {s : Session} (h : Reachable header s) :
    (∀ (t : TurnID) (T : Turn), s.calls[t]? = some T →
      T.emits.map Prod.fst <+: heard s.looked T ∧ ∀ e ∈ T.emits.dropLast, Passed e) ∧
    (∀ (t u : TurnID) (T U : Turn), s.calls[t]? = some T → s.calls[u]? = some U →
      T.state.isRegistered = true ∧ U.state.isRegistered = true → T.lane = U.lane → t = u) ∧
    (∀ l ∈ s.looked, l.slot = none → s.reader.stopped = true ∧
      ∀ run : Schedule step, run.state 0 = s → run.Fair (·.fails = true) →
        ∃ n, (run.state n).done = true) ∧
    (∀ (t : TurnID) (T : Turn), s.calls[t]? = some T →
      (s.done = true ∨ ∃ f, (f, .succeeded) ∈ T.emits ∧ f.terminal = true) →
      ∀ run : Schedule step, run.state 0 = s → run.Fair (·.own t = true) →
        ∃ n, Returned t (run.state n)) ∧
    (∀ (t : TurnID) (T : Turn), s.calls[t]? = some T → ∀ l ∈ s.looked, l.slot = some t →
      l.frame.terminal = true →
      ((l.frame, .succeeded) ∈ T.emits → T.result.error = terminalError T.responseID l.frame) ∧
      (l.frame.reachesLimit = false → T.state = .returned →
        T.faulted = false ∧ T.abandoned = false →
        (∀ actor, s.cause = some actor → actor = .reader) → (l.frame, .succeeded) ∈ T.emits)) ∧
    ∀ (t : TurnID), ∀ l ∈ s.looked, l.slot = some t → l.frame.terminal = true →
      l.frame.reachesLimit = false →
      ∀ run : Schedule step, run.state 0 = s → FairTo t run → Undisturbed t l.frame run →
        ∃ n T, (run.state n).calls[t]? = some T ∧ T.state = .returned ∧
          (l.frame, .succeeded) ∈ T.emits ∧
          T.result.error = terminalError T.responseID l.frame := by
  have sound := sound_of_reachable h
  refine ⟨?_, ?_, ?_, ?_, ?_, ?_⟩
  · intro t T hT
    have own := sound.tracked.turn t T hT
    exact ⟨own.orderly.emitted.trans own.heard, own.orderly.passed⟩
  · intro t u T U hT hU registered lane
    exact sound.lane_injective hT hU registered lane
  · intro l hl slot
    have stopped := sound.shutdown.unmatched l hl slot
    refine ⟨stopped, ?_⟩
    rintro run rfl fair
    obtain ⟨n, -, done⟩ := eventually_done run fair ⟨sound, stopped⟩
    exact ⟨n, done⟩
  · intro t T hT ends
    have own := sound.tracked.turn t T hT
    rintro run rfl fair
    have final (f : Frame) (hf : (f, .succeeded) ∈ T.emits ∧ f.terminal = true) :
        T.final.isSome := by
      simp [(own.orderly.final f).mpr hf]
    obtain ⟨n, -, returned⟩ := eventually_returned run fair
      ⟨sound, T, hT, ends.imp id fun ⟨f, hf⟩ => final f hf⟩
    exact ⟨n, returned⟩
  · intro t T hT l hl slot terminal
    have own := sound.tracked.turn t T hT
    refine ⟨fun emitted => ?_, fun limit returned alone others => ?_⟩
    · exact (own.orderly.result _ ((own.orderly.final _).mpr ⟨emitted, terminal⟩)).2
    · exact ((own.orderly.final _).mp
        (sound.answered hT hl slot terminal limit returned alone others)).1
  · rintro t l hl slot terminal limit run rfl fair undisturbed
    obtain ⟨n, -, T, answered⟩ := eventually_answered run fair
      ⟨sound, writing_of_reachable h, ⟨l, hl, slot, rfl⟩, terminal, limit⟩ undisturbed
    exact ⟨n, T, answered⟩

/-- The reader has found the turn for its completed response. -/
def pendingRun : List Action := sampleSend .sent ++ [.read sampleCompleted, .lookUp]

def answerRun : List Action :=
  [.handOver 0, .check 0, .emitReturn 0 true, .unregister 0, .acknowledge 0, .stop 0]

/-- No turn but the first has been called, and it has returned. -/
def atRest (s : Session) : Bool :=
  s.calls.toList.map Prod.fst = [0] && s.calls[(0 : TurnID)]?.any fun T => T.state = .returned

theorem called_of_own {action : Action} (own : action.own u = true)
    (hs : s.step action = some s') : ∃ U, s.calls[u]? = some U := by
  have called (step : Session → TurnID → Turn → Option Session) {t : TurnID} (same : t = u)
      (hs : s.ofTurn t step = some s') : ∃ U, s.calls[u]? = some U := by
    obtain ⟨U, hU, -⟩ := Option.bind_eq_some_iff.mp hs
    exact ⟨U, same ▸ hU⟩
  cases action with
  | resume actor =>
    cases actor with
    | turn t =>
      obtain rfl : t = u := by simpa [Action.own] using own
      simp only [step, resumeStep] at hs
      split at hs
      · rename_i inside
        obtain ⟨U, hU, -⟩ := Option.bind_eq_some_iff.mp (Option.some_get inside.2).symm
        exact ⟨U, hU⟩
      · cases hs
    | _ => cases own
  | send t outcome =>
    exact called (fun s t T => s.sendStep t T outcome) (by simpa [Action.own] using own) hs
  | emitReturn t ok =>
    exact called (fun s t T => s.emitReturnStep t T ok) (by simpa [Action.own] using own) hs
  | register | checkContext | acquire | acquireCanceled | acquireDone | begin | observeDone
  | check | unregister | acknowledge | stop =>
    exact called _ (by simpa [Action.own] using own) hs
  | _ => cases own

theorem step_atRest {action : Action} (h : atRest s = true) (own : action.own u = true) :
    s.step action = none := by
  simp only [atRest, Bool.and_eq_true, decide_eq_true_eq] at h
  obtain ⟨keys, returned⟩ := h
  rw [Option.eq_none_iff_forall_ne_some]
  intro s' hs
  obtain ⟨U, hU⟩ := called_of_own own hs
  have listed : u ∈ s.calls.toList.map Prod.fst :=
    List.mem_map_of_mem (OrderedMap.mem_toList_of_lookup hU)
  obtain rfl : u = 0 := by simpa [keys] using listed
  obtain ⟨U', -, -, -, lower⟩ := (step_moves hs).turn 0 U hU
  have state : U.state = .returned := by simpa [hU] using returned
  have := lower own
  simp [state, TurnState.rank] at this

/-- The frame has been emitted, or nothing has come in between. -/
def calm (f : Frame) (s : Session) : Bool :=
  s.calls[(0 : TurnID)]?.all fun T => (f, .succeeded) ∈ T.emits ||
    !T.faulted && !T.abandoned && s.cause.all (· = .reader)

/-- A turn whose completed response has been looked up, and the schedule in which it takes it, emits
it and returns. -/
theorem turns_isolated_answered :
    ∃ s, Reachable [] s ∧ ∃ run : Schedule step, run.state 0 = s ∧ FairTo 0 run ∧
      Undisturbed 0 completedFrame run ∧
      ∃ n T, (run.state n).calls[(0 : TurnID)]? = some T ∧ T.state = .returned ∧
        (completedFrame, .succeeded) ∈ T.emits ∧
        T.result.error = terminalError T.responseID completedFrame := by
  have found : (Transition.run step pendingRun (newSession [])).any (fun s =>
      ⟨"", completedFrame, some 0⟩ ∈ s.looked &&
      (Transition.run step answerRun s).any atRest &&
      decide (∀ n ≤ answerRun.length,
        calm completedFrame ((Transition.run step (answerRun.take n) s).getD s) = true)) =
          true := by
    decide +kernel
  obtain ⟨s, hs, found⟩ := (Option.any_eq_true _ _).mp found
  simp only [Bool.and_eq_true, decide_eq_true_eq] at found
  obtain ⟨⟨looked, ends⟩, quiet⟩ := found
  obtain ⟨s', hs', rest⟩ := (Option.any_eq_true _ _).mp ends
  have reached : Reachable [] s := Reachable.init.run hs
  have possible : (Transition.run step answerRun s).isSome := by rw [hs']; rfl
  have fair : FairTo 0 (.ofLabels answerRun s possible) := by
    have idle : s'.step (.handOver 0) = none := by
      simp only [atRest, Bool.and_eq_true] at rest
      obtain ⟨T, hT, returned⟩ := (Option.any_eq_true _ _).mp rest.2
      have state : T.state = .returned := by simpa using returned
      simp only [step, ofTurn, hT, Option.bind_some, handOverStep]
      split
      · simp [state]
      · rfl
    refine ⟨fun u => (Schedule.ofLabels_fair hs' fun l own => step_atRest rest own).1,
      (Schedule.ofLabels_fair hs' ?_).1, (Schedule.ofLabels_fair hs' ?_).2⟩
    · rintro l rfl
      exact idle
    · rintro l rfl
      exact step_atRest rest (u := 0) (by decide)
  have undisturbed : Undisturbed 0 completedFrame (.ofLabels answerRun s possible) := by
    intro n T hT missing
    have calmly : calm completedFrame
        ((Schedule.ofLabels answerRun s possible).state n) = true := by
      rcases Nat.le_total n answerRun.length with early | late
      · exact quiet n early
      · have last := quiet answerRun.length le_rfl
        rw [List.take_length, hs', Option.getD_some] at last
        rwa [Schedule.ofLabels_rest hs' late]
    rw [calm, hT] at calmly
    have still : (T.faulted = false ∧ T.abandoned = false) ∧
        (((Schedule.ofLabels answerRun s possible).state n).cause.all (· = .reader)) = true := by
      simpa [missing] using calmly
    refine ⟨still.1, fun actor failed => ?_⟩
    simpa [failed] using still.2
  refine ⟨s, reached, .ofLabels answerRun s possible, rfl, fair, undisturbed, ?_⟩
  exact (turns_isolated reached).2.2.2.2.2 0 _ looked rfl (by decide +kernel) (by decide +kernel) _
    rfl fair undisturbed

end ApiLoad.Wsnative
