import ApiLoad.Wsnative.Preservation

/-!
# Turns return, sessions end

A turn goes through its states in one direction, except that the reader brings it back into the loop
with each frame. Once the session has ended, or the terminal frame has been emitted, no more frames
come, and the turn gets to its end if it is scheduled. In the same way a session ends once somebody
is inside `fail`.
-/
namespace ApiLoad.Wsnative
open Foundation Execution Foundation.Transition TurnState Option

attribute [local simp] ReaderState.stopped Turn.leave Turn.abandon Turn.fault

/-- How far a turn is from its end, if no more frames come. -/
def TurnState.rank : TurnState → Nat
  | .called => 14
  | .registered => 13
  | .acquiring => 12
  | .holding => 11
  | .sending => 10
  | .checking _ => 9
  | .emitting _ => 8
  | .failing _ => 7
  | .waiting => 6
  | .leaving | .completed _ => 5
  | .unregistering | .closing _ => 4
  | .stopping => 3
  | .returned => 0

/-- The steps that a turn takes on its own. That `emitReturn` is among them says that `emit`
returns, and in the same way for the write of the request. -/
def Action.own (t : TurnID) : Action → Bool
  | .register u | .checkContext u | .acquire u | .acquireCanceled u | .acquireDone u | .begin u
  | .send u _ | .observeDone u | .check u | .emitReturn u _ | .unregister u | .acknowledge u
  | .stop u | .resume (.turn u) => u = t
  | _ => false

attribute [local simp] Action.own

def Once.rank : Once → Nat
  | .idle => 4
  | .running _ .claimed => 3
  | .running _ .recorded => 2
  | .running _ .closed => 1
  | .finished => 0

def Action.fails : Action → Bool
  | .claim _ | .record | .closeConn _ | .finish => true
  | _ => false

/-- The turn has the right to write. -/
def TurnState.writes : TurnState → Bool
  | .holding | .sending => true
  | _ => false

/-- The turn waits for nobody else. -/
def TurnState.ready : TurnState → Bool
  | .acquiring | .failing _ | .waiting | .returned => false
  | _ => true

/-- Only a turn that has failed the session is inside `fail`. -/
def Turn.Faults (T : Turn) : Prop := ∀ e, T.state = .failing e → T.faulted = true

attribute [local simp] TurnState.rank TurnState.writes Turn.Faults

namespace Session
variable {s s' : Session} {t u : TurnID} {T T' U U' : Turn}

/-! ## The right to write -/

/-- Whoever has the right to write is about to send. -/
structure Writing (s : Session) : Prop where
  writer : ∀ u, s.writing = some u → ∃ U, s.calls[u]? = some U ∧ U.state.writes = true
  faults : ∀ (u : TurnID) (U : Turn), s.calls[u]? = some U → U.Faults

/-- The right to write is given back before somebody else gets it. -/
structure Hands (s s' : Session) : Prop where
  writing : s'.Writing
  back : ∀ u, s.writing = some u → s'.writing = some u ∨ s'.writing = none

theorem Writing.same (h : s.Writing) (calls : s'.calls = s.calls)
    (writing : s'.writing = s.writing) : Hands s s' := by
  refine ⟨⟨?_, ?_⟩, fun u hu => .inl (writing ▸ hu)⟩
  · rw [calls, writing]
    exact h.writer
  · rw [calls]
    exact h.faults

/-- A turn gives the right to write back, keeps it or gets it. -/
def Handles (s s' : Session) (t : TurnID) (T T' : Turn) : Prop :=
  s'.writing = none ∨ s'.writing = s.writing ∧ (T.state.writes = true → T'.state.writes = true) ∨
    s.writing = none ∧ s'.writing = some t ∧ T'.state.writes = true

theorem Writing.turn (h : s.Writing) (hT : s.calls[t]? = some T)
    (calls : s'.calls = s.calls.insert t T') (handles : Handles s s' t T T')
    (faults : T.Faults → T'.Faults) : Hands s s' := by
  refine ⟨⟨fun u hu => ?_, fun u U hU => ?_⟩, fun u hu => ?_⟩
  · rw [calls, OrderedMap.lookup_insert]
    obtain given | ⟨same, keep⟩ | ⟨-, taken, writes⟩ := handles
    · simp [given] at hu
    · obtain ⟨U, hU, writes⟩ := h.writer u (same ▸ hu)
      by_cases ht : t = u
      · subst ht
        obtain rfl : T = U := some.inj (hT.symm.trans hU)
        exact ⟨T', by simp, keep writes⟩
      · exact ⟨U, by simp [ht, hU], writes⟩
    · obtain rfl : t = u := some.inj (taken.symm.trans hu)
      exact ⟨T', by simp, writes⟩
  · rw [calls, OrderedMap.lookup_insert] at hU
    split at hU
    · cases hU
      exact faults (h.faults t T hT)
    · exact h.faults u U hU
  · obtain given | ⟨same, -⟩ | ⟨free, -⟩ := handles
    · exact .inr given
    · exact .inl (same ▸ hu)
    · simp [free] at hu

/-! ## Steps of a turn -/

/-- What the reader has looked up stays, and what it offers it has looked up. -/
structure Extends (s s' : Session) : Prop where
  looked : s.looked ⊆ s'.looked
  offers : ∀ t f, s'.reader = .offering t f →
    s.reader = .offering t f ∨ ∃ lane, s.reader = .parsed lane f

theorem Extends.of_eq (looked : s'.looked = s.looked)
    (offers : ∀ t f, s'.reader = .offering t f → s.reader = .offering t f) : Extends s s' :=
  ⟨by rw [looked]; exact fun _ => id, fun t f h => .inl (offers t f h)⟩

/-- A step that only one turn takes part in, besides the reader. -/
structure Advances (s s' : Session) (t : TurnID) (T : Turn) (next : TurnState → Prop) : Prop where
  once : s'.once = s.once
  done : s'.done = s.done
  stopped : s.reader.stopped = true → s'.reader.stopped = true
  extend : Extends s s'
  turn : ∃ T', s'.calls = s.calls.insert t T' ∧ (T.final.isSome → T'.final.isSome) ∧
    Handles s s' t T T' ∧ (T.Faults → T'.Faults) ∧ next T'.state

/-- The step brings the turn nearer to its end. -/
abbrev Lowers (s s' : Session) (t : TurnID) (T : Turn) : Prop :=
  Advances s s' t T fun state => state.rank < T.state.rank

theorem acknowledged_same (s : Session) (t : TurnID) : (s.acknowledged t).once = s.once ∧
    (s.acknowledged t).done = s.done ∧ (s.acknowledged t).calls = s.calls ∧
      (s.acknowledged t).writing = s.writing := by
  unfold acknowledged
  split <;> exact ⟨rfl, rfl, rfl, rfl⟩

theorem stopped_acknowledged (s : Session) (t : TurnID) (h : s.reader.stopped = true) :
    (s.acknowledged t).reader.stopped = true := by
  unfold acknowledged
  split
  · simp_all
  · exact h

theorem extends_acknowledged (s : Session) (t : TurnID) (T : Turn) :
    Extends s ((s.acknowledged t).put t T) := by
  unfold acknowledged
  split
  · exact .of_eq rfl fun _ _ h => by cases h
  · exact .of_eq rfl fun _ _ => id

section

variable {next : TurnState → Prop}

/-- The turn changes its record and what the reader does not see. -/
theorem Advances.change {turns : Std.ExtTreeMap String TurnID} {writing : Option TurnID}
    {header : Header} (final : T.final.isSome → T'.final.isSome)
    (handles : Handles s { s with writing } t T T')
    (state : (T.Faults → T'.Faults) ∧ next T'.state) :
    Advances s ({ s with turns, writing, header }.put t T') t T next :=
  ⟨rfl, rfl, id, .of_eq rfl fun _ _ => id, T', rfl, final, handles, state⟩

variable (final : T.final.isSome → T'.final.isSome)
  (state : (T.state.writes = true → T'.state.writes = true) ∧ (T.Faults → T'.Faults) ∧
    next T'.state)
include final state

theorem Advances.put : Advances s (s.put t T') t T next :=
  .change final (.inr (.inl ⟨rfl, state.1⟩)) state.2

theorem Advances.acknowledge : Advances s ((s.acknowledged t).put t T') t T next := by
  obtain ⟨once, done, calls, writing⟩ := acknowledged_same s t
  exact ⟨once, done, stopped_acknowledged s t, extends_acknowledged s t T', T',
    by simp only [Session.put, calls], final, .inr (.inl ⟨writing, state.1⟩), state.2⟩

end

theorem registerStep_lowers (hs : s.registerStep t T = some s') : Lowers s s' t T := by
  obtain ⟨state, hs⟩ := ite_none_right_eq_some.mp hs
  split at hs
  · cases hs
    exact .put id (by simp [state])
  split at hs
  · cases hs
    exact .put id (by simp [state])
  · cases hs
    exact .change id (.inr (.inl ⟨rfl, by simp [state]⟩)) (by simp [state])

theorem checkContextStep_lowers (hs : s.checkContextStep t T = some s') : Lowers s s' t T := by
  obtain ⟨state, rfl⟩ := of_guard hs
  cases T.context with
  | none | some c => exact .put id (by simp [state])

theorem acquireStep_lowers (hs : s.acquireStep t T = some s') : Lowers s s' t T := by
  obtain ⟨acquiring, rfl⟩ := of_guard hs
  exact .change id (.inr (.inr ⟨acquiring.2, rfl, rfl⟩)) (by simp [acquiring.1])

theorem acquireCanceledStep_lowers (hs : s.acquireCanceledStep t T = some s') :
    Lowers s s' t T := by
  unfold acquireCanceledStep at hs
  split at hs
  · obtain ⟨state, rfl⟩ := of_guard hs
    exact .put id (by simp [state])
  · cases hs

theorem acquireDoneStep_lowers (hs : s.acquireDoneStep t T = some s') : Lowers s s' t T := by
  obtain ⟨acquiring, rfl⟩ := of_guard hs
  exact .put id (by simp [acquiring.1])

theorem beginStep_lowers (hs : s.beginStep t T = some s') : Lowers s s' t T := by
  obtain ⟨state, hs⟩ := ite_none_right_eq_some.mp hs
  split at hs
  · cases hs
    exact .change id (.inl rfl) (by simp [state])
  · cases hs
    exact .put id (by simp [state])

theorem sendStep_lowers (hs : s.sendStep t T outcome = some s') : Lowers s s' t T := by
  obtain ⟨state, rfl⟩ := of_guard hs
  cases outcome with
  | sent | writeFailed | deadlineFailed => exact .change id (.inl rfl) (by simp [state])

theorem observeDoneStep_lowers (hs : s.observeDoneStep t T = some s') : Lowers s s' t T := by
  obtain ⟨waiting, rfl⟩ := of_guard hs
  exact .put id (by simp [waiting.1])

theorem checkStep_lowers (hs : s.checkStep t T = some s') : Lowers s s' t T := by
  unfold checkStep at hs
  split at hs
  swap
  · cases hs
  rename_i f state
  split at hs
  · cases hs
    exact .acknowledge id (by simp [state])
  · cases hs
    exact .put id (by simp [state])

theorem emitReturnStep_lowers (hs : s.emitReturnStep t T ok = some s') : Lowers s s' t T := by
  unfold emitReturnStep at hs
  split at hs
  swap
  · cases hs
  rename_i f state
  dsimp only at hs
  split at hs
  · cases hs
    exact .acknowledge id (by simp [state])
  split at hs
  · cases hs
    exact .put (fun _ => rfl) (by simp [state])
  · cases hs
    exact .acknowledge id (by simp [state])

theorem unregisterStep_lowers (hs : s.unregisterStep t T = some s') : Lowers s s' t T := by
  have gone (next : TurnState) (calm : ∀ e, next ≠ .failing e)
      (lower : (T.state.writes = true → next.writes = true) ∧ next.rank < T.state.rank) :
      Lowers s (s.unregistered t T next) t T := by
    unfold unregistered
    split
    · exact .change id (.inr (.inl ⟨rfl, lower.1⟩)) ⟨fun _ e he => absurd he (calm e), lower.2⟩
    · exact .put id ⟨lower.1, fun _ e he => absurd he (calm e), lower.2⟩
  unfold unregisterStep at hs
  split at hs
  · rename_i state
    cases hs
    exact gone _ (by simp) (by simp [state])
  · rename_i state
    cases hs
    exact gone _ (by simp) (by simp [state])
  · cases hs

theorem acknowledgeStep_lowers (hs : s.acknowledgeStep t T = some s') : Lowers s s' t T := by
  unfold acknowledgeStep at hs
  split at hs
  · rename_i state
    cases hs
    exact .acknowledge id (by simp [state])
  · cases hs

theorem stopStep_lowers (hs : s.stopStep t T = some s') : Lowers s s' t T := by
  unfold stopStep at hs
  dsimp only at hs
  by_cases armed : T.alarm = .armed
  all_goals
    simp only [armed, if_true, if_false] at hs
    split at hs
    · rename_i state
      cases hs
      exact .put id (by simp [state])
    · rename_i state
      cases hs
      exact .put id (by simp [state])
    · cases hs

theorem handOverStep_enters (hs : s.handOverStep t T = some s') :
    Advances s s' t T fun _ => True := by
  unfold handOverStep at hs
  split at hs
  · rename_i offering
    obtain ⟨⟨-, waiting, -⟩, rfl⟩ := of_guard hs
    exact ⟨rfl, rfl, by simp [offering], .of_eq rfl (fun _ _ h => by cases h), _, rfl, id,
      .inr (.inl ⟨rfl, by simp [waiting]⟩), by simp⟩
  · cases hs

theorem cancelStep_keeps (hs : s.cancelStep t T reason = some s') :
    Advances s s' t T (· = T.state) := by
  obtain ⟨-, rfl⟩ := of_guard hs
  exact .put id ⟨id, id, rfl⟩

theorem fireStep_keeps (hs : s.fireStep t T = some s') : Advances s s' t T (· = T.state) := by
  unfold fireStep at hs
  split at hs
  · obtain ⟨-, rfl⟩ := of_guard hs
    exact .put id ⟨id, id, rfl⟩
  · cases hs

/-! ## What a step does to the progress of everybody -/

structure Moves (s s' : Session) (action : Action) : Prop where
  extend : Extends s s'
  hands : s.Writing → Hands s s'
  done : s.done = true → s'.done = true
  stopped : s.reader.stopped = true → s'.reader.stopped = true
  once : s'.once.rank ≤ s.once.rank
  fails : action.fails = true → s'.once.rank < s.once.rank
  turn : ∀ t T, s.calls[t]? = some T → ∃ T', s'.calls[t]? = some T' ∧
    (T.final.isSome → T'.final.isSome) ∧ (action ≠ .handOver t → T'.state.rank ≤ T.state.rank) ∧
    (action.own t = true → T'.state.rank < T.state.rank)

variable {action : Action}

/-- A step of one turn does not concern the others. -/
theorem Moves.advance (hU : s.calls[u]? = some U) (h : Advances s s' u U next)
    (lower : ∀ state, next state → state.rank ≤ U.state.rank ∨ action = .handOver u)
    (own : ∀ t, action.own t = true → u = t ∧ ∀ state, next state → state.rank < U.state.rank)
    (fails : action.fails = false) : Moves s s' action := by
  obtain ⟨U', calls, final, handles, faults, state⟩ := h.turn
  refine ⟨h.extend, fun writing => writing.turn hU calls handles faults,
    fun hd => h.done ▸ hd, h.stopped, by rw [h.once], by simp [fails], ?_⟩
  intro t T hT
  rw [calls, OrderedMap.lookup_insert]
  by_cases ht : u = t
  · subst ht
    obtain rfl : U = T := by simpa [hU] using hT
    exact ⟨U', by simp, final, fun other => (lower _ state).resolve_right other,
      fun ho => (own u ho).2 _ state⟩
  · exact ⟨T, by simp [ht, hT], id, fun _ => le_rfl, fun ho => absurd (own t ho).1 ht⟩

section

variable {action : Action} (step : Session → TurnID → Turn → Option Session)
  (hs : s.ofTurn u step = some s')
include hs

theorem Moves.lowers (lowers : ∀ U, step s u U = some s' → Lowers s s' u U)
    (own : ∀ t, action.own t = true → u = t) (fails : action.fails = false) :
    Moves s s' action := by
  obtain ⟨U, hU, hs⟩ := bind_eq_some_iff.mp hs
  exact .advance hU (lowers U hs) (fun _ h => Or.inl h.le)
    (fun t ho => ⟨own t ho, fun _ => id⟩) fails

theorem Moves.keeps (keeps : ∀ U, step s u U = some s' → Advances s s' u U (· = U.state))
    (own : ∀ t, action.own t = false) (fails : action.fails = false) : Moves s s' action := by
  obtain ⟨U, hU, hs⟩ := bind_eq_some_iff.mp hs
  exact .advance hU (keeps U hs) (fun _ h => Or.inl (h ▸ le_rfl)) (by grind) fails

end

/-- A step of the others. -/
theorem Moves.quiet (same : s'.calls = s.calls ∧ s'.once = s.once ∧ s'.done = s.done ∧
      s'.writing = s.writing)
    (extend : Extends s s') (stopped : s.reader.stopped = true → s'.reader.stopped = true)
    (own : ∀ t, action.own t = false) (fails : action.fails = false) : Moves s s' action := by
  obtain ⟨calls, once, done, writing⟩ := same
  refine ⟨extend, fun h => h.same calls writing, fun hd => done ▸ hd, stopped, by rw [once],
    by simp [fails], ?_⟩
  intro t T hT
  exact ⟨T, calls ▸ hT, id, fun _ => le_rfl, by grind⟩

/-- A step of the reader that looks up no frame. -/
theorem Moves.reader {r : ReaderState} {reads : List Message}
    (offers : ∀ t f, r = .offering t f → s.reader = .offering t f)
    (stopped : s.reader.stopped = true → r.stopped = true) (own : ∀ t, action.own t = false)
    (fails : action.fails = false) : Moves s { s with reader := r, reads } action :=
  .quiet ⟨rfl, rfl, rfl, rfl⟩ (.of_eq rfl offers) stopped own fails

/-- A step inside `fail`. -/
theorem Moves.failing (same : s'.calls = s.calls ∧ s'.reader = s.reader ∧ s'.looked = s.looked ∧
      s'.writing = s.writing)
    (done : s.done = true → s'.done = true) (lower : s'.once.rank < s.once.rank)
    (own : ∀ t, action.own t = false) : Moves s s' action := by
  obtain ⟨calls, reader, looked, writing⟩ := same
  refine ⟨.of_eq looked fun _ _ h => reader ▸ h, fun h => h.same calls writing, done,
    fun h => reader ▸ h, lower.le, fun _ => lower, ?_⟩
  intro t T hT
  exact ⟨T, calls ▸ hT, id, fun _ => le_rfl, by grind⟩

theorem step_moves (hs : s.step action = some s') : Moves s s' action := by
  cases action with
  | read m =>
    obtain ⟨reading, rfl⟩ := of_guard hs
    refine .reader (fun _ _ h => ?_) (by simp [reading]) (fun _ => rfl) rfl
    split at h <;> cases h
  | lookUp =>
    simp only [step, lookUpStep] at hs
    split at hs
    · rename_i lane f parsed
      cases hs
      refine .quiet ⟨rfl, rfl, rfl, rfl⟩ ⟨fun _ h => List.mem_append_left _ h,
        fun t g h => .inr ?_⟩ (by simp [parsed]) (fun _ => rfl) rfl
      dsimp only at h
      split at h
      · split at h
        · cases h
        · cases h
          exact ⟨lane, parsed⟩
      · cases h
    · cases hs
  | proceed =>
    simp only [step] at hs
    split at hs
    · rename_i awaiting
      cases hs
      exact .reader (by simp) (by simp [awaiting]) (fun _ => rfl) rfl
    · cases hs
  | readError =>
    obtain ⟨-, rfl⟩ := of_guard hs
    exact .reader (by simp) (fun _ => rfl) (fun _ => rfl) rfl
  | slotClosed =>
    simp only [step, slotClosedStep] at hs
    split at hs
    · obtain ⟨-, rfl⟩ := of_guard hs
      exact .reader (by simp) (fun _ => rfl) (fun _ => rfl) rfl
    · cases hs
  | readerDone =>
    obtain ⟨-, hs⟩ := ite_none_right_eq_some.mp hs
    split at hs
    · cases hs
      exact .reader (by simp) (fun _ => rfl) (fun _ => rfl) rfl
    · cases hs
      exact .reader (by simp) (fun _ => rfl) (fun _ => rfl) rfl
    · cases hs
  | call u request =>
    obtain ⟨absent, rfl⟩ := of_guard hs
    have others (t : TurnID) (T : Turn) (hT : s.calls[t]? = some T) : u ≠ t := by
      rintro rfl
      simp [absent] at hT
    refine ⟨.of_eq rfl fun _ _ => id, fun h => ⟨⟨fun t ht => ?_, fun t T hT => ?_⟩,
      fun t ht => .inl ht⟩, id, id, le_rfl, by simp [Action.fails], fun t T hT => ?_⟩
    · obtain ⟨T, hT, writes⟩ := h.writer t ht
      exact ⟨T, by simp [put, others t T hT, hT], writes⟩
    · rw [put, OrderedMap.lookup_insert] at hT
      split at hT
      · cases hT
        cases requestLane request <;> simp
      · exact h.faults t T hT
    · exact ⟨T, by simp [put, others t T hT, hT], id, fun _ => le_rfl, by simp⟩
  | register u => exact .lowers registerStep hs (fun _ => registerStep_lowers) (by simp) rfl
  | checkContext u =>
    exact .lowers checkContextStep hs (fun _ => checkContextStep_lowers) (by simp) rfl
  | acquire u => exact .lowers acquireStep hs (fun _ => acquireStep_lowers) (by simp) rfl
  | acquireCanceled u =>
    exact .lowers acquireCanceledStep hs (fun _ => acquireCanceledStep_lowers) (by simp) rfl
  | acquireDone u =>
    exact .lowers acquireDoneStep hs (fun _ => acquireDoneStep_lowers) (by simp) rfl
  | begin u => exact .lowers beginStep hs (fun _ => beginStep_lowers) (by simp) rfl
  | send u outcome =>
    exact .lowers (fun s t T => s.sendStep t T outcome) hs (fun _ => sendStep_lowers)
      (by simp) rfl
  | handOver u =>
    obtain ⟨U, hU, hs⟩ := bind_eq_some_iff.mp hs
    exact .advance hU (handOverStep_enters hs) (fun _ _ => Or.inr rfl) (by simp) rfl
  | observeDone u =>
    exact .lowers observeDoneStep hs (fun _ => observeDoneStep_lowers) (by simp) rfl
  | check u => exact .lowers checkStep hs (fun _ => checkStep_lowers) (by simp) rfl
  | emitReturn u ok =>
    exact .lowers (fun s t T => s.emitReturnStep t T ok) hs (fun _ => emitReturnStep_lowers)
      (by simp) rfl
  | unregister u =>
    exact .lowers unregisterStep hs (fun _ => unregisterStep_lowers) (by simp) rfl
  | acknowledge u =>
    exact .lowers acknowledgeStep hs (fun _ => acknowledgeStep_lowers) (by simp) rfl
  | stop u => exact .lowers stopStep hs (fun _ => stopStep_lowers) (by simp) rfl
  | cancel u reason =>
    exact .keeps (fun s t T => s.cancelStep t T reason) hs (fun _ => cancelStep_keeps)
      (fun _ => rfl) rfl
  | fire u => exact .keeps fireStep hs (fun _ => fireStep_keeps) (fun _ => rfl) rfl
  | close k =>
    obtain ⟨-, rfl⟩ := of_guard hs
    exact .quiet ⟨rfl, rfl, rfl, rfl⟩ (.of_eq rfl fun _ _ => id) id (fun _ => rfl) rfl
  | claim actor =>
    obtain ⟨idle, rfl⟩ := of_guard hs
    exact .failing ⟨rfl, rfl, rfl, rfl⟩ id (by simp [idle.1, Once.rank]) (fun _ => rfl)
  | record | closeConn =>
    simp only [step, recordStep, closeConnStep] at hs
    split at hs
    · rename_i once
      cases hs
      exact .failing ⟨rfl, rfl, rfl, rfl⟩ id (by simp [once, Once.rank]) (fun _ => rfl)
    · cases hs
  | finish =>
    simp only [step, finishStep] at hs
    split at hs
    · rename_i once
      cases hs
      exact .failing ⟨rfl, rfl, rfl, rfl⟩ (fun _ => rfl) (by simp [once, Once.rank]) (fun _ => rfl)
    · cases hs
  | resume actor =>
    obtain ⟨⟨-, inside⟩, rfl⟩ := of_guard hs
    cases actor with
    | reader => exact .reader (by simp) (fun _ => rfl) (fun _ => rfl) rfl
    | closer k =>
      exact .quiet ⟨rfl, rfl, rfl, rfl⟩ (.of_eq rfl fun _ _ => id) id (fun _ => rfl) rfl
    | turn u =>
      obtain ⟨U, e, hU, state⟩ := failing_of_turn inside
      simp only [resumed, hU]
      have back : Lowers s (s.put u { U with state := .waiting }) u U :=
        .put id (by simp [state])
      exact .advance hU back (fun _ h => Or.inl h.le) (by simp) rfl
    | context u =>
      obtain ⟨U, e, hU, -⟩ := firing_of_context inside
      simp only [resumed, hU]
      have kept : Advances s (s.put u { U with alarm := .finished }) u U (· = U.state) :=
        .put id ⟨id, id, rfl⟩
      exact .advance hU kept (fun _ h => Or.inl (h ▸ le_rfl)) (by simp) rfl

/-! ## Turns return -/

/-- The turn has been called, and it gets no more frames. -/
def Concluding (t : TurnID) (s : Session) : Prop :=
  s.Sound ∧ ∃ T, s.calls[t]? = some T ∧ (s.done = true ∨ T.final.isSome)

theorem Concluding.no_handOver (h : Concluding t s) : s.step (.handOver t) = none := by
  obtain ⟨sound, T, hT, ends⟩ := h
  have own := sound.tracked.turn t T hT
  simp only [step, ofTurn, hT, bind_some, handOverStep]
  split
  · rename_i t' f offering
    rw [if_neg]
    rintro ⟨rfl, -, running⟩
    have unfinished := (own.offered (by simp [view, offering, ReaderState.pending])).2
    simp [running, unfinished] at ends
  · rfl

theorem Concluding.step (h : Concluding t s) (hs : s.step action = some s') : Concluding t s' := by
  obtain ⟨sound, T, hT, ends⟩ := h
  obtain ⟨T', hT', final, -, -⟩ := (step_moves hs).turn t T hT
  exact ⟨step_sound action sound hs, T', hT', ends.imp (step_moves hs).done final⟩

def turnRank (t : TurnID) (s : Session) : Nat := (s.calls[t]?.map (·.state.rank)).getD 0

theorem Concluding.rank (h : Concluding t s) (hs : s.step action = some s') :
    turnRank t s' ≤ turnRank t s ∧ (action.own t = true → turnRank t s' < turnRank t s) := by
  have other : action ≠ .handOver t := by
    rintro rfl
    simp [h.no_handOver] at hs
  obtain ⟨sound, T, hT, ends⟩ := h
  obtain ⟨T', hT', -, le, lt⟩ := (step_moves hs).turn t T hT
  simpa [turnRank, hT, hT'] using And.intro (le other) lt

theorem enabled_of_ready (hT : s.calls[t]? = some T) (ready : T.state.ready = true) :
    ∃ action : Action, action.own t = true ∧ (s.step action).isSome := by
  cases hs : T.state with
  | called =>
    refine ⟨.register t, by simp, ?_⟩
    simp only [Session.step, ofTurn, hT, bind_some, registerStep, hs, if_true]
    split
    · rfl
    · split <;> rfl
  | registered =>
    exact ⟨.checkContext t, by simp, by simp [Session.step, ofTurn, hT, checkContextStep, hs]⟩
  | holding =>
    refine ⟨.begin t, by simp, ?_⟩
    simp only [Session.step, ofTurn, hT, bind_some, beginStep, hs, if_true]
    split <;> rfl
  | sending =>
    exact ⟨.send t .sent, by simp, by simp [Session.step, ofTurn, hT, sendStep, hs]⟩
  | checking f =>
    refine ⟨.check t, by simp, ?_⟩
    simp only [Session.step, ofTurn, hT, bind_some, checkStep, hs]
    split <;> rfl
  | emitting f =>
    exact ⟨.emitReturn t false, by simp, by simp [Session.step, ofTurn, hT, emitReturnStep, hs]⟩
  | completed f | unregistering =>
    exact ⟨.unregister t, by simp, by simp [Session.step, ofTurn, hT, unregisterStep, hs]⟩
  | closing f =>
    exact ⟨.acknowledge t, by simp, by simp [Session.step, ofTurn, hT, acknowledgeStep, hs]⟩
  | leaving | stopping =>
    exact ⟨.stop t, by simp, by
      by_cases armed : T.alarm = .armed <;> simp [Session.step, ofTurn, hT, stopStep, hs, armed]⟩
  | acquiring | failing e | waiting | returned => simp [hs, TurnState.ready] at ready

/-- A turn that gets no more frames can always go on. -/
theorem Concluding.enabled (h : Concluding t s)
    (running : ∀ T, s.calls[t]? = some T → T.state ≠ .returned) :
    ∃ action : Action, action.own t = true ∧ (s.step action).isSome := by
  obtain ⟨sound, T, hT, ends⟩ := h
  -- Unless the terminal frame has been emitted, the session has ended.
  have done (open' : T.state.concluded = false) : s.done = true := by
    simpa [(sound.tracked.turn t T hT).orderly.unfinished open'] using ends
  cases hs : T.state with
  | acquiring =>
    exact ⟨.acquireDone t, by simp,
      by simp [Session.step, ofTurn, hT, acquireDoneStep, hs, done, concluded]⟩
  | failing e =>
    have once := sound.shutdown.done.mp (done (by simp [hs, concluded]))
    exact ⟨.resume (.turn t), by simp,
      by simp [Session.step, resumeStep, once, failingWith, hT, hs]⟩
  | waiting =>
    exact ⟨.observeDone t, by simp,
      by simp [Session.step, ofTurn, hT, observeDoneStep, hs, done, concluded]⟩
  | returned => exact absurd hs (running T hT)
  | _ => exact enabled_of_ready hT (by simp [hs, TurnState.ready])

def Returned (t : TurnID) (s : Session) : Prop := ∃ T, s.calls[t]? = some T ∧ T.state = .returned

theorem eventually_returned (run : Schedule Session.step) (fair : run.Fair (·.own t = true))
    (h : Concluding t (run.state n)) : ∃ m ≥ n, Returned t (run.state m) := by
  refine run.eventually fair (turnRank t) h (fun _ _ _ h _ => h.step)
    (fun _ _ _ h _ hs => (h.rank hs).1) (fun _ _ _ h _ ho hs => (h.rank hs).2 ho) ?_
  intro s h running
  exact h.enabled fun T hT hs => running ⟨T, hT, hs⟩

/-! ## Sessions end -/

/-- The reader is inside `fail` or has left it. -/
def Ending (s : Session) : Prop := s.Sound ∧ s.reader.stopped = true

theorem Ending.enabled (h : Ending s) (running : s.done ≠ true) :
    ∃ action : Action, action.fails = true ∧ (s.step action).isSome := by
  obtain ⟨sound, stopped⟩ := h
  cases once : s.once with
  | idle =>
    have failing : (s.failingWith .reader).isSome := by
      cases hr : s.reader with
      | failing e => simp [failingWith, hr]
      | ended => exact absurd (sound.shutdown.ended hr) running
      | _ => simp [hr] at stopped
    exact ⟨.claim .reader, rfl, by simp [Session.step, claimStep, once, failing]⟩
  | running actor stage =>
    cases stage with
    | claimed => exact ⟨.record, rfl, by simp [Session.step, recordStep, once]⟩
    | recorded => exact ⟨.closeConn false, rfl, by simp [Session.step, closeConnStep, once]⟩
    | closed => exact ⟨.finish, rfl, by simp [Session.step, finishStep, once]⟩
  | finished => exact absurd (sound.shutdown.done.mpr once) running

theorem eventually_done (run : Schedule Session.step) (fair : run.Fair (·.fails = true))
    (h : Ending (run.state n)) : ∃ m ≥ n, (run.state m).done = true := by
  refine run.eventually fair (fun s => s.once.rank) h ?_ (fun _ _ _ _ _ hs => (step_moves hs).once)
    (fun _ _ _ _ _ ho hs => (step_moves hs).fails ho) (fun s h => h.enabled)
  intro action s s' h _ hs
  exact ⟨step_sound action h.1 hs, (step_moves hs).stopped h.2⟩

end Session
end ApiLoad.Wsnative
