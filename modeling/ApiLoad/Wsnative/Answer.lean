import ApiLoad.Wsnative.Progress

/-!
# Terminal frames are answered

A terminal frame that the reader has looked up is offered to its turn until the turn has sent its
request and comes to its loop. The turn gets there if it is scheduled and if the other turns give up
the right to write, and then it takes the frame and passes it to `emit`.
-/
namespace ApiLoad.Wsnative
open Foundation Execution Foundation.Transition TurnState Option

namespace Session
variable {s s' : Session} {t u : TurnID} {T : Turn} {f : Frame} {action : Action}

/-! ## The right to write -/

theorem writing_of_reachable {header : Header} (h : Reachable header s) : s.Writing := by
  have start : (newSession header).Writing :=
    ⟨fun u held => by simp [newSession] at held, fun u U hU => by simp [newSession] at hU⟩
  exact h.invariant start fun _ _ _ h hs => ((step_moves hs).hands h).writing

/-- A turn that has the right to write goes on to send. -/
theorem Writing.rank (h : s.Writing) (hu : s.writing = some u) (hs : s.step action = some s') :
    turnRank u s' ≤ turnRank u s ∧ (action.own u = true → turnRank u s' < turnRank u s) := by
  obtain ⟨U, hU, writes⟩ := h.writer u hu
  obtain ⟨U', hU', -, le, lt⟩ := (step_moves hs).turn u U hU
  have other : action ≠ .handOver u := by
    rintro rfl
    have busy : U.state ≠ .waiting := by
      intro state
      simp [state, TurnState.writes] at writes
    simp only [step, ofTurn, hU, bind_some, handOverStep, busy, false_and, and_false,
      if_false] at hs
    split at hs <;> cases hs
  simpa [turnRank, hU, hU'] using And.intro (le other) lt

def Free (s : Session) : Prop := s.writing = none

/-- The right to write is free, or a turn has it. -/
def Held (u : TurnID) (s : Session) : Prop := s.Writing ∧ (s.Free ∨ s.writing = some u)

/-- The right to write is given back again and again. -/
theorem eventually_free (run : Schedule Session.step) (fair : ∀ u, run.Fair (·.own u = true))
    (writing : (run.state n).Writing) : ∃ m ≥ n, (run.state m).Free := by
  cases hw : (run.state n).writing with
  | none => exact ⟨n, le_rfl, hw⟩
  | some u =>
    have entered : Held u (run.state n) := ⟨writing, .inr hw⟩
    refine run.eventually (fair u) (turnRank u) entered ?_ ?_ ?_ ?_
    · rintro l s s' ⟨h, held⟩ busy hs
      have hands := (step_moves hs).hands h
      exact ⟨hands.writing, (hands.back u (held.resolve_left busy)).symm⟩
    · rintro l s s' ⟨h, held⟩ busy hs
      exact (h.rank (held.resolve_left busy) hs).1
    · rintro l s s' ⟨h, held⟩ busy own hs
      exact (h.rank (held.resolve_left busy) hs).2 own
    · rintro s ⟨h, held⟩ busy
      obtain ⟨U, hU, writes⟩ := h.writer u (held.resolve_left busy)
      refine enabled_of_ready hU ?_
      cases state : U.state <;> simp_all [TurnState.writes, TurnState.ready]

/-! ## On the way to the answer -/

/-- The terminal frame of the turn has been emitted, or the turn has failed the session or left, or
somebody other than the reader has failed the session. -/
def resolved (t : TurnID) (s : Session) : Bool :=
  s.calls[t]?.any (fun T => T.final.isSome || T.faulted || T.abandoned) ||
    s.cause.any (· ≠ .reader)

/-- A terminal frame has been looked up and found to be for the turn. -/
structure Answerable (t : TurnID) (f : Frame) (s : Session) : Prop where
  sound : s.Sound
  writing : s.Writing
  found : ∃ l ∈ s.looked, l.slot = some t ∧ l.frame = f
  terminal : f.terminal = true ∧ f.reachesLimit = false

theorem Answerable.step (h : Answerable t f s) (hs : s.step action = some s') :
    Answerable t f s' := by
  obtain ⟨l, hl, found⟩ := h.found
  exact ⟨step_sound action h.sound hs, ((step_moves hs).hands h.writing).writing,
    ⟨l, (step_moves hs).extend.looked hl, found⟩, h.terminal⟩

/-- Where a turn is while its terminal frame is on the way. -/
def Approaching (t : TurnID) (f : Frame) (s : Session) (T : Turn) : Prop :=
  s.reader = .offering t f ∧ s.done = false ∧ (T.state = .registered ∨ T.state = .acquiring ∨
      T.state = .holding ∨ T.state = .sending ∨ T.state = .waiting) ∨
    (T.state = .checking f ∨ T.state = .emitting f) ∧
      (s.reader = .awaiting t false ∨ s.reader = .ended)

theorem Approaching.positive (h : Approaching t f s T) : 0 < T.state.rank := by
  obtain ⟨-, -, state | state | state | state | state⟩ | ⟨state | state, -⟩ := h <;>
    simp [state, rank]

theorem Answerable.approaching (h : Answerable t f s) (open' : resolved t s = false) :
    ∃ T, s.calls[t]? = some T ∧ Approaching t f s T := by
  obtain ⟨l, hl, slot, rfl⟩ := h.found
  obtain ⟨T, hT⟩ := isSome_iff_exists.mp (h.sound.tracked.known l hl t slot)
  have own := h.sound.tracked.turn t T hT
  simp only [resolved, hT, any_some, Bool.or_eq_false_iff] at open'
  obtain ⟨⟨⟨final, faulted⟩, abandoned⟩, others⟩ := open'
  have others (actor : Actor) (cause : s.cause = some actor) : actor = .reader := by
    simpa [cause] using others
  have alone : ¬ ∃ actor, s.view.cause = some actor ∧ actor ≠ .reader := by
    rintro ⟨actor, cause, other⟩
    exact other (others actor cause)
  have unfinished : T.final = none := by simpa using final
  refine ⟨T, hT, ?_⟩
  have settled := own.settled l hl slot h.terminal.1 h.terminal.2
  simp only [Settled, faulted, abandoned, unfinished, alone] at settled
  obtain offering | settled := settled
  · have offering : s.reader = .offering t l.frame := offering
    have started := (own.offered (by simp [view, offering, ReaderState.pending])).1
    -- The reader has not failed the session, and nobody else has.
    have live : s.done = false := by
      by_contra done
      obtain ⟨actor, cause, other⟩ := h.sound.shutdown.by_other (by simpa using done)
        (by simp [offering, ReaderState.stopped])
      exact other (others actor cause)
    have left : T.state.left = false := by
      by_contra gone
      have := own.left started unfinished (by simpa using gone)
      simp [abandoned, view, live] at this
    have item : T.state.item.isSome = false := by
      rw [Bool.eq_false_iff]
      intro busy
      have := own.item busy
      simp [view, offering] at this
    refine .inl ⟨offering, live, ?_⟩
    cases hs : T.state with
    | registered | acquiring | holding | sending | waiting => simp
    | called => simp [own.unstarted hs] at started
    | failing e => simp [h.writing.faults t T hT e hs] at faulted
    | checking | emitting | completed | closing => simp [hs, TurnState.item] at item
    | leaving | unregistering | returned => simp [hs, TurnState.left] at left
    | stopping =>
      have := own.orderly.concluded (by simp [hs, concluded]) (by simp [hs])
      simp [unfinished] at this
  · refine .inr ⟨by simpa using settled, ?_⟩
    have busy : T.state.item.isSome := by
      obtain state | state := (by simpa using settled : T.state = _ ∨ T.state = _) <;>
        simp [state, TurnState.item]
    exact own.item busy

/-- How far the turn is from the answer. -/
def distance (t : TurnID) (s : Session) : Nat :=
  if resolved t s then 0 else 20 * (s.reader.pending t).length + turnRank t s

theorem Answerable.resolved_of_zero (h : Answerable t f s) (zero : distance t s = 0) :
    resolved t s = true := by
  by_contra open'
  obtain ⟨T, hT, approaching⟩ := h.approaching (by simpa using open')
  have positive := approaching.positive
  simp [distance, open', turnRank, hT] at zero
  omega

theorem Answerable.lower (h : Answerable t f s) (open' : resolved t s = false)
    (hs : s.step action = some s') : distance t s' ≤ distance t s ∧
      (action.own t = true ∨ action = .handOver t → distance t s' < distance t s) := by
  obtain ⟨T, hT, approaching⟩ := h.approaching open'
  obtain ⟨T', hT', -, le, lt⟩ := (step_moves hs).turn t T hT
  have here : distance t s = 20 * (s.reader.pending t).length + T.state.rank := by
    simp [distance, open', turnRank, hT]
  have positive := approaching.positive
  by_cases after : resolved t s'
  · rw [here, distance, if_pos after]
    exact ⟨Nat.zero_le _, fun _ => by omega⟩
  have there : distance t s' = 20 * (s'.reader.pending t).length + T'.state.rank := by
    simp [distance, after, turnRank, hT']
  -- A frame on the way to the turn is not offered a second time.
  have fewer : (s'.reader.pending t).length ≤ (s.reader.pending t).length := by
    cases hr : s'.reader with
    | offering t' g =>
      by_cases mine : t' = t
      · subst mine
        obtain same | ⟨lane, parsed⟩ := (step_moves hs).extend.offers t' g hr
        · rw [same]
        · obtain ⟨offering, -⟩ | ⟨-, reader | reader⟩ := approaching <;> simp_all
      · simp [ReaderState.pending, mine]
    | _ => simp [ReaderState.pending]
  by_cases handed : action = .handOver t
  · subst handed
    simp only [Session.step, ofTurn, hT, bind_some, handOverStep] at hs
    split at hs
    swap
    · cases hs
    rename_i t' g offering
    obtain ⟨⟨rfl, state, -⟩, rfl⟩ := of_guard hs
    obtain rfl : _ = T' := by simpa [Session.put] using hT'
    rw [here, there, offering, state]
    simp [ReaderState.pending, rank, Session.put]
  rw [here, there]
  have := le handed
  refine ⟨by omega, fun moved => ?_⟩
  have := lt (moved.resolve_right handed)
  omega

/-- The turn can go on by itself, or it can be handed the frame, or it waits for the right to write.
The distance tells which. -/
theorem Answerable.next (h : Answerable t f s) (open' : resolved t s = false) :
    (∃ action : Action, action.own t = true ∧ (s.step action).isSome) ∧
        distance t s ≠ 26 ∧ distance t s ≠ 32 ∨
      (s.step (.handOver t)).isSome ∧ distance t s = 26 ∨
      (∃ T, s.calls[t]? = some T ∧ T.state = .acquiring) ∧ distance t s = 32 := by
  obtain ⟨T, hT, approaching⟩ := h.approaching open'
  have here : distance t s = 20 * (s.reader.pending t).length + T.state.rank := by
    simp [distance, open', turnRank, hT]
  obtain ⟨offering, live, state⟩ | ⟨state, reader⟩ := approaching
  · have offered : (s.reader.pending t).length = 1 := by simp [offering, ReaderState.pending]
    rw [offered] at here
    obtain state | state | state | state | state := state
    all_goals simp only [state, rank] at here
    · exact .inl ⟨enabled_of_ready hT (by rw [state]; rfl), by omega, by omega⟩
    · exact .inr (.inr ⟨⟨T, hT, state⟩, here⟩)
    · exact .inl ⟨enabled_of_ready hT (by rw [state]; rfl), by omega, by omega⟩
    · exact .inl ⟨enabled_of_ready hT (by rw [state]; rfl), by omega, by omega⟩
    · refine .inr (.inl ⟨?_, here⟩)
      simp [Session.step, ofTurn, hT, handOverStep, offering, state, live]
  · have taken : (s.reader.pending t).length = 0 := by
      obtain reader | reader := reader <;> simp [reader, ReaderState.pending]
    rw [taken] at here
    obtain state | state := state
    all_goals
      simp only [state, rank] at here
      exact .inl ⟨enabled_of_ready hT (by rw [state]; rfl), by omega, by omega⟩

/-- The parties that a turn depends on are scheduled: the turn itself, with the calls that it makes
returning, the other turns that may have the right to write, and the hand-over. A turn that finds
the right to write free again and again gets it. -/
structure FairTo (t : TurnID) (run : Schedule Session.step) : Prop where
  turns : ∀ u, run.Fair (·.own u = true)
  handOver : run.Fair (· = .handOver t)
  acquire : run.StronglyFair (· = .acquire t)

theorem eventually_resolved (run : Schedule Session.step) (fair : FairTo t run)
    (h : Answerable t f (run.state n)) : ∃ m ≥ n, resolved t (run.state m) = true := by
  have phase (m : Nat) (hm : n ≤ m) : Answerable t f (run.state m) :=
    run.onwards hm (fun _ _ _ _ h hs => h.step hs) h
  suffices ∃ m ≥ n, distance t (run.state m) = 0 by
    obtain ⟨m, hm, zero⟩ := this
    exact ⟨m, hm, (phase m hm).resolved_of_zero zero⟩
  refine run.eventually_zero (distance t) fun m hm nonzero => ?_
  by_contra stuck
  have unresolved (k : Nat) (hk : m ≤ k) : resolved t (run.state k) = false := by
    by_contra resolved
    refine stuck ⟨k, hk, ?_⟩
    rw [distance, if_pos (by simpa using resolved)]
    omega
  -- Otherwise the distance would stay as it is, although a step that lowers it is taken.
  have same (k : Nat) (hk : m ≤ k) : distance t (run.state k) = distance t (run.state m) := by
    refine Nat.le_antisymm ?_ (Nat.not_lt.mp fun less => stuck ⟨k, hk, less⟩)
    refine run.onwards (P := fun s => distance t s ≤ distance t (run.state m)) hk ?_ le_rfl
    intro j hj l s' h hs
    exact ((phase j (hm.trans hj)).lower (unresolved j hj) hs).1.trans h
  have still (k : Nat) (hk : m ≤ k) (l : Action) (hl : run.label k = some l) :
      ¬ (l.own t = true ∨ l = .handOver t) := by
    intro moved
    have next := run.next k
    simp only [hl] at next
    have less := ((phase k (hm.trans hk)).lower (unresolved k hk) next).2 moved
    rw [same k hk, same (k + 1) (by omega)] at less
    omega
  have next (k : Nat) (hk : m ≤ k) := (phase k (hm.trans hk)).next (unresolved k hk)
  by_cases handed : distance t (run.state m) = 26
  · obtain ⟨k, hk, l, hl, rfl⟩ := fair.handOver m fun k hk => by
      obtain ⟨-, other, -⟩ | ⟨enabled, -⟩ | ⟨-, other⟩ := next k hk
      · exact absurd ((same k hk).trans handed) other
      · exact ⟨_, rfl, enabled⟩
      · have := same k hk
        omega
    exact still k hk _ hl (.inr rfl)
  by_cases waits : distance t (run.state m) = 32
  · obtain ⟨k, hk, l, hl, rfl⟩ := fair.acquire m fun k hk => by
      obtain ⟨j, hj, free⟩ := eventually_free run fair.turns (phase k (hm.trans hk)).writing
      have there := same j (hk.trans hj)
      obtain ⟨-, -, other⟩ | ⟨-, other⟩ | ⟨⟨T, hT, acquiring⟩, -⟩ := next j (hk.trans hj)
      · omega
      · omega
      · refine ⟨j, hj, _, rfl, ?_⟩
        have free : (run.state j).writing = none := free
        simp [step, ofTurn, hT, acquireStep, acquiring, free]
    exact still k hk _ hl (.inl (by simp [Action.own]))
  · obtain ⟨k, hk, l, hl, own⟩ := fair.turns t m fun k hk => by
      have there := same k hk
      obtain ⟨enabled, -⟩ | ⟨-, other⟩ | ⟨-, other⟩ := next k hk
      · exact enabled
      · omega
      · omega
    exact still k hk _ hl (.inl own)

/-- Nobody but the reader fails the session, and the turn does not leave, before the frame has been
emitted. -/
def Undisturbed (t : TurnID) (f : Frame) (run : Schedule Session.step) : Prop :=
  ∀ n T, (run.state n).calls[t]? = some T → (f, .succeeded) ∉ T.emits →
    (T.faulted = false ∧ T.abandoned = false) ∧
      ∀ actor, (run.state n).cause = some actor → actor = .reader

/-- A turn returns without its terminal answer only if it has failed the session or left early
itself, or somebody other than the reader has failed the session. -/
theorem Sound.answered (h : s.Sound) (hT : s.calls[t]? = some T) {l : Lookup} (hl : l ∈ s.looked)
    (slot : l.slot = some t) (terminal : l.frame.terminal = true)
    (limit : l.frame.reachesLimit = false) (returned : T.state = .returned)
    (own : T.faulted = false ∧ T.abandoned = false)
    (others : ∀ actor, s.cause = some actor → actor = .reader) : T.final = some l.frame := by
  have sound := h.tracked.turn t T hT
  have settled := sound.settled l hl slot terminal limit
  simp only [Settled, returned, own.1, own.2] at settled
  obtain offering | settled := settled
  · -- The turn would have left because the session had ended, which the reader did not do.
    have pending : s.view.reader.pending t ≠ [] := by simp [offering, ReaderState.pending]
    obtain ⟨started, unfinished⟩ := sound.offered pending
    have done := (sound.left started unfinished (by simp [returned, TurnState.left])).resolve_left
      (by simp [own.2])
    obtain ⟨actor, cause, other⟩ := h.shutdown.by_other done (by
      have : s.reader = .offering t l.frame := offering
      simp [this, ReaderState.stopped])
    exact absurd (others actor cause) other
  · have others : ¬ ∃ actor, s.view.cause = some actor ∧ actor ≠ .reader := by
      rintro ⟨actor, cause, other⟩
      exact other (others actor cause)
    simpa [others] using settled

/-- Under a fair schedule, a terminal frame that has been looked up is emitted, and the turn returns
with its result. -/
theorem eventually_answered (run : Schedule Session.step) (fair : FairTo t run)
    (h : Answerable t f (run.state n)) (undisturbed : Undisturbed t f run) :
    ∃ m ≥ n, ∃ T, (run.state m).calls[t]? = some T ∧ T.state = .returned ∧
      (f, .succeeded) ∈ T.emits ∧ T.result.error = terminalError T.responseID f := by
  have phase (m : Nat) (hm : n ≤ m) : Answerable t f (run.state m) :=
    run.onwards hm (fun _ _ _ _ h hs => h.step hs) h
  obtain ⟨m, hm, resolved⟩ := eventually_resolved run fair h
  have concluding : Concluding t (run.state m) := by
    obtain ⟨l, hl, slot, rfl⟩ := (phase m hm).found
    have sound := (phase m hm).sound
    obtain ⟨T, hT⟩ := isSome_iff_exists.mp (sound.tracked.known l hl t slot)
    refine ⟨sound, T, hT, .inr ?_⟩
    by_cases emitted : (l.frame, .succeeded) ∈ T.emits
    · rw [((sound.tracked.turn t T hT).orderly.final l.frame).mpr ⟨emitted, h.terminal.1⟩]
      rfl
    · obtain ⟨own, others⟩ := undisturbed m T hT emitted
      have alone : (run.state m).cause.any (· ≠ .reader) = false := by
        rw [Bool.eq_false_iff]
        intro other
        obtain ⟨actor, cause, differs⟩ := (any_eq_true _ _).mp other
        simp [others actor cause] at differs
      rw [Session.resolved, alone, hT, any_some, own.1, own.2] at resolved
      simpa using resolved
  obtain ⟨k, hk, T, hT, returned⟩ := eventually_returned run (fair.turns t) concluding
  have later := phase k (hm.trans hk)
  have orderly := (later.sound.tracked.turn t T hT).orderly
  have emitted : (f, .succeeded) ∈ T.emits := by
    by_contra missing
    obtain ⟨own, others⟩ := undisturbed k T hT missing
    obtain ⟨l, hl, slot, rfl⟩ := later.found
    have final := later.sound.answered hT hl slot h.terminal.1 h.terminal.2 returned own others
    exact missing ((orderly.final _).mp final).1
  have final := (orderly.final f).mpr ⟨emitted, h.terminal.1⟩
  exact ⟨k, hm.trans hk, T, hT, returned, emitted, (orderly.result f final).2⟩

end Session
end ApiLoad.Wsnative
