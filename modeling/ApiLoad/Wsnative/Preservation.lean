import ApiLoad.Wsnative.Invariant

/-!
# The invariant is kept

Every step of every party keeps the invariant of a session, and a new session has it.
-/
namespace ApiLoad.Wsnative
open Foundation Transition Execution OrderedMap TurnState List Option

attribute [local simp] left early item concluded
  isRegistered ReaderState.stopped ReaderState.pending Turn.fault Once.recorded

variable {v : View} {s s' : Session} {t : TurnID} {T T' : Turn}

/-! ## The calls of `emit` -/

variable {done : Bool}

theorem Orderly.unfinished (h : Orderly done T) (running : T.state.concluded = false) :
    T.final = none := by
  rw [eq_none_iff_forall_ne_some]
  intro f hf
  have concluded := (h.result f hf).1
  simp [-TurnState.concluded, running] at concluded

theorem Orderly.early (h : Orderly done T) (early : T.state.early = true) :
    T.received = [] ∧ T.emits = [] ∧ T.final = none := by
  have phase := h.phase
  have unfinished := h.unfinished
  cases hs : T.state <;> simp_all

/-- A turn that has not received a frame. -/
theorem Orderly.blank (received : T.received = []) (emits : T.emits = []) (final : T.final = none)
    (item : T.state.item = none) (concluded : T.state.concluded = true → T.state = .returned) :
    Orderly done T where
  emitted := by simp [emits]
  passed := by simp [emits]
  phase := by cases hs : T.state <;> simp_all
  final := by simp [emits, final]
  result := by simp [final]
  concluded := by grind

/-- A step after which no frame is passed on any more. -/
theorem Orderly.over (h : Orderly done T)
    (same : T'.received = T.received ∧ T'.emits = T.emits ∧ T'.final = T.final)
    (state : T'.state.early = false ∧ T'.state.item = none)
    (waiting : T'.state = .waiting → done = true)
    (result : ∀ f, T.final = some f → T.state.concluded = true → T'.state.concluded = true ∧
      T'.result.error = T.result.error ∧ T'.responseID = T.responseID)
    (concluded : T'.state.concluded = true → T'.state ≠ .returned → T.final.isSome) :
    Orderly done T' := by
  obtain ⟨received, emits, final⟩ := same
  refine ⟨by rw [received, emits]; exact h.emitted, by rw [emits]; exact h.passed, ?_,
    by rw [final, emits]; exact h.final, ?_, by rw [final]; exact concluded⟩
  · cases hs : T'.state <;> simp_all
  intro f hf
  rw [final] at hf
  obtain ⟨hc, he⟩ := h.result f hf
  obtain ⟨hc', he', hid⟩ := result f hf hc
  exact ⟨hc', by rw [he', hid, he]⟩

/-- A step before the loop of a turn: the turn goes on, fails the session, or leaves for a
reason. -/
theorem TurnSound.early (h : TurnSound v t T) (early : T.state.early = true)
    (called : T.state ≠ .called)
    (same : T'.lane = T.lane ∧ T'.start = T.start ∧ T'.slotClosed = T.slotClosed ∧
      T'.received = T.received ∧ T'.emits = T.emits ∧ T'.final = T.final)
    (next : T'.state ∈ [.acquiring, .holding] ∧ T'.alarm = .unset ∨
      T'.state ∈ [.sending, .waiting] ∨
      (∃ e, T'.state = .failing e) ∨ T'.state = .leaving ∧ (T'.abandoned = true ∨ v.done = true))
    (faulted : T.faulted = true → T'.faulted = true)
    (abandoned : T.abandoned = true → T'.abandoned = true) : TurnSound v t T' := by
  obtain ⟨lane, start, slotClosed, received, emits, final⟩ := same
  obtain ⟨hr, he, hf⟩ := h.orderly.early early
  have registered : T.state.isRegistered = true := by
    cases hs : T.state <;> simp_all
  have shape : T'.state.isRegistered = true ∧ T'.state ≠ .called ∧ T'.state.item = none ∧
      T'.state.concluded = false ∧
        (T'.state.early = true → T'.state ≠ .sending → T'.alarm = .unset) ∧
      (T'.state.left = true → T'.abandoned = true ∨ v.done = true) := by
    cases hs : T'.state <;> simp_all
  obtain ⟨registered', called', item, concluded, unarmed, left⟩ := shape
  refine h.move (Orderly.blank (received.trans hr) (emits.trans he) (final.trans hf) item
    (by simp [-TurnState.concluded, concluded])) ⟨lane, start, slotClosed, received⟩
    (registered'.trans registered.symm)
    (Or.inl called') unarmed (by simp [-TurnState.item, item]) (Or.inl final)
    (fun _ _ hl => left hl) ?_
  intro f _ hf
  cases hs : T.state <;> grind [TurnState.early]

/-! ## Frames for a turn -/

theorem heard_append {looked : List Lookup} (bound : ∀ n, T.start = some n → n ≤ looked.length)
    (l : Lookup) : heard (looked ++ [l]) T =
      heard looked T ++ if T.start.isSome ∧ l.lane = T.lane then [l.frame] else [] := by
  cases start : T.start with
  | none => simp [heard, start]
  | some n =>
    simp only [heard, start, drop_append_of_le_length (bound n start), filter_append, map_append]
    split <;> simp_all

/-- A frame is looked up. The turn is offered the frame if it is registered on the frame's lane. -/
theorem TurnSound.lookUp {v' : View} (h : TurnSound v t T) (parsed : v.reader = .parsed lane f)
    (mine : v.turns[lane]? = some t → T.lane = lane)
    (looked : v'.looked = v.looked ++ [⟨lane, f, v.turns[lane]?⟩])
    (same : v'.turns = v.turns ∧ v'.done = v.done ∧ v'.cause = v.cause)
    (offer : f.reachesLimit = false → v.turns[lane]? = some t → v'.reader = .offering t f)
    (noOffer : f.reachesLimit = true ∨ v.turns[lane]? ≠ some t → v'.reader.pending t = [])
    (limit : f.reachesLimit = true → v'.reader.stopped = true) : TurnSound v' t T := by
  obtain ⟨turns, done, cause⟩ := same
  have noItem : T.state.item.isSome = false := by
    have := h.item
    grind
  have noFinal (registered : T.state.isRegistered = true) : T.final = none := by
    refine h.orderly.unfinished ?_
    cases hs : T.state <;> simp_all
  have forMe : v.turns[lane]? = some t ↔ T.state.isRegistered = true ∧ lane = T.lane := by
    rw [← h.listed]
    constructor
    · intro hl
      have hlane := mine hl
      exact ⟨hlane ▸ hl, hlane.symm⟩
    · rintro ⟨hl, rfl⟩
      exact hl
  have grown := heard_append h.bound (⟨lane, f, v.turns[lane]?⟩ : Lookup)
  refine {
    orderly := by rw [done]; exact h.orderly
    listed := by rw [turns]; exact h.listed
    started := h.started
    unstarted := h.unstarted
    bound := by
      intro n hn
      have := h.bound n hn
      simp only [looked, length_append]
      omega
    unarmed := h.unarmed
    slotClosed := h.slotClosed
    item := by simp [-TurnState.item, noItem]
    heard := by
      rw [looked, grown]
      exact h.heard.trans (prefix_append _ _)
    caught := ?_
    offered := ?_
    left := by rw [done]; exact h.left
    known := ?_
    settled := ?_ }
  · intro registered live
    have before : Wsnative.heard v.looked T = T.received := by
      simpa [parsed] using h.caught registered (by simp [parsed])
    rw [looked, grown, before]
    by_cases hl : lane = T.lane
    · have hlimit : f.reachesLimit = false := by
        by_contra hf
        simp [-ReaderState.stopped, limit (by simpa using hf)] at live
      rw [offer hlimit (forMe.mpr ⟨registered, hl⟩)]
      simp [hl, h.started registered]
    · rw [noOffer (Or.inr fun hm => hl (forMe.mp hm).2)]
      simp [hl]
  · intro hp
    have hm : v.turns[lane]? = some t := by
      by_contra hm
      exact hp (noOffer (Or.inr hm))
    have registered := (forMe.mp hm).1
    exact ⟨h.started registered, noFinal registered⟩
  · intro l hl hslot
    rw [looked, mem_append, mem_singleton] at hl
    obtain hl | rfl := hl
    · exact h.known l hl hslot
    · exact h.started (forMe.mp hslot).1
  · intro l hl hslot hterm hlimit
    rw [looked, mem_append, mem_singleton] at hl
    obtain hl | rfl := hl
    · have settled := h.settled l hl hslot hterm hlimit
      simp only [Settled, parsed, cause] at settled ⊢
      grind
    · exact Or.inl (offer hlimit hslot)

namespace Session

/-! ## Steps of the reader -/

variable {reads : List Message} {actor : Actor} {writing : Option TurnID}

/-- A step of the reader that looks up no frame. -/
theorem Sound.reader (h : s.Sound) {r : ReaderState}
    (live : s.reader.stopped = true → s.once = .finished ∧ r.stopped = true)
    (ended : r = .ended → s.done = true) (stays : s.reader = .ended → r = .ended)
    (offers : ∀ t f, r = .offering t f → s.reader = .offering t f)
    (item : ∀ t T, s.calls[t]? = some T → T.state.item.isSome → s.reader = .awaiting t false → r =
      .awaiting t false ∨ r = .ended)
    (pending : ∀ t T, s.calls[t]? = some T → r.pending t = s.reader.pending t ∨ r.stopped = true ∧
      r.pending t = [] ∧ ∀ f ∈ s.reader.pending t, T.abandoned = true ∨ ∃ actor, s.cause = some
      actor ∧ actor ≠ .reader) :
    { s with reader := r, reads }.Sound where
  shutdown := h.shutdown.calm (Calm.reader live ended fun _ hl _ => Or.inl hl)
  tracked :=
    { h.tracked with
      turn := fun t T hT => (h.tracked.turn t T hT).frame rfl Iff.rfl id (fun _ => id) (item t T hT)
        stays (by simp only [view]; grind) (pending t T hT)
      offered := fun t f hr => h.tracked.offered t f (offers t f hr) }

/-- A reader that is about to read offers nothing and waits for nothing. -/
theorem Sound.fromReading (h : s.Sound) (reading : s.reader = .reading) (ended : r ≠ .ended)
    (pending : ∀ t, r.pending t = []) : { s with reader := r, reads }.Sound :=
  h.reader (by simp [reading]) (fun hr => absurd hr ended) (by simp [reading])
    (fun t f hr => by simp [hr] at pending) (by simp [reading])
    (fun t _ _ => Or.inl ((pending t).trans (by simp [reading])))

theorem readStep_sound (h : s.Sound) (hs : s.readStep m = some s') : s'.Sound := by
  obtain ⟨reading, rfl⟩ := of_guard hs
  cases route m with
  | error e | ok routed => exact h.fromReading reading (by simp) (fun _ => rfl)

/-- The reader gives up a frame because its turn has gone. -/
theorem slotClosedStep_sound (h : s.Sound) (hs : s.slotClosedStep = some s') : s'.Sound := by
  unfold slotClosedStep at hs
  split at hs
  swap
  · cases hs
  rename_i t f offering
  obtain ⟨closed, rfl⟩ := of_guard hs
  refine h.reader (by simp [offering]) (by simp) (by simp [offering])
    (by simp) (by simp [offering]) ?_
  intro u U hU
  refine Or.inr ⟨rfl, rfl, ?_⟩
  intro g hg
  have own := h.tracked.turn u U hU
  obtain rfl : t = u := by
    simpa [offering] using ne_nil_of_mem hg
  simp only [hU, any_some] at closed
  -- The turn has returned without a terminal frame, so its context or the session had ended.
  obtain ⟨gone, started⟩ := own.slotClosed closed
  have final : U.final = none := (own.offered (ne_nil_of_mem hg)).2
  have left : U.state.left = true := by
    have unstarted := own.unstarted
    have concluded := own.orderly.concluded
    cases hs : U.state <;>
      simp_all
  exact (own.left started final left).imp id
    fun done => h.shutdown.by_other done (by simp [offering])

theorem readerDoneStep_sound (h : s.Sound) (hs : s.readerDoneStep = some s') : s'.Sound := by
  obtain ⟨done, hs⟩ := ite_none_right_eq_some.mp hs
  have leave (live : s.reader.stopped = false) (notEnded : s.reader ≠ .ended) :
      { s with reader := .ended }.Sound :=
    h.reader (by simp [-ReaderState.stopped, live]) (fun _ => done) (fun _ => rfl) (by simp)
      (fun _ _ _ _ _ => Or.inr rfl)
      fun t T _ => Or.inr ⟨rfl, rfl, fun _ _ => Or.inr (h.shutdown.by_other done live)⟩
  split at hs
  · rename_i offering
    cases hs
    exact leave (by simp [offering]) (by simp [offering])
  · rename_i awaiting
    cases hs
    exact leave (by simp [awaiting]) (by simp [awaiting])
  · cases hs

theorem acknowledged_sound (h : s.Sound) (free : ∀ T, s.calls[t]? = some T → T.state.item = none) :
    (s.acknowledged t).Sound := by
  unfold acknowledged
  split
  swap
  · exact h
  rename_i awaiting
  refine h.reader (by simp [awaiting]) (by simp) (by simp [awaiting]) (by simp)
    ?_ (by simp [awaiting])
  intro u U hU hi hr
  obtain rfl : t = u := by simpa [awaiting] using hr
  simp [-item, free U hU] at hi

theorem lookUpStep_sound (h : s.Sound) (hs : s.lookUpStep = some s') : s'.Sound := by
  unfold lookUpStep at hs
  split at hs
  swap
  · cases hs
  rename_i lane f parsed
  cases hs
  refine ⟨h.shutdown.calm (Calm.reader (by simp [parsed]) ?_ ?_), ?_, ?_, ?_, ?_⟩
  · cases s.turns[lane]? <;> dsimp only <;> grind
  · intro l hl hslot
    rw [mem_append, mem_singleton] at hl
    obtain hl | rfl := hl
    · exact Or.inl hl
    · simp only at hslot
      simp [hslot]
  · intro t T hT
    have mine (hl : s.turns[lane]? = some t) : T.lane = lane := by
      obtain ⟨T', hT', hlane⟩ := h.tracked.listed lane t hl
      grind
    refine (h.tracked.turn t T hT).lookUp parsed mine rfl ⟨rfl, rfl, rfl⟩ ?_ ?_ ?_ <;>
      simp only [view]
    · intro hlimit hm
      simp [hm, hlimit]
    · intro hn
      cases hm : s.turns[lane]? <;> grind [ReaderState.pending]
    · intro hlimit
      cases hm : s.turns[lane]? <;> simp [hlimit]
  · exact h.tracked.listed
  · intro l hl t hslot
    rw [mem_append, mem_singleton] at hl
    obtain hl | rfl := hl
    · exact h.tracked.known l hl t hslot
    · obtain ⟨T, hT, -⟩ := h.tracked.listed lane t hslot
      simp [hT]
  · intro t g hr
    cases hm : s.turns[lane]? with
    | none => simp [hm] at hr
    | some u =>
      obtain ⟨T, hT, -⟩ := h.tracked.listed lane u hm
      grind

/-! ## Steps of a turn -/

/-- A step of one turn leaves the others as they were. -/
theorem Tracked.update (h : s.Tracked) (calls : s'.calls = s.calls.insert t T')
    (lane : ∀ T, s.calls[t]? = some T → T'.lane = T.lane) (looked : s'.looked = s.looked)
    (turns : ∀ lane u, s'.turns[lane]? = some u → s.turns[lane]? = some u ∨ lane = T'.lane ∧ u = t)
    (offers : ∀ u f, s'.reader = .offering u f → s.reader = .offering u f)
    (own : TurnSound s'.view t T')
    (others : ∀ u U, u ≠ t → s.calls[u]? = some U → TurnSound s'.view u U) : s'.Tracked where
  turn u U hU := by
    rw [calls, lookup_insert] at hU
    split at hU
    · rename_i hu
      cases hU
      exact hu ▸ own
    · exact others u U (by grind) hU
  listed l u hl := by
    rw [calls, lookup_insert]
    obtain hl | ⟨rfl, rfl⟩ := turns l u hl
    · obtain ⟨U, hU, hlane⟩ := h.listed l u hl
      by_cases hu : t = u
      · exact ⟨T', by simp [hu], (lane U (hu ▸ hU)).trans hlane⟩
      · exact ⟨U, by simp [hu, hU], hlane⟩
    · exact ⟨T', by simp, rfl⟩
  known l hl u hu := by
    rw [looked] at hl
    have := h.known l hl u hu
    rw [calls, lookup_insert]
    grind
  offered u f hr := by
    have := h.offered u f (offers u f hr)
    rw [calls, lookup_insert]
    grind

section

variable (h : s.Sound) (hT : s.calls[t]? = some T)
include h hT

/-- A step of one turn of which the others see nothing. -/
theorem Sound.put (own : TurnSound s.view t T') (lane : T'.lane = T.lane)
    (state : ∀ e, T.state = .failing e → T'.state = .failing e ∨ s.once = .finished)
    (alarm : ∀ e, T.alarm = .firing e → T'.alarm = .firing e ∨ s.once = .finished) :
    ({ s with writing }.put t T').Sound := by
  refine ⟨h.shutdown.calm (Calm.turn rfl ?_ (Or.inl rfl) ⟨rfl, rfl, rfl, rfl, rfl, rfl⟩),
    h.tracked.update rfl ?_ rfl (fun _ _ => Or.inl) (fun _ _ => id) own
      fun u U _ hU => h.tracked.turn u U hU⟩
  · grind
  · grind

/-- The steps of a turn before its loop. -/
theorem Sound.early (early : T.state.early = true) (called : T.state ≠ .called)
    (same : T'.lane = T.lane ∧ T'.start = T.start ∧ T'.slotClosed = T.slotClosed ∧
      T'.received = T.received ∧ T'.emits = T.emits ∧ T'.final = T.final)
    (next : T'.state ∈ [.acquiring, .holding] ∧ T'.alarm = .unset ∨
      T'.state ∈ [.sending, .waiting] ∨
      (∃ e, T'.state = .failing e) ∨ T'.state = .leaving ∧ (T'.abandoned = true ∨ s.done = true))
    (alarm : T'.alarm = T.alarm ∨ T.alarm = .unset) (faulted : T.faulted = true → T'.faulted = true)
    (abandoned : T.abandoned = true → T'.abandoned = true) :
    ({ s with writing }.put t T').Sound := by
  have own := (h.tracked.turn t T hT).early early called same next faulted abandoned
  refine h.put hT own same.1 ?_ (by grind)
  intro e he
  simp [he] at early

/-- The turn leaves because its context has ended. -/
theorem Sound.abandon (early : T.state.early = true) (called : T.state ≠ .called)
    (c : ContextError) : ({ s with writing }.put t (T.abandon c)).Sound :=
  h.early hT early called ⟨rfl, rfl, rfl, rfl, rfl, rfl⟩ (by simp [Turn.abandon, Turn.leave])
    (Or.inl rfl) id (fun _ => rfl)

theorem checkContextStep_sound (hs : s.checkContextStep t T = some s') : s'.Sound := by
  obtain ⟨state, rfl⟩ := of_guard hs
  have early : T.state.early = true := by simp [state]
  have called : T.state ≠ .called := by simp [state]
  have unarmed := (h.tracked.turn t T hT).unarmed early (by simp [state])
  cases T.context with
  | none =>
    exact h.early hT early called ⟨rfl, rfl, rfl, rfl, rfl, rfl⟩ (by simp [unarmed])
      (Or.inl rfl) id id
  | some c => exact h.abandon hT early called c

theorem acquireStep_sound (hs : s.acquireStep t T = some s') : s'.Sound := by
  obtain ⟨acquiring, rfl⟩ := of_guard hs
  have early : T.state.early = true := by simp [acquiring.1]
  have unarmed := (h.tracked.turn t T hT).unarmed early (by simp [acquiring.1])
  exact h.early hT early (by simp [acquiring.1]) ⟨rfl, rfl, rfl, rfl, rfl, rfl⟩
    (by simp [unarmed]) (Or.inl rfl) id id

theorem acquireCanceledStep_sound (hs : s.acquireCanceledStep t T = some s') : s'.Sound := by
  unfold acquireCanceledStep at hs
  split at hs
  · obtain ⟨state, rfl⟩ := of_guard hs
    exact h.abandon hT (by simp [state]) (by simp [state]) _
  · cases hs

theorem acquireDoneStep_sound (hs : s.acquireDoneStep t T = some s') : s'.Sound := by
  obtain ⟨acquiring, rfl⟩ := of_guard hs
  exact h.early hT (by simp [acquiring.1]) (by simp [acquiring.1]) ⟨rfl, rfl, rfl, rfl, rfl, rfl⟩
    (by simp [Turn.leave, acquiring.2]) (Or.inl rfl) id id

theorem beginStep_sound (hs : s.beginStep t T = some s') : s'.Sound := by
  obtain ⟨state, hs⟩ := ite_none_right_eq_some.mp hs
  have early : T.state.early = true := by simp [state]
  have called : T.state ≠ .called := by simp [state]
  have unarmed := (h.tracked.turn t T hT).unarmed early (by simp [state])
  split at hs
  · cases hs
    exact h.abandon hT early called _
  cases hs
  exact h.early hT early called ⟨rfl, rfl, rfl, rfl, rfl, rfl⟩ (by simp) (Or.inr unarmed) id id

end

theorem sendStep_sound (h : s.Sound) (hT : s.calls[t]? = some T)
    (hs : s.sendStep t T outcome = some s') : s'.Sound := by
  obtain ⟨state, rfl⟩ := of_guard hs
  have early : T.state.early = true := by simp [state]
  have called : T.state ≠ .called := by simp [state]
  cases outcome with
  | sent =>
    exact h.early hT early called ⟨rfl, rfl, rfl, rfl, rfl, rfl⟩ (by simp) (Or.inl rfl) id id
  | writeFailed | deadlineFailed =>
    exact h.early hT early called ⟨rfl, rfl, rfl, rfl, rfl, rfl⟩ (by simp) (Or.inl rfl) (by simp) id

/-! ### Calling and registering -/

theorem callStep_sound (h : s.Sound) (hs : s.callStep t request = some s') : s'.Sound := by
  obtain ⟨absent, rfl⟩ := of_guard hs
  have unlisted (lane : String) : s.turns[lane]? ≠ some t := by
    intro hl
    obtain ⟨T, hT, -⟩ := h.tracked.listed lane t hl
    simp [absent] at hT
  have unknown : ∀ l ∈ s.looked, l.slot ≠ some t := by
    intro l hl hslot
    simpa [absent] using h.tracked.known l hl t hslot
  have unoffered : s.reader.pending t = [] := by
    by_contra hp
    obtain ⟨f, hf⟩ := exists_mem_of_ne_nil _ hp
    simpa [absent] using h.tracked.offered t f (ReaderState.mem_pending.mp hf)
  have fresh (T' : Turn) (hT' : T'.state = .called ∨ T'.state = .returned)
      (blank : T'.start = none ∧ T'.alarm = .unset ∧ T'.slotClosed = false ∧ T'.received = [] ∧
        T'.emits = [] ∧ T'.final = none) : (s.put t T').Sound := by
    obtain ⟨start, alarm, slotClosed, received, emits, final⟩ := blank
    refine ⟨h.shutdown.calm (Calm.turn rfl (by simp [absent]) (Or.inl rfl)
      ⟨rfl, rfl, rfl, rfl, rfl, rfl⟩), h.tracked.update rfl (by simp [absent]) rfl
      (fun _ _ hl => Or.inl hl) (fun _ _ hr => hr) ?_ (fun u U _ hU => h.tracked.turn u U hU)⟩
    refine {
      orderly := Orderly.blank received emits final ?_ ?_
      listed := ?_, started := ?_, unstarted := fun _ => start, bound := by simp [start]
      unarmed := fun _ _ => alarm, slotClosed := by simp [slotClosed], item := ?_
      heard := by simp [received], caught := ?_
      offered := fun hp => absurd unoffered hp, left := by simp [start]
      known := fun l hl hslot => absurd hslot (unknown l hl)
      settled := fun l hl hslot => absurd hslot (unknown l hl) }
    all_goals
      obtain hs | hs := hT' <;>
        simp [hs, unlisted, view, put]
  cases requestLane request with
  | error e => exact fresh _ (Or.inr rfl) ⟨rfl, rfl, rfl, rfl, rfl, rfl⟩
  | ok lane => exact fresh _ (Or.inl rfl) ⟨rfl, rfl, rfl, rfl, rfl, rfl⟩

theorem registerStep_sound (h : s.Sound) (hT : s.calls[t]? = some T)
    (hs : s.registerStep t T = some s') : s'.Sound := by
  obtain ⟨called, hs⟩ := ite_none_right_eq_some.mp hs
  have own := h.tracked.turn t T hT
  have early : T.state.early = true := by simp [called]
  have unstarted := own.unstarted called
  obtain ⟨hr, he, hf⟩ := own.orderly.early early
  have refused (e : ErrorEvidence) :
      (s.put t { T with
        state := .returned, result := { T.result with error := some e } }).Sound := by
    refine h.put hT (own.move (Orderly.blank hr he hf rfl (fun _ => rfl))
      ⟨rfl, rfl, rfl, rfl⟩ ?_ ?_ ?_ ?_ ?_ ?_ ?_) rfl ?_ ?_
    all_goals simp_all
  split at hs
  · cases hs
    exact refused _
  split at hs
  · cases hs
    exact refused _
  rename_i free
  cases hs
  rw [ne_eq, not_not] at free
  have unoffered : s.reader.pending t = [] := by
    by_contra hp
    simpa [unstarted] using (own.offered hp).1
  have unknown : ∀ l ∈ s.looked, l.slot ≠ some t := by
    intro l hl hslot
    simpa [unstarted] using own.known l hl hslot
  have opened : T.slotClosed = false := by
    by_contra hc
    simpa [unstarted] using (own.slotClosed (by simpa using hc)).2
  refine ⟨h.shutdown.calm (Calm.turn rfl ?_ (Or.inl rfl) ⟨rfl, rfl, rfl, rfl, rfl, rfl⟩),
    h.tracked.update rfl ?_ rfl ?_ (fun _ _ hr => hr) ?_ ?_⟩
  · intro U hU _
    simp_all
  · simp_all
  · intro lane u hl
    simp only [put, lookup_insert] at hl
    grind
  · refine {
      orderly := Orderly.blank hr he hf rfl (by simp)
      listed := by simp [view, put]
      started := fun _ => rfl, unstarted := by simp, bound := by simp [view, put]
      unarmed := fun _ _ => own.unarmed early (by simp [called])
      slotClosed := by simp [opened], item := by simp
      heard := by simp [hr], caught := ?_
      offered := fun hp => absurd unoffered hp, left := by simp
      known := fun l hl hslot => absurd hslot (unknown l hl)
      settled := fun l hl hslot => absurd hslot (unknown l hl) }
    intro _ _
    simp [-ReaderState.pending, heard, view, put, hr, unoffered]
  · intro u U hu hU
    refine (h.tracked.turn u U hU).frame rfl ?_ id (fun _ => id) (fun _ => Or.inl) id id
      (Or.inl rfl)
    simp only [view, put, lookup_insert]
    grind

/-! ### The loop of a turn -/

section

variable (h : s.Sound) (hT : s.calls[t]? = some T)
include h hT

theorem handOverStep_sound (hs : s.handOverStep t T = some s') : s'.Sound := by
  unfold handOverStep at hs
  split at hs
  swap
  · cases hs
  rename_i t' f offering
  obtain ⟨⟨rfl, waiting, running⟩, rfl⟩ := of_guard hs
  have own := h.tracked.turn t' T hT
  have phase := own.orderly.phase
  simp only [waiting] at phase
  obtain ⟨emitted, passed⟩ := phase running
  have pending : s.view.reader.pending t' = [f] := by simp [view, offering]
  have caught := own.caught (by simp [waiting])
    (by simp [view, offering])
  obtain ⟨started, unfinished⟩ := own.offered (by simp [-ReaderState.pending, pending])
  rw [pending] at caught
  refine ⟨h.shutdown.calm (Calm.turn rfl ?_ (Or.inr ?_) ⟨rfl, rfl, rfl, rfl, rfl, rfl⟩),
    h.tracked.update rfl ?_ rfl (fun _ _ hl => Or.inl hl) ?_ ?_ ?_⟩
  · intro U hU _
    simp_all
  · simp [offering, put]
  · simp_all
  · simp [put]
  · refine {
      orderly := ?_
      listed := by simpa [view, put, waiting] using own.listed
      started := fun _ => started, unstarted := by simp, bound := own.bound
      unarmed := by simp
      slotClosed := by simpa [waiting] using own.slotClosed
      item := fun _ => Or.inl rfl
      heard := by
        show T.received ++ [f] <+: heard s.view.looked T
        rw [caught]
      caught := ?_
      offered := by simp [view, put]
      left := by simp, known := own.known, settled := ?_ }
    · exact {
        emitted := by simp [emitted]
        passed := fun e he => passed e (mem_of_mem_dropLast he)
        phase := by simpa [emitted] using passed
        final := own.orderly.final
        result := by simp [unfinished]
        concluded := by simp }
    · intro _ _
      simpa [view, put, heard] using caught
    · intro l hl hslot hterm hlimit
      have settled := own.settled l hl hslot hterm hlimit
      simp only [Settled, view, offering, put] at settled ⊢
      grind
  · intro u U hu hU
    refine (h.tracked.turn u U hU).frame rfl Iff.rfl id (fun _ => id) ?_ ?_ ?_ (Or.inl ?_) <;>
      simp [view, put, offering, Ne.symm hu]

/-- A turn that no longer passes on frames moves on without unregistering. -/
theorem Sound.over
    (same : T'.lane = T.lane ∧ T'.start = T.start ∧ T'.slotClosed = T.slotClosed ∧
      T'.received = T.received) (orderly : Orderly s.done T')
    (registered : T'.state.isRegistered = T.state.isRegistered)
    (state : T'.state.early = false ∧ T'.state.item = none) (final : T'.final = T.final)
    (left : T'.start.isSome → T'.final = none → T'.state.left = true →
      T'.abandoned = true ∨ s.done = true)
    (faulted : ∀ f, f.terminal = true → T.state = .checking f ∨ T.state = .emitting f →
      T'.faulted = true)
    (flags : (T.faulted = true → T'.faulted = true) ∧ T'.abandoned = T.abandoned)
    (inside : s.once ≠ .finished → (∀ e, T.state ≠ .failing e) ∧
      ∀ e, T.alarm = .firing e → T'.alarm = .firing e) : ({ s with writing }.put t T').Sound := by
  have own :=
    (h.tracked.turn t T hT).move orderly same registered (Or.inl ?_) ?_
    (by simp [-TurnState.item, state.2])
    (Or.inl final) left ?_
  · exact h.put hT own same.1 (by grind) (by grind)
  · intro hs
    simp [hs] at state
  · simp [-TurnState.early, state.1]
  intro f hterm hf
  have := faulted f hterm
  grind

theorem observeDoneStep_sound (hs : s.observeDoneStep t T = some s') : s'.Sound := by
  obtain ⟨waiting, rfl⟩ := of_guard hs
  have own := h.tracked.turn t T hT
  refine h.over hT ⟨rfl, rfl, rfl, rfl⟩ ?_ ?_ ?_ rfl ?_ ?_ ⟨id, rfl⟩ ?_
  · refine own.orderly.over ⟨rfl, rfl, rfl⟩ ?_ ?_ ?_ ?_ <;>
      simp [Turn.leave, waiting.1]
  all_goals
    simp [Turn.leave, waiting]

end

theorem put_acknowledged (s : Session) (t : TurnID) (T : Turn) :
    (s.acknowledged t).put t T = (s.put t T).acknowledged t := by
  by_cases hr : s.reader = .awaiting t false <;> simp [acknowledged, put, hr]

/-- `close(item.done)`, after the turn has dealt with the item. -/
theorem Sound.acknowledge (h : (s.put t T').Sound) (item : T'.state.item = none) :
    ((s.acknowledged t).put t T').Sound := by
  rw [put_acknowledged]
  refine acknowledged_sound h ?_
  intro U hU
  simp only [Session.put, lookup_insert, if_pos, some.injEq] at hU
  exact hU ▸ item

/-- A turn that fails the session with a frame in its hands. -/
theorem Sound.fault (h : s.Sound) (hT : s.calls[t]? = some T)
    (state : T.state = .checking f ∨ T.state = .emitting f)
    (orderly : Orderly s.done ({ T with emits }.fault e)) :
    ((s.acknowledged t).put t ({ T with emits }.fault e)).Sound := by
  have own := h.tracked.turn t T hT
  refine Sound.acknowledge
    (h.over hT ⟨rfl, rfl, rfl, rfl⟩ orderly ?_ ?_ rfl ?_ ?_ ?_ ?_) rfl
  all_goals
    obtain hs | hs := state <;>
      simp [hs]

theorem checkStep_sound (h : s.Sound) (hT : s.calls[t]? = some T)
    (hs : s.checkStep t T = some s') : s'.Sound := by
  unfold checkStep at hs
  split at hs
  swap
  · cases hs
  rename_i f state
  have own := h.tracked.turn t T hT
  have phase := own.orderly.phase
  simp only [state] at phase
  obtain ⟨received, passed⟩ := phase
  have unfinished := own.orderly.unfinished (by simp [state])
  split at hs
  · cases hs
    refine h.fault hT (Or.inl state) (own.orderly.over ⟨rfl, rfl, rfl⟩ ?_ ?_ ?_ ?_) <;>
      simp [unfinished]
  rename_i responseID _
  cases hs
  refine h.put hT
    (own.move ?_ ⟨rfl, rfl, rfl, rfl⟩ ?_ (Or.inl ?_) ?_ ?_ ?_ ?_ ?_) rfl ?_ ?_
  · refine {
      emitted := by simp [received]
      passed := by simpa using passed
      phase := ⟨T.emits, rfl, by simp [received], passed⟩
      final := ?_
      result := by simp [unfinished]
      concluded := by simp }
    intro g
    simpa using own.orderly.final g
  all_goals
    simp +contextual [state]

theorem emitReturnStep_sound (h : s.Sound) (hT : s.calls[t]? = some T)
    (hs : s.emitReturnStep t T ok = some s') : s'.Sound := by
  unfold emitReturnStep at hs
  split at hs
  swap
  · cases hs
  rename_i f state
  have own := h.tracked.turn t T hT
  have phase := own.orderly.phase
  simp only [state] at phase
  obtain ⟨before, emits, received, passed⟩ := phase
  have unfinished := own.orderly.unfinished (by simp [state])
  have noTerminal (g : Frame) : ¬ ((g, .succeeded) ∈ before ∧ g.terminal = true) := by
    rintro ⟨hg, hterm⟩
    simp [(passed _ hg).2] at hterm
  dsimp only at hs
  split at hs
  · rename_i failed
    cases hs
    have failed : ok = false := by simpa using failed
    refine h.fault hT (Or.inr state) ?_
    refine {
      emitted := by simp [← received, emits]
      passed := by simpa [emits] using passed
      phase := trivial
      final := ?_
      result := by simp [unfinished]
      concluded := by simp }
    intro g
    simpa [emits, failed, unfinished] using noTerminal g
  · rename_i succeeded
    split at hs
    · rename_i terminal
      cases hs
      refine h.put hT
        (own.move ?_ ⟨rfl, rfl, rfl, rfl⟩ ?_ (Or.inl ?_) ?_ ?_ (Or.inr ?_) ?_ ?_) rfl ?_ ?_
      · refine {
          emitted := by simp [← received, emits]
          passed := by simpa [emits] using passed
          phase := trivial
          final := ?_
          result := by simp
          concluded := by simp }
        intro g
        have := noTerminal g
        simp only [emits, dropLast_concat, mem_append, mem_singleton,
          some.injEq]
        grind
      all_goals
        simp +contextual [state, unfinished]
    · rename_i passing
      cases hs
      refine Sound.acknowledge (h.over hT ⟨rfl, rfl, rfl, rfl⟩ ?_ ?_ ?_ rfl
        ?_ ?_ ⟨id, rfl⟩ ?_) rfl
      · refine {
          emitted := by simp [← received, emits]
          passed := by simpa [emits] using passed
          phase := ?_
          final := ?_
          result := by simp [unfinished]
          concluded := by simp }
        · intro _
          refine ⟨by simp [← received, emits], ?_⟩
          simp only [emits, dropLast_concat, mem_append, mem_singleton]
          rintro e (he | rfl)
          · exact passed e he
          · exact ⟨by simpa using succeeded, by simpa using passing⟩
        · intro g
          have := noTerminal g
          simp only [emits, dropLast_concat, mem_append, mem_singleton,
            unfinished]
          grind
      all_goals
        simp [state]
      · intro g hterm hg
        simp [hg ▸ hterm] at passing

/-! ### Leaving -/

section

variable (h : s.Sound) (hT : s.calls[t]? = some T)
include h hT

theorem stopStep_sound (hs : s.stopStep t T = some s') : s'.Sound := by
  have own := h.tracked.turn t T hT
  -- The function of the context is prevented if it has not begun.
  have stopped (next : TurnState) (state : T.state = .leaving ∧ next = .unregistering ∨
      T.state = .stopping ∧ next = .returned) (alarm : Alarm)
      (firing : ∀ e, T.alarm = .firing e → alarm = .firing e) :
      (s.put t { T with state := next, alarm }).Sound := by
    refine h.over hT ⟨rfl, rfl, rfl, rfl⟩ ?_ ?_ ?_ rfl ?_ ?_ ⟨id, rfl⟩ ?_
    · refine own.orderly.over ⟨rfl, rfl, rfl⟩ ?_ ?_ ?_ ?_ <;>
        obtain ⟨hs, rfl⟩ | ⟨hs, rfl⟩ := state <;>
        simp [hs]
    · obtain ⟨hs, rfl⟩ | ⟨hs, rfl⟩ := state <;> simp [hs]
    · obtain ⟨hs, rfl⟩ | ⟨hs, rfl⟩ := state <;> simp
    · intro started unfinished _
      obtain ⟨hs, -⟩ | ⟨hs, -⟩ := state
      · exact own.left started unfinished (by simp [hs])
      have final := own.orderly.concluded (by simp [hs]) (by simp [hs])
      simp only at unfinished
      simp [unfinished] at final
    · obtain ⟨hs, -⟩ | ⟨hs, -⟩ := state <;> simp [hs]
    · intro _
      refine ⟨?_, firing⟩
      obtain ⟨hs, -⟩ | ⟨hs, -⟩ := state <;> simp [hs]
  have prevented : (if T.alarm = .armed then { T with alarm := .unset } else T) =
      { T with alarm := if T.alarm = .armed then .unset else T.alarm } := by
    split <;> rfl
  have firing (e : ErrorEvidence) (he : T.alarm = .firing e) :
      (if T.alarm = .armed then .unset else T.alarm) = .firing e := by
    simp [he]
  unfold stopStep at hs
  rw [prevented] at hs
  dsimp only at hs
  split at hs
  · cases hs
    exact stopped _ (Or.inl ⟨‹_›, rfl⟩) _ firing
  · cases hs
    exact stopped _ (Or.inr ⟨‹_›, rfl⟩) _ firing
  · cases hs

/-- A turn that unregisters is among the registered ones. -/
theorem unregistered_sound {next : TurnState}
    (state : (∃ f, T.state = .completed f ∧ next = .closing f) ∨
      T.state = .unregistering ∧ next = .returned) : (s.unregistered t T next).Sound := by
  have own := h.tracked.turn t T hT
  have registered : T.state.isRegistered = true := by
    obtain ⟨f, hs, -⟩ | ⟨hs, -⟩ := state <;> simp [hs]
  have gone : next.isRegistered = false := by
    obtain ⟨f, -, rfl⟩ | ⟨-, rfl⟩ := state <;> rfl
  have listed : s.turns[T.lane]? = some t := own.listed.mpr registered
  have started := own.started registered
  rw [unregistered, if_pos listed]
  refine ⟨h.shutdown.calm (Calm.turn rfl ?_ (Or.inl rfl) ⟨rfl, rfl, rfl, rfl, rfl, rfl⟩),
    h.tracked.update rfl ?_ rfl ?_ (fun _ _ hr => hr) ?_ ?_⟩
  · intro U hU _
    obtain rfl : T = U := by simpa [hT] using hU
    obtain ⟨f, hs, -⟩ | ⟨hs, -⟩ := state <;> simp [hs]
  · simp_all
  · intro lane u hl
    simp only [put, lookup_erase] at hl
    grind
  · refine {
      orderly := ?_
      listed := by simp [-isRegistered, view, put, gone]
      started := fun _ => started, unstarted := ?_, bound := own.bound, unarmed := ?_
      slotClosed := fun _ => ⟨gone, started⟩, item := ?_, heard := own.heard
      caught := by simp [-isRegistered, gone]
      offered := own.offered, left := ?_, known := own.known, settled := ?_ }
    · refine { own.orderly with phase := ?_, result := ?_, concluded := ?_ }
      · obtain ⟨f, -, rfl⟩ | ⟨-, rfl⟩ := state <;> trivial
      · intro g hg
        refine ⟨?_, (own.orderly.result g hg).2⟩
        obtain ⟨f, -, rfl⟩ | ⟨-, rfl⟩ := state <;> rfl
      obtain ⟨f, hs, rfl⟩ | ⟨-, rfl⟩ := state
      · intro _ _
        exact own.orderly.concluded (by simp [hs]) (by simp [hs])
      · simp
    · obtain ⟨f, -, rfl⟩ | ⟨-, rfl⟩ := state <;> simp
    · obtain ⟨f, -, rfl⟩ | ⟨-, rfl⟩ := state <;> simp
    · obtain ⟨f, hs, rfl⟩ | ⟨hs, rfl⟩ := state
      · exact fun _ => own.item (by simp [hs])
      · simp
    · obtain ⟨f, hs, rfl⟩ | ⟨hs, rfl⟩ := state
      · simp
      · exact fun started unfinished _ => own.left started unfinished (by simp [hs])
    · intro l hl hslot hterm hlimit
      have settled := own.settled l hl hslot hterm hlimit
      simp only [Settled, view, put] at settled ⊢
      obtain ⟨f, hs, -⟩ | ⟨hs, -⟩ := state <;> simp only [hs] at settled <;> grind
  · intro u U hu hU
    refine (h.tracked.turn u U hU).frame rfl ?_ id (fun _ => id) (fun _ => Or.inl) id id
      (Or.inl rfl)
    simp only [view, put, lookup_erase]
    grind

theorem unregisterStep_sound (hs : s.unregisterStep t T = some s') : s'.Sound := by
  unfold unregisterStep at hs
  split at hs
  · rename_i f state
    cases hs
    exact unregistered_sound h hT (Or.inl ⟨f, state, rfl⟩)
  · rename_i state
    cases hs
    exact unregistered_sound h hT (Or.inr ⟨state, rfl⟩)
  · cases hs

theorem acknowledgeStep_sound (hs : s.acknowledgeStep t T = some s') : s'.Sound := by
  unfold acknowledgeStep at hs
  split at hs
  swap
  · cases hs
  rename_i f state
  cases hs
  have own := h.tracked.turn t T hT
  have final := own.orderly.concluded (by simp [state]) (by simp [state])
  refine Sound.acknowledge (h.over hT ⟨rfl, rfl, rfl, rfl⟩ ?_ ?_ ?_ rfl
        ?_ ?_ ⟨id, rfl⟩ ?_) rfl
  · refine own.orderly.over ⟨rfl, rfl, rfl⟩ ?_ ?_ ?_ ?_ <;>
      simp [final]
  all_goals
    simp [state]

end

/-! ### Contexts -/

/-- A step that the loop of the turn does not see. -/
theorem Sound.aside (h : s.Sound) (hT : s.calls[t]? = some T)
    (firing : ∀ e, T.alarm = .firing e → alarm = .firing e ∨ s.once = .finished)
    (unset : T.alarm = .unset → alarm = .unset) : (s.put t { T with context, alarm }).Sound := by
  have own := h.tracked.turn t T hT
  refine h.put hT ?_ rfl (fun _ => Or.inl) firing
  exact own.move { own.orderly with } ⟨rfl, rfl, rfl, rfl⟩ rfl (Or.inr rfl)
    (fun early sending => unset (own.unarmed early sending)) id (Or.inl rfl) own.left
    (fun _ _ => id)

theorem cancelStep_sound (h : s.Sound) (hT : s.calls[t]? = some T)
    (hs : s.cancelStep t T reason = some s') : s'.Sound := by
  obtain ⟨-, rfl⟩ := of_guard hs
  exact h.aside hT (fun _ => Or.inl) id

theorem fireStep_sound (h : s.Sound) (hT : s.calls[t]? = some T)
    (hs : s.fireStep t T = some s') : s'.Sound := by
  unfold fireStep at hs
  split at hs
  · obtain ⟨armed, rfl⟩ := of_guard hs
    exact h.aside hT (by simp [armed]) (by simp [armed])
  · cases hs

/-! ## Steps of `fail` -/

theorem claimStep_sound (h : s.Sound) (hs : s.claimStep actor = some s') : s'.Sound := by
  obtain ⟨idle, rfl⟩ := of_guard hs
  have cause := h.shutdown.cause
  simp only [idle.1] at cause
  have running : s.done = false := by
    have := h.shutdown.done
    simp_all
  refine ⟨{ h.shutdown with
    done := by simp [running], failure := by simp, cause := ⟨rfl, ?_⟩, reader := ?_ },
    { h.tracked with turn := ?_ }⟩
  · have := idle.2
    cases actor <;> exact this
  · rintro hr
    obtain rfl : actor = .reader := by simpa using hr
    obtain ⟨e, failing⟩ := failing_of_reader idle.2
    simp [failing]
  · intro t T hT
    refine (h.tracked.turn t T hT).frame rfl Iff.rfl id ?_ (fun _ => Or.inl) id id (Or.inl rfl)
    simp [view, cause]

/-- Going on inside `once.Do` without a change that a turn could see. -/
theorem Sound.advance (h : s.Sound) {next : Stage} {failure : Option ErrorEvidence}
    {connClosed : Bool} {closeErr : Option String} (once : s.once = .running actor stage)
    (recorded : failure.isSome) :
    { s with once := .running actor next, failure, connClosed, closeErr }.Sound := by
  have cause := h.shutdown.cause
  have running : s.done = false := by
    have := h.shutdown.done
    simp_all
  simp only [once] at cause
  refine ⟨{ h.shutdown with
    done := by simp [running], failure := fun _ => recorded, cause := ⟨cause.1, ?_⟩ },
    { h.tracked with }⟩
  have := cause.2
  cases actor <;> exact this

theorem recordStep_sound (h : s.Sound) (hs : s.recordStep = some s') : s'.Sound := by
  unfold recordStep at hs
  split at hs
  · rename_i once
    cases hs
    have cause := h.shutdown.cause
    simp only [once] at cause
    exact h.advance once cause.2
  · cases hs

theorem closeConnStep_sound {err : Bool} (h : s.Sound) (hs : s.closeConnStep err = some s') :
    s'.Sound := by
  unfold closeConnStep at hs
  split at hs
  · rename_i once
    cases hs
    exact h.advance once (h.shutdown.failure (by simp [once]))
  · cases hs

theorem finishStep_sound (h : s.Sound) (hs : s.finishStep = some s') : s'.Sound := by
  unfold finishStep at hs
  split at hs
  swap
  · cases hs
  rename_i once
  cases hs
  have cause := h.shutdown.cause
  have failure := h.shutdown.failure (by simp [once])
  simp only [once] at cause
  refine ⟨{ h.shutdown with
    done := by simp, failure := fun _ => failure
    cause := by simp [cause.1], ended := fun _ => rfl },
    { h.tracked with turn := ?_ }⟩
  intro t T hT
  exact (h.tracked.turn t T hT).frame rfl Iff.rfl (fun _ => rfl) (fun _ => id)
    (fun _ => Or.inl) id id
    (Or.inl rfl)

theorem resumeStep_sound (h : s.Sound) (hs : s.resumeStep actor = some s') : s'.Sound := by
  obtain ⟨⟨once, inside⟩, rfl⟩ := of_guard hs
  have done : s.done = true := h.shutdown.done.mpr once
  cases actor with
  | reader =>
    obtain ⟨e, failing⟩ := failing_of_reader inside
    exact h.reader (fun _ => ⟨once, rfl⟩) (fun _ => done) (fun _ => rfl) (by simp)
      (by simp [failing]) (by simp [failing])
  | turn t =>
    obtain ⟨T, e, hT, failing⟩ := failing_of_turn inside
    simp only [resumed, hT]
    have own := h.tracked.turn t T hT
    refine h.over hT ⟨rfl, rfl, rfl, rfl⟩ ?_ ?_ ?_ rfl ?_ ?_ ⟨id, rfl⟩ ?_
    · refine own.orderly.over ⟨rfl, rfl, rfl⟩ ?_ (fun _ => done) ?_ ?_ <;>
        simp [failing]
    all_goals
      simp [failing, once]
  | context t =>
    obtain ⟨T, e, hT, firing⟩ := firing_of_context inside
    simp only [resumed, hT]
    exact h.aside hT (fun _ _ => Or.inr once) (by simp [firing])
  | closer k =>
    refine ⟨h.shutdown.calm ⟨rfl, rfl, rfl, rfl, ?_, id, Or.inl, fun _ hl _ => Or.inl hl⟩,
      { h.tracked with }⟩
    intro running
    exact absurd once running

/-! ## All steps -/

theorem ofTurn_sound {step : Session → TurnID → Turn → Option Session}
    (hs : s.ofTurn t step = some s')
    (keep : ∀ T, s.calls[t]? = some T → step s t T = some s' → s'.Sound) : s'.Sound := by
  obtain ⟨T, hT, hs⟩ := bind_eq_some_iff.mp hs
  exact keep T hT hs

/-- Every step keeps the invariant. -/
theorem step_sound (action : Action) (h : s.Sound) (hs : s.step action = some s') : s'.Sound := by
  cases action with
  | read m => exact readStep_sound h hs
  | readError =>
    obtain ⟨reading, rfl⟩ := of_guard hs
    exact h.fromReading reading (by simp) (fun _ => rfl)
  | lookUp => exact lookUpStep_sound h hs
  | slotClosed => exact slotClosedStep_sound h hs
  | readerDone => exact readerDoneStep_sound h hs
  | proceed =>
    simp only [step] at hs
    split at hs
    · rename_i awaiting
      cases hs
      exact h.reader (by simp [awaiting]) (by simp) (by simp [awaiting]) (by simp)
        (by simp [awaiting]) (by simp [awaiting])
    · cases hs
  | call t request => exact callStep_sound h hs
  | register t => exact ofTurn_sound hs fun _ => registerStep_sound h
  | checkContext t => exact ofTurn_sound hs fun _ => checkContextStep_sound h
  | acquire t => exact ofTurn_sound hs fun _ => acquireStep_sound h
  | acquireCanceled t => exact ofTurn_sound hs fun _ => acquireCanceledStep_sound h
  | acquireDone t => exact ofTurn_sound hs fun _ => acquireDoneStep_sound h
  | begin t => exact ofTurn_sound hs fun _ => beginStep_sound h
  | send t outcome =>
    obtain ⟨T, hT, hs⟩ := bind_eq_some_iff.mp hs
    exact sendStep_sound h hT hs
  | handOver t => exact ofTurn_sound hs fun _ => handOverStep_sound h
  | observeDone t => exact ofTurn_sound hs fun _ => observeDoneStep_sound h
  | check t => exact ofTurn_sound hs fun _ => checkStep_sound h
  | emitReturn t ok =>
    obtain ⟨T, hT, hs⟩ := bind_eq_some_iff.mp hs
    exact emitReturnStep_sound h hT hs
  | unregister t => exact ofTurn_sound hs fun _ => unregisterStep_sound h
  | acknowledge t => exact ofTurn_sound hs fun _ => acknowledgeStep_sound h
  | stop t => exact ofTurn_sound hs fun _ => stopStep_sound h
  | cancel t reason =>
    obtain ⟨T, hT, hs⟩ := bind_eq_some_iff.mp hs
    exact cancelStep_sound h hT hs
  | fire t => exact ofTurn_sound hs fun _ => fireStep_sound h
  | close k =>
    obtain ⟨-, rfl⟩ := of_guard hs
    refine ⟨h.shutdown.calm ⟨rfl, rfl, rfl, rfl, ?_, id, Or.inl, fun _ hl _ => Or.inl hl⟩,
      { h.tracked with }⟩
    intro _ actor inside
    cases actor with
    | closer j =>
      simp only [failingWith, lookup_insert] at inside ⊢
      grind
    | reader | turn t | context t => exact inside
  | claim actor => exact claimStep_sound h hs
  | record => exact recordStep_sound h hs
  | closeConn err => exact closeConnStep_sound h hs
  | finish => exact finishStep_sound h hs
  | resume actor => exact resumeStep_sound h hs

theorem sound_newSession (header : Header) : (newSession header).Sound where
  shutdown := by
    constructor <;> simp [newSession]
  tracked := by
    constructor <;> simp [newSession]

/-- The invariant holds in every state that the parties can reach. -/
theorem sound_of_reachable {header : Header} (h : Session.Reachable header s) : s.Sound :=
  h.invariant (sound_newSession header) fun action _ _ => step_sound action

end Session
end ApiLoad.Wsnative
