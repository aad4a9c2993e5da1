import ApiLoad.Wsnative.Session

/-!
# The end of a session

`fail` may be called by the reader, by a turn, by the context of a turn and by `Close`. Only the
first of them runs the function inside `once.Do`; the others wait for it. The invariant says how far
the session has come: `done` is closed last, the failure has been recorded by then, and whoever runs
the function is still inside `fail`.
-/
namespace ApiLoad.Wsnative
open Foundation Execution

/-- The reader reads no more frames. -/
def ReaderState.stopped : ReaderState → Bool
  | .failing _ | .ended => true
  | _ => false

/-- The failure of the session has been recorded. -/
def Once.recorded : Once → Bool
  | .idle | .running _ .claimed => false
  | _ => true

namespace Session
variable {s s' : Session} {t : TurnID} {T' : Turn}

/-! Who is inside `fail`. -/

theorem failing_of_reader (h : (s.failingWith .reader).isSome) : ∃ e, s.reader = .failing e := by
  simp only [failingWith] at h
  split at h
  · exact ⟨_, ‹_›⟩
  · cases h

theorem failing_of_turn (h : (s.failingWith (.turn t)).isSome) :
    ∃ T e, s.calls[t]? = some T ∧ T.state = .failing e := by
  simp only [failingWith, Option.isSome_bind] at h
  obtain ⟨T, hT, h⟩ := (Option.any_eq_true _ _).mp h
  split at h
  · exact ⟨T, _, hT, ‹_›⟩
  · cases h

theorem firing_of_context (h : (s.failingWith (.context t)).isSome) :
    ∃ T e, s.calls[t]? = some T ∧ T.alarm = .firing e := by
  simp only [failingWith, Option.isSome_bind] at h
  obtain ⟨T, hT, h⟩ := (Option.any_eq_true _ _).mp h
  split at h
  · exact ⟨T, _, hT, ‹_›⟩
  · cases h

structure Shutdown (s : Session) : Prop where
  done : s.done = true ↔ s.once = .finished
  failure : s.once.recorded = true → s.failure.isSome
  cause : match s.once with
    | .idle => s.cause = none
    | .running actor _ => s.cause = some actor ∧ (s.failingWith actor).isSome
    | .finished => s.cause.isSome
  reader : s.cause = some .reader → s.reader.stopped
  ended : s.reader = .ended → s.done = true
  unmatched : ∀ l ∈ s.looked, l.slot = none → s.reader.stopped

/-- A step outside the function in `once.Do`: nobody leaves `fail` while it runs. -/
structure Calm (s s' : Session) : Prop where
  once : s'.once = s.once
  failure : s'.failure = s.failure
  done : s'.done = s.done
  cause : s'.cause = s.cause
  failing : s.once ≠ .finished → ∀ actor, (s.failingWith actor).isSome →
    (s'.failingWith actor).isSome
  stopped : s.reader.stopped → s'.reader.stopped
  ended : s'.reader = .ended → s.reader = .ended ∨ s.done = true
  unmatched : ∀ l ∈ s'.looked, l.slot = none → l ∈ s.looked ∨ s'.reader.stopped

theorem Shutdown.calm (h : s.Shutdown) (c : Calm s s') : s'.Shutdown where
  done := by rw [c.done, c.once, h.done]
  failure := by rw [c.once, c.failure]; exact h.failure
  cause := by
    have cause := h.cause
    rw [c.once, c.cause]
    cases ho : s.once with
    | idle | finished => simpa [ho] using cause
    | running actor stage =>
      simp only [ho] at cause ⊢
      exact ⟨cause.1, c.failing (by simp [ho]) actor cause.2⟩
  reader hr := c.stopped (h.reader (c.cause ▸ hr))
  ended hr := by
    rw [c.done]
    exact (c.ended hr).elim h.ended id
  unmatched l hl slot :=
    (c.unmatched l hl slot).elim (fun hl => c.stopped (h.unmatched l hl slot)) id

/-- A step that changes the record of one turn, and leaves the reader alone or moves it among the
states in which it still reads. -/
theorem Calm.turn (calls : s'.calls = s.calls.insert t T')
    (inside : ∀ T, s.calls[t]? = some T → s.once ≠ .finished →
      (∀ e, T.state = .failing e → T'.state = .failing e) ∧
      ∀ e, T.alarm = .firing e → T'.alarm = .firing e)
    (reader : s'.reader = s.reader ∨ s.reader.stopped = false ∧ s'.reader.stopped = false)
    (same : s'.closers = s.closers ∧ s'.once = s.once ∧ s'.failure = s.failure ∧ s'.done = s.done ∧
      s'.cause = s.cause ∧ s'.looked = s.looked) : Calm s s' := by
  obtain ⟨closers, once, failure, done, cause, looked⟩ := same
  refine ⟨once, failure, done, cause, ?_, ?_, ?_, ?_⟩
  · intro running actor h
    cases actor with
    | reader =>
      obtain hr | ⟨hr, -⟩ := reader
      · simpa only [failingWith, hr] using h
      · obtain ⟨e, failing⟩ := failing_of_reader h
        simp [failing, ReaderState.stopped] at hr
    | turn u | context u =>
      simp only [failingWith, calls, OrderedMap.lookup_insert] at h ⊢
      grind
    | closer k => simpa only [failingWith, closers] using h
  · grind
  · grind [ReaderState.stopped]
  · intro l hl _
    exact Or.inl (looked ▸ hl)

/-- A step of the reader alone. -/
theorem Calm.reader {r : ReaderState} {looked : List Lookup} {reads : List Message}
    (live : s.reader.stopped = true → s.once = .finished ∧ r.stopped = true)
    (ended : r = .ended → s.done = true)
    (unmatched : ∀ l ∈ looked, l.slot = none → l ∈ s.looked ∨ r.stopped) :
    Calm s { s with reader := r, looked, reads } := by
  refine ⟨rfl, rfl, rfl, rfl, ?_, fun h => (live h).2, fun hr => Or.inr (ended hr), unmatched⟩
  intro running actor h
  cases actor with
  | reader =>
    obtain ⟨e, failing⟩ := failing_of_reader h
    exact absurd (live (by simp [failing, ReaderState.stopped])).1 running
  | turn u | context u | closer k => exact h

/-- Before the reader has failed, the session is ended by somebody else. -/
theorem Shutdown.by_other (h : s.Shutdown) (hd : s.done = true) (live : s.reader.stopped = false) :
    ∃ actor, s.cause = some actor ∧ actor ≠ .reader := by
  have cause := h.cause
  simp only [h.done.mp hd, Option.isSome_iff_exists] at cause
  obtain ⟨actor, hc⟩ := cause
  refine ⟨actor, hc, ?_⟩
  rintro rfl
  simp [h.reader hc] at live

end Session
end ApiLoad.Wsnative
