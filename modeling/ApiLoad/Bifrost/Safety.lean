import ApiLoad.Bifrost.Effect

/-!
# Runtimes are not shut down in use

What holds in every interleaving of the calls of `acquire`, `Release`, `reconcile`,
`retireCredential` and `beginShutdown`, whenever the factory and the shutdowns get done.
-/
namespace ApiLoad.Bifrost
open Foundation

namespace Pool

variable {p : Pool}

def UnderConstruction (p : Pool) (e : EntryID) : Prop := ∃ call ∈ p.calls, call.phase = .building e

def Leasable (p : Pool) (e : EntryID) : Prop := e ∈ p.ids ∧ (p.heap e).initializing = false

structure Safe (p : Pool) : Prop where
  begunOnce : p.begun.Nodup
  unused : ∀ r ∈ p.begun, ∀ call ∈ p.calls, call.phase.holds r.entry = false
  one : ∀ e e', p.UnderConstruction e ∨ p.Leasable e → p.UnderConstruction e' ∨ p.Leasable e' →
    (p.heap e).config.fingerprint = (p.heap e').config.fingerprint → e = e'
  leased : ∀ call ∈ p.calls, ∀ e r, call.phase = .held e r →
    r = some ⟨e⟩ ∧ (p.heap e).config.canonical = call.config.canonical
  closedOnce : p.closings ≤ 1
  closedLast : 0 < p.closings → p.closed = true ∧ p.entries = [] ∧ p.retired = [] ∧ p.awaited = []
  noLease : 0 < p.closings → ∀ call ∈ p.calls, ∀ e, call.phase.holds e = false

theorem Inv.holds_false (h : p.Inv) {e : EntryID} (absent : e ∉ p.ids) {call : Call}
    (hc : call ∈ p.calls) : call.phase.holds e = false := by
  by_contra holds
  have positive := holders_pos hc (by simpa using holds)
  rw [h.held.idle e absent] at positive
  cases positive

theorem Inv.shutdownClosed (h : p.Inv) (closed : 0 < p.closings) : p.shutdownClosed = true := by
  have := h.left.closings
  by_contra notYet
  simp only [notYet, if_false] at this
  omega

theorem Inv.safe (h : p.Inv) : p.Safe := by
  have known (e : EntryID) (he : p.UnderConstruction e ∨ p.Leasable e) :
      ((p.heap e).config.fingerprint, e) ∈ p.entries := by
    have mem : e ∈ p.ids := by
      obtain ⟨call, hc, phase⟩ | ⟨mem, -⟩ := he
      · exact mem_ids.mpr (h.held.listed_of_holds hc (by simp [phase, Phase.holds]))
      · exact mem
    obtain ⟨f, mem⟩ := mem_ids.mp mem
    exact (h.held.listed f e mem).fingerprint.symm ▸ mem
  refine ⟨(List.nodup_append.mp h.left.once).2.1, fun r hr call hc => ?_,
    fun e e' he he' same => ?_,
    fun call hc e r phase => ?_, ?_, fun closed => h.left.closing (h.shutdownClosed closed),
    fun closed call hc e => ?_⟩
  · exact h.holds_false (h.left.gone r (List.mem_append_right _ hr)).2 hc
  · exact (h.held.key_unique (known e he) (known e' he')).mp same
  · have sound := h.held.sound call hc
    rw [phase] at sound
    obtain ⟨f, mem⟩ := h.held.listed_of_holds hc (e := e) (by simp [phase, Phase.holds])
    exact ⟨sound.2.2.trans ((h.held.listed f e mem).built sound.1), sound.2.1⟩
  · rw [h.left.closings]
    split <;> omega
  · refine h.holds_false (fun mem => ?_) hc
    rw [ids, (h.left.closing (h.shutdownClosed closed)).2.1] at mem
    cases mem

end Pool

open Pool

/-- A manager is closed only by `beginShutdown`. -/
theorem beginShutdown_mem {labels : List Label} {p p' : Pool} (h : p.closed = false)
    (ran : Transition.run step labels p = some p') (closed : p'.closed = true) :
    Label.beginShutdown ∈ labels := by
  induction labels generalizing p with
  | nil =>
    cases ran
    rw [h] at closed
    cases closed
  | cons label labels ih =>
    obtain ⟨next, taken, rest⟩ := Option.bind_eq_some_iff.mp ran
    have effect := (step_effect taken).closed
    cases label with
    | beginShutdown => exact List.mem_cons_self
    | _ => exact List.mem_cons_of_mem _ (ih (effect.trans (by simp [h, Label.closes])) rest)

/-- In every interleaving, no runtime is shut down twice or while it is leased, no two runtimes
serve one fingerprint, every lease has the runtime of the configuration it was asked for, and
`shutdownDone` is closed once, at the very end. -/
theorem pool_safe {labels : List Label} {p : Pool} (ran : Transition.run step labels {} = some p) :
    p.Safe ∧ (0 < p.closings → Label.beginShutdown ∈ labels) := by
  have reachable : Reachable p := Transition.Reachable.init.run ran
  have safe := (Reachable.inv reachable).safe
  exact ⟨safe, fun closed => beginShutdown_mem rfl ran (safe.closedLast closed).1⟩

def sampleRun : List Label :=
  [.acquire { canonical := [1], fingerprint := "f" }, .look 0, .built 0, .lease 0, .beginShutdown,
    .callRelease 0, .callRelease 0, .release 0, .callRelease 0, .startShutdown ⟨0⟩,
    .completed ⟨0⟩]

theorem pool_safe_sample : ∃ p, Transition.run step sampleRun {} = some p ∧ p.closings = 1 ∧
    p.begun = [⟨0⟩] ∧ p.Safe ∧ (0 < p.closings → Label.beginShutdown ∈ sampleRun) := by
  have ends : (Transition.run step sampleRun {}).map (fun p => (p.closings, p.begun)) =
      some (1, [⟨0⟩]) := by decide +kernel
  obtain ⟨p, ran, same⟩ := Option.map_eq_some_iff.mp ends
  obtain ⟨closings, begun⟩ := Prod.mk.injEq .. ▸ same
  exact ⟨p, ran, closings, begun, pool_safe ran⟩

end ApiLoad.Bifrost
