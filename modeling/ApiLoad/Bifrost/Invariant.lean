import ApiLoad.Bifrost.RuntimeManager
import ApiLoad.Foundation.Lookup

/-!
# The invariant of the pool

Every entry of the map counts the calls that hold it, a call holds no other entry, and a runtime
that has left the pool is held by no call.
-/
namespace ApiLoad.Bifrost
open Foundation Function List

/-- The call has been counted by an entry, and its lease has not been given back. -/
def Phase.holds (e : EntryID) : Phase → Bool
  | .building e' | .leasing e' | .held e' _ | .releasing e' => e' = e
  | _ => false

/-- What a call that holds an entry knows of it. -/
def Phase.Sound (heap : EntryID → Entry) (config : ProviderConfig) : Phase → Prop
  | .building e => (heap e).initializing = true ∧ (heap e).config = config
  | .leasing e | .releasing e =>
    (heap e).initializing = false ∧ (heap e).config.canonical = config.canonical
  | .held e r => (heap e).initializing = false ∧ (heap e).config.canonical = config.canonical ∧
    r = (heap e).runtime
  | _ => True

/-- What a call knows concerns only the entries that it holds. -/
theorem Phase.Sound.congr {phase : Phase} (h : phase.Sound heap config)
    (same : ∀ e, phase.holds e = true → (heap' e).initializing = (heap e).initializing ∧ (heap'
      e).config = (heap e).config ∧ (heap' e).runtime = (heap e).runtime) :
    phase.Sound heap' config := by
  cases phase <;> simp_all [Phase.Sound, Phase.holds]

namespace Pool

def holders (p : Pool) (e : EntryID) : Nat := p.calls.countP fun call => call.phase.holds e

structure Listed (p : Pool) (f : String) (e : EntryID) : Prop where
  fingerprint : (p.heap e).config.fingerprint = f
  old : e < p.next
  refs : (p.heap e).refs = p.holders e
  alone : (p.heap e).initializing = true → (p.heap e).refs = 1 ∧ (p.heap e).runtime = none
  built : (p.heap e).initializing = false → (p.heap e).runtime = some ⟨e⟩

structure Held (p : Pool) : Prop where
  keys : (p.entries.map Prod.fst).Nodup
  listed : ∀ f e, (f, e) ∈ p.entries → p.Listed f e
  idle : ∀ e, e ∉ p.ids → p.holders e = 0
  sound : ∀ call ∈ p.calls, call.phase.Sound p.heap call.config

structure Left (p : Pool) : Prop where
  once : (p.retired ++ p.begun).Nodup
  gone : ∀ r ∈ p.retired ++ p.begun, r.entry < p.next ∧ r.entry ∉ p.ids
  awaited : p.awaited.Sublist p.begun
  count : p.shuttingDown = p.retired.length + p.awaited.length
  closing : p.shutdownClosed = true →
    p.closed = true ∧ p.entries = [] ∧ p.retired = [] ∧ p.awaited = []
  closings : p.closings = if p.shutdownClosed then 1 else 0

structure Inv (p : Pool) : Prop where
  held : p.Held
  left : p.Left

/-! ## Calls -/

section Calls

variable {p : Pool} {i : Nat} {call : Call} {e : EntryID}

theorem holders_setPhase (found : p.calls[i]? = some call) (phase : Phase) (e : EntryID) :
    (p.setPhase i phase).holders e + (if call.phase.holds e then 1 else 0) =
      p.holders e + (if phase.holds e then 1 else 0) := by
  have loop (calls : List Call) : ∀ i, calls[i]? = some call →
      (calls.modify i fun call => { call with phase }).countP (fun c => c.phase.holds e) +
        (if call.phase.holds e then 1 else 0) =
      calls.countP (fun c => c.phase.holds e) + (if phase.holds e then 1 else 0) := by
    induction calls with
    | nil => exact fun i found => by cases found
    | cons c calls ih =>
      rintro (_ | i) found
      · cases found
        simp only [modify_zero_cons, countP_cons]
        omega
      have rest := ih i found
      simp only [modify_succ_cons, countP_cons]
      omega
  exact loop p.calls i found

/-- A call that does not change what it holds. -/
theorem holders_setPhase_eq (found : p.calls[i]? = some call) {phase : Phase}
    (same : phase.holds e = call.phase.holds e) : (p.setPhase i phase).holders e = p.holders e := by
  have := holders_setPhase found phase e
  rw [same] at this
  omega

theorem holders_congr {q : Pool} (same : p.calls = q.calls) (e : EntryID) :
    p.holders e = q.holders e := by
  rw [holders, same, holders]

theorem mem_setPhase (found : p.calls[i]? = some call) (hc : c ∈ (p.setPhase i phase).calls) :
    c = { call with phase } ∨ ∃ j, j ≠ i ∧ p.calls[j]? = some c := by
  obtain ⟨j, hj⟩ := mem_iff_getElem?.mp hc
  by_cases same : j = i
  · subst same
    left
    simp only [setPhase, getElem?_modify_eq, found] at hj
    exact (Option.some.inj hj).symm
  right
  simp only [setPhase, getElem?_modify_ne _ _ (Ne.symm same)] at hj
  exact ⟨j, same, hj⟩

/-- A call that alone holds an entry. -/
theorem only_holder (found : p.calls[i]? = some call) (holds : call.phase.holds e = true)
    (one : p.holders e = 1) (other : j ≠ i) (hj : p.calls[j]? = some c) :
    c.phase.holds e = false := by
  have none_left : (p.setPhase i .called).holders e = 0 := by
    have := holders_setPhase found .called e
    rw [if_pos holds, one] at this
    exact Nat.add_right_cancel this
  have mem : c ∈ (p.setPhase i .called).calls := by
    refine mem_of_getElem? (i := j) ?_
    simpa only [setPhase, getElem?_modify_ne _ _ (Ne.symm other)] using hj
  simpa using countP_eq_zero.mp none_left c mem

theorem holders_pos (hc : call ∈ p.calls) (holds : call.phase.holds e = true) :
    0 < p.holders e := countP_pos_iff.mpr ⟨call, hc, holds⟩

/-- An entry that a call holds is in the map. -/
theorem Held.listed_of_holds (h : p.Held) (hc : call ∈ p.calls)
    (holds : call.phase.holds e = true) :
    ∃ f, (f, e) ∈ p.entries := by
  by_contra absent
  have zero := h.idle e (by simpa [ids] using absent)
  have := holders_pos hc holds
  omega

end Calls

/-- What a step of a call comes to. All but four change its phase only, and neither what it holds
nor what it knows of that. -/
inductive CallStep (p : Pool) (i : Nat) (call : Call) : Pool → Prop
  | idle : CallStep p i call p
  | phase {phase : Phase} (same : ∀ e, phase.holds e = call.phase.holds e)
      (sound : call.phase.Sound p.heap call.config → phase.Sound p.heap call.config) :
      CallStep p i call (p.setPhase i phase)
  | look (called : call.phase = .called) : CallStep p i call (p.look i call.config)
  | built {e : EntryID} (building : call.phase = .building e) : CallStep p i call (p.built i e)
  | buildFailed {e : EntryID} (building : call.phase = .building e) (problem : String) :
      CallStep p i call (p.buildFailed i call.config e problem)
  | release {e : EntryID} (releasing : call.phase = .releasing e) :
      CallStep p i call (p.release i e)

theorem callStep_cases (taken : callStep p i call label = some p') : CallStep p i call p' := by
  cases label with
  | look | built | buildFailed | release =>
    cases phase : call.phase <;>
      simp only [callStep, phase, reduceCtorEq, Option.some.injEq] at taken
    subst taken
    constructor
    exact phase
  | cancel | lease =>
    cases phase : call.phase <;>
      simp only [callStep, phase, reduceCtorEq, Option.some.injEq] at taken
    subst taken
    exact .phase (by simp [phase, Phase.holds]) (by simp +contextual [phase, Phase.Sound])
  | ready | check =>
    cases phase : call.phase <;> simp only [callStep, phase, reduceCtorEq] at taken
    split at taken <;> cases taken <;>
      exact .phase (by simp [phase, Phase.holds]) (by simp [Phase.Sound])
  | callRelease =>
    cases phase : call.phase <;>
      simp only [callStep, phase, reduceCtorEq, Option.some.injEq] at taken
    · subst taken
      exact .phase (by simp [phase, Phase.holds]) (by simp +contextual [phase, Phase.Sound])
    · exact taken ▸ .idle
    · exact taken ▸ .idle
  | _ => cases taken

/-! ## Entries -/

section Entries

variable {p : Pool} {f g : String} {e e' : EntryID}

/-- An entry that stays as it is, with as many holders. -/
theorem Listed.keep {q : Pool} (h : p.Listed f e) (heap : q.heap e = p.heap e)
    (holders : q.holders e = p.holders e) (next : p.next ≤ q.next) : q.Listed f e := by
  obtain ⟨fingerprint, old, refs, alone, built⟩ := h
  exact ⟨by rwa [heap], Nat.lt_of_lt_of_le old next, by rw [heap, refs, holders], by rwa [heap],
    by rwa [heap]⟩

theorem Held.of_eq {q : Pool} (h : p.Held) (entries : q.entries = p.entries)
    (heap : q.heap = p.heap) (calls : q.calls = p.calls) (next : q.next = p.next) : q.Held := by
  have counted (e : EntryID) : q.holders e = p.holders e := holders_congr calls e
  refine ⟨entries ▸ h.keys, fun f e mem => ?_, fun e absent => ?_, fun call hc => ?_⟩
  · exact (h.listed f e (entries ▸ mem)).keep (by rw [heap]) (counted e) next.ge
  · rw [ids, entries] at absent
    exact (counted e).trans (h.idle e absent)
  · rw [heap]
    exact h.sound call (calls ▸ hc)

theorem Held.lookup (h : p.Held) : p.entries.lookup f = some e ↔ (f, e) ∈ p.entries :=
  lookup_eq_some_iff h.keys

/-- Fingerprints and entries determine each other. -/
theorem Held.key_unique (h : p.Held) (hf : (f, e) ∈ p.entries) (hg : (g, e') ∈ p.entries) :
    f = g ↔ e = e' := by
  constructor
  · rintro rfl
    have one := h.lookup.mpr hf
    rw [h.lookup.mpr hg] at one
    exact (Option.some.inj one).symm
  · rintro rfl
    rw [← (h.listed f e hf).fingerprint, (h.listed g e hg).fingerprint]

theorem mem_ids : e ∈ p.ids ↔ ∃ f, (f, e) ∈ p.entries := by
  simp [ids]

/-- Dropping a fingerprint drops one entry. -/
theorem Held.mem_drop (h : p.Held) (hf : (f, e) ∈ p.entries) :
    (g, e') ∈ p.entries.filter (fun x => x.1 ≠ f) ↔ (g, e') ∈ p.entries ∧ e' ≠ e := by
  rw [mem_filter]
  constructor
  · rintro ⟨mem, differ⟩
    exact ⟨mem, fun same => by simp [(h.key_unique mem hf).mpr same] at differ⟩
  · rintro ⟨mem, differ⟩
    exact ⟨mem, by simpa using fun same => differ ((h.key_unique mem hf).mp same)⟩

end Entries

end Pool

end ApiLoad.Bifrost
