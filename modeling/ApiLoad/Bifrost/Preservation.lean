import ApiLoad.Bifrost.Invariant

/-!
# Every step keeps the invariant

What the steps do to the entries and the calls comes down to a few changes: a call changes its
phase, an entry and a call change together, an entry is added, marked or dropped.
-/
namespace ApiLoad.Bifrost
open Foundation Function List Option

namespace Pool

variable {p : Pool} {i : Nat} {call : Call} {f : String} {e : EntryID} {phase : Phase}

/-! ## Entries and calls -/

section

variable (h : p.Held)
include h

/-- A call changes its phase and keeps what it holds. -/
theorem Held.keepPhase (found : p.calls[i]? = some call)
    (same : ∀ e, phase.holds e = call.phase.holds e)
    (sound : phase.Sound p.heap call.config) : (p.setPhase i phase).Held := by
  refine ⟨h.keys, fun g x hx => ?_, fun x hx => ?_, fun c hc => ?_⟩
  · exact (h.listed g x hx).keep rfl (holders_setPhase_eq found (same x)) (Nat.le_refl _)
  · exact (holders_setPhase_eq found (same x)).trans (h.idle x hx)
  obtain rfl | ⟨j, -, hj⟩ := mem_setPhase found hc
  · exact sound
  · exact h.sound c (mem_of_getElem? hj)

/-- An entry and a call change together. Unless the call alone holds the entry, it is the number of
its holders that changes. -/
theorem Held.change (mem : (f, e) ∈ p.entries) (found : p.calls[i]? = some call) {entry : Entry}
    (config : entry.config = (p.heap e).config)
    (others : ∀ x, x ≠ e → phase.holds x = call.phase.holds x)
    (refs : entry.refs + (if call.phase.holds e then 1 else 0) =
      (p.heap e).refs + (if phase.holds e then 1 else 0))
    (alone : entry.initializing = true → entry.refs = 1 ∧ entry.runtime = none)
    (built : entry.initializing = false → entry.runtime = some ⟨e⟩)
    (known : (entry.initializing = (p.heap e).initializing ∧ entry.runtime = (p.heap e).runtime) ∨
      (call.phase.holds e = true ∧ (p.heap e).refs = 1))
    (sound : phase.Sound (update p.heap e entry) call.config) :
    ((p.setEntry e entry).setPhase i phase).Held := by
  have listed := h.listed f e mem
  have counted (x : EntryID) := holders_setPhase found phase x
  refine ⟨h.keys, fun g x hx => ?_, fun x hx => ?_, fun c hc => ?_⟩
  · by_cases same : x = e
    · subst same
      have now : ((p.setEntry x entry).setPhase i phase).heap x = entry := update_self ..
      have holders : ((p.setEntry x entry).setPhase i phase).holders x = entry.refs := by
        have := counted x
        rw [← listed.refs] at this
        exact Nat.add_right_cancel (this.trans refs.symm)
      have key : (p.heap x).config.fingerprint = g := (h.listed g x hx).fingerprint
      exact ⟨by rw [now, config, key], listed.old, by rw [now, holders], by rwa [now],
        by rwa [now]⟩
    · exact (h.listed g x hx).keep (update_of_ne same ..)
        (holders_setPhase_eq found (others x same)) (Nat.le_refl _)
  · have differ : x ≠ e := fun same => hx (mem_ids.mpr ⟨f, same ▸ mem⟩)
    exact (holders_setPhase_eq found (others x differ)).trans (h.idle x hx)
  · obtain rfl | ⟨j, other, hj⟩ := mem_setPhase found hc
    · exact sound
    refine (h.sound c (mem_of_getElem? hj)).congr fun x hx => ?_
    by_cases same : x = e
    swap
    · simp [setPhase, setEntry, update_of_ne same]
    subst same
    obtain ⟨initializing, runtime⟩ | ⟨holds, one⟩ := known
    · simp [setPhase, setEntry, initializing, runtime, config]
    have free := only_holder found holds (listed.refs ▸ one) other hj
    rw [hx] at free
    cases free

/-- Marking an entry. -/
theorem Held.mark (retiring : Bool) : (p.setEntry e { p.heap e with retiring }).Held := by
  have now (x : EntryID) : ((p.setEntry e { p.heap e with retiring }).heap x).config =
        (p.heap x).config ∧
      ((p.setEntry e { p.heap e with retiring }).heap x).refs = (p.heap x).refs ∧
      ((p.setEntry e { p.heap e with retiring }).heap x).initializing = (p.heap x).initializing ∧
      ((p.setEntry e { p.heap e with retiring }).heap x).runtime = (p.heap x).runtime := by
    by_cases same : x = e
    · subst same
      simp [setEntry]
    · simp [setEntry, update_of_ne same]
  refine ⟨h.keys, fun g x hx => ?_, h.idle, fun c hc => ?_⟩
  · obtain ⟨fingerprint, old, refs, alone, built⟩ := h.listed g x hx
    obtain ⟨config, refs', initializing, runtime⟩ := now x
    exact ⟨by rwa [config], old, refs'.trans refs, by rwa [initializing, refs', runtime],
      by rwa [initializing, runtime]⟩
  refine (h.sound c hc).congr fun x _ => ?_
  obtain ⟨config, -, initializing, runtime⟩ := now x
  exact ⟨initializing, config, runtime⟩

theorem Held.nodup_drop : ((p.entries.filter fun x => x.1 ≠ f).map Prod.fst).Nodup :=
  h.keys.sublist (filter_sublist.map _)

theorem Held.ids_drop (mem : (f, e) ∈ p.entries) :
    x ∈ (p.entries.filter fun x => x.1 ≠ f).map Prod.snd ↔ x ∈ p.ids ∧ x ≠ e := by
  rw [List.mem_map, mem_ids]
  constructor
  · rintro ⟨⟨g, y⟩, hy, rfl⟩
    obtain ⟨hy, differ⟩ := (h.mem_drop mem).mp hy
    exact ⟨⟨g, hy⟩, differ⟩
  · rintro ⟨⟨g, hx⟩, differ⟩
    exact ⟨(g, x), (h.mem_drop mem).mpr ⟨hx, differ⟩, rfl⟩

/-- Dropping an entry that no call holds. -/
theorem Held.drop (mem : (f, e) ∈ p.entries) (free : p.holders e = 0) :
    { p with entries := p.entries.filter fun x => x.1 ≠ f }.Held := by
  refine ⟨h.nodup_drop, fun g x hx => ?_, fun x hx => ?_, h.sound⟩
  · exact (h.listed g x ((h.mem_drop mem).mp hx).1).keep rfl rfl (Nat.le_refl _)
  by_cases same : x = e
  · exact same ▸ free
  · exact h.idle x fun old => hx ((h.ids_drop mem).mpr ⟨old, same⟩)

/-- The call that alone holds an entry gives up, and the entry is dropped. -/
theorem Held.fail (mem : (f, e) ∈ p.entries) (found : p.calls[i]? = some call)
    (holds : ∀ x, call.phase.holds x = decide (e = x)) (one : (p.heap e).refs = 1) (entry : Entry)
    (problem : String) :
    (setPhase { p.setEntry e entry with entries := p.entries.filter fun x => x.1 ≠ f } i
      (.failed problem)).Held := by
  have counted (x : EntryID) := holders_setPhase found (.failed problem) x
  refine ⟨h.nodup_drop, fun g x hx => ?_, fun x hx => ?_, fun c hc => ?_⟩
  · obtain ⟨hx, differ⟩ := (h.mem_drop mem).mp hx
    exact (h.listed g x hx).keep (update_of_ne differ ..)
      (holders_setPhase_eq found (by rw [holds]; simp [Phase.holds, differ.symm])) (Nat.le_refl _)
  · by_cases same : x = e
    · subst same
      have := counted x
      rw [holds, if_pos (by simp), ← (h.listed f x mem).refs, one] at this
      exact Nat.add_right_cancel this
    · refine Eq.trans
        (holders_setPhase_eq found (by rw [holds]; simp [Phase.holds, Ne.symm same])) ?_
      exact h.idle x fun old => hx ((h.ids_drop mem).mpr ⟨old, same⟩)
  · obtain rfl | ⟨j, other, hj⟩ := mem_setPhase found hc
    · trivial
    refine (h.sound c (mem_of_getElem? hj)).congr fun x hx => ?_
    by_cases same : x = e
    · subst same
      have free := only_holder found (by simp [holds]) ((h.listed f x mem).refs ▸ one) other hj
      rw [hx] at free
      cases free
    · simp [setPhase, setEntry, update_of_ne same]

/-- A new entry, built by the call that has asked for it. -/
theorem Held.allocate (fresh : ∀ x, (call.config.fingerprint, x) ∉ p.entries)
    (found : p.calls[i]? = some call)
    (free : ∀ x, call.phase.holds x = false) (retiring : Bool) (young : ∀ x ∈ p.ids, x < p.next) :
    (setPhase { p.setEntry p.next { config := call.config, retiring } with
      next := p.next + 1
      entries := (call.config.fingerprint, p.next) :: p.entries } i (.building p.next)).Held := by
  have absent : p.next ∉ p.ids := fun mem => Nat.lt_irrefl _ (young _ mem)
  have unused := h.idle p.next absent
  have counted (x : EntryID) := holders_setPhase found (.building p.next) x
  have others (x : EntryID) (differ : x ≠ p.next) :
      (p.setPhase i (.building p.next)).holders x = p.holders x :=
    holders_setPhase_eq found (by rw [free]; simp [Phase.holds, differ.symm])
  refine ⟨?_, fun g x hx => ?_, fun x hx => ?_, fun c hc => ?_⟩
  · refine nodup_cons.mpr ⟨fun mem => ?_, h.keys⟩
    obtain ⟨⟨g, x⟩, hx, rfl⟩ := List.mem_map.mp mem
    exact fresh x hx
  · obtain same | hx := mem_cons.mp hx
    · cases same
      have now : (update p.heap p.next ({ config := call.config, retiring } : Entry)) p.next =
        { config := call.config, retiring } := update_self ..
      have one : (p.setPhase i (.building p.next)).holders p.next = 1 := by
        have := counted p.next
        rw [free, unused] at this
        simpa [Phase.holds] using this
      refine ⟨congrArg (·.config.fingerprint) now, Nat.lt_succ_self _, ?_, ?_, ?_⟩
      · exact (congrArg (·.refs) now).trans one.symm
      · exact fun _ => ⟨congrArg (·.refs) now, congrArg (·.runtime) now⟩
      · intro init
        cases (congrArg (·.initializing) now).symm.trans init
    · have differ : x ≠ p.next := fun same => absent (same ▸ mem_ids.mpr ⟨g, hx⟩)
      exact (h.listed g x hx).keep (update_of_ne differ ..) (others x differ) (Nat.le_succ _)
  · have differ : x ≠ p.next := by
      rintro rfl
      exact hx (by simp [ids, setPhase])
    refine (others x differ).trans (h.idle x fun old => hx ?_)
    exact mem_cons_of_mem _ old
  · obtain rfl | ⟨j, -, hj⟩ := mem_setPhase found hc
    · simp [Phase.Sound, setPhase, setEntry]
    refine (h.sound c (mem_of_getElem? hj)).congr fun x hx => ?_
    have differ : x ≠ p.next := by
      rintro rfl
      have := holders_pos (mem_of_getElem? hj) hx
      omega
    simp [setPhase, setEntry, update_of_ne differ]

end

/-! ## Runtimes that leave the pool -/

/-- `retireEntryLocked` does nothing, or drops an entry that no call holds. -/
theorem retireEntryLocked_cases (p : Pool) (e : EntryID) :
    p.retireEntryLocked e = p ∨
      ∃ r, (p.heap e).runtime = some r ∧ (p.heap e).initializing = false ∧
        (p.heap e).retiring = true ∧ (p.heap e).refs = 0 ∧
        p.entries.lookup (p.heap e).config.fingerprint = some e ∧
        p.retireEntryLocked e = { p with
          entries := p.entries.filter fun f => f.1 ≠ (p.heap e).config.fingerprint
          shuttingDown := p.shuttingDown + 1
          retired := p.retired ++ [r] } := by
  unfold retireEntryLocked
  dsimp only
  split
  · exact .inl rfl
  rename_i r runtime
  split
  · exact .inl rfl
  rename_i guard
  simp only [Bool.or_eq_true, Bool.not_eq_true', decide_eq_true_eq, not_or,
    Bool.not_eq_true, Bool.not_eq_false, not_not] at guard
  obtain ⟨⟨⟨initializing, retiring⟩, refs⟩, listed⟩ := guard
  exact .inr ⟨r, runtime, initializing, retiring, refs, listed, rfl⟩

theorem Inv.retire (h : p.Inv) (e : EntryID) : (p.retireEntryLocked e).Inv := by
  obtain same | ⟨r, runtime, initializing, -, refs, listed, eq⟩ := p.retireEntryLocked_cases e
  · rwa [same]
  rw [eq]
  have mem := h.held.lookup.mp listed
  have entry := h.held.listed _ _ mem
  obtain rfl : r = ⟨e⟩ := some.inj (runtime.symm.trans (entry.built initializing))
  have here : e ∈ p.ids := mem_ids.mpr ⟨_, mem⟩
  have new : (⟨e⟩ : Runtime) ∉ p.retired ++ p.begun := fun old => (h.left.gone _ old).2 here
  refine ⟨(h.held.drop mem (entry.refs ▸ refs)).of_eq rfl rfl rfl rfl, ?_, fun r' hr => ?_,
    h.left.awaited, ?_, fun closed => ?_, h.left.closings⟩
  · have perm : ((p.retired ++ [(⟨e⟩ : Runtime)]) ++ p.begun).Perm
        (⟨e⟩ :: (p.retired ++ p.begun)) := by
      rw [append_assoc]
      exact perm_middle
    exact perm.nodup_iff.mpr (nodup_cons.mpr ⟨new, h.left.once⟩)
  · have cases : r' ∈ p.retired ++ p.begun ∨ r' = ⟨e⟩ := by
      simp only [mem_append, mem_singleton] at hr ⊢
      tauto
    obtain old | rfl := cases
    · obtain ⟨old', gone⟩ := h.left.gone r' old
      exact ⟨old', fun back => gone ((h.held.ids_drop mem).mp back).1⟩
    · exact ⟨entry.old, fun back => ((h.held.ids_drop mem).mp back).2 rfl⟩
  · have := h.left.count
    simp only [length_append, length_singleton]
    omega
  · rw [(h.left.closing closed).2.1] at mem
    cases mem

/-- A change of entries and calls does not concern the runtimes that have left. -/
theorem Inv.of_held (h : p.Inv) {heap : EntryID → Entry} {calls : List Call}
    (held : { p with heap, calls }.Held) : { p with heap, calls }.Inv :=
  ⟨held, h.left.once, h.left.gone, h.left.awaited, h.left.count, h.left.closing, h.left.closings⟩

theorem Inv.mark (h : p.Inv) (e : EntryID) (retiring : Bool) :
    (p.setEntry e { p.heap e with retiring }).Inv :=
  h.of_held (h.held.mark retiring)

theorem Inv.sweep (mark : Entry → Option Bool) (order : List EntryID) :
    ∀ p : Pool, p.Inv → (Pool.sweep mark order p).Inv := by
  induction order with
  | nil => exact fun p h => h
  | cons e order ih =>
    intro p h
    rw [Pool.sweep]
    split
    · exact ih p h
    · exact ih _ ((h.mark e _).retire e)

theorem Inv.close (h : p.Inv) : p.maybeCloseShutdownLocked.Inv := by
  unfold maybeCloseShutdownLocked
  split
  · exact h
  rename_i guard
  simp only [Bool.or_eq_true, Bool.not_eq_true', decide_eq_true_eq, not_or,
    Bool.not_eq_true, Bool.not_eq_false, not_not, List.isEmpty_iff] at guard
  obtain ⟨⟨⟨closed, empty⟩, none_left⟩, first⟩ := guard
  have count := h.left.count
  have lengths : p.retired.length = 0 ∧ p.awaited.length = 0 := by omega
  refine ⟨h.held.of_eq rfl rfl rfl rfl, h.left.once, h.left.gone, h.left.awaited, h.left.count,
    fun _ => ?_, ?_⟩
  · exact ⟨closed, empty, List.length_eq_zero_iff.mp lengths.1,
      List.length_eq_zero_iff.mp lengths.2⟩
  have := h.left.closings
  simp only [first, Bool.false_eq_true, if_false] at this
  simp [this]

/-- Flags of the manager that no entry and no call depends on. -/
theorem Inv.flags (h : p.Inv) (active : List (String × Bytes)) (activeKnown : Bool) {closed : Bool}
    (stays : p.closed = true → closed = true) : { p with active, activeKnown, closed }.Inv := by
  refine ⟨h.held.of_eq rfl rfl rfl rfl, h.left.once, h.left.gone, h.left.awaited, h.left.count,
    fun done => ?_, h.left.closings⟩
  obtain ⟨shut, rest⟩ := h.left.closing done
  exact ⟨stays shut, rest⟩

theorem Inv.reconcile (h : p.Inv) (configs : List ProviderConfig) : (p.reconcile configs).Inv := by
  unfold Pool.reconcile
  split
  · exact h
  · exact Inv.sweep _ _ _ (h.flags _ _ id)

theorem Inv.retireCredential (h : p.Inv) (credentialID : Nat) :
    (p.retireCredential credentialID).Inv := by
  unfold Pool.retireCredential
  split
  · exact h
  · exact Inv.sweep _ _ _ h

theorem Inv.beginShutdown (h : p.Inv) : p.beginShutdown.Inv :=
  (Inv.sweep _ _ _ (h.flags _ _ fun _ => rfl)).close

/-! ## Steps of a call -/

section

variable (h : p.Inv) (found : p.calls[i]? = some call)
include h found

theorem Inv.keepPhase (same : ∀ e, phase.holds e = call.phase.holds e)
    (sound : phase.Sound p.heap call.config) : (p.setPhase i phase).Inv :=
  h.of_held (h.held.keepPhase found same sound)

/-- The entry that a call holds, as the call and the map know it. -/
theorem Inv.holder (holds : call.phase.holds e = true) :
    ∃ f, (f, e) ∈ p.entries ∧ p.Listed f e ∧ call.phase.Sound p.heap call.config := by
  obtain ⟨f, mem⟩ := h.held.listed_of_holds (mem_of_getElem? found) holds
  exact ⟨f, mem, h.held.listed f e mem, h.held.sound call (mem_of_getElem? found)⟩

theorem Inv.look (called : call.phase = .called) : (p.look i call.config).Inv := by
  have free (e : EntryID) : call.phase.holds e = false := by
    rw [called]
    rfl
  unfold Pool.look
  split
  · exact h.keepPhase found (fun e => (free e).symm) trivial
  rename_i stillOpen
  cases listed : p.entries.lookup call.config.fingerprint with
  | some e =>
    dsimp only
    split
    · exact h.keepPhase found (fun e => (free e).symm) trivial
    rename_i canonical
    split
    · exact h.keepPhase found (fun e => (free e).symm) trivial
    rename_i ready
    have mem := h.held.lookup.mp listed
    have entry := h.held.listed _ _ mem
    have held : ((p.setEntry e { p.heap e with refs := (p.heap e).refs + 1 }).setPhase i
        (.leasing e)).Held := by
      refine h.held.change mem found rfl (fun x differ => ?_) ?_ (fun init => absurd init ready)
        entry.built (.inl ⟨rfl, rfl⟩) ?_
      · rw [free]
        simp [Phase.holds, Ne.symm differ]
      · rw [free]
        simp [Phase.holds]
      · simpa [Phase.Sound] using ⟨by simpa using ready, by simpa using canonical⟩
    exact h.of_held held
  | none =>
    have young (x : EntryID) (hx : x ∈ p.ids) : x < p.next := by
      obtain ⟨f, mem⟩ := mem_ids.mp hx
      exact (h.held.listed f x mem).old
    have fresh (x : EntryID) : (call.config.fingerprint, x) ∉ p.entries := by
      intro mem
      rw [h.held.lookup.mpr mem] at listed
      cases listed
    refine ⟨h.held.allocate fresh found free _ young, h.left.once, fun r hr => ?_, h.left.awaited,
      h.left.count, fun done => absurd (h.left.closing done).1 stillOpen, h.left.closings⟩
    obtain ⟨old, gone⟩ := h.left.gone r hr
    refine ⟨Nat.lt_succ_of_lt old, fun mem => ?_⟩
    obtain same | mem := mem_cons.mp mem
    · exact absurd (same ▸ old) (Nat.lt_irrefl _)
    · exact gone mem

theorem Inv.built (building : call.phase = .building e) : (p.built i e).Inv := by
  have holds : call.phase.holds e = true := by simp [building, Phase.holds]
  obtain ⟨f, mem, entry, sound⟩ := h.holder found holds
  rw [building] at sound
  have held : (p.built i e).Held := by
    refine h.held.change mem found rfl (fun x _ => ?_) ?_ (fun init => by cases init) (fun _ => rfl)
      (.inr ⟨holds, (entry.alone sound.1).1⟩) ?_
    · rw [building]
      rfl
    · rw [holds]
      simp [Phase.holds]
    · simp [Phase.Sound, sound.2]
  exact h.of_held held

theorem Inv.buildFailed (building : call.phase = .building e) (problem : String) :
    (p.buildFailed i call.config e problem).Inv := by
  have holds (x : EntryID) : call.phase.holds x = decide (e = x) := by
    rw [building]
    rfl
  obtain ⟨f, mem, entry, sound⟩ := h.holder found ((holds e).trans (decide_eq_true rfl))
  rw [building] at sound
  obtain rfl : call.config.fingerprint = f := by rw [← sound.2, entry.fingerprint]
  have held := h.held.fail mem found holds (entry.alone sound.1).1
    { p.heap e with initializing := false, initErr := some problem, ready := true } problem
  refine Inv.close ⟨held, h.left.once, fun r hr => ?_, h.left.awaited, h.left.count, fun done => ?_,
    h.left.closings⟩
  · obtain ⟨old, gone⟩ := h.left.gone r hr
    exact ⟨old, fun back => gone ((h.held.ids_drop mem).mp back).1⟩
  · rw [(h.left.closing done).2.1] at mem
    cases mem

end

theorem setPhase_retire (p : Pool) (i : Nat) (e : EntryID) (phase : Phase) :
    (p.retireEntryLocked e).setPhase i phase = (p.setPhase i phase).retireEntryLocked e := by
  have heap : ((p.setPhase i phase).heap e) = p.heap e := rfl
  unfold retireEntryLocked
  rw [heap]
  dsimp only
  split
  · rfl
  have entries : (p.setPhase i phase).entries = p.entries := rfl
  rw [entries]
  split <;> rfl

/-- What `release` does before it looks whether the entry can be retired. -/
theorem Inv.letGo (h : p.Inv) (found : p.calls[i]? = some call)
    (releasing : call.phase = .releasing e) :
    ((p.setEntry e { p.heap e with refs := (p.heap e).refs - 1 }).setPhase i .released).Inv := by
  have holds : call.phase.holds e = true := by simp [releasing, Phase.holds]
  obtain ⟨f, mem, entry, sound⟩ := h.holder found holds
  rw [releasing] at sound
  have positive : 0 < (p.heap e).refs := by
    rw [entry.refs]
    exact holders_pos (mem_of_getElem? found) holds
  have held : ((p.setEntry e { p.heap e with refs := (p.heap e).refs - 1 }).setPhase i
      .released).Held := by
    refine h.held.change mem found rfl (fun x differ => ?_) ?_ (fun init => ?_) entry.built
      (.inl ⟨rfl, rfl⟩) trivial
    · rw [releasing]
      simp [Phase.holds, Ne.symm differ]
    · rw [if_pos holds, if_neg (by simp [Phase.holds])]
      exact Nat.sub_add_cancel positive
    · rw [sound.1] at init
      cases init
  exact h.of_held held

theorem Inv.release (h : p.Inv) (found : p.calls[i]? = some call)
    (releasing : call.phase = .releasing e) : (p.release i e).Inv := by
  unfold Pool.release
  rw [setPhase_retire]
  exact (h.letGo found releasing).retire e

theorem Inv.startShutdown (h : p.Inv) (mem : r ∈ p.retired) :
    { p with
      retired := p.retired.erase r
      begun := p.begun ++ [r]
      awaited := p.awaited ++ [r] }.Inv := by
  have perm : (p.retired.erase r ++ (p.begun ++ [r])).Perm (p.retired ++ p.begun) := by
    refine ((perm_append_comm.append_left _).trans ?_).trans
      ((perm_cons_erase mem).symm.append_right _)
    exact perm_middle
  refine ⟨h.held.of_eq rfl rfl rfl rfl, perm.nodup_iff.mpr h.left.once,
    fun r' hr => h.left.gone r' (perm.mem_iff.mp hr), h.left.awaited.append (List.Sublist.refl _),
    ?_, fun done => ?_, h.left.closings⟩
  · have count := h.left.count
    have positive := length_pos_of_mem mem
    simp only [length_erase_of_mem mem, length_append, length_singleton]
    omega
  · rw [(h.left.closing done).2.2.1] at mem
    cases mem

theorem Inv.completed (h : p.Inv) (mem : r ∈ p.awaited) : (p.completed r).Inv := by
  refine Inv.close ⟨h.held.of_eq rfl rfl rfl rfl, h.left.once, h.left.gone,
    (erase_sublist).trans h.left.awaited, ?_, fun done => ?_, h.left.closings⟩
  · have count := h.left.count
    have positive := length_pos_of_mem mem
    simp only [length_erase_of_mem mem]
    omega
  · rw [(h.left.closing done).2.2.2] at mem
    cases mem

theorem Inv.acquire (h : p.Inv) (config : ProviderConfig) :
    { p with calls := p.calls ++ [({ config := config } : Call)] }.Inv := by
  have counted (x : EntryID) :
      (p.calls ++ [({ config := config } : Call)]).countP (fun c => c.phase.holds x) =
        p.holders x := by
    simp [holders, Phase.holds]
  refine ⟨⟨h.held.keys, fun g x hx => ?_, fun x hx => (counted x).trans (h.held.idle x hx),
    fun c hc => ?_⟩, h.left.once, h.left.gone, h.left.awaited, h.left.count, h.left.closing,
    h.left.closings⟩
  · exact (h.held.listed g x hx).keep rfl (counted x) (Nat.le_refl _)
  obtain old | new := mem_append.mp hc
  · exact h.held.sound c old
  · obtain rfl := mem_singleton.mp new
    trivial

end Pool

open Pool

/-! ## Runs -/

theorem callStep_inv {p : Pool} (h : p.Inv) (found : p.calls[i]? = some call)
    (taken : callStep p i call label = some p') : p'.Inv := by
  cases callStep_cases taken with
  | idle => exact h
  | phase same sound =>
    exact h.keepPhase found same (sound (h.held.sound call (mem_of_getElem? found)))
  | look called => exact h.look found called
  | built building => exact h.built found building
  | buildFailed building problem => exact h.buildFailed found building problem
  | release releasing => exact h.release found releasing

theorem step_inv {p : Pool} (h : p.Inv) (taken : step label p = some p') : p'.Inv := by
  cases label with
  | acquire config =>
    cases taken
    exact h.acquire config
  | reconcile configs =>
    cases taken
    exact h.reconcile configs
  | retireCredential credentialID =>
    cases taken
    exact h.retireCredential credentialID
  | beginShutdown =>
    cases taken
    exact h.beginShutdown
  | startShutdown r =>
    unfold step at taken
    dsimp only at taken
    split at taken <;> cases taken
    rename_i mem
    exact h.startShutdown mem
  | completed r =>
    unfold step at taken
    dsimp only at taken
    split at taken <;> cases taken
    rename_i mem
    exact h.completed mem
  | _ =>
    obtain ⟨call, found, taken⟩ := bind_eq_some_iff.mp taken
    exact callStep_inv h found taken

theorem new_inv : ({} : Pool).Inv where
  held := ⟨nodup_nil, fun _ _ h => (not_mem_nil h).elim, fun _ _ => rfl,
    fun _ h => (not_mem_nil h).elim⟩
  left := ⟨nodup_nil, fun _ h => (not_mem_nil h).elim, List.Sublist.refl _, rfl,
    (fun h => by cases h), rfl⟩

abbrev Reachable : Pool → Prop := Transition.Reachable step {}

theorem Reachable.inv (h : Reachable p) : p.Inv :=
  h.invariant new_inv fun _ _ _ inv taken => step_inv inv taken

end ApiLoad.Bifrost
