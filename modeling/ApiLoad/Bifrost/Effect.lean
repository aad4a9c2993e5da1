import ApiLoad.Bifrost.Preservation

/-!
# What a step does to the entries

An entry keeps its configuration; it is marked by the calls that mark entries and by no other step;
entries that are added are new, and a runtime that has left the pool stays out of it.
-/
namespace ApiLoad.Bifrost
open Foundation Function Option

/-- The mark that a call gives to entries of a configuration. -/
def Label.mark (closed : Bool) (config : ProviderConfig) : Label → Option Bool
  | .reconcile configs =>
    if closed then none else some (!Pool.isActive (Pool.activeOf configs) config)
  | .retireCredential credentialID =>
    if credentialID ≠ 0 ∧ config.credentialPartitionID = credentialID then some true else none
  | .beginShutdown => some true
  | _ => none

def Label.closes : Label → Bool
  | .beginShutdown => true
  | _ => false

namespace Pool

/-- A pool before and after a part of a step. -/
structure Effect (mark : ProviderConfig → Option Bool) (closes : Bool) (p p' : Pool) : Prop where
  closed : p'.closed = (p.closed || closes)
  config : ∀ x < p.next, (p'.heap x).config = (p.heap x).config
  retiring : ∀ x < p.next, x ∈ p'.ids →
    (p'.heap x).retiring = (mark (p.heap x).config).getD (p.heap x).retiring
  ids : ∀ x ∈ p'.ids, x ∈ p.ids ∨ p.next ≤ x
  left : ∀ r ∈ p.retired ++ p.begun, r ∈ p'.retired ++ p'.begun
  next : p.next ≤ p'.next

abbrev Plain (p p' : Pool) : Prop := Effect (fun _ => none) false p p'

variable {p q p' : Pool} {e : EntryID}

theorem Plain.refl (p : Pool) : Plain p p :=
  ⟨by simp, fun _ _ => rfl, fun _ _ _ => rfl, fun _ h => .inl h, fun _ h => h, Nat.le_refl _⟩

theorem Effect.trans_plain (h : Effect mark closes p q) (h' : Plain q p') :
    Effect mark closes p p' where
  closed := by rw [h'.closed, h.closed, Bool.or_false]
  config x hx := (h'.config x (Nat.lt_of_lt_of_le hx h.next)).trans (h.config x hx)
  retiring x hx mem := by
    have young := Nat.lt_of_lt_of_le hx h.next
    obtain mem' | old := h'.ids x mem
    · exact (h'.retiring x young mem).trans (h.retiring x hx mem')
    · exact absurd young (Nat.not_lt.mpr old)
  ids x mem := by
    obtain mem | young := h'.ids x mem
    · exact h.ids x mem
    · exact .inr (Nat.le_trans h.next young)
  left r hr := h'.left r (h.left r hr)
  next := Nat.le_trans h.next h'.next

theorem Plain.setPhase (p : Pool) (i : Nat) (phase : Phase) : Plain p (p.setPhase i phase) :=
  ⟨by simp [Pool.setPhase], fun _ _ => rfl, fun _ _ _ => rfl, fun _ h => .inl h, fun _ h => h,
    Nat.le_refl _⟩

theorem Plain.setEntry {entry : Entry} (config : entry.config = (p.heap e).config)
    (retiring : entry.retiring = (p.heap e).retiring) : Plain p (p.setEntry e entry) := by
  refine ⟨by simp [Pool.setEntry], fun x _ => ?_, fun x _ _ => ?_, fun _ h => .inl h, fun _ h => h,
    Nat.le_refl _⟩
  · by_cases same : x = e
    · subst same
      simp [Pool.setEntry, config]
    · simp [Pool.setEntry, update_of_ne same]
  by_cases same : x = e
  · subst same
    simp [Pool.setEntry, retiring]
  · simp [Pool.setEntry, update_of_ne same]

theorem Plain.drop (p : Pool) (f : String) :
    Plain p { p with entries := p.entries.filter fun x => x.1 ≠ f } := by
  refine ⟨by simp, fun _ _ => rfl, fun _ _ _ => rfl, fun x mem => .inl ?_, fun _ h => h,
    Nat.le_refl _⟩
  exact (List.filter_sublist.map _).subset mem

theorem Plain.retire (p : Pool) (e : EntryID) : Plain p (p.retireEntryLocked e) := by
  obtain same | ⟨r, -, -, -, -, -, eq⟩ := p.retireEntryLocked_cases e
  · rw [same]
    exact .refl p
  rw [eq]
  refine Effect.trans_plain (Plain.drop p (p.heap e).config.fingerprint)
    ⟨by simp, fun _ _ => rfl, fun _ _ _ => rfl, fun _ h => .inl h, fun r' hr => ?_, Nat.le_refl _⟩
  simp only [List.mem_append] at hr ⊢
  tauto

theorem Plain.close (p : Pool) : Plain p p.maybeCloseShutdownLocked := by
  unfold maybeCloseShutdownLocked
  split
  · exact .refl p
  · exact ⟨by simp, fun _ _ => rfl, fun _ _ _ => rfl, fun _ h => .inl h, fun _ h => h,
      Nat.le_refl _⟩

/-! ## Marking -/

/-- Entries are marked by their configuration. -/
theorem sweep_effect (mark : ProviderConfig → Option Bool) (order : List EntryID) : ∀ p : Pool,
    Plain { p with heap := (sweep (fun entry => mark entry.config) order p).heap }
        (sweep (fun entry => mark entry.config) order p) ∧
      ∀ x, ((sweep (fun entry => mark entry.config) order p).heap x).config = (p.heap x).config ∧
        ((sweep (fun entry => mark entry.config) order p).heap x).retiring =
          if x ∈ order then (mark (p.heap x).config).getD (p.heap x).retiring
          else (p.heap x).retiring := by
  induction order with
  | nil => exact fun p => ⟨.refl _, fun x => ⟨rfl, by simp [sweep]⟩⟩
  | cons e order ih =>
    intro p
    rw [sweep]
    cases marked : mark (p.heap e).config with
    | none =>
      obtain ⟨plain, heap⟩ := ih p
      refine ⟨plain, fun x => ⟨(heap x).1, (heap x).2.trans ?_⟩⟩
      by_cases same : x = e
      · subst same
        simp [marked]
      · simp [same]
    | some retiring =>
      dsimp only
      set q := (p.setEntry e { p.heap e with retiring }).retireEntryLocked e with q_eq
      obtain ⟨plain, heap⟩ := ih q
      have kept : q.heap = update p.heap e { p.heap e with retiring } := by
        rw [q_eq]
        obtain same | ⟨_, _, _, _, _, _, eq⟩ :=
          (p.setEntry e { p.heap e with retiring }).retireEntryLocked_cases e
        · rw [same]
          rfl
        · rw [eq]
          rfl
      have dropped : Plain { p with heap := q.heap } q := by
        have := Plain.retire (p.setEntry e { p.heap e with retiring }) e
        rw [← q_eq] at this
        rw [kept]
        exact this
      refine ⟨?_, fun x => ?_⟩
      · have first : Plain { p with heap := (sweep (fun entry => mark entry.config) order q).heap }
            { q with heap := (sweep (fun entry => mark entry.config) order q).heap } :=
          ⟨dropped.closed, fun _ _ => rfl, fun _ _ _ => rfl, dropped.ids, dropped.left,
            dropped.next⟩
        exact first.trans_plain plain
      obtain ⟨config, mark'⟩ := heap x
      rw [kept] at config mark'
      by_cases same : x = e
      · subst same
        rw [update_self] at config mark'
        refine ⟨config, mark'.trans ?_⟩
        simp [marked]
      rw [update_of_ne same] at config mark'
      refine ⟨config, mark'.trans ?_⟩
      simp [same]

theorem Effect.sweep (closed : q.closed = (p.closed || closes)) (heap : q.heap = p.heap)
    (next : q.next = p.next) (entries : q.entries = p.entries) (retired : q.retired = p.retired)
    (begun : q.begun = p.begun) :
    Effect mark closes p (Pool.sweep (fun entry => mark entry.config) q.ids q) := by
  obtain ⟨plain, after⟩ := sweep_effect mark q.ids q
  have sameIds : q.ids = p.ids := by rw [Pool.ids, entries, Pool.ids]
  refine ⟨?_, fun x _ => ?_, fun x hx mem => ?_, fun x mem => ?_, fun r hr => ?_, ?_⟩
  · rw [plain.closed, Bool.or_false]
    exact closed
  · rw [(after x).1, heap]
  · obtain old | young := plain.ids x mem
    · rw [(after x).2, if_pos (by exact old), heap]
    · exact absurd hx (Nat.not_lt.mpr (next ▸ young))
  · obtain old | young := plain.ids x mem
    · exact .inl (sameIds ▸ old)
    · exact .inr (next ▸ young)
  · exact plain.left r (by rw [retired, begun]; exact hr)
  · exact next ▸ plain.next

end Pool

open Pool

/-! ## Steps -/

theorem callStep_plain (taken : callStep p i call label = some p') : Plain p p' := by
  cases callStep_cases taken with
  | idle => exact .refl p
  | phase => exact .setPhase ..
  | look =>
    unfold Pool.look
    split
    · exact .setPhase ..
    split
    · dsimp only
      split
      · exact .setPhase ..
      split
      · exact .setPhase ..
      · refine Effect.trans_plain ?_ (.setPhase ..)
        exact Plain.setEntry rfl rfl
    · refine Effect.trans_plain ?_ (.setPhase ..)
      refine ⟨by simp [Pool.setEntry], fun x hx => ?_, fun x hx _ => ?_, fun x mem => ?_,
        fun _ h => h, Nat.le_succ _⟩
      · simp [Pool.setEntry, update_of_ne (Nat.ne_of_lt hx)]
      · simp [Pool.setEntry, update_of_ne (Nat.ne_of_lt hx)]
      obtain rfl | mem := List.mem_cons.mp mem
      · exact .inr (Nat.le_refl _)
      · exact .inl mem
  | built =>
    refine Effect.trans_plain ?_ (.setPhase ..)
    exact Plain.setEntry rfl rfl
  | buildFailed =>
    refine Effect.trans_plain ?_ (.close _)
    refine Effect.trans_plain ?_ (.setPhase ..)
    refine Effect.trans_plain ?_ (.drop ..)
    exact Plain.setEntry rfl rfl
  | release =>
    refine Effect.trans_plain ?_ (.setPhase ..)
    refine Effect.trans_plain ?_ (.retire ..)
    exact Plain.setEntry rfl rfl

theorem step_effect (taken : step label p = some p') :
    Effect (fun config => label.mark p.closed config) label.closes p p' := by
  cases label with
  | acquire config =>
    cases taken
    exact ⟨by simp [Label.closes], fun _ _ => rfl, fun _ _ _ => rfl, fun _ h => .inl h,
      fun _ h => h, Nat.le_refl _⟩
  | reconcile configs =>
    cases taken
    unfold reconcile
    split
    · rename_i closed
      simp only [Label.mark, closed, if_true]
      exact Plain.refl p
    rename_i stillOpen
    simp only [Label.mark, if_neg stillOpen]
    exact Effect.sweep (by simp [Label.closes]) rfl rfl rfl rfl rfl
  | retireCredential credentialID =>
    cases taken
    unfold retireCredential
    split
    · rename_i zero
      simp only [Label.mark, zero, ne_eq, not_true_eq_false, false_and, if_false]
      exact Plain.refl p
    rename_i nonzero
    have same : (fun entry : Entry =>
        if entry.config.credentialPartitionID ≠ credentialID then none else some true) =
        fun entry => (Label.retireCredential credentialID).mark p.closed entry.config := by
      funext entry
      by_cases partition : entry.config.credentialPartitionID = credentialID <;>
        simp [Label.mark, nonzero, partition]
    rw [same]
    exact Effect.sweep (by simp [Label.closes]) rfl rfl rfl rfl rfl
  | beginShutdown =>
    cases taken
    refine Effect.trans_plain ?_ (.close _)
    exact Effect.sweep (by simp [Label.closes]) rfl rfl rfl rfl rfl
  | startShutdown r =>
    simp only [step] at taken
    split at taken <;> cases taken
    refine ⟨by simp [Label.closes], fun _ _ => rfl, fun _ _ _ => rfl, fun _ h => .inl h,
      fun r' hr => ?_, Nat.le_refl _⟩
    by_cases same : r' = r
    · simp [same]
    simp only [List.mem_append, List.mem_singleton] at hr ⊢
    rw [List.mem_erase_of_ne same]
    tauto
  | completed r =>
    simp only [step] at taken
    split at taken <;> cases taken
    refine Effect.trans_plain ?_ (.close _)
    exact ⟨by simp [Label.closes], fun _ _ => rfl, fun _ _ _ => rfl, fun _ h => .inl h,
      fun _ h => h, Nat.le_refl _⟩
  | _ =>
    obtain ⟨call, -, taken⟩ := bind_eq_some_iff.mp taken
    exact callStep_plain taken

end ApiLoad.Bifrost
