import Mathlib.Data.Nat.Init
import Mathlib.Order.Nat

/-!
# Systems of steps

A concurrent program as a set of labelled steps on one state. A step that cannot be taken in a state
is `none` there; an interleaving of the parties is a list of labels. Invariants are carried from
step to step, and a party that is scheduled often enough gets done if each of its steps lowers a
rank that no other step raises.
-/
namespace ApiLoad.Foundation.Transition

variable {σ ι : Type}

/-- The state after some steps, if they can be taken in this order. -/
def run (step : ι → σ → Option σ) (labels : List ι) (s : σ) : Option σ :=
  labels.foldlM (fun s label => step label s) s

/-- The states that some interleaving leads to. -/
inductive Reachable (step : ι → σ → Option σ) (init : σ) : σ → Prop
  | init : Reachable step init init
  | step {s s' : σ} {label : ι} (h : Reachable step init s) (hs : step label s = some s') :
      Reachable step init s'

/-- What a step behind a guard has done. -/
theorem of_guard {c : Prop} [Decidable c] {s s' : σ} (h : (if c then some s else none) = some s') :
    c ∧ s = s' := by
  simpa using h

variable {step : ι → σ → Option σ} {init s s' : σ}

theorem Reachable.invariant {P : σ → Prop} (start : P init)
    (keep : ∀ label s s', P s → step label s = some s' → P s') (h : Reachable step init s) :
    P s := by
  induction h with
  | init => exact start
  | step _ hs ih => exact keep _ _ _ ih hs

theorem run_invariant {P : σ → Prop} (keep : ∀ label s s', P s → step label s = some s' → P s')
    (start : P s) (hr : run step labels s = some s') : P s' := by
  induction labels generalizing s with
  | nil =>
    cases hr
    exact start
  | cons label labels ih =>
    obtain ⟨s₁, hs, hr⟩ := Option.bind_eq_some_iff.mp hr
    exact ih (keep label s s₁ start hs) hr

theorem Reachable.run (h : Reachable step init s) (hr : Transition.run step labels s = some s') :
    Reachable step init s' :=
  run_invariant (fun _ _ _ h hs => h.step hs) h hr

/-! ## Schedules -/

/-- An infinite run. At each moment some step is taken, or the system rests. -/
structure Schedule (step : ι → σ → Option σ) where
  state : ℕ → σ
  label : ℕ → Option ι
  next : ∀ n, match label n with
    | some l => step l (state n) = some (state (n + 1))
    | none => state (n + 1) = state n

/-- A party that can take a step from some moment on takes one. -/
def Schedule.Fair (run : Schedule step) (own : ι → Prop) : Prop :=
  ∀ n, (∀ m ≥ n, ∃ l, own l ∧ (step l (run.state m)).isSome) →
    ∃ m ≥ n, ∃ l, run.label m = some l ∧ own l

/-- A party that can take a step again and again takes one. -/
def Schedule.StronglyFair (run : Schedule step) (own : ι → Prop) : Prop :=
  ∀ n, (∀ m ≥ n, ∃ k ≥ m, ∃ l, own l ∧ (step l (run.state k)).isSome) →
    ∃ m ≥ n, ∃ l, run.label m = some l ∧ own l

/-- What no step undoes holds from its beginning on. -/
theorem Schedule.onwards (run : Schedule step) {P : σ → Prop} (hn : start ≤ n)
    (keep : ∀ m ≥ start, ∀ l s', P (run.state m) → step l (run.state m) = some s' → P s')
    (h : P (run.state start)) : P (run.state n) := by
  induction n, hn using Nat.le_induction with
  | base => exact h
  | succ n hn ih =>
    have next := run.next n
    split at next
    · exact keep n hn _ _ ih next
    · exact next ▸ ih

/-- Once a phase is entered that no step leaves and in which a party can always go on, the party is
finished at last, provided that its own steps lower a rank that no step raises. -/
theorem Schedule.eventually (run : Schedule step) {phase finished : σ → Prop} (fair : run.Fair own)
    (rank : σ → ℕ) (entered : phase (run.state start))
    (stays : ∀ l s s', phase s → ¬ finished s → step l s = some s' → phase s')
    (keeps : ∀ l s s', phase s → ¬ finished s → step l s = some s' → rank s' ≤ rank s)
    (lowers : ∀ l s s', phase s → ¬ finished s → own l → step l s = some s' → rank s' < rank s)
    (enabled : ∀ s, phase s → ¬ finished s → ∃ l, own l ∧ (step l s).isSome) :
    ∃ n ≥ start, finished (run.state n) := by
  by_contra never
  have unfinished (n : ℕ) (hn : start ≤ n) : ¬ finished (run.state n) := fun h => never ⟨n, hn, h⟩
  have inPhase (n : ℕ) (hn : start ≤ n) : phase (run.state n) :=
    run.onwards hn (fun m hm l s' h hs => stays l _ s' h (unfinished m hm) hs) entered
  -- Otherwise the rank would go down without end.
  have descend (r : ℕ) : ∃ n ≥ start, rank (run.state n) + r ≤ rank (run.state start) := by
    induction r with
    | zero => exact ⟨start, le_rfl, le_rfl⟩
    | succ r ih =>
      obtain ⟨n, hn, hrank⟩ := ih
      obtain ⟨m, hm, l, hl, hown⟩ := fair n fun m hm =>
        enabled _ (inPhase m (hn.trans hm)) (unfinished m (hn.trans hm))
      have below : rank (run.state m) ≤ rank (run.state n) := by
        refine run.onwards (P := fun s => rank s ≤ rank (run.state n)) hm ?_ le_rfl
        intro k hk l s' h hs
        exact (keeps l _ s' (inPhase k (hn.trans hk)) (unfinished k (hn.trans hk)) hs).trans h
      have next := run.next m
      simp only [hl] at next
      have lower := lowers _ _ _ (inPhase m (hn.trans hm)) (unfinished m (hn.trans hm)) hown next
      exact ⟨m + 1, by omega, by omega⟩
  obtain ⟨n, -, hn⟩ := descend (rank (run.state start) + 1)
  omega

/-- A rank that is lowered at last, unless it is zero, gets to zero. -/
theorem Schedule.eventually_zero (run : Schedule step) (rank : σ → ℕ)
    (lower : ∀ n ≥ start, rank (run.state n) ≠ 0 →
      ∃ m ≥ n, rank (run.state m) < rank (run.state n)) :
    ∃ n ≥ start, rank (run.state n) = 0 := by
  have down (r n : ℕ) (hn : start ≤ n) (h : rank (run.state n) = r) :
      ∃ m ≥ start, rank (run.state m) = 0 := by
    induction r using Nat.strong_induction_on generalizing n with
    | _ r ih =>
      by_cases zero : rank (run.state n) = 0
      · exact ⟨n, hn, zero⟩
      · obtain ⟨m, hm, less⟩ := lower n hn zero
        exact ih _ (h ▸ less) m (hn.trans hm) rfl
  exact down _ start le_rfl rfl

/-! ## Finite runs -/

theorem run_append (first second : List ι) (s : σ) :
    run step (first ++ second) s = (run step first s).bind (run step second) := by
  rw [run, List.foldlM_append]
  rfl

/-- The schedule that takes some steps and rests then. -/
def Schedule.ofLabels (labels : List ι) (s : σ) (possible : (run step labels s).isSome) :
    Schedule step where
  state n := (run step (labels.take n) s).getD s
  label n := labels[n]?
  next n := by
    have before : (run step (labels.take n) s).isSome := by
      rw [← List.take_append_drop n labels, run_append] at possible
      exact Option.isSome_of_isSome_bind possible
    obtain ⟨s₁, h₁⟩ := Option.isSome_iff_exists.mp before
    cases hl : labels[n]? with
    | none =>
      have ended := List.getElem?_eq_none_iff.mp hl
      simp only [List.take_of_length_le ended, List.take_of_length_le (Nat.le_succ_of_le ended)]
    | some l =>
      have taken : labels.take (n + 1) = labels.take n ++ [l] := by
        rw [List.take_add_one, hl]
        rfl
      have after : (run step (labels.take (n + 1)) s).isSome := by
        rw [← List.take_append_drop (n + 1) labels, run_append] at possible
        exact Option.isSome_of_isSome_bind possible
      obtain ⟨s₂, h₂⟩ := Option.isSome_iff_exists.mp after
      have last : step l s₁ = some s₂ := by
        rw [taken, run_append, h₁] at h₂
        simpa [run] using h₂
      simpa [h₁, h₂] using last

section Rest

variable {labels : List ι} {possible : (Transition.run step labels s).isSome}

theorem Schedule.ofLabels_rest (hr : Transition.run step labels s = some s')
    (hn : labels.length ≤ n) : (ofLabels labels s possible).state n = s' := by
  simp [ofLabels, List.take_of_length_le hn, hr]

/-- A party that cannot go on in the end has been treated fairly. -/
theorem Schedule.ofLabels_fair (hr : Transition.run step labels s = some s')
    (rests : ∀ l, own l → step l s' = none) :
    (ofLabels labels s possible).Fair own ∧ (ofLabels labels s possible).StronglyFair own := by
  constructor
  · intro n enabled
    obtain ⟨l, hl, can⟩ := enabled (max n labels.length) (Nat.le_max_left _ _)
    rw [ofLabels_rest hr (Nat.le_max_right _ _), rests l hl] at can
    cases can
  · intro n enabled
    obtain ⟨k, hk, l, hl, can⟩ := enabled (max n labels.length) (Nat.le_max_left _ _)
    rw [ofLabels_rest hr ((Nat.le_max_right _ _).trans hk), rests l hl] at can
    cases can

end Rest

end ApiLoad.Foundation.Transition
