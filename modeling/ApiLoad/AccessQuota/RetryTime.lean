import ApiLoad.AccessQuota.Restart

/-!
# The retry time

A blocked key stays blocked until the last window of its exhausted rules has ended, and is allowed
from then on, whatever is admitted or acknowledged in between.
-/
namespace ApiLoad.AccessQuota
open Std Foundation AccessKeyEntry

variable {rule : RuntimeRule} {nowMS : Int}

def RuntimeRule.Exhausted (rule : RuntimeRule) (nowMS : Int) : Prop :=
  (ruleViewLocked rule nowMS).status = .exhausted

theorem exhausted_iff : rule.Exhausted nowMS ↔
    rule.definition.limitNanoUSD ≤ rule.usedNanoUSD ∧ (rule.definition.kind = .periodic →
      ∃ started ends, rule.windowStartedAtMS = some started ∧
        rule.windowEndsAtMS = some ends ∧ nowMS < ends) := by
  unfold RuntimeRule.Exhausted ruleViewLocked periodicInactive
  cases rule.windowStartedAtMS <;> cases rule.windowEndsAtMS <;> grind

/-- What the loop of `decisionLocked` has found. -/
theorem decisionRounds_spec (nowMS : Int) {rules : List RuntimeRule}
    (valid : ∀ rule ∈ rules, rule.definition.Valid) :
    let acc := rules.foldl (decisionRound nowMS) (allowedDecision, 0)
    (acc.1.allowed = true ↔ ∀ rule ∈ rules, ¬ rule.Exhausted nowMS) ∧
    (acc.1.recoverable = false ↔
      ∃ rule ∈ rules, rule.Exhausted nowMS ∧ rule.definition.kind = .total) ∧
    (acc.1.recoverable = true →
      (∀ rule ∈ rules, rule.Exhausted nowMS → ∃ ends ≤ acc.2, rule.windowEndsAtMS = some ends) ∧
      (acc.2 = 0 ∨ ∃ rule ∈ rules, rule.Exhausted nowMS ∧ rule.windowEndsAtMS = some acc.2)) := by
  induction rules using List.reverseRecOn with
  | nil => simp [allowedDecision]
  | append_singleton rules rule ih =>
    rw [List.foldl_append, List.foldl_cons, List.foldl_nil]
    specialize ih fun r hr => valid r (by simp [hr])
    generalize rules.foldl (decisionRound nowMS) (allowedDecision, 0) = acc at ih ⊢
    have window : rule.Exhausted nowMS → rule.definition.kind ≠ .total →
        ∃ ends, rule.windowEndsAtMS = some ends ∧
          (ruleViewLocked rule nowMS).windowEndsAtMS = some ends := by
      intro h notTotal
      obtain ⟨total, -⟩ | ⟨periodic, -⟩ := (valid rule (by simp)).shape
      · exact absurd total notTotal
      obtain ⟨started, ends, hs, he, hlt⟩ := (exhausted_iff.mp h).2 periodic
      refine ⟨ends, he, ?_⟩
      simp [ruleViewLocked, periodicInactive, hs, he, hlt.not_ge]
    dsimp only at ih ⊢
    unfold RuntimeRule.Exhausted at *
    unfold decisionRound
    grind

variable {runtime : Runtime} {key : Nat} {now : Time}

/-- The rules of a key, as `Check` sees them. -/
theorem check_spec (valid : ∀ id rule, ruleAt runtime key id = some rule → rule.definition.Valid) :
    ((check runtime key now).allowed = true ↔
      ∀ id rule, ruleAt runtime key id = some rule → ¬ rule.Exhausted now.unixMilli) ∧
    ((check runtime key now).recoverable = false ↔ ∃ id rule, ruleAt runtime key id = some rule ∧
      rule.Exhausted now.unixMilli ∧ rule.definition.kind = .total) ∧
    ((check runtime key now).recoverable = true → (check runtime key now).allowed = false →
      0 ≤ now.unixMilli → ∃ next, (check runtime key now).nextAvailableAtMS = some next ∧
        (∃ id rule, ruleAt runtime key id = some rule ∧ rule.Exhausted now.unixMilli ∧
          rule.windowEndsAtMS = some next) ∧
        ∀ id rule, ruleAt runtime key id = some rule → rule.Exhausted now.unixMilli →
          ∃ ends ≤ next, rule.windowEndsAtMS = some ends) := by
  unfold check
  cases hl : lockEntry runtime key with
  | none => simp [ruleAt, hl, allowedDecision]
  | some entry =>
    have mem (rule : RuntimeRule) :
      rule ∈ entry.rules ↔ ∃ id, ruleAt runtime key id = some rule := by
      simp [ruleAt, hl, byID_eq_some]
    obtain ⟨allowed, recoverable, next⟩ := decisionRounds_spec now.unixMilli
      fun rule hr => (mem rule).mp hr |>.elim fun id h => valid id rule h
    dsimp only [decisionLocked]
    generalize entry.rules.foldl (decisionRound now.unixMilli) (allowedDecision, 0) = acc
      at allowed recoverable next ⊢
    obtain ⟨decision, last⟩ := acc
    simp only [mem] at allowed recoverable next ⊢
    refine ⟨by grind, by grind, fun hr hb epoch => ?_⟩
    have found : decision.recoverable = true ∧ decision.allowed = false := by grind
    obtain ⟨ends_le, ends_eq⟩ := next found.1
    obtain ⟨rule, ⟨id, hrule⟩, hex⟩ : ∃ rule, (∃ id, ruleAt runtime key id = some rule) ∧
        rule.Exhausted now.unixMilli := by grind
    have later : now.unixMilli < last := by
      obtain ⟨ends, hle, he⟩ := ends_le rule ⟨id, hrule⟩ hex
      have := (valid id rule hrule).shape
      have := exhausted_iff.mp hex
      grind
    have positive : 0 < last := by omega
    rw [if_pos (by simp [found, positive])]
    exact ⟨last, rfl, by grind, fun id rule hr => ends_le rule ⟨id, hr⟩⟩

/-! ## Calls that leave the budget alone -/

/-- The calls other than `Complete` and `Reconcile`. -/
def Op.Quiet : Op → Prop
  | .complete _ _ | .reconcile _ => False
  | _ => True

/-- Such a call changes nothing that `Check` reads of a rule, unless it is an admission that opens
its window. -/
theorem quiet_ruleAt {op : Op} (quiet : op.Quiet) (runtime : Runtime) (key id : Nat) :
    ∃ f, ruleAt (apply runtime op) key id = (ruleAt runtime key id).map f ∧
      ((∀ rule, (f rule).clean = rule.clean) ∨
        ∃ s, op = .admitKey key s ∧ (check runtime key s).allowed = true ∧ f = openWindow s) := by
  have same (h : ruleAt (apply runtime op) key id = ruleAt runtime key id) :
      ∃ f, ruleAt (apply runtime op) key id = (ruleAt runtime key id).map f ∧
        ((∀ rule, (f rule).clean = rule.clean) ∨
          ∃ s, op = .admitKey key s ∧ (check runtime key s).allowed = true ∧ f = openWindow s) :=
    ⟨fun rule => rule, by simp [h], .inl fun _ => rfl⟩
  cases op with
  | complete | reconcile => cases quiet
  | restore states => exact same (ruleAt_restore ..)
  | check | snapshot | dirtySnapshots => exact same rfl
  | admitKey target s =>
    by_cases h : target = key ∧ (check runtime target s).allowed = true
    · obtain ⟨rfl, h⟩ := h
      exact ⟨_, by simp [apply, ruleAt_admitKey, h], .inr ⟨s, rfl, h, rfl⟩⟩
    · exact same (by rw [apply, ruleAt_admitKey, if_neg h])
  | ack target ruleID revision version =>
    by_cases h : target = key ∧ ruleID = id
    · refine ⟨ackRule revision version, by rw [apply, ruleAt_ack, if_pos h], .inl fun rule => ?_⟩
      unfold ackRule
      split <;> rfl
    · exact same (by rw [apply, ruleAt_ack, if_neg h])

theorem exhausted_congr {rule' : RuntimeRule} (h : rule'.clean = rule.clean) :
    rule'.Exhausted nowMS ↔ rule.Exhausted nowMS := by
  unfold RuntimeRule.Exhausted
  rw [← ruleViewLocked_clean rule', h, ruleViewLocked_clean]

theorem valid_quiet {op : Op} (quiet : op.Quiet)
    (valid : ∀ id rule, ruleAt runtime key id = some rule → rule.definition.Valid) :
    ∀ id rule, ruleAt (apply runtime op) key id = some rule → rule.definition.Valid := by
  intro id rule h
  obtain ⟨f, hf, hcase⟩ := quiet_ruleAt quiet runtime key id
  obtain ⟨before, hb, rfl⟩ := Option.map_eq_some_iff.mp (hf ▸ h)
  obtain hclean | ⟨s, -, -, rfl⟩ := hcase
  · exact congrArg RuntimeRule.definition (hclean before) ▸ valid id before hb
  · exact openWindow_definition s before ▸ valid id before hb

section Calls

variable {calls : List Op} (quiet : ∀ op ∈ calls, op.Quiet)
include quiet

/-- A key that is blocked at a reading stays so, if nobody was admitted after it. -/
theorem blocked_quiet (valid : ∀ id rule, ruleAt runtime key id = some rule → rule.definition.Valid)
    {t : Time} (meanwhile : ∀ s, .admitKey key s ∈ calls → s.unixMilli ≤ t.unixMilli)
    (blocked : (check runtime key t).allowed = false) :
    (check (calls.foldl apply runtime) key t).allowed = false := by
  induction calls generalizing runtime with
  | nil => exact blocked
  | cons op calls ih =>
    have valid' := valid_quiet (quiet op (by simp)) valid
    refine ih (fun op h => quiet op (by simp [h])) valid' (fun s h => meanwhile s (by simp [h])) ?_
    rw [← Bool.not_eq_true, (check_spec valid).1] at blocked
    rw [← Bool.not_eq_true, (check_spec valid').1]
    push Not at blocked ⊢
    obtain ⟨id, rule, hrule, hex⟩ := blocked
    obtain ⟨f, hf, hcase⟩ := quiet_ruleAt (quiet op (by simp)) runtime key id
    rw [hrule] at hf
    obtain hclean | ⟨s, rfl, hallowed, -⟩ := hcase
    · exact ⟨id, f rule, hf, (exhausted_congr (hclean rule)).mpr hex⟩
    -- The rule was exhausted at the earlier reading as well.
    have hle := meanwhile s (by simp)
    have hearly : rule.Exhausted s.unixMilli := by
      rw [exhausted_iff] at hex ⊢
      grind
    exact absurd hearly ((check_spec valid).1.mp hallowed id rule hrule)

/-- A key that is not blocked at a reading stays so. -/
theorem allowed_quiet (valid : ∀ id rule, ruleAt runtime key id = some rule → rule.definition.Valid)
    {t : Time} (free : (check runtime key t).allowed = true) :
    (check (calls.foldl apply runtime) key t).allowed = true := by
  induction calls generalizing runtime with
  | nil => exact free
  | cons op calls ih =>
    have valid' := valid_quiet (quiet op (by simp)) valid
    refine ih (fun op h => quiet op (by simp [h])) valid' ?_
    rw [(check_spec valid).1] at free
    rw [(check_spec valid').1]
    intro id rule h
    obtain ⟨f, hf, hcase⟩ := quiet_ruleAt (quiet op (by simp)) runtime key id
    obtain ⟨before, hb, rfl⟩ := Option.map_eq_some_iff.mp (hf ▸ h)
    obtain hclean | ⟨s, -, -, rfl⟩ := hcase
    · exact mt (exhausted_congr (hclean before)).mp (free id before hb)
    -- An opened window is empty, and no limit is zero.
    have hlimit := (valid id before hb).limit
    unfold openWindow
    split
    · simp [exhausted_iff, advanceVersion, hlimit.not_ge]
    · exact free id before hb

end Calls

theorem admitKey_allowed (runtime : Runtime) (key : Nat) (t : Time) :
    (admitKey runtime key t).2.2.allowed = (check runtime key t).allowed := by
  unfold admitKey check
  cases lockEntry runtime key with
  | none => rfl
  | some entry => cases h : (decisionLocked entry t.unixMilli).allowed <;> simp [h, allowedDecision]

/-- The retry time of a blocked key is exact from the Unix epoch on: the decision is final exactly
when a total rule is exhausted, and otherwise names the first reading at which the key is allowed
again; and an admission leaves its key allowed. -/
theorem retry_time_exact (ops : List Op) (key : Nat) (now : Time) :
    (0 ≤ now.unixMilli → (check (run ops) key now).allowed = false →
      ((check (run ops) key now).recoverable = false ↔ ∃ id rule,
        ruleAt (run ops) key id = some rule ∧ rule.definition.kind = .total ∧
        rule.definition.limitNanoUSD ≤ rule.usedNanoUSD) ∧
      ((check (run ops) key now).recoverable = true → ∃ next,
        (check (run ops) key now).nextAvailableAtMS = some next ∧
        ∀ calls : List Op, (∀ op ∈ calls, op.Quiet) → ∀ t : Time, now.unixMilli ≤ t.unixMilli →
          (∀ s, .admitKey key s ∈ calls → s.unixMilli ≤ t.unixMilli) →
          ((check (run (ops ++ calls)) key t).allowed = true ↔ next ≤ t.unixMilli) ∧
          ((admitKey (run (ops ++ calls)) key t).2.2.allowed = true ↔ next ≤ t.unixMilli))) ∧
    ((admitKey (run ops) key now).2.2.allowed = true →
      (check (run ops) key now).allowed = true ∧
      (check (run (ops ++ [.admitKey key now])) key now).allowed = true ∧
      ∀ id, (ruleAt (run (ops ++ [.admitKey key now])) key id).map RuntimeRule.definition =
        (ruleAt (run ops) key id).map RuntimeRule.definition) := by
  have valid : ∀ id rule, ruleAt (run ops) key id = some rule → rule.definition.Valid :=
    fun id rule => definition_valid
  have after (calls : List Op) : run (ops ++ calls) = calls.foldl apply (run ops) := by simp [run]
  refine ⟨fun epoch blocked => ⟨?_, fun recoverable => ?_⟩, fun allowed => ?_⟩
  · rw [(check_spec valid).2.1]
    simp only [exhausted_iff]
    grind
  · obtain ⟨next, found, ⟨id, rule, hrule, hex, hends⟩, longest⟩ :=
      (check_spec valid).2.2 recoverable blocked epoch
    refine ⟨next, found, fun calls quiet t later meanwhile => ?_⟩
    rw [admitKey_allowed, and_self, after]
    constructor
    · intro allowed
      by_contra early
      have still : (check (run ops) key t).allowed = false := by
        rw [← Bool.not_eq_true, (check_spec valid).1]
        intro free
        refine free id rule hrule ?_
        rw [exhausted_iff] at hex ⊢
        grind
      simp [blocked_quiet quiet valid meanwhile still] at allowed
    · intro past
      refine allowed_quiet quiet valid ((check_spec valid).1.mpr fun id rule hrule hex => ?_)
      have hnow : rule.Exhausted now.unixMilli := by
        rw [exhausted_iff] at hex ⊢
        grind
      have := longest id rule hrule hnow
      have := mt (check_spec valid).2.1.mpr (ne_of_eq_of_ne recoverable (by decide))
      have := (valid id rule hrule).shape
      rw [exhausted_iff] at hex
      grind
  · rw [admitKey_allowed] at allowed
    have quiet : ∀ op ∈ [Op.admitKey key now], op.Quiet := by simp [Op.Quiet]
    refine ⟨allowed, after _ ▸ allowed_quiet quiet valid allowed, fun id => ?_⟩
    rw [run_snoc, apply, ruleAt_admitKey]
    split_ifs <;> simp [Function.comp_def]

def spentRun (start : Time) : List Op :=
  [.reconcile (ExtTreeMap.ofList [(1, [sampleRule])]), .admitKey 1 start,
    .complete sampleTicket 100]

theorem retry_time_exact_sample :
    (∃ next, (check (run (spentRun (.unix 0))) 1 (.unix 10)).nextAvailableAtMS = some next ∧
      ∀ t, Time.unix 10 ≤ t →
        ((check (run (spentRun (.unix 0))) 1 t).allowed = true ↔ next ≤ t.unixMilli)) ∧
    (check (run (spentRun (.unix 0) ++ [.admitKey 1 (.unix 60)])) 1 (.unix 60)).allowed = true := by
  refine ⟨?_, (retry_time_exact (spentRun (.unix 0)) 1 (.unix 60)).2 (by decide +kernel) |>.2.1⟩
  obtain ⟨next, found, h⟩ := ((retry_time_exact (spentRun (.unix 0)) 1 (.unix 10)).1 (by decide)
    (by decide +kernel)).2 (by decide +kernel)
  refine ⟨next, found, fun t later => ?_⟩
  have := h [] (by simp) t (Time.unixMilli_le later) (by simp)
  simpa using this.1

/-- Before the epoch a window can end at a time that is not positive, and the answer lacks it. And
an admission at a later reading, after which the clock goes back, opens a window before the time
that was named. -/
theorem retry_time_missing :
    (¬ ∀ (ops : List Op) (key : Nat) (now : Time),
      (check (run ops) key now).allowed = false → (check (run ops) key now).recoverable = true →
        (check (run ops) key now).nextAvailableAtMS ≠ none) ∧
    ¬ ∀ (ops : List Op) (key : Nat) (now : Time), 0 ≤ now.unixMilli →
      (check (run ops) key now).allowed = false →
        ∀ next, (check (run ops) key now).nextAvailableAtMS = some next →
          ∀ calls : List Op, (∀ op ∈ calls, op.Quiet) → ∀ t : Time, now.unixMilli ≤ t.unixMilli →
            t.unixMilli < next → (check (run (ops ++ calls)) key t).allowed = false := by
  constructor
  · intro h
    exact h (spentRun (.unix (-120))) 1 (.unix (-100)) (by decide +kernel) (by decide +kernel)
      (by decide +kernel)
  · intro h
    have blocked := h (spentRun (.unix 0)) 1 (.unix 10) (by decide) (by decide +kernel) 60000
      (by decide +kernel) [.admitKey 1 (.unix 60)] (by simp [Op.Quiet]) (.unix 10) le_rfl
      (by decide)
    have allowed : (check (run (spentRun (.unix 0) ++ [.admitKey 1 (.unix 60)])) 1
        (.unix 10)).allowed = true := by decide +kernel
    rw [allowed] at blocked
    cases blocked

end ApiLoad.AccessQuota
