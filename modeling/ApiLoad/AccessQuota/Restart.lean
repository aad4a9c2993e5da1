import ApiLoad.AccessQuota.Run

/-!
# Restarts

Every state of the runtime that requests can reach passes the checks of `Restore`, and a runtime
restored from it behaves like the original. The two differ only in the marks for the checkpoint
worker and in the fault counter, which no answer depends on.
-/
namespace ApiLoad.AccessQuota
open Std Foundation AccessKeyEntry OrderedMap RestoredState List

/-! ## What answers depend on -/

def RuntimeRule.clean (rule : RuntimeRule) : RuntimeRule := { rule with dirty := false }

/-- What the answers for a key depend on. -/
def AccessKeyEntry.observed (entry : AccessKeyEntry) : List RuntimeRule :=
  entry.rules.map RuntimeRule.clean

/-- Two runtimes that no caller can tell apart. -/
def Agree (left right : Runtime) : Prop :=
  ∀ key, (lockEntry left key).map observed =
    (lockEntry right key).map observed

theorem ruleViewLocked_clean (rule : RuntimeRule) (nowMS : Int) :
    ruleViewLocked rule.clean nowMS = ruleViewLocked rule nowMS := rfl

theorem decisionRound_clean (nowMS : Int) (acc : Decision × Int) (rule : RuntimeRule) :
    decisionRound nowMS acc rule.clean = decisionRound nowMS acc rule := rfl

section

variable {left right : AccessKeyEntry} (h : left.observed = right.observed)
include h

theorem decisionLocked_observed (nowMS : Int) :
    decisionLocked left nowMS = decisionLocked right nowMS := by
  have fold : ∀ entry : AccessKeyEntry, ∀ acc,
      entry.rules.foldl (decisionRound nowMS) acc =
        entry.observed.foldl (decisionRound nowMS) acc := by
    intro entry acc
    simp only [observed, foldl_map, decisionRound_clean]
  simp only [decisionLocked, fold, h]

theorem views_observed (nowMS : Int) : left.rules.map (ruleViewLocked · nowMS) =
      right.rules.map (ruleViewLocked · nowMS) := by
  have := congrArg (map (ruleViewLocked · nowMS)) h
  simpa [observed, Function.comp_def, ruleViewLocked_clean] using this

/-- A change of the rules whose outcome does not depend on the marks. -/
theorem observed_mapRules (same : ∀ rule, (f rule).id = rule.id)
    (hf : ∀ rule, (f rule.clean).clean = (f rule).clean) :
    (left.mapRules f same).observed = (right.mapRules f same).observed := by
  have := congrArg (map fun rule => (f rule).clean) h
  simpa [observed, mapRules, Function.comp_def, hf] using this

end

theorem openWindow_clean (now : Time) (rule : RuntimeRule) :
    (openWindow now rule.clean).clean = (openWindow now rule).clean := by
  rw [openWindow, openWindow, apply_ite RuntimeRule.clean, apply_ite RuntimeRule.clean]
  rfl

theorem charge_clean (cost : Int) (rule : RuntimeRule) :
    (charge cost rule.clean).clean = (charge cost rule).clean := by
  rw [charge, charge, apply_ite RuntimeRule.clean, apply_ite RuntimeRule.clean]
  rfl

variable {left right : AccessKeyEntry} {tickets : List TicketRule} {runtime : Runtime}
  {id target : Nat} {definition : Rule} {normalized : Normalized} {f : RuntimeRule → RuntimeRule}
  {states : List RestoredState}

theorem byID_observed (h : left.observed = right.observed) (id : Nat) :
    (left.byID id).map RuntimeRule.clean = (right.byID id).map RuntimeRule.clean := by
  have find : ∀ entry : AccessKeyEntry, (entry.byID id).map RuntimeRule.clean =
      entry.observed.find? (·.id = id) := by
    intro entry
    simp only [byID, observed, find?_map]
    rfl
  rw [find, find, h]

theorem cases_of_map_eq {α β γ : Type} {f : α → γ} {g : β → γ} {a : Option α} {b : Option β}
    (h : a.map f = b.map g) :
    (a = none ∧ b = none) ∨ ∃ x y, a = some x ∧ b = some y ∧ f x = g y := by
  cases a <;> cases b <;> simp_all

theorem completeRules_observed (h : left.observed = right.observed)
    (fault fault' : Option CompletionFault) :
    (completeRules cost tickets left fault).1.observed =
      (completeRules cost tickets right fault').1.observed := by
  induction tickets generalizing left right fault fault' with
  | nil => exact h
  | cons first rest ih =>
    have found := byID_observed h first.ruleID
    rw [completeRules, completeRules]
    obtain ⟨hl, hr⟩ | ⟨rule, rule', hl, hr, same⟩ := cases_of_map_eq found
    · rw [hl, hr]
      exact ih h _ _
    rw [hl, hr]
    have covers : first.Covers rule ↔ first.Covers rule' := by
      change first.Covers rule.clean ↔ first.Covers rule'.clean
      rw [same]
    dsimp only
    by_cases hc : first.Covers rule
    · rw [if_pos hc, if_pos (covers.mp hc)]
      refine ih (observed_mapRules h _ fun r => ?_) _ _
      change (if r.id = first.ruleID then charge cost r.clean else r.clean).clean = _
      split
      · exact charge_clean cost r
      · rfl
    · rw [if_neg hc, if_neg (mt covers.mpr hc)]
      exact ih h _ _

/-! ## Agreement is kept -/

theorem lockEntry_insert (entry : AccessKeyEntry) (htarget : target ≠ 0) (faults : Nat)
    (key : Nat) :
    lockEntry { runtime with
      entries := runtime.entries.insert target entry, overflowFaultTotal := faults } key =
      if target = key then some entry else lockEntry runtime key := by
  unfold lockEntry
  by_cases hk : key = 0
  · have : target ≠ key := hk ▸ htarget
    simp [hk, htarget]
  · by_cases ht : target = key <;> simp [hk, ht]

section

variable {left right : Runtime} (h : Agree left right)
include h

theorem Agree.cases (key : Nat) :
    (lockEntry left key = none ∧ lockEntry right key = none) ∨
      ∃ l r, lockEntry left key = some l ∧ lockEntry right key = some r ∧
        l.observed = r.observed :=
  cases_of_map_eq (h key)

theorem Agree.check (key : Nat) (now : Time) : check left key now = check right key now := by
  rcases h.cases key with ⟨hl, hr⟩ | ⟨l, r, hl, hr, he⟩
  · simp [AccessQuota.check, hl, hr]
  · simp [AccessQuota.check, hl, hr, decisionLocked_observed he]

theorem Agree.snapshot (key : Nat) (now : Time) :
    snapshot left key now = snapshot right key now := by
  rcases h.cases key with ⟨hl, hr⟩ | ⟨l, r, hl, hr, he⟩
  · simp [AccessQuota.snapshot, hl, hr]
  · simp [AccessQuota.snapshot, hl, hr, decisionLocked_observed he, views_observed he]

theorem Agree.admission (key : Nat) (now : Time) :
    (admitKey left key now).2 = (admitKey right key now).2 ∧
      Agree (admitKey left key now).1 (admitKey right key now).1 := by
  rcases h.cases key with ⟨hl, hr⟩ | ⟨l, r, hl, hr, he⟩
  · simpa only [admitKey, hl, hr, true_and] using h
  have decision := decisionLocked_observed he now.unixMilli
  have same : ∀ rule : RuntimeRule, (openWindow now rule).id = rule.id := fun rule => by
    simp [RuntimeRule.id]
  have opened := observed_mapRules he same (openWindow_clean now)
  simp only [admitKey, hl, hr, decision]
  by_cases hd : (decisionLocked r now.unixMilli).allowed = true
  swap
  · simpa only [hd, if_true, not_false_eq_true, Bool.false_eq_true, true_and] using h
  simp only [hd, not_true, if_false]
  refine ⟨?_, fun other => ?_⟩
  · have rules := congrArg (map ticketRule) opened
    have listed : ticketRule ∘ RuntimeRule.clean = ticketRule := rfl
    simp only [observed, map_map, listed] at rules
    simpa [ticketFor] using rules
  rw [lockEntry_insert _ (lockEntry_some hl).1, lockEntry_insert _ (lockEntry_some hr).1]
  split_ifs
  · simpa using opened
  · exact h other

theorem Agree.complete (ticket : Ticket) (cost : Int) :
    Agree (complete left ticket cost).1 (complete right ticket cost).1 := by
  unfold AccessQuota.complete
  split_ifs with htrivial
  · exact h
  push Not at htrivial
  rcases h.cases ticket.accessKeyID with ⟨hl, hr⟩ | ⟨l, r, hl, hr, he⟩
  · simpa only [hl, hr] using h
  intro other
  simp only [hl, hr]
  rw [lockEntry_insert _ htrivial.1, lockEntry_insert _ htrivial.1]
  split_ifs
  · simpa using completeRules_observed he none none
  · exact h other

end

def Op.IsRequest : Op → Prop
  | .admitKey _ _ => True
  | .complete _ _ => True
  | _ => False

variable {ops : List Op}

theorem Agree.requests {left right : Runtime} (h : Agree left right)
    (requests : ∀ op ∈ ops, op.IsRequest) :
    Agree (ops.foldl apply left) (ops.foldl apply right) := by
  refine foldl_rel (r := Agree) h fun op hop a b hab => ?_
  have hreq := requests op hop
  cases op with
  | admitKey key now => exact (hab.admission key now).2
  | complete ticket cost => exact hab.complete ticket cost
  | _ => cases hreq

/-! ## What requests can reach -/

variable {key : Nat}

/-- The shape that `Restore` and the first `Reconcile` after it demand of a rule. -/
structure Restartable (rule : RuntimeRule) : Prop where
  valid : rule.definition.Valid
  used_nonneg : 0 ≤ rule.usedNanoUSD
  version_pos : rule.snapshotVersion ≠ 0
  total : rule.definition.kind = .total → rule.windowStartedAtMS = none ∧
    rule.windowEndsAtMS = none ∧ rule.windowGeneration = 0
  periodic : rule.definition.kind = .periodic →
    (rule.windowStartedAtMS = none ∧ rule.windowEndsAtMS = none ∧ rule.usedNanoUSD = 0 ∧
      rule.windowGeneration = 0) ∨
    ∃ started, rule.windowStartedAtMS = some started ∧ 0 ≤ started ∧
      rule.windowEndsAtMS = some (started + rule.definition.periodSeconds * 1000) ∧
      rule.windowGeneration ≠ 0

theorem Restartable.fresh (valid : definition.Valid) :
    Restartable { definition } where
  valid
  used_nonneg := le_rfl
  version_pos := one_ne_zero
  total _ := ⟨rfl, rfl, rfl⟩
  periodic _ := .inl ⟨rfl, rfl, rfl, rfl⟩

theorem advanceVersion_pos {rule : RuntimeRule} (h : rule.snapshotVersion ≠ 0) :
    (advanceVersion rule).snapshotVersion ≠ 0 := by
  simp only [advanceVersion]
  split_ifs <;> omega

theorem Restartable.openWindow (h : Restartable rule) (epoch : 0 ≤ now.unixMilli) :
    Restartable (openWindow now rule) := by
  by_cases ho : rule.definition.kind = .periodic ∧ periodicInactive rule now.unixMilli = true
  swap
  · rwa [openWindow_of_not ho]
  rw [AccessQuota.openWindow, if_pos ho]
  refine ⟨h.valid, le_rfl, advanceVersion_pos h.version_pos, ?_, ?_⟩
  · intro total
    have : rule.definition.kind = .total := total
    rw [ho.1] at this
    cases this
  refine fun _ => .inr ⟨now.unixMilli, rfl, ?_, ?_, ?_⟩
  · exact epoch
  · simp only [advanceVersion, Time.addSeconds, Time.unixMilli, Option.some.injEq]
    omega
  simp only [advanceVersion]
  split_ifs with hg
  · omega
  · unfold MaxUint64 at hg
    omega

/-- A completion keeps the shape, unless it charges a periodic rule without a window. -/
theorem Restartable.charge (h : Restartable rule) (cost : Int)
    (window : rule.definition.kind = .periodic → rule.windowGeneration ≠ 0) :
    Restartable (charge cost rule) := by
  have nonneg : 0 ≤ chargedAmount rule.usedNanoUSD cost := by
    have := h.used_nonneg
    have : (0 : Int) ≤ MaxInt64 := by decide
    unfold chargedAmount
    split_ifs <;> omega
  unfold AccessQuota.charge
  split_ifs
  · exact h
  refine ⟨h.valid, nonneg, advanceVersion_pos h.version_pos, h.total, fun periodic => .inr ?_⟩
  rcases h.periodic periodic with ⟨-, -, -, hzero⟩ | hopen
  · exact absurd hzero (window periodic)
  · exact hopen

/-- A rule keeps its shape when its definition changes in the limit only. -/
theorem Restartable.load {rule' : RuntimeRule} (h : Restartable rule)
    (valid : rule'.definition.Valid) (kind : rule'.definition.kind = rule.definition.kind)
    (period : rule'.definition.periodSeconds = rule.definition.periodSeconds) :
    Restartable (rule'.load (restoredState key rule)) where
  valid
  used_nonneg := h.used_nonneg
  version_pos := h.version_pos
  total ht := h.total (kind ▸ ht)
  periodic hp := by
    have := h.periodic (kind ▸ hp)
    simpa only [RuntimeRule.load, restoredState, period] using this

/-- The runs from an empty runtime: no state is restored, the clock is past the epoch, and tickets
come from admissions. -/
structure RequestRun (ops : List Op) : Prop where
  unrestored : ∀ states, .restore states ∉ ops
  epoch : ∀ key now, .admitKey key now ∈ ops → 0 ≤ now.unixMilli
  tickets : ∀ pre ticket cost post, ops = pre ++ .complete ticket cost :: post →
    ticket ∈ issued pre

/-- The runs after which a restart succeeds: no revision of a rule ever changes its kind. The
control plane never changes the kind of a rule and never uses a rule ID twice. -/
structure RestartRun (ops : List Op) : Prop extends RequestRun ops where
  kinds : ∀ definitions definitions', .reconcile definitions ∈ ops →
    .reconcile definitions' ∈ ops → ∀ key id rule rule',
      definitionAt definitions key id = some rule →
      definitionAt definitions' key id = some rule' → rule.revision = rule'.revision →
      rule.kind = rule'.kind

theorem RequestRun.initial (h : RequestRun (ops ++ rest)) :
    RequestRun ops where
  unrestored states hm := h.unrestored states (mem_append_left _ hm)
  epoch key now hm := h.epoch key now (mem_append_left _ hm)
  tickets pre ticket cost post he := h.tickets pre ticket cost (post ++ rest) (by simp [he])

theorem RestartRun.initial (h : RestartRun (ops ++ rest)) :
    RestartRun ops where
  toRequestRun := h.toRequestRun.initial
  kinds d d' hd hd' := h.kinds d d' (mem_append_left _ hd) (mem_append_left _ hd')

theorem RequestRun.settled (h : RequestRun ops) : (run ops).restorePending = false := by
  induction ops using reverseRecOn with
  | nil => rfl
  | append_singleton ops op ih =>
    have before := ih h.initial
    rw [run_snoc]
    cases op with
    | restore states => exact absurd (by simp) (h.unrestored states)
    | reconcile definitions =>
      simp only [apply]
      cases hr : reconcile (run ops) definitions with
      | error message => exact before
      | ok runtime' => exact reconcile_settles hr
    | admitKey key now | complete ticket cost | ack => simpa [apply] using before
    | _ => exact before

/-- The definition of every configured rule was handed to some `Reconcile` of the run, which
accepted it. -/
theorem definition_origin (h : ruleAt (run ops) key id = some rule) :
    ∃ definitions, .reconcile definitions ∈ ops ∧
      definitionAt definitions key id = some rule.definition ∧
      ∃ before after, reconcile before definitions = .ok after := by
  induction ops using reverseRecOn generalizing rule with
  | nil => simp [ruleAt, lockEntry, newRuntime] at h
  | append_singleton ops op ih =>
    rw [run_snoc] at h
    rcases definition_cases h with ⟨before, hb, hd⟩ | ⟨definitions, runtime', rfl, hr, happly⟩
    · obtain ⟨definitions, hm, hat⟩ := ih hb
      exact ⟨definitions, mem_append_left _ hm, hd ▸ hat⟩
    · rw [happly] at h
      exact ⟨definitions, by simp, reconcile_definition hr h, _, _, hr⟩

theorem definitionAt_valid (h : normalizeDefinitions definitions = .ok normalized)
    (hd : definitionAt definitions key id = some definition) : definition.Valid := by
  rw [← normalized_find h] at hd
  obtain ⟨rules, -, hfind⟩ := Option.bind_eq_some_iff.mp hd
  exact rules.valid definition (mem_of_find?_eq_some hfind)

theorem reconcile_normalizes (h : reconcile runtime definitions = .ok runtime') :
    ∃ normalized, normalizeDefinitions definitions = .ok normalized := by
  unfold reconcile at h
  split at h
  · cases h
  · next normalized hn => exact ⟨normalized, hn⟩

/-- Every configured rule has passed the checks of `Reconcile`. -/
theorem definition_valid (h : ruleAt (run ops) key id = some rule) : rule.definition.Valid := by
  obtain ⟨definitions, -, hat, before, after, hok⟩ := definition_origin h
  obtain ⟨normalized, hn⟩ := reconcile_normalizes hok
  exact definitionAt_valid hn hat

/-- After an admission every periodic rule of the key has had a window. -/
theorem Restartable.opened_generation (h : Restartable rule) (now : Time)
    (periodic : rule.definition.kind = .periodic) :
    (AccessQuota.openWindow now rule).windowGeneration ≠ 0 := by
  by_cases hi : periodicInactive rule now.unixMilli = true
  · simp only [AccessQuota.openWindow, periodic, hi, and_self, if_true, advanceVersion]
    split_ifs with hg
    · omega
    · unfold MaxUint64 at hg
      omega
  · rw [openWindow_of_not fun ho => hi ho.2]
    rcases h.periodic periodic with ⟨hnone, -⟩ | ⟨started, -, -, -, hgen⟩
    · simp [periodicInactive, hnone] at hi
    · exact hgen

/-- Every rule of every state on the way passes the checks of a restart. -/
theorem RestartRun.restartable (h : RestartRun ops) :
    ∀ pre, pre <+: ops → ∀ key id rule, ruleAt (run pre) key id = some rule →
      Restartable rule := by
  induction ops using reverseRecOn with
  | nil =>
    intro pre hpre key id rule hr
    rw [prefix_nil.mp hpre] at hr
    simp [ruleAt, lockEntry, newRuntime] at hr
  | append_singleton ops op ih =>
    have earlier := ih h.initial
    intro pre hpre key id rule hr
    rcases prefix_concat_iff.mp hpre with rfl | hpre
    swap
    · exact earlier pre hpre key id rule hr
    have valid := definition_valid hr
    rw [run_snoc] at hr
    by_cases hold : Configured (run ops) key id rule.definition.revision
    · obtain ⟨before, hb, hrev⟩ := hold
      have shape := earlier ops prefix_rfl key id before hb
      cases ruleStep_run hb hr hrev.symm with
      | kept kind period state => exact state ▸ shape.load valid kind period
      | opened now call periodic inactive eq =>
        exact eq ▸ shape.openWindow (h.epoch key now (by simp [call]))
      | charged ticket cost call covers eq =>
        refine eq ▸ shape.charge cost fun periodic hzero => ?_
        -- A ticket without a window lists a total rule, and kinds are fixed.
        obtain ⟨hkey, listed, hlisted, hid, hlrev, hlgen⟩ := covers
        have hissued := h.tickets ops ticket cost [] (by rw [call])
        obtain ⟨early, target, now, late, rfl, rfl⟩ := mem_issued.mp hissued
        rw [admit_ticket_key] at hkey
        subst hkey
        obtain ⟨first, hfirst, hopened, rfl⟩ := admit_ticket hlisted
        have hprefix : early <+: early ++ .admitKey target now :: late := prefix_append _ _
        have hsame : first.definition.kind = before.definition.kind := by
          obtain ⟨d, hd, hdat, -⟩ := definition_origin hfirst
          obtain ⟨d', hd', hdat', -⟩ := definition_origin hb
          rw [hid, ruleAt_id hb] at hdat
          refine h.kinds d d' (by simp [hd]) (mem_append_left _ hd') target id _ _ hdat hdat' ?_
          simpa [ticketRule] using hlrev.symm
        have hgen := (earlier early hprefix target _ first hfirst).opened_generation now
          (hsame.trans periodic)
        apply hgen
        have := hlgen periodic
        rw [hzero] at this
        exact this.symm
    · rcases obtained_cases hr hold with ⟨-, hfresh⟩ | ⟨hpending, -⟩
      · exact hfresh ▸ Restartable.fresh valid
      · rw [h.initial.settled] at hpending
        cases hpending

/-! ## The installed definitions -/

variable {entry : AccessKeyEntry}

def installStep (state : Runtime × Definitions) (op : Op) : Runtime × Definitions :=
  (apply state.1 op, match op with
    | .reconcile definitions =>
      match reconcile state.1 definitions with
      | .ok _ => definitions
      | .error _ => state.2
    | _ => state.2)

def installed (ops : List Op) : Definitions := (ops.foldl installStep (newRuntime, ∅)).2

theorem installStep_run (ops : List Op) : (ops.foldl installStep (newRuntime, ∅)).1 = run ops := by
  induction ops using reverseRecOn with
  | nil => rfl
  | append_singleton ops op ih => simp [installStep, ih]

theorem installed_snoc (ops : List Op) (op : Op) :
    installed (ops ++ [op]) = (installStep (run ops, installed ops) op).2 := by
  rw [installed, foldl_append, foldl_cons, foldl_nil, ← installStep_run]
  rfl

def AccessKeyEntry.definitions (entry : AccessKeyEntry) : List Rule :=
  entry.rules.map RuntimeRule.definition

theorem definitions_mapRules (entry : AccessKeyEntry) (same : ∀ rule, (f rule).id = rule.id)
    (hf : ∀ rule, (f rule).definition = rule.definition) :
    (entry.mapRules f same).definitions = entry.definitions := by
  simp [definitions, mapRules, Function.comp_def, hf]

theorem definitions_update (entry : AccessKeyEntry) (id : Nat)
    (same : ∀ rule, (f rule).id = rule.id) (hf : ∀ rule, (f rule).definition = rule.definition) :
    (entry.update id f same).definitions = entry.definitions := by
  refine definitions_mapRules entry _ fun rule => ?_
  split
  · exact hf rule
  · rfl

theorem definitions_completeRules :
    (completeRules cost tickets entry fault).1.definitions = entry.definitions := by
  induction tickets generalizing entry fault with
  | nil => rfl
  | cons first rest ih =>
    rw [completeRules]
    split
    · exact ih
    split_ifs
    · rw [ih, definitions_update entry _ _ (charge_definition cost)]
    · exact ih

theorem definitions_newAccessKeyEntry (rules : KeyRules) :
    (newAccessKeyEntry rules).definitions = rules.rules := by
  simp [definitions, newAccessKeyEntry, Function.comp_def]

theorem definitions_reconcileEntry {rules : KeyRules}
    (h : reconcileEntry entries key rules = .ok entry) : entry.definitions = rules.rules := by
  unfold reconcileEntry at h
  split at h
  · cases h
    exact definitions_newAccessKeyEntry rules
  dsimp only at h
  split at h
  · cases h
  · cases h
    rw [definitions_mapRules _ _ (carryOver_definition _), definitions_newAccessKeyEntry]

/-- The entries hold the rules of the definitions, in canonical order. -/
def Installed (runtime : Runtime) (normalized : Normalized) : Prop :=
  ∀ key : Nat, runtime.entries[key]?.map definitions =
    normalized.byKey[key]?.map KeyRules.rules

theorem Installed.insert (h : Installed runtime normalized) {entry' : AccessKeyEntry}
    (hentry : runtime.entries[target]? = some entry) (same : entry'.definitions = entry.definitions)
    (faults : Nat) :
    Installed { runtime with
      entries := runtime.entries.insert target entry', overflowFaultTotal := faults }
      normalized := by
  intro key
  rw [← h key]
  by_cases ht : target = key
  · subst ht
    simp [hentry, same]
  · simp [ht]

theorem RequestRun.installed (h : RequestRun ops) :
    ∃ normalized, normalizeDefinitions (AccessQuota.installed ops) = .ok normalized ∧
      Installed (run ops) normalized := by
  induction ops using reverseRecOn with
  | nil =>
    have empty : normalizeDefinitions ∅ = .ok ⟨∅, by simp, by simp⟩ := rfl
    exact ⟨_, empty, fun key => by simp [newRuntime]⟩
  | append_singleton ops op ih =>
    obtain ⟨normalized, hn, hin⟩ := ih h.initial
    rw [run_snoc, installed_snoc]
    cases op with
    | restore states => exact absurd (by simp) (h.unrestored states)
    | reconcile definitions =>
      simp only [apply, installStep]
      cases hr : reconcile (run ops) definitions with
      | error message => exact ⟨normalized, hn, hin⟩
      | ok runtime' =>
        obtain ⟨normalized', hn'⟩ := reconcile_normalizes hr
        refine ⟨normalized', hn', fun key => ?_⟩
        simp only [reconcile, hn', h.initial.settled, Bool.false_eq_true, if_false] at hr
        split at hr
        · cases hr
        next entries ht =>
        cases hr
        change entries[key]?.map _ = _
        ext rules
        simp only [Option.map_eq_some_iff]
        constructor
        · rintro ⟨entry, he, rfl⟩
          obtain ⟨source, hs, hrec⟩ := (traverse_ok ht key entry).mp he
          exact ⟨source, hs, (definitions_reconcileEntry hrec).symm⟩
        rintro ⟨source, hs, rfl⟩
        obtain ⟨entry, he⟩ := (traverse_mem ht key).mpr ⟨source, hs⟩
        obtain ⟨source', hs', hrec⟩ := (traverse_ok ht key entry).mp he
        rw [hs] at hs'
        cases hs'
        exact ⟨entry, he, definitions_reconcileEntry hrec⟩
    | check | snapshot | dirtySnapshots => exact ⟨normalized, hn, hin⟩
    | admitKey key now =>
      refine ⟨normalized, hn, ?_⟩
      simp only [apply, admitKey]
      cases hl : lockEntry (run ops) key with
      | none => exact hin
      | some entry =>
        dsimp only
        split_ifs
        · exact hin.insert (lockEntry_some hl).2
            (definitions_mapRules entry _ (openWindow_definition now)) _
        · exact hin
    | complete ticket cost =>
      refine ⟨normalized, hn, ?_⟩
      simp only [apply, complete]
      split_ifs
      · exact hin
      cases hl : lockEntry (run ops) ticket.accessKeyID with
      | none => exact hin
      | some entry => exact hin.insert (lockEntry_some hl).2 definitions_completeRules _
    | ack key id revision version =>
      refine ⟨normalized, hn, ?_⟩
      simp only [apply, ack]
      cases hl : lockEntry (run ops) key with
      | none => exact hin
      | some entry =>
        exact hin.insert (lockEntry_some hl).2
          (definitions_update entry _ _ (ackRule_definition revision version)) _

/-! ## The restored runtime -/

def configuredStates (runtime : Runtime) : List RestoredState :=
  runtime.entries.toList.flatMap fun e => e.2.rules.map (restoredState e.1)

theorem mem_configuredStates :
    state ∈ configuredStates runtime ↔ ∃ key entry rule, runtime.entries[key]? = some entry ∧
      rule ∈ entry.rules ∧ state = restoredState key rule := by
  simp only [configuredStates, mem_flatMap, mem_map, Prod.exists,
    ExtTreeMap.mem_toList_iff_getElem?_eq_some]
  constructor
  · rintro ⟨key, entry, he, rule, hr, rfl⟩
    exact ⟨key, entry, rule, he, hr, rfl⟩
  · rintro ⟨key, entry, rule, he, hr, rfl⟩
    exact ⟨key, entry, he, rule, hr, rfl⟩

section

variable {runtime : Runtime} {normalized : Normalized} (h : Installed runtime normalized)
include h

/-- A configured rule is a rule of the normalized definitions. -/
theorem Installed.rule (he : runtime.entries[key]? = some entry) :
    ∃ rules, normalized.byKey[key]? = some rules ∧ entry.definitions = rules.rules := by
  have := h key
  rw [he, Option.map_some] at this
  obtain ⟨rules, hr, heq⟩ := Option.map_eq_some_iff.mp this.symm
  exact ⟨rules, hr, heq.symm⟩

theorem Installed.owner (he : runtime.entries[key]? = some entry)
    (he' : runtime.entries[key']? = some entry') {rule : RuntimeRule} (hr : rule ∈ entry.rules)
    (hr' : rule' ∈ entry'.rules) (hid : rule.id = rule'.id) : key = key' := by
  obtain ⟨rules, hk, hrules⟩ := h.rule he
  obtain ⟨rules', hk', hrules'⟩ := h.rule he'
  refine normalized.owner_unique key key' rules rules' hk hk' rule.definition ?_
    rule'.definition ?_ hid
  · rw [← hrules]
    exact mem_map_of_mem hr
  · rw [← hrules']
    exact mem_map_of_mem hr'

theorem Installed.ids_nodup : ((configuredStates runtime).map ruleID).Nodup := by
  have ids : (configuredStates runtime).map ruleID =
      runtime.entries.toList.flatMap fun e => e.2.rules.map RuntimeRule.id := by
    simp only [configuredStates, map_flatMap, map_map]
    rfl
  rw [ids, nodup_flatMap]
  refine ⟨fun e _ => e.2.ids_nodup, ?_⟩
  have nodup := (nodup_keys_toList runtime.entries).of_map
  refine nodup.pairwise_of_forall_ne fun left hl right hr hne => ?_
  intro id hleft hright
  obtain ⟨a, ha, rfl⟩ := mem_map.mp hleft
  obtain ⟨b, hb, hid⟩ := mem_map.mp hright
  have hl' := lookup_of_mem_toList hl
  have hr' := lookup_of_mem_toList hr
  have hkey := h.owner hl' hr' ha hb hid.symm
  rw [← hkey, hl'] at hr'
  exact hne (Prod.ext hkey (Option.some.inj hr'))

end

theorem collectRestored_total {seen : ExtTreeMap Nat RestoredState}
    (valid : ∀ state ∈ states, validateRestoredState state = .ok ())
    (nodup : (states.map ruleID).Nodup) (unseen : ∀ state ∈ states, seen[state.ruleID]? = none) :
    ∃ restored, collectRestored seen states = .ok restored ∧ ∀ id state,
      restored[id]? = some state ↔
        (state ∈ states ∧ state.ruleID = id) ∨ seen[id]? = some state := by
  induction states generalizing seen with
  | nil => exact ⟨seen, rfl, by simp⟩
  | cons first rest ih =>
    rw [map_cons, nodup_cons] at nodup
    obtain ⟨absent, nodup⟩ := nodup
    have hfirst := valid first mem_cons_self
    have hunseen := unseen first mem_cons_self
    have apart : ∀ state ∈ rest, first.ruleID ≠ state.ruleID := fun state hm he =>
      absent (he ▸ mem_map_of_mem hm)
    have still : ∀ state ∈ rest, (seen.insert first.ruleID first)[state.ruleID]? = none := by
      intro state hm
      rw [lookup_insert, if_neg (apart state hm)]
      exact unseen state (mem_cons_of_mem _ hm)
    obtain ⟨restored, hok, hlookup⟩ :=
      ih (fun state hm => valid state (mem_cons_of_mem _ hm)) nodup still
    have hnew : first.ruleID ∉ seen := by
      intro hm
      have := ExtTreeMap.mem_iff_isSome_getElem?.mp hm
      simp [hunseen] at this
    refine ⟨restored, by simp [collectRestored, hfirst, hnew, hok], fun id state => ?_⟩
    rw [hlookup, lookup_insert, mem_cons]
    by_cases he : first.ruleID = id
    · subst he
      rw [if_pos rfl, hunseen]
      grind
    · rw [if_neg he]
      grind

theorem Restartable.validates (h : Restartable rule) (hkey : key ≠ 0) :
    validateRestoredState (restoredState key rule) = .ok () := by
  have identity : ¬ ((restoredState key rule).accessKeyID = 0 ∨
      (restoredState key rule).ruleID = 0 ∨ (restoredState key rule).ruleRevision = 0 ∨
      (restoredState key rule).usedNanoUSD < 0 ∨ (restoredState key rule).snapshotVersion = 0) := by
    rintro (hz | hz | hz | hz | hz)
    · exact hkey hz
    · exact h.valid.id hz
    · exact h.valid.revision hz
    · exact absurd hz (Int.not_lt.mpr h.used_nonneg)
    · exact h.version_pos hz
  have started_eq : (restoredState key rule).windowStartedAtMS = rule.windowStartedAtMS := rfl
  have ends_eq : (restoredState key rule).windowEndsAtMS = rule.windowEndsAtMS := rfl
  rw [validateRestoredState, if_neg identity, started_eq, ends_eq]
  rcases h.valid.shape with ⟨hkind, -⟩ | ⟨hkind, hmin, -⟩
  · obtain ⟨hs, he, -⟩ := h.total hkind
    rw [hs, he]
  rcases h.periodic hkind with ⟨hs, he, -⟩ | ⟨started, hs, hpos, he, -⟩
  · rw [hs, he]
  have window : ¬ (started < 0 ∨ started + rule.definition.periodSeconds * 1000 ≤ started) := by
    unfold MinPeriodSeconds at hmin
    omega
  rw [hs, he]
  exact if_neg window

theorem Restartable.shape (h : Restartable rule) (key : Nat) :
    checkRestoredShape rule.definition (restoredState key rule) = .ok () := by
  rcases h.valid.shape with ⟨hkind, -⟩ | ⟨hkind, -⟩
  · simp [checkRestoredShape, restoredState, hkind, h.total hkind]
  rcases h.periodic hkind with ⟨hs, he, hu, hg⟩ | ⟨started, hs, hpos, he, hg⟩
  · simp [checkRestoredShape, restoredState, hkind, hs, hu, hg]
  · simp [checkRestoredShape, restoredState, hkind, hs, he, hg]

/-- Loading a fresh rule from the state of a configured one gives that rule, unmarked. -/
theorem load_restoredState (key : Nat) (rule : RuntimeRule) :
    RuntimeRule.load { definition := rule.definition } (restoredState key rule) = rule.clean := rfl

theorem RestartRun.rule_restartable (h : RestartRun ops) (hin : Installed (run ops) normalized)
    (he : (run ops).entries[key]? = some entry) (hr : rule ∈ entry.rules) :
    key ≠ 0 ∧ Restartable rule := by
  obtain ⟨rules, hk, -⟩ := hin.rule he
  have hkey := normalized.key_ne_zero key rules hk
  refine ⟨hkey, h.restartable ops prefix_rfl key rule.id rule ?_⟩
  simp only [ruleAt, lockEntry, if_neg hkey, he, Option.bind_some]
  exact byID_eq_some.mpr ⟨hr, rfl⟩

/-- A runtime restored from the states of another one agrees with it. -/
theorem RestartRun.restored_agrees (h : RestartRun ops)
    (hperm : states.Perm (configuredStates (run ops))) :
    ∃ loaded runtime, restore newRuntime states = .ok loaded ∧
      reconcile loaded (AccessQuota.installed ops) = .ok runtime ∧ Agree (run ops) runtime := by
  obtain ⟨normalized, hn, hin⟩ := h.installed
  have nodup : (states.map ruleID).Nodup :=
    (hperm.map ruleID).nodup_iff.mpr hin.ids_nodup
  have valid : ∀ state ∈ states, validateRestoredState state = .ok () := by
    intro state hm
    obtain ⟨key, entry, rule, he, hr, rfl⟩ := mem_configuredStates.mp (hperm.mem_iff.mp hm)
    obtain ⟨hkey, hrule⟩ := h.rule_restartable hin he hr
    exact hrule.validates hkey
  have unseen : ∀ state ∈ states, (∅ : ExtTreeMap Nat RestoredState)[state.ruleID]? = none := by
    simp
  obtain ⟨restored, hcollect, hlookup⟩ := collectRestored_total valid nodup unseen
  -- Every configured rule finds its own state.
  have found : ∀ (key : Nat) (entry : AccessKeyEntry), (run ops).entries[key]? = some entry →
      ∀ rule ∈ entry.rules, restored[rule.id]? = some (restoredState key rule) := by
    intro key entry he rule hr
    refine (hlookup rule.id _).mpr (.inl ⟨?_, rfl⟩)
    exact hperm.mem_iff.mpr (mem_configuredStates.mpr ⟨key, entry, rule, he, hr, rfl⟩)
  -- Every defined rule is configured.
  have configured : ∀ (key : Nat) (rules : KeyRules), normalized.byKey[key]? = some rules →
      ∃ entry, (run ops).entries[key]? = some entry ∧ entry.definitions = rules.rules := by
    intro key rules hk
    have := hin key
    rw [hk, Option.map_some] at this
    exact Option.map_eq_some_iff.mp this
  have restorable : ∀ (key : Nat) (rules : KeyRules), normalized.byKey[key]? = some rules →
      ∀ definition ∈ rules.rules, Restorable restored key definition := by
    intro key rules hk definition hd
    obtain ⟨entry, he, hdef⟩ := configured key rules hk
    rw [← hdef] at hd
    obtain ⟨rule, hr, rfl⟩ := mem_map.mp hd
    exact ⟨restoredState key rule, found key entry he rule hr, rfl, rfl,
      (h.rule_restartable hin he hr).2.shape key⟩
  have defined : ∀ id state, restored[id]? = some state → ∃ (key : Nat) (rules : KeyRules),
      normalized.byKey[key]? = some rules ∧ id ∈ rules.rules.map Rule.id := by
    intro id state hs
    rcases (hlookup id state).mp hs with ⟨hm, rfl⟩ | hempty
    · obtain ⟨key, entry, rule, he, hr, rfl⟩ := mem_configuredStates.mp (hperm.mem_iff.mp hm)
      obtain ⟨rules, hk, hdef⟩ := hin.rule he
      refine ⟨key, rules, hk, ?_⟩
      rw [← hdef, definitions, map_map]
      exact mem_map_of_mem (f := Rule.id ∘ RuntimeRule.definition) hr
    · simp at hempty
  obtain ⟨entries, hentries⟩ := entriesFromRestore_total restorable defined
  refine ⟨{ newRuntime with restored, restorePending := true }, { newRuntime with entries }, ?_,
    ?_, fun key => ?_⟩
  · simp [restore, hcollect, newRuntime]
  · simp [reconcile, hn, hentries, newRuntime]
  have hrestored := (entriesFromRestore_ok hentries key).1
  by_cases hkey : key = 0
  · simp [lockEntry, hkey]
  simp only [lockEntry, if_neg hkey, hrestored]
  cases he : (run ops).entries[key]? with
  | none =>
    have := hin key
    rw [he] at this
    have hnone : normalized.byKey[key]? = none := by simpa using this.symm
    simp [hnone]
  | some entry =>
    obtain ⟨rules, hk, hdef⟩ := hin.rule he
    simp only [hk, Option.map_some, Option.some.injEq]
    simp only [observed, restoredEntry, mapRules,
      newAccessKeyEntry, ← hdef, definitions, map_map]
    refine map_congr_left fun rule hr => ?_
    have hload : loadFrom restored { definition := rule.definition } = rule.clean := by
      have := found key entry he rule hr
      simp only [loadFrom, RuntimeRule.id, this, Option.map_some, Option.getD_some]
      exact load_restoredState key rule
    simp only [Function.comp, hload]
    rfl

/-- A restart is invisible: from the states of the configured rules, in any order, `Restore` and
`Reconcile` succeed and every later request is answered as before. -/
theorem restart_indistinguishable {ops : List Op} (h : RestartRun ops)
    {states : List RestoredState} (hperm : states.Perm (configuredStates (run ops))) :
    ∃ loaded runtime, restore newRuntime states = .ok loaded ∧
      reconcile loaded (installed ops) = .ok runtime ∧
      ∀ continuation : List Op, (∀ op ∈ continuation, op.IsRequest) → ∀ key now,
        check (continuation.foldl apply runtime) key now =
            check (continuation.foldl apply (run ops)) key now ∧
          snapshot (continuation.foldl apply runtime) key now =
            snapshot (continuation.foldl apply (run ops)) key now ∧
          (admitKey (continuation.foldl apply runtime) key now).2 =
            (admitKey (continuation.foldl apply (run ops)) key now).2 := by
  obtain ⟨loaded, runtime, hrestore, hreconcile, hagree⟩ := h.restored_agrees hperm
  refine ⟨loaded, runtime, hrestore, hreconcile, fun continuation requests key now => ?_⟩
  have later := hagree.requests requests
  exact ⟨(later.check key now).symm, (later.snapshot key now).symm,
    (later.admission key now).1.symm⟩

theorem sampleRun_restartRun : RestartRun sampleRun where
  unrestored := by simp [sampleRun]
  epoch := by simp [sampleRun, Time.unixMilli]
  tickets := sampleRun_tickets
  kinds := by
    intro definitions definitions' hd hd' key id rule rule' hr hr' _
    have hsame : definitions = definitions' := by
      simp only [sampleRun, mem_cons, not_mem_nil, or_false, reduceCtorEq,
        Op.reconcile.injEq] at hd hd'
      rw [hd, hd']
    subst hsame
    rw [hr] at hr'
    cases hr'
    rfl

theorem restart_indistinguishable_sampleRun :
    ruleAt (run sampleRun) 1 7 = some sampleCharged ∧
      ∃ loaded runtime, restore newRuntime (configuredStates (run sampleRun)) = .ok loaded ∧
        reconcile loaded (installed sampleRun) = .ok runtime ∧
        snapshot runtime 1 0 = snapshot (run sampleRun) 1 0 := by
  refine ⟨by decide +kernel, ?_⟩
  obtain ⟨loaded, runtime, hrestore, hreconcile, answers⟩ :=
    restart_indistinguishable sampleRun_restartRun (List.Perm.refl _)
  exact ⟨loaded, runtime, hrestore, hreconcile, (answers [] (by simp) 1 0).2.1⟩

/-! The condition on the kinds is needed. A ticket for a total rule carries no window. When the
rule goes away and its ID and revision come back as a periodic rule, the ticket still covers it and
charges it before it has a window, which `Restore` does not accept. -/

def swappedRule (kind : Kind) (periodSeconds : Int) : Rule :=
  { id := 7, revision := 1, kind, limitNanoUSD := 100, periodSeconds }

def swappedTicket : Ticket where
  accessKeyID := 1
  rules := [{ ruleID := 7, ruleRevision := 1, windowGeneration := 0 }]

def swappedRun : List Op :=
  [.reconcile (ExtTreeMap.ofList [(1, [swappedRule .total 0])]), .admitKey 1 (.unix 0),
    .reconcile ∅, .reconcile (ExtTreeMap.ofList [(1, [swappedRule .periodic 60])]),
    .complete swappedTicket 5]

theorem swappedRun_requestRun : RequestRun swappedRun where
  unrestored := by simp [swappedRun]
  epoch := by simp [swappedRun, Time.unixMilli]
  tickets pre ticket cost post h := by
    have hsplit : pre = swappedRun.take 4 ∧ ticket = swappedTicket := by
      rcases pre with _ | ⟨a, _ | ⟨b, _ | ⟨c, _ | ⟨d, _ | ⟨e, pre⟩⟩⟩⟩⟩ <;> simp_all [swappedRun]
    rw [hsplit.1, hsplit.2]
    decide +kernel

def restarts (states : List RestoredState) (definitions : Definitions) : Bool :=
  match restore newRuntime states with
  | .error _ => false
  | .ok loaded => (reconcile loaded definitions).isOk

theorem restart_fails_after_swap :
    ¬ ∀ ops, RequestRun ops → ∃ loaded runtime,
      restore newRuntime (configuredStates (run ops)) = .ok loaded ∧
        reconcile loaded (installed ops) = .ok runtime := by
  intro h
  obtain ⟨loaded, runtime, hrestore, hreconcile⟩ := h swappedRun swappedRun_requestRun
  have fails : restarts (configuredStates (run swappedRun)) (installed swappedRun) = false := by
    decide +kernel
  simp [restarts, hrestore, hreconcile, Except.isOk, Except.toBool] at fails

end ApiLoad.AccessQuota
