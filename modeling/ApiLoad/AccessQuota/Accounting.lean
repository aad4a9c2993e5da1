import ApiLoad.AccessQuota.Run

/-!
# Exact accounting

The amount used by a rule is determined by the calls made since the rule obtained its current
revision: the restored amount plus the costs of the completions whose ticket carries the current
revision and, for a periodic rule, the current window, cut off at `MaxInt64`.
-/
namespace ApiLoad.AccessQuota
open Std Foundation List

variable {key : Nat} {rule : RuntimeRule}

/-- The runs that the accounting is about. Tickets come from admissions, a revision that a
`Reconcile` has removed is not installed again, and no generation is exhausted. -/
structure Lawful (ops : List Op) : Prop where
  tickets : ∀ pre ticket cost post, ops = pre ++ .complete ticket cost :: post →
    ticket ∈ issued pre
  fresh : ∀ early late definitions post, ops = early ++ late ++ .reconcile definitions :: post →
    ∀ key id revision, Configured (run early) key id revision →
      ¬ Configured (run (early ++ late)) key id revision →
      ∀ definition, definitionAt definitions key id = some definition →
        definition.revision ≠ revision
  generations : ∀ pre post, ops = pre ++ post → ∀ key id rule,
    ruleAt (run pre) key id = some rule → rule.windowGeneration < MaxUint64

variable {ops after before early post pre rest : List Op} {id revision : Nat} {rule' : RuntimeRule}
  {runtime : Runtime}

theorem Lawful.initial (h : Lawful (ops ++ rest)) : Lawful ops where
  tickets pre ticket cost post he := h.tickets pre ticket cost (post ++ rest) (by simp [he])
  fresh early late definitions post he := h.fresh early late definitions (post ++ rest)
    (by simp [he])
  generations pre post he := h.generations pre (post ++ rest) (by simp [he])

/-- A revision that is configured twice is configured all the time between. -/
theorem Lawful.stays (h : Lawful (before ++ after ++ rest))
    (hfirst : Configured (run before) key id revision)
    (hlast : Configured (run (before ++ after ++ rest)) key id revision) :
    Configured (run (before ++ after)) key id revision := by
  by_contra hmid
  revert hlast
  induction rest using reverseRecOn with
  | nil => simpa using hmid
  | append_singleton rest op ih =>
    rw [← append_assoc] at h ⊢
    intro hlast
    rw [run_snoc] at hlast
    rcases configured_cases hlast with hprev | ⟨definitions, runtime', rfl, hr, happly⟩
    · exact ih h.initial hprev
    rw [happly] at hlast
    obtain ⟨rule, hrule, hrev⟩ := hlast
    have habsent : ¬ Configured (run (before ++ (after ++ rest))) key id revision := by
      rw [← append_assoc]
      exact ih h.initial
    exact h.fresh before (after ++ rest) definitions [] (by simp) key id revision hfirst habsent
      rule.definition (reconcile_definition hr hrule) hrev

/-- Within a revision the generation never falls and the kind stays. -/
theorem Lawful.generation_mono (h : Lawful (before ++ after))
    (hr : ruleAt (run before) key id = some rule)
    (hr' : ruleAt (run (before ++ after)) key id = some rule')
    (revision : rule'.definition.revision = rule.definition.revision) :
    rule.windowGeneration ≤ rule'.windowGeneration ∧
      rule'.definition.kind = rule.definition.kind := by
  induction after using reverseRecOn generalizing rule' with
  | nil =>
    rw [append_nil, hr] at hr'
    cases hr'
    exact ⟨le_rfl, rfl⟩
  | append_singleton after op ih =>
    rw [← append_assoc] at h hr'
    obtain ⟨mid, hmid, hrev⟩ := h.stays ⟨rule, hr, rfl⟩ ⟨rule', hr', revision⟩
    obtain ⟨hle, hkind⟩ := ih h.initial hmid hrev
    rw [run_snoc] at hr'
    have step := ruleStep_run hmid hr' (revision.trans hrev.symm)
    have bound := h.generations (before ++ after) [op] rfl key id mid hmid
    exact ⟨hle.trans (step.generation_le bound), step.kind_eq.trans hkind⟩

/-- No ticket is ahead of the rules it lists. -/
theorem Lawful.issued_generation (h : Lawful ops) (hr : ruleAt (run ops) key rule.id = some rule)
    (hissued : ticket ∈ issued ops) (hkey : ticket.accessKeyID = key)
    (hlisted : listed ∈ ticket.rules) (hid : listed.ruleID = rule.id)
    (hrev : listed.ruleRevision = rule.definition.revision) :
    listed.windowGeneration ≤ rule.windowGeneration := by
  obtain ⟨early, target, now, late, rfl, rfl⟩ := mem_issued.mp hissued
  rw [admit_ticket_key] at hkey
  subst hkey
  obtain ⟨before, -, hfirst, rfl⟩ := admit_ticket hlisted
  rw [show early ++ .admitKey target now :: late =
    (early ++ [.admitKey target now]) ++ late by simp]
    at h hr
  rw [hid] at hfirst
  have hrun : ruleAt (run (early ++ [.admitKey target now])) target rule.id =
      some (openWindow now before) := by
    rw [run_snoc]
    exact hfirst
  exact (h.generation_mono hrun hr hrev.symm).1

/-! ## The amount -/

/-- The part of the amount that was restored: for a periodic rule it belongs to the window it was
restored with. -/
def restoredAmount (runtime : Runtime) (rule : RuntimeRule) : Int :=
  if runtime.restorePending then
    match runtime.restored[rule.id]? with
    | some state =>
      if rule.definition.kind = .periodic ∧ state.windowGeneration ≠ rule.windowGeneration then 0
      else state.usedNanoUSD
    | none => 0
  else 0

/-- The costs of the completions whose ticket covers the rule, oldest first. -/
def charges (key : Nat) (rule : RuntimeRule) (ops : List Op) : List Int :=
  ops.filterMap fun op => match op with
    | .complete ticket cost => if ticket.Covers key rule then some cost else none
    | _ => none

/-- A sum of costs cut off at `MaxInt64`, which a negative cost also reaches. -/
def settle (base : Int) (costs : List Int) : Int :=
  if ∃ cost ∈ costs, cost < 0 then MaxInt64 else min MaxInt64 (base + costs.sum)

theorem settle_nil (h : base ≤ MaxInt64) : settle base [] = base := by
  simp [settle, h]

theorem settle_snoc (base : Int) (costs : List Int) (cost : Int) :
    settle base (costs ++ [cost]) = chargedAmount (settle base costs) cost := by
  have hmax : (0 : Int) ≤ MaxInt64 := by decide
  unfold settle chargedAmount
  by_cases hneg : ∃ c ∈ costs, c < 0
  · have hlong : ∃ c ∈ costs ++ [cost], c < 0 := by
      obtain ⟨c, hc, hlt⟩ := hneg
      exact ⟨c, mem_append_left _ hc, hlt⟩
    rw [if_pos hneg, if_pos hlong]
    split_ifs <;> omega
  · by_cases hcost : cost < 0
    · have hlong : ∃ c ∈ costs ++ [cost], c < 0 := ⟨cost, by simp, hcost⟩
      rw [if_pos hlong, if_pos hcost]
    have hlong : ¬ ∃ c ∈ costs ++ [cost], c < 0 := by
      rintro ⟨c, hc, hlt⟩
      rcases mem_append.mp hc with hc | hc
      · exact hneg ⟨c, hc, hlt⟩
      · exact hcost (mem_singleton.mp hc ▸ hlt)
    rw [if_neg hneg, if_neg hlong, if_neg hcost, sum_append, sum_singleton]
    split_ifs <;> omega

theorem charges_snoc (key : Nat) (rule : RuntimeRule) (ops : List Op) (op : Op) :
    charges key rule (ops ++ [op]) = charges key rule ops ++ charges key rule [op] :=
  filterMap_append

/-- The charges depend on the identity of the rule and its window only. -/
theorem charges_congr (hid : rule'.id = rule.id)
    (hrev : rule'.definition.revision = rule.definition.revision)
    (hkind : rule'.definition.kind = rule.definition.kind)
    (hgen : rule'.windowGeneration = rule.windowGeneration) (ops : List Op) :
    charges key rule' ops = charges key rule ops := by
  have covers : ∀ ticket : Ticket, ticket.Covers key rule' ↔ ticket.Covers key rule := by
    intro ticket
    simp only [Ticket.Covers, TicketRule.Covers, hid, hrev, hkind, hgen]
  simp only [charges, covers]

theorem restoredAmount_congr (hid : rule'.id = rule.id)
    (hkind : rule'.definition.kind = rule.definition.kind)
    (hgen : rule'.windowGeneration = rule.windowGeneration) :
    restoredAmount runtime rule' = restoredAmount runtime rule := by
  simp only [restoredAmount, hid, hkind, hgen]

/-- The amount and the generation of a rule that has just obtained its revision. -/
theorem obtained (hr : ruleAt (apply (run ops) op) key id = some rule)
    (hnew : ¬ Configured (run ops) key id rule.definition.revision) :
    rule.usedNanoUSD = restoredAmount (run ops) rule ∧
      ∀ state, (run ops).restorePending = true → (run ops).restored[id]? = some state →
        state.windowGeneration = rule.windowGeneration := by
  have hid := ruleAt_id hr
  rcases obtained_cases hr hnew with ⟨hp, hfresh⟩ | ⟨hp, state, hstate, hload⟩
  · rw [hfresh]
    simp [restoredAmount, hp]
  refine ⟨?_, ?_⟩
  · rw [hload]
    simp [restoredAmount, hp, hid, hstate, RuntimeRule.load, RuntimeRule.id]
  intro found _ hf
  rw [hstate] at hf
  cases hf
  rw [hload]
  rfl

/-- The rule obtained its revision with the call between `pre` and `post` and kept it since. -/
def ObtainedBy (pre : List Op) (op : Op) (post : List Op) (key id revision : Nat) : Prop :=
  ¬ Configured (run pre) key id revision ∧
    ∀ mid rest, post = mid ++ rest → Configured (run (pre ++ op :: mid)) key id revision

theorem ObtainedBy.snoc (h : ObtainedBy pre op post key id revision)
    (hlast : Configured (run (pre ++ op :: post ++ [last])) key id revision) :
    ObtainedBy pre op (post ++ [last]) key id revision := by
  refine ⟨h.1, fun mid rest he => ?_⟩
  rcases eq_nil_or_concat rest with rfl | ⟨rest, final, rfl⟩
  · rw [append_nil] at he
    subst he
    simpa using hlast
  · rw [concat_eq_append, ← append_assoc] at he
    exact h.2 mid rest (append_inj_left' he rfl)

/-- Completions made so far do not cover a window that has not been opened yet. -/
theorem Lawful.charges_ahead (lawful : Lawful (before ++ after))
    (hr : ruleAt (run (before ++ after)) key id = some rule) (hid : rule'.id = id)
    (hrev : rule'.definition.revision = rule.definition.revision)
    (hkind : rule'.definition.kind = .periodic)
    (hahead : rule.windowGeneration < rule'.windowGeneration) : charges key rule' after = [] := by
  rw [charges, filterMap_eq_nil_iff]
  intro op hop
  cases op with
  | complete ticket cost =>
    obtain ⟨s, t, rfl⟩ := append_of_mem hop
    obtain ⟨early, target, at_, late, hsplit, hticket⟩ := mem_issued.mp
      (lawful.tickets (before ++ s) ticket cost t (by simp))
    have hissued : ticket ∈ issued (before ++ (s ++ .complete ticket cost :: t)) :=
      mem_issued.mpr ⟨early, target, at_, late ++ .complete ticket cost :: t,
        by rw [← append_assoc, hsplit]; simp, hticket⟩
    dsimp only
    rw [if_neg]
    rintro ⟨hkey, listed, hlisted, hlid, hlrev, hlgen⟩
    have hrid := ruleAt_id hr
    have hle := lawful.issued_generation (hrid ▸ hr) hissued hkey hlisted
      (by rw [hlid, hid, hrid]) (by rw [← hlrev, hrev])
    have := hlgen hkind
    omega
  | _ => rfl

/-- The window that a rule was restored with is not ahead of its current one. -/
theorem Lawful.restored_generation_le (lawful : Lawful (pre ++ first :: post))
    (hobtained : ObtainedBy pre first post key id rule.definition.revision)
    (hr : ruleAt (run (pre ++ first :: post)) key id = some rule)
    (pending : (run pre).restorePending = true) (hs : (run pre).restored[id]? = some state) :
    state.windowGeneration ≤ rule.windowGeneration := by
  obtain ⟨start, hstart, hrev⟩ := hobtained.2 [] post rfl
  have hcall : ruleAt (apply (run pre) first) key id = some start := by
    rw [← run_snoc]
    exact hstart
  have hequal := (obtained hcall (by rw [hrev]; exact hobtained.1)).2 state pending hs
  rw [show pre ++ first :: post = (pre ++ [first]) ++ post by simp] at lawful hr
  rw [hequal]
  exact (lawful.generation_mono hstart hr hrev.symm).1

theorem used_settled (lawful : Lawful ops) (h : ruleAt (run ops) key id = some rule) :
    ∃ pre op post, ops = pre ++ op :: post ∧
      ObtainedBy pre op post key id rule.definition.revision ∧
      rule.usedNanoUSD = settle (restoredAmount (run pre) rule) (charges key rule post) := by
  induction ops using reverseRecOn generalizing rule with
  | nil => simp [ruleAt, lockEntry, newRuntime] at h
  | append_singleton ops op ih =>
    have hrun := h
    rw [run_snoc] at h
    by_cases hold : Configured (run ops) key id rule.definition.revision
    · obtain ⟨before, hb, hrev⟩ := hold
      obtain ⟨pre, first, post, rfl, hobtained, hused⟩ := ih lawful.initial hb
      have hid : rule.id = before.id := (ruleAt_id h).trans (ruleAt_id hb).symm
      have hkeep : ObtainedBy pre first (post ++ [op]) key id rule.definition.revision :=
        ObtainedBy.snoc (hrev ▸ hobtained) ⟨rule, hrun, rfl⟩
      refine ⟨pre, first, post ++ [op], by simp, hkeep, ?_⟩
      have step := ruleStep_run hb h hrev.symm
      have hkind := step.kind_eq
      cases step with
      | kept _ period state uncharged unopened =>
        have used : rule.usedNanoUSD = before.usedNanoUSD := by
          rw [← state]
          rfl
        have generation : rule.windowGeneration = before.windowGeneration := by
          rw [← state]
          rfl
        have hnone : charges key before [op] = [] := by
          cases op with
          | complete ticket cost => simp [charges, uncharged ticket cost rfl]
          | _ => rfl
        rw [charges_congr hid hrev.symm hkind generation, charges_snoc, hnone, append_nil,
          restoredAmount_congr hid hkind generation, used, hused]
      | charged ticket cost call covers eq =>
        have generation : rule.windowGeneration = before.windowGeneration := by
          rw [eq, charge_windowGeneration]
        have hone : charges key before [op] = [cost] := by simp [charges, call, covers]
        rw [charges_congr hid hrev.symm hkind generation, charges_snoc, hone,
          restoredAmount_congr hid hkind generation, settle_snoc, ← hused, eq,
          charge_usedNanoUSD]
      | opened now call periodic inactive eq =>
        have bound := lawful.generations _ [op] rfl key id before hb
        obtain ⟨hzero, hgen⟩ := openWindow_fields periodic inactive bound
        rw [← eq] at hzero hgen
        have hahead : before.windowGeneration < rule.windowGeneration := by omega
        have hcharges : charges key rule (post ++ [op]) = [] := by
          have hlaw : Lawful ((pre ++ [first]) ++ post) := by simpa using lawful.initial
          have hpast := hlaw.charges_ahead (by simpa using hb) (ruleAt_id h) hrev.symm
            (hkind.trans periodic) hahead
          rw [charges_snoc, hpast, call]
          rfl
        have hrestored : restoredAmount (run pre) rule = 0 := by
          unfold restoredAmount
          split_ifs with hp
          · cases hs : (run pre).restored[rule.id]? with
            | none => rfl
            | some state =>
              rw [ruleAt_id h] at hs
              have := lawful.initial.restored_generation_le hobtained hb hp hs
              have hne : state.windowGeneration ≠ rule.windowGeneration := by omega
              simp [hkind, periodic, hne]
          · rfl
        rw [hcharges, hrestored, hzero, settle_nil (by decide)]
    · obtain ⟨hused, -⟩ := obtained h hold
      refine ⟨ops, op, [], rfl, ⟨hold, ?_⟩, ?_⟩
      · intro mid rest he
        obtain ⟨rfl, -⟩ := nil_eq_append_iff.mp he
        exact ⟨rule, hrun, rfl⟩
      · have hle : restoredAmount (run ops) rule ≤ MaxInt64 := hused ▸ rule.used_le
        rw [charges, filterMap_nil, settle_nil hle, hused]

/-! ## Late tickets -/

theorem complete_uncovered (hr : ruleAt runtime key id = some rule) {ticket : Ticket}
    (h : ¬ ticket.Covers key rule) (cost : Int) :
    ruleAt (complete runtime ticket cost).1 key id = some rule := by
  simp [ruleAt_complete, hr, h]

/-- A ticket that covers a rule was issued under the revision that the rule has. -/
theorem covers_admitted (h : (admitKey (run early) key now).2.1.Covers key rule) :
    ∃ listed, ruleAt (run (early ++ [.admitKey key now])) key rule.id = some listed ∧
      listed.definition.revision = rule.definition.revision ∧
      (rule.definition.kind = .periodic → rule.windowGeneration = listed.windowGeneration) := by
  obtain ⟨-, entry, hentry, hid, hrev, hgen⟩ := h
  obtain ⟨before, -, hlisted, rfl⟩ := admit_ticket hentry
  rw [hid] at hlisted
  refine ⟨openWindow now before, ?_, hrev.symm, hgen⟩
  rw [run_snoc]
  exact hlisted

theorem not_covers_older_revision (hold : ruleAt (run early) key id = some old) (hid : rule.id = id)
    (hne : old.definition.revision ≠ rule.definition.revision) :
    ¬ (admitKey (run early) key now).2.1.Covers key rule := by
  intro h
  obtain ⟨listed, hlisted, hrev, -⟩ := covers_admitted h
  have hstill : Configured (run early) key id listed.definition.revision := by
    rw [run_snoc, hid] at hlisted
    rcases configured_cases ⟨listed, hlisted, rfl⟩ with hc | ⟨definitions, runtime', hop, -⟩
    · exact hc
    · cases hop
  obtain ⟨found, hf, hfrev⟩ := hstill
  rw [hold] at hf
  cases hf
  exact hne (hfrev.trans hrev)

theorem Lawful.not_covers_older_window
    (lawful : Lawful ((early ++ [.admitKey key now]) ++ (mid ++ .admitKey key now' :: late)))
    (hr : ruleAt (run ((early ++ [.admitKey key now]) ++ (mid ++ .admitKey key now' :: late))) key
      id = some rule)
    (hopens : OpensWindow (run ((early ++ [.admitKey key now]) ++ mid)) key id now') :
    ¬ (admitKey (run early) key now).2.1.Covers key rule := by
  intro h
  obtain ⟨listed, hlisted, hrev, hgen⟩ := covers_admitted h
  rw [ruleAt_id hr] at hlisted
  obtain ⟨hallowed, opening, hopening, hperiodic, hinactive⟩ := hopens
  -- The rule keeps its revision from the admission of the ticket to the end.
  have lawful' :
      Lawful ((early ++ [.admitKey key now]) ++ mid ++ (.admitKey key now' :: late)) := by
    simpa using lawful
  have hr' :
      ruleAt (run ((early ++ [.admitKey key now]) ++ mid ++ (.admitKey key now' :: late))) key
      id = some rule := by simpa using hr
  obtain ⟨between, hbetween, hrev'⟩ := lawful'.stays ⟨listed, hlisted, hrev⟩ ⟨rule, hr', rfl⟩
  rw [hopening] at hbetween
  cases hbetween
  have hfirst := (lawful'.initial.generation_mono hlisted hopening (hrev'.trans hrev.symm)).1
  -- The opening raises the generation, and nothing lowers it afterwards.
  have hopened :
      ruleAt (run ((early ++ [.admitKey key now]) ++ mid ++ [.admitKey key now'])) key id =
      some (openWindow now' opening) := by
    rw [run_snoc, apply, ruleAt_admitKey, hopening, if_pos ⟨rfl, hallowed⟩]
    rfl
  have bound := lawful'.generations _ _ rfl key id opening hopening
  have hstep := (openWindow_fields hperiodic hinactive bound).2
  have lawful'' :
      Lawful (((early ++ [.admitKey key now]) ++ mid ++ [.admitKey key now']) ++ late) := by
    simpa using lawful
  have hlast := lawful''.generation_mono hopened (by simpa using hr)
    (by rw [openWindow_definition, hrev'])
  rw [openWindow_definition] at hlast
  have := hgen (hlast.2.trans hperiodic)
  omega

/-- In every lawful run the amount of every configured rule is exactly what the completions of
its current revision and window add up to, and late tickets change no rule. -/
theorem quota_accounting_exact {ops : List Op} (lawful : Lawful ops) {key id : Nat}
    {rule : RuntimeRule} (configured : ruleAt (run ops) key id = some rule) :
    (∃ pre op post, ops = pre ++ op :: post ∧
      ObtainedBy pre op post key id rule.definition.revision ∧
      rule.usedNanoUSD = settle (restoredAmount (run pre) rule) (charges key rule post)) ∧
    (∀ early now late old cost, ops = early ++ .admitKey key now :: late →
      ruleAt (run early) key id = some old →
      old.definition.revision ≠ rule.definition.revision →
      ruleAt (complete (run ops) (admitKey (run early) key now).2.1 cost).1 key id = some rule) ∧
    (∀ early now mid now' late cost,
      ops = early ++ .admitKey key now :: (mid ++ .admitKey key now' :: late) →
      OpensWindow (run (early ++ .admitKey key now :: mid)) key id now' →
      ruleAt (complete (run ops) (admitKey (run early) key now).2.1 cost).1 key id =
        some rule) := by
  refine ⟨used_settled lawful configured, ?_, ?_⟩
  · intro early now late old cost _ hold hne
    exact complete_uncovered configured
      (not_covers_older_revision hold (ruleAt_id configured) hne) cost
  rintro early now mid now' late cost rfl hopens
  rw [show early ++ .admitKey key now :: (mid ++ .admitKey key now' :: late) =
    (early ++ [.admitKey key now]) ++ (mid ++ .admitKey key now' :: late) by simp]
      at lawful configured ⊢
  refine complete_uncovered configured (lawful.not_covers_older_window configured ?_) cost
  simpa using hopens

theorem sampleRun_lawful : Lawful sampleRun where
  tickets := sampleRun_tickets
  fresh early late definitions post h key id revision hc := by
    have hempty : early = [] := by
      rcases early with _ | ⟨a, early⟩
      · rfl
      · rcases early with _ | ⟨b, _ | ⟨c, early⟩⟩ <;>
          rcases late with _ | ⟨d, _ | ⟨e, late⟩⟩ <;> simp_all [sampleRun]
    obtain ⟨rule, hr, -⟩ := hc
    rw [hempty] at hr
    simp [ruleAt, lockEntry, newRuntime] at hr
  generations pre post h key id rule hr := by
    have hbound : ∀ n ∈ range 4, ∀ e ∈ (run (sampleRun.take n)).entries.toList,
        ∀ rule ∈ e.2.rules, rule.windowGeneration < MaxUint64 := by decide +kernel
    have hlength : pre.length < 4 := by
      have := congrArg length h
      simp only [length_append, sampleRun, length_cons, length_nil] at this
      omega
    have hpre : pre = sampleRun.take pre.length := by rw [h, take_left]
    rw [hpre] at hr
    obtain ⟨e, he, hrule⟩ := ruleAt_mem hr
    exact hbound pre.length (mem_range.mpr hlength) e he rule hrule

theorem quota_accounting_exact_sampleRun :
    ruleAt (run sampleRun) 1 7 = some sampleCharged ∧
      ∃ pre op post, sampleRun = pre ++ op :: post ∧ ObtainedBy pre op post 1 7 1 ∧
        5 = settle (restoredAmount (run pre) sampleCharged) (charges 1 sampleCharged post) := by
  have configured : ruleAt (run sampleRun) 1 7 = some sampleCharged := by decide +kernel
  exact ⟨configured, (quota_accounting_exact sampleRun_lawful configured).1⟩

end ApiLoad.AccessQuota
