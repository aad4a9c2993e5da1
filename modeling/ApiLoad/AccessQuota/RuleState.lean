import ApiLoad.AccessQuota.Runtime

/-!
# The state of one rule under each operation

A rule is identified by its access key and its rule ID. `ruleAt` looks it up, and one lemma per
operation says what the operation does to it. Everything else about runs is derived from these.
-/
namespace ApiLoad.AccessQuota
open Std Foundation AccessKeyEntry

namespace AccessKeyEntry

theorem byID_eq_some {entry : AccessKeyEntry} {id : Nat} :
    entry.byID id = some rule ↔ rule ∈ entry.rules ∧ rule.id = id :=
  KeyedList.find_eq_some entry.ids_nodup

@[simp] theorem byID_mapRules (entry : AccessKeyEntry) (f : RuntimeRule → RuntimeRule)
    (same : ∀ rule, (f rule).id = rule.id) (id : Nat) :
    (entry.mapRules f same).byID id = (entry.byID id).map f := by
  simp only [byID, mapRules, List.find?_map, Function.comp_def, same]

theorem byID_update (entry : AccessKeyEntry) (target : Nat) (f : RuntimeRule → RuntimeRule)
    (same : ∀ rule, (f rule).id = rule.id) (id : Nat) :
    (entry.update target f same).byID id =
      if target = id then (entry.byID id).map f else entry.byID id := by
  rw [update, byID_mapRules]
  cases h : entry.byID id with
  | none => simp
  | some rule =>
    have hid := (byID_eq_some.mp h).2
    by_cases ht : target = id
    · simp [ht, hid]
    · simp [ht, hid, Ne.symm ht]

end AccessKeyEntry

def ruleAt (runtime : Runtime) (key id : Nat) : Option RuntimeRule :=
  (lockEntry runtime key).bind (·.byID id)

variable {runtime : Runtime}

variable {key id target : Nat} {rule : RuntimeRule}

theorem ruleAt_id (h : ruleAt runtime key id = some rule) : rule.id = id := by
  obtain ⟨entry, -, hid⟩ := Option.bind_eq_some_iff.mp h
  exact (byID_eq_some.mp hid).2

theorem ruleAt_key (h : ruleAt runtime key id = some rule) : key ≠ 0 := by
  rintro rfl
  simp [ruleAt, lockEntry] at h

theorem lockEntry_some (h : lockEntry runtime key = some entry) :
    key ≠ 0 ∧ runtime.entries[key]? = some entry := by
  unfold lockEntry at h
  split_ifs at h with hkey
  exact ⟨hkey, h⟩

theorem ruleAt_mem (h : ruleAt runtime key id = some rule) :
    ∃ e ∈ runtime.entries.toList, rule ∈ e.2.rules := by
  obtain ⟨entry, hentry, hid⟩ := Option.bind_eq_some_iff.mp h
  exact ⟨(key, entry), OrderedMap.mem_toList_of_lookup (lockEntry_some hentry).2,
    (byID_eq_some.mp hid).1⟩

/-- Replacing one entry changes the rules of its key only. -/
theorem ruleAt_insert (entry : AccessKeyEntry) (htarget : target ≠ 0) (faults : Nat)
    (key id : Nat) :
    ruleAt { runtime with
      entries := runtime.entries.insert target entry, overflowFaultTotal := faults } key id =
      if target = key then entry.byID id else ruleAt runtime key id := by
  unfold ruleAt lockEntry
  by_cases hk : key = 0
  · have : target ≠ key := hk ▸ htarget
    simp [hk, htarget]
  · by_cases ht : target = key <;> simp [hk, ht]

/-! ## Admission -/

theorem ruleAt_admitKey (runtime : Runtime) (target : Nat) (now : Time) (key id : Nat) :
    ruleAt (admitKey runtime target now).1 key id =
      if target = key ∧ (check runtime target now).allowed then
        (ruleAt runtime key id).map (openWindow now)
      else ruleAt runtime key id := by
  unfold admitKey check
  cases hl : lockEntry runtime target with
  | none =>
    by_cases ht : target = key
    · subst ht
      simp [ruleAt, hl]
    · simp [ht]
  | some entry =>
    obtain ⟨hkey, -⟩ := lockEntry_some hl
    by_cases hd : (decisionLocked entry now.unixMilli).allowed
    swap
    · simp [hd]
    simp only [hd, not_true, if_false, and_true]
    rw [ruleAt_insert _ hkey]
    by_cases ht : target = key
    · subst ht
      simp [ruleAt, hl]
    · simp [ht]

/-- The ticket of an admission lists the rules of its key as the admission leaves them. -/
theorem admit_ticket (h : listed ∈ (admitKey runtime target now).2.1.rules) :
    ∃ rule, ruleAt runtime target listed.ruleID = some rule ∧
      ruleAt (admitKey runtime target now).1 target listed.ruleID = some (openWindow now rule) ∧
      listed = ticketRule (openWindow now rule) := by
  unfold admitKey at h ⊢
  cases hl : lockEntry runtime target with
  | none => simp [hl] at h
  | some entry =>
    obtain ⟨hkey, -⟩ := lockEntry_some hl
    by_cases hd : (decisionLocked entry now.unixMilli).allowed
    swap
    · simp [hl, hd] at h
    simp only [hl, hd, not_true, if_false, ticketFor, mapRules, List.map_map,
      List.mem_map] at h ⊢
    obtain ⟨rule, hm, rfl⟩ := h
    have hid : (ticketRule (openWindow now rule)).ruleID = rule.id := by
      simp [ticketRule, RuntimeRule.id]
    have hbefore : entry.byID rule.id = some rule := byID_eq_some.mpr ⟨hm, rfl⟩
    refine ⟨rule, ?_, ?_, rfl⟩
    · rw [Function.comp, hid, ruleAt, hl]
      exact hbefore
    rw [ruleAt_insert _ hkey, if_pos rfl, Function.comp, hid]
    have := byID_mapRules entry (openWindow now)
      (fun rule => by simp [RuntimeRule.id]) rule.id
    rw [hbefore] at this
    exact this

theorem admit_ticket_key (runtime : Runtime) (target : Nat) (now : Time) :
    (admitKey runtime target now).2.1.accessKeyID = target := by
  unfold admitKey
  split
  · rfl
  · dsimp only
    split_ifs <;> rfl

/-! ## Completion -/

/-- The ticket charges the rule: it is for this key and lists the rule with its current revision
and, for a periodic rule, its current window. -/
def Ticket.Covers (ticket : Ticket) (key : Nat) (rule : RuntimeRule) : Prop :=
  ticket.accessKeyID = key ∧
    ∃ listed ∈ ticket.rules, listed.ruleID = rule.id ∧ listed.Covers rule

instance (ticket : Ticket) (key : Nat) (rule : RuntimeRule) :
    Decidable (ticket.Covers key rule) :=
  inferInstanceAs (Decidable (_ ∧ ∃ _, _ ∧ _))

/-- The effect of the loop on one rule: at most one rule of the ticket has its ID. -/
theorem byID_completeRules {tickets : List TicketRule}
    (nodup : (tickets.map TicketRule.ruleID).Nodup) (entry : AccessKeyEntry)
    (fault : Option CompletionFault) (id : Nat) :
    (completeRules cost tickets entry fault).1.byID id =
      (entry.byID id).map fun rule =>
        if ∃ listed ∈ tickets, listed.ruleID = rule.id ∧ listed.Covers rule then charge cost rule
        else rule := by
  induction tickets generalizing entry fault with
  | nil => simp [completeRules]
  | cons first rest ih =>
    rw [List.map_cons, List.nodup_cons] at nodup
    obtain ⟨absent, nodup⟩ := nodup
    -- No later rule of the ticket has the ID of the first one.
    have later : ∀ listed ∈ rest, listed.ruleID ≠ first.ruleID := fun listed hm he =>
      absent (he ▸ List.mem_map_of_mem hm)
    rw [completeRules]
    cases hf : entry.byID first.ruleID with
    | none =>
      rw [ih nodup]
      refine Option.map_congr fun rule hrule => ?_
      have hid := (byID_eq_some.mp hrule).2
      have : first.ruleID ≠ rule.id := fun he => by rw [he, hid, hrule] at hf; cases hf
      simp [this]
    | some found =>
      have hfound := (byID_eq_some.mp hf).2
      dsimp only
      split_ifs with hcover
      · rw [ih nodup, byID_update]
        by_cases hid : first.ruleID = id
        · subst hid
          have none_later : ¬ ∃ listed ∈ rest,
              listed.ruleID = (charge cost found).id ∧ listed.Covers (charge cost found) := by
            rintro ⟨listed, hm, he, -⟩
            exact later listed hm (he.trans (by simpa [RuntimeRule.id] using hfound))
          simp [hf, none_later, hfound, hcover]
        · rw [if_neg hid]
          refine Option.map_congr fun rule hrule => ?_
          have := (byID_eq_some.mp hrule).2
          simp [this, hid]
      · rw [ih nodup]
        refine Option.map_congr fun rule hrule => ?_
        by_cases hid : first.ruleID = rule.id
        · have same : rule = found := by
            rw [(byID_eq_some.mp hrule).2] at hid
            rw [hid, hrule] at hf
            exact Option.some.inj hf
          subst same
          simp [hcover]
        · simp [hid]

theorem ruleAt_complete (runtime : Runtime) (ticket : Ticket) (cost : Int) (key id : Nat) :
    ruleAt (complete runtime ticket cost).1 key id =
      (ruleAt runtime key id).map fun rule =>
        if ticket.Covers key rule then charge cost rule else rule := by
  unfold complete
  split_ifs with htrivial
  · cases hr : ruleAt runtime key id with
    | none => rfl
    | some rule =>
      have hkey := ruleAt_key hr
      have : ¬ ticket.Covers key rule := by
        rintro ⟨rfl, listed, hm, -⟩
        rcases htrivial with hzero | hempty
        · exact hkey hzero
        · simp [hempty] at hm
      simp [this]
  · push Not at htrivial
    cases hl : lockEntry runtime ticket.accessKeyID with
    | none =>
      by_cases ht : ticket.accessKeyID = key
      · subst ht
        simp [ruleAt, hl]
      · simp [Ticket.Covers, ht]
    | some entry =>
      dsimp only
      rw [ruleAt_insert _ htrivial.1]
      by_cases ht : ticket.accessKeyID = key
      · subst ht
        simp [ruleAt, hl, byID_completeRules ticket.ids_nodup, Ticket.Covers]
      · simp [Ticket.Covers, ht]

/-! ## Acknowledgement -/

theorem ruleAt_ack (runtime : Runtime) (target ruleID revision version : Nat) (key id : Nat) :
    ruleAt (ack runtime target ruleID revision version) key id =
      if target = key ∧ ruleID = id then (ruleAt runtime key id).map (ackRule revision version)
      else ruleAt runtime key id := by
  unfold ack
  cases hl : lockEntry runtime target with
  | none =>
    by_cases ht : target = key
    · subst ht
      simp [ruleAt, hl]
    · simp [ht]
  | some entry =>
    dsimp only
    rw [ruleAt_insert _ (lockEntry_some hl).1]
    by_cases ht : target = key
    · subst ht
      simp [ruleAt, hl, byID_update]
    · simp [ht]

end ApiLoad.AccessQuota
