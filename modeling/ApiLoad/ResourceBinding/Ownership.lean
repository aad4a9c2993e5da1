import ApiLoad.ResourceBinding.Store

/-!
# The first owner keeps a resource

A row that has not expired survives every step: a transaction deletes it only if it has expired at
the time that the transaction's call has read, and that time is not later than the clock.
-/
namespace ApiLoad.ResourceBinding
open Std Foundation Foundation.Transition OrderedMap Store
open State.ResponseBindings (isResourceBindingKey)

theorem unixMilli_mono (h : x ≤ y) : unixMilli x ≤ unixMilli y :=
  Int.ediv_le_ediv (by norm_num) h

/-- A deadline in whole milliseconds is reached when the clock reads them. -/
theorem unixMilli_lt {clock : Int} (h : clock < ms * 10 ^ 6) : unixMilli clock < ms := by
  unfold unixMilli
  omega

variable {table table' : Table} {row old saved : Row} {now : Int}

theorem Row.sameOwner_self (row : Row) : row.sameOwner row = true := by simp [Row.sameOwner]

/-! ## The transaction -/

/-- While a row has not expired, only its owner can claim it, and the row stays. -/
theorem claimTransaction_active (h : table[row.key]? = some old) (active : now < old.expiresAtMS) :
    claimTransaction table row now =
      if old.sameOwner row then .ok (table, old) else .error .ownershipConflict := by
  simp [claimTransaction, h, Int.not_le.mpr active]

/-- A row that is not there or has expired gives way. -/
theorem claimTransaction_free (h : ∀ old, table[row.key]? = some old → old.expiresAtMS ≤ now) :
    ∃ table', claimTransaction table row now = .ok (table', row) ∧
      ∀ k, table'[k]? = if row.key = k then some row else table[k]? := by
  cases hk : table[row.key]? with
  | none =>
    refine ⟨table.insert row.key row, ?_, fun k => lookup_insert ..⟩
    simp [claimTransaction, hk, row.sameOwner_self]
  | some old =>
    refine ⟨(table.erase row.key).insert row.key row, ?_, fun k => ?_⟩
    · simp [claimTransaction, hk, h old hk, row.sameOwner_self]
    · simp only [lookup_insert, lookup_erase]
      split <;> rfl

/-- What a committed claim has done: its row was saved, or found. -/
theorem claimTransaction_ok (h : claimTransaction table row now = .ok (table', saved)) :
    table'[row.key]? = some saved ∧ saved.sameOwner row = true ∧
      (∀ (k : RowKey) (old : Row), table[k]? = some old → now < old.expiresAtMS →
        table'[k]? = some old) ∧
      ∀ (k : RowKey) (new : Row), table'[k]? = some new →
        row.key = k ∧ row = new ∨ table[k]? = some new := by
  by_cases free : ∀ old, table[row.key]? = some old → old.expiresAtMS ≤ now
  · obtain ⟨t, ht, lookup⟩ := claimTransaction_free free
    obtain ⟨rfl, rfl⟩ : t = table' ∧ row = saved := by simpa [ht] using h
    refine ⟨by simp [lookup], row.sameOwner_self, fun k old hold active => ?_, fun k new hnew => ?_⟩
    · rw [lookup, if_neg, hold]
      rintro rfl
      have := free old hold
      omega
    rw [lookup] at hnew
    split at hnew
    · exact Or.inl ⟨‹_›, Option.some.inj hnew⟩
    · exact Or.inr hnew
  · push Not at free
    obtain ⟨old, hold, active⟩ := free
    rw [claimTransaction_active hold active] at h
    split at h
    · rename_i same
      obtain ⟨rfl, rfl⟩ : table = table' ∧ old = saved := by simpa using h
      exact ⟨hold, same, fun _ _ h _ => h, fun _ _ h => Or.inr h⟩
    · cases h

/-! ## The invariant -/

/-- The row stands under the hash of a resource that can be asked for. -/
structure Row.WellFormed (resourceHash : String → String) (row : Row) : Prop where
  hashed : row.key.resourceHash = resourceHash row.resourceKey
  accessKeyID : row.key.accessKeyID ≠ 0
  resourceKey : isResourceBindingKey row.resourceKey = true

/-- The times that a call has read are not later than the clock, and it asks for a row under the
hash of its resource. -/
def Call.Timely (resourceHash : String → String) (clock : Int) : Call → Prop
  | .claiming row now => now ≤ unixMilli clock ∧ row.WellFormed resourceHash
  | .purging _ now | .deleting _ now => now ≤ clock
  | .loading key resourceKey now =>
    now ≤ unixMilli clock ∧ key.resourceHash = resourceHash resourceKey
  | _ => True

theorem Call.Timely.mono {call : Call} {clock : Int} (h : call.Timely resourceHash clock)
    (le : clock ≤ clock') : call.Timely resourceHash clock' := by
  have := unixMilli_mono le
  cases call with
  | claiming row now | loading key resourceKey now => exact ⟨h.1.trans this, h.2⟩
  | purging binding now | deleting binding now => exact Int.le_trans h le
  | claimed | claimReturned | loadReturned => trivial

theorem claimRow_ok (h : claimRow resourceHash binding now = .ok row) :
    row.WellFormed resourceHash ∧ now < row.expiresAtMS ∧ bindingFromRow row =
      { binding with
        autoSelection := none, expiresAt := unixMilli binding.expiresAt * 10 ^ 6 } := by
  simp only [claimRow] at h
  split at h
  · cases h
  split at h
  · cases h
  rename_i format complete
  split at h
  · cases h
  rename_i pending
  cases h
  simp only [Bool.or_eq_true, decide_eq_true_eq, not_or] at complete
  exact ⟨⟨rfl, complete.1.1.1, by simpa using format⟩, Int.not_le.mp pending, rfl⟩

namespace Store
variable {resourceHash : String → String} {s s₁ s' : Store} {c : Nat} {action : Action}

structure Sound (resourceHash : String → String) (s : Store) : Prop where
  timely : ∀ (c : Nat) (call : Call), s.calls[c]? = some call → call.Timely resourceHash s.clock
  filed : ∀ (k : RowKey) (row : Row), s.table[k]? = some row → row.key = k

/-- A step keeps the rows that have not expired after it. -/
structure Keeps (resourceHash : String → String) (s s' : Store) : Prop where
  sound : s'.Sound resourceHash
  clock : s.clock ≤ s'.clock
  active : ∀ (k : RowKey) (row : Row), s.table[k]? = some row →
    unixMilli s'.clock < row.expiresAtMS → s'.table[k]? = some row

theorem put_self (s : Store) (call : Call) : (s.put c call).calls[c]? = some call := by
  rw [put, lookup_insert, if_pos rfl]

/-- A step that changes one call and the table. -/
theorem Sound.put (h : s.Sound resourceHash) {call : Call} {lastPurge : Option Int} {table : Table}
    (timely : call.Timely resourceHash s.clock)
    (filed : ∀ (k : RowKey) (row : Row), table[k]? = some row → row.key = k)
    (active : ∀ (k : RowKey) (row : Row), s.table[k]? = some row →
      unixMilli s.clock < row.expiresAtMS → table[k]? = some row) :
    Keeps resourceHash s ({ s with table, lastPurge }.put c call) := by
  refine ⟨⟨?_, filed⟩, le_rfl, active⟩
  intro d call' hd
  simp only [Store.put, lookup_insert] at hd
  split at hd
  · cases hd
    exact timely
  · exact h.timely d call' hd

/-- A step that changes one call only. -/
theorem Sound.putCall (h : s.Sound resourceHash) {call : Call}
    (timely : call.Timely resourceHash s.clock) :
    Keeps resourceHash s (s.put c call) := h.put timely h.filed fun _ _ hrow _ => hrow

theorem step_keeps (h : s.Sound resourceHash) (hs : step resourceHash action s = some s') :
    Keeps resourceHash s s' := by
  cases action with
  | tick elapsed =>
    cases hs
    refine ⟨⟨fun c call hc => (h.timely c call hc).mono ?_, h.filed⟩, by simp,
      fun _ _ hrow _ => hrow⟩
    simp
  | claim c binding =>
    simp only [step] at hs
    split at hs
    · cases hs
    split at hs
    · cases hs
      exact h.putCall trivial
    rename_i row accepted
    cases hs
    exact h.putCall ⟨le_rfl, (claimRow_ok accepted).1⟩
  | commit c =>
    simp only [step] at hs
    split at hs
    swap
    · cases hs
    rename_i row now hc
    have timely : now ≤ unixMilli s.clock := (h.timely c _ hc).1
    split at hs
    · cases hs
      exact h.putCall trivial
    rename_i table saved committed
    cases hs
    obtain ⟨-, -, kept, origin⟩ := claimTransaction_ok committed
    refine h.put trivial ?_ fun k row hrow active => kept k row hrow (by omega)
    intro k new hnew
    obtain ⟨hk, rfl⟩ | hold := origin k new hnew
    · exact hk
    · exact h.filed k new hold
  | readClock c =>
    simp only [step] at hs
    split at hs
    · cases hs
      exact h.putCall le_rfl
    · cases hs
  | decidePurge c =>
    simp only [step] at hs
    split at hs
    swap
    · cases hs
    rename_i binding now hc
    split at hs
    · cases hs
      exact h.putCall trivial
    cases hs
    have timely : now ≤ s.clock := h.timely c _ hc
    exact h.put timely h.filed fun _ _ hrow _ => hrow
  | purge c ok =>
    simp only [step] at hs
    split at hs
    swap
    · cases hs
    rename_i binding now hc
    have timely : now ≤ s.clock := h.timely c _ hc
    cases hs
    cases ok with
    | false => exact h.putCall trivial
    | true =>
      refine h.put trivial ?_ ?_ <;> simp only [if_true, lookup_filter]
      · intro k row hrow
        exact h.filed k row (Option.eq_some_of_filter_eq_some hrow)
      intro k row hrow active
      have := unixMilli_mono timely
      rw [hrow, Option.filter_some, if_pos]
      simp
      omega
  | load c accessKeyID key =>
    simp only [step] at hs
    split at hs
    · cases hs
    split at hs
    · cases hs
      exact h.putCall trivial
    · cases hs
      exact h.putCall ⟨le_rfl, rfl⟩
  | query c =>
    simp only [step] at hs
    split at hs
    · cases hs
      exact h.putCall trivial
    · cases hs

theorem Keeps.trans (h : Keeps resourceHash s s₁) (h' : Keeps resourceHash s₁ s') :
    Keeps resourceHash s s' := by
  refine ⟨h'.sound, h.clock.trans h'.clock, fun k row hrow active => ?_⟩
  have := unixMilli_mono (Int.ofNat_le.mpr h'.clock)
  exact h'.active k row (h.active k row hrow (by omega)) active

theorem run_keeps (h : s.Sound resourceHash) (hr : run (step resourceHash) labels s = some s') :
    Keeps resourceHash s s' :=
  run_invariant (P := Keeps resourceHash s)
    (fun _ _ _ kept hs => kept.trans (step_keeps kept.sound hs))
    ⟨h, le_rfl, fun _ _ hrow _ => hrow⟩ hr

theorem sound_of_reachable (h : Reachable resourceHash start s) : s.Sound resourceHash :=
  h.invariant ⟨by simp, by simp⟩ fun _ _ _ hs hstep => (step_keeps hs hstep).sound

end Store

/-! ## The first owner -/

def owner (binding : Binding) : Nat × Nat × Nat :=
  (binding.groupID, binding.credentialID, binding.identityGeneration)

def resource (binding : Binding) : Nat × String := (binding.accessKeyID, binding.responseID)

theorem Row.sameOwner_iff : saved.sameOwner row = true ↔
    saved.resourceKey = row.resourceKey ∧
      owner (bindingFromRow saved) = owner (bindingFromRow row) := by
  simp [Row.sameOwner, owner, bindingFromRow, and_assoc]

namespace Store
variable {resourceHash : String → String} {s s₁ s' : Store} {c d : Nat} {b : Binding}

/-- A claim that succeeds leaves its row in the table. -/
theorem wellFormed_of_committed (h : s.Sound resourceHash)
    (hs : step resourceHash (.commit c) s = some s₁)
    (succeeded : s₁.calls[c]? = some (.claimed b)) :
    ∃ row, s₁.table[row.key]? = some row ∧ bindingFromRow row = b ∧
      row.WellFormed resourceHash := by
  simp only [step] at hs
  split at hs
  swap
  · cases hs
  rename_i row now hc
  have formed := (h.timely c _ hc).2
  split at hs
  · cases hs
    simp [put] at succeeded
  rename_i table saved committed
  cases hs
  obtain ⟨found, same, -, origin⟩ := claimTransaction_ok committed
  have filed : saved.key = row.key := by
    obtain ⟨-, rfl⟩ | hold := origin _ _ found
    · rfl
    · exact h.filed _ _ hold
  have resourceKey := (Row.sameOwner_iff.mp same).1
  exact ⟨saved, filed ▸ found, by simpa [put] using succeeded,
    filed ▸ resourceKey ▸ formed.hashed, filed ▸ formed.accessKeyID,
      resourceKey ▸ formed.resourceKey⟩

end Store

/-! ## What a call will return -/

def Call.returned : Call → Bool
  | .claimReturned _ | .loadReturned _ => true
  | _ => false

def Action.caller : Action → Option Nat
  | .tick _ => none
  | .claim c _ | .commit c | .readClock c | .decidePurge c | .purge c _ | .load c _ _ | .query c =>
    some c

/-- Whatever happens before a deadline, a call returns nothing but an answer, and at any time it
gets there by its own steps. -/
def Store.Answers (resourceHash : String → String) (s : Store) (d : Nat) (deadline : Int)
    (answer : Call) : Prop :=
  ∀ labels s', run (step resourceHash) labels s = some s' → s'.clock < deadline →
    (∀ call, s'.calls[d]? = some call → call.returned = true → call = answer) ∧
    ∃ own s'', (∀ a ∈ own, Action.caller a = some d) ∧ run (step resourceHash) own s' = some s'' ∧
      s''.calls[d]? = some answer

/-- A call that asks for the resource of a binding, if it has not got an answer yet. -/
def Call.Concerns (resourceHash : String → String) (b : Binding) : Call → Prop
  | .claiming row _ => resource (bindingFromRow row) = resource b
  | .loading key resourceKey _ =>
    key = ⟨b.accessKeyID, resourceHash b.responseID⟩ ∧ resourceKey = b.responseID
  | _ => True

/-- The answer that a call is on its way to while the table has the row of a binding. -/
def Call.answer (b : Binding) : Call → Call
  | .claiming row _ => .claimReturned
    (if owner (bindingFromRow row) = owner b then .ok b else .error .ownershipConflict)
  | .claimed found | .purging found _ | .deleting found _ => .claimReturned (.ok found)
  | .loading .. => .loadReturned (some b)
  | call => call

/-- The number of steps that a call may still take. -/
def Call.rank : Call → Nat
  | .claiming .. => 4
  | .claimed _ => 3
  | .purging .. => 2
  | .deleting .. | .loading .. => 1
  | .claimReturned _ | .loadReturned _ => 0

namespace Store
variable {resourceHash : String → String} {s s' : Store} {d : Nat} {saved : Row}
  {call answer : Call}

structure Heading (resourceHash : String → String) (saved : Row) (d : Nat) (answer : Call)
    (s : Store) : Prop where
  sound : s.Sound resourceHash
  found : s.table[saved.key]? = some saved
  hashed : saved.key.resourceHash = resourceHash saved.resourceKey
  live : unixMilli s.clock < saved.expiresAtMS
  call : ∃ call, s.calls[d]? = some call ∧ call.Concerns resourceHash (bindingFromRow saved) ∧
    call.answer (bindingFromRow saved) = answer

theorem step_other (hs : step resourceHash action s = some s') (other : action.caller ≠ some d) :
    s'.calls[d]? = s.calls[d]? := by
  have put_other {c : Nat} (ne : c ≠ d) (s : Store) (call : Call) :
      (s.put c call).calls[d]? = s.calls[d]? := by
    rw [put, lookup_insert, if_neg ne]
  cases action <;> simp only [Action.caller, ne_eq, Option.some.injEq] at other <;>
    simp only [step] at hs
  case tick => cases hs; rfl
  all_goals
    repeat' split at hs
    all_goals cases hs
    all_goals exact put_other other ..

/-- The load of a row that has not expired. -/
theorem Heading.query (h : Heading resourceHash saved d answer s)
    (hd : s.calls[d]? = some (.loading key resourceKey now))
    (asked : Call.Concerns resourceHash (bindingFromRow saved) (.loading key resourceKey now)) :
    loadRow s.table key resourceKey now = some (bindingFromRow saved) := by
  obtain ⟨rfl, rfl⟩ := asked
  have timely := (h.sound.timely d _ hd).1
  have live := h.live
  have address :
      (⟨saved.key.accessKeyID, resourceHash saved.resourceKey⟩ : RowKey) = saved.key := by
    rw [← h.hashed]
  have still : now < saved.expiresAtMS := by omega
  simp [loadRow, bindingFromRow, address, h.found, still]

/-- The transaction of a claim on a row that has not expired. -/
theorem Heading.transaction (h : Heading resourceHash saved d answer s)
    (hd : s.calls[d]? = some (.claiming row now))
    (asked : Call.Concerns resourceHash (bindingFromRow saved) (.claiming row now)) :
    claimTransaction s.table row now =
      if owner (bindingFromRow row) = owner (bindingFromRow saved) then .ok (s.table, saved)
      else .error .ownershipConflict := by
  obtain ⟨timely, formed⟩ := h.sound.timely d _ hd
  have live := h.live
  simp only [Call.Concerns, resource, bindingFromRow, Prod.mk.injEq] at asked
  have key : row.key = saved.key :=
    RowKey.ext asked.1 (by rw [formed.hashed, h.hashed, asked.2])
  rw [claimTransaction_active (key ▸ h.found) (by omega)]
  refine if_congr ?_ rfl rfl
  rw [Row.sameOwner_iff, eq_comm (a := owner (bindingFromRow row))]
  exact and_iff_right asked.2.symm

/-- A call's own step brings it nearer to the same answer. -/
theorem Heading.own (h : Heading resourceHash saved d answer s)
    (hd : s.calls[d]? = some call) (asked : call.Concerns resourceHash (bindingFromRow saved))
    (hs : step resourceHash action s = some s') (own : action.caller = some d) :
    ∃ call', s'.calls[d]? = some call' ∧ call'.Concerns resourceHash (bindingFromRow saved) ∧
      call'.answer (bindingFromRow saved) = call.answer (bindingFromRow saved) ∧
      call'.rank < call.rank := by
  -- each call that has not returned has one action of its own
  cases call <;> cases action <;> cases own <;>
    simp only [step, hd, Option.isSome_some, if_true, reduceCtorEq] at hs
  case claiming.commit row now =>
    rw [h.transaction hd asked] at hs
    by_cases owned : owner (bindingFromRow row) = owner (bindingFromRow saved)
    · simp only [owned, if_true] at hs
      cases hs
      exact ⟨_, put_self .., trivial, by simp [Call.answer, owned], by simp [Call.rank]⟩
    · simp only [owned, if_false] at hs
      cases hs
      exact ⟨_, put_self .., trivial, by simp [Call.answer, owned], by simp [Call.rank]⟩
  case loading.query =>
    rw [h.query hd asked] at hs
    cases hs
    exact ⟨_, put_self .., trivial, rfl, Nat.zero_lt_one⟩
  case claimed.readClock | deleting.purge =>
    cases hs
    exact ⟨_, put_self .., trivial, rfl, by simp [Call.rank]⟩
  case purging.decidePurge =>
    split at hs <;> cases hs <;> exact ⟨_, put_self .., trivial, rfl, by simp [Call.rank]⟩

theorem Heading.step (h : Heading resourceHash saved d answer s)
    (hs : step resourceHash action s = some s') (live : unixMilli s'.clock < saved.expiresAtMS) :
    Heading resourceHash saved d answer s' := by
  have kept := step_keeps h.sound hs
  obtain ⟨call, hd, asked, heads⟩ := h.call
  refine ⟨kept.sound, kept.active _ _ h.found live, h.hashed, live, ?_⟩
  by_cases own : action.caller = some d
  · obtain ⟨call', hd', asked', same, -⟩ := h.own hd asked hs own
    exact ⟨call', hd', asked', same.trans heads⟩
  · exact ⟨call, (step_other hs own).trans hd, asked, heads⟩

theorem Heading.run (h : Heading resourceHash saved d answer s)
    (hr : run (Store.step resourceHash) labels s = some s')
    (live : unixMilli s'.clock < saved.expiresAtMS) : Heading resourceHash saved d answer s' := by
  refine (run_invariant (P := fun s => s.Sound resourceHash ∧
    (unixMilli s.clock < saved.expiresAtMS → Heading resourceHash saved d answer s)) ?_
    ⟨h.sound, fun _ => h⟩ hr).2 live
  rintro action s s' ⟨sound, heading⟩ hs
  have kept := step_keeps sound hs
  have := unixMilli_mono (Int.ofNat_le.mpr kept.clock)
  exact ⟨kept.sound, fun live => (heading (by omega)).step hs live⟩

/-- A call that has not returned has a step to take. -/
theorem exists_own_step (resourceHash : String → String) (hd : s.calls[d]? = some call)
    (waiting : call.returned = false) :
    ∃ action s', action.caller = some d ∧ Store.step resourceHash action s = some s' ∧
      s'.clock = s.clock := by
  cases call with
  | claiming row now =>
    refine ⟨.commit d, ?_⟩
    simp only [Store.step, hd, Action.caller, true_and]
    split <;> exact ⟨_, rfl, rfl⟩
  | claimed b =>
    refine ⟨.readClock d, s.put d (.purging b s.clock), rfl, ?_, rfl⟩
    simp only [Store.step, hd]
  | purging b now =>
    refine ⟨.decidePurge d, ?_⟩
    simp only [Store.step, hd, Action.caller, true_and]
    split <;> exact ⟨_, rfl, rfl⟩
  | deleting b now =>
    refine ⟨.purge d false, s.put d (.claimReturned (.ok b)), rfl, ?_, rfl⟩
    simp [Store.step, hd]
  | loading key resourceKey now =>
    refine ⟨.query d, s.put d (.loadReturned (loadRow s.table key resourceKey now)), rfl, ?_, rfl⟩
    simp only [Store.step, hd]
  | claimReturned | loadReturned => cases waiting

theorem answer_of_returned (h : call.returned = true) : call.answer b = call := by
  cases call <;> first | rfl | cases h

theorem Heading.returns (h : Heading resourceHash saved d answer s) :
    ∃ own s', (∀ a ∈ own, Action.caller a = some d) ∧
      Transition.run (Store.step resourceHash) own s = some s' ∧ s'.calls[d]? = some answer := by
  obtain ⟨call, hd, asked, heads⟩ := h.call
  induction hn : call.rank using Nat.strong_induction_on generalizing s call with
  | _ n ih =>
    cases returned : call.returned with
    | true =>
      rw [answer_of_returned returned] at heads
      exact ⟨[], s, nofun, rfl, heads ▸ hd⟩
    | false =>
      obtain ⟨action, s₁, own, hs, clock⟩ := exists_own_step resourceHash hd returned
      obtain ⟨call', hd', asked', same, less⟩ := h.own hd asked hs own
      have next := h.step hs (by rw [clock]; exact h.live)
      obtain ⟨rest, s', owns, hr, ends⟩ :=
        ih _ (hn ▸ less) next call' hd' asked' (same.trans heads) rfl
      exact ⟨action :: rest, s', List.forall_mem_cons.mpr ⟨own, owns⟩,
        Option.bind_eq_some_iff.mpr ⟨s₁, hs, hr⟩, ends⟩

theorem Heading.answers (h : Heading resourceHash saved d answer s) :
    s.Answers resourceHash d (bindingFromRow saved).expiresAt answer := by
  intro labels s' hr before
  have there := h.run hr (unixMilli_lt before)
  refine ⟨fun call hd returned => ?_, there.returns⟩
  obtain ⟨found, hfound, -, heads⟩ := there.call
  cases hfound.symm.trans hd
  exact (answer_of_returned returned).symm.trans heads

/-- A load of a resource: its row in the table is one of the resource, and so is what it returns. -/
def Asks (accessKeyID : Nat) (key : String) (d : Nat) (s : Store) : Prop :=
  (∃ rowKey now, s.calls[d]? = some (.loading rowKey key now) ∧ rowKey.accessKeyID = accessKeyID) ∨
    ∃ result, s.calls[d]? = some (.loadReturned result) ∧
      ∀ b, result = some b → resource b = (accessKeyID, key)

theorem Asks.step (h : Asks accessKeyID key d s) (sound : s.Sound resourceHash)
    (hs : Store.step resourceHash action s = some s') : Asks accessKeyID key d s' := by
  by_cases own : action.caller = some d
  swap
  · simpa only [Asks, step_other hs own] using h
  obtain ⟨rowKey, now, hd, rfl⟩ | ⟨result, hd, -⟩ := h
  · cases action <;> cases own <;> simp only [Store.step, hd, Option.isSome_some, if_true] at hs <;>
      cases hs
    refine .inr ⟨_, put_self .., fun b loaded => ?_⟩
    unfold loadRow at loaded
    split at loaded
    swap
    · cases loaded
    rename_i row hrow
    split at loaded
    · rename_i matching
      obtain rfl := Option.some.inj loaded
      simp [resource, bindingFromRow, sound.filed _ row hrow, matching.2]
    · cases loaded
  · cases action <;> cases own <;> simp only [Store.step, hd, Option.isSome_some, if_true] at hs <;>
      cases hs

theorem Asks.run (h : Asks accessKeyID key d s) (sound : s.Sound resourceHash)
    (hr : Transition.run (Store.step resourceHash) labels s = some s') :
    Asks accessKeyID key d s' :=
  (run_invariant (P := fun s => Asks accessKeyID key d s ∧ s.Sound resourceHash)
    (fun _ _ _ h hs => ⟨h.1.step h.2 hs, (step_keeps h.2 hs).sound⟩) ⟨h, sound⟩ hr).1

end Store

/-- The first owner of a resource keeps it until its binding expires: a `Load` returns the binding,
a `Claim` that passes the checks returns the binding to the same owner and a conflict to another
one. A `Claim` that does not pass them returns their error and changes nothing else. Once the
binding has expired, everybody can claim the resource; and a `Load` returns bindings of its own
resource only. -/
theorem first_owner_keeps (resourceHash : String → String) {start : Nat} {s : Store}
    (h : Store.Reachable resourceHash start s) :
    (∀ c s₁ b, step resourceHash (.commit c) s = some s₁ → s₁.calls[c]? = some (.claimed b) →
      ∀ labels s₂, run (step resourceHash) labels s₁ = some s₂ → s₂.clock < b.expiresAt →
      (∀ d s₃, step resourceHash (.load d b.accessKeyID b.responseID) s₂ = some s₃ →
        s₃.Answers resourceHash d b.expiresAt (.loadReturned (some b))) ∧
      ∀ d asked row s₃, claimRow resourceHash asked (unixMilli s₂.clock) = .ok row →
        resource asked = resource b → step resourceHash (.claim d asked) s₂ = some s₃ →
        s₃.Answers resourceHash d b.expiresAt (.claimReturned
          (if owner asked = owner b then .ok b else .error .ownershipConflict))) ∧
    (∀ (d : Nat) asked e, s.calls[d]? = none →
      claimRow resourceHash asked (unixMilli s.clock) = .error e →
      step resourceHash (.claim d asked) s =
        some { s with calls := s.calls.insert d (.claimReturned (.error e)) }) ∧
    (∀ (d : Nat) asked row, s.calls[d]? = none →
      claimRow resourceHash asked (unixMilli s.clock) = .ok row →
      (∀ old, s.table[row.key]? = some old → (bindingFromRow old).expiresAt ≤ s.clock) →
      ∃ own s', (∀ a ∈ own, Action.caller a = some d) ∧
        run (step resourceHash) (.claim d asked :: own) s = some s' ∧
        s'.calls[d]? = some (.claimReturned (.ok (bindingFromRow row)))) ∧
    ∀ d accessKeyID key s₁ labels s₂ b, step resourceHash (.load d accessKeyID key) s = some s₁ →
      run (step resourceHash) labels s₁ = some s₂ →
      s₂.calls[d]? = some (.loadReturned (some b)) → resource b = (accessKeyID, key) := by
  have sound := sound_of_reachable h
  refine ⟨?_, ?_, ?_, ?_⟩
  · intro c s₁ b hs succeeded labels s₂ hr before
    obtain ⟨saved, found, rfl, formed⟩ := wellFormed_of_committed sound hs succeeded
    have kept := run_keeps (step_keeps sound hs).sound hr
    have live : unixMilli s₂.clock < saved.expiresAtMS := unixMilli_lt before
    have still := kept.active saved.key saved found live
    -- a call that is put into the state leads to the answer it is heading for
    have heading (d : Nat) {call : Call}
        (asked : call.Concerns resourceHash (bindingFromRow saved))
        (timely : call.Timely resourceHash s₂.clock) :
        (s₂.put d call).Answers resourceHash d (bindingFromRow saved).expiresAt
          (call.answer (bindingFromRow saved)) :=
      Heading.answers ⟨(kept.sound.putCall timely).sound, still, formed.hashed, live, call,
        by simp [put], asked, rfl⟩
    refine ⟨fun d s₃ called => ?_, fun d asked row s₃ accepted same called => ?_⟩
    · simp only [step, bindingFromRow, formed.accessKeyID, formed.resourceKey] at called
      split at called
      · cases called
      · cases called
        have concerns : (Call.loading ⟨_, _⟩ _ (unixMilli s₂.clock)).Concerns resourceHash
            (bindingFromRow saved) := ⟨rfl, rfl⟩
        exact heading d concerns ⟨le_rfl, rfl⟩
    · obtain ⟨rowFormed, -, stored⟩ := claimRow_ok accepted
      simp only [step, accepted] at called
      split at called
      · cases called
      cases called
      have concerns : (Call.claiming row (unixMilli s₂.clock)).Concerns resourceHash
          (bindingFromRow saved) := by
        rw [Call.Concerns, stored]
        exact same
      have := heading d concerns ⟨le_rfl, rowFormed⟩
      rwa [Call.answer, stored] at this
  · intro d asked e absent refused
    simp [step, absent, refused, put]
  · intro d asked row absent accepted expired
    have free : ∀ old, s.table[row.key]? = some old → old.expiresAtMS ≤ unixMilli s.clock := by
      intro old hold
      have := expired old hold
      simp only [bindingFromRow] at this
      unfold unixMilli
      omega
    obtain ⟨table, transaction, lookup⟩ := claimTransaction_free free
    let called := s.put d (.claiming row (unixMilli s.clock))
    have first : step resourceHash (.claim d asked) s = some called := by
      simp [step, absent, accepted, called]
    have second : step resourceHash (.commit d) called =
        some ({ called with table }.put d (.claimed (bindingFromRow row))) := by
      have pending : called.calls[d]? = some (.claiming row (unixMilli s.clock)) := by
        simp [called, put]
      have transaction : claimTransaction called.table row (unixMilli s.clock) = .ok (table, row) :=
        transaction
      simp only [step, pending, transaction]
    have reached := (step_keeps (step_keeps sound first).sound second).sound
    obtain ⟨formed, live, -⟩ := claimRow_ok accepted
    have heading : Heading resourceHash row d (.claimReturned (.ok (bindingFromRow row)))
        ({ called with table }.put d (.claimed (bindingFromRow row))) :=
      ⟨reached, by simp [put, lookup], formed.hashed, live, _, put_self .., trivial, rfl⟩
    obtain ⟨own, s', owns, hr, ends⟩ := heading.returns
    refine ⟨.commit d :: own, s', List.forall_mem_cons.mpr ⟨rfl, owns⟩, ?_, ends⟩
    exact Option.bind_eq_some_iff.mpr ⟨_, first, Option.bind_eq_some_iff.mpr ⟨_, second, hr⟩⟩
  · intro d accessKeyID key s₁ labels s₂ b called hr loaded
    have start : Asks accessKeyID key d s₁ := by
      simp only [step] at called
      split at called
      · cases called
      split at called <;> cases called
      · exact .inr ⟨none, put_self .., nofun⟩
      · exact .inl ⟨_, _, put_self .., rfl⟩
    obtain ⟨_, _, hd, -⟩ | ⟨result, hd, own⟩ := start.run (step_keeps sound called).sound hr
    · cases hd.symm.trans loaded
    · cases hd.symm.trans loaded
      exact own b rfl

def sampleBinding (credentialID : Nat) (expiresAt : Int) : Binding where
  accessKeyID := 1
  responseID := "native/file"
  groupID := 1
  credentialID := credentialID
  identityGeneration := 1
  expiresAt := expiresAt

/-- While credential 1 owns a resource until 5 ms, credential 2 claims it until 0 ms. -/
def lateClaim : List Action :=
  [.claim 0 (sampleBinding 1 (5 * 10 ^ 6)), .commit 0, .tick (10 ^ 6), .claim 1 (sampleBinding 2 0)]

/-- A claim of another owner whose own deadline has passed is refused, but not as a conflict. -/
theorem late_claim_expired :
    ((run (step id) lateClaim { clock := 0 }).bind fun s =>
      s.calls[(1 : Nat)]?.map fun call => match call with
        | .claimReturned (.error e) => e.text
        | _ => "") = some "resource binding has expired" := by
  decide +kernel

/-- A millisecond after credential 1 has claimed a resource, somebody loads it and credential 2
claims it. -/
theorem first_owner_keeps_sample :
    ∃ s₂ : Store, s₂.clock < (5 * 10 ^ 6 : Int) ∧
      (∃ s₃, step id (.load 1 1 "native/file") s₂ = some s₃ ∧
        s₃.Answers id 1 (5 * 10 ^ 6) (.loadReturned (some (sampleBinding 1 (5 * 10 ^ 6))))) ∧
      ∃ s₃, step id (.claim 2 (sampleBinding 2 (9 * 10 ^ 6))) s₂ = some s₃ ∧
        s₃.Answers id 2 (5 * 10 ^ 6) (.claimReturned (.error .ownershipConflict)) := by
  let b := sampleBinding 1 (5 * 10 ^ 6)
  let b' := sampleBinding 2 (9 * 10 ^ 6)
  have possible : ((run (step id) [.claim 0 b] { clock := 0 }).bind fun s =>
      (step id (.commit 0) s).bind fun s₁ =>
      (run (step id) [.tick (10 ^ 6)] s₁).bind fun s₂ =>
      if s₁.calls[(0 : Nat)]? = some (.claimed b) ∧ s₂.clock = 10 ^ 6 ∧
        (step id (.load 1 1 "native/file") s₂).isSome ∧ (step id (.claim 2 b') s₂).isSome
      then some () else none) = some () := by decide +kernel
  obtain ⟨s, hs, possible⟩ := Option.bind_eq_some_iff.mp possible
  obtain ⟨s₁, hs₁, possible⟩ := Option.bind_eq_some_iff.mp possible
  obtain ⟨s₂, hs₂, possible⟩ := Option.bind_eq_some_iff.mp possible
  have facts : s₁.calls[(0 : Nat)]? = some (.claimed b) ∧ s₂.clock = 10 ^ 6 ∧
      (step id (.load 1 1 "native/file") s₂).isSome ∧ (step id (.claim 2 b') s₂).isSome := by
    by_contra no
    rw [if_neg no] at possible
    cases possible
  obtain ⟨succeeded, clock, loads, claims⟩ := facts
  have reached : Store.Reachable id 0 s := Reachable.init.run hs
  have before : (s₂.clock : Int) < 5 * 10 ^ 6 := by rw [clock]; decide
  obtain ⟨s₃, load⟩ := Option.isSome_iff_exists.mp loads
  obtain ⟨s₄, claim⟩ := Option.isSome_iff_exists.mp claims
  have accepted : ∃ row, claimRow id b' (unixMilli s₂.clock) = .ok row := by
    rw [clock]
    exact ⟨⟨⟨1, "native/file"⟩, "native/file", 1, 2, 1, 9⟩, by decide +kernel⟩
  obtain ⟨row, accepted⟩ := accepted
  obtain ⟨loaded, claimed⟩ :=
    (first_owner_keeps id reached).1 0 s₁ b hs₁ succeeded _ s₂ hs₂ before
  exact ⟨s₂, before, ⟨s₃, load, loaded 1 s₃ load⟩, s₄, claim,
    claimed 2 b' row s₄ accepted rfl claim⟩

end ApiLoad.ResourceBinding
