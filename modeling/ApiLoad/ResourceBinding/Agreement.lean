import ApiLoad.ResourceBinding.Ownership

/-!
# The callers of the store agree

At no time do two callers hold bindings of one resource that have not expired and name different
owners, in whatever order they read the clock, run their transactions and purge the table.
-/
namespace ApiLoad.ResourceBinding
open Std Foundation Transition OrderedMap

/-- The binding that a call has obtained. -/
def Call.binding : Call → Option Binding
  | .claimed b | .purging b _ | .deleting b _ | .claimReturned (.ok b) => some b
  | .loadReturned result => result
  | _ => none

namespace Store
variable {resourceHash : String → String} {s s' : Store} {b b' : Binding} {c d : Nat}

/-- The table has the row of a binding. -/
def Backs (resourceHash : String → String) (s : Store) (b : Binding) : Prop :=
  ∃ row, s.table[row.key]? = some row ∧ bindingFromRow row = b ∧
    row.key.resourceHash = resourceHash row.resourceKey

theorem put_binding (hc : (s.put d new).calls[c]? = some call) (hb : call.binding = some b) :
    d = c ∧ new.binding = some b ∨ ∃ old, s.calls[c]? = some old ∧ old.binding = some b := by
  rw [put, lookup_insert] at hc
  split at hc
  · cases hc
    exact .inl ⟨‹_›, hb⟩
  · exact .inr ⟨call, hc, hb⟩

/-- A call has its binding from before, or the table has the row. -/
theorem step_binding (h : s.Sound resourceHash) (hs : step resourceHash action s = some s')
    (hc : s'.calls[c]? = some call) (hb : call.binding = some b) :
    (∃ old, s.calls[c]? = some old ∧ old.binding = some b) ∨ s'.Backs resourceHash b := by
  cases action with
  | tick elapsed =>
    cases hs
    exact .inl ⟨call, hc, hb⟩
  | commit d =>
    have hs' := hs
    simp only [step] at hs
    split at hs
    swap
    · cases hs
    split at hs <;> cases hs <;> obtain ⟨rfl, hnew⟩ | old := put_binding hc hb
    · cases hnew
    · exact .inl old
    · cases hnew
      obtain ⟨row, found, same, formed⟩ := wellFormed_of_committed h hs' (put_self ..)
      exact .inr ⟨row, found, same, formed.hashed⟩
    · exact .inl old
  | query d =>
    simp only [step] at hs
    split at hs <;> cases hs
    rename_i key resourceKey now hd
    obtain ⟨rfl, hnew⟩ | old := put_binding hc hb
    swap
    · exact .inl old
    simp only [Call.binding, loadRow] at hnew
    split at hnew
    swap
    · cases hnew
    rename_i row hrow
    split at hnew <;> cases hnew
    have filed := h.filed _ _ hrow
    refine .inr ⟨row, filed ▸ hrow, rfl, ?_⟩
    rw [filed, (h.timely _ _ hd).2, (‹_ ∧ _› : _ ∧ row.resourceKey = resourceKey).2]
  | _ =>
    simp only [step] at hs
    repeat' split at hs
    all_goals cases hs
    all_goals
      obtain ⟨rfl, hnew⟩ | old := put_binding hc hb
      · cases hnew <;> exact .inl ⟨_, ‹_›, rfl⟩
      · exact .inl old

/-- The table has the rows of all bindings that have not expired. -/
theorem backs_of_reachable (h : Reachable resourceHash start s) (hc : s.calls[c]? = some call)
    (hb : call.binding = some b) (live : s.clock < b.expiresAt) : s.Backs resourceHash b := by
  induction h generalizing c call with
  | init => simp at hc
  | step h hs ih =>
    have sound := sound_of_reachable h
    obtain ⟨old, hold, ho⟩ | backs := step_binding sound hs hc hb
    swap
    · exact backs
    have kept := step_keeps sound hs
    have earlier := kept.clock
    obtain ⟨row, found, rfl, hashed⟩ := ih hold ho (by omega)
    exact ⟨row, kept.active _ _ found (unixMilli_lt live), rfl, hashed⟩

end Store

/-- Two callers that hold bindings of one resource hold the same one, as long as both bindings have
not expired. -/
theorem callers_agree (resourceHash : String → String) {start : Nat} {s : Store}
    (h : Store.Reachable resourceHash start s) {c d : Nat} {call call' : Call} {b b' : Binding}
    (hc : s.calls[c]? = some call) (hb : call.binding = some b)
    (hd : s.calls[d]? = some call') (hb' : call'.binding = some b')
    (live : s.clock < b.expiresAt ∧ s.clock < b'.expiresAt) (same : resource b = resource b') :
    b = b' := by
  obtain ⟨row, found, rfl, hashed⟩ := Store.backs_of_reachable h hc hb live.1
  obtain ⟨row', found', rfl, hashed'⟩ := Store.backs_of_reachable h hd hb' live.2
  simp only [resource, bindingFromRow, Prod.mk.injEq] at same
  have key : row.key = row'.key := RowKey.ext same.1 (by rw [hashed, hashed', same.2])
  rw [key, found'] at found
  cases found
  rfl

/-- A claim and a load that find the same binding. -/
theorem callers_agree_sample : ∃ (s : Store) (b : Binding),
    s.calls[(1 : Nat)]? = some (.loadReturned (some b)) ∧ sampleBinding 1 (5 * 10 ^ 6) = b := by
  have found : (run (Store.step id) [.claim 0 (sampleBinding 1 (5 * 10 ^ 6)), .commit 0,
      .load 1 1 "native/file", .query 1] { clock := 0 }).any (fun s => s.clock = 0 ∧
        s.calls[(0 : Nat)]? = some (.claimed (sampleBinding 1 (5 * 10 ^ 6))) ∧
        s.calls[(1 : Nat)]? = some (.loadReturned (some (sampleBinding 1 (5 * 10 ^ 6))))) =
          true := by
    decide +kernel
  obtain ⟨s, hs, facts⟩ := Option.any_eq_true _ _ |>.mp found
  obtain ⟨clock, claimed, loaded⟩ := of_decide_eq_true facts
  exact ⟨s, _, loaded, callers_agree id (Reachable.init.run hs) claimed rfl loaded rfl
    (by simp [clock, sampleBinding]) rfl⟩

end ApiLoad.ResourceBinding
