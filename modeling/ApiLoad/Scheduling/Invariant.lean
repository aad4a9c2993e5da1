import ApiLoad.Scheduling.Checkpoint

/-!
# The invariant of the scheduling ledger

What holds of every ledger that the operations can reach. No member is ahead of the watermark or
of the sequence, so admission baselines are sound and a checkpoint of the ledger passes the checks
of `RestoreCheckpoint`; a member that the configuration or the registry keeps out is pending, so
it cannot be served without a new admission.
-/
namespace ApiLoad.Scheduling
open Std (ExtTreeMap)
open Foundation State OrderedMap SchedulingProgress SchedulingLedger Option

namespace SchedulingLedger

/-- What the invariant says about the member under an ID. -/
structure MemberSound (d : SchedulingLedger) (id : Nat) (m : SchedulingMember) : Prop where
  id_eq : m.id = id
  id_ne_zero : id ≠ 0
  progress_le : m.progress ≤ d.watermark
  lastSelected_le : m.lastSelected ≤ d.sequence
  blocked : d.groupBlocked m.groupID = true → m.pending = true
  suspended : m.suspended = true → m.pending = true

structure Sound (d : SchedulingLedger) : Prop where
  member : ∀ {id : Nat} {m : SchedulingMember}, d.members[id]? = some m → d.MemberSound id m
  distinct : ∀ {i j : Nat} {a b : SchedulingMember}, d.members[i]? = some a →
    d.members[j]? = some b → a.lastSelected = b.lastSelected → a.lastSelected ≠ 0 → i = j
  streak : (d.lastMember = 0 ∧ d.consecutive = 0) ∨
    (d.lastMember ≠ 0 ∧ d.consecutive ≠ 0 ∧ (d.members[d.lastMember]?).isSome)
  consecutive_le : d.consecutive ≤ MaxConsecutive
  started_iff : d.started = true ↔ d.sequence ≠ 0
  unstarted : d.started = false → d.watermark = default

theorem sound_new : newSchedulingState.Sound where
  member h := by simp [newSchedulingState] at h
  distinct h := by simp [newSchedulingState] at h
  streak := .inl ⟨rfl, rfl⟩
  consecutive_le := Nat.zero_le _
  started_iff := by simp [newSchedulingState]
  unstarted _ := rfl

/-! ## Selections -/

variable {d : SchedulingLedger}

variable {id : Nat} {m : SchedulingMember}

theorem Sound.baseline_le (h : d.Sound) (eligible : List WeightedCredential) :
    d.baseline eligible ≤ d.watermark := by
  unfold baseline
  generalize hstart : (d.watermark, false) = start
  have hs : start.1 ≤ d.watermark := by rw [← hstart]
  clear hstart
  induction eligible generalizing start with
  | nil => exact hs
  | cons c rest ih =>
    apply ih
    dsimp only
    split
    · next m hm =>
      split
      · exact (h.member hm).progress_le
      · exact hs
    · exact hs

theorem Sound.admitted (h : d.Sound) (snapshot : Option ConfigSnapshot)
    (eligible : List WeightedCredential) (hm : d.members[id]? = some m) :
    d.MemberSound id (d.admitted snapshot eligible id m) := by
  have old := h.member hm
  unfold SchedulingLedger.admitted
  split
  swap
  · exact old
  next ha =>
  refine { old with
    progress_le := ?_
    blocked := fun hb => ?_
    suspended := fun hs => ?_ }
  · rw [admitAt_progress]
    exact max_le old.progress_le (h.baseline_le eligible)
  · have open_group := ha.2
    simp_all [admits, groupBlocked, SchedulingMember.admitAt]
  · cases hs

theorem admitted_lastSelected (snapshot : Option ConfigSnapshot)
    (eligible : List WeightedCredential) (id : Nat) (m : SchedulingMember) :
    (d.admitted snapshot eligible id m).lastSelected = m.lastSelected := by
  unfold admitted SchedulingMember.admitAt
  split <;> rfl

theorem Sound.admitEligible (h : d.Sound) (snapshot : Option ConfigSnapshot)
    (eligible : List WeightedCredential) : (d.admitEligible snapshot eligible).Sound := by
  obtain ⟨members, hd, hm⟩ := d.admitEligible_eq snapshot eligible
  rw [hd]
  have origin {id : Nat} {m' : SchedulingMember} (hm' : members[id]? = some m') :
      ∃ m, d.members[id]? = some m ∧ m' = d.admitted snapshot eligible id m := by
    rw [hm, map_eq_some_iff] at hm'
    obtain ⟨m, hm, he⟩ := hm'
    exact ⟨m, hm, he.symm⟩
  refine { h with member := ?_, distinct := ?_, streak := ?_ }
  · intro id m' hm'
    obtain ⟨m, hm, rfl⟩ := origin hm'
    exact { h.admitted snapshot eligible hm with }
  · intro i j a b ha hb
    obtain ⟨a', ha', rfl⟩ := origin ha
    obtain ⟨b', hb', rfl⟩ := origin hb
    simp only [admitted_lastSelected]
    exact h.distinct ha' hb'
  · simpa only [hm, isSome_map] using h.streak

theorem Sound.charge (h : d.Sound) {member : SchedulingMember} (hm : d.members[id]? = some member)
    (next : SchedulingProgress) : (d.charge id member next).Sound := by
  have old := h.member hm
  have bound (m : SchedulingMember) (h : m.progress ≤ d.watermark) :
      m.progress ≤ (d.charge id member next).watermark := by
    simp only [SchedulingLedger.charge, compare_gt]
    split
    · next hn => exact h.trans hn.le
    · exact h
  refine { member := ?_, distinct := ?_, streak := ?_, consecutive_le := ?_, started_iff := ?_,
           unstarted := ?_ }
  · intro i m hi
    simp only [SchedulingLedger.charge, lookup_insert] at hi
    split at hi
    · next he =>
      subst he
      cases hi
      refine { old with progress_le := ?_, lastSelected_le := Nat.le_refl _ }
      simp only [SchedulingLedger.charge, compare_gt]
      split
      · exact le_rfl
      · next hn => exact not_lt.mp hn
    · have := h.member hi
      exact { this with
        progress_le := bound m this.progress_le
        lastSelected_le := this.lastSelected_le.trans (Nat.le_succ _) }
  · intro i j a b ha hb
    simp only [SchedulingLedger.charge, lookup_insert] at ha hb
    -- The new number is above every other.
    split at ha <;> split at hb
    · next hi hj => exact fun _ _ => hi.symm.trans hj
    · cases ha
      have := (h.member hb).lastSelected_le
      intro he
      simp only at he
      omega
    · cases hb
      have := (h.member ha).lastSelected_le
      intro he
      simp only at he
      omega
    · exact h.distinct ha hb
  · right
    have := h.streak
    simp only [SchedulingLedger.charge, lookup_insert, old.id_eq, if_true]
    refine ⟨old.id_ne_zero, ?_, rfl⟩
    have := old.id_ne_zero
    split_ifs <;> grind
  · have := h.consecutive_le
    simp only [SchedulingLedger.charge]
    split_ifs
    · decide
    · omega
    · exact this
  · simp [SchedulingLedger.charge]
  · intro hs
    cases hs

theorem Sound.select (h : d.Sound) (snapshot : Option ConfigSnapshot)
    (candidates : List WeightedCredential) (preferred : Nat) :
    (d.selectCredential snapshot candidates preferred).1.Sound := by
  have hs := d.selectCredential_selects snapshot candidates preferred
  generalize d.selectCredential snapshot candidates preferred = r at hs ⊢
  obtain ⟨d', result⟩ := r
  cases hs with
  | idle => exact h
  | stopped => exact h.admitEligible ..
  | charged mem room found advances => exact (h.admitEligible ..).charge found _

/-! ## Synchronisation with the registry -/

theorem Sound.forget (h : d.Sound) (id : Nat) : (d.forget id).Sound := by
  unfold SchedulingLedger.forget
  split
  swap
  · exact h
  exact {
    member := fun hm => { h.member hm with }
    distinct := h.distinct
    streak := .inl ⟨rfl, rfl⟩
    consecutive_le := Nat.zero_le _
    started_iff := h.started_iff
    unstarted := h.unstarted }

/-- Replacing the member under an ID by a sound one that keeps its number, or has none. -/
theorem Sound.insert (h : d.Sound) (hm : d.MemberSound id m) (number : m.lastSelected = 0 ∨
      ∃ old, d.members[id]? = some old ∧ m.lastSelected = old.lastSelected) :
    (d.putMember id m).Sound := by
  unfold putMember
  refine { h with member := ?_, distinct := ?_, streak := ?_ }
  · intro i m' hi
    simp only [lookup_insert] at hi
    split at hi
    · next he =>
      subst he
      cases hi
      exact { hm with }
    · exact { h.member hi with }
  · intro i j a b ha hb
    simp only [lookup_insert] at ha hb
    split at ha <;> split at hb
    · next hi hj => exact fun _ _ => hi.symm.trans hj
    · next hi _ =>
      cases ha
      intro he hne
      obtain hz | ⟨old, hold, hnum⟩ := number
      · exact absurd hz hne
      · exact hi.symm.trans (h.distinct hold hb (hnum.symm.trans he) (hnum ▸ hne))
    · next _ hj =>
      cases hb
      intro he hne
      obtain hz | ⟨old, hold, hnum⟩ := number
      · exact absurd (he.trans hz) hne
      · exact (h.distinct ha hold (he.trans hnum) hne).trans hj
    · exact h.distinct ha hb
  · rcases h.streak with hz | ⟨h1, h2, h3⟩
    · exact .inl hz
    refine .inr ⟨h1, h2, ?_⟩
    simp only [lookup_insert]
    split
    · rfl
    · exact h3

theorem forget_members (d : SchedulingLedger) (id : Nat) : (d.forget id).members = d.members := by
  unfold forget
  split <;> rfl

/-- Either the view has the identity of the member, or a new member takes its place. -/
theorem memberFor_cases (d : SchedulingLedger) (view : CredentialRuntimeView) :
    (∃ m, d.members[view.id]? = some m ∧ m.groupID = view.groupID ∧
      m.identityGeneration = view.identityGeneration ∧ d.memberFor view = (d, m)) ∨
    (d.memberFor view = (d.forget view.id, d.newMember view) ∧
      ∀ m, d.members[view.id]? = some m →
        ¬ (m.groupID = view.groupID ∧ m.identityGeneration = view.identityGeneration)) := by
  unfold memberFor
  split
  · next hm => exact .inr ⟨rfl, by simp [hm]⟩
  next m hm =>
  split
  · next hne =>
    refine .inr ⟨rfl, fun m' hm' => ?_⟩
    rw [hm] at hm'
    cases hm'
    rcases hne with hg | hi
    · exact fun h => hg h.1
    · exact fun h => hi h.2
  · next heq =>
    rw [not_or, not_not, not_not] at heq
    exact .inl ⟨m, hm, heq.1, heq.2, rfl⟩

theorem MemberSound.observe (h : d.MemberSound id m) (view : CredentialRuntimeView) (now : Time) :
    d.MemberSound id (m.observe view now) where
  id_eq := h.id_eq
  id_ne_zero := h.id_ne_zero
  progress_le := h.progress_le
  lastSelected_le := h.lastSelected_le
  blocked hb := by simp [SchedulingMember.observe, h.blocked hb]
  suspended hs := by
    have : view.suspendedAt now = true := hs
    simp [SchedulingMember.observe, this]

variable {view : CredentialRuntimeView} {saved : SchedulingLedger} {m' : SchedulingMember}

theorem Sound.syncCredential (h : d.Sound) (hid : view.id ≠ 0) (now : Time) :
    (d.syncCredential view now).Sound := by
  unfold SchedulingLedger.syncCredential
  obtain ⟨m, hm, -, -, he⟩ | ⟨he, -⟩ := d.memberFor_cases view
  · rw [he]
    exact h.insert ((h.member hm).observe view now) (.inr ⟨m, hm, rfl⟩)
  rw [he]
  have fresh : (d.forget view.id).MemberSound view.id (d.newMember view) := {
    id_eq := rfl
    id_ne_zero := hid
    progress_le := default_le _
    lastSelected_le := Nat.zero_le _
    blocked := fun hb => by
      have same : (d.forget view.id).groupBlocked view.groupID = d.groupBlocked view.groupID := by
        unfold SchedulingLedger.forget
        split <;> rfl
      simp only [newMember] at hb ⊢
      rw [same] at hb
      rw [hb, Bool.or_true]
    suspended := fun hs => by cases hs }
  exact (h.forget view.id).insert (fresh.observe view now) (.inl rfl)

theorem Sound.remove (h : d.Sound) (id : Nat) : (d.remove id).Sound := by
  unfold SchedulingLedger.remove SchedulingLedger.forget
  have member {i : Nat} {m : SchedulingMember} (hi : (d.members.erase id)[i]? = some m) :
      d.members[i]? = some m := by
    rw [lookup_erase] at hi
    split at hi
    · cases hi
    · exact hi
  split
  · exact {
      member := fun hm => { h.member (member hm) with }
      distinct := fun ha hb => h.distinct (member ha) (member hb)
      streak := .inl ⟨rfl, rfl⟩
      consecutive_le := Nat.zero_le _
      started_iff := h.started_iff
      unstarted := h.unstarted }
  · next hlast =>
    refine { h with
      member := fun hm => { h.member (member hm) with }
      distinct := fun ha hb => h.distinct (member ha) (member hb)
      streak := ?_ }
    simpa [lookup_erase, Ne.symm hlast] using h.streak

theorem Sound.syncCredentials (h : d.Sound) (groupID : Nat) (hid : ∀ v ∈ views, v.1.id ≠ 0) :
    (d.syncCredentials groupID views).Sound := by
  have synced : (views.foldl (fun d v => d.syncCredential v.1 v.2) d).Sound := by
    induction views generalizing d with
    | nil => exact h
    | cons v views ih =>
      exact ih (h.syncCredential (hid v (by simp)) v.2) fun v hv => hid v (by simp [hv])
  unfold SchedulingLedger.syncCredentials
  generalize views.foldl (fun d v => d.syncCredential v.1 v.2) d = d' at synced ⊢
  dsimp only
  -- The removals run over the members listed beforehand.
  generalize d'.members.toList = listed
  induction listed generalizing d' with
  | nil => exact synced
  | cons e listed ih =>
    apply ih
    unfold removeUnseen
    split_ifs
    · exact synced
    · exact synced
    · exact synced.remove e.1

theorem Sound.syncGroups (h : d.Sound) (snapshot : Option ConfigSnapshot) :
    (d.syncGroups snapshot).Sound := by
  unfold SchedulingLedger.syncGroups
  split
  · exact h
  split
  · exact h
  unfold syncModelCursors
  have origin {id : Nat} {m' : SchedulingMember}
      {f : SchedulingMember → SchedulingMember}
      (hm' : (d.members.map fun _ => f)[id]? = some m') :
      ∃ m, d.members[id]? = some m ∧ f m = m' := by
    rw [ExtTreeMap.getElem?_map, map_eq_some_iff] at hm'
    exact hm'
  refine { h with member := ?_, distinct := ?_, streak := ?_ }
  · intro id m' hm'
    obtain ⟨m, hm, rfl⟩ := origin hm'
    have old := h.member hm
    split_ifs
    · exact { old with blocked := fun _ => rfl, suspended := fun _ => rfl }
    next hopen =>
    refine { old with blocked := fun hb => ?_ }
    simp only [groupBlocked, groupEnabled, Bool.true_and, Bool.not_eq_true'] at hb
    exact absurd (.inr hb) hopen
  · intro i j a b ha hb
    obtain ⟨a', ha', rfl⟩ := origin ha
    obtain ⟨b', hb', rfl⟩ := origin hb
    have keeps (m : SchedulingMember) (p : Prop) [Decidable p] :
        (if p then { m with pending := true } else m).lastSelected = m.lastSelected := by
      split <;> rfl
    simp only [keeps]
    exact h.distinct ha' hb'
  · simpa only [ExtTreeMap.getElem?_map, isSome_map] using h.streak

theorem Sound.selectModel (h : d.Sound) (groupID : Nat) (externalModel : String)
    (models : List String) : (d.selectModel groupID externalModel models).1.Sound := by
  unfold SchedulingLedger.selectModel
  split
  · exact h
  dsimp only
  split
  · exact h
  · exact { h with member := fun hm => { h.member hm with } }

/-! ## Restoring a checkpoint -/

theorem restorable_iff :
    restorable checkpoint m s = true ↔ m.groupID = s.groupID ∧
      m.identityGeneration = s.identityGeneration ∧ s.lastSelected ≤ checkpoint.sequence ∧
      s.progress ≤ checkpoint.watermark := by
  simp [restorable, and_assoc]

/-- Before the loop over the saved members the ledger of a restart is all pending. -/
theorem beginRestore_member (checkpoint : SchedulingCheckpoint)
    (hm : (d.beginRestore checkpoint).members[id]? = some m) :
    ∃ old, d.members[id]? = some old ∧ m = { old with pending := true } := by
  simp only [beginRestore, ExtTreeMap.getElem?_map, map_eq_some_iff] at hm
  obtain ⟨old, hold, he⟩ := hm
  exact ⟨old, hold, he.symm⟩

/-- A restored member is either an unserved one or has the history of the saved member with its
ID. -/
theorem restored_cases (hs : saved.Sound)
    (h : d.RestoredFrom saved.captureCheckpoint saved.captureCheckpoint.members r)
    (hm : r.ledger.members[id]? = some m) :
    (∃ old, d.members[id]? = some old ∧ m = old ∧
      ∀ s, saved.members[id]? = some s → restorable saved.captureCheckpoint old s.save = false) ∨
    ∃ old s, d.members[id]? = some old ∧ saved.members[id]? = some s ∧
      restorable saved.captureCheckpoint old s.save = true ∧ m = d.restoreFrom s.save old := by
  rw [h.members, map_eq_some_iff] at hm
  obtain ⟨old, hold, rfl⟩ := hm
  unfold restoredMember
  split
  · next s hfind =>
    have hmem := List.mem_of_find?_eq_some hfind
    have hfit := List.find?_some hfind
    simp only [Bool.and_eq_true, decide_eq_true_eq] at hfit
    obtain ⟨i, s, hsaved, rfl⟩ := mem_captureCheckpoint.mp hmem
    have hid : i = id := (hs.member hsaved).id_eq.symm.trans hfit.1
    subst hid
    exact .inr ⟨old, s, hold, hsaved, hfit.2, rfl⟩
  · next hnone =>
    refine .inl ⟨old, hold, rfl, fun s hsaved => ?_⟩
    have := List.find?_eq_none.mp hnone s.save (mem_captureCheckpoint.mpr ⟨id, s, hsaved, rfl⟩)
    have hid : s.save.id = id := (hs.member hsaved).id_eq
    simpa [hid] using this

theorem Sound.restore (h : d.Sound) (hd : d.started = false) (hs : saved.Sound) :
    (d.restoreCheckpoint saved.captureCheckpoint).1.Sound := by
  unfold restoreCheckpoint
  split
  · exact h
  dsimp only
  have hr := restoredFrom_fold (d.beginRestore saved.captureCheckpoint)
    saved.captureCheckpoint saved.captureCheckpoint.members
  generalize List.foldl _ _ _ = r at hr ⊢
  have hseq : d.sequence = 0 := by
    by_contra hne
    rw [h.started_iff.mpr hne] at hd
    cases hd
  have fields : r.ledger.watermark = saved.watermark ∧ r.ledger.sequence = saved.sequence ∧
      r.ledger.started = decide (saved.sequence ≠ 0) := by
    rw [hr.frame]
    exact ⟨rfl, rfl, rfl⟩
  have unserved {id : Nat} {m : SchedulingMember}
      (hm : (d.beginRestore saved.captureCheckpoint).members[id]? = some m) :
      m.id = id ∧ id ≠ 0 ∧ m.progress = default ∧ m.lastSelected = 0 ∧ m.pending = true := by
    obtain ⟨old, hold, rfl⟩ := beginRestore_member _ hm
    have hmember := h.member hold
    have hle := hmember.progress_le
    rw [h.unstarted hd] at hle
    exact ⟨hmember.id_eq, hmember.id_ne_zero, le_antisymm hle (default_le _),
      by have := hmember.lastSelected_le; dsimp only; omega, rfl⟩
  have hlast : (r.ledger.lastMember = 0 ∧ r.ledger.consecutive = 0) ∨
      (r.ledger.lastMember = saved.lastMember ∧ r.ledger.consecutive = saved.consecutive ∧
        saved.lastMember ∈ r.seen ∧ saved.consecutive ≤ MaxConsecutive) := by
    have := hr.streak
    split at this
    · next hc =>
      simp only [Prod.mk.injEq] at this
      exact .inr ⟨this.1, this.2, hc.1, hc.2⟩
    · simp only [Prod.mk.injEq] at this
      exact .inl this
  refine {
    member := fun {id m} hm => ?_
    distinct := fun {i j a b} ha hb => ?_
    streak := ?_
    consecutive_le := ?_
    started_iff := by simp [fields]
    unstarted := ?_ }
  · have blocked (g : Nat) : r.ledger.groupBlocked g =
        (d.beginRestore saved.captureCheckpoint).groupBlocked g := by
      rw [hr.frame]
      rfl
    obtain ⟨old, hold, rfl, -⟩ | ⟨old, s, hold, hsaved, hfit, rfl⟩ := restored_cases hs hr hm
    · obtain ⟨h1, h2, h3, h4, h5⟩ := unserved hold
      exact ⟨h1, h2, h3 ▸ default_le _, h4 ▸ Nat.zero_le _, fun _ => h5,
        fun _ => h5⟩
    obtain ⟨h1, h2, -⟩ := unserved hold
    obtain ⟨-, -, hle, hwm⟩ := restorable_iff.mp hfit
    refine ⟨h1, h2, fields.1 ▸ hwm, fields.2.1 ▸ hle, fun hb => ?_, fun hb => ?_⟩
    · rw [blocked] at hb
      simp only [restoreFrom] at hb ⊢
      rw [hb, Bool.or_true]
    · simp only [restoreFrom] at hb ⊢
      rw [hb, Bool.or_true, Bool.true_or]
  · obtain ⟨olda, hola, rfl, -⟩ | ⟨olda, sa, hola, hsa, -, rfl⟩ := restored_cases hs hr ha
    · intro _ hne
      exact absurd (unserved hola).2.2.2.1 hne
    obtain ⟨oldb, holb, rfl, -⟩ | ⟨oldb, sb, holb, hsb, -, rfl⟩ := restored_cases hs hr hb
    · intro he hne
      exact absurd (he.trans (unserved holb).2.2.2.1) hne
    · have := hs.distinct hsa hsb
      exact this
  · obtain hz | ⟨hl, hc, hseen, -⟩ := hlast
    · exact .inl hz
    obtain ⟨m, hm, -⟩ := (hr.seen _).mp hseen
    have hne := (unserved hm).2.1
    refine .inr ⟨hl ▸ hne, ?_, ?_⟩
    · obtain hz | hn := hs.streak
      · exact absurd hz.1 hne
      · exact hc ▸ hn.2.1
    · rw [hl, hr.members, hm]
      rfl
  · obtain hz | ⟨-, hc, -, hmax⟩ := hlast
    · omega
    · omega
  · intro hns
    rw [fields.2.2] at hns
    rw [fields.1]
    apply hs.unstarted
    by_contra hst
    exact absurd (hs.started_iff.mp (by simpa using hst)) (by simpa using hns)

/-! ## Operations -/

inductive Op where
  | select (snapshot : Option ConfigSnapshot) (candidates : List WeightedCredential)
      (preferred : Nat)
  | selectModel (groupID : Nat) (externalModel : String) (models : List String)
  | syncCredential (view : CredentialRuntimeView) (now : Time)
  | syncCredentials (groupID : Nat) (views : List (CredentialRuntimeView × Time))
  | remove (id : Nat)
  | syncGroups (snapshot : Option ConfigSnapshot)

namespace Op

def apply (d : SchedulingLedger) : Op → SchedulingLedger
  | .select snapshot candidates preferred => (d.selectCredential snapshot candidates preferred).1
  | .selectModel groupID externalModel models => (d.selectModel groupID externalModel models).1
  | .syncCredential view now => d.syncCredential view now
  | .syncCredentials groupID views => d.syncCredentials groupID views
  | .remove id => d.remove id
  | .syncGroups snapshot => d.syncGroups snapshot

def views : Op → List CredentialRuntimeView
  | .syncCredential view _ => [view]
  | .syncCredentials _ views => views.map (·.1)
  | _ => []

/-- The registry rejects a credential without an ID. -/
def Valid (op : Op) : Prop := ∀ view ∈ op.views, view.id ≠ 0

/-- The operation reports no other identity under the ID of a member. -/
def Keeps (op : Op) (m : SchedulingMember) : Prop :=
  ∀ view ∈ op.views, view.id = m.id →
    view.groupID = m.groupID ∧ view.identityGeneration = m.identityGeneration

end Op

theorem Sound.apply (h : d.Sound) {op : Op} (hv : op.Valid) : (op.apply d).Sound := by
  cases op with
  | select snapshot candidates preferred => exact h.select ..
  | selectModel groupID externalModel models => exact h.selectModel ..
  | syncCredential view now => exact h.syncCredential (hv view (by simp [Op.views])) now
  | syncCredentials groupID views =>
    refine h.syncCredentials groupID fun v hm => hv v.1 ?_
    simp only [Op.views, List.mem_map]
    exact ⟨v, hm, rfl⟩
  | remove id => exact h.remove id
  | syncGroups snapshot => exact h.syncGroups snapshot

/-- The ledgers that arise in a process, from a new one and by restoring checkpoints of such
ledgers before the first selection. -/
inductive Reachable : SchedulingLedger → Prop
  | new : Reachable newSchedulingState
  | step {d : SchedulingLedger} {op : Op} (h : Reachable d) (hv : op.Valid) :
      Reachable (op.apply d)
  | restore {d saved : SchedulingLedger} (h : Reachable d) (hd : d.started = false)
      (hs : Reachable saved) : Reachable (d.restoreCheckpoint saved.captureCheckpoint).1

theorem Reachable.sound (h : Reachable d) : d.Sound := by
  induction h with
  | new => exact sound_new
  | step _ hv ih => exact ih.apply hv
  | restore _ hd _ ih ihs => exact ih.restore hd ihs

/-! ## Progress of a member -/

theorem le_admitted (snapshot : Option ConfigSnapshot) (eligible : List WeightedCredential)
    (id : Nat) (m : SchedulingMember) :
    m.progress ≤ (d.admitted snapshot eligible id m).progress := by
  unfold admitted
  split
  · rw [admitAt_progress]
    exact le_max_left _ _
  · exact le_rfl

theorem le_advance {p : SchedulingProgress} (h : p.advance weight = (next, true)) : p ≤ next := by
  have hw : weight ≠ 0 := by
    rintro rfl
    cases h
  have hv := (advance_value (p := p) hw).2
  rw [h] at hv
  rw [le_iff, hv rfl]
  exact Nat.le_add_right _ _

theorem select_progress (snapshot : Option ConfigSnapshot) (candidates : List WeightedCredential)
    (preferred : Nat) (hm : d.members[id]? = some m)
    (hm' : (d.selectCredential snapshot candidates preferred).1.members[id]? = some m') :
    m.progress ≤ m'.progress := by
  have hs := d.selectCredential_selects snapshot candidates preferred
  generalize d.selectCredential snapshot candidates preferred = r at hs hm'
  obtain ⟨d', result⟩ := r
  dsimp only at hs hm'
  obtain ⟨members, hadmitted, hmembers⟩ := d.admitEligible_eq snapshot (d.eligible candidates)
  have admitted : (d.admitEligible snapshot (d.eligible candidates)).members[id]? =
      some (d.admitted snapshot (d.eligible candidates) id m) := by
    rw [hadmitted, hmembers, hm, map_some]
  cases hs with
  | idle =>
    rw [hm] at hm'
    cases hm'
    exact le_rfl
  | stopped =>
    rw [admitted] at hm'
    cases hm'
    exact le_admitted ..
  | charged mem room found advances =>
    simp only [charge, lookup_insert] at hm'
    split at hm'
    · next hid =>
      subst hid
      rw [admitted] at found
      cases found
      cases hm'
      exact (le_admitted ..).trans (le_advance advances)
    · rw [admitted] at hm'
      cases hm'
      exact le_admitted ..

/-- A view with the identity of a member leaves its history. -/
theorem syncCredential_history (now : Time) (hm : d.members[id]? = some m)
    (keeps : view.id = id → view.groupID = m.groupID ∧ view.identityGeneration =
      m.identityGeneration) :
    ∃ m', (d.syncCredential view now).members[id]? = some m' ∧ m'.groupID = m.groupID ∧
      m'.identityGeneration = m.identityGeneration ∧ m'.progress = m.progress := by
  unfold syncCredential putMember
  obtain ⟨old, hold, hg, hi, he⟩ | ⟨he, hne⟩ := d.memberFor_cases view
  · rw [he]
    simp only [lookup_insert]
    split
    · next hid =>
      subst hid
      rw [hm] at hold
      cases hold
      exact ⟨_, rfl, rfl, rfl, rfl⟩
    · exact ⟨m, hm, rfl, rfl, rfl⟩
  · rw [he]
    simp only [lookup_insert, forget_members]
    split
    · next hid =>
      subst hid
      obtain ⟨hg, hi⟩ := keeps rfl
      exact absurd ⟨hg.symm, hi.symm⟩ (hne m hm)
    · exact ⟨m, hm, rfl, rfl, rfl⟩

theorem remove_lookup {i : Nat} (hm : (d.remove id).members[i]? = some m) :
    d.members[i]? = some m := by
  unfold remove at hm
  rw [forget_members, lookup_erase] at hm
  split at hm
  · cases hm
  · exact hm

theorem removals_lookup {listed : List (Nat × SchedulingMember)}
    (hm : (listed.foldl (removeUnseen groupID seen) d).members[id]? = some m) :
    d.members[id]? = some m := by
  induction listed generalizing d with
  | nil => exact hm
  | cons e listed ih =>
    have := ih hm
    unfold removeUnseen at this
    split_ifs at this
    · exact this
    · exact this
    · exact remove_lookup this

theorem syncCredentials_progress (hm : d.members[id]? = some m)
    (hm' : (d.syncCredentials groupID views).members[id]? = some m')
    (keeps : ∀ v ∈ views, v.1.id = id → v.1.groupID = m.groupID ∧ v.1.identityGeneration =
      m.identityGeneration) : m'.progress = m.progress := by
  have synced : ∃ m', (views.foldl (fun d v => d.syncCredential v.1 v.2) d).members[id]? =
      some m' ∧ m'.progress = m.progress := by
    clear hm'
    induction views generalizing d m with
    | nil => exact ⟨m, hm, rfl⟩
    | cons v views ih =>
      obtain ⟨m₁, h₁, hg, hi, hp⟩ := syncCredential_history v.2 hm (keeps v (by simp))
      obtain ⟨m₂, h₂, hp'⟩ := ih h₁ fun v hv => by
        rw [hg, hi]
        exact keeps v (by simp [hv])
      exact ⟨m₂, h₂, hp'.trans hp⟩
  obtain ⟨m₁, h₁, hp⟩ := synced
  rw [removals_lookup hm'] at h₁
  cases h₁
  exact hp

/-- A publication of groups can only make a member wait. -/
theorem syncGroups_lookup (snapshot : Option ConfigSnapshot) (hm : d.members[id]? = some m) :
    ∃ m', (d.syncGroups snapshot).members[id]? = some m' ∧
      (m' = m ∨ m' = { m with pending := true }) := by
  unfold syncGroups
  split
  · exact ⟨m, hm, .inl rfl⟩
  split
  · exact ⟨m, hm, .inl rfl⟩
  simp only [syncModelCursors, ExtTreeMap.getElem?_map, hm, map_some]
  refine ⟨_, rfl, ?_⟩
  split
  · exact .inr rfl
  · exact .inl rfl

/-- No operation takes a member back while it keeps its identity. -/
theorem Sound.progress_mono (h : d.Sound) {op : Op} (hm : d.members[id]? = some m)
    (hm' : (op.apply d).members[id]? = some m') (keeps : op.Keeps m) :
    m.progress ≤ m'.progress := by
  have hid : m.id = id := (h.member hm).id_eq
  cases op with
  | select snapshot candidates preferred => exact select_progress _ _ _ hm hm'
  | selectModel groupID externalModel models =>
    have same : (d.selectModel groupID externalModel models).1.members = d.members := by
      unfold SchedulingLedger.selectModel
      split
      · rfl
      · dsimp only
        split <;> rfl
    rw [Op.apply, same, hm] at hm'
    cases hm'
    exact le_rfl
  | syncCredential view now =>
    obtain ⟨m₁, h₁, -, -, hp⟩ := syncCredential_history now hm fun hv =>
      keeps view (by simp [Op.views]) (hv.trans hid.symm)
    rw [Op.apply, h₁] at hm'
    cases hm'
    exact hp.ge
  | syncCredentials groupID views =>
    refine (syncCredentials_progress hm hm' fun v hv he => ?_).ge
    exact keeps v.1 (List.mem_map.mpr ⟨v, hv, rfl⟩) (he.trans hid.symm)
  | remove i =>
    rw [remove_lookup hm'] at hm
    cases hm
    exact le_rfl
  | syncGroups snapshot =>
    obtain ⟨m₁, h₁, he⟩ := syncGroups_lookup snapshot hm
    rw [Op.apply, h₁] at hm'
    cases hm'
    rcases he with rfl | rfl <;> exact le_rfl

/-! ## The invariant -/

/-- Every ledger that arises from a new one satisfies the invariant, and no operation but a
restore takes a member back while it keeps its group and identity generation. -/
theorem ledger_invariant {d : SchedulingLedger} (h : Reachable d) :
    (∀ (id : Nat) (m : SchedulingMember), d.members[id]? = some m →
      m.progress ≤ d.watermark ∧ m.lastSelected ≤ d.sequence ∧
      (d.groupsKnown = true → d.groupEnabled m.groupID = false → m.pending = true) ∧
      (m.suspended = true → m.pending = true)) ∧
    (∀ (i j : Nat) (a b : SchedulingMember), d.members[i]? = some a → d.members[j]? = some b →
      i ≠ j → a.lastSelected ≠ 0 → b.lastSelected ≠ 0 → a.lastSelected ≠ b.lastSelected) ∧
    (d.lastMember = 0 ∨ (d.members[d.lastMember]?).isSome) ∧
    (d.consecutive = 0 ↔ d.lastMember = 0) ∧
    d.consecutive ≤ 99 + (MaxWeight * MaxWeight).toNat ∧
    (d.started = true ↔ d.sequence ≠ 0) ∧
    ∀ (op : Op) (id : Nat) (m m' : SchedulingMember), d.members[id]? = some m →
      (op.apply d).members[id]? = some m' → op.Keeps m → m.progress ≤ m'.progress := by
  have hs := h.sound
  refine ⟨fun id m hm => ?_, fun i j a b ha hb hij hna _ he => ?_, ?_, ?_, hs.consecutive_le,
    hs.started_iff, fun op id m m' => hs.progress_mono⟩
  · have member := hs.member hm
    refine ⟨member.progress_le, member.lastSelected_le, fun hk he => member.blocked ?_,
      member.suspended⟩
    rw [groupBlocked, hk, he]
    rfl
  · exact hij (hs.distinct ha hb he hna)
  · rcases hs.streak with hz | hn
    · exact .inl hz.1
    · exact .inr hn.2.2
  · rcases hs.streak with hz | hn
    · exact ⟨fun _ => hz.1, fun _ => hz.2⟩
    · exact ⟨fun h => absurd h hn.2.1, fun h => absurd h hn.1⟩

def sampleViews : List (CredentialRuntimeView × Time) :=
  [({ id := 1, groupID := 5, identityGeneration := 1 }, 7),
    ({ id := 2, groupID := 5, identityGeneration := 1 }, 7)]

def samplePool : List WeightedCredential :=
  [⟨{ id := 1, groupID := 5, identityGeneration := 1 }, 3⟩,
    ⟨{ id := 2, groupID := 5, identityGeneration := 1 }, 1⟩]

def sampleFresh : SchedulingLedger := Op.apply newSchedulingState (.syncCredentials 0 sampleViews)

def sampleServed : SchedulingLedger := Op.apply sampleFresh (.select none samplePool 0)

theorem sampleFresh_reachable : Reachable sampleFresh := by
  refine .step .new fun view hv => ?_
  simp only [Op.views, sampleViews, List.map_cons, List.map_nil, List.mem_cons,
    List.not_mem_nil, or_false] at hv
  rcases hv with rfl | rfl <;> decide

theorem sampleServed_reachable : Reachable sampleServed :=
  .step sampleFresh_reachable (by simp [Op.Valid, Op.views])

/-- A ledger restored from a checkpoint satisfies the invariant: its streak is that of the saved
member. -/
theorem ledger_invariant_restored :
    let d := (sampleFresh.restoreCheckpoint sampleServed.captureCheckpoint).1
    (d.lastMember = 1 ∧ d.sequence = 1) ∧ (d.consecutive = 0 ↔ d.lastMember = 0) ∧
      (d.started = true ↔ d.sequence ≠ 0) := by
  intro d
  have h := ledger_invariant (.restore sampleFresh_reachable (by decide +kernel)
    sampleServed_reachable : Reachable d)
  exact ⟨by decide +kernel, h.2.2.2.1, h.2.2.2.2.2.1⟩

end SchedulingLedger
end ApiLoad.Scheduling
