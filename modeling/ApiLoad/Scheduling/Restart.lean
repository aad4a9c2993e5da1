import ApiLoad.Scheduling.Tracking

/-!
# Restarting the scheduler

A checkpoint drops suspensions, cooldowns, groups and revisions. This module shows that nothing
dropped can influence a later choice: a ledger that is brought up from the same configuration and
the same views of the credentials, and then restores the checkpoint, answers every sequence of
selections as the original does.
-/
namespace ApiLoad.Scheduling
open Std (ExtTreeMap)
open Foundation State SchedulingProgress SchedulingMember Option

namespace SchedulingLedger

/-! ## Ledgers that answer alike -/

/-- The ledgers agree on everything that a selection of a credential reads. -/
structure Agree (a b : SchedulingLedger) : Prop where
  members : ∀ id : Nat, a.members[id]?.map save =
    b.members[id]?.map save
  watermark : a.watermark = b.watermark
  sequence : a.sequence = b.sequence
  lastMember : a.lastMember = b.lastMember
  consecutive : a.consecutive = b.consecutive
  groupsKnown : a.groupsKnown = b.groupsKnown
  groupRevision : a.groupRevision = b.groupRevision
  groups : a.groups = b.groups

variable {a b : SchedulingLedger}

variable {m : SchedulingMember}

theorem Agree.cases (h : Agree a b) (id : Nat) :
    (a.members[id]? = none ∧ b.members[id]? = none) ∨
      ∃ m m', a.members[id]? = some m ∧ b.members[id]? = some m' ∧ m.save = m'.save := by
  have := h.members id
  cases ha : a.members[id]? <;> cases hb : b.members[id]? <;> simp_all

variable {m' s : SchedulingMember} {snapshot : Option ConfigSnapshot}

theorem save_eq (h : m.save = m'.save) :
    m.id = m'.id ∧ m.groupID = m'.groupID ∧ m.identityGeneration = m'.identityGeneration ∧
      m.progress = m'.progress ∧ m.lastSelected = m'.lastSelected ∧ m.pending = m'.pending := by
  simpa [save] using h

section

variable (h : Agree a b)
include h

theorem Agree.knows (c : CredentialMeta) : a.knows c = b.knows c := by
  unfold SchedulingLedger.knows
  obtain ⟨ha, hb⟩ | ⟨m, m', ha, hb, hs⟩ := h.cases c.id
  · rw [ha, hb]
  · obtain ⟨-, hg, hi, -⟩ := save_eq hs
    rw [ha, hb, any_some, any_some, hg, hi]

theorem Agree.eligible (pool : List WeightedCredential) : a.eligible pool = b.eligible pool := by
  unfold SchedulingLedger.eligible
  congr 1
  funext c
  exact h.knows c.info

theorem Agree.baseline (eligible : List WeightedCredential) :
    a.baseline eligible = b.baseline eligible := by
  unfold SchedulingLedger.baseline
  rw [h.watermark]
  congr 2
  funext best c
  obtain ⟨ha, hb⟩ | ⟨m, m', ha, hb, hs⟩ := h.cases c.id
  · rw [ha, hb]
  obtain ⟨-, -, -, hp, -, hpending⟩ := save_eq hs
  rw [ha, hb]
  simp only [hp, hpending]

theorem Agree.less (left right : WeightedCredential) : a.less left right = b.less left right := by
  unfold SchedulingLedger.less
  obtain ⟨ha, hb⟩ | ⟨m, m', ha, hb, hs⟩ := h.cases left.id
  · rw [ha, hb]
  obtain ⟨ha', hb'⟩ | ⟨n, n', ha', hb', hs'⟩ := h.cases right.id
  · rw [ha, hb, ha', hb']
  obtain ⟨hid, -, -, hp, hl, -⟩ := save_eq hs
  obtain ⟨hid', -, -, hp', hl', -⟩ := save_eq hs'
  rw [ha, hb, ha', hb']
  simp only [hp, hp', hl, hl', hid, hid']

theorem Agree.choose (eligible : List WeightedCredential) (preferred : Nat)
    (first : WeightedCredential) :
    a.choose eligible preferred first = b.choose eligible preferred first := by
  have alternative : a.alternative eligible first = b.alternative eligible first := by
    unfold SchedulingLedger.alternative
    simp only [h.less]
  unfold SchedulingLedger.choose limitStreak
  rw [alternative, h.lastMember, h.consecutive]

theorem Agree.least (first : WeightedCredential) (rest : List WeightedCredential) :
    a.least first rest = b.least first rest := by
  unfold SchedulingLedger.least
  simp only [h.less]

theorem Agree.admits (snapshot : Option ConfigSnapshot) {m' : SchedulingMember}
    (hs : m.save = m'.save) : a.admits snapshot m = b.admits snapshot m' := by
  obtain ⟨-, hg, -, -, -, hpending⟩ := save_eq hs
  unfold SchedulingLedger.admits SchedulingLedger.groupEnabled
  rw [hpending, hg, h.groupsKnown, h.groups, h.groupRevision]

end

theorem admitAt_save (hs : m.save = m'.save) (baseline : SchedulingProgress) :
    (m.admitAt baseline).save = (m'.admitAt baseline).save := by
  obtain ⟨hid, hg, hi, hp, hl, -⟩ := save_eq hs
  simp [admitAt, save, hid, hg, hi, hp, hl]

theorem Agree.admitEligible (h : Agree a b) (snapshot : Option ConfigSnapshot)
    (eligible : List WeightedCredential) :
    Agree (a.admitEligible snapshot eligible) (b.admitEligible snapshot eligible) := by
  obtain ⟨ms, ha, hma⟩ := a.admitEligible_eq snapshot eligible
  obtain ⟨ms', hb, hmb⟩ := b.admitEligible_eq snapshot eligible
  rw [ha, hb]
  refine { h with members := fun id => ?_ }
  simp only [hma, hmb]
  obtain ⟨ha, hb⟩ | ⟨m, m', ha, hb, hs⟩ := h.cases id
  · rw [ha, hb]
    rfl
  rw [ha, hb]
  simp only [map_some, some.injEq, SchedulingLedger.admitted, h.admits snapshot hs,
    h.baseline]
  split
  · exact admitAt_save hs _
  · exact hs

theorem Agree.charge (h : Agree a b) (id : Nat) (hs : m.save = m'.save)
    (next : SchedulingProgress) :
    Agree (a.charge id m next) (b.charge id m' next) := by
  obtain ⟨hid, hg, hi, -, -, hpending⟩ := save_eq hs
  refine {
    members := fun i => ?_
    watermark := by simp only [SchedulingLedger.charge, h.watermark]
    sequence := by simp only [SchedulingLedger.charge, h.sequence]
    lastMember := hid
    consecutive := by simp only [SchedulingLedger.charge, h.lastMember, h.consecutive, hid]
    groupsKnown := h.groupsKnown
    groupRevision := h.groupRevision
    groups := h.groups }
  simp only [SchedulingLedger.charge, OrderedMap.lookup_insert]
  split
  · simp [save, hid, hg, hi, hpending, h.sequence]
  · exact h.members i

/-- Agreeing ledgers select the same credential and agree afterwards. -/
theorem Agree.select (h : Agree a b) (snapshot : Option ConfigSnapshot)
    (pool : List WeightedCredential) (preferred : Nat) :
    (a.selectCredential snapshot pool preferred).2 =
        (b.selectCredential snapshot pool preferred).2 ∧
      Agree (a.selectCredential snapshot pool preferred).1
        (b.selectCredential snapshot pool preferred).1 := by
  unfold selectCredential
  rw [h.eligible pool, h.sequence]
  split
  · exact ⟨rfl, h⟩
  next head tail _ =>
  split
  · exact ⟨rfl, h⟩
  have h' := h.admitEligible snapshot (head :: tail)
  generalize a.admitEligible snapshot (head :: tail) = a' at h' ⊢
  generalize b.admitEligible snapshot (head :: tail) = b' at h' ⊢
  dsimp only
  rw [h'.least, h'.choose]
  split
  · exact ⟨rfl, h'⟩
  next chosen _ =>
  obtain ⟨ha, hb⟩ | ⟨m, m', ha, hb, hs⟩ := h'.cases chosen.id
  · rw [ha, hb]
    exact ⟨rfl, h'⟩
  rw [ha, hb]
  dsimp only
  rw [(save_eq hs).2.2.2.1]
  split
  · exact ⟨rfl, h'⟩
  · exact ⟨rfl, h'.charge chosen.id hs _⟩

/-! ## Bringing a ledger up -/

/-- A fresh ledger after `SyncGroups` and `SyncCredentials`, with the clock standing still. -/
def bringUp (snapshot : Option ConfigSnapshot) (views : List CredentialRuntimeView) (now : Time) :
    SchedulingLedger :=
  (newSchedulingState.syncGroups snapshot).syncCredentials 0 (views.map fun v => (v, now))

variable {d : SchedulingLedger} {w : World} {views : List CredentialRuntimeView} {now : Time}

variable {id : Nat}

/-- What a freshly synchronised member takes from its view. -/
structure Takes (m : SchedulingMember) (v : CredentialRuntimeView) (now : Time) : Prop where
  groupID : m.groupID = v.groupID
  identityGeneration : m.identityGeneration = v.identityGeneration
  suspended : m.suspended = v.suspendedAt now

theorem syncViews_member (views : List (CredentialRuntimeView × Time))
    (hm : (views.foldl (fun d v => d.syncCredential v.1 v.2) d).members[id]? = some m) :
    d.members[id]? = some m ∨ ∃ v ∈ views, v.1.id = id ∧ Takes m v.1 v.2 := by
  induction views generalizing d with
  | nil => exact .inl hm
  | cons v views ih =>
    obtain hm | ⟨v', hv', h⟩ := ih hm
    · obtain ⟨m₀, hg, hi, hlookup⟩ := d.syncCredential_lookup v.1 v.2
      rw [hlookup] at hm
      split at hm
      · next hid =>
        cases hm
        exact .inr ⟨v, by simp, hid, hg, hi, rfl⟩
      · exact .inl hm
    · exact .inr ⟨v', by simp [hv'], h⟩

theorem syncViews_present (views : List (CredentialRuntimeView × Time))
    (h : (d.members[id]?).isSome ∨ id ∈ views.map (·.1.id)) :
    ((views.foldl (fun d v => d.syncCredential v.1 v.2) d).members[id]?).isSome := by
  induction views generalizing d with
  | nil => simpa using h
  | cons v views ih =>
    apply ih
    obtain ⟨m₀, -, -, hlookup⟩ := d.syncCredential_lookup v.1 v.2
    rw [hlookup]
    by_cases hid : v.1.id = id
    · simp [hid]
    · simpa [hid, Ne.symm hid] using h

theorem syncGroups_new (snapshot : Option ConfigSnapshot) :
    (newSchedulingState.syncGroups snapshot).members = ∅ := by
  cases snapshot with
  | none => rfl
  | some snapshot =>
    refine ExtTreeMap.ext_getElem? fun id => ?_
    simp [SchedulingLedger.syncGroups, newSchedulingState, syncModelCursors]

theorem bringUp_member (hm : (bringUp snapshot views now).members[id]? = some m) :
    ∃ v ∈ views, v.id = id ∧ Takes m v now := by
  rw [bringUp, syncCredentials_lookup, filter_eq_some_iff] at hm
  obtain hm | ⟨v, hv, hid, hf⟩ := syncViews_member _ hm.1
  · simp [syncGroups_new] at hm
  · obtain ⟨v', hv', rfl⟩ := List.mem_map.mp hv
    exact ⟨v', hv', hid, hf⟩

theorem bringUp_present (hv : v ∈ views) :
    ((bringUp snapshot views now).members[v.id]?).isSome := by
  have listed : v.id ∈ (views.map fun v => (v, now)).map (·.1.id) := by
    simpa using ⟨v, hv, rfl⟩
  have := syncViews_present (d := newSchedulingState.syncGroups snapshot) _ (.inr listed)
  obtain ⟨m, hm⟩ := isSome_iff_exists.mp this
  simpa [bringUp, syncCredentials_lookup, hm] using ⟨v, hv, rfl⟩

theorem bringUp_sound (snapshot : Option ConfigSnapshot) (hid : ∀ v ∈ views, v.id ≠ 0) :
    (bringUp snapshot views now).Sound :=
  (sound_new.syncGroups snapshot).syncCredentials 0 (by simpa using hid)

/-- A ledger that is brought up from the publication has its configuration. -/
theorem Tracks.sameConfig (h : Tracks d w) (views : List CredentialRuntimeView) (now : Time) :
    (bringUp w.snapshot views now).groupsKnown = d.groupsKnown ∧
      (bringUp w.snapshot views now).groupRevision = d.groupRevision ∧
      (bringUp w.snapshot views now).groups = d.groups := by
  have same :
      SameConfig (bringUp w.snapshot views now) (newSchedulingState.syncGroups w.snapshot) :=
    syncCredentials_config ..
  rw [same.groupsKnown, same.groupRevision, same.groups]
  cases hs : w.snapshot with
  | none =>
    obtain ⟨h1, h2, h3⟩ := h.unpublished hs
    exact ⟨h1.symm, h2.symm, h3.symm⟩
  | some snapshot =>
    have hp := h.published snapshot hs
    rw [hp.groupsKnown, hp.groupRevision, hp.groups]
    exact ⟨rfl, rfl, rfl⟩

/-- The views that a process reports when it starts again: those that the old one knew. -/
def Lists (views : List CredentialRuntimeView) (w : World) : Prop :=
  ∀ v, v ∈ views ↔ w.views[v.id]? = some v

/-- The member of the old ledger that a freshly synchronised one stands for. -/
theorem Tracks.counterpart (h : Tracks d w) (hviews : Lists views w)
    (hm : (bringUp w.snapshot views now).members[id]? = some m) :
    ∃ s v, d.members[id]? = some s ∧ Follows s v w.now ∧ Takes m v now := by
  obtain ⟨v, hv, rfl, ht⟩ := bringUp_member hm
  have hw := (hviews v).mp hv
  obtain ⟨s, hs⟩ := isSome_iff_exists.mp (h.view hw)
  obtain ⟨v', hv', -, hf⟩ := h.member hs
  rw [hw] at hv'
  cases hv'
  exact ⟨s, v, hs, hf, ht⟩

theorem Tracks.present (h : Tracks d w) (hviews : Lists views w) (now : Time)
    (hs : d.members[id]? = some s) : ((bringUp w.snapshot views now).members[id]?).isSome := by
  obtain ⟨v, hv, rfl, -⟩ := h.member hs
  exact bringUp_present ((hviews v).mpr hv)

/-- A saved member of a sound ledger can be restored wherever its identity is known. -/
theorem Sound.restorable (h : d.Sound) (hs : d.members[id]? = some s) (hg : m.groupID = s.groupID)
    (hi : m.identityGeneration = s.identityGeneration) :
    restorable d.captureCheckpoint m s.save = true :=
  restorable_iff.mpr ⟨hg, hi, (h.member hs).lastSelected_le, (h.member hs).progress_le⟩

/-- The loop over the saved members ends with the history of the old ledger. -/
theorem Tracks.restoredMembers (h : Tracks d w) (hviews : Lists views w) (hnow : w.now ≤ now)
    (hr : ((bringUp w.snapshot views now).beginRestore d.captureCheckpoint).RestoredFrom
      d.captureCheckpoint d.captureCheckpoint.members r) (id : Nat) : d.members[id]?.map save =
      r.ledger.members[id]?.map save := by
  have sound : (bringUp w.snapshot views now).Sound := bringUp_sound _ fun v hv => by
    obtain ⟨s, hs⟩ := isSome_iff_exists.mp (h.view ((hviews v).mp hv))
    exact (h.sound.member hs).id_ne_zero
  have config := h.sameConfig views now
  have begun := restoreCursors_eq d.captureCheckpoint.modelCursors (bringUp w.snapshot views now)
  cases hm : r.ledger.members[id]? with
  | none =>
    cases hs : d.members[id]? with
    | none => rfl
    | some s =>
      obtain ⟨m, hm'⟩ := isSome_iff_exists.mp (h.present hviews now hs)
      rw [hr.members, map_eq_none_iff] at hm
      simp [beginRestore, hm'] at hm
  | some m =>
    obtain ⟨old, hold, rfl, hnot⟩ | ⟨old, s, hold, hs, -, rfl⟩ := restored_cases h.sound hr hm
    all_goals
      obtain ⟨m₀, hm₀, rfl⟩ := beginRestore_member _ hold
      obtain ⟨s', v, hs', hf, ht⟩ := h.counterpart hviews hm₀
      have hg : m₀.groupID = s'.groupID := ht.groupID.trans hf.groupID.symm
      have hi : m₀.identityGeneration = s'.identityGeneration :=
        ht.identityGeneration.trans hf.identityGeneration.symm
    · cases (hnot s' hs').symm.trans (h.sound.restorable hs' hg hi)
    rw [hs] at hs'
    cases hs'
    -- Nothing that keeps the new member out was unknown to the old ledger.
    have pending : (s.pending || m₀.suspended || d.groupBlocked s.groupID) = s.pending := by
      cases hp : s.pending with
      | true => rfl
      | false =>
        have hsus : m₀.suspended = false := by
          rw [ht.suspended, Bool.eq_false_iff]
          intro hv
          rw [hf.waits (suspendedAt_mono hnow hv)] at hp
          cases hp
        have hblocked : d.groupBlocked s.groupID = false := by
          rw [Bool.eq_false_iff]
          intro hb
          rw [(h.sound.member hs).blocked hb] at hp
          cases hp
        rw [hsus, hblocked]
        rfl
    have blocked : ((bringUp w.snapshot views now).beginRestore
        d.captureCheckpoint).groupBlocked s.groupID = d.groupBlocked s.groupID := by
      rw [beginRestore, begun]
      simp only [groupBlocked, groupEnabled, config.1, config.2.2]
    have hid : m₀.id = s.id := (sound.member hm₀).id_eq.trans (h.sound.member hs).id_eq.symm
    simp only [hs, map_some, save, restoreFrom, hg, blocked, hid, hi,
      pending]

/-! ## The restored ledger -/

/-- The streak of the old ledger goes on: its member is one that was restored. -/
theorem Tracks.restoredStreak (h : Tracks d w) (hviews : Lists views w)
    (hr : ((bringUp w.snapshot views now).beginRestore d.captureCheckpoint).RestoredFrom
      d.captureCheckpoint d.captureCheckpoint.members r) :
    (r.ledger.lastMember, r.ledger.consecutive) = (d.lastMember, d.consecutive) := by
  rw [hr.streak]
  obtain ⟨hl, hc⟩ | ⟨-, -, hlast⟩ := h.sound.streak
  · rw [hl, hc]
    split
    · exact Prod.ext hl hc
    · rfl
  obtain ⟨s, hs⟩ := isSome_iff_exists.mp hlast
  obtain ⟨m, hm⟩ := isSome_iff_exists.mp (h.present hviews now hs)
  obtain ⟨s', v, hs', hf, ht⟩ := h.counterpart hviews hm
  rw [hs] at hs'
  cases hs'
  have begun : ((bringUp w.snapshot views now).beginRestore
      d.captureCheckpoint).members[d.lastMember]? = some { m with pending := true } := by
    simp [beginRestore, hm]
  have seen : d.lastMember ∈ r.seen := (hr.seen _).mpr
    ⟨_, begun, s.save, mem_captureCheckpoint.mpr ⟨_, s, hs, rfl⟩, (h.sound.member hs).id_eq,
      h.sound.restorable hs (ht.groupID.trans hf.groupID.symm)
        (ht.identityGeneration.trans hf.identityGeneration.symm)⟩
  exact if_pos ⟨seen, h.sound.consecutive_le⟩

/-- The ledger that takes over from another after a restart. -/
def restarted (d : SchedulingLedger) (snapshot : Option ConfigSnapshot)
    (views : List CredentialRuntimeView) (now : Time) : SchedulingLedger :=
  ((bringUp snapshot views now).restoreCheckpoint d.captureCheckpoint).1

theorem restarted_eq (snapshot : Option ConfigSnapshot) (views : List CredentialRuntimeView)
    (now : Time) (hsequence : d.sequence < MaxUint64.toNat)
    (hwatermark : d.watermark.whole < MaxUint64) :
    ∃ r, ((bringUp snapshot views now).beginRestore d.captureCheckpoint).RestoredFrom
      d.captureCheckpoint d.captureCheckpoint.members r ∧
      d.restarted snapshot views now = r.ledger := by
  refine ⟨_, restoredFrom_fold _ d.captureCheckpoint d.captureCheckpoint.members, ?_⟩
  have accepted : ¬ (d.captureCheckpoint.version ≠ 1 ∨
      d.captureCheckpoint.sequence = MaxUint64.toNat ∨
      d.captureCheckpoint.watermark.whole = MaxUint64) := by
    rintro (h | h | h)
    · exact h rfl
    · exact hsequence.ne h
    · exact UInt64.ne_of_lt hwatermark h
  rw [restarted, restoreCheckpoint, if_neg accepted]

theorem Tracks.agree (h : Tracks d w) (hviews : Lists views w) (hnow : w.now ≤ now)
    (hsequence : d.sequence < MaxUint64.toNat)
    (hwatermark : d.watermark.whole < MaxUint64) :
    Agree d (d.restarted w.snapshot views now) := by
  obtain ⟨r, hr, he⟩ := restarted_eq w.snapshot views now hsequence hwatermark
  rw [he]
  have streak := h.restoredStreak hviews hr
  have config := h.sameConfig views now
  have begun := restoreCursors_eq d.captureCheckpoint.modelCursors (bringUp w.snapshot views now)
  have frame := hr.frame
  rw [beginRestore, begun] at frame
  exact {
    members := h.restoredMembers hviews hnow hr
    watermark := by rw [frame]; rfl
    sequence := by rw [frame]; rfl
    lastMember := (congrArg Prod.fst streak).symm
    consecutive := (congrArg Prod.snd streak).symm
    groupsKnown := by rw [frame]; exact config.1.symm
    groupRevision := by rw [frame]; exact config.2.1.symm
    groups := by rw [frame]; exact config.2.2.symm }

/-- The rotation of every key of the publication is restored. -/
theorem Tracks.restoredCursors (h : Tracks d w) (hsequence : d.sequence < MaxUint64.toNat)
    (hwatermark : d.watermark.whole < MaxUint64) {snapshot : ConfigSnapshot}
    (hs : w.snapshot = some snapshot) (hk : Compiled snapshot key) :
    (d.restarted w.snapshot views now).modelCursors[key]? = d.modelCursors[key]? := by
  obtain ⟨r, hr, he⟩ := restarted_eq w.snapshot views now hsequence hwatermark
  have cursors : r.ledger.modelCursors =
      (d.captureCheckpoint.modelCursors.foldl restoreCursor
        (bringUp w.snapshot views now)).modelCursors := by
    rw [hr.frame]
    rfl
  rw [he, cursors]
  have same : SameConfig (bringUp w.snapshot views now)
      (newSchedulingState.syncGroups w.snapshot) := syncCredentials_config ..
  have new : CursorFits snapshot key (bringUp w.snapshot views now).modelCursors[key]? := by
    rw [same.modelCursors, hs]
    exact syncModelCursors_fits _ hk
  have old := (h.published snapshot hs).cursors key hk
  unfold CursorFits at new old
  by_cases hmany : 1 < (configuredModels snapshot key).length
  · rw [if_pos hmany] at new old
    obtain ⟨order, horder, nodup, hmem⟩ := old
    obtain ⟨configured, hconfigured, -, hmem'⟩ := new
    have nonempty : order ≠ [] := by
      rintro rfl
      obtain ⟨x, hx⟩ := List.exists_mem_of_length_pos (Nat.zero_lt_one.trans hmany)
      simpa using (hmem x).mpr hx
    rw [horder]
    refine restoreCursors_some hconfigured nodup (fun x => (hmem x).trans (hmem' x).symm)
      (fun s hs' hkey => ?_) (mem_captureCursors.mpr ⟨horder, nonempty⟩)
    have := (mem_captureCursors.mp hs').1
    rw [hkey, horder] at this
    exact (some.inj this).symm
  · rw [if_neg hmany] at new old
    rw [old]
    exact restoreCursors_none _ new

/-! ## Requests after the restart -/

inductive Request where
  | selectCredential (snapshot : Option ConfigSnapshot) (candidates : List WeightedCredential)
      (preferred : Nat)
  | selectModel (groupID : Nat) (externalModel : String) (models : List String)

inductive Response where
  | credential (result : Except Panic (Option CredentialMeta))
  | model (model : String)

def Response.credentialID : Response → Option Nat
  | .credential (.ok (some c)) => some c.id
  | _ => none

def serve (d : SchedulingLedger) : Request → SchedulingLedger × Response
  | .selectCredential snapshot candidates preferred =>
    let (d, result) := d.selectCredential snapshot candidates preferred
    (d, .credential result)
  | .selectModel groupID externalModel models =>
    let (d, model) := d.selectModel groupID externalModel models
    (d, .model model)

def responses (d : SchedulingLedger) : List Request → List Response
  | [] => []
  | request :: requests => (d.serve request).2 :: (d.serve request).1.responses requests

/-- A request for a model names a group and an external model of the publication. -/
def Request.Compiled (snapshot : Option ConfigSnapshot) : Request → Prop
  | .selectCredential .. => True
  | .selectModel groupID externalModel _ =>
    ∃ s, snapshot = some s ∧ SchedulingLedger.Compiled s ⟨groupID, externalModel⟩

/-- The ledgers agree on what the requests of a publication read. -/
structure Alike (snapshot : Option ConfigSnapshot) (a b : SchedulingLedger) : Prop where
  agree : Agree a b
  cursors : ∀ s, snapshot = some s → ∀ key, SchedulingLedger.Compiled s key →
    a.modelCursors[key]? = b.modelCursors[key]?

section

variable {snapshot : Option ConfigSnapshot}

theorem Alike.selectModel {groupID : Nat} (h : Alike snapshot a b) {s : ConfigSnapshot}
    (hs : snapshot = some s) (hk : SchedulingLedger.Compiled s ⟨groupID, externalModel⟩)
    (models : List String) :
    (a.selectModel groupID externalModel models).2 =
        (b.selectModel groupID externalModel models).2 ∧
      Alike snapshot (a.selectModel groupID externalModel models).1
        (b.selectModel groupID externalModel models).1 := by
  unfold SchedulingLedger.selectModel
  dsimp only
  rw [h.cursors s hs _ hk]
  split
  · exact ⟨rfl, h⟩
  split
  · exact ⟨rfl, h⟩
  refine ⟨rfl, { h.agree with }, fun s' hs' key hk' => ?_⟩
  simp only [OrderedMap.lookup_insert]
  split
  · rfl
  · exact h.cursors s' hs' key hk'

theorem Alike.serve (h : Alike snapshot a b) {request : Request} (hk : request.Compiled snapshot) :
    (a.serve request).2 = (b.serve request).2 ∧
      Alike snapshot (a.serve request).1 (b.serve request).1 := by
  cases request with
  | selectCredential s candidates preferred =>
    obtain ⟨same, agree⟩ := h.agree.select s candidates preferred
    refine ⟨congrArg Response.credential same, agree, fun s' hs' key hk' => ?_⟩
    have ha := a.select_config s candidates preferred
    have hb := b.select_config s candidates preferred
    exact ha.modelCursors ▸ hb.modelCursors ▸ h.cursors s' hs' key hk'
  | selectModel groupID externalModel models =>
    obtain ⟨s, hs, hk⟩ := hk
    obtain ⟨same, alike⟩ := h.selectModel hs hk models
    exact ⟨congrArg Response.model same, alike⟩

theorem Alike.responses (h : Alike snapshot a b) (hk : ∀ r ∈ requests, r.Compiled snapshot) :
    a.responses requests = b.responses requests := by
  induction requests generalizing a b with
  | nil => rfl
  | cons request requests ih =>
    obtain ⟨same, alike⟩ := h.serve (hk request (by simp))
    rw [SchedulingLedger.responses, SchedulingLedger.responses, same,
      ih alike fun r hr => hk r (by simp [hr])]

end

/-- Scheduling survives a restart. A fresh ledger that is brought up from the same publication and
the same views, at the clock of the old ledger or later, and restores its checkpoint, answers every
sequence of requests as the old ledger does. -/
theorem restart_equivalence {d : SchedulingLedger} {w : World} (h : Running d w)
    (hsequence : d.sequence < MaxUint64.toNat)
    (hwatermark : d.watermark.whole < MaxUint64)
    {views : List CredentialRuntimeView} (hviews : Lists views w) {now : Time} (hnow : w.now ≤ now)
    {requests : List Request} (hk : ∀ r ∈ requests, r.Compiled w.snapshot) :
    (d.restarted w.snapshot views now).responses requests = d.responses requests := by
  have alike : Alike w.snapshot d (d.restarted w.snapshot views now) := {
    agree := h.tracks.agree hviews hnow hsequence hwatermark
    cursors := fun s hs _ hk' => (h.tracks.restoredCursors hsequence hwatermark hs hk').symm }
  exact (alike.responses hk).symm

/-- One group that offers two models under one name. -/
def restartSnapshot : ConfigSnapshot where
  revision := 1
  routeStrategy := .nativeFirst
  groups := (∅ : ExtTreeMap Nat GroupView).insert 5
    { id := 5, priority := 0, models := [⟨"north", "m"⟩, ⟨"south", "m"⟩], weightManual := none,
      codexLiveMode := .off, responsesWebsocketEnabled := false, transparentModels := false }
  groupCatalog := (∅ : ExtTreeMap Nat GroupCatalogView).insert 5
    { id := 5, priority := 0, enabled := true, weightManual := none }

/-- The two credentials of the group; the second one has this status. -/
def restartViews (status : CredentialStatus) : List CredentialRuntimeView :=
  [{ id := 1, groupID := 5, identityGeneration := 1 },
    { id := 2, groupID := 5, identityGeneration := 1, status }]

def restartPool : List WeightedCredential :=
  [⟨{ id := 1, groupID := 5, identityGeneration := 1 }, 1⟩,
    ⟨{ id := 2, groupID := 5, identityGeneration := 1 }, 1⟩]

/-- A ledger that has served the first credential twice, and one request for a model. -/
def restartServed (status : CredentialStatus) : SchedulingLedger :=
  let d := bringUp (some restartSnapshot) (restartViews status) 7
  let d := (d.selectCredential (some restartSnapshot) restartPool 1).1
  let d := (d.selectCredential (some restartSnapshot) restartPool 1).1
  (d.selectModel 5 "m" ["north", "south"]).1

def restartRequests : List Request :=
  [.selectCredential (some restartSnapshot) restartPool 0,
    .selectCredential (some restartSnapshot) restartPool 0, .selectModel 5 "m" ["north", "south"]]

/-- With both credentials available the restarted ledger goes on with the second one, as the old
one does. -/
theorem restart_equivalence_available :
    let d := restartServed .active
    (d.responses restartRequests).map Response.credentialID = [some 2, some 2, none] ∧
      (d.restarted (some restartSnapshot) (restartViews .active) 7).responses restartRequests =
        d.responses restartRequests := by
  intro d
  have brought : Running (bringUp (some restartSnapshot) (restartViews .active) 7)
      { views := World.replace { now := 7 } 0 ((restartViews .active).map fun v => (v, 7))
        snapshot := some restartSnapshot
        now := 7 } :=
    .syncCredentials (.syncGroups (.new 7) restartSnapshot) le_rfl 0 (by simp [restartViews])
  have available : ∀ c ∈ restartPool, ∀ v,
      (World.replace { now := 7 } 0 ((restartViews .active).map fun v => (v, 7)))[c.id]? = some v →
        v.suspendedAt 7 = false := by
    simp [restartPool, restartViews, World.replace, OrderedMap.lookup_insert,
      WeightedCredential.id, CredentialRuntimeView.suspendedAt]
  have served : Running d _ := .selectModel
    (.select (.select brought le_rfl available) le_rfl available) 5 "m" ["north", "south"]
  have lists : Lists (restartViews .active) { now := 7, snapshot := some restartSnapshot
                                              views := World.replace { now := 7 } 0
                                                ((restartViews .active).map fun v => (v, 7)) } := by
    intro v
    simp only [restartViews, World.replace, List.map_cons, List.map_nil, List.foldl_cons,
      List.foldl_nil, OrderedMap.lookup_insert]
    grind
  have compiled : SchedulingLedger.Compiled restartSnapshot ⟨5, "m"⟩ := by
    refine ⟨by decide +kernel, _, OrderedMap.lookup_insert .., ?_⟩
    rfl
  refine ⟨by decide +kernel,
    restart_equivalence served (by decide +kernel) (by decide +kernel) lists le_rfl ?_⟩
  simp only [restartRequests, List.mem_cons, List.not_mem_nil, or_false, forall_eq_or_imp,
    forall_eq]
  exact ⟨trivial, trivial, restartSnapshot, rfl, compiled⟩

/-- A disabled credential that is still offered by a request in flight has been admitted by the old
ledger, and is kept waiting by the restored one. The two ledgers then differ. -/
theorem restart_differs_after_disabled_candidate :
    let d := restartServed .disabled
    Reachable d ∧ d.sequence < MaxUint64.toNat ∧
      d.watermark.whole < MaxUint64 ∧
      (d.responses restartRequests).map Response.credentialID = [some 2, some 2, none] ∧
      ((d.restarted (some restartSnapshot) (restartViews .disabled) 7).responses
        restartRequests).map Response.credentialID = [some 2, some 1, none] := by
  intro d
  have reach {e : SchedulingLedger} (h : Reachable e) (op : Op) (hv : op.Valid) :
      Reachable (op.apply e) := .step h hv
  have reachable : Reachable (bringUp (some restartSnapshot) (restartViews .disabled) 7) := by
    have published := reach .new (.syncGroups (some restartSnapshot)) (by simp [Op.Valid, Op.views])
    exact reach published (.syncCredentials 0 ((restartViews .disabled).map fun v => (v, 7)))
      (by simp [Op.Valid, Op.views, restartViews])
  refine ⟨?_, by decide +kernel, by decide +kernel, by decide +kernel, by decide +kernel⟩
  have select {e : SchedulingLedger} (h : Reachable e) :
      Reachable (e.selectCredential (some restartSnapshot) restartPool 1).1 :=
    reach h (.select (some restartSnapshot) restartPool 1) (by simp [Op.Valid, Op.views])
  exact reach (select (select reachable)) (.selectModel 5 "m" ["north", "south"])
    (by simp [Op.Valid, Op.views])

end SchedulingLedger
end ApiLoad.Scheduling
