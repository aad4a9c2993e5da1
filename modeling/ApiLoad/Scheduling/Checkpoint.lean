import ApiLoad.Scheduling.Select

/-!
# Scheduling checkpoints

The part of the ledger that is saved across a restart
(`internal/state/scheduling_checkpoint.go`). Groups, suspensions and cooldowns are not saved: they
come from the configuration and the registry, which are loaded before the checkpoint is restored.
-/
namespace ApiLoad.Scheduling
open Std (ExtTreeMap)
open Foundation State List

structure SchedulingMemberCheckpoint where
  id : Nat
  groupID : Nat
  identityGeneration : Nat
  progress : SchedulingProgress
  lastSelected : Nat
  pending : Bool
deriving DecidableEq, Repr

structure ModelCursorCheckpoint where
  groupID : Nat
  externalModel : String
  order : List String
deriving DecidableEq, Repr

structure SchedulingCheckpoint where
  version : Int
  watermark : SchedulingProgress
  sequence : Nat
  lastMember : Nat
  consecutive : Nat
  members : List SchedulingMemberCheckpoint
  modelCursors : List ModelCursorCheckpoint
deriving DecidableEq, Repr

def SchedulingMember.save (m : SchedulingMember) : SchedulingMemberCheckpoint :=
  ⟨m.id, m.groupID, m.identityGeneration, m.progress, m.lastSelected, m.pending⟩

namespace SchedulingLedger

def captureCheckpoint (d : SchedulingLedger) : SchedulingCheckpoint where
  version := 1
  watermark := d.watermark
  sequence := d.sequence
  lastMember := d.lastMember
  consecutive := d.consecutive
  members := (d.members.toList.map fun e => e.2.save).insertionSort fun a b => a.id ≤ b.id
  modelCursors :=
    ((d.modelCursors.toList.filter fun e => e.2 ≠ []).map fun e =>
      ({ groupID := e.1.groupID, externalModel := e.1.externalModel, order := e.2 } :
        ModelCursorCheckpoint)).insertionSort fun a b =>
          a.groupID < b.groupID ∨ a.groupID = b.groupID ∧ a.externalModel ≤ b.externalModel

/-- One round of the loop over the saved cursors. -/
def restoreCursor (d : SchedulingLedger) (saved : ModelCursorCheckpoint) : SchedulingLedger :=
  let key : GroupModelKey := ⟨saved.groupID, saved.externalModel⟩
  match d.modelCursors[key]? with
  | some configured => { d with
      modelCursors := d.modelCursors.insert key (reconcileModelOrder saved.order configured) }
  | none => d

/-- Whether a saved member can be restored to a member of the ledger. -/
def restorable (checkpoint : SchedulingCheckpoint) (member : SchedulingMember)
    (saved : SchedulingMemberCheckpoint) : Bool :=
  member.groupID = saved.groupID && member.identityGeneration = saved.identityGeneration &&
    saved.lastSelected ≤ checkpoint.sequence &&
    saved.progress.compare checkpoint.watermark ≠ .gt

/-- A member with its saved history. It stays pending if the present configuration keeps it out. -/
def restoreFrom (d : SchedulingLedger) (saved : SchedulingMemberCheckpoint)
    (member : SchedulingMember) : SchedulingMember :=
  { member with
    progress := saved.progress
    lastSelected := saved.lastSelected
    pending := saved.pending || member.suspended || d.groupBlocked member.groupID }

/-- Continue the saved streak once its member is restored. -/
def resumeStreak (d : SchedulingLedger) (checkpoint : SchedulingCheckpoint) (id : Nat) :
    SchedulingLedger :=
  if id = checkpoint.lastMember ∧ checkpoint.consecutive ≤ MaxConsecutive then
    { d with lastMember := id, consecutive := checkpoint.consecutive }
  else d

/-- The state of the loop over the saved members. -/
structure Restoring where
  ledger : SchedulingLedger
  seen : List Nat := []
  restored : Nat := 0

/-- One round of the loop over the saved members. -/
def restoreMember (checkpoint : SchedulingCheckpoint) (r : Restoring)
    (saved : SchedulingMemberCheckpoint) : Restoring :=
  match r.ledger.members[saved.id]? with
  | none => r
  | some member =>
    if !restorable checkpoint member saved then r
    else if saved.id ∈ r.seen then r
    else
      let d := r.ledger.putMember saved.id (r.ledger.restoreFrom saved member)
      ⟨d.resumeStreak checkpoint saved.id, saved.id :: r.seen, r.restored + 1⟩

/-- The ledger before the loop over the saved members: every member waits to be admitted. -/
def beginRestore (d : SchedulingLedger) (checkpoint : SchedulingCheckpoint) : SchedulingLedger :=
  { checkpoint.modelCursors.foldl restoreCursor d with
    started := checkpoint.sequence ≠ 0
    watermark := checkpoint.watermark
    sequence := checkpoint.sequence
    lastMember := 0
    consecutive := 0
    members := d.members.map fun _ member => { member with pending := true } }

/-- `RestoreCheckpoint`: the ledger it leaves, and how many members were restored. -/
def restoreCheckpoint (d : SchedulingLedger) (checkpoint : SchedulingCheckpoint) :
    SchedulingLedger × Nat :=
  if checkpoint.version ≠ 1 ∨ checkpoint.sequence = SchedulingProgress.MaxUint64.toNat ∨
      checkpoint.watermark.whole = SchedulingProgress.MaxUint64 then (d, 0)
  else
    let r := checkpoint.members.foldl (restoreMember checkpoint) ⟨d.beginRestore checkpoint, [], 0⟩
    (r.ledger, r.restored)

variable {d : SchedulingLedger} {s : SchedulingMemberCheckpoint} {m : SchedulingMember}

theorem mem_captureCheckpoint :
    s ∈ d.captureCheckpoint.members ↔
      ∃ (id : Nat) (m : SchedulingMember), d.members[id]? = some m ∧ m.save = s := by
  simp only [captureCheckpoint, (perm_insertionSort _ _).mem_iff, mem_map, Prod.exists]
  constructor
  · rintro ⟨id, m, hm, he⟩
    exact ⟨id, m, OrderedMap.lookup_of_mem_toList hm, he⟩
  · rintro ⟨id, m, hm, he⟩
    exact ⟨id, m, OrderedMap.mem_toList_of_lookup hm, he⟩

theorem restoreCursors_eq (saved : List ModelCursorCheckpoint) (d : SchedulingLedger) :
    saved.foldl restoreCursor d =
      { d with modelCursors := (saved.foldl restoreCursor d).modelCursors } := by
  induction saved generalizing d with
  | nil => rfl
  | cons s saved ih =>
    rw [foldl_cons, ih]
    unfold restoreCursor
    dsimp only
    split <;> rfl

/-! ## The loop over the saved members -/

/-- The member under an ID after the loop: the first saved member that fits it counts. -/
def restoredMember (d : SchedulingLedger) (checkpoint : SchedulingCheckpoint)
    (saved : List SchedulingMemberCheckpoint) (id : Nat) (m : SchedulingMember) :
    SchedulingMember :=
  match saved.find? fun s => s.id = id && restorable checkpoint m s with
  | some s => d.restoreFrom s m
  | none => m

theorem restorable_restoredMember (d : SchedulingLedger) (checkpoint : SchedulingCheckpoint)
    (saved : List SchedulingMemberCheckpoint) (id : Nat) (m : SchedulingMember)
    (s : SchedulingMemberCheckpoint) :
    restorable checkpoint (d.restoredMember checkpoint saved id m) s =
      restorable checkpoint m s := by
  unfold restoredMember
  split <;> rfl

/-- What the loop over the saved members has done to the ledger it started from. -/
structure RestoredFrom (d : SchedulingLedger) (checkpoint : SchedulingCheckpoint)
    (saved : List SchedulingMemberCheckpoint) (r : Restoring) : Prop where
  frame : r.ledger = { d with
    members := r.ledger.members
    lastMember := r.ledger.lastMember
    consecutive := r.ledger.consecutive }
  members : ∀ id : Nat, r.ledger.members[id]? =
    d.members[id]?.map (d.restoredMember checkpoint saved id)
  seen : ∀ id, id ∈ r.seen ↔ ∃ m, d.members[id]? = some m ∧
    ∃ s ∈ saved, s.id = id ∧ restorable checkpoint m s = true
  streak : (r.ledger.lastMember, r.ledger.consecutive) =
    if checkpoint.lastMember ∈ r.seen ∧ checkpoint.consecutive ≤ MaxConsecutive then
      (checkpoint.lastMember, checkpoint.consecutive)
    else (d.lastMember, d.consecutive)

theorem restoredMember_append (d : SchedulingLedger) (checkpoint : SchedulingCheckpoint)
    (saved : List SchedulingMemberCheckpoint) (s : SchedulingMemberCheckpoint) {id : Nat}
    (h : s.id = id → restorable checkpoint m s = true → ∃ s' ∈ saved, s'.id = id ∧ restorable
      checkpoint m s' = true) :
    d.restoredMember checkpoint (saved ++ [s]) id m = d.restoredMember checkpoint saved id m := by
  unfold restoredMember
  rw [find?_append]
  cases hf : saved.find? fun s => s.id = id && restorable checkpoint m s with
  | some s' => rfl
  | none =>
    have absent : ¬ (s.id = id ∧ restorable checkpoint m s = true) := by
      rintro ⟨hid, hr⟩
      obtain ⟨s', hs', hid', hr'⟩ := h hid hr
      have := find?_eq_none.mp hf s' hs'
      simp [hid', hr'] at this
    simp [absent]

theorem resumeStreak_eq (d : SchedulingLedger) (checkpoint : SchedulingCheckpoint) (id : Nat) :
    d.resumeStreak checkpoint id = { d with
      lastMember := (d.resumeStreak checkpoint id).lastMember
      consecutive := (d.resumeStreak checkpoint id).consecutive } := by
  unfold resumeStreak
  split <;> rfl

/-- The round that restores a member for the first time. -/
theorem RestoredFrom.restore (h : RestoredFrom d checkpoint saved r)
    (hm : d.members[s.id]? = some m) (hr : restorable checkpoint m s = true)
    (hseen : s.id ∉ r.seen) :
    RestoredFrom d checkpoint (saved ++ [s])
      ⟨(r.ledger.putMember s.id (r.ledger.restoreFrom s
          (d.restoredMember checkpoint saved s.id m))).resumeStreak checkpoint s.id,
        s.id :: r.seen, r.restored + 1⟩ := by
  have first : ∀ s' ∈ saved, ¬ (s'.id = s.id ∧ restorable checkpoint m s' = true) :=
    fun s' hs' h' => hseen ((h.seen s.id).mpr ⟨m, hm, s', hs', h'⟩)
  have hnone : (saved.find? fun s' => s'.id = s.id && restorable checkpoint m s') = none := by
    simpa [find?_eq_none] using first
  have old : d.restoredMember checkpoint saved s.id m = m := by rw [restoredMember, hnone]
  have same : r.ledger.restoreFrom s m = d.restoreFrom s m := by rw [h.frame]; rfl
  have new : d.restoredMember checkpoint (saved ++ [s]) s.id m = d.restoreFrom s m := by
    rw [restoredMember, find?_append, hnone]
    simp [hr]
  rw [old, same]
  refine { frame := ?_, members := fun id => ?_, seen := fun id => ?_, streak := ?_ }
  · rw [resumeStreak_eq, h.frame]
    rfl
  · rw [resumeStreak_eq]
    simp only [putMember, OrderedMap.lookup_insert]
    split
    · next hid =>
      subst hid
      rw [hm, Option.map_some, new]
    next hid =>
    rw [h.members]
    cases d.members[id]? with
    | none => rfl
    | some m' => rw [Option.map_some, Option.map_some,
        d.restoredMember_append checkpoint saved s fun he => absurd he hid]
  · rw [mem_cons, h.seen]
    constructor
    · rintro (rfl | ⟨m', hm', s', hs', h'⟩)
      · exact ⟨m, hm, s, by simp, rfl, hr⟩
      · exact ⟨m', hm', s', by simp [hs'], h'⟩
    rintro ⟨m', hm', s', hs', hid, hr'⟩
    rcases mem_append.mp hs' with hs' | hs'
    · exact .inr ⟨m', hm', s', hs', hid, hr'⟩
    · cases mem_singleton.mp hs'
      exact .inl hid.symm
  · have hstreak := h.streak
    unfold resumeStreak putMember
    by_cases hlast : s.id = checkpoint.lastMember
    · by_cases hc : checkpoint.consecutive ≤ MaxConsecutive
      · simp [hlast, hc]
      · simpa [hc] using hstreak
    · simpa [hlast, Ne.symm hlast] using hstreak

theorem restoredFrom_fold (d : SchedulingLedger) (checkpoint : SchedulingCheckpoint)
    (saved : List SchedulingMemberCheckpoint) :
    RestoredFrom d checkpoint saved (saved.foldl (restoreMember checkpoint) ⟨d, [], 0⟩) := by
  induction saved using reverseRecOn with
  | nil =>
    exact {
      frame := rfl
      members := fun id => by
        change d.members[id]? = _
        cases d.members[id]? <;> rfl
      seen := by simp
      streak := by simp }
  | append_singleton saved s ih =>
    rw [foldl_append, foldl_cons, foldl_nil]
    generalize saved.foldl (restoreMember checkpoint) ⟨d, [], 0⟩ = r at ih ⊢
    -- A saved member that fits no member, or comes second, is passed over.
    have passed (h : ∀ m, d.members[s.id]? = some m → restorable checkpoint m s = true →
        s.id ∈ r.seen) : RestoredFrom d checkpoint (saved ++ [s]) r := by
      refine { ih with members := fun id => ?_, seen := fun id => ?_ }
      · rw [ih.members]
        cases hm : d.members[id]? with
        | none => rfl
        | some m =>
          simp only [Option.map_some, Option.some.injEq]
          refine (d.restoredMember_append checkpoint saved s fun hid hr => ?_).symm
          subst hid
          obtain ⟨m', hm', hs⟩ := (ih.seen s.id).mp (h m hm hr)
          rw [hm] at hm'
          cases hm'
          exact hs
      · rw [ih.seen]
        constructor
        · rintro ⟨m, hm, s', hs', h'⟩
          exact ⟨m, hm, s', by simp [hs'], h'⟩
        rintro ⟨m, hm, s', hs', hid, hr⟩
        rcases mem_append.mp hs' with hs' | hs'
        · exact ⟨m, hm, s', hs', hid, hr⟩
        cases mem_singleton.mp hs'
        subst hid
        exact (ih.seen s.id).mp (h m hm hr)
    unfold restoreMember
    cases hm : d.members[s.id]? with
    | none =>
      have absent : r.ledger.members[s.id]? = none := by rw [ih.members, hm, Option.map_none]
      simp only [absent]
      exact passed fun m h => by rw [hm] at h; cases h
    | some m =>
      have present : r.ledger.members[s.id]? =
          some (d.restoredMember checkpoint saved s.id m) := by
        rw [ih.members, hm, Option.map_some]
      simp only [present, restorable_restoredMember]
      by_cases hr : restorable checkpoint m s = true
      · by_cases hseen : s.id ∈ r.seen
        · rw [if_neg (by simp [hr]), if_pos hseen]
          exact passed fun _ _ _ => hseen
        · rw [if_neg (by simp [hr]), if_neg hseen]
          exact ih.restore hm hr hseen
      · rw [if_pos (by simp [hr])]
        refine passed fun m' h h' => ?_
        rw [hm] at h
        cases h
        exact absurd h' hr

end SchedulingLedger
end ApiLoad.Scheduling
