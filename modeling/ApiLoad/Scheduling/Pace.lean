import ApiLoad.Scheduling.Tracking

/-!
# The pace of the ledger

A selection moves a member by at most one unit, and the sequence counts the selections. The
watermark therefore never runs ahead of the sequence, and as long as the sequence is not exhausted
no progress overflows.
-/
namespace ApiLoad.Scheduling
open Std (ExtTreeMap)
open Foundation State SchedulingProgress

namespace SchedulingLedger

/-- The watermark and the number of selections. -/
def pace (d : SchedulingLedger) : SchedulingProgress × Nat := (d.watermark, d.sequence)

/-- The watermark is at most the number of selections. -/
def Paced (d : SchedulingLedger) : Prop := d.watermark.value ≤ d.sequence * 2 ^ 64

variable {d : SchedulingLedger}

theorem Paced.congr {d' : SchedulingLedger} (h : d.Paced) (same : d'.pace = d.pace) : d'.Paced := by
  simp only [pace, Prod.mk.injEq] at same
  simpa [Paced, same.1, same.2] using h

theorem frame_pace : Frame pace := ⟨fun _ _ => rfl, fun _ _ _ => rfl⟩

theorem syncGroups_pace (snapshot : Option ConfigSnapshot) :
    (d.syncGroups snapshot).pace = d.pace := by
  unfold syncGroups
  split
  · rfl
  · split <;> rfl

theorem selectModel_pace (groupID : Nat) (externalModel : String) (models : List String) :
    (d.selectModel groupID externalModel models).1.pace = d.pace := by
  unfold selectModel
  split
  · rfl
  · dsimp only
    split <;> rfl

theorem admitEligible_pace (snapshot : Option ConfigSnapshot) (eligible : List WeightedCredential) :
    (d.admitEligible snapshot eligible).pace = d.pace := by
  obtain ⟨members, hd, -⟩ := d.admitEligible_eq snapshot eligible
  rw [hd]
  rfl

/-! ## Selections -/

theorem step_le (weight : Nat) : step weight ≤ 2 ^ 64 := Nat.div_le_self ..

variable {id weight : Nat} {m : SchedulingMember}

/-- A member of a sound ledger can be charged while the sequence is not exhausted. -/
theorem Paced.advances (h : d.Paced) (sound : d.Sound) (room : d.sequence < MaxUint64.toNat)
    (hm : d.members[id]? = some m) (hw : weight ≠ 0) : (m.progress.advance weight).2 = true := by
  have hle : m.progress.value ≤ d.watermark.value := (sound.member hm).progress_le
  have hstep := step_le weight
  have hmax : MaxUint64.toNat = 2 ^ 64 - 1 := rfl
  rw [(advance_value hw).1]
  unfold Paced at h
  omega

theorem Paced.charge (h : d.Paced) (sound : d.Sound) (hm : d.members[id]? = some m)
    {next : SchedulingProgress} (advances : m.progress.advance weight = (next, true)) :
    (d.charge id m next).Paced := by
  have hw : weight ≠ 0 := by
    rintro rfl
    simp [advance] at advances
  have hnext : next.value = m.progress.value + step weight := by
    simpa [advances] using (@SchedulingProgress.advance_value m.progress weight hw).2
  have hle : m.progress.value ≤ d.watermark.value := (sound.member hm).progress_le
  have hstep := step_le weight
  unfold Paced at h ⊢
  simp only [SchedulingLedger.charge, Nat.succ_mul]
  split
  · rw [hnext]
    exact Nat.add_le_add (hle.trans h) hstep
  · exact h.trans (Nat.le_add_right ..)

theorem Paced.select (h : d.Paced) (sound : d.Sound) (snapshot : Option ConfigSnapshot)
    (candidates : List WeightedCredential) (preferred : Nat) :
    (d.selectCredential snapshot candidates preferred).1.Paced := by
  have hs := d.selectCredential_selects snapshot candidates preferred
  generalize d.selectCredential snapshot candidates preferred = r at hs ⊢
  obtain ⟨d', result⟩ := r
  have admitted : (d.admitEligible snapshot (d.eligible candidates)).Paced :=
    h.congr (admitEligible_pace ..)
  cases hs with
  | idle => exact h
  | stopped => exact admitted
  | charged mem room found advances =>
    exact admitted.charge (sound.admitEligible ..) found advances

/-! ## Reachable ledgers -/

theorem Paced.apply (h : d.Paced) (sound : d.Sound) (op : Op) : (op.apply d).Paced := by
  cases op with
  | select snapshot candidates preferred => exact h.select sound ..
  | selectModel => exact h.congr (selectModel_pace ..)
  | syncCredential => exact h.congr (frame_pace.syncCredential ..)
  | syncCredentials => exact h.congr (frame_pace.syncCredentials ..)
  | remove => exact h.congr (frame_pace.remove ..)
  | syncGroups => exact h.congr (syncGroups_pace ..)

theorem Paced.restore (h : d.Paced) {saved : SchedulingLedger} (hs : saved.Paced) :
    (d.restoreCheckpoint saved.captureCheckpoint).1.Paced := by
  unfold restoreCheckpoint
  split
  · exact h
  have hr := restoredFrom_fold (d.beginRestore saved.captureCheckpoint)
    saved.captureCheckpoint saved.captureCheckpoint.members
  refine hs.congr ?_
  dsimp only
  rw [hr.frame]
  rfl

theorem Reachable.paced (h : Reachable d) : d.Paced := by
  induction h with
  | new => exact Nat.zero_le _
  | step h _ ih => exact ih.apply h.sound _
  | restore _ _ _ ih ihs => exact ih.restore ihs

end SchedulingLedger
end ApiLoad.Scheduling
