import ApiLoad.Scheduling.Ledger

/-!
# Selecting a credential

`selectCredential` (`internal/scheduler/fair.go`) as it acts on the ledger: the candidates that the
ledger knows are admitted, the one with the least progress is taken unless a preferred one is
among them or its streak has become too long, and the chosen member is charged.
-/
namespace ApiLoad.Scheduling
open Std (ExtTreeMap)
open Foundation State SchedulingProgress List Option

/-- The ways in which the modelled code can fail at run time. -/
inductive Panic where
  | nilDereference
  | divideByZero
  | indexOutOfRange
deriving DecidableEq, Repr

structure CredentialMeta where
  id : Nat
  groupID : Nat
  identityGeneration : Nat
  weightManual : Option Int := none
  modelCooldowns : ExtTreeMap String Time := ∅

/-- `weightedCredential`; `info` is its field `meta`. -/
structure WeightedCredential where
  info : CredentialMeta
  weight : Nat

def WeightedCredential.id (c : WeightedCredential) : Nat := c.info.id

def WeightedCredential.zero : WeightedCredential := ⟨⟨0, 0, 0, none, ∅⟩, 0⟩

/-- The cap on a streak of selections: no legal weights give a higher threshold. -/
def MaxConsecutive : Nat := 99 + (MaxWeight * MaxWeight).toNat

/-- The place of a member in the order of `less` below. -/
def SchedulingMember.rank (m : SchedulingMember) : SchedulingProgress ×ₗ ℕ ×ₗ ℕ :=
  toLex (m.progress, toLex (m.lastSelected, m.id))

namespace SchedulingLedger

/-- Whether the ledger knows a candidate under its present identity. -/
def knows (d : SchedulingLedger) (c : CredentialMeta) : Bool :=
  d.members[c.id]?.any fun m =>
    m.groupID = c.groupID && m.identityGeneration = c.identityGeneration

def eligible (d : SchedulingLedger) (candidates : List WeightedCredential) :
    List WeightedCredential :=
  candidates.filter fun c => d.knows c.info

/-- The leading progress among the settled candidates, or the watermark if there is none. -/
def baseline (d : SchedulingLedger) (eligible : List WeightedCredential) : SchedulingProgress :=
  (eligible.foldl (fun (best : SchedulingProgress × Bool) c =>
    match d.members[c.id]? with
    | some m =>
      if !m.pending && (!best.2 || m.progress.compare best.1 = .gt) then (m.progress, true)
      else best
    | none => best) (d.watermark, false)).1

/-- A request may complete the admission of a member only with a snapshot that is not older than
the groups the ledger knows. -/
def admits (d : SchedulingLedger) (snapshot : Option ConfigSnapshot) (m : SchedulingMember) :
    Bool :=
  m.pending && (!d.groupsKnown || d.groupEnabled m.groupID) &&
    snapshot.any fun snapshot => d.groupRevision ≤ snapshot.revision

def admitEligible (d : SchedulingLedger) (snapshot : Option ConfigSnapshot)
    (eligible : List WeightedCredential) : SchedulingLedger :=
  let baseline := d.baseline eligible
  eligible.foldl (fun d c =>
    match d.members[c.id]? with
    | some m =>
      if d.admits snapshot m then d.putMember c.id (m.admitAt baseline) else d
    | none => d) d

/-- The closure `less` of `selectCredential`, on the members of two eligible candidates. -/
def less (d : SchedulingLedger) (left right : WeightedCredential) : Bool :=
  match d.members[left.id]?, d.members[right.id]? with
  | some a, some b =>
    match a.progress.compare b.progress with
    | .lt => true
    | .gt => false
    | .eq => if a.lastSelected ≠ b.lastSelected then a.lastSelected < b.lastSelected
      else a.id < b.id
  | _, _ => false

def least (d : SchedulingLedger) (first : WeightedCredential) (rest : List WeightedCredential) :
    WeightedCredential :=
  rest.foldl (fun best c => if d.less c best then c else best) first

/-- The candidate that comes first when one is left out; the zero value if there is no other. -/
def alternative (d : SchedulingLedger) (eligible : List WeightedCredential)
    (first : WeightedCredential) : WeightedCredential :=
  eligible.foldl (fun best c =>
    if c.id ≠ first.id ∧ (best.id = 0 ∨ d.less c best) then c else best) .zero

/-- The burst limiter: a streak that has reached its threshold passes to the next candidate. -/
def limitStreak (d : SchedulingLedger) (eligible : List WeightedCredential)
    (first : WeightedCredential) : Except Panic WeightedCredential :=
  if d.lastMember = first.id ∧ 1 < eligible.length ∧ 100 ≤ d.consecutive then
    let alternative := d.alternative eligible first
    if alternative.weight = 0 then .error .divideByZero
    else
      let limit := 99 + (first.weight + alternative.weight - 1) / alternative.weight
      .ok (if limit ≤ d.consecutive then alternative else first)
  else .ok first

def choose (d : SchedulingLedger) (eligible : List WeightedCredential) (preferred : Nat)
    (first : WeightedCredential) : Except Panic WeightedCredential :=
  match eligible.find? fun c => c.id = preferred with
  | some c => .ok c
  | none => d.limitStreak eligible first

/-- Charge the member stored under an ID with one selection. -/
def charge (d : SchedulingLedger) (id : Nat) (member : SchedulingMember)
    (next : SchedulingProgress) : SchedulingLedger :=
  let sequence := d.sequence + 1
  { d with
    members := d.members.insert id { member with progress := next, lastSelected := sequence }
    sequence
    started := true
    watermark := if next.compare d.watermark = .gt then next else d.watermark
    lastMember := member.id
    consecutive :=
      if d.lastMember ≠ member.id then 1
      else if d.consecutive < MaxConsecutive then d.consecutive + 1
      else d.consecutive }

/-- `selectCredential`: the ledger it leaves, and the selected credential if one was found. -/
def selectCredential (d : SchedulingLedger) (snapshot : Option ConfigSnapshot)
    (candidates : List WeightedCredential) (preferred : Nat) :
    SchedulingLedger × Except Panic (Option CredentialMeta) :=
  match d.eligible candidates with
  | [] => (d, .ok none)
  | head :: tail =>
    if d.sequence = MaxUint64.toNat then (d, .ok none)
    else
      let d := d.admitEligible snapshot (head :: tail)
      match d.choose (head :: tail) preferred (d.least head tail) with
      | .error panic => (d, .error panic)
      | .ok chosen =>
        match d.members[chosen.id]? with
        | none => (d, .error .nilDereference)
        | some member =>
          match member.progress.advance chosen.weight with
          | (_, false) => (d, .ok none)
          | (next, true) => (d.charge chosen.id member next, .ok (some chosen.info))

/-! ## Admission -/

variable {d : SchedulingLedger}

@[simp] theorem mem_eligible {d : SchedulingLedger} :
    c ∈ d.eligible candidates ↔ c ∈ candidates ∧ d.knows c.info = true := mem_filter

theorem knows_iff :
    d.knows c = true ↔ ∃ m, d.members[c.id]? = some m ∧ m.groupID = c.groupID ∧
      m.identityGeneration = c.identityGeneration := by
  simp [knows, Option.any_eq_true]

/-- What an admission does to the member under an ID. -/
def admitted (d : SchedulingLedger) (snapshot : Option ConfigSnapshot)
    (eligible : List WeightedCredential) (id : Nat) (m : SchedulingMember) : SchedulingMember :=
  if id ∈ eligible.map (·.id) ∧ d.admits snapshot m then m.admitAt (d.baseline eligible) else m

theorem admitAt_progress (m : SchedulingMember) (baseline : SchedulingProgress) :
    (m.admitAt baseline).progress = max m.progress baseline := by
  rw [SchedulingMember.admitAt]
  simp only [compare_lt]
  split
  · next h => rw [max_eq_right h.le]
  · next h => rw [max_eq_left (not_lt.mp h)]

/-- An admission changes nothing but the members, and a member only if it is pending. -/
theorem admitEligible_eq (d : SchedulingLedger) (snapshot : Option ConfigSnapshot)
    (eligible : List WeightedCredential) :
    ∃ members, d.admitEligible snapshot eligible = { d with members } ∧
      ∀ id : Nat, members[id]? = d.members[id]?.map (d.admitted snapshot eligible id) := by
  unfold admitEligible admitted
  generalize d.baseline eligible = baseline
  induction eligible using reverseRecOn with
  | nil => exact ⟨d.members, rfl, by simp⟩
  | append_singleton eligible c ih =>
    obtain ⟨members, hd, hm⟩ := ih
    rw [foldl_append, foldl_cons, foldl_nil, hd]
    -- A member that has been admitted is settled, so a second candidate with its ID leaves it.
    have settled (m : SchedulingMember) :
        ({ d with members } : SchedulingLedger).admits snapshot (m.admitAt baseline) = false := rfl
    cases hc : d.members[c.id]? with
    | none =>
      have absent : members[c.id]? = none := by rw [hm, hc, map_none]
      simp only [absent]
      refine ⟨members, rfl, fun id => ?_⟩
      by_cases hid : id = c.id
      · rw [hid, absent, hc, map_none]
      · simp [hm, hid]
    | some m =>
      by_cases hp : c.id ∈ eligible.map (·.id) ∧ d.admits snapshot m
      · have present : members[c.id]? = some (m.admitAt baseline) := by
          rw [hm, hc, map_some, if_pos hp]
        simp only [present]
        refine ⟨members, if_neg (by simp [settled]), fun id => ?_⟩
        by_cases hid : id = c.id
        · simp [hid, present, hc, hp.2]
        · simp [hm, hid]
      · have present : members[c.id]? = some m := by rw [hm, hc, map_some, if_neg hp]
        simp only [present]
        by_cases ha : d.admits snapshot m = true
        · refine ⟨_, if_pos ha, fun id => ?_⟩
          rw [OrderedMap.lookup_insert]
          by_cases hid : c.id = id
          · simp [← hid, hc, ha]
          · simp [hm, hid, Ne.symm hid]
        · refine ⟨members, if_neg ha, fun id => ?_⟩
          by_cases hid : id = c.id
          · simp [hid, present, hc, ha]
          · simp [hm, hid]

/-! ## The choice -/

variable {eligible : List WeightedCredential}

/-- The place of a candidate; every eligible candidate has a member. -/
def rank (d : SchedulingLedger) (c : WeightedCredential) : SchedulingProgress ×ₗ ℕ ×ₗ ℕ :=
  (d.members[c.id]?.map SchedulingMember.rank).getD (toLex (default, toLex (0, 0)))

theorem less_iff {left right : WeightedCredential} (hl : (d.members[left.id]?).isSome)
    (hr : (d.members[right.id]?).isSome) :
    d.less left right = true ↔ d.rank left < d.rank right := by
  obtain ⟨a, ha⟩ := isSome_iff_exists.mp hl
  obtain ⟨b, hb⟩ := isSome_iff_exists.mp hr
  simp only [less, rank, ha, hb, map_some, getD_some, SchedulingMember.rank,
    Prod.Lex.toLex_lt_toLex]
  rcases lt_trichotomy a.progress b.progress with h | h | h
  · simp [(compare_lt _ _).mpr h, h]
  · simp only [h, compare_refl, lt_irrefl, true_and, false_or]
    split <;> simp_all
  · simp [(compare_gt _ _).mpr h, h.not_gt, h.ne']

variable {first chosen : WeightedCredential}

/-- The loop over the candidates computes the first of least rank. -/
theorem argmin_eq_least (known : ∀ c ∈ first :: rest, (d.members[c.id]?).isSome) :
    argmin d.rank (first :: rest) = some (d.least first rest) := by
  induction rest generalizing first with
  | nil => rfl
  | cons c rest ih =>
    have hfirst := known first (by simp)
    have hc := known c (by simp)
    have hrest : ∀ x ∈ rest, (d.members[x.id]?).isSome := fun x hx => known x (by simp [hx])
    rw [least, foldl_cons, ← least]
    by_cases h : d.rank c < d.rank first
    · rw [if_pos ((less_iff hc hfirst).mpr h), ← ih (forall_mem_cons.mpr ⟨hc, hrest⟩)]
      simp [argmin, argAux, h]
    · rw [if_neg (mt (less_iff hc hfirst).mp h), ← ih (forall_mem_cons.mpr ⟨hfirst, hrest⟩)]
      simp [argmin, argAux, h]

theorem least_mem (d : SchedulingLedger) (first : WeightedCredential)
    (rest : List WeightedCredential) : d.least first rest ∈ first :: rest := by
  induction rest generalizing first with
  | nil => exact mem_singleton_self first
  | cons c rest ih =>
    have := ih (if d.less c first then c else first)
    rw [least, foldl_cons, ← least]
    grind

/-- The alternative is a candidate with another ID whenever there is one. -/
theorem alternative_mem (d : SchedulingLedger) (first : WeightedCredential)
    (eligible : List WeightedCredential) :
    (d.alternative eligible first ∈ eligible ∧ (d.alternative eligible first).id ≠ first.id) ∨
      (d.alternative eligible first = .zero ∧ ∀ c ∈ eligible, c.id = first.id) := by
  induction eligible using reverseRecOn with
  | nil => simp [alternative]
  | append_singleton eligible c ih =>
    rw [alternative, foldl_append, foldl_cons, foldl_nil, ← alternative]
    have hzero : WeightedCredential.zero.id = 0 := rfl
    grind

theorem limitStreak_mem (hf : first ∈ eligible) (h : d.limitStreak eligible first = .ok chosen) :
    chosen ∈ eligible := by
  unfold limitStreak at h
  split at h
  · dsimp only at h
    split at h
    · cases h
    next hw =>
    rcases d.alternative_mem first eligible with ⟨ha, -⟩ | ⟨hz, -⟩
    · cases h
      split <;> assumption
    · rw [hz] at hw
      exact absurd rfl hw
  · cases h
    exact hf

theorem choose_mem (hf : first ∈ eligible) (h : d.choose eligible preferred first = .ok chosen) :
    chosen ∈ eligible := by
  unfold choose at h
  split at h
  · next c hc =>
    cases h
    exact mem_of_find?_eq_some hc
  · exact limitStreak_mem hf h

theorem not_all_same_id (nodup : (eligible.map (·.id)).Nodup) (two : 1 < eligible.length)
    (id : Nat) :
    ¬ ∀ c ∈ eligible, c.id = id := by
  intro hall
  obtain ⟨a, b, rest, rfl⟩ : ∃ a b rest, eligible = a :: b :: rest := by
    match eligible, two with
    | a :: b :: rest, _ => exact ⟨a, b, rest, rfl⟩
  have hab : a.id = b.id := (hall a (by simp)).trans (hall b (by simp)).symm
  simp [hab] at nodup

/-- With distinct candidates of positive weight the choice does not fail. -/
theorem choose_ok (nodup : (eligible.map (·.id)).Nodup) (positive : ∀ c ∈ eligible, c.weight ≠ 0) :
    ∃ chosen, d.choose eligible preferred first = .ok chosen := by
  unfold choose
  split
  · exact ⟨_, rfl⟩
  unfold limitStreak
  split
  · next hstreak =>
    rcases d.alternative_mem first eligible with ⟨ha, -⟩ | ⟨-, hall⟩
    · exact ⟨_, if_neg (positive _ ha)⟩
    · exact absurd hall (not_all_same_id nodup hstreak.2.1 _)
  · exact ⟨_, rfl⟩

/-! ## What a call can do -/

/-- A call that has a candidate to select. -/
def Proceeds (d : SchedulingLedger) (candidates : List WeightedCredential) : Prop :=
  d.eligible candidates ≠ [] ∧ d.sequence ≠ MaxUint64.toNat

section Calls

variable {candidates : List WeightedCredential} (snapshot : Option ConfigSnapshot) (preferred : Nat)

theorem selectCredential_idle (h : ¬ d.Proceeds candidates) :
    d.selectCredential snapshot candidates preferred = (d, .ok none) := by
  unfold selectCredential
  split
  · rfl
  next head tail he =>
  rw [if_pos]
  by_contra hroom
  exact h ⟨by simp [he], hroom⟩

/-- What a call that proceeds does: the candidate chosen after the admission is charged, unless it
cannot be. -/
theorem selectCredential_cases (h : d.Proceeds candidates) :
    let admitted := d.admitEligible snapshot (d.eligible candidates)
    ((d.selectCredential snapshot candidates preferred).1 = admitted ∧
        ∀ info, (d.selectCredential snapshot candidates preferred).2 ≠ .ok (some info)) ∨
      ∃ chosen member next, chosen ∈ d.eligible candidates ∧
        (∃ first, admitted.choose (d.eligible candidates) preferred first = .ok chosen) ∧
        admitted.members[chosen.id]? = some member ∧
        member.progress.advance chosen.weight = (next, true) ∧
        d.selectCredential snapshot candidates preferred =
          (admitted.charge chosen.id member next, .ok (some chosen.info)) := by
  unfold selectCredential
  split
  · next he => exact absurd he h.1
  next head tail he =>
  rw [if_neg h.2, ← he]
  dsimp only
  split
  · exact .inl ⟨rfl, by simp⟩
  next chosen hchosen =>
  have hmem : chosen ∈ d.eligible candidates := choose_mem (he ▸ least_mem _ _ _) hchosen
  split
  · exact .inl ⟨rfl, by simp⟩
  next member hmember =>
  split
  · exact .inl ⟨rfl, by simp⟩
  · next next hnext => exact .inr ⟨chosen, member, next, hmem, ⟨_, hchosen⟩, hmember, hnext, rfl⟩

/-- With distinct candidates of positive weight a call that proceeds fails only to advance. -/
theorem selectCredential_chooses (h : d.Proceeds candidates)
    (nodup : ((d.eligible candidates).map (·.id)).Nodup)
    (positive : ∀ c ∈ d.eligible candidates, c.weight ≠ 0) :
    let admitted := d.admitEligible snapshot (d.eligible candidates)
    ∃ chosen ∈ d.eligible candidates, ∃ member, admitted.members[chosen.id]? = some member ∧
      ((d.selectCredential snapshot candidates preferred).2 = .ok (some chosen.info) ∨
        (member.progress.advance chosen.weight).2 = false ∧
          (d.selectCredential snapshot candidates preferred).2 = .ok none) := by
  intro admitted
  obtain ⟨members, hadmitted, hmembers⟩ := d.admitEligible_eq snapshot (d.eligible candidates)
  unfold selectCredential
  split
  · next he => exact absurd he h.1
  next head tail he =>
  rw [if_neg h.2, ← he]
  obtain ⟨chosen, hchosen⟩ : ∃ chosen, admitted.choose (d.eligible candidates) preferred
      (admitted.least head tail) = .ok chosen := choose_ok nodup positive
  have hmem := choose_mem (he ▸ least_mem _ _ _) hchosen
  obtain ⟨m, hm, -⟩ := knows_iff.mp (mem_eligible.mp hmem).2
  have hm' : admitted.members[chosen.id]? =
      some (d.admitted snapshot (d.eligible candidates) chosen.id m) := by
    rw [show admitted = _ from hadmitted, hmembers]
    exact congrArg (Option.map _) hm
  refine ⟨chosen, hmem, _, hm', ?_⟩
  simp only [admitted] at hchosen hm'
  simp only [hchosen, hm']
  split
  · next hfalse => exact .inr ⟨by rw [hfalse], rfl⟩
  · exact .inl rfl

end Calls

/-- The outcomes of a call of `selectCredential`. -/
inductive Selects (d : SchedulingLedger) (snapshot : Option ConfigSnapshot)
    (candidates : List WeightedCredential) :
    SchedulingLedger → Except Panic (Option CredentialMeta) → Prop
  /-- No candidate is eligible, or the sequence is exhausted. -/
  | idle : Selects d snapshot candidates d (.ok none)
  /-- The candidates are admitted, but none is charged. -/
  | stopped {result : Except Panic (Option CredentialMeta)} (h : ∀ c, result ≠ .ok (some c)) :
      Selects d snapshot candidates (d.admitEligible snapshot (d.eligible candidates)) result
  /-- An eligible candidate is charged after the admission. -/
  | charged {chosen : WeightedCredential} {member : SchedulingMember} {next : SchedulingProgress}
      (mem : chosen ∈ d.eligible candidates)
      (room : d.sequence ≠ MaxUint64.toNat)
      (found : (d.admitEligible snapshot (d.eligible candidates)).members[chosen.id]? = some member)
      (advances : member.progress.advance chosen.weight = (next, true)) :
      Selects d snapshot candidates
        ((d.admitEligible snapshot (d.eligible candidates)).charge chosen.id member next)
        (.ok (some chosen.info))

theorem selectCredential_selects (d : SchedulingLedger) (snapshot : Option ConfigSnapshot)
    (candidates : List WeightedCredential) (preferred : Nat) :
    Selects d snapshot candidates (d.selectCredential snapshot candidates preferred).1
      (d.selectCredential snapshot candidates preferred).2 := by
  by_cases h : d.Proceeds candidates
  swap
  · rw [selectCredential_idle snapshot preferred h]
    exact .idle
  obtain ⟨left, none⟩ | ⟨chosen, member, next, mem, -, found, advances, eq⟩ :=
    selectCredential_cases snapshot preferred h
  · exact left ▸ .stopped none
  · rw [eq]
    exact .charged mem h.2 found advances

end SchedulingLedger
end ApiLoad.Scheduling
