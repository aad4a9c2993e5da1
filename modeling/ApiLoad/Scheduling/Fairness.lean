import ApiLoad.Foundation.Stride
import ApiLoad.Scheduling.Select

/-!
# Weighted fairness

While the pool stays the same, `selectCredential` is a stride scheduler: it charges the member of
least progress, and the burst limiter has nothing to correct. The members then share the
selections by weight, up to one step. A member that joins later starts level with the leader.
-/
namespace ApiLoad.Scheduling
open Std (ExtTreeMap)
open Foundation State SchedulingProgress List

structure Call where
  snapshot : Option ConfigSnapshot
  pool : List WeightedCredential
  preferred : Nat

namespace SchedulingLedger

def call (d : SchedulingLedger) (c : Call) :
    SchedulingLedger × Except Panic (Option CredentialMeta) :=
  d.selectCredential c.snapshot c.pool c.preferred

def runCalls (d : SchedulingLedger) (calls : List Call) : SchedulingLedger :=
  calls.foldl (fun d c => (d.call c).1) d

def picks (d : SchedulingLedger) : List Call → List Nat
  | [] => []
  | c :: calls =>
    match d.call c with
    | (d', .ok (some info)) => info.id :: d'.picks calls
    | (d', _) => d'.picks calls

/-- A ledger before its first selection, without pending members. -/
structure Fresh (d : SchedulingLedger) : Prop where
  sequence : d.sequence = 0
  consecutive : d.consecutive = 0
  member : ∀ {id : Nat} {m : SchedulingMember}, d.members[id]? = some m →
    m.id = id ∧ m.progress = {} ∧ m.pending = false

/-- The pool lists every member once, in any order, with its identity and its weight. -/
structure FullPool (d : SchedulingLedger) (weight : Nat → Nat)
    (pool : List WeightedCredential) : Prop where
  nodup : (pool.map (·.id)).Nodup
  complete : ∀ id : Nat, (d.members[id]?).isSome → id ∈ pool.map (·.id)
  known : ∀ c ∈ pool, d.knows c.info = true ∧ c.weight = weight c.id

/-! ## The threshold of the burst limiter -/

theorem step_mul_le (weight : Nat) : step weight * weight ≤ 2 ^ 64 :=
  Nat.div_mul_le_self _ _

theorem lt_step_mul (h : weight ≠ 0) : 2 ^ 64 < step weight * weight + weight := by
  have := Nat.div_add_mod (2 ^ 64) weight
  have := Nat.mod_lt (2 ^ 64) (Nat.pos_of_ne_zero h)
  rw [step, Nat.mul_comm]
  omega

/-- A streak that fits into one step of another member stays below the threshold of the
limiter. -/
theorem streak_below_limit (hfirst : first ≠ 0) (hmax : first ≤ 10000) (hother : other ≠ 0)
    (fits : k * step first ≤ step other) : k < 99 + (first + other - 1) / other := by
  by_contra hge
  rw [not_lt] at hge
  set q := (first + other - 1) / other with hq
  have hcover : first ≤ q * other := by
    have hdiv := Nat.div_add_mod (first + other - 1) other
    have hmod := Nat.mod_lt (first + other - 1) (Nat.pos_of_ne_zero hother)
    rw [← hq] at hdiv
    rw [Nat.mul_comm]
    omega
  have hlow := lt_step_mul hfirst
  have hstep : 10000 ≤ 99 * step first := by
    have : 2 ^ 64 / 10000 ≤ step first :=
      Nat.div_le_div_left hmax (Nat.pos_of_ne_zero hfirst)
    omega
  have : 2 ^ 64 < 2 ^ 64 := calc
    2 ^ 64 < step first * first + first := hlow
    _ ≤ step first * (q * other) + 99 * step first * other := by
      have h1 : step first * first ≤ step first * (q * other) :=
        Nat.mul_le_mul_left _ hcover
      have h2 : 99 * step first ≤ 99 * step first * other :=
        Nat.le_mul_of_pos_right _ (Nat.pos_of_ne_zero hother)
      omega
    _ = (99 + q) * step first * other := by ring
    _ ≤ k * step first * other := by gcongr
    _ ≤ step other * other := Nat.mul_le_mul_right _ fits
    _ ≤ 2 ^ 64 := step_mul_le other
  exact absurd this (lt_irrefl _)

/-! ## Runs over a fixed pool -/

def memberIDs (d : SchedulingLedger) : Set Nat := { id | (d.members[id]?).isSome }

/-- The ledger after a history of picks over a fixed pool. -/
structure Balanced (start : SchedulingLedger) (weight : Nat → Nat) (picks : List Nat)
    (d : SchedulingLedger) : Prop where
  fair : Stride.Fair (fun i => step (weight i)) start.memberIDs picks
  same : ∀ id : Nat, (d.members[id]?).isSome = (start.members[id]?).isSome
  member : ∀ {id : Nat} {m : SchedulingMember}, d.members[id]? = some m →
    m.id = id ∧ m.pending = false ∧
    m.progress.value = Stride.progress (fun i => step (weight i)) picks id ∧
    ∃ m₀, start.members[id]? = some m₀ ∧ m.groupID = m₀.groupID ∧
      m.identityGeneration = m₀.identityGeneration
  sequence : d.sequence = picks.length
  bounded : picks.length ≤ MaxUint64.toNat
  streak : ∃ before, picks = before ++ replicate d.consecutive d.lastMember

variable {start d : SchedulingLedger} {weight : Nat → Nat} {history : List Nat}

variable {pool : List WeightedCredential} {m : SchedulingMember}

theorem Fresh.balanced (h : start.Fresh) : Balanced start weight [] start where
  fair := .start
  same _ := rfl
  member {id m} hm := by
    obtain ⟨hid, hp, hpending⟩ := h.member hm
    exact ⟨hid, hpending, by simp [hp, value, Stride.progress], m, hm, rfl, rfl⟩
  sequence := h.sequence
  bounded := Nat.zero_le _
  streak := ⟨[], by simp [h.consecutive]⟩

/-- The pool stays full: a selection changes no identity. -/
theorem Balanced.fullPool (h : Balanced start weight history d) (hp : start.FullPool weight pool) :
    d.FullPool weight pool where
  nodup := hp.nodup
  complete id hid := hp.complete id (h.same id ▸ hid)
  known c hc := by
    obtain ⟨hknown, hw⟩ := hp.known c hc
    obtain ⟨m₀, hm₀, hg, hi⟩ := knows_iff.mp hknown
    have present : (d.members[c.info.id]?).isSome := by rw [h.same, hm₀]; rfl
    obtain ⟨m, hm⟩ := Option.isSome_iff_exists.mp present
    obtain ⟨-, -, -, m₁, hm₁, hg₁, hi₁⟩ := h.member hm
    rw [hm₀] at hm₁
    cases hm₁
    exact ⟨knows_iff.mpr ⟨m, hm, hg₁.trans hg, hi₁.trans hi⟩, hw⟩

/-- Without pending members there is nobody to admit. -/
theorem admitEligible_settled (settled : ∀ {id : Nat} {m : SchedulingMember},
    d.members[id]? = some m → m.pending = false) (snapshot : Option ConfigSnapshot)
    (eligible : List WeightedCredential) : d.admitEligible snapshot eligible = d := by
  obtain ⟨members, hd, hm⟩ := d.admitEligible_eq snapshot eligible
  have unchanged : members = d.members := by
    refine ExtTreeMap.ext_getElem? fun id => ?_
    rw [hm]
    cases hlookup : d.members[id]? with
    | none => rfl
    | some m => simp [admitted, admits, settled hlookup]
  rw [hd, unchanged]

theorem FullPool.member (hp : d.FullPool weight pool) (hc : c ∈ pool) :
    ∃ m, d.members[c.id]? = some m := by
  obtain ⟨m, hm, -⟩ := knows_iff.mp (hp.known c hc).1
  exact ⟨m, hm⟩

variable {head : WeightedCredential} {m' : SchedulingMember} {tail : List WeightedCredential}

theorem FullPool.least_rank (hp : d.FullPool weight (head :: tail))
    (hm : d.members[(d.least head tail).id]? = some m) {id : Nat} (hm' : d.members[id]? = some m') :
    m.rank ≤ m'.rank := by
  have present : ∀ c ∈ head :: tail, (d.members[c.id]?).isSome :=
    fun c hc => Option.isSome_iff_exists.mpr (hp.member hc)
  obtain ⟨c, hc, rfl⟩ := mem_map.mp (hp.complete id (by rw [hm']; rfl))
  have := le_of_mem_argmin hc (argmin_eq_least present)
  simpa [rank, hm, hm'] using this

theorem value_le_of_rank (h : m.rank ≤ m'.rank) : m.progress.value ≤ m'.progress.value := by
  rw [SchedulingMember.rank, SchedulingMember.rank, Prod.Lex.toLex_le_toLex] at h
  rcases h with hlt | ⟨heq, -⟩
  · exact hlt.le
  · exact (congrArg value heq).le

/-- The limiter finds no streak to end. -/
theorem Balanced.limitStreak (h : Balanced start weight history d)
    (bounded : ∀ id ∈ start.memberIDs, weight id ≠ 0 ∧ weight id ≤ 10000)
    (hp : d.FullPool weight (head :: tail)) :
    d.limitStreak (head :: tail) (d.least head tail) = .ok (d.least head tail) := by
  have hfirst := d.least_mem head tail
  generalize hleast : d.least head tail = first at hfirst ⊢
  unfold SchedulingLedger.limitStreak
  split
  swap
  · rfl
  next hstreak =>
  rcases d.alternative_mem first (head :: tail) with ⟨halt, hne⟩ | ⟨-, hall⟩
  · generalize d.alternative (head :: tail) first = other at halt hne
    obtain ⟨m, hm⟩ := hp.member hfirst
    obtain ⟨m', hm'⟩ := hp.member halt
    have inStart {c : WeightedCredential} (hc : c ∈ head :: tail) : c.id ∈ start.memberIDs := by
      obtain ⟨m, hm⟩ := hp.member hc
      change (start.members[c.id]?).isSome
      rw [← h.same, hm]
      rfl
    obtain ⟨hf0, hfmax⟩ := bounded _ (inStart hfirst)
    obtain ⟨ho0, -⟩ := bounded _ (inStart halt)
    -- The first is behind the other, and the streak is the end of the history.
    have behind : m.progress.value ≤ m'.progress.value :=
      value_le_of_rank (hp.least_rank (hleast ▸ hm) hm')
    rw [(h.member hm).2.2.1, (h.member hm').2.2.1] at behind
    obtain ⟨before, hbefore⟩ := h.streak
    rw [hstreak.1] at hbefore
    rw [hbefore] at behind
    have fits := (hbefore ▸ h.fair).streak (inStart hfirst) hne behind
    have below := streak_below_limit hf0 hfmax ho0 fits
    dsimp only
    rw [(hp.known _ hfirst).2, (hp.known _ halt).2, if_neg ho0, if_neg (by omega)]
  · exact absurd hall (not_all_same_id hp.nodup hstreak.2.1 _)

/-- A member of a running ledger has room for one more step. -/
theorem Balanced.advances (h : Balanced start weight history d)
    (room : d.sequence ≠ MaxUint64.toNat) {id : Nat}
    (hm : d.members[id]? = some m) (hw : weight id ≠ 0) :
    m.progress.advance (weight id) = ((m.progress.advance (weight id)).1, true) ∧
      (m.progress.advance (weight id)).1.value =
        m.progress.value + step (weight id) := by
  obtain ⟨iff, value⟩ := advance_value (p := m.progress) hw
  have hmax : MaxUint64.toNat = 2 ^ 64 - 1 := by decide
  have hroom : history.length + 1 ≤ 2 ^ 64 - 1 := by
    have := h.sequence
    have := h.bounded
    omega
  have hstep : step (weight id) ≤ 2 ^ 64 := Nat.div_le_self _ _
  have fits : m.progress.value + step (weight id) < 2 ^ 128 := calc
    m.progress.value + step (weight id)
      = (history.count id + 1) * step (weight id) := by
        rw [(h.member hm).2.2.1, Stride.progress, Nat.add_mul, Nat.one_mul]
    _ ≤ (history.length + 1) * 2 ^ 64 := by
        gcongr
        exact count_le_length
    _ ≤ (2 ^ 64 - 1) * 2 ^ 64 := Nat.mul_le_mul_right _ hroom
    _ < 2 ^ 128 := by decide
  have ok := iff.mpr fits
  exact ⟨Prod.ext rfl ok, value ok⟩

/-- Charging the member of least rank keeps the balance. -/
theorem Balanced.charge (h : Balanced start weight history d) (room : d.sequence ≠ MaxUint64.toNat)
    (hm : d.members[m.id]? = some m) (hw : weight m.id ≠ 0)
    (least : ∀ (id : Nat) (m' : SchedulingMember), d.members[id]? = some m' → m.rank ≤ m'.rank) :
    Balanced start weight (history ++ [m.id])
      (d.charge m.id m (m.progress.advance (weight m.id)).1) where
  fair := .pick h.fair fun j hj => by
    have present : (d.members[j]?).isSome := by rw [h.same]; exact hj
    obtain ⟨m', hm'⟩ := Option.isSome_iff_exists.mp present
    rw [← (h.member hm).2.2.1, ← (h.member hm').2.2.1]
    exact value_le_of_rank (least j m' hm')
  same id := by
    simp only [SchedulingLedger.charge, OrderedMap.lookup_insert]
    split
    · next hid => rw [← hid, ← h.same, hm]; rfl
    · exact h.same id
  member {id m'} hm' := by
    simp only [SchedulingLedger.charge, OrderedMap.lookup_insert] at hm'
    split at hm'
    · next hid =>
      subst hid
      cases hm'
      obtain ⟨-, hpending, hvalue, hidentity⟩ := h.member hm
      refine ⟨rfl, hpending, ?_, hidentity⟩
      rw [Stride.progress_pick, ← hvalue]
      exact (h.advances room hm hw).2
    · next hid =>
      rw [Stride.progress_pick_ne (Ne.symm hid)]
      exact h.member hm'
  sequence := by simp [SchedulingLedger.charge, h.sequence]
  bounded := by
    have := h.sequence
    have := h.bounded
    simp only [length_append, length_singleton]
    omega
  streak := by
    obtain ⟨before, hbefore⟩ := h.streak
    simp only [SchedulingLedger.charge]
    split_ifs with hlast hcap
    · exact ⟨history, rfl⟩
    · rw [not_not] at hlast
      exact ⟨before, by rw [hbefore, hlast, replicate_succ', append_assoc]⟩
    -- The counter is at its cap: the streak still ends with that many selections.
    rw [not_not] at hlast
    refine ⟨before ++ [m.id], ?_⟩
    rw [hbefore, hlast, append_assoc, append_assoc, ← replicate_succ',
      replicate_succ, singleton_append]

/-- One call charges the member of least rank. -/
theorem Balanced.call (h : Balanced start weight history d)
    (bounded : ∀ id ∈ start.memberIDs, weight id ≠ 0 ∧ weight id ≤ 10000) {c : Call}
    (hp : start.FullPool weight c.pool) (unpreferred : start.members[c.preferred]? = none)
    (room : d.sequence ≠ MaxUint64.toNat) (nonempty : c.pool ≠ []) :
    ∃ m info, d.members[m.id]? = some m ∧ info.id = m.id ∧ weight m.id ≠ 0 ∧
      (∀ (id : Nat) (m' : SchedulingMember), d.members[id]? = some m' → m.rank ≤ m'.rank) ∧
      d.call c = (d.charge m.id m (m.progress.advance (weight m.id)).1, .ok (some info)) := by
  obtain ⟨head, tail, hpool⟩ := exists_cons_of_ne_nil nonempty
  have full := h.fullPool hp
  have heligible : d.eligible c.pool = head :: tail := by
    rw [eligible, ← hpool, filter_eq_self]
    exact fun c hc => (full.known c hc).1
  rw [hpool] at full
  have hadmitted : d.admitEligible c.snapshot (head :: tail) = d :=
    admitEligible_settled (fun hm => (h.member hm).2.1) _ _
  have hfind : (head :: tail).find? (fun x => x.id = c.preferred) = none := by
    rw [find?_eq_none]
    intro x hx he
    obtain ⟨m, hm⟩ := full.member hx
    have := h.same x.id
    rw [hm, of_decide_eq_true he, unpreferred] at this
    cases this
  have hchoose : d.choose (head :: tail) c.preferred (d.least head tail) =
      .ok (d.least head tail) := by
    rw [choose, hfind]
    exact h.limitStreak bounded full
  obtain ⟨m, hm⟩ := full.member (d.least_mem head tail)
  have hid : m.id = (d.least head tail).id := (h.member hm).1
  have hmember : m.id ∈ start.memberIDs := by
    change (start.members[m.id]?).isSome
    rw [← h.same, hid, hm]
    rfl
  have hw : (d.least head tail).weight = weight m.id := by
    rw [(full.known _ (d.least_mem head tail)).2, hid]
  obtain ⟨hadv, -⟩ := h.advances room hm (hid ▸ (bounded _ hmember).1)
  refine ⟨m, (d.least head tail).info, hid ▸ hm, hid.symm, (bounded _ hmember).1,
    fun id m' hm' => full.least_rank hm hm', ?_⟩
  rw [SchedulingLedger.call, selectCredential, heligible]
  simp only [if_neg room, hadmitted, hchoose, hm, hw]
  rw [← hid] at hadv
  rw [hadv]
  simp only [hid]

/-- Without members, or once the sequence is exhausted, a call does nothing. -/
def Idle (start d : SchedulingLedger) : Prop :=
  start.memberIDs = ∅ ∨ d.sequence = MaxUint64.toNat

theorem FullPool.nonempty (hp : start.FullPool weight pool) (busy : ¬ Idle start d) :
    pool ≠ [] := by
  rintro rfl
  refine busy (.inl (Set.eq_empty_of_forall_notMem fun id hid => ?_))
  simpa using hp.complete id hid

theorem FullPool.call_idle {c : Call} (hp : start.FullPool weight c.pool) (idle : Idle start d) :
    d.call c = (d, .ok none) := by
  have noPool (h : start.memberIDs = ∅) : c.pool = [] := by
    refine eq_nil_iff_forall_not_mem.mpr fun x hx => ?_
    obtain ⟨m, hm⟩ := hp.member hx
    have : x.id ∈ start.memberIDs := Option.isSome_iff_exists.mpr ⟨m, hm⟩
    rw [h] at this
    exact this
  rw [SchedulingLedger.call, selectCredential]
  rcases idle with hempty | hmax
  · rw [noPool hempty]
    rfl
  split
  · rfl
  · rw [if_pos hmax]

section Runs

variable (bounded : ∀ id ∈ start.memberIDs, weight id ≠ 0 ∧ weight id ≤ 10000)
include bounded

theorem Balanced.run (h : Balanced start weight history d)
    (full : ∀ c ∈ calls, start.FullPool weight c.pool ∧ start.members[c.preferred]? = none) :
    Balanced start weight (history ++ d.picks calls) (d.runCalls calls) := by
  induction calls generalizing d history with
  | nil => simpa [picks, runCalls] using h
  | cons c calls ih =>
    obtain ⟨hp, hpref⟩ := full c (by simp)
    have rest : ∀ c ∈ calls, start.FullPool weight c.pool ∧ start.members[c.preferred]? = none :=
      fun c hc => full c (by simp [hc])
    rw [runCalls, foldl_cons, ← runCalls, picks]
    by_cases idle : Idle start d
    · rw [hp.call_idle idle]
      exact ih h rest
    have room : d.sequence ≠ MaxUint64.toNat := fun he => idle (.inr he)
    obtain ⟨m, info, hm, hid, hw, least, hcall⟩ :=
      h.call bounded hp hpref room (hp.nonempty idle)
    rw [hcall]
    have := ih (h.charge room hm hw least) rest
    simpa [hid] using this

/-- The choices do not depend on the order of the candidates. -/
theorem Balanced.picks_eq (h : Balanced start weight history d)
    (full : ∀ c ∈ calls, start.FullPool weight c.pool ∧ start.members[c.preferred]? = none)
    (full' : ∀ c ∈ calls', start.FullPool weight c.pool ∧ start.members[c.preferred]? = none)
    (hlen : calls.length = calls'.length) : d.picks calls = d.picks calls' := by
  induction calls generalizing d history calls' with
  | nil => rw [length_eq_zero_iff.mp hlen.symm]
  | cons c calls ih =>
    obtain ⟨c', calls', rfl⟩ : ∃ c' rest, calls' = c' :: rest :=
      exists_cons_of_length_eq_add_one hlen.symm
    obtain ⟨hp, hpref⟩ := full c (by simp)
    obtain ⟨hp', hpref'⟩ := full' c' (by simp)
    have again {d' : SchedulingLedger} {history : List Nat}
        (h' : Balanced start weight history d') : d'.picks calls = d'.picks calls' :=
      ih h' (fun c hc => full c (by simp [hc])) (fun c hc => full' c (by simp [hc]))
        (by simpa using hlen)
    rw [picks, picks]
    by_cases idle : Idle start d
    · rw [hp.call_idle idle, hp'.call_idle idle]
      exact again h
    have room : d.sequence ≠ MaxUint64.toNat := fun he => idle (.inr he)
    obtain ⟨m, info, hm, hid, hw, least, hcall⟩ :=
      h.call bounded hp hpref room (hp.nonempty idle)
    obtain ⟨m', info', hm', hid', -, least', hcall'⟩ :=
      h.call bounded hp' hpref' room (hp'.nonempty idle)
    -- The two members of least rank are one, because the rank contains the ID.
    have hrank : m.rank = m'.rank :=
      le_antisymm (least m'.id m' hm') (least' m.id m hm)
    have hsame : m.id = m'.id := by
      have := congrArg (fun r => (ofLex (ofLex r).2).2) hrank
      exact this
    rw [hsame, hm'] at hm
    cases hm
    rw [hcall, hcall']
    simp only [hid, hid', again (h.charge room hm' hw least)]

end Runs

/-- Over a fixed pool the selections are shared by weight: no member is ahead of another by more
than its own last step, the burst limiter never changes a choice, and the choices do not depend on
the order of the candidates. -/
theorem weighted_fairness {d : SchedulingLedger} {weight : Nat → Nat} {calls : List Call}
    (fresh : d.Fresh)
    (bounded : ∀ id ∈ d.memberIDs, weight id ≠ 0 ∧ weight id ≤ 10000)
    (full : ∀ c ∈ calls, d.FullPool weight c.pool ∧ d.members[c.preferred]? = none) :
    (∀ i ∈ d.memberIDs, ∀ j ∈ d.memberIDs, 1 ≤ (d.picks calls).count i →
      ((d.picks calls).count i - 1) * step (weight i) ≤
        (d.picks calls).count j * step (weight j)) ∧
    (∀ (before after : List Call) (c : Call) (head : WeightedCredential)
      (tail : List WeightedCredential), calls = before ++ c :: after →
      (d.runCalls before).eligible c.pool = head :: tail →
      let e := (d.runCalls before).admitEligible c.snapshot (head :: tail)
      e.limitStreak (head :: tail) (e.least head tail) = .ok (e.least head tail)) ∧
    ∀ calls' : List Call, calls'.length = calls.length →
      (∀ c ∈ calls', d.FullPool weight c.pool ∧ d.members[c.preferred]? = none) →
      d.picks calls' = d.picks calls := by
  have start : Balanced d weight [] d := fresh.balanced
  refine ⟨fun i _ j hj hi => ?_, ?_, fun calls' hlen full' => ?_⟩
  · have h := (start.run bounded full).fair
    rw [nil_append] at h
    have := h.spread (count_pos_iff.mp hi) hj
    simp only [Stride.progress] at this
    rw [Nat.sub_mul, Nat.one_mul]
    omega
  · rintro before after c head tail rfl heligible
    have h := start.run bounded fun x hx => full x (mem_append_left _ hx)
    have hp := h.fullPool (full c (by simp)).1
    have hpool : c.pool = head :: tail := by
      rw [← heligible, eligible, eq_comm, filter_eq_self]
      exact fun c hc => (hp.known c hc).1
    intro e
    have he : e = d.runCalls before := admitEligible_settled (fun hm => (h.member hm).2.1) _ _
    rw [he]
    exact h.limitStreak bounded (hpool ▸ hp)
  · exact start.picks_eq bounded full' full hlen

/-- A ledger with two members that have not been served. -/
def twoMembers : SchedulingLedger :=
  { members := ((∅ : ExtTreeMap Nat SchedulingMember).insert 1
      { id := 1, groupID := 5, identityGeneration := 1 }).insert 2
      { id := 2, groupID := 5, identityGeneration := 1 } }

/-- A pool with weights three and one. -/
def twoCandidates : List WeightedCredential :=
  [⟨{ id := 1, groupID := 5, identityGeneration := 1 }, 3⟩,
    ⟨{ id := 2, groupID := 5, identityGeneration := 1 }, 1⟩]

def twoCalls : List Call :=
  [⟨none, twoCandidates, 0⟩, ⟨none, twoCandidates.reverse, 0⟩, ⟨none, twoCandidates, 0⟩,
    ⟨none, twoCandidates.reverse, 0⟩]

theorem weighted_fairness_twoMembers :
    twoMembers.picks twoCalls = [1, 2, 1, 1] ∧
      ((twoMembers.picks twoCalls).count 1 - 1) * step 3 ≤
        (twoMembers.picks twoCalls).count 2 * step 1 := by
  have lookup (id : Nat) : twoMembers.members[id]? =
      if 2 = id then some { id := 2, groupID := 5, identityGeneration := 1 }
      else if 1 = id then some { id := 1, groupID := 5, identityGeneration := 1 } else none := by
    simp [twoMembers]
  have fresh : twoMembers.Fresh := by
    refine ⟨rfl, rfl, fun {id m} hm => ?_⟩
    rw [lookup] at hm
    split_ifs at hm with h2 h1 <;> cases hm <;> simp [*]
  have member {id : Nat} (h : id ∈ twoMembers.memberIDs) : id = 1 ∨ id = 2 := by
    simp only [memberIDs, Set.mem_ofPred_eq, lookup] at h
    split_ifs at h <;> simp_all
  have pool (candidates : List WeightedCredential) (h : candidates = twoCandidates ∨
      candidates = twoCandidates.reverse) :
      twoMembers.FullPool (fun id => if id = 1 then 3 else 1) candidates := by
    refine ⟨by rcases h with rfl | rfl <;> decide, fun id hid => ?_, fun c hc => ?_⟩
    · rcases h with rfl | rfl <;> rcases member hid with rfl | rfl <;> decide
    have : c ∈ twoCandidates := by rcases h with rfl | rfl <;> simpa using hc
    simp only [twoCandidates, mem_cons, not_mem_nil, or_false] at this
    rcases this with rfl | rfl <;> decide +kernel
  have bounded : ∀ id ∈ twoMembers.memberIDs,
      (if id = 1 then 3 else 1) ≠ 0 ∧ (if id = 1 then 3 else 1) ≤ 10000 := by
    intro id _
    split <;> decide
  have full : ∀ c ∈ twoCalls, twoMembers.FullPool (fun id => if id = 1 then 3 else 1) c.pool ∧
      twoMembers.members[c.preferred]? = none := by
    simp only [twoCalls, mem_cons, not_mem_nil, or_false]
    rintro c (rfl | rfl | rfl | rfl) <;> exact ⟨pool _ (by simp), by simp [lookup]⟩
  exact ⟨by decide +kernel, (weighted_fairness fresh bounded full).1 1
    (by simp [memberIDs, lookup]) 2 (by simp [memberIDs, lookup]) (by decide +kernel)⟩

/-! ## Admission -/

/-- The progress of the candidates that are not pending. -/
def settledProgress (d : SchedulingLedger) (pool : List WeightedCredential) :
    Set SchedulingProgress :=
  { p | ∃ c ∈ pool, ∃ m, d.members[c.id]? = some m ∧ m.pending = false ∧ m.progress = p }

theorem mem_settledProgress_concat :
    p ∈ d.settledProgress (pool ++ [c]) ↔ p ∈ d.settledProgress pool ∨
      ∃ m, d.members[c.id]? = some m ∧ m.pending = false ∧ m.progress = p := by
  simp [settledProgress, or_and_right, exists_or]

/-- The baseline is the leading progress of the settled candidates; the watermark stands in when
there are none. -/
theorem baseline_spec (d : SchedulingLedger) (pool : List WeightedCredential) :
    IsGreatest (d.settledProgress pool) (d.baseline pool) ∨
      d.settledProgress pool = ∅ ∧ d.baseline pool = d.watermark := by
  unfold baseline
  generalize hfold : pool.foldl _ (d.watermark, false) = best
  suffices best.2 = true ∧ IsGreatest (d.settledProgress pool) best.1 ∨
      best.2 = false ∧ d.settledProgress pool = ∅ ∧ best.1 = d.watermark by tauto
  subst hfold
  induction pool using reverseRecOn with
  | nil => simp [settledProgress]
  | append_singleton pool c ih =>
    rw [foldl_append, foldl_cons, foldl_nil]
    generalize pool.foldl _ (d.watermark, false) = best at ih ⊢
    have hmem : ∀ p, p ∈ d.settledProgress (pool ++ [c]) ↔ _ := fun p => mem_settledProgress_concat
    simp only [IsGreatest, mem_upperBounds, Set.eq_empty_iff_forall_notMem, hmem,
      SchedulingProgress.compare_gt] at ih ⊢
    cases hc : d.members[c.id]? with
    | none | some m => grind

/-- No catching up after an absence. A call admits everybody it may at the larger of its own
progress and one baseline, which no settled candidate exceeds; it touches nobody else before it
charges the selected credential. -/
theorem no_catch_up (d : SchedulingLedger) (snapshot : Option ConfigSnapshot)
    (candidates : List WeightedCredential) (preferred : Nat) :
    let pool := d.eligible candidates
    let admitted := d.admitEligible snapshot pool
    let result := d.selectCredential snapshot candidates preferred
    (¬ d.Proceeds candidates → result = (d, .ok none)) ∧
    (d.Proceeds candidates →
      (∀ id : Nat, (∀ info, result.2 = .ok (some info) → info.id ≠ id) →
        result.1.members[id]? = admitted.members[id]?) ∧
      (∀ info, result.2 = .ok (some info) → ∃ c ∈ pool, c.info = info ∧
        ∃ m, admitted.members[info.id]? = some m ∧
          (result.1.members[info.id]?).map (·.progress) = some (m.progress.advance c.weight).1)) ∧
    ∀ (id : Nat) (m : SchedulingMember), d.members[id]? = some m →
      (id ∈ pool.map (·.id) ∧ d.admits snapshot m = true →
        ∃ m', admitted.members[id]? = some m' ∧ m'.pending = false ∧
          m'.progress = max m.progress (d.baseline pool) ∧
          (∀ p ∈ d.settledProgress pool, p ≤ m'.progress) ∧
          (d.settledProgress pool = ∅ → d.watermark ≤ m'.progress)) ∧
      (¬ (id ∈ pool.map (·.id) ∧ d.admits snapshot m = true) →
        admitted.members[id]? = some m) := by
  intro pool admitted result
  refine ⟨fun h => selectCredential_idle snapshot preferred h, fun h => ?_, fun id m hm => ?_⟩
  · obtain ⟨hadmitted, hnone⟩ | ⟨chosen, m, next, hmem, -, hm, hnext, hcharged⟩ :=
      selectCredential_cases snapshot preferred h
    · exact ⟨fun _ _ => by rw [hadmitted], fun info hinfo => absurd hinfo (hnone info)⟩
    · change result = _ at hcharged
      refine ⟨fun id hother => ?_, fun info hinfo => ⟨chosen, hmem, ?_⟩⟩
      · have hne : chosen.id ≠ id := hother chosen.info (by rw [hcharged])
        simp [hcharged, charge, hne, admitted, pool]
      · obtain rfl : chosen.info = info := by simpa [hcharged] using hinfo
        have hid : chosen.info.id = chosen.id := rfl
        exact ⟨rfl, m, hm, by simp [hcharged, charge, hnext, hid]⟩
  · obtain ⟨members, heq, hlookup⟩ := d.admitEligible_eq snapshot pool
    have hafter : admitted.members[id]? = some (d.admitted snapshot pool id m) := by
      show (d.admitEligible snapshot pool).members[id]? = _
      rw [heq, hlookup, hm, Option.map_some]
    rw [hafter, SchedulingLedger.admitted]
    refine ⟨fun hadmit => ⟨_, rfl, ?_⟩, fun hleft => by rw [if_neg hleft]⟩
    rw [if_pos hadmit, admitAt_progress]
    refine ⟨rfl, rfl, fun p hp => ?_, fun hempty => ?_⟩
    · obtain hgreatest | ⟨hempty, -⟩ := d.baseline_spec pool
      · exact le_max_of_le_right (hgreatest.2 hp)
      · simp [hempty] at hp
    · obtain hgreatest | ⟨-, hwatermark⟩ := d.baseline_spec pool
      · exact absurd hgreatest.1 (by simp [hempty])
      · exact le_max_of_le_right hwatermark.ge

end SchedulingLedger
end ApiLoad.Scheduling
