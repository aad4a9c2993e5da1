import ApiLoad.Dialect.AnthropicMetering

/-!
# Compaction rounds

What a stream charges for the rounds in which the provider has compacted the conversation: nothing
if one of them cannot be read, and the sum of their counts otherwise.
-/
namespace ApiLoad.Dialect
open Foundation Text Pricing Usage Tokens Json Option

variable {object : Object} {field : String} {left right result tokens : Tokens}
  {diagnostics : Diagnostics}

/-! ## Sums -/

def plus (left right : Tokens) : Tokens where
  uncachedInput := left.uncachedInput + right.uncachedInput
  cacheRead := left.cacheRead + right.cacheRead
  cacheWrite5M := left.cacheWrite5M + right.cacheWrite5M
  cacheWrite1H := left.cacheWrite1H + right.cacheWrite1H
  cacheWriteUnknown := left.cacheWriteUnknown + right.cacheWriteUnknown
  output := left.output + right.output

theorem plus_nonneg (hleft : nonneg left) (hright : nonneg right) : nonneg (plus left right) := by
  unfold nonneg at *
  dsimp only [plus]
  omega

theorem sum_plus (left right : Tokens) :
    sum (plus left right) = sum left + sum right := by
  unfold sum
  dsimp only [plus]
  omega

theorem sum_nonneg (h : nonneg t) : 0 ≤ sum t := by
  unfold nonneg at h
  unfold sum
  omega

theorem plus_eq_left_iff : plus left right = left ↔ right = noTokens := by
  constructor
  · intro h
    cases left
    cases right
    simp only [plus, noTokens, mk.injEq] at h ⊢
    omega
  · rintro rfl
    simp [plus, noTokens]

theorem addAnthropicUsageTokens_eq (hleft : nonneg left) (hright : nonneg right)
    (h : sum left + sum right ≤ maxInt64) :
    addAnthropicUsageTokens left right = some (plus left right) := by
  have htotal := checkedTotal_eq (plus_nonneg hleft hright) (sum_plus left right ▸ h)
  obtain ⟨l1, l2, l3, l4, l5, l6⟩ := hleft
  obtain ⟨r1, r2, r3, r4, r5, r6⟩ := hright
  unfold sum at h
  unfold addAnthropicUsageTokens
  rw [checkedAdd_eq l1 r1 (by omega), checkedAdd_eq l2 r2 (by omega),
    checkedAdd_eq l3 r3 (by omega),
    checkedAdd_eq l4 r4 (by omega), checkedAdd_eq l5 r5 (by omega), checkedAdd_eq l6 r6 (by omega)]
  simp only [bind_eq_bind, bind_some]
  unfold plus at htotal
  rw [htotal]
  rfl

theorem Counted.countSum_nonneg (h : Counted object) : 0 ≤ countSum object :=
  (sum_nonneg h.metered_nonneg).trans h.metered_le

theorem sum_eq_zero_iff (h : nonneg tokens) : sum tokens = 0 ↔ tokens = noTokens := by
  unfold nonneg at h
  unfold sum
  constructor
  · intro zero
    cases tokens
    simp only [noTokens, mk.injEq] at *
    omega
  · rintro rfl
    rfl

/-! ## Rounds that can be read -/

/-- Nothing in the diagnostics of a round stands in the way of charging it. -/
def clean (d : Diagnostics) : Bool := usageIntegerUsable d && !d.has .missingRequiredField

@[simp] theorem clean_merge (d other : Diagnostics) :
    clean (d.merge other) = (clean d && clean other) := by
  simp only [clean, usageIntegerUsable, Diagnostics.has, Diagnostics.merge, Finset.mem_union]
  grind

theorem clean_add (h : code ≠ .invalidNumber ∧ code ≠ .negativeValue ∧ code ≠ .missingRequiredField)
    (d : Diagnostics) : clean (d.add code) = clean d := by
  simp [clean, usageIntegerUsable, Diagnostics.has, Diagnostics.add, h.1.symm, h.2.1.symm,
    h.2.2.symm]

theorem clean_setTotalDelta (d : Diagnostics) (delta : Int) :
    clean (d.setTotalDelta delta) = clean d :=
  clean_add (by decide) d

mutual

/-- A detail that has nothing in it but counts. -/
def figures : Value → Bool
  | .null => true
  | .num text => (parseInt text).any (0 ≤ ·)
  | .obj members => memberFigures members
  | .arr items => itemFigures items
  | _ => false

def memberFigures : List (String × Value) → Bool
  | [] => true
  | (name, value) :: rest => (rest.any (·.1 = name) || figures value) && memberFigures rest

def itemFigures : List Value → Bool
  | [] => true
  | value :: rest => figures value && itemFigures rest

end

mutual

theorem clean_anthropicJSONValueNonZero :
    ∀ value, clean (anthropicJSONValueNonZero value).2 = figures value
  | .null => rfl
  | .bool _ | .str _ => rfl
  | .num text => by
    unfold anthropicJSONValueNonZero figures
    cases parseInt text with
    | none => rfl
    | some n =>
      by_cases negative : n < 0
      · simp [negative, Int.not_le.mpr negative]
        rfl
      · simp [negative, Int.not_lt.mp negative]
        rfl
  | .obj members => by
    rw [anthropicJSONValueNonZero, figures]
    exact clean_anyMemberNonZero members
  | .arr items => by
    rw [anthropicJSONValueNonZero, figures]
    exact clean_anyItemNonZero items

theorem clean_anyMemberNonZero :
    ∀ members, clean (anyMemberNonZero members).2 = memberFigures members
  | [] => rfl
  | (name, value) :: rest => by
    rw [anyMemberNonZero, memberFigures, ← clean_anthropicJSONValueNonZero value,
      ← clean_anyMemberNonZero rest]
    split
    · simp [*]
    · simp [*]

theorem clean_anyItemNonZero : ∀ items, clean (anyItemNonZero items).2 = itemFigures items
  | [] => rfl
  | value :: rest => by
    rw [anyItemNonZero, itemFigures, ← clean_anthropicJSONValueNonZero value,
      ← clean_anyItemNonZero rest]
    exact clean_merge ..

end

/-- A round has an input and an output count, and its details are objects and counts. -/
structure Readable (iteration : Object) : Prop where
  input : (count iteration "input_tokens").isSome = true
  output : (count iteration "output_tokens").isSome = true
  cacheCreation : ∀ value, presentMember iteration "cache_creation" = some value →
    ∃ members, value = .obj members
  serverToolUse : ∀ value, member iteration "server_tool_use" = some value → figures value = true

theorem Countable.clean (h : Countable object field) (required : Bool) :
    clean (usageInteger object field required).2 =
      (!required || (count object field).isSome) := by
  obtain ⟨absent, read⟩ | ⟨n, -, present, read⟩ := h.cases
  · rw [read, absent]
    cases required <;> decide
  · rw [read, present]
    cases required <;> rfl

theorem clean_usageOptionalObject : clean (usageOptionalObject object field).2 = true ↔
    ∀ value, presentMember object field = some value → ∃ members, value = .obj members := by
  unfold usageOptionalObject
  cases presentMember object field with
  | none => simp [clean, usageIntegerUsable, Diagnostics.has]
  | some value =>
    cases value with
    | obj members => simp [decodeJSONObject, clean, usageIntegerUsable, Diagnostics.has]
    | null | bool | num | str | arr =>
      simp [decodeJSONObject, clean, usageIntegerUsable, Diagnostics.has, Diagnostics.single,
        Diagnostics.add]

theorem clean_unsupported : clean (anthropicUnsupportedBillableDetailDiagnostics object) = true ↔
    ∀ value, member object "server_tool_use" = some value → figures value = true := by
  unfold anthropicUnsupportedBillableDetailDiagnostics
  cases member object "server_tool_use" with
  | none => simp [clean, usageIntegerUsable, Diagnostics.has]
  | some value =>
    have read := clean_anthropicJSONValueNonZero value
    dsimp only
    split
    · rw [clean_add (by decide), read]
      simp
    · simp [read]

theorem clean_cacheWriteDetail (write5M : Countable detail "ephemeral_5m_input_tokens")
    (write1H : Countable detail "ephemeral_1h_input_tokens")
    (le : (count detail "ephemeral_5m_input_tokens").getD 0 +
      (count detail "ephemeral_1h_input_tokens").getD 0 ≤ maxInt64)
    (aggregate : Option Int) (patch : Patch) :
    clean (cacheWriteDetail detail aggregate patch).diagnostics = clean patch.diagnostics := by
  have unaffected : clean ((patch.diagnostics.merge
      (usageInteger detail "ephemeral_5m_input_tokens" false).2).merge
      (usageInteger detail "ephemeral_1h_input_tokens" false).2) = clean patch.diagnostics := by
    simp [write5M.clean, write1H.clean]
  unfold cacheWriteDetail
  dsimp only
  split
  · exact unaffected
  split
  · exact unaffected
  rw [(write5M.read false).1, (write1H.read false).1,
    checkedAdd_eq write5M.nonneg write1H.nonneg le]
  dsimp only
  split
  · rw [clean_setTotalDelta]
    exact unaffected
  · exact unaffected

section

variable (h : Counted object) (hsum : countSum object ≤ maxInt64)
include h hsum

theorem Counted.clean_cacheWrites (patch : Patch) :
    clean (Dialect.cacheWrites object patch).diagnostics =
      (clean patch.diagnostics && clean (usageOptionalObject object "cache_creation").2) := by
  unfold Dialect.cacheWrites
  cases hdetail : cacheCreation object with
  | some detail =>
    have hread : (usageOptionalObject object "cache_creation").1 = some detail := hdetail
    have le : (count detail "ephemeral_5m_input_tokens").getD 0 +
        (count detail "ephemeral_1h_input_tokens").getD 0 ≤ maxInt64 := by
      have := h.input.nonneg
      have := h.cacheRead.nonneg
      have := h.aggregate.nonneg
      have := h.output.nonneg
      simp only [countSum, written1H, hdetail, bind_some] at hsum
      omega
    simp only [hread]
    rw [clean_cacheWriteDetail (h.write5M detail hdetail) (h.write1H detail hdetail) le]
    simp [h.aggregate.clean]
  | none =>
    have hread : (usageOptionalObject object "cache_creation").1 = none := hdetail
    simp only [hread, (h.aggregate.read false).2, if_true]
    split
    · rw [clean_add (by decide)]
      simp [h.aggregate.clean]
    · simp [h.aggregate.clean]

/-- The diagnostics of a round let it be charged exactly if it can be read. -/
theorem Counted.clean_iff (final : Bool) :
    clean (anthropicUsagePatch object true final).1.diagnostics = true ↔ Readable object := by
  have parts : clean (anthropicUsagePatch object true final).1.diagnostics =
      ((count object "input_tokens").isSome &&
        clean (usageOptionalObject object "cache_creation").2 &&
        (count object "output_tokens").isSome &&
        clean (anthropicUnsupportedBillableDetailDiagnostics object)) := by
    unfold anthropicUsagePatch
    simp [h.clean_cacheWrites hsum, h.input.clean, h.cacheRead.clean, h.output.clean]
  rw [parts]
  simp only [Bool.and_eq_true, clean_usageOptionalObject, clean_unsupported]
  exact ⟨fun ⟨⟨⟨input, creation⟩, output⟩, tools⟩ => ⟨input, output, creation, tools⟩,
    fun ⟨input, output, creation, tools⟩ => ⟨⟨⟨input, creation⟩, output⟩, tools⟩⟩

end

/-! ## The sum of the rounds -/

def isCompaction (iteration : Object) : Bool :=
  match member iteration "type" with
  | some (.str "compaction") => true
  | _ => false

theorem isCompaction_iff :
    isCompaction iteration = true ↔ member iteration "type" = some (.str "compaction") := by
  unfold isCompaction
  split
  · simp [*]
  · simpa using by assumption

/-- One round: it is passed over, it cannot be read, or its counts are added. -/
theorem sumCompaction_cons (h : Counted iteration) (htokens : nonneg tokens)
    (hsum : sum tokens + countSum iteration ≤ maxInt64) :
    (isCompaction iteration = false ∧ sumCompaction tokens diagnostics (iteration :: rest) =
        sumCompaction tokens diagnostics rest) ∨
      (isCompaction iteration = true ∧ ¬ Readable iteration ∧
        (sumCompaction tokens diagnostics (iteration :: rest)).1 = none) ∨
      isCompaction iteration = true ∧ Readable iteration ∧ ∃ diagnostics',
        sumCompaction tokens diagnostics (iteration :: rest) =
          sumCompaction (plus tokens (meteredTokens iteration)) diagnostics' rest := by
  have hround : countSum iteration ≤ maxInt64 := by
    have := sum_nonneg htokens
    omega
  cases compacts : isCompaction iteration with
  | false =>
    refine .inl ⟨rfl, ?_⟩
    rw [sumCompaction]
    split
    · rename_i named
      simp [isCompaction, named] at compacts
    · rfl
  | true =>
  have named := isCompaction_iff.mp compacts
  have readable := h.clean_iff hround false
  simp only [sumCompaction, named]
  split
  · rename_i refused
    refine .inr (.inl ⟨trivial, fun can => ?_, rfl⟩)
    have := readable.mpr can
    simp only [clean, Bool.and_eq_true, Bool.not_eq_true'] at this
    simp [this.1, this.2] at refused
  rename_i accepted
  have can : Readable iteration := readable.mp (by simpa [clean] using accepted)
  obtain ⟨hok, hopen, hpatched⟩ := (h.patches false).mergePatch (a := {}) h
    (extends_noTokens iteration) (.inr rfl) rfl hround
  refine .inr (.inr ⟨trivial, can, ?_⟩)
  cases hmerge : ({} : Accumulator).mergePatch (anthropicUsagePatch iteration true false).1 with
  | mk accumulator outcome =>
    rw [hmerge] at hok hopen hpatched
    cases hok
    have counted : (accumulator.finalize true).2.1.tokens = meteredTokens iteration :=
      (finalize_tokens hopen).1.trans hpatched
    have metered := h.metered_le
    simp only [counted, addAnthropicUsageTokens_eq htokens h.metered_nonneg (by omega)]
    exact ⟨_, rfl⟩

/-- The loop gives up at a round that it cannot read, and adds the counts of all rounds
otherwise. -/
theorem sumCompaction_spec (h : ∀ iteration ∈ rounds, Counted iteration) (htokens : nonneg tokens)
    (hsum : sum tokens + (rounds.map countSum).sum ≤ maxInt64) :
    ((∃ iteration ∈ rounds, isCompaction iteration = true ∧ ¬ Readable iteration) ∧
        (sumCompaction tokens diagnostics rounds).1 = none) ∨
      (∀ iteration ∈ rounds, isCompaction iteration = true → Readable iteration) ∧
        ∃ result, (sumCompaction tokens diagnostics rounds).1 = some result ∧ nonneg result ∧
          sum result = sum tokens +
            ((rounds.filter isCompaction).map
              fun iteration => sum (meteredTokens iteration)).sum := by
  induction rounds generalizing tokens diagnostics with
  | nil => exact .inr ⟨nofun, tokens, rfl, htokens, by simp⟩
  | cons iteration rest ih =>
    obtain ⟨counted, others⟩ := List.forall_mem_cons.mp h
    have rest_nonneg : 0 ≤ (rest.map countSum).sum :=
      List.sum_nonneg fun n hn => by
        obtain ⟨other, hin, rfl⟩ := List.mem_map.mp hn
        exact (others other hin).countSum_nonneg
    have round_nonneg := counted.countSum_nonneg
    have metered := counted.metered_le
    rw [List.map_cons, List.sum_cons] at hsum
    obtain ⟨passed, same⟩ | ⟨compacts, unreadable, gaveUp⟩ |
        ⟨compacts, readable, diagnostics', added⟩ :=
      @sumCompaction_cons tokens diagnostics iteration rest counted htokens (by omega)
    · rw [same]
      obtain ⟨⟨other, hin, bad⟩, gaveUp⟩ | ⟨all, result, hresult, hnonneg, total⟩ :=
        ih others htokens (by omega)
      · exact .inl ⟨⟨other, List.mem_cons_of_mem _ hin, bad⟩, gaveUp⟩
      · refine .inr
          ⟨List.forall_mem_cons.mpr ⟨fun compacts => ?_, all⟩, result, hresult, hnonneg, ?_⟩
        · cases passed.symm.trans compacts
        · rw [total, List.filter_cons_of_neg (by simp [passed])]
    · exact .inl ⟨⟨iteration, List.mem_cons_self, compacts, unreadable⟩, gaveUp⟩
    · rw [added]
      obtain ⟨⟨other, hin, bad⟩, gaveUp⟩ | ⟨all, result, hresult, hnonneg, total⟩ :=
        ih others (plus_nonneg htokens counted.metered_nonneg) (by rw [sum_plus]; omega)
      · exact .inl ⟨⟨other, List.mem_cons_of_mem _ hin, bad⟩, gaveUp⟩
      · refine .inr
          ⟨List.forall_mem_cons.mpr ⟨fun _ => readable, all⟩, result, hresult, hnonneg, ?_⟩
        rw [total, List.filter_cons_of_pos compacts, sum_plus, List.map_cons, List.sum_cons]
        omega

/-- What the rounds are charged in all: not more than all their counts, and nothing exactly if none
has counts. -/
theorem sum_charges {rounds : List Object} (h : ∀ iteration ∈ rounds, Counted iteration) :
    let charges :=
      ((rounds.filter isCompaction).map fun iteration => sum (meteredTokens iteration)).sum
    0 ≤ charges ∧ charges ≤ (rounds.map countSum).sum ∧
      (charges = 0 ↔
        ∀ iteration ∈ rounds, isCompaction iteration = true →
          meteredTokens iteration = noTokens) := by
  induction rounds with
  | nil => simp
  | cons iteration rest ih =>
    obtain ⟨counted, others⟩ := List.forall_mem_cons.mp h
    obtain ⟨nonneg, le, zero⟩ := ih others
    have metered := counted.metered_le
    have charge_nonneg := sum_nonneg counted.metered_nonneg
    rw [List.map_cons, List.sum_cons, List.forall_mem_cons]
    cases compacts : isCompaction iteration with
    | false =>
      rw [List.filter_cons_of_neg (by simp [compacts])]
      exact ⟨nonneg, by omega, by simp [zero]⟩
    | true =>
      rw [List.filter_cons_of_pos compacts, List.map_cons, List.sum_cons, ← zero,
        ← sum_eq_zero_iff counted.metered_nonneg]
      exact ⟨by omega, by omega, by simp only [true_imp_iff]; omega⟩

/-! ## Usage objects -/

/-- The counts of the compaction rounds of an object; none, if they cannot be used. -/
def compactionTokens (object : Object) : Tokens := (compactionSnapshot object).1.getD noTokens

def iterations (object : Object) : List Object :=
  match presentMember object "iterations" with
  | some (.arr items) => (items.mapM decodeIteration).getD []
  | _ => []

/-- A usage object whose counts, those of its rounds included, are counts that can be summed up,
with an input and an output count. -/
structure Accountable (object : Object) : Prop where
  counted : Counted object
  input : (count object "input_tokens").isSome = true
  output : (count object "output_tokens").isSome = true
  rounds : ∀ iteration ∈ iterations object, Counted iteration
  sum_le : countSum object + ((iterations object).map countSum).sum ≤ maxInt64

instance (object : Object) : Decidable (Accountable object) :=
  decidable_of_iff (Counted object ∧ (count object "input_tokens").isSome = true ∧
      (count object "output_tokens").isSome = true ∧
      (∀ iteration ∈ iterations object, Counted iteration) ∧
      countSum object + ((iterations object).map countSum).sum ≤ maxInt64)
    ⟨fun ⟨h1, h2, h3, h4, h5⟩ => ⟨h1, h2, h3, h4, h5⟩,
      fun h => ⟨h.counted, h.input, h.output, h.rounds, h.sum_le⟩⟩

section

variable {object : Object} (h : Accountable object)
include h

theorem Accountable.rounds_nonneg : ∀ n ∈ (iterations object).map countSum, 0 ≤ n := by
  intro n hn
  obtain ⟨iteration, hin, rfl⟩ := List.mem_map.mp hn
  exact (h.rounds iteration hin).countSum_nonneg

theorem Accountable.countSum_le : countSum object ≤ maxInt64 := by
  have := List.sum_nonneg h.rounds_nonneg
  have := h.sum_le
  omega

/-- The rounds of an object are charged: all compaction rounds can be read, and one has counts. -/
def Charged (object : Object) : Prop :=
  (∀ iteration ∈ iterations object, isCompaction iteration = true → Readable iteration) ∧
    ∃ iteration ∈ iterations object, isCompaction iteration = true ∧
      meteredTokens iteration ≠ noTokens

omit h in
theorem compactionTokens_eq (object : Object) :
    compactionTokens object = (sumCompaction noTokens {} (iterations object)).1.getD noTokens := by
  unfold compactionTokens compactionSnapshot iterations
  cases presentMember object "iterations" with
  | none => rfl
  | some value =>
    cases value with
    | arr items =>
      dsimp only
      cases items.mapM decodeIteration <;> rfl
    | null | bool | num | str | obj => rfl

theorem Accountable.compactionTokens_spec :
    nonneg (compactionTokens object) ∧
      sum (compactionTokens object) ≤ ((iterations object).map countSum).sum ∧
      (compactionTokens object = noTokens ↔ ¬ Charged object) := by
  have total := List.sum_nonneg h.rounds_nonneg
  have zero : nonneg noTokens ∧ sum noTokens = 0 :=
    ⟨⟨le_rfl, le_rfl, le_rfl, le_rfl, le_rfl, le_rfl⟩, rfl⟩
  have object_nonneg := h.counted.countSum_nonneg
  have object_le := h.sum_le
  rw [compactionTokens_eq]
  obtain ⟨⟨iteration, hin, compacts, unreadable⟩, gaveUp⟩ |
    ⟨readable, result, hresult, hnonneg, hsum⟩ :=
    @sumCompaction_spec noTokens {} (iterations object) h.rounds zero.1 (by omega)
  · rw [gaveUp]
    exact ⟨zero.1, total, fun _ charged => unreadable (charged.1 iteration hin compacts),
      fun _ => rfl⟩
  rw [hresult]
  obtain ⟨-, le, none⟩ := sum_charges h.rounds
  refine ⟨hnonneg, by dsimp only [getD_some]; omega, ?_⟩
  rw [getD_some, ← sum_eq_zero_iff hnonneg, hsum, zero.2, zero_add, none]
  constructor
  · rintro uncharged ⟨-, iteration, hin, compacts, counts⟩
    exact counts (uncharged iteration hin compacts)
  · intro uncharged iteration hin compacts
    by_contra counts
    exact uncharged ⟨readable, iteration, hin, compacts, counts⟩

end

end ApiLoad.Dialect
