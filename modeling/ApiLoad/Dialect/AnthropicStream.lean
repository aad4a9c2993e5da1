import ApiLoad.Dialect.AnthropicCompaction

/-!
# Whole and streamed answers of Anthropic

A stream of events is metered by the counts of its usage object and, on top of them, by those of
its compaction rounds, which a whole answer leaves out.
-/
namespace ApiLoad.Dialect
open Foundation Text Pricing Usage Tokens Json Option

/-! ## Reports of a stream -/

abbrev reported (object : Object) (requireInput : Bool) : AnthropicCumulativeUsage :=
  (anthropicCumulativeUsageFromObject object requireInput false).1

section Reported

variable {object : Object} (h : Counted object) (requireInput : Bool)
include h

theorem Counted.usable_write5M :
    usable ((usageOptionalObject object "cache_creation").1.elim (none, {})
      (usageInteger · "ephemeral_5m_input_tokens" false)) =
      (cacheCreation object).bind (count · "ephemeral_5m_input_tokens") := by
  show usable ((cacheCreation object).elim _ _) = _
  cases hdetail : cacheCreation object with
  | none => rfl
  | some detail => exact (h.write5M detail hdetail).usable false

theorem Counted.usable_write1H :
    usable ((usageOptionalObject object "cache_creation").1.elim (none, {})
      (usageInteger · "ephemeral_1h_input_tokens" false)) = written1H object := by
  show usable ((cacheCreation object).elim _ _) = _
  unfold written1H
  cases hdetail : cacheCreation object with
  | none => rfl
  | some detail => exact (h.write1H detail hdetail).usable false

/-- A report in terms of the counts of its object. -/
theorem Counted.reported_eq : reported object requireInput = {
    tokens := {
      uncachedInput := (count object "input_tokens").getD 0
      cacheRead := (count object "cache_read_input_tokens").getD 0
      cacheWrite5M := ((cacheCreation object).bind (count · "ephemeral_5m_input_tokens")).getD 0
      cacheWrite1H := (written1H object).getD 0
      cacheWriteUnknown := 0
      output := (count object "output_tokens").getD 0 }
    present := reportedFields [(.uncachedInput, count object "input_tokens"),
      (.cacheRead, count object "cache_read_input_tokens"),
      (.cacheWrite5M, (cacheCreation object).bind (count · "ephemeral_5m_input_tokens")),
      (.cacheWrite1H, written1H object), (.output, count object "output_tokens")]
    detailPresent := reportedFields [
      (.cacheWrite5M, (cacheCreation object).bind (count · "ephemeral_5m_input_tokens")),
      (.cacheWrite1H, written1H object)]
    detailReported := usageFieldPresent object "cache_creation"
    detailObjectSeen := (cacheCreation object).isSome
    aggregate := (count object "cache_creation_input_tokens").getD 0
    aggregatePresent := (count object "cache_creation_input_tokens").isSome } := by
  unfold reported anthropicCumulativeUsageFromObject
  simp only [h.usable_write5M, h.usable_write1H, h.input.usable, h.cacheRead.usable,
    h.aggregate.usable, h.output.usable]
  rfl

end Reported

theorem mem_reportedFields {object : Object} {field : AnthropicUsageField} :
    field ∈ reportedFields [(.uncachedInput, count object "input_tokens"),
      (.cacheRead, count object "cache_read_input_tokens"),
      (.cacheWrite5M, (cacheCreation object).bind (count · "ephemeral_5m_input_tokens")),
      (.cacheWrite1H, written1H object), (.output, count object "output_tokens")] ↔
    match field with
    | .uncachedInput => (count object "input_tokens").isSome
    | .cacheRead => (count object "cache_read_input_tokens").isSome
    | .cacheWrite5M => ((cacheCreation object).bind (count · "ephemeral_5m_input_tokens")).isSome
    | .cacheWrite1H => (written1H object).isSome
    | .output => (count object "output_tokens").isSome := by
  cases field <;> simp [reportedFields]

/-- A merge of a count that may be there; the output count does not go down. -/
theorem mergeField_eq (field : AnthropicUsageField) (present : Finset AnthropicUsageField)
    (value : Option Int) (state : FieldMerge) (hpresent : field ∈ present ↔ value.isSome = true)
    (hgrows : field = .output → field ∉ state.present) :
    (mergeAnthropicCumulativeField field present (value.getD 0) state).patch =
        value.or state.patch ∧
      ∀ other, other ∈ (mergeAnthropicCumulativeField field present (value.getD 0) state).present ↔
        other ∈ state.present ∨ other = field ∧ value.isSome = true := by
  unfold mergeAnthropicCumulativeField
  cases value with
  | none =>
    have : field ∉ present := by simpa using hpresent
    simp [this]
  | some n =>
    have hin : field ∈ present := by simpa using hpresent
    rw [if_neg (not_not.mpr hin), if_neg fun ⟨hfield, hold, _⟩ => hgrows hfield hold]
    simp [or_comm]

/-- What the rest of the merge needs to know of the trusted counts. -/
structure Compatible (trusted : AnthropicCumulativeUsage) (cacheWriteFallback : Bool)
    (object : Object) : Prop where
  reported : trusted.detailReported = true → usageFieldPresent object "cache_creation" = true
  aggregate : trusted.aggregatePresent = true →
    (count object "cache_creation_input_tokens").isSome = true
  fallback : cacheWriteFallback = true → usageFieldPresent object "cache_creation" = false

section Merge

variable {object : Object} (h : Counted object) (requireInput : Bool) {m : Merging}
include h

section

variable (hcompatible : Compatible m.trusted m.cacheWriteFallback object)
include hcompatible

theorem Counted.mergeInputs (hempty : m.patch = {}) :
    let m' := mergeInputs (reported object requireInput) m
    Compatible m'.trusted m'.cacheWriteFallback object ∧
      (.output ∈ m'.trusted.present ↔ .output ∈ m.trusted.present) ∧
      m'.patch = ({
        uncachedInput := count object "input_tokens"
        cacheRead := count object "cache_read_input_tokens" } : Patch) := by
  rw [h.reported_eq requireInput]
  have hinput := fun state => mergeField_eq .uncachedInput _ (count object "input_tokens")
    state (@mem_reportedFields object .uncachedInput) nofun
  have hcacheRead :=
    fun state => mergeField_eq .cacheRead _ (count object "cache_read_input_tokens")
    state (@mem_reportedFields object .cacheRead) nofun
  unfold Dialect.mergeInputs
  refine ⟨⟨hcompatible.reported, hcompatible.aggregate, hcompatible.fallback⟩, ?_, ?_⟩
  · simp [(hcacheRead _).2, (hinput _).2]
  · simp [(hcacheRead _).1, (hinput _).1, hempty]

theorem Counted.revokeFallback : revokeFallback (reported object requireInput) m = m := by
  rw [h.reported_eq requireInput]
  unfold Dialect.revokeFallback
  rw [if_neg]
  simp only [Bool.and_eq_true, not_and, Bool.not_eq_true, isSome_eq_false_iff,
    isNone_iff_eq_none]
  intro hfallback
  cases hdetail : cacheCreation object with
  | none => rfl
  | some detail =>
    have := usageFieldPresent_of_cacheCreation hdetail
    rw [hcompatible.fallback hfallback] at this
    cases this

theorem Counted.mergeDetails (h5M : m.patch.cacheWrite5M = none)
    (h1H : m.patch.cacheWrite1H = none) :
    let m' := mergeDetails (reported object requireInput) m
    Compatible m'.trusted m'.cacheWriteFallback object ∧
      m'.trusted.detailReported = usageFieldPresent object "cache_creation" ∧
      (.output ∈ m'.trusted.present ↔ .output ∈ m.trusted.present) ∧
      m'.patch = { m.patch with
        cacheWrite5M := (cacheCreation object).bind (count · "ephemeral_5m_input_tokens")
        cacheWrite1H := written1H object } := by
  rw [h.reported_eq requireInput]
  have hwrite5M := fun state => mergeField_eq .cacheWrite5M _
    ((cacheCreation object).bind (count · "ephemeral_5m_input_tokens"))
    state (@mem_reportedFields object .cacheWrite5M) nofun
  have hwrite1H := fun state => mergeField_eq .cacheWrite1H _ (written1H object)
    state (@mem_reportedFields object .cacheWrite1H) nofun
  have hreported : (m.trusted.detailReported || usageFieldPresent object "cache_creation") =
      usageFieldPresent object "cache_creation" := by
    cases hold : m.trusted.detailReported with
    | false => rfl
    | true => simp [hcompatible.reported hold]
  unfold Dialect.mergeDetails
  refine ⟨⟨?_, hcompatible.aggregate, hcompatible.fallback⟩, hreported, ?_, ?_⟩
  · intro hnew
    exact hreported ▸ hnew
  · simp [(hwrite1H _).2, (hwrite5M _).2]
  · simp [(hwrite1H _).1, (hwrite5M _).1, h5M, h1H]

theorem Counted.mergeAggregate
    (hreported : m.trusted.detailReported = usageFieldPresent object "cache_creation")
    (h5M : m.patch.cacheWrite5M =
      (cacheCreation object).bind (count · "ephemeral_5m_input_tokens")) :
    let m' := mergeAggregate (reported object requireInput) m
    Compatible m'.trusted m'.cacheWriteFallback object ∧
      (.output ∈ m'.trusted.present ↔ .output ∈ m.trusted.present) ∧
      m'.patch = { m.patch with cacheWrite5M := written5M object } := by
  rw [h.reported_eq requireInput]
  unfold Dialect.mergeAggregate
  cases hcount : count object "cache_creation_input_tokens" with
  | none =>
    have habsent : m.trusted.aggregatePresent = false := by
      by_contra hpresent
      have := hcompatible.aggregate (by simpa using hpresent)
      rw [hcount] at this
      cases this
    have hkept : written5M object = m.patch.cacheWrite5M := by
      cases hseen : usageFieldPresent object "cache_creation" with
      | true => rw [written5M_of_reported hseen, h5M]
      | false =>
        rw [written5M_of_unreported hseen, h5M, cacheCreation_of_unreported hseen, hcount]; rfl
    simp [habsent, hkept, hcompatible]
  | some n =>
    have hsome : (count object "cache_creation_input_tokens").isSome = true := by rw [hcount]; rfl
    simp only [isSome_some, if_true, Bool.not_true, Bool.false_eq_true, if_false, hreported]
    cases hseen : usageFieldPresent object "cache_creation" with
    | false =>
      rw [written5M_of_unreported hseen, hcount]
      simp only [Bool.not_false, if_true]
      exact ⟨⟨by simp, fun _ => hsome, fun _ => hseen⟩, by simp, rfl⟩
    | true =>
      have hkept : written5M object = m.patch.cacheWrite5M := by
        rw [written5M_of_reported hseen, h5M]
      simp only [Bool.not_true, Bool.false_eq_true, if_false, hkept]
      split
      · exact ⟨⟨fun _ => hseen, fun _ => hsome, hcompatible.fallback⟩, Iff.rfl, rfl⟩
      · exact ⟨⟨fun _ => hseen, fun _ => hsome, hcompatible.fallback⟩, Iff.rfl, rfl⟩

theorem Counted.mergeOutput (hfresh : .output ∉ m.trusted.present) (hnone : m.patch.output = none) :
    let m' := mergeOutput (reported object requireInput) m
    Compatible m'.trusted m'.cacheWriteFallback object ∧
      (.output ∈ m'.trusted.present ↔ (count object "output_tokens").isSome = true) ∧
      m'.patch = { m.patch with output := count object "output_tokens" } := by
  rw [h.reported_eq requireInput]
  have houtput := mergeField_eq .output _ (count object "output_tokens")
    ⟨m.trusted.present, m.trusted.tokens.output, m.patch.output, m.diagnostics⟩
    (@mem_reportedFields object .output) fun _ => hfresh
  unfold Dialect.mergeOutput
  refine ⟨⟨hcompatible.reported, hcompatible.aggregate, hcompatible.fallback⟩, ?_, ?_⟩
  · simp [houtput.2, hfresh]
  · dsimp only
    rw [houtput.1, hnone, or_none]

end

end Merge

/-! ## Events -/

variable {e : UsageStreamExtractor}

/-- An extractor that a report of the object brings to the counts of the object. -/
structure Awaits (e : UsageStreamExtractor) (object : Object) : Prop where
  compatible : Compatible e.trusted e.cacheWriteFallback object
  fresh : .output ∉ e.trusted.present
  extends_tokens : Extends e.accumulator.tokens object
  unfinished : e.accumulator.finalized = false

/-- An extractor at the counts of the object. -/
structure Follows (e : UsageStreamExtractor) (object : Object) : Prop where
  compatible : Compatible e.trusted e.cacheWriteFallback object
  output_mem : .output ∈ e.trusted.present ↔ (count object "output_tokens").isSome = true
  tokens_eq : e.accumulator.tokens = meteredTokens object
  unfinished : e.accumulator.finalized = false

theorem patches_of_eq {object : Object} {patch : Patch} (h : patch = {
      uncachedInput := count object "input_tokens"
      cacheRead := count object "cache_read_input_tokens"
      cacheWrite5M := written5M object
      cacheWrite1H := written1H object
      output := count object "output_tokens" }) :
    Patches patch object (count object "output_tokens") := by
  subst h
  exact ⟨rfl, rfl, rfl, .inl rfl, rfl, rfl⟩

variable {object start stop : Object} {field : String} {left right result tokens : Tokens}
  {diagnostics : Diagnostics}

theorem Awaits.mergeCumulative (he : Awaits e object) (h : Counted object)
    (hsum : countSum object ≤ maxInt64) (requireInput : Bool) (diagnostics : Diagnostics) :
    let e' := (e.mergeCumulative (reported object requireInput) diagnostics).1
    Follows e' object ∧ e'.compaction = e.compaction ∧ e'.validStart = e.validStart ∧
      e'.stopped = e.stopped := by
  obtain ⟨hcompatible₁, hfresh₁, hpatch₁⟩ := h.mergeInputs requireInput
    (m := ⟨e.trusted, e.cacheWriteFallback, {}, diagnostics⟩) he.compatible rfl
  obtain ⟨hcompatible₂, hreported₂, hfresh₂, hpatch₂⟩ := h.mergeDetails requireInput hcompatible₁
    (by rw [hpatch₁]) (by rw [hpatch₁])
  obtain ⟨hcompatible₃, hfresh₃, hpatch₃⟩ := h.mergeAggregate requireInput hcompatible₂ hreported₂
    (by rw [hpatch₂])
  obtain ⟨hcompatible, hpresent, hpatch⟩ := h.mergeOutput requireInput hcompatible₃
    (by rw [hfresh₃, hfresh₂, hfresh₁]; exact he.fresh) (by rw [hpatch₃, hpatch₂, hpatch₁])
  rw [hpatch₃, hpatch₂, hpatch₁] at hpatch
  dsimp only [UsageStreamExtractor.mergeCumulative, UsageStreamExtractor.mergePatch]
  rw [h.revokeFallback requireInput hcompatible₁]
  obtain ⟨-, hopen, htokens⟩ :=
    ((patches_of_eq hpatch).congr _).mergePatch h he.extends_tokens (.inr rfl)
    he.unfinished hsum
  exact ⟨⟨hcompatible, hpresent, htokens, hopen⟩, rfl, rfl, rfl⟩

/-! ## An object without its output count -/

def bare (object : Object) : Object := object.filter fun m => m.1 ≠ "output_tokens"

theorem presentMember_bare (h : field ≠ "output_tokens") :
    presentMember (bare object) field = presentMember object field := by
  have : member (bare object) field = member object field := by
    unfold member bare
    rw [List.filter_filter]
    congr 2
    refine List.filter_congr fun m _ => ?_
    by_cases hname : m.1 = field <;> simp [hname, h]
  rw [presentMember, this]
  rfl

theorem count_bare (h : field ≠ "output_tokens") :
    count (bare object) field = count object field := by
  rw [count, usageInteger, presentMember_bare h]
  rfl

section

variable (object : Object)

theorem presentMember_bare_output : presentMember (bare object) "output_tokens" = none := by
  have : member (bare object) "output_tokens" = none := by
    unfold member bare
    rw [List.filter_filter, List.filter_eq_nil_iff.mpr fun m _ => by simp]
    rfl
  rw [presentMember, this]

theorem count_bare_output : count (bare object) "output_tokens" = none := by
  rw [count, usageInteger, presentMember_bare_output]

theorem cacheCreation_bare : cacheCreation (bare object) = cacheCreation object := by
  rw [cacheCreation, usageOptionalObject, presentMember_bare (by decide)]
  rfl

theorem usageFieldPresent_bare :
    usageFieldPresent (bare object) "cache_creation" =
      usageFieldPresent object "cache_creation" := by
  rw [usageFieldPresent, presentMember_bare (by decide)]
  rfl

theorem compactionSnapshot_bare : compactionSnapshot (bare object) = compactionSnapshot object := by
  rw [compactionSnapshot, presentMember_bare (by decide)]
  rfl

theorem meteredTokens_bare :
    meteredTokens (bare object) = { meteredTokens object with output := 0 } := by
  unfold meteredTokens written5M written1H
  simp only [cacheCreation_bare, usageFieldPresent_bare, count_bare_output, getD_none]
  rw [count_bare (by decide), count_bare (by decide), count_bare (by decide)]

end

theorem Countable.bare (h : Countable object field) (hfield : field ≠ "output_tokens") :
    Countable (bare object) field := by
  intro value hvalue
  rw [presentMember_bare hfield] at hvalue
  exact h value hvalue

theorem Counted.bare (h : Counted object) : Counted (bare object) where
  input := h.input.bare (by decide)
  cacheRead := h.cacheRead.bare (by decide)
  aggregate := h.aggregate.bare (by decide)
  output value hvalue := by
    rw [presentMember_bare_output] at hvalue
    cases hvalue
  write5M detail hdetail := h.write5M detail (cacheCreation_bare object ▸ hdetail)
  write1H detail hdetail := h.write1H detail (cacheCreation_bare object ▸ hdetail)

theorem Counted.countSum_bare_le (h : Counted object) :
    countSum (Dialect.bare object) ≤ countSum object := by
  have := h.output.nonneg
  unfold countSum written1H
  rw [cacheCreation_bare, count_bare_output, count_bare (by decide), count_bare (by decide),
    count_bare (by decide)]
  simp only [getD_none]
  omega

/-- After the report without the output count, that with it is due. -/
theorem Follows.awaits (he : Follows e (bare object)) : Awaits e object := by
  have htokens := he.tokens_eq.trans (meteredTokens_bare object)
  refine ⟨⟨?_, ?_, ?_⟩, ?_, ?_, he.unfinished⟩
  · rw [← usageFieldPresent_bare]
    exact he.compatible.reported
  · rw [← count_bare (by decide)]
    exact he.compatible.aggregate
  · rw [← usageFieldPresent_bare]
    exact he.compatible.fallback
  · rw [he.output_mem, count_bare_output]
    nofun
  · rw [htokens]
    exact ⟨.inr rfl, .inr rfl, .inr rfl, .inr rfl, rfl, rfl⟩

/-! ## Streams -/

structure Starts (root object : Object) : Prop where
  type_eq : member root "type" = some (.str "message_start")
  usage_eq : ∃ message, presentMember root "message" = some (.obj message) ∧
    presentMember message "usage" = some (.obj object)

structure Reports (root object : Object) : Prop where
  type_eq : member root "type" = some (.str "message_delta")
  usage_eq : presentMember root "usage" = some (.obj object)

def Stops (root : Object) : Prop := member root "type" = some (.str "message_stop")

theorem awaits_start (object : Object) (compaction : Tokens) :
    Awaits { validStart := true, compaction } object :=
  ⟨⟨nofun, nofun, nofun⟩, by simp, extends_noTokens object, rfl⟩

section Observe

variable {object root : Object} (h : Counted object) (hsum : countSum object ≤ maxInt64)
include h hsum

theorem Starts.observe (hroot : Starts root object)
    (hinput : (count object "input_tokens").isSome = true) :
    let e := (({} : UsageStreamExtractor).observe (some (.obj root))).1
    Follows e object ∧ e.compaction = compactionTokens object ∧ e.validStart = true ∧
      e.stopped = false := by
  obtain ⟨message, hmessage, husage⟩ := hroot.usage_eq
  have hvalid : (anthropicCumulativeUsageFromObject object true false).2.2 = true := by
    show (usable (usageInteger object "input_tokens" true)).isSome = true
    rw [h.input.usable, hinput]
  simp only [UsageStreamExtractor.observe, decodeJSONObject,
    UsageStreamExtractor.anthropicEventType,
    hroot.type_eq, UsageStreamExtractor.observeStart, usageOptionalObject_of_obj hmessage,
    usageOptionalObject_of_obj husage, hvalid, UsageStreamExtractor.observeCompaction,
    Bool.false_eq_true, if_false, if_true]
  exact (awaits_start object (compactionTokens object)).mergeCumulative h hsum true _

theorem Reports.observe (hroot : Reports root object) (he : Awaits e object)
    (hstart : e.validStart = true) (hstopped : e.stopped = false) :
    let e' := (e.observe (some (.obj root))).1
    Follows e' object ∧ e'.compaction = (compactionSnapshot object).1.getD e.compaction ∧
      e'.validStart = true ∧ e'.stopped = false := by
  simp only [UsageStreamExtractor.observe, decodeJSONObject,
    UsageStreamExtractor.anthropicEventType,
    hroot.type_eq, UsageStreamExtractor.observeDelta, usageOptionalObject_of_obj hroot.usage_eq,
    hstart, hstopped, UsageStreamExtractor.observeCompaction, Bool.not_true, Bool.false_eq_true,
    if_false]
  have hawaits : Awaits { e with
      validStart := true
      stopped := false
      compaction := (compactionSnapshot object).1.getD e.compaction } object :=
    ⟨he.compatible, he.fresh, he.extends_tokens, he.unfinished⟩
  exact hawaits.mergeCumulative h hsum false _

theorem Stops.observe (hroot : Stops root) (he : Follows e object) (hstart : e.validStart = true)
    (hstopped : e.stopped = false) :
    let e' := (e.observe (some (.obj root))).1
    e'.accumulator.tokens = meteredTokens object ∧ e'.accumulator.finalized = false ∧
      e'.compaction = e.compaction := by
  unfold Stops at hroot
  simp only [UsageStreamExtractor.observe, decodeJSONObject,
    UsageStreamExtractor.anthropicEventType,
    hroot, UsageStreamExtractor.observeStop, UsageStreamExtractor.mergePatch, hstart, hstopped,
    Bool.not_true, Bool.false_eq_true, if_false]
  rw [Accumulator.mergePatch_ok he.unfinished rfl]
  · exact ⟨he.tokens_eq, he.unfinished, trivial⟩
  · show nonneg e.accumulator.tokens
    rw [he.tokens_eq]
    exact h.metered_nonneg
  show sum e.accumulator.tokens ≤ maxInt64
  rw [he.tokens_eq]
  exact h.metered_le.trans hsum

end Observe

/-- What a stream ends with. -/
theorem Accountable.finalize (h : Accountable object)
    (htokens : e.accumulator.tokens = meteredTokens object)
    (hopen : e.accumulator.finalized = false)
    (hcompaction : e.compaction = compactionTokens object) :
    e.finalize.2.1.tokens = plus (meteredTokens object) (compactionTokens object) ∧
      e.finalize.2.2 = true := by
  obtain ⟨hnonneg, hle, -⟩ := h.compactionTokens_spec
  have hmetered := h.counted.metered_le
  have hsum := h.sum_le
  have hadd := addAnthropicUsageTokens_eq h.counted.metered_nonneg hnonneg (by omega)
  obtain ⟨hresult, hdone⟩ := finalize_tokens hopen
  unfold UsageStreamExtractor.finalize
  cases hfinal : e.accumulator.finalize true with
  | mk accumulator outcome =>
    obtain ⟨result, finished⟩ := outcome
    rw [hfinal] at hresult hdone
    obtain rfl : finished = true := hdone
    have : result.tokens = meteredTokens object := hresult.trans htokens
    simp only [this, hcompaction, hadd, and_self]

def streamed (events : List Object) : Result × Bool :=
  (({} : UsageStreamExtractor).observeAll (events.map fun root => some (.obj root))).finalize.2

theorem Accountable.streamed_start (h : Accountable object) (hstart : Starts start object)
    (hstop : Stops stop) :
    (streamed [start, stop]).1.tokens = plus (meteredTokens object) (compactionTokens object) ∧
      (streamed [start, stop]).2 = true := by
  obtain ⟨hfollows, hcompaction, hvalid, hrunning⟩ :=
    hstart.observe h.counted h.countSum_le h.input
  obtain ⟨htokens, hopen, hkept⟩ := hstop.observe h.counted h.countSum_le hfollows hvalid hrunning
  exact h.finalize htokens hopen (hkept.trans hcompaction)

theorem Accountable.streamed_delta (h : Accountable object) (hstart : Starts start (bare object))
    (hdelta : Reports delta object) (hstop : Stops stop) :
    (streamed [start, delta, stop]).1.tokens =
        plus (meteredTokens object) (compactionTokens object) ∧
      (streamed [start, delta, stop]).2 = true := by
  obtain ⟨hfollows₁, hcompaction₁, hvalid₁, hrunning₁⟩ :=
    hstart.observe h.counted.bare (h.counted.countSum_bare_le.trans h.countSum_le)
      (by rw [count_bare (by decide), h.input])
  obtain ⟨hfollows, hcompaction, hvalid, hrunning⟩ :=
    hdelta.observe h.counted h.countSum_le hfollows₁.awaits hvalid₁ hrunning₁
  obtain ⟨htokens, hopen, hkept⟩ := hstop.observe h.counted h.countSum_le hfollows hvalid hrunning
  refine h.finalize htokens hopen ((hkept.trans hcompaction).trans ?_)
  rw [hcompaction₁]
  unfold compactionTokens
  rw [compactionSnapshot_bare]
  cases (compactionSnapshot object).1 <;> rfl

/-- A whole answer and either stream with its usage are metered the same, exactly if the compaction
rounds are not charged: one of them cannot be read, or none has counts. -/
theorem streamed_eq_extractUsage_iff {object body start start' delta stop : Object}
    (h : Accountable object) (hbody : presentMember body "usage" = some (.obj object))
    (hstart : Starts start object) (hstart' : Starts start' (bare object))
    (hdelta : Reports delta object) (hstop : Stops stop) :
    ∃ result, extractUsage (some (.obj body)) = .ok result ∧
      (streamed [start, stop]).2 = true ∧ (streamed [start', delta, stop]).2 = true ∧
      ((streamed [start, stop]).1.tokens = result.tokens ↔ ¬ Charged object) ∧
      ((streamed [start', delta, stop]).1.tokens = result.tokens ↔ ¬ Charged object) := by
  obtain ⟨result, hresult, htokens⟩ := h.counted.extractUsage h.countSum_le hbody
  obtain ⟨hshort, hshortDone⟩ := h.streamed_start hstart hstop
  obtain ⟨hlong, hlongDone⟩ := h.streamed_delta hstart' hdelta hstop
  have uncharged := h.compactionTokens_spec.2.2
  refine ⟨result, hresult, hshortDone, hlongDone, ?_, ?_⟩
  · rw [hshort, htokens, plus_eq_left_iff, uncharged]
  · rw [hlong, htokens, plus_eq_left_iff, uncharged]

/-! ### A sample -/

/-- A compaction round with a detail that is no count. -/
def unreadableUsage : Object :=
  [("input_tokens", .num "100"), ("output_tokens", .num "10"),
    ("cache_creation_input_tokens", .num "7"),
    ("iterations", .arr [.obj [("type", .str "compaction"), ("input_tokens", .num "50"),
      ("output_tokens", .num "5"), ("server_tool_use", .str "some")]])]

def compactedUsage : Object :=
  [("input_tokens", .num "100"), ("output_tokens", .num "10"),
    ("iterations", .arr [.obj [("type", .str "compaction"), ("input_tokens", .num "50"),
      ("output_tokens", .num "5")]])]

def usageBody (object : Object) : Object := [("usage", .obj object)]

def startEvent (object : Object) : Object :=
  [("type", .str "message_start"), ("message", .obj [("usage", .obj object)])]

def deltaEvent (object : Object) : Object :=
  [("type", .str "message_delta"), ("usage", .obj object)]

def stopEvent : Object := [("type", .str "message_stop")]

theorem starts_startEvent (object : Object) : Starts (startEvent object) object :=
  ⟨by simp [member, startEvent], [("usage", .obj object)],
    by simp [presentMember, member, startEvent], by simp [presentMember, member]⟩

theorem reports_deltaEvent (object : Object) : Reports (deltaEvent object) object :=
  ⟨by simp [member, deltaEvent], by simp [presentMember, member, deltaEvent]⟩

theorem stops_stopEvent : Stops stopEvent := by simp [Stops, member, stopEvent]

/-- A round whose details cannot be read is charged nowhere. -/
theorem streamed_eq_extractUsage_unreadable : ∃ result,
    extractUsage (some (.obj (usageBody unreadableUsage))) = .ok result ∧
      (streamed [startEvent unreadableUsage, stopEvent]).1.tokens = result.tokens ∧
      (streamed [startEvent (bare unreadableUsage), deltaEvent unreadableUsage,
        stopEvent]).1.tokens =
        result.tokens := by
  obtain ⟨result, extracted, -, -, short, long⟩ :=
    @streamed_eq_extractUsage_iff unreadableUsage (usageBody unreadableUsage) _ _ _ _
      (by decide +kernel) (by simp [presentMember, member, usageBody]) (starts_startEvent _)
      (starts_startEvent _) (reports_deltaEvent _) stops_stopEvent
  have uncharged : ¬ Charged unreadableUsage := by
    rintro ⟨readable, -⟩
    have round := readable [("type", .str "compaction"), ("input_tokens", .num "50"),
      ("output_tokens", .num "5"), ("server_tool_use", .str "some")]
      (by simp [iterations, presentMember, member, unreadableUsage, decodeIteration])
      (by simp [isCompaction, member])
    cases round.serverToolUse (.str "some") (by simp [member])
  exact ⟨result, extracted, short.mpr uncharged, long.mpr uncharged⟩

/-- A compaction round is charged in the stream only. -/
theorem streamed_ne_extractUsage : Accountable compactedUsage ∧
    (extractUsage (some (.obj (usageBody compactedUsage)))).toOption.map (·.tokens) =
      some ⟨100, 0, 0, 0, 0, 10⟩ ∧
    (streamed [startEvent compactedUsage, stopEvent]).1.tokens = ⟨150, 0, 0, 0, 0, 15⟩ ∧
    (streamed [startEvent (bare compactedUsage), deltaEvent compactedUsage, stopEvent]).1.tokens =
      ⟨150, 0, 0, 0, 0, 15⟩ := by
  decide +kernel

end ApiLoad.Dialect
