import ApiLoad.Dialect.AnthropicUsage

/-!
# The counts of a usage object

The counts that a usage object stands for, and that a whole answer is metered by them.
-/
namespace ApiLoad.Dialect
open Foundation Text Pricing Usage Option

/-! ## Counts -/

def Countable (object : Object) (field : String) : Prop :=
  ∀ value, presentMember object field = some value →
    ∃ text n, value = .num text ∧ parseInt text = some n ∧ 0 ≤ n

def isCount : Value → Bool
  | .num text => (parseInt text).any (0 ≤ ·)
  | _ => false

theorem isCount_iff :
    isCount value = true ↔ ∃ text n, value = .num text ∧ parseInt text = some n ∧ 0 ≤ n := by
  unfold isCount
  split
  · next text => cases hparse : parseInt text <;> simp [hparse]
  · simp_all

instance (object : Object) (field : String) : Decidable (Countable object field) :=
  decidable_of_iff ((presentMember object field).all isCount = true) (by
    unfold Countable
    cases presentMember object field <;> simp [isCount_iff])

def count (object : Object) (field : String) : Option Int :=
  (usageInteger object field false).1

section

variable {object : Object} {field : String} (h : Countable object field)
include h

theorem Countable.cases :
    (count object field = none ∧ ∀ required, usageInteger object field required =
      (none, if required then .single .missingRequiredField else {})) ∨
    ∃ n, 0 ≤ n ∧ count object field = some n ∧
      ∀ required, usageInteger object field required = (some n, {}) := by
  unfold count usageInteger
  cases hpresent : presentMember object field with
  | none => exact .inl ⟨rfl, fun required => rfl⟩
  | some value =>
    obtain ⟨text, n, rfl, hparse, hn⟩ := h value hpresent
    refine .inr ⟨n, hn, ?_, fun required => ?_⟩ <;> simp [hparse, Int.not_lt.mpr hn]

theorem Countable.nonneg : 0 ≤ (count object field).getD 0 := by
  obtain ⟨hnone, -⟩ | ⟨n, hn, hcount, -⟩ := h.cases
  · simp [hnone]
  · simpa [hcount] using hn

theorem Countable.read (required : Bool) :
    (usageInteger object field required).1 = count object field ∧
      usageIntegerUsable (usageInteger object field required).2 = true := by
  obtain ⟨hnone, hread⟩ | ⟨n, -, hcount, hread⟩ := h.cases
  · rw [hread, hnone]
    cases required <;> decide
  · rw [hread, hcount]
    exact ⟨rfl, rfl⟩

theorem Countable.usable (required : Bool) :
    usable (usageInteger object field required) = count object field := by
  obtain ⟨hread, husable⟩ := h.read required
  rw [Dialect.usable, husable, if_pos rfl, hread]

end

def cacheCreation (object : Object) : Option Object :=
  (usageOptionalObject object "cache_creation").1

variable {object : Object}

theorem usageFieldPresent_of_cacheCreation (h : cacheCreation object = some detail) :
    usageFieldPresent object "cache_creation" = true := by
  unfold cacheCreation usageOptionalObject at h
  unfold usageFieldPresent
  cases hpresent : presentMember object "cache_creation" with
  | none => simp [hpresent] at h
  | some value => rfl

structure Counted (object : Object) : Prop where
  input : Countable object "input_tokens"
  cacheRead : Countable object "cache_read_input_tokens"
  aggregate : Countable object "cache_creation_input_tokens"
  output : Countable object "output_tokens"
  write5M : ∀ detail, cacheCreation object = some detail →
    Countable detail "ephemeral_5m_input_tokens"
  write1H : ∀ detail, cacheCreation object = some detail →
    Countable detail "ephemeral_1h_input_tokens"

instance (object : Object) : Decidable (Counted object) :=
  decidable_of_iff ((∀ field ∈ ["input_tokens", "cache_read_input_tokens",
      "cache_creation_input_tokens", "output_tokens"], Countable object field) ∧
    (cacheCreation object).all (fun detail => Countable detail "ephemeral_5m_input_tokens" ∧
      Countable detail "ephemeral_1h_input_tokens") = true) (by
    constructor
    · rintro ⟨hfields, hdetail⟩
      refine ⟨hfields _ (by simp), hfields _ (by simp), hfields _ (by simp),
        hfields _ (by simp), ?_, ?_⟩
      · intro detail hsome
        simp only [hsome, Option.all_some, decide_eq_true_eq] at hdetail
        exact hdetail.1
      · intro detail hsome
        simp only [hsome, Option.all_some, decide_eq_true_eq] at hdetail
        exact hdetail.2
    · intro h
      refine ⟨by simpa using ⟨h.input, h.cacheRead, h.aggregate, h.output⟩, ?_⟩
      cases hdetail : cacheCreation object with
      | none => rfl
      | some detail => simpa using ⟨h.write5M detail hdetail, h.write1H detail hdetail⟩)

/-- The count of short-lived cache writes; without details it is their sum. -/
def written5M (object : Object) : Option Int :=
  match cacheCreation object with
  | some detail => count detail "ephemeral_5m_input_tokens"
  | none =>
    if usageFieldPresent object "cache_creation" then none
    else count object "cache_creation_input_tokens"

def written1H (object : Object) : Option Int :=
  (cacheCreation object).bind (count · "ephemeral_1h_input_tokens")

theorem written5M_of_reported (h : usageFieldPresent object "cache_creation" = true) :
    written5M object = (cacheCreation object).bind (count · "ephemeral_5m_input_tokens") := by
  unfold written5M
  cases cacheCreation object with
  | some detail => rfl
  | none => simp [h]

section

variable {object : Object} (h : usageFieldPresent object "cache_creation" = false)
include h

theorem cacheCreation_of_unreported : cacheCreation object = none := by
  cases hdetail : cacheCreation object with
  | none => rfl
  | some detail =>
    rw [usageFieldPresent_of_cacheCreation hdetail] at h
    cases h

theorem written5M_of_unreported :
    written5M object = count object "cache_creation_input_tokens" := by
  simp [written5M, cacheCreation_of_unreported h, h]

end

def meteredTokens (object : Object) : Tokens where
  uncachedInput := (count object "input_tokens").getD 0
  cacheRead := (count object "cache_read_input_tokens").getD 0
  cacheWrite5M := (written5M object).getD 0
  cacheWrite1H := (written1H object).getD 0
  cacheWriteUnknown := 0
  output := (count object "output_tokens").getD 0

def countSum (object : Object) : Int :=
  (count object "input_tokens").getD 0 + (count object "cache_read_input_tokens").getD 0 +
    (count object "cache_creation_input_tokens").getD 0 + (count object "output_tokens").getD 0 +
    ((cacheCreation object).bind (count · "ephemeral_5m_input_tokens")).getD 0 +
    (written1H object).getD 0

section Counted

variable {object : Object} (h : Counted object)
include h

theorem Counted.cacheWrites_nonneg :
    0 ≤ (written5M object).getD 0 ∧ 0 ≤ (written1H object).getD 0 := by
  unfold written5M written1H
  cases hdetail : cacheCreation object with
  | some detail => exact ⟨(h.write5M detail hdetail).nonneg, (h.write1H detail hdetail).nonneg⟩
  | none =>
    refine ⟨?_, le_rfl⟩
    dsimp only
    split
    · exact le_rfl
    · exact h.aggregate.nonneg

theorem Counted.metered_nonneg : Tokens.nonneg (meteredTokens object) :=
  ⟨h.input.nonneg, h.cacheRead.nonneg, h.cacheWrites_nonneg.1, h.cacheWrites_nonneg.2, le_rfl,
    h.output.nonneg⟩

theorem Counted.metered_le : Tokens.sum (meteredTokens object) ≤ countSum object := by
  have haggregate := h.aggregate.nonneg
  unfold Tokens.sum meteredTokens countSum written5M
  dsimp only
  cases hdetail : cacheCreation object with
  | some detail =>
    dsimp only [bind_some]
    omega
  | none =>
    dsimp only [bind_none, getD_none]
    split
    · simp only [getD_none]
      omega
    · omega

end Counted

/-! ## Patches -/

/-- A patch with the counts of an object, and with an output count. -/
structure Patches (patch : Patch) (object : Object) (output : Option Int) : Prop where
  uncachedInput : patch.uncachedInput = count object "input_tokens"
  cacheRead : patch.cacheRead = count object "cache_read_input_tokens"
  cacheWrite5M : patch.cacheWrite5M = written5M object
  cacheWrite1H : patch.cacheWrite1H = written1H object ∨
    patch.cacheWrite1H = some 0 ∧ written1H object = none
  cacheWriteUnknown : patch.cacheWriteUnknown = none
  output : patch.output = output

/-- Counts that the patch for an object turns into those of the object: each of them is zero or
already there. -/
structure Extends (tokens : Tokens) (object : Object) : Prop where
  uncachedInput : tokens.uncachedInput = 0 ∨
    tokens.uncachedInput = (meteredTokens object).uncachedInput
  cacheRead : tokens.cacheRead = 0 ∨ tokens.cacheRead = (meteredTokens object).cacheRead
  cacheWrite5M : tokens.cacheWrite5M = 0 ∨
    tokens.cacheWrite5M = (meteredTokens object).cacheWrite5M
  cacheWrite1H : tokens.cacheWrite1H = 0 ∨
    tokens.cacheWrite1H = (meteredTokens object).cacheWrite1H
  cacheWriteUnknown : tokens.cacheWriteUnknown = 0
  output : tokens.output = 0

theorem extends_noTokens (object : Object) : Extends noTokens object :=
  ⟨.inl rfl, .inl rfl, .inl rfl, .inl rfl, rfl, rfl⟩

theorem getD_extends {value : Option Int} (h : n = 0 ∨ n = value.getD 0) :
    value.getD n = value.getD 0 := by
  cases value with
  | some _ => rfl
  | none => simpa using h

section

variable {patch : Patch} {object : Object} {output : Option Int}

theorem Patches.applyTo (h : Patches patch object output) (hextends : Extends tokens object) :
    patch.applyTo tokens = { meteredTokens object with output := output.getD 0 } := by
  unfold Patch.applyTo
  rw [h.uncachedInput, h.cacheRead, h.cacheWrite5M, h.cacheWriteUnknown, h.output]
  have h1H : patch.cacheWrite1H.getD tokens.cacheWrite1H = (written1H object).getD 0 := by
    obtain hset | ⟨hset, hnone⟩ := h.cacheWrite1H
    · rw [hset]
      exact getD_extends hextends.cacheWrite1H
    · simp [hset, hnone]
  rw [h1H, getD_extends hextends.uncachedInput, getD_extends hextends.cacheRead,
    getD_extends hextends.cacheWrite5M, hextends.output, hextends.cacheWriteUnknown]
  rfl

theorem Patches.valid (h : Patches patch object output) (counted : Counted object)
    (houtput : 0 ≤ output.getD 0) : patch.valid = true := by
  have hall :
      ∀ value : Option Int, 0 ≤ value.getD 0 → (value.all fun n => decide (0 ≤ n)) = true := by
    intro value hvalue
    cases value <;> simp_all
  have h1H : 0 ≤ patch.cacheWrite1H.getD 0 := by
    obtain hset | ⟨hset, -⟩ := h.cacheWrite1H
    · rw [hset]
      exact counted.cacheWrites_nonneg.2
    · simp [hset]
  simp only [Patch.valid, Patch.values, List.all_cons, List.all_nil, Bool.and_true,
    Bool.and_eq_true]
  rw [h.uncachedInput, h.cacheRead, h.cacheWrite5M, h.cacheWriteUnknown, h.output]
  exact ⟨hall _ counted.input.nonneg, hall _ counted.cacheRead.nonneg,
    hall _ counted.cacheWrites_nonneg.1, hall _ h1H, rfl, hall _ houtput⟩

/-- Merging the counts of an object. -/
theorem Patches.mergePatch {a : Accumulator} (h : Patches patch object output)
    (counted : Counted object) (hextends : Extends a.tokens object)
    (houtput : output = none ∨ output = count object "output_tokens") (hopen : a.finalized = false)
    (hsum : countSum object ≤ maxInt64) :
    (a.mergePatch patch).2 = .ok () ∧ (a.mergePatch patch).1.finalized = false ∧
      (a.mergePatch patch).1.tokens = { meteredTokens object with output := output.getD 0 } := by
  have hoffered : 0 ≤ output.getD 0 ∧ output.getD 0 ≤ (meteredTokens object).output := by
    have := counted.output.nonneg
    obtain rfl | rfl := houtput
    · exact ⟨le_rfl, this⟩
    · exact ⟨this, le_rfl⟩
  have happly := h.applyTo hextends
  obtain ⟨h1, h2, h3, h4, h5, h6⟩ := counted.metered_nonneg
  have hmerged := Accumulator.mergePatch_ok hopen (h.valid counted hoffered.1)
    (by rw [happly]; exact ⟨h1, h2, h3, h4, h5, hoffered.1⟩)
    (by
      rw [happly]
      have := counted.metered_le
      unfold Tokens.sum at this ⊢
      dsimp only at this ⊢
      omega)
  rw [hmerged]
  exact ⟨rfl, hopen, happly⟩

end

/-! ## Whole answers -/

theorem Counted.cacheWrites (h : Counted object) (patch : Patch) (h5M : patch.cacheWrite5M = none)
    (h1H : patch.cacheWrite1H = none) :
    let result := Dialect.cacheWrites object patch
    result.cacheWrite5M = written5M object ∧
      (result.cacheWrite1H = written1H object ∨
        result.cacheWrite1H = some 0 ∧ written1H object = none) ∧
      result.uncachedInput = patch.uncachedInput ∧ result.cacheRead = patch.cacheRead ∧
      result.cacheWriteUnknown = patch.cacheWriteUnknown := by
  obtain ⟨haggregate, husable⟩ := h.aggregate.read false
  unfold Dialect.cacheWrites written5M written1H
  dsimp only
  rw [husable, if_pos rfl, haggregate]
  cases hdetail : cacheCreation object with
  | some detail =>
    have hread : (usageOptionalObject object "cache_creation").1 = some detail := hdetail
    simp only [hread, cacheWriteDetail, ((h.write5M detail hdetail).read false).1,
      ((h.write1H detail hdetail).read false).1, h5M, h1H, or_none, bind_some]
    simp
  | none =>
    have hread : (usageOptionalObject object "cache_creation").1 = none := hdetail
    simp only [hread, bind_none]
    cases hpresent : usageFieldPresent object "cache_creation" with
    | true => simp [h5M, h1H]
    | false =>
      cases hcount : count object "cache_creation_input_tokens" with
      | none => simp [h5M, h1H]
      | some n => simp

theorem Counted.patches (h : Counted object) (final : Bool) :
    Patches (anthropicUsagePatch object true final).1 object (count object "output_tokens") := by
  obtain ⟨h5M, h1H, huncached, hread, hunknown⟩ := h.cacheWrites
    { uncachedInput := (usageInteger object "input_tokens" true).1
      cacheRead := (usageInteger object "cache_read_input_tokens" false).1
      final := final
      diagnostics := (usageInteger object "input_tokens" true).2.merge
        (usageInteger object "cache_read_input_tokens" false).2 } rfl rfl
  exact ⟨huncached.trans (h.input.read true).1, hread.trans (h.cacheRead.read false).1, h5M, h1H,
    hunknown, (h.output.read true).1⟩

theorem Patches.congr {patch : Patch} {output : Option Int} (h : Patches patch object output)
    (diagnostics : Diagnostics) : Patches { patch with diagnostics } object output :=
  ⟨h.uncachedInput, h.cacheRead, h.cacheWrite5M, h.cacheWrite1H, h.cacheWriteUnknown, h.output⟩

theorem usageOptionalObject_of_obj (h : presentMember object field = some (.obj nested)) :
    usageOptionalObject object field = (some nested, {}) := by
  simp [usageOptionalObject, h, decodeJSONObject]

theorem finalize_tokens {a : Accumulator} (hopen : a.finalized = false) :
    (a.finalize true).2.1.tokens = a.tokens ∧ (a.finalize true).2.2 = true := by
  simp [Accumulator.finalize, hopen]

/-- The whole answer is metered by its counts. -/
theorem Counted.extractUsage {root : Object} (h : Counted object)
    (hsum : countSum object ≤ maxInt64) (hroot : presentMember root "usage" = some (.obj object)) :
    ∃ result, extractUsage (some (.obj root)) = .ok result ∧
      result.tokens = meteredTokens object := by
  obtain ⟨hok, hopen, htokens⟩ := ((h.patches true).congr
    ((anthropicUsagePatch object true true).1.diagnostics.merge {})).mergePatch (a := {}) h
    (extends_noTokens object) (.inr rfl) rfl hsum
  unfold Dialect.extractUsage
  simp only [decodeJSONObject, usageOptionalObject_of_obj hroot]
  cases hmerge : ({} : Accumulator).mergePatch { (anthropicUsagePatch object true true).1 with
      diagnostics := (anthropicUsagePatch object true true).1.diagnostics.merge {} } with
  | mk accumulator outcome =>
    rw [hmerge] at hok hopen htokens
    cases hok
    exact ⟨_, rfl, (finalize_tokens hopen).1.trans htokens⟩

end ApiLoad.Dialect
