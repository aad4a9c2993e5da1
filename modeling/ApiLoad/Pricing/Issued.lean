import ApiLoad.Pricing.Receipt

/-!
# Issued receipts

Every receipt that a quote comes with passes the verification, with or without multipliers, and so
does the receipt that is read back from its encoding. The producer's loop over the components and
the verifier's loop over the lines are followed side by side: after each component the verifier is
at the same total.
-/
namespace ApiLoad.Pricing

attribute [local simp] receiptMembers requestReceipt Except.bind Except.pure bind pure

open Foundation Fallible Option

section Lines

variable {version : Int} {multipliers : PriceMultipliers}

variable {seen : List String} {priced priced' : Priced}

/-- The verifier accepts a line in any state that its code, its quantity and its multiplier
allow. -/
theorem validateLines_cons {line : ReceiptLine} (rest : List ReceiptLine)
    (request : line.rateNanoUSDPerRequest = none) (allowed : line.code ∈ allowedCodes)
    (fresh : line.code ∉ seen) (quantity : 0 < line.quantity)
    (numerator : 0 < line.multiplier.numerator) (denominator : 0 < line.multiplier.denominator)
    (state : validateLineState version multipliers line total = .ok total') :
    validateLines version multipliers seen total (line :: rest) =
      validateLines version multipliers (line.code :: seen) total' rest := by
  rw [validateLines, if_neg (by simp [request]), if_neg (by simpa using allowed), if_neg fresh,
    if_neg (by omega), state]
  rfl

/-- A component that can be priced: a code of the schema, and nothing negative. -/
structure Component.Sound (component : Component) : Prop where
  allowed : component.code ∈ allowedCodes
  tokens : 0 ≤ component.tokens
  price : 0 ≤ component.price.nanoUSDPerMillion
  numerator : 0 < component.multiplier.numerator
  denominator : 0 < component.multiplier.denominator

/-- What the producer knows between two components. -/
structure Priced.Sound (priced : Priced) : Prop where
  cost : 0 ≤ priced.cost
  unpriced : priced.pricedPositive = false → priced.cost = 0
  states : ∀ line ∈ priced.lines, line.state = .priced ∨ line.state = .unpriced

/-- The verifier follows the producer over one component. -/
theorem priceComponent_verified (hv : version ≠ 5)
    (h : priceComponent priced component = some priced') (sound : component.Sound)
    (ok : priced.Sound) (fresh : component.code ∉ seen) :
    priced'.Sound ∧ ∃ lines seen', priced'.lines = priced.lines ++ lines ∧
      (∀ code ∈ seen', code = component.code ∨ code ∈ seen) ∧
      ∀ rest, validateLines version multipliers seen priced.cost (lines ++ rest) =
        validateLines version multipliers seen' priced'.cost rest := by
  unfold priceComponent at h
  split at h
  · cases h
    exact ⟨ok, [], seen, by simp, fun _ => .inr, fun _ => rfl⟩
  rename_i nonzero
  have positive : 0 < component.tokens := lt_of_le_of_ne sound.tokens (Ne.symm nonzero)
  have states (line : ReceiptLine) (hs : line.state = .priced ∨ line.state = .unpriced) :
      ∀ l ∈ priced.lines ++ [line], l.state = .priced ∨ l.state = .unpriced :=
    List.forall_mem_append.mpr ⟨ok.states, by simpa using hs⟩
  dsimp only at h
  split at h
  · cases h
    refine ⟨⟨ok.cost, ok.unpriced, states _ (.inr rfl)⟩, [_], component.code :: seen, rfl,
      by simp, fun rest => ?_⟩
    exact validateLines_cons rest rfl sound.allowed fresh positive sound.numerator
      sound.denominator rfl
  · obtain ⟨amount, hamount, h⟩ := bind_eq_some_iff.mp h
    obtain ⟨cost, hcost, h⟩ := bind_eq_some_iff.mp h
    cases h
    have nonneg := quoteComponent_nonneg hamount
    obtain ⟨-, -, hsum⟩ := checkedAddNanoUSD_some hcost
    have grown : 0 ≤ cost := hsum ▸ add_nonneg ok.cost nonneg
    refine ⟨⟨grown, by simp, states _ (.inl rfl)⟩, [_], component.code :: seen, rfl,
      by simp, fun rest => ?_⟩
    refine validateLines_cons rest rfl sound.allowed fresh positive sound.numerator
      sound.denominator ?_
    have price := sound.price
    simp only [validateLineState, lineAmount, hv, if_false, hamount, hcost, ne_eq, not_true]
    rw [if_neg (by omega)]

/-- The verifier follows the producer over all components. -/
theorem components_verified (hv : version ≠ 5) (multipliers : PriceMultipliers) (seen : List String)
    {items : List Component} (h : items.foldlM priceComponent priced = some priced')
    (sound : ∀ item ∈ items, item.Sound) (distinct : (items.map Component.code).Nodup)
    (ok : priced.Sound) (fresh : ∀ item ∈ items, item.code ∉ seen) :
    priced'.Sound ∧ ∃ lines seen', priced'.lines = priced.lines ++ lines ∧
      (∀ code ∈ seen', code ∈ items.map Component.code ∨ code ∈ seen) ∧
      ∀ rest, validateLines version multipliers seen priced.cost (lines ++ rest) =
        validateLines version multipliers seen' priced'.cost rest := by
  induction items generalizing priced seen with
  | nil =>
    cases h
    exact ⟨ok, [], seen, by simp, fun _ => .inr, fun _ => rfl⟩
  | cons item items ih =>
    obtain ⟨next, first, h⟩ := bind_eq_some_iff.mp h
    obtain ⟨sound₁, sound⟩ := List.forall_mem_cons.mp sound
    obtain ⟨fresh₁, fresh⟩ := List.forall_mem_cons.mp fresh
    obtain ⟨apart, distinct⟩ := List.nodup_cons.mp distinct
    obtain ⟨ok₁, lines₁, seen₁, hlines₁, hseen₁, follows₁⟩ :=
      priceComponent_verified hv first sound₁ ok fresh₁
    have fresh' : ∀ i ∈ items, i.code ∉ seen₁ := by
      intro i hi hm
      rcases hseen₁ _ hm with same | old
      · exact apart (same ▸ List.mem_map_of_mem hi)
      · exact fresh i hi old
    obtain ⟨ok₂, lines₂, seen₂, hlines₂, hseen₂, follows₂⟩ := ih seen₁ h sound distinct ok₁ fresh'
    refine ⟨ok₂, lines₁ ++ lines₂, seen₂, by rw [hlines₂, hlines₁, List.append_assoc], ?_, ?_⟩
    · intro code hc
      rcases hseen₂ code hc with later | hc
      · exact .inl (List.mem_cons_of_mem _ later)
      rcases hseen₁ code hc with rfl | old
      · exact .inl (by simp)
      · exact .inr old
    · intro rest
      rw [List.append_assoc, follows₁, follows₂]

end Lines

section Selection

theorem checkedSum_nonneg {values : List Int} (h : values.foldlM checkedAdd start = some total) :
    ∀ value ∈ values, 0 ≤ value := by
  induction values generalizing start with
  | nil => simp
  | cons value values ih =>
    obtain ⟨next, first, h⟩ := bind_eq_some_iff.mp h
    refine List.forall_mem_cons.mpr ⟨?_, ih h⟩
    unfold checkedAdd at first
    split at first
    · cases first
    · omega

theorem selectSchedulePrices_sound {base : Prices} (inputTokens : Int) (hbase : base.nonneg)
    (htiers : ∀ tier ∈ tiers, 0 ≤ tier.inputThresholdTokens ∧ tier.prices.nonneg) :
    (selectSchedulePrices base tiers inputTokens).1.nonneg ∧
      ∀ threshold, (selectSchedulePrices base tiers inputTokens).2 = some threshold →
        0 ≤ threshold := by
  unfold selectSchedulePrices
  cases hlast : (tiers.takeWhile fun tier =>
      tier.inputThresholdTokens ≤ inputTokens).getLast? with
  | none => exact ⟨hbase, by simp⟩
  | some tier =>
    have member : tier ∈ tiers := List.takeWhile_subset _ (List.mem_of_getLast? hlast)
    obtain ⟨threshold, prices⟩ := htiers tier member
    refine ⟨prices, ?_⟩
    rintro _ ⟨⟩
    exact threshold

theorem selectPrices_sound {rule : Rule} (valid : rule.Valid) (mode : Mode) (inputTokens : Int) :
    Mode.valid (selectPrices rule mode inputTokens).1 = true ∧
      (selectPrices rule mode inputTokens).2.1.nonneg ∧
      ∀ threshold, (selectPrices rule mode inputTokens).2.2 = some threshold → 0 ≤ threshold := by
  have standard : Mode.valid modeStandard = true := by decide +kernel
  have base := selectSchedulePrices_sound inputTokens valid.prices valid.tiers
  unfold selectPrices
  dsimp only
  split
  swap
  · exact ⟨standard, base⟩
  split
  · rename_i found
    obtain ⟨hmode, prices, tiers⟩ := valid.modes _ (List.mem_of_find?_eq_some found)
    have same := List.find?_some found
    simp only [decide_eq_true_eq] at same
    exact ⟨same ▸ hmode, selectSchedulePrices_sound inputTokens prices tiers⟩
  · exact ⟨standard, base⟩

theorem components_sound {prices : Prices} (h : checkedTotal tokens = some total)
    (hp : prices.nonneg) : ∀ component ∈ components tokens prices, component.Sound := by
  have nonneg := checkedSum_nonneg h
  simp only [List.forall_mem_cons, List.not_mem_nil, false_implies, implies_true, and_true]
    at nonneg
  obtain ⟨hinput, hread, hwrite5, hwrite1, -, houtput⟩ := nonneg
  obtain ⟨pinput, poutput, pread, pwrite⟩ := hp
  simp only [components, List.forall_mem_cons, List.not_mem_nil, false_implies, implies_true,
    and_true]
  obtain ⟨dn, dd⟩ :
      0 < directPriceMultiplier.numerator ∧ 0 < directPriceMultiplier.denominator := by
    decide
  obtain ⟨cn, cd⟩ : 0 < cacheWriteOneHourMultiplier.numerator ∧
      0 < cacheWriteOneHourMultiplier.denominator := by decide
  exact ⟨⟨by simp [allowedCodes], hinput, pinput, dn, dd⟩,
    ⟨by simp [allowedCodes], hread, pread, dn, dd⟩,
    ⟨by simp [allowedCodes], hwrite5, pwrite, dn, dd⟩,
    ⟨by simp [allowedCodes], hwrite1, pwrite, cn, cd⟩,
    ⟨by simp [allowedCodes], houtput, poutput, dn, dd⟩⟩

end Selection

/-- What holds of a receipt for tokens as it is issued, and of the quote that comes with it. -/
structure TokenReceipt (identity : Identity) (quote : Quote) (receipt : Receipt) : Prop where
  version : receipt.schemaVersion = 4
  method : receipt.method = receiptMethodUnitRateSum
  methodVersion : receipt.methodVersion = 1
  currency : receipt.currency = "USD"
  mode : Mode.valid receipt.pricingMode = true
  rule : receipt.rule = { channelID := identity.channelID, modelID := identity.modelID }
  multipliers : receipt.priceMultipliers = none
  base : receipt.baseTotalNanoUSD = none
  threshold : ∀ threshold, receipt.contextThresholdTokens = some threshold → 0 ≤ threshold
  lines : ∀ version multipliers, version ≠ 5 →
    validateLines version multipliers [] 0 receipt.lineItems = .ok receipt.totalNanoUSD
  states : ∀ line ∈ receipt.lineItems, line.state = .priced ∨ line.state = .unpriced
  total : 0 ≤ receipt.totalNanoUSD
  quote : quote.state = .priced ∧ quote.estimatedCostNanoUSD = receipt.totalNanoUSD ∨
    quote.state ≠ .priced ∧ receipt.totalNanoUSD = 0

variable {identity : Identity} {quote : Quote} {receipt : Receipt} {result : UsageResult}
  {multipliers : PriceMultipliers}

theorem quoteTokens_receipt {rule : Rule} (valid : rule.Valid)
    (h : quoteTokens identity rule result mode = (quote, some receipt)) :
    TokenReceipt identity quote receipt := by
  unfold quoteTokens at h
  split at h
  swap
  · cases h
  rename_i total inputTokens htotal hinput
  obtain ⟨hmode, hprices, hthreshold⟩ := selectPrices_sound valid mode inputTokens
  generalize selectPrices rule mode inputTokens = selected at h hmode hprices hthreshold
  obtain ⟨selectedMode, prices, threshold⟩ := selected
  dsimp only at h
  split at h
  · cases h
  rename_i priced hpriced
  have sound := components_sound htotal hprices
  have start (partly : Bool) : Priced.Sound
      { positiveBillable := decide (0 < result.tokens.cacheWriteUnknown), partly := partly } :=
    ⟨le_refl 0, fun _ => rfl, by simp⟩
  have distinct : ((components result.tokens prices).map Component.code).Nodup := by
    simp [components]
  have verified (version : Int) (multipliers : PriceMultipliers) (hv : version ≠ 5) :=
    components_verified hv multipliers [] hpriced sound distinct (start _) (by simp)
  have ok : priced.Sound := (verified 4 .default (by decide)).1
  have lines (version : Int) (multipliers : PriceMultipliers) (hv : version ≠ 5) :
      validateLines version multipliers [] 0 (priced.lines ++ unknownLines result.tokens) =
        .ok priced.cost := by
    obtain ⟨-, lines, seen, hlines, hseen, follows⟩ := verified version multipliers hv
    rw [hlines, List.nil_append, follows, unknownLines]
    split
    swap
    · rfl
    rename_i unknown
    refine (validateLines_cons [] rfl (by simp [allowedCodes]) ?_ unknown
      (by simp [directPriceMultiplier]) (by simp [directPriceMultiplier]) rfl).trans rfl
    intro hm
    rcases hseen _ hm with hm | hm
    · simp [components] at hm
    · simp at hm
  have states : ∀ line ∈ priced.lines ++ unknownLines result.tokens,
      line.state = .priced ∨ line.state = .unpriced := by
    refine List.forall_mem_append.mpr ⟨ok.states, ?_⟩
    unfold unknownLines
    split <;> simp
  split at h
  · rename_i unpriced
    cases h
    refine ⟨rfl, rfl, rfl, rfl, hmode, rfl, rfl, rfl, hthreshold, lines, states, ok.cost,
      .inr ⟨by simp [unavailableQuote], ok.unpriced ?_⟩⟩
    simp only [Bool.and_eq_true, Bool.not_eq_true'] at unpriced
    exact unpriced.2
  · cases h
    exact ⟨rfl, rfl, rfl, rfl, hmode, rfl, rfl, rfl, hthreshold, lines, states, ok.cost,
      .inl ⟨rfl, rfl⟩⟩

/-- A quote comes with a receipt for a request or with one for tokens. -/
theorem receipt_cases (h : newTable rules = .ok table)
    (issued : table.quoteForModeWithReceipt identity result mode = (quote, some receipt)) :
    validateIdentity identity = .ok () ∧
      ((∃ price : NanoUSD, 0 ≤ price.val ∧ receipt = requestReceipt identity price.val ∧
          quote = ⟨.priced, .complete, price.val⟩) ∨
        TokenReceipt identity quote receipt) := by
  unfold Table.quoteForModeWithReceipt at issued
  split at issued
  · cases issued
  split at issued
  · rename_i rule hrule
    obtain ⟨found, request⟩ := filter_eq_some_iff.mp hrule
    obtain ⟨valid, hid⟩ := lookup_valid h found
    split at issued
    · cases issued
    rename_i price hprice
    cases issued
    exact ⟨hid ▸ valid.identity, .inl ⟨price,
      valid.requestPrice price (by simpa using request) hprice, rfl, rfl⟩⟩
  · split at issued
    · cases issued
    split at issued
    · cases issued
    all_goals
      try
        split at issued
        · cases issued
        rename_i rule found
        obtain ⟨valid, hid⟩ := lookup_valid h found
        exact ⟨hid ▸ valid.identity, .inr (quoteTokens_receipt valid issued)⟩
    cases issued

section Verification

variable {identity : Identity} {quote : Quote} {receipt : Receipt}

theorem validateReceiptRule_issued (hid : validateIdentity identity = .ok ()) (low : 3 ≤ version)
    (high : version ≤ 7) :
    validateReceiptRule { channelID := identity.channelID, modelID := identity.modelID } version =
      .ok () := by
  rw [validateReceiptRule, if_neg (by omega), if_neg (by omega), if_pos ⟨low, high⟩,
    if_neg (by simp)]
  exact hid

theorem TokenReceipt.threshold_ok (h : TokenReceipt identity quote receipt) :
    receipt.contextThresholdTokens.any (· < 0) = false := by
  cases ht : receipt.contextThresholdTokens with
  | none => rfl
  | some threshold => simpa using h.threshold threshold ht

theorem TokenReceipt.validates (h : TokenReceipt identity quote receipt)
    (hid : validateIdentity identity = .ok ()) : validateReceipt receipt = .ok () := by
  have rule : validateReceiptRule receipt.rule 4 = .ok () := by
    rw [h.rule]
    exact validateReceiptRule_issued hid (by decide) (by decide)
  have total := h.total
  have lines := h.lines 4 .default (by decide)
  simp [validateReceipt, h.version, h.method, h.methodVersion, h.currency, receiptMultipliers,
    h.multipliers, validateBaseTotal, h.base, validateReceiptMode, h.mode, rule, h.threshold_ok,
    lines, validateTotals, Int.not_lt.mpr total, Except.mapError]

variable {multipliers : PriceMultipliers}

/-- The receipt for tokens with multipliers. -/
theorem TokenReceipt.validates_adjusted (h : TokenReceipt identity quote receipt)
    (hid : validateIdentity identity = .ok ()) (valid : multipliers.valid = true)
    (happly : applyPriceMultipliers receipt.totalNanoUSD multipliers = some adjusted) :
    validateReceipt { receipt with
      totalNanoUSD := adjusted
      schemaVersion := 6
      baseTotalNanoUSD := some receipt.totalNanoUSD
      priceMultipliers := some multipliers } = .ok () := by
  have rule : validateReceiptRule receipt.rule 6 = .ok () := by
    rw [h.rule]
    exact validateReceiptRule_issued hid (by decide) (by decide)
  have nonneg := applyPriceMultipliers_nonneg happly
  have total := h.total
  have lines := h.lines 6 multipliers (by decide)
  simp [validateReceipt, h.method, h.methodVersion, h.currency, receiptMultipliers, valid,
    validateBaseTotal, Int.not_lt.mpr total, validateReceiptMode, h.mode, rule, h.threshold_ok,
    Int.not_lt.mpr nonneg, lines, validateTotals, happly, Except.mapError]

/-- The receipt for a request, with the default multipliers or with others. -/
theorem requestReceipt_validates (hid : validateIdentity identity = .ok ()) (hp : 0 ≤ price)
    (valid : multipliers.valid = true)
    (happly : applyPriceMultipliers price multipliers = some adjusted) :
    validateReceipt { requestReceipt identity price with
      totalNanoUSD := adjusted
      baseTotalNanoUSD := some price
      priceMultipliers := some multipliers } = .ok () := by
  have rule : validateReceiptRule
      { channelID := identity.channelID, modelID := identity.modelID } 7 = .ok () :=
    validateReceiptRule_issued hid (by decide) (by decide)
  simp [validateReceipt, validateRequestReceipt, rule, valid, validateRequestLine,
    Int.not_lt.mpr hp, happly]

end Verification

section RoundTrip

open Json

variable {name : String} {members : List (String × Value)}

theorem ReceiptLineState.ofText_text (h : state = .priced ∨ state = .unpriced) :
    ReceiptLineState.ofText state.text = state := by
  rcases h with rfl | rfl <;> decide

@[simp] theorem member_omitEmpty (name other : String) (value : Option Value) :
    member (omitEmpty name value) other = if name = other then value else none := by
  cases value <;> simp [omitEmpty]

@[simp] theorem member_omitEmptyText (name other text : String) :
    member (omitEmptyText name text) other =
      if name = other ∧ text ≠ "" then some (.str text) else none := by
  unfold omitEmptyText
  by_cases ht : text = "" <;> simp [ht]

variable {m : String × Value}

theorem mem_omitEmpty (h : m ∈ omitEmpty name value) : m.1 = name := by
  cases value <;> simp_all [omitEmpty]

theorem mem_omitEmptyText (h : m ∈ omitEmptyText name text) : m.1 = name := by
  unfold omitEmptyText at h
  split at h <;> simp_all

/-- An optional number that is left out when it is not there. -/
theorem optionalField_num (value : Option Int) (h : member members name = value.map .num) :
    optionalField members name asNumber = .ok value := by
  unfold optionalField field
  rw [h]
  cases value <;> rfl

theorem field_text (text : String)
    (h : member members name = if text ≠ "" then some (.str text) else none) :
    field members name "" asString = .ok text := by
  unfold field
  rw [h]
  by_cases ht : text = "" <;> simp [ht, asString]

theorem field_value {α : Type} {zero : α} {decode : Value → Except String α} (value : Value)
    {result : α} (h : member members name = some value) (notNull : value ≠ .null)
    (decoded : decode value = .ok result) : field members name zero decode = .ok result := by
  unfold field
  rw [h]
  cases value with
  | null => exact absurd rfl notNull
  | _ => exact decoded

theorem decode_encodeMultiplier (multiplier : Multiplier) :
    decodeMultiplier (encodeMultiplier multiplier) = .ok multiplier := by
  unfold decodeMultiplier encodeMultiplier
  rw [asRecord_obj (by simp)]
  simp [field, asNumber]

theorem decode_encodeRule (rule : ReceiptRule) : decodeRule (encodeRule rule) = .ok rule := by
  unfold decodeRule encodeRule
  rw [asRecord_obj (by
    simp only [List.forall_mem_append]
    exact ⟨⟨fun m hm => by simp [mem_omitEmptyText hm], fun m hm => by simp [mem_omitEmptyText hm]⟩,
      by simp⟩)]
  simp only [bind, Except.bind]
  rw [field_text rule.scopeKey (by simp), field_text rule.channelID (by simp)]
  simp [field, asString]

theorem decode_encodeLine {line : ReceiptLine} (h : line.state = .priced ∨ line.state = .unpriced) :
    decodeLine (encodeLine line) = .ok line := by
  unfold decodeLine encodeLine
  rw [asRecord_obj (by
    simp only [List.forall_mem_append]
    refine ⟨⟨⟨⟨by simp, ?_⟩, ?_⟩, by simp⟩, ?_⟩ <;>
      exact fun m hm => by simp [mem_omitEmpty hm])]
  simp only [bind, Except.bind]
  rw [optionalField_num line.rateNanoUSDPerMillion (by simp),
    optionalField_num line.rateNanoUSDPerRequest (by simp),
    optionalField_num line.amountNanoUSD (by simp),
    field_value (encodeMultiplier line.multiplier) (by simp) (by simp [encodeMultiplier])
      (decode_encodeMultiplier line.multiplier)]
  simp [field, asString, asNumber, ReceiptLineState.ofText_text h]

/-- Multipliers that are valid are encoded, and read back. -/
theorem encodePriceMultipliers_ok {multipliers : PriceMultipliers}
    (h : multipliers.valid = true) : ∃ members : List (String × Value),
      encodePriceMultipliers multipliers = .ok (.obj members) ∧
      decodePriceMultipliers (.obj members) = .ok multipliers := by
  obtain ⟨hg, hk⟩ := Bool.and_eq_true_iff.mp h
  refine ⟨[("group", .str (formatPriceMultiplier multipliers.group)),
    ("access_key", .str (formatPriceMultiplier multipliers.accessKey))], ?_, ?_⟩
  · simp [encodePriceMultipliers, encodePriceMultiplier, hg, hk]
  unfold decodePriceMultipliers
  rw [asRecord_obj (by simp)]
  simp [optionalField, field, decodePriceMultiplier, parse_format hg, parse_format hk, Functor.map,
    Except.map]

/-- A receipt whose optional members belong to its version. -/
structure Receipt.Encodable (receipt : Receipt) : Prop where
  multipliers : ∀ m, receipt.priceMultipliers = some m → m.valid = true ∧ 5 ≤ receipt.schemaVersion
  base : receipt.baseTotalNanoUSD.isSome = true → 6 ≤ receipt.schemaVersion
  states : ∀ line ∈ receipt.lineItems, line.state = .priced ∨ line.state = .unpriced

/-- Such a receipt is read back from its encoding as it was. -/
theorem decode_encodeReceipt {receipt : Receipt} (h : receipt.Encodable) :
    ∃ encoded, encodeReceipt receipt = .ok encoded ∧ decodeReceipt encoded = .ok receipt := by
  obtain ⟨multipliers, hencode, hversion, hdecode⟩ : ∃ multipliers : Option Value,
      receipt.priceMultipliers.mapM encodePriceMultipliers = .ok multipliers ∧
      (∀ value, multipliers = some value → value ≠ .null ∧ 5 ≤ receipt.schemaVersion) ∧
      ∀ members, member members "price_multipliers" = multipliers →
        optionalField members "price_multipliers" decodePriceMultipliers =
          .ok receipt.priceMultipliers := by
    cases hm : receipt.priceMultipliers with
    | none =>
      refine ⟨none, rfl, by simp, fun members h => ?_⟩
      simp [optionalField, field, h]
    | some m =>
      obtain ⟨valid, since⟩ := h.multipliers m hm
      obtain ⟨fields, encoded, decoded⟩ := encodePriceMultipliers_ok valid
      refine ⟨some (.obj fields), by simp [encoded, Functor.map, Except.map], ?_, ?_⟩
      · rintro _ ⟨⟩
        exact ⟨by simp, since⟩
      · intro members hmember
        exact field_value _ hmember (by simp) (by rw [decoded]; rfl)
  refine ⟨.obj (receiptMembers receipt multipliers), by rw [encodeReceipt, hencode]; rfl, ?_⟩
  have known : asRecord receiptFields (.obj (receiptMembers receipt multipliers)) =
      .ok (receiptMembers receipt multipliers) := by
    refine asRecord_obj ?_
    simp only [receiptMembers, List.forall_mem_append, receiptFields]
    refine ⟨⟨⟨⟨⟨⟨by simp, ?_⟩, ?_⟩, ?_⟩, by simp⟩, ?_⟩, by simp⟩
    · exact fun m hm => by simp [mem_omitEmptyText hm]
    all_goals exact fun m hm => by simp [mem_omitEmpty hm]
  have version : field (receiptMembers receipt multipliers) "schema_version" 0 asNumber =
      .ok receipt.schemaVersion :=
    field_value (.num receipt.schemaVersion) (by simp) (by simp) rfl
  have since₅ (text : String) : checkVersioned (receiptMembers receipt multipliers)
      "price_multipliers" receipt.schemaVersion 5 text = .ok () := by
    have found : member (receiptMembers receipt multipliers) "price_multipliers" = multipliers := by
      simp
    unfold checkVersioned
    rw [found]
    split
    · rfl
    · exact absurd rfl (hversion _ rfl).1
    · rw [if_neg (Int.not_lt.mpr (hversion _ rfl).2)]
  have since₆ (text : String) : checkVersioned (receiptMembers receipt multipliers)
      "base_total_nano_usd" receipt.schemaVersion 6 text = .ok () := by
    have found : member (receiptMembers receipt multipliers) "base_total_nano_usd" =
        receipt.baseTotalNanoUSD.map .num := by simp
    have base := h.base
    unfold checkVersioned
    rw [found]
    cases hbase : receipt.baseTotalNanoUSD with
    | none => rfl
    | some total =>
      rw [hbase] at base
      exact if_neg (Int.not_lt.mpr (base rfl))
  have lines : asArray decodeLine (.arr (receipt.lineItems.map encodeLine)) =
      .ok receipt.lineItems := asArray_map fun line hl => decode_encodeLine (h.states line hl)
  have mode : field (receiptMembers receipt multipliers) "pricing_mode" "" asString =
      .ok receipt.pricingMode := field_text receipt.pricingMode (by simp)
  unfold decodeReceipt
  simp only [bind, Except.bind, version, since₅, since₆, known]
  rw [mode, hdecode _ (by simp),
    optionalField_num receipt.baseTotalNanoUSD (by simp),
    optionalField_num receipt.contextThresholdTokens (by simp),
    field_value (encodeRule receipt.rule) (by simp)
      (by simp [encodeRule]) (decode_encodeRule receipt.rule),
    field_value (.arr (receipt.lineItems.map encodeLine)) (by simp) (by simp) lines]
  simp [field, asString, asNumber]

end RoundTrip

/-- What is to hold of a quote and its receipt: the receipt is accepted, as it is and after it has
been encoded and decoded, and a priced quote is the total of the receipt. -/
structure Verified (quote : Quote) (receipt : Receipt) : Prop where
  validates : validateReceipt receipt = .ok ()
  total : quote.state = .priced → quote.estimatedCostNanoUSD = receipt.totalNanoUSD ∧
    0 ≤ quote.estimatedCostNanoUSD
  stored : ∃ encoded decoded, encodeReceipt receipt = .ok encoded ∧
    decodeReceipt encoded = .ok decoded ∧ validateReceipt decoded = .ok () ∧
    (quote.state = .priced → quote.estimatedCostNanoUSD = decoded.totalNanoUSD)

theorem verified_of_encodable (validates : validateReceipt receipt = .ok ())
    (total : quote.state = .priced → quote.estimatedCostNanoUSD = receipt.totalNanoUSD ∧ 0 ≤
      quote.estimatedCostNanoUSD) (encodable : receipt.Encodable) : Verified quote receipt := by
  obtain ⟨encoded, hencode, hdecode⟩ := decode_encodeReceipt encodable
  exact ⟨validates, total, encoded, receipt, hencode, hdecode, validates, fun h => (total h).1⟩

theorem TokenReceipt.verified (h : TokenReceipt identity quote receipt)
    (hid : validateIdentity identity = .ok ()) : Verified quote receipt := by
  refine verified_of_encodable (h.validates hid) ?_ ⟨by simp [h.multipliers], by simp [h.base],
    h.states⟩
  intro priced
  rcases h.quote with ⟨-, same⟩ | ⟨unpriced, -⟩
  · exact ⟨same, same ▸ h.total⟩
  · exact absurd priced unpriced

theorem TokenReceipt.verified_adjusted {adjustedQuote : Quote}
    (h : TokenReceipt identity quote receipt) (hid : validateIdentity identity = .ok ())
    (valid : multipliers.valid = true)
    (happly : applyPriceMultipliers receipt.totalNanoUSD multipliers = some adjusted)
    (total : adjustedQuote.state = .priced → adjustedQuote.estimatedCostNanoUSD = adjusted) :
    Verified adjustedQuote { receipt with
      totalNanoUSD := adjusted
      schemaVersion := 6
      baseTotalNanoUSD := some receipt.totalNanoUSD
      priceMultipliers := some multipliers } := by
  refine verified_of_encodable (h.validates_adjusted hid valid happly)
    (fun priced => ⟨total priced, total priced ▸ applyPriceMultipliers_nonneg happly⟩)
    ⟨?_, by simp, h.states⟩
  rintro _ ⟨⟩
  exact ⟨valid, by simp⟩

theorem requestReceipt_verified (hid : validateIdentity identity = .ok ()) (hp : 0 ≤ price)
    (valid : multipliers.valid = true)
    (happly : applyPriceMultipliers price multipliers = some adjusted) :
    Verified ⟨.priced, .complete, adjusted⟩ { requestReceipt identity price with
      totalNanoUSD := adjusted
      baseTotalNanoUSD := some price
      priceMultipliers := some multipliers } := by
  refine verified_of_encodable (requestReceipt_validates hid hp valid happly)
    (fun _ => ⟨rfl, applyPriceMultipliers_nonneg happly⟩) ⟨?_, ?_, ?_⟩
  · rintro _ ⟨⟩
    exact ⟨valid, by simp⟩
  · simp
  · simp

/-- Every receipt that is issued is verified: for every accepted table, every identity, usage, mode
and pair of valid multipliers. -/
theorem issued_receipts_verified {rules : List Rule} {table : Table}
    (h : newTable rules = .ok table) (identity : Identity) (result : UsageResult) (mode : Mode) :
    (∀ quote receipt,
      table.quoteForModeWithReceipt identity result mode = (quote, some receipt) →
        Verified quote receipt) ∧
      ∀ multipliers quote receipt, multipliers.valid = true →
        table.quoteForModeWithMultipliers identity result mode multipliers =
          (quote, some receipt) → Verified quote receipt := by
  constructor
  · intro quote receipt issued
    obtain ⟨hid, ⟨price, nonneg, rfl, rfl⟩ | token⟩ := receipt_cases h issued
    · exact requestReceipt_verified hid nonneg (by decide)
        (applyPriceMultipliers_default nonneg price.property)
    · exact token.verified hid
  · intro multipliers quote receipt valid issued
    unfold Table.quoteForModeWithMultipliers at issued
    rw [if_neg (by simp [valid])] at issued
    split at issued
    · cases issued
    rename_i quote₀ receipt₀ base
    dsimp only at issued
    split at issued
    · cases issued
    rename_i quote₁ receipt₁ adjusted
    cases issued
    obtain ⟨hid, ⟨price, nonneg, rfl, rfl⟩ | token⟩ := receipt_cases h base
    · simp only [if_true] at adjusted
      obtain ⟨amount, happly, heq⟩ := Option.map_eq_some_iff.mp adjusted
      cases heq
      exact requestReceipt_verified hid nonneg valid happly
    rw [token.version]
    rcases token.quote with ⟨priced, same⟩ | ⟨unpriced, zero⟩
    · rw [if_pos priced, same] at adjusted
      obtain ⟨amount, happly, heq⟩ := Option.map_eq_some_iff.mp adjusted
      cases heq
      exact token.verified_adjusted hid valid happly fun _ => rfl
    rw [if_neg unpriced] at adjusted
    cases adjusted
    have unchanged : applyPriceMultipliers receipt₀.totalNanoUSD multipliers =
        some receipt₀.totalNanoUSD := by
      rw [zero]
      exact applyPriceMultipliers_zero valid
    exact token.verified_adjusted hid valid unchanged fun priced => absurd priced unpriced

def sampleRule : Rule where
  identity := ⟨"openai", "gpt"⟩
  billingUnit := .token
  requestPrice := none
  prices := ⟨⟨2500000000, true⟩, ⟨10000000000, true⟩, ⟨0, false⟩, ⟨0, false⟩⟩
  contextTiers := [⟨100, ⟨⟨5000000000, true⟩, ⟨0, false⟩, ⟨0, false⟩, ⟨0, false⟩⟩⟩]
  modeSchedules := []

def sampleUsage : UsageResult where
  measuredUnits := {}
  tokens := ⟨120, 0, 0, 0, 0, 30⟩
  state := .complete

theorem issued_receipts_verified_sample :
    ∃ quote receipt, quote.state = .priced ∧ quote.completeness = .partly ∧
      Table.quoteForModeWithMultipliers ⟨[sampleRule]⟩ ⟨"openai", "gpt"⟩ sampleUsage ""
        ⟨500000, 1000000⟩ = (quote, some receipt) ∧ Verified quote receipt := by
  have accepted : newTable [sampleRule] = .ok ⟨[sampleRule]⟩ := by rfl
  have issued : (Table.quoteForModeWithMultipliers ⟨[sampleRule]⟩ ⟨"openai", "gpt"⟩ sampleUsage ""
      ⟨500000, 1000000⟩).2.isSome = true := by decide +kernel
  obtain ⟨receipt, hreceipt⟩ := Option.isSome_iff_exists.mp issued
  exact ⟨_, receipt, by decide +kernel, by decide +kernel, Prod.ext rfl hreceipt,
    (issued_receipts_verified accepted ⟨"openai", "gpt"⟩ sampleUsage "").2
      ⟨500000, 1000000⟩ _ receipt
      (by decide) (Prod.ext rfl hreceipt)⟩

end ApiLoad.Pricing
