import ApiLoad.Pricing.Table

/-!
# Quotes and receipts

`QuoteForModeWithReceipt` prices a usage result by the rule of its identity: it selects the prices
by the context and by the mode, prices each component, and writes a receipt with one line for each.
`QuoteForModeWithMultipliers` then adjusts the total.
-/
namespace ApiLoad.Pricing

inductive UsageState where
  | complete
  | partly
  | missing
  | notApplicable
  | other (text : String)
  deriving DecidableEq, Repr

structure Tokens where
  uncachedInput : Int
  cacheRead : Int
  cacheWrite5M : Int
  cacheWrite1H : Int
  cacheWriteUnknown : Int
  output : Int
  deriving DecidableEq, Repr

structure Units where
  images : Option Int := none
  imageTokens : Option Int := none
  audioMilliseconds : Option Int := none
  pages : Option Int := none
  searchUnits : Option Int := none
  deriving DecidableEq, Repr

def Units.hasPositive (units : Units) : Bool :=
  [units.images, units.imageTokens, units.audioMilliseconds, units.pages, units.searchUnits].any
    fun value => value.any fun n => 0 < n

structure UsageResult where
  measuredUnits : Units
  tokens : Tokens
  state : UsageState
  deriving DecidableEq, Repr

def checkedAdd (left right : Int) : Option Int :=
  if left < 0 ∨ right < 0 ∨ maxInt64 - right < left then none else some (left + right)

def checkedSum (values : List Int) : Option Int := values.foldlM checkedAdd 0

def checkedTotal (tokens : Tokens) : Option Int :=
  checkedSum [tokens.uncachedInput, tokens.cacheRead, tokens.cacheWrite5M, tokens.cacheWrite1H,
    tokens.cacheWriteUnknown, tokens.output]

def checkedInputTokens (tokens : Tokens) : Option Int :=
  checkedSum [tokens.uncachedInput, tokens.cacheRead, tokens.cacheWrite5M, tokens.cacheWrite1H,
    tokens.cacheWriteUnknown]

inductive CostState where
  | priced
  | unpriced
  | notApplicable
  | other (text : String)
  deriving DecidableEq, Repr

inductive Completeness where
  | complete
  | partly
  | unavailable
  | notApplicable
  | other (text : String)
  deriving DecidableEq, Repr

structure Quote where
  state : CostState
  completeness : Completeness
  estimatedCostNanoUSD : Int := 0
  deriving DecidableEq, Repr

def unavailableQuote : Quote := ⟨.unpriced, .unavailable, 0⟩

inductive ReceiptLineState where
  | priced
  | unpriced
  | other (text : String)
  deriving DecidableEq, Repr

structure ReceiptLine where
  code : String
  quantity : Int
  rateNanoUSDPerMillion : Option Int := none
  rateNanoUSDPerRequest : Option Int := none
  multiplier : Multiplier
  state : ReceiptLineState
  amountNanoUSD : Option Int := none
  deriving DecidableEq, Repr

structure ReceiptRule where
  scopeKey : String := ""
  channelID : String
  modelID : String
  deriving DecidableEq, Repr

structure Receipt where
  schemaVersion : Int
  method : String
  methodVersion : Int
  currency : String
  pricingMode : Mode
  priceMultipliers : Option PriceMultipliers := none
  baseTotalNanoUSD : Option Int := none
  rule : ReceiptRule
  contextThresholdTokens : Option Int := none
  lineItems : List ReceiptLine
  totalNanoUSD : Int
  deriving DecidableEq, Repr

def receiptMethodUnitRateSum : String := "unit_rate_sum"
def receiptMethodPerRequest : String := "fixed_per_request"

def directPriceMultiplier : Multiplier := ⟨1, 1⟩
def cacheWriteOneHourMultiplier : Multiplier := ⟨8, 5⟩

/-- The prices of the last tier whose threshold is met, and the threshold. -/
def selectSchedulePrices (base : Prices) (tiers : List ContextTier) (inputTokens : Int) :
    Prices × Option Int :=
  (tiers.takeWhile fun tier => tier.inputThresholdTokens ≤ inputTokens).getLast?.elim (base, none)
    fun tier => (tier.prices, some tier.inputThresholdTokens)

/-- The mode, the prices and the threshold that apply. A tier of the standard schedule goes before
the schedule of the mode. -/
def selectPrices (rule : Rule) (mode : Mode) (inputTokens : Int) : Mode × Prices × Option Int :=
  let (prices, threshold) := selectSchedulePrices rule.prices rule.contextTiers inputTokens
  if threshold = none ∧ mode ≠ "" ∧ mode ≠ modeStandard then
    match rule.modeSchedules.find? fun entry => entry.1 = mode with
    | some (_, schedule) =>
      (mode, selectSchedulePrices schedule.prices schedule.contextTiers inputTokens)
    | none => (modeStandard, prices, threshold)
  else (modeStandard, prices, threshold)

structure Component where
  code : String
  tokens : Int
  price : Price
  multiplier : Multiplier

def components (tokens : Tokens) (prices : Prices) : List Component :=
  [⟨"input", tokens.uncachedInput, prices.input, directPriceMultiplier⟩,
    ⟨"cache_read", tokens.cacheRead, prices.cacheRead, directPriceMultiplier⟩,
    ⟨"cache_write_5m", tokens.cacheWrite5M, prices.cacheWrite, directPriceMultiplier⟩,
    ⟨"cache_write_1h", tokens.cacheWrite1H, prices.cacheWrite, cacheWriteOneHourMultiplier⟩,
    ⟨"output", tokens.output, prices.output, directPriceMultiplier⟩]

/-- What the loop over the components has so far. -/
structure Priced where
  lines : List ReceiptLine := []
  cost : Int := 0
  positiveBillable : Bool
  pricedPositive : Bool := false
  partly : Bool

/-- One round of the loop. It fails if an amount does not fit. -/
def priceComponent (priced : Priced) (component : Component) : Option Priced :=
  if component.tokens = 0 then some priced
  else
    let line : ReceiptLine :=
      { code := component.code, quantity := component.tokens, multiplier := component.multiplier,
        state := .unpriced }
    if !component.price.set then
      some { priced with
        positiveBillable := true
        partly := true
        lines := priced.lines ++ [line] }
    else do
      let amount ← quoteComponent component.tokens component.price.nanoUSDPerMillion
        component.multiplier
      let cost ← checkedAddNanoUSD priced.cost amount
      return { priced with
        positiveBillable := true
        pricedPositive := true
        cost := cost
        lines := priced.lines ++ [{ line with
          rateNanoUSDPerMillion := some component.price.nanoUSDPerMillion
          amountNanoUSD := some amount
          state := .priced }] }

/-- The line of cache writes whose lifetime is unknown. -/
def unknownLines (tokens : Tokens) : List ReceiptLine :=
  if 0 < tokens.cacheWriteUnknown then
    [{ code := "cache_write", quantity := tokens.cacheWriteUnknown,
       multiplier := directPriceMultiplier, state := .unpriced }]
  else []

def requestReceipt (identity : Identity) (price : Int) : Receipt where
  schemaVersion := 7
  method := receiptMethodPerRequest
  methodVersion := 1
  currency := "USD"
  pricingMode := modeStandard
  rule := { channelID := identity.channelID, modelID := identity.modelID }
  priceMultipliers := some .default
  baseTotalNanoUSD := some price
  totalNanoUSD := price
  lineItems :=
    [{ code := "request", quantity := 1, rateNanoUSDPerRequest := some price,
       multiplier := directPriceMultiplier, state := .priced, amountNanoUSD := some price }]

def quoteTokens (identity : Identity) (rule : Rule) (result : UsageResult) (mode : Mode) :
    Quote × Option Receipt :=
  match checkedTotal result.tokens, checkedInputTokens result.tokens with
  | some _, some inputTokens =>
    let (selectedMode, prices, threshold) := selectPrices rule mode inputTokens
    let start : Priced :=
      { positiveBillable := decide (0 < result.tokens.cacheWriteUnknown)
        partly := decide (result.state = .partly) || decide (0 < result.tokens.cacheWriteUnknown) }
    match (components result.tokens prices).foldlM priceComponent start with
    | none => (unavailableQuote, none)
    | some priced =>
      let receipt : Receipt :=
        { schemaVersion := 4
          method := receiptMethodUnitRateSum
          methodVersion := 1
          currency := "USD"
          pricingMode := selectedMode
          rule := { channelID := identity.channelID, modelID := identity.modelID }
          contextThresholdTokens := threshold
          lineItems := priced.lines ++ unknownLines result.tokens
          totalNanoUSD := priced.cost }
      if priced.positiveBillable && !priced.pricedPositive then (unavailableQuote, some receipt)
      else
        (⟨.priced, if priced.partly then .partly else .complete, priced.cost⟩, some receipt)
  | _, _ => (unavailableQuote, none)

def Table.quoteForModeWithReceipt (table : Table) (identity : Identity) (result : UsageResult)
    (mode : Mode) : Quote × Option Receipt :=
  if result.state ≠ .complete ∧ result.state ≠ .partly ∧ result.state ≠ .missing ∧
      result.state ≠ .notApplicable then (unavailableQuote, none)
  else
    match (table.lookup identity).filter fun rule => rule.billingUnit = .request with
    | some rule =>
      match rule.requestPrice with
      | none => (unavailableQuote, none)
      | some price => (⟨.priced, .complete, price.val⟩, some (requestReceipt identity price.val))
    | none =>
      if result.measuredUnits.hasPositive then (unavailableQuote, none)
      else
        match result.state with
        | .notApplicable => (⟨.notApplicable, .notApplicable, 0⟩, none)
        | .complete | .partly =>
          match table.lookup identity with
          | none => (unavailableQuote, none)
          | some rule => quoteTokens identity rule result mode
        | _ => (unavailableQuote, none)

/-- Adjust the total of a quote by the multipliers of the group and of the access key. -/
def Table.quoteForModeWithMultipliers (table : Table) (identity : Identity) (result : UsageResult)
    (mode : Mode) (multipliers : PriceMultipliers) : Quote × Option Receipt :=
  if !multipliers.valid then (unavailableQuote, none)
  else
    match table.quoteForModeWithReceipt identity result mode with
    | (quote, none) => (quote, none)
    | (quote, some receipt) =>
      let adjusted : Option (Quote × Receipt) :=
        if quote.state = .priced then
          (applyPriceMultipliers quote.estimatedCostNanoUSD multipliers).map fun adjusted =>
            ({ quote with estimatedCostNanoUSD := adjusted },
              { receipt with totalNanoUSD := adjusted })
        else some (quote, receipt)
      match adjusted with
      | none => (unavailableQuote, none)
      | some (quote, adjusted) =>
        (quote, some { adjusted with
          schemaVersion := if receipt.schemaVersion < 6 then 6 else receipt.schemaVersion
          baseTotalNanoUSD := some receipt.totalNanoUSD
          priceMultipliers := some multipliers })

end ApiLoad.Pricing
