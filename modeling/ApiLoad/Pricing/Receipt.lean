import ApiLoad.Foundation.JsonValue
import ApiLoad.Pricing.Quote

/-!
# The verification of receipts

`ValidateReceipt` checks a stored receipt without the table that it was issued from, for every
version of the schema; `Receipt.UnmarshalJSON` reads it back. Encoding and decoding by
`encoding/json` is a mapping of values, integers and texts unchanged.
-/
namespace ApiLoad.Pricing

open Foundation Text

/-- The scope of a provider; its ID is made of non-empty segments between `.` and `-`. -/
def providerScopeKey (providerID : String) : Except String String :=
  if providerID.utf8ByteSize = 0 ∨ maxProviderIDBytes < providerID.utf8ByteSize then
    .error ("provider ID must be 1 through " ++ toString maxProviderIDBytes ++ " ASCII bytes")
  else
    let rec segments (separator : Bool) : List Char → Except String String
      | [] =>
        if separator then .error "provider ID must contain non-empty lowercase slug segments"
        else .ok ("provider:" ++ providerID)
      | character :: rest =>
        if isSlugChar character then segments false rest
        else if character = '.' ∨ character = '-' then
          if separator then .error "provider ID must contain non-empty lowercase slug segments"
          else segments true rest
        else .error "provider ID must contain only lowercase ASCII slug segments"
    segments true providerID.toList

def parseUint (text : List Char) : Option Nat :=
  if text ≠ [] ∧ text.all Char.isDigit ∧ digitsValue text < 2 ^ 64 then some (digitsValue text)
  else none

def groupScopeKey (groupID : Nat) : Except String String :=
  if groupID = 0 then .error "group ID must be positive"
  else .ok ("group:" ++ String.ofList (Nat.toDigits 10 groupID))

def validateScopeKey (scopeKey : String) : Except String Unit :=
  let after (start : String) := scopeKey.toList.drop start.length
  if hasPrefix scopeKey "provider:" then
    match providerScopeKey (String.ofList (after "provider:")) with
    | .ok canonical =>
      if canonical = scopeKey then .ok ()
      else .error ("invalid provider scope key " ++ quoted scopeKey)
    | .error _ => .error ("invalid provider scope key " ++ quoted scopeKey)
  else if hasPrefix scopeKey "group:" then
    match parseUint (after "group:") with
    | none => .error ("invalid group scope key " ++ quoted scopeKey)
    | some parsed =>
      match groupScopeKey parsed with
      | .ok canonical =>
        if canonical = scopeKey then .ok ()
        else .error ("invalid group scope key " ++ quoted scopeKey)
      | .error _ => .error ("invalid group scope key " ++ quoted scopeKey)
  else .error ("invalid pricing scope key " ++ quoted scopeKey)

def validateReceiptRule (rule : ReceiptRule) (schemaVersion : Int) : Except String Unit :=
  if schemaVersion = 1 then do
    validateModelID rule.modelID
    if rule.channelID ≠ "" then .error "legacy v1 receipt must not contain a channel ID"
    else if rule.scopeKey = "" then .error "legacy receipt scope key is required"
    else validateScopeKey rule.scopeKey
  else if schemaVersion = 2 then do
    validateModelID rule.modelID
    if rule.scopeKey ≠ "" then .error "global receipt must not contain a scope key"
    else if rule.channelID ≠ "" then .error "global receipt must not contain a channel ID"
    else .ok ()
  else if 3 ≤ schemaVersion ∧ schemaVersion ≤ 7 then
    if rule.scopeKey ≠ "" then .error "channel receipt must not contain a scope key"
    else validateIdentity ⟨rule.channelID, rule.modelID⟩
  else .error "unsupported receipt rule schema version"

def allowedCodes : List String :=
  ["input", "cache_read", "cache_write_5m", "cache_write_1h", "cache_write", "output"]

/-- The amount of a priced line, recomputed. -/
def lineAmount (schemaVersion : Int) (multipliers : PriceMultipliers) (line : ReceiptLine)
    (rate : Int) : Option Int :=
  if schemaVersion = 5 then
    quoteComponentWithPriceMultipliers line.quantity rate line.multiplier multipliers
  else quoteComponent line.quantity rate line.multiplier

/-- The check of a line by its state; the result is the total with it. -/
def validateLineState (schemaVersion : Int) (multipliers : PriceMultipliers) (line : ReceiptLine)
    (total : Int) : Except String Int :=
  match line.state with
  | .priced =>
    match line.rateNanoUSDPerMillion, line.amountNanoUSD with
    | some rate, some amount =>
      if rate < 0 ∨ amount < 0 then .error "invalid priced receipt line"
      else if lineAmount schemaVersion multipliers line rate ≠ some amount then
        .error "pricing receipt line amount mismatch"
      else
        match checkedAddNanoUSD total amount with
        | some total => .ok total
        | none => .error "pricing receipt total overflows"
    | _, _ => .error "invalid priced receipt line"
  | .unpriced =>
    if line.rateNanoUSDPerMillion.isSome ∨ line.amountNanoUSD.isSome then
      .error "invalid unpriced receipt line"
    else .ok total
  | .other _ => .error "invalid pricing receipt line state"

/-- The checks of the lines, with the codes seen so far; the result is the total of the lines. -/
def validateLines (schemaVersion : Int) (multipliers : PriceMultipliers) (seen : List String)
    (total : Int) : List ReceiptLine → Except String Int
  | [] => .ok total
  | line :: rest =>
    if line.rateNanoUSDPerRequest.isSome then
      .error "historical token receipt must not contain a request rate"
    else if line.code ∉ allowedCodes then
      .error ("invalid pricing receipt line code " ++ quoted line.code)
    else if line.code ∈ seen then
      .error ("duplicate pricing receipt line code " ++ quoted line.code)
    else if line.quantity ≤ 0 ∨ line.multiplier.numerator ≤ 0 ∨ line.multiplier.denominator ≤ 0 then
      .error "invalid pricing receipt line quantity or multiplier"
    else do
      let total ← validateLineState schemaVersion multipliers line total
      validateLines schemaVersion multipliers (line.code :: seen) total rest

def validateRequestLine (receipt : Receipt) (base : Int) : Except String Unit :=
  match receipt.lineItems with
  | [line] =>
    match line.rateNanoUSDPerRequest, line.amountNanoUSD with
    | some rate, some amount =>
      if line.code ≠ "request" ∨ line.quantity ≠ 1 ∨ line.state ≠ .priced ∨
          line.multiplier ≠ directPriceMultiplier ∨ line.rateNanoUSDPerMillion.isSome ∨
          rate < 0 ∨ rate ≠ amount ∨ amount ≠ base then
        .error "invalid per-request receipt line"
      else .ok ()
    | _, _ => .error "invalid per-request receipt line"
  | _ => .error "invalid per-request receipt totals or multipliers"

def validateRequestReceipt (receipt : Receipt) : Except String Unit :=
  if receipt.method ≠ receiptMethodPerRequest ∨ receipt.methodVersion ≠ 1 ∨
      receipt.currency ≠ "USD" ∨ receipt.pricingMode ≠ modeStandard ∨
      receipt.contextThresholdTokens.isSome then
    .error "invalid per-request receipt contract"
  else do
    validateReceiptRule receipt.rule 7
    match receipt.priceMultipliers, receipt.baseTotalNanoUSD with
    | some multipliers, some base =>
      if !multipliers.valid ∨ base < 0 then
        .error "invalid per-request receipt totals or multipliers"
      else do
        validateRequestLine receipt base
        if applyPriceMultipliers base multipliers = some receipt.totalNanoUSD then .ok ()
        else .error "per-request receipt adjusted total mismatch"
    | _, _ => .error "invalid per-request receipt totals or multipliers"

/-- The multipliers that a receipt carries: none before version 5, valid ones from then on. -/
def receiptMultipliers (receipt : Receipt) : Except String PriceMultipliers :=
  if receipt.schemaVersion < 5 then
    if receipt.priceMultipliers.isSome then
      .error "historical pricing receipt must not contain price multipliers"
    else .ok .default
  else
    match receipt.priceMultipliers with
    | some multipliers =>
      if multipliers.valid then .ok multipliers
      else .error "invalid pricing receipt price multipliers"
    | none => .error "invalid pricing receipt price multipliers"

def validateBaseTotal (receipt : Receipt) : Except String Unit :=
  if receipt.schemaVersion < 6 then
    if receipt.baseTotalNanoUSD.isSome then
      .error "historical pricing receipt must not contain a base total"
    else .ok ()
  else if receipt.baseTotalNanoUSD.all (· < 0) then .error "invalid pricing receipt base total"
  else .ok ()

def validateReceiptMode (receipt : Receipt) : Except String Unit :=
  if receipt.schemaVersion < 4 then
    if receipt.pricingMode ≠ "" then
      .error "historical pricing receipt must not contain a pricing mode"
    else .ok ()
  else if !Mode.valid receipt.pricingMode then .error "invalid pricing receipt mode"
  else .ok ()

/-- The comparison of the totals with that of the lines. -/
def validateTotals (receipt : Receipt) (multipliers : PriceMultipliers) (total : Int) :
    Except String Unit :=
  if receipt.schemaVersion = 6 then
    if some total ≠ receipt.baseTotalNanoUSD then .error "pricing receipt base total mismatch"
    else if applyPriceMultipliers total multipliers ≠ some receipt.totalNanoUSD then
      .error "pricing receipt adjusted total mismatch"
    else .ok ()
  else if total ≠ receipt.totalNanoUSD then .error "pricing receipt total mismatch"
  else .ok ()

def validateReceipt (receipt : Receipt) : Except String Unit :=
  if receipt.schemaVersion = 7 then validateRequestReceipt receipt
  else if ¬(1 ≤ receipt.schemaVersion ∧ receipt.schemaVersion ≤ 6) ∨
      receipt.method ≠ receiptMethodUnitRateSum ∨ receipt.methodVersion ≠ 1 ∨
      receipt.currency ≠ "USD" then .error "unsupported pricing receipt contract"
  else do
    let multipliers ← receiptMultipliers receipt
    validateBaseTotal receipt
    validateReceiptMode receipt
    (validateReceiptRule receipt.rule receipt.schemaVersion).mapError
      fun err => "invalid pricing receipt rule: " ++ err
    if receipt.contextThresholdTokens.any (· < 0) then
      .error "invalid pricing receipt context threshold"
    else if receipt.totalNanoUSD < 0 then .error "invalid pricing receipt total"
    else do
      let total ← validateLines receipt.schemaVersion multipliers [] 0 receipt.lineItems
      validateTotals receipt multipliers total

section Encoding

abbrev Value := Json String Int

/-- A member that is left out if it is empty. -/
def omitEmpty (name : String) : Option Value → List (String × Value)
  | none => []
  | some value => [(name, value)]

def omitEmptyText (name text : String) : List (String × Value) :=
  if text = "" then [] else [(name, .str text)]

def ReceiptLineState.text : ReceiptLineState → String
  | .priced => "priced"
  | .unpriced => "unpriced"
  | .other text => text

def ReceiptLineState.ofText (text : String) : ReceiptLineState :=
  if text = "priced" then .priced else if text = "unpriced" then .unpriced else .other text

def encodeMultiplier (multiplier : Multiplier) : Value :=
  .obj [("numerator", .num multiplier.numerator), ("denominator", .num multiplier.denominator)]

def encodeLine (line : ReceiptLine) : Value :=
  .obj ([("code", .str line.code), ("quantity", .num line.quantity)] ++
    omitEmpty "rate_nano_usd_per_million" (line.rateNanoUSDPerMillion.map .num) ++
    omitEmpty "rate_nano_usd_per_request" (line.rateNanoUSDPerRequest.map .num) ++
    [("multiplier", encodeMultiplier line.multiplier), ("state", .str line.state.text)] ++
    omitEmpty "amount_nano_usd" (line.amountNanoUSD.map .num))

def encodeRule (rule : ReceiptRule) : Value :=
  .obj (omitEmptyText "scope_key" rule.scopeKey ++ omitEmptyText "channel_id" rule.channelID ++
    [("model_id", .str rule.modelID)])

/-- `PriceMultiplier.MarshalJSON`. -/
def encodePriceMultiplier (value : PriceMultiplier) : Except String Value :=
  if PriceMultiplier.valid value then .ok (.str (formatPriceMultiplier value))
  else .error "invalid price multiplier"

def encodePriceMultipliers (multipliers : PriceMultipliers) : Except String Value := do
  let group ← encodePriceMultiplier multipliers.group
  let accessKey ← encodePriceMultiplier multipliers.accessKey
  return .obj [("group", group), ("access_key", accessKey)]

def receiptMembers (receipt : Receipt) (multipliers : Option Value) : List (String × Value) :=
  [("schema_version", .num receipt.schemaVersion), ("method", .str receipt.method),
      ("method_version", .num receipt.methodVersion), ("currency", .str receipt.currency)] ++
    omitEmptyText "pricing_mode" receipt.pricingMode ++
    omitEmpty "price_multipliers" multipliers ++
    omitEmpty "base_total_nano_usd" (receipt.baseTotalNanoUSD.map .num) ++
    [("rule", encodeRule receipt.rule)] ++
    omitEmpty "context_threshold_tokens" (receipt.contextThresholdTokens.map .num) ++
    [("line_items", .arr (receipt.lineItems.map encodeLine)),
      ("total_nano_usd", .num receipt.totalNanoUSD)]

def encodeReceipt (receipt : Receipt) : Except String Value := do
  let multipliers ← receipt.priceMultipliers.mapM encodePriceMultipliers
  return .obj (receiptMembers receipt multipliers)

open Json

def decodeMultiplier (value : Value) : Except String Multiplier := do
  let members ← asRecord ["numerator", "denominator"] value
  return ⟨← field members "numerator" 0 asNumber, ← field members "denominator" 0 asNumber⟩

def decodeLine (value : Value) : Except String ReceiptLine := do
  let members ← asRecord ["code", "quantity", "rate_nano_usd_per_million",
    "rate_nano_usd_per_request", "multiplier", "state", "amount_nano_usd"] value
  return {
    code := ← field members "code" "" asString
    quantity := ← field members "quantity" 0 asNumber
    rateNanoUSDPerMillion := ← optionalField members "rate_nano_usd_per_million" asNumber
    rateNanoUSDPerRequest := ← optionalField members "rate_nano_usd_per_request" asNumber
    multiplier := ← field members "multiplier" ⟨0, 0⟩ decodeMultiplier
    state := .ofText (← field members "state" "" asString)
    amountNanoUSD := ← optionalField members "amount_nano_usd" asNumber }

def decodeRule (value : Value) : Except String ReceiptRule := do
  let members ← asRecord ["scope_key", "channel_id", "model_id"] value
  return {
    scopeKey := ← field members "scope_key" "" asString
    channelID := ← field members "channel_id" "" asString
    modelID := ← field members "model_id" "" asString }

/-- `PriceMultiplier.UnmarshalJSON`. -/
def decodePriceMultiplier : Value → Except String PriceMultiplier
  | .str text => parsePriceMultiplier text
  | .null => .error "price multiplier must be a decimal string"
  | _ => .error mismatch

/-- `PriceMultipliers.UnmarshalJSON`: both multipliers must be there. -/
def decodePriceMultipliers (value : Value) : Except String PriceMultipliers := do
  let members ← asRecord ["group", "access_key"] value
  let group ← optionalField members "group" decodePriceMultiplier
  let accessKey ← optionalField members "access_key" decodePriceMultiplier
  match group, accessKey with
  | some group, some accessKey => .ok ⟨group, accessKey⟩
  | _, _ => .error "group and access key price multipliers are required"

/-- A member that must not be there before a version, and must not be null from then on. -/
def checkVersioned (members : List (String × Value)) (name : String) (schemaVersion since : Int)
    (text : String) : Except String Unit :=
  match member members name with
  | none => .ok ()
  | some .null => .error text
  | some _ => if schemaVersion < since then .error text else .ok ()

def receiptFields : List String :=
  ["schema_version", "method", "method_version", "currency", "pricing_mode", "price_multipliers",
    "base_total_nano_usd", "rule", "context_threshold_tokens", "line_items", "total_nano_usd"]

/-- `Receipt.UnmarshalJSON`. -/
def decodeReceipt (value : Value) : Except String Receipt := do
  let header ← match value with
    | .null => .ok []
    | .obj members => .ok members
    | _ => .error mismatch
  let schemaVersion ← field header "schema_version" 0 asNumber
  checkVersioned header "price_multipliers" schemaVersion 5
    "price multipliers require a non-null receipt field from v5 onward"
  checkVersioned header "base_total_nano_usd" schemaVersion 6
    "base total requires a non-null receipt field from v6 onward"
  let members ← asRecord receiptFields value
  return {
    schemaVersion := schemaVersion
    method := ← field members "method" "" asString
    methodVersion := ← field members "method_version" 0 asNumber
    currency := ← field members "currency" "" asString
    pricingMode := ← field members "pricing_mode" "" asString
    priceMultipliers := ← optionalField members "price_multipliers" decodePriceMultipliers
    baseTotalNanoUSD := ← optionalField members "base_total_nano_usd" asNumber
    rule := ← field members "rule" { channelID := "", modelID := "" } decodeRule
    contextThresholdTokens := ← optionalField members "context_threshold_tokens" asNumber
    lineItems := ← field members "line_items" [] (asArray decodeLine)
    totalNanoUSD := ← field members "total_nano_usd" 0 asNumber }

end Encoding

end ApiLoad.Pricing
