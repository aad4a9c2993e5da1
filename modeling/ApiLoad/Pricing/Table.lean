import ApiLoad.Foundation.Text
import ApiLoad.Pricing.Amount

/-!
# Pricing rules and tables

The rules of a pricing table as `internal/pricing` keeps them, their validation, and the table that
`NewTable` builds of them. A rule that is found in a table passed the validation.
-/
namespace ApiLoad.Pricing

open Foundation

abbrev Mode := String

def modeStandard : Mode := "standard"
def modeFast : Mode := "fast"

structure Price where
  nanoUSDPerMillion : Int
  set : Bool
  deriving DecidableEq, Repr

structure Prices where
  input : Price
  output : Price
  cacheRead : Price
  cacheWrite : Price
  deriving DecidableEq, Repr

inductive BillingUnit where
  | unset
  | token
  | request
  | other (text : String)
  deriving DecidableEq, Repr

structure Identity where
  channelID : String
  modelID : String
  deriving DecidableEq, Repr

structure ContextTier where
  inputThresholdTokens : Int
  prices : Prices
  deriving DecidableEq, Repr

structure Schedule where
  prices : Prices
  contextTiers : List ContextTier
  deriving DecidableEq, Repr

/-- An amount that fits into 64 bits. -/
abbrev NanoUSD := { amount : Int // amount ≤ maxInt64 }

structure Rule where
  identity : Identity
  billingUnit : BillingUnit
  requestPrice : Option NanoUSD
  prices : Prices
  contextTiers : List ContextTier
  modeSchedules : List (Mode × Schedule)

def maxProviderIDBytes : Nat := 246
def maxChannelIDBytes : Nat := 64
def maxModelIDBytes : Nat := 255
def maxModeBytes : Nat := 64

def isSlugChar (c : Char) : Bool := (decide ('a' ≤ c) && decide (c ≤ 'z')) || c.isDigit

/-- Whether a mode is a canonical key: lower case letters and digits, with `-` and `_` inside. -/
def Mode.valid (mode : Mode) : Bool :=
  if mode.utf8ByteSize = 0 ∨ maxModeBytes < mode.utf8ByteSize then false
  else
    mode.toList.zipIdx.all fun (character, index) =>
      isSlugChar character ||
        (decide (0 < index) && decide (index < mode.length - 1) &&
          (character = '-' || character = '_'))

/-- The checks of a channel ID and of a model ID. -/
def validateID (name : String) (maxBytes : Nat) (id : String) : Except String Unit :=
  if id.utf8ByteSize = 0 ∨ maxBytes < id.utf8ByteSize then
    .error (name ++ " must be 1 through " ++ toString maxBytes ++ " bytes")
  else if Text.trimSpace id ≠ id then .error (name ++ " must not have surrounding whitespace")
  else if id.toList.any Text.isControl then
    .error (name ++ " must not contain control characters")
  else .ok ()

def validateChannelID (channelID : String) : Except String Unit :=
  validateID "channel ID" maxChannelIDBytes channelID

def validateModelID (modelID : String) : Except String Unit :=
  validateID "model ID" maxModelIDBytes modelID

def validateIdentity (identity : Identity) : Except String Unit := do
  validateChannelID identity.channelID
  validateModelID identity.modelID

def validatePrices (prices : Prices) : Except String Unit :=
  if [prices.input, prices.output, prices.cacheRead, prices.cacheWrite].any
      fun price => price.nanoUSDPerMillion < 0 then
    .error "pricing price must be non-negative"
  else .ok ()

def hasSetPrice (prices : Prices) : Bool :=
  prices.input.set || prices.output.set || prices.cacheRead.set || prices.cacheWrite.set

/-- The checks of the tiers behind one with the threshold `previous`. -/
def validateTiersFrom (previous : Int) : List ContextTier → Except String Unit
  | [] => .ok ()
  | tier :: tiers =>
    if tier.inputThresholdTokens < 0 then
      .error "context tier threshold must be non-negative"
    else if tier.inputThresholdTokens ≤ previous then
      .error "context tier thresholds must be strictly increasing"
    else do
      validatePrices tier.prices
      if hasSetPrice tier.prices then validateTiersFrom tier.inputThresholdTokens tiers
      else .error "context tier must set at least one price"

def validateContextTiers (tiers : List ContextTier) : Except String Unit :=
  validateTiersFrom (-1) tiers

def validateBillingUnit (rule : Rule) : Except String Unit :=
  match rule.billingUnit with
  | .unset | .token =>
    if rule.requestPrice.isSome then .error "token rule must not contain a request price"
    else .ok ()
  | .request =>
    if rule.requestPrice.any fun price => price.val < 0 then
      .error "request price must be non-negative"
    else if hasSetPrice rule.prices ∨ rule.contextTiers ≠ [] ∨ rule.modeSchedules ≠ [] then
      .error "request rule must not contain token schedules"
    else .ok ()
  | .other text => .error ("invalid billing unit " ++ Text.quoted text)

def validateModeSchedule (entry : Mode × Schedule) : Except String Unit := do
  let (mode, schedule) := entry
  if !Mode.valid mode || mode = modeStandard then
    .error ("invalid non-standard pricing mode " ++ Text.quoted mode)
  validatePrices schedule.prices
  if !hasSetPrice schedule.prices then
    .error ("pricing mode " ++ Text.quoted mode ++ " must set at least one price")
  if mode = modeFast ∧ schedule.contextTiers ≠ [] then
    .error "Fast pricing mode does not support context tiers"
  (validateContextTiers schedule.contextTiers).mapError
    fun err => "pricing mode " ++ Text.quoted mode ++ ": " ++ err

def validateRule (rule : Rule) : Except String Unit := do
  validateIdentity rule.identity
  validateBillingUnit rule
  validatePrices rule.prices
  validateContextTiers rule.contextTiers
  rule.modeSchedules.forM validateModeSchedule

structure Table where
  rules : List Rule

def Table.lookup (table : Table) (identity : Identity) : Option Rule :=
  table.rules.find? fun rule => rule.identity = identity

def addRule (table : Table) (rule : Rule) : Except String Table := do
  validateRule rule
  if (table.lookup rule.identity).isSome then
    .error ("duplicate pricing identity channel_id=" ++ Text.quoted rule.identity.channelID ++
      " model_id=" ++ Text.quoted rule.identity.modelID)
  return ⟨table.rules ++ [rule]⟩

def newTable (rules : List Rule) : Except String Table := rules.foldlM addRule ⟨[]⟩

section Facts

open Fallible

def Prices.nonneg (prices : Prices) : Prop :=
  0 ≤ prices.input.nanoUSDPerMillion ∧ 0 ≤ prices.output.nanoUSDPerMillion ∧
    0 ≤ prices.cacheRead.nanoUSDPerMillion ∧ 0 ≤ prices.cacheWrite.nanoUSDPerMillion

theorem nonneg_of_validatePrices (h : validatePrices prices = .ok ()) : prices.nonneg := by
  unfold validatePrices at h
  split at h
  · cases h
  · rename_i none_negative
    simpa [Prices.nonneg] using none_negative

theorem tiers_of_validate (h : validateTiersFrom previous tiers = .ok ()) :
    ∀ tier ∈ tiers, 0 ≤ tier.inputThresholdTokens ∧ tier.prices.nonneg := by
  induction tiers generalizing previous with
  | nil => simp
  | cons tier tiers ih =>
    unfold validateTiersFrom at h
    split at h
    · cases h
    rename_i nonneg
    split at h
    · cases h
    obtain ⟨_, prices, h⟩ := bind_ok.mp h
    split at h
    · exact List.forall_mem_cons.mpr
        ⟨⟨Int.not_lt.mp nonneg, nonneg_of_validatePrices prices⟩, ih h⟩
    · cases h

/-- What the validation of a rule ensures for quotes. -/
structure Rule.Valid (rule : Rule) : Prop where
  identity : validateIdentity rule.identity = .ok ()
  requestPrice : ∀ price, rule.billingUnit = .request → rule.requestPrice = some price →
    0 ≤ price.val
  prices : rule.prices.nonneg
  tiers : ∀ tier ∈ rule.contextTiers, 0 ≤ tier.inputThresholdTokens ∧ tier.prices.nonneg
  modes : ∀ entry ∈ rule.modeSchedules, Mode.valid entry.1 = true ∧ entry.2.prices.nonneg ∧
    ∀ tier ∈ entry.2.contextTiers, 0 ≤ tier.inputThresholdTokens ∧ tier.prices.nonneg

theorem modes_of_validate (h : validateModeSchedule entry = .ok ()) :
    Mode.valid entry.1 = true ∧ entry.2.prices.nonneg ∧
      ∀ tier ∈ entry.2.contextTiers, 0 ≤ tier.inputThresholdTokens ∧ tier.prices.nonneg := by
  obtain ⟨mode, schedule⟩ := entry
  unfold validateModeSchedule at h
  dsimp only at h
  split at h
  · cases h
  rename_i valid
  obtain ⟨_, prices, h⟩ := bind_ok.mp h
  split at h
  · cases h
  split at h
  · cases h
  refine ⟨?_, nonneg_of_validatePrices prices, tiers_of_validate (mapError_ok.mp h)⟩
  simp only [Bool.or_eq_true, not_or, Bool.not_eq_true', Bool.not_eq_false] at valid
  exact valid.1

theorem valid_of_validateRule (h : validateRule rule = .ok ()) : rule.Valid := by
  obtain ⟨_, identity, h⟩ := bind_ok.mp h
  obtain ⟨_, unit, h⟩ := bind_ok.mp h
  obtain ⟨_, prices, h⟩ := bind_ok.mp h
  obtain ⟨_, tiers, h⟩ := bind_ok.mp h
  refine ⟨identity, ?_, nonneg_of_validatePrices prices, tiers_of_validate tiers,
    fun entry hm => modes_of_validate (forM_ok h entry hm)⟩
  intro price hu hp
  rw [validateBillingUnit, hu] at unit
  dsimp only at unit
  split at unit
  · cases unit
  · rename_i nonneg
    simpa [hp] using nonneg

theorem addRule_ok (h : addRule table rule = .ok table') (hv : ∀ r ∈ table.rules, r.Valid) :
    ∀ r ∈ table'.rules, r.Valid := by
  obtain ⟨_, valid, h⟩ := bind_ok.mp h
  split at h
  · cases h
  cases h
  intro r hr
  rcases List.mem_append.mp hr with hr | hr
  · exact hv r hr
  · rw [List.mem_singleton.mp hr]
    exact valid_of_validateRule valid

/-- A rule that is found in an accepted table is valid, and it is the rule of the identity. -/
theorem lookup_valid (h : newTable rules = .ok table) (found : table.lookup identity = some rule) :
    rule.Valid ∧ rule.identity = identity := by
  have valid : ∀ r ∈ table.rules, r.Valid :=
    foldlM_ok (P := fun t : Table => ∀ r ∈ t.rules, r.Valid) (fun _ _ _ _ hv h => addRule_ok h hv)
      (by simp) h
  refine ⟨valid rule (List.mem_of_find?_eq_some found), ?_⟩
  simpa using List.find?_some found

end Facts

end ApiLoad.Pricing
