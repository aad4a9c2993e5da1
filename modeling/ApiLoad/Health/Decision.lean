import ApiLoad.Execution.Evidence

/-!
# Decisions and custom error rules

The decision taken after an attempt, its contract, and the rules by which an operator overrides
decisions (`internal/health/decision.go`, `internal/health/error_rules.go`).
-/
namespace ApiLoad.Health
open Foundation Text Execution Channel

def second : Duration := 1000000000
def minute : Duration := 60000000000

inductive FailureCategory where
  | ambiguous | ok | rateLimited | modelUnavailable | invalidKey | upstreamHostError | clientError
  | conversionUnsupported | downstreamCancel | authenticationRequired
deriving DecidableEq, Repr

def FailureCategory.valid (c : FailureCategory) : Bool :=
  c.ctorIdx ≤ FailureCategory.authenticationRequired.ctorIdx

inductive RetryDirective where
  | none | refreshCredential | nextCandidate | unrecognized
deriving DecidableEq, Repr

def RetryDirective.valid (directive : RetryDirective) : Bool := directive ≠ .unrecognized

inductive Effect where
  | none | cooldownCredential | cooldownModel | recordCredentialFailure | skipGroup | unrecognized
deriving DecidableEq, Repr

def Effect.valid (effect : Effect) : Bool := effect ≠ .unrecognized

def Effect.cooldown (effect : Effect) : Bool :=
  effect = .cooldownCredential || effect = .cooldownModel

structure Decision where
  category : FailureCategory
  origin : ErrorOrigin
  scope : ErrorScope
  retry : RetryDirective
  effect : Effect
  cooldownUntil : Time := 0
  ruleID : String
deriving DecidableEq

def ruleIDCharacter (c : Char) : Bool :=
  ('a' ≤ c && c ≤ 'z') || ('0' ≤ c && c ≤ '9') || c = '.' || c = '_' || c = '-'

def Decision.validate (d : Decision) : Except String Unit :=
  if !d.category.valid then .error "failure category is invalid"
  else if !d.origin.valid then .error "failure origin is invalid"
  else if !d.scope.valid then .error "failure scope is invalid"
  else if !d.retry.valid then .error "retry directive is invalid"
  else if !d.effect.valid then .error "effect is invalid"
  else if trimSpace d.ruleID = "" then .error "rule ID is required"
  else if 128 < d.ruleID.utf8ByteSize then .error "rule ID exceeds maximum length"
  else if !d.ruleID.toList.all ruleIDCharacter then .error "rule ID contains an invalid character"
  else if d.effect.cooldown && d.cooldownUntil.isZero then .error "cooldown requires a deadline"
  else if !d.effect.cooldown && !d.cooldownUntil.isZero then
    .error "cooldown deadline requires a cooldown effect"
  else .ok ()

structure RuleIDValid (ruleID : String) : Prop where
  nonempty : trimSpace ruleID ≠ ""
  bounded : ruleID.utf8ByteSize ≤ 128
  characters : ruleID.toList.all ruleIDCharacter = true

instance (ruleID : String) : Decidable (RuleIDValid ruleID) :=
  decidable_of_iff (trimSpace ruleID ≠ "" ∧ ruleID.utf8ByteSize ≤ 128 ∧
      ruleID.toList.all ruleIDCharacter = true)
    ⟨fun h => ⟨h.1, h.2.1, h.2.2⟩, fun h => ⟨h.1, h.2, h.3⟩⟩

structure Decision.WellFormed (d : Decision) : Prop where
  origin : d.origin.valid
  scope : d.scope.valid
  retry : d.retry.valid
  effect : d.effect.valid
  ruleID : RuleIDValid d.ruleID
  deadline : d.effect.cooldown = true ↔ d.cooldownUntil ≠ 0

theorem FailureCategory.valid_eq_true (c : FailureCategory) : c.valid = true := by
  cases c <;> rfl

theorem Decision.validate_ok_iff (d : Decision) : d.validate = .ok () ↔ d.WellFormed := by
  constructor
  · intro h
    have hcategory := d.category.valid_eq_true
    unfold validate at h
    repeat' split at h
    all_goals try contradiction
    simp_all only [Bool.not_eq_true', Bool.not_eq_false, Bool.and_eq_true, not_and, not_lt,
      Time.isZero, decide_eq_true_eq, decide_eq_false_iff_not]
    exact ⟨‹_›, ‹_›, ‹_›, ‹_›, ⟨‹_›, ‹_›, ‹_›⟩, by grind⟩
  · rintro ⟨horigin, hscope, hretry, heffect, ⟨hnonempty, hlength, hchars⟩, hdeadline⟩
    have hcategory := d.category.valid_eq_true
    have hlength' : ¬ 128 < d.ruleID.utf8ByteSize := by omega
    simp only [validate, hcategory, horigin, hscope, hretry, heffect, hnonempty, hlength', hchars,
      Bool.not_true, Bool.false_eq_true, if_false]
    cases hcooldown : d.effect.cooldown <;> simp_all [Time.isZero]

/-! ## Custom error rules -/

structure ErrorRule where
  statusCodes : List Int := []
  keywords : List String := []
  retry : RetryDirective
  effect : Effect
  cooldownSeconds : Int64 := 0
deriving DecidableEq

def maxErrorRulesBytes : Nat := 65535
def maxErrorRules : Nat := 100

/-- The longest cooldown in seconds that still fits into a duration. -/
def maxCooldownSeconds : Int64 := 9223372036

structure ErrorRule.Accepted (rule : ErrorRule) : Prop where
  retry : rule.retry = .none ∨ rule.retry = .nextCandidate
  effect : rule.effect.valid
  cooldown : rule.effect.cooldown = true →
    0 < rule.cooldownSeconds ∧ rule.cooldownSeconds ≤ maxCooldownSeconds

/-- Compiled rules. They are built by `CompileErrorRules` only, or empty; the source of the rules
is part of the rule ID of a decision. -/
structure ErrorRules where
  entries : List ErrorRule
  source : String
  accepted : ∀ rule ∈ entries, rule.Accepted
  bounded : entries.length ≤ maxErrorRules
  named : entries ≠ [] → source = "global" ∨ source = "group"

def ErrorRules.empty : ErrorRules := ⟨[], "", by simp, by simp, by simp⟩

def distinctCodes (statusCodes : List Int) : List Int :=
  statusCodes.foldl (fun codes code => if codes.contains code then codes else codes ++ [code]) []

def distinctKeywords (folding : Folding) (keywords : List String) : List String :=
  (keywords.foldl (fun (kept, seen) keyword =>
    let keyword := trimSpace keyword
    let lower := folding.toLower keyword
    if keyword = "" || seen.contains lower then (kept, seen)
    else (kept ++ [keyword], lower :: seen)) ([], [])).1

/-- The checks on the entry at an index. -/
def compileEntry (folding : Folding) (index : Nat) (entry : ErrorRule) :
    Except String ErrorRule :=
  if entry.statusCodes.any fun code => code < 200 || 599 < code then
    .error s!"error rule {index + 1}: status code must be between 200 and 599"
  else
    let codes := distinctCodes entry.statusCodes
    let keywords := distinctKeywords folding entry.keywords
    if codes = [] && keywords = [] then
      .error s!"error rule {index + 1}: at least one condition is required"
    else if entry.retry ≠ .none ∧ entry.retry ≠ .nextCandidate then
      .error s!"error rule {index + 1}: retry must be none or next_candidate"
    else if !entry.effect.valid then .error s!"error rule {index + 1}: effect is invalid"
    else if entry.effect.cooldown &&
          (entry.cooldownSeconds ≤ 0 || maxCooldownSeconds < entry.cooldownSeconds) ||
        !entry.effect.cooldown && entry.cooldownSeconds ≠ 0 then
      .error s!"error rule {index + 1}: cooldown seconds do not match the effect"
    else .ok { entry with statusCodes := codes, keywords := keywords }

theorem compileEntry_accepted (h : compileEntry folding index entry = .ok rule) :
    rule.Accepted := by
  unfold compileEntry at h
  split at h
  · cases h
  dsimp only at h
  repeat' split at h
  all_goals cases h
  rename_i hretry heffect hcooldown
  refine ⟨by grind, by simpa using heffect, fun hc => ?_⟩
  have hcooldown' : entry.effect.cooldown = true := hc
  simp only [hcooldown', Bool.true_and, Bool.not_true, Bool.false_and, Bool.or_false,
    Bool.or_eq_true, decide_eq_true_eq, not_or, Int64.not_le, Int64.not_lt] at hcooldown
  exact hcooldown

def compileEntries (folding : Folding) : Nat → List ErrorRule → Except String (List ErrorRule)
  | _, [] => .ok []
  | index, entry :: entries =>
    match compileEntry folding index entry, compileEntries folding (index + 1) entries with
    | .error e, _ => .error e
    | .ok _, .error e => .error e
    | .ok rule, .ok rules => .ok (rule :: rules)

theorem compileEntries_ok (h : compileEntries folding index entries = .ok rules) :
    rules.length = entries.length ∧ ∀ rule ∈ rules, rule.Accepted := by
  induction entries generalizing index rules with
  | nil =>
    cases h
    simp
  | cons entry entries ih =>
    unfold compileEntries at h
    split at h
    · cases h
    · cases h
    rename_i rule rules' hentry hentries
    cases h
    obtain ⟨hlength, haccepted⟩ := ih hentries
    exact ⟨by simp [hlength], by simpa using ⟨compileEntry_accepted hentry, haccepted⟩⟩

/-- The JSON encoding of the configured value and the strict decoding into entries. -/
structure RuleCodec (α : Type) where
  marshal : α → Except String String
  decode : String → Except String (List ErrorRule)

def compileErrorRules {α : Type} (codec : RuleCodec α) (folding : Folding) (value : α)
    (source : String) : Except String ErrorRules :=
  match codec.marshal value with
  | .error e => .error s!"encode error rules: {e}"
  | .ok encoded =>
    if maxErrorRulesBytes < encoded.utf8ByteSize || !hasPrefix encoded "[" then
      .error s!"error rules must be an array within {maxErrorRulesBytes} bytes"
    else match codec.decode encoded with
      | .error e => .error s!"decode error rules: {e}"
      | .ok entries =>
        if hbounds : maxErrorRules < entries.length ∨ (source ≠ "global" ∧ source ≠ "group") then
          .error "error rules exceed 100 entries or have an invalid source"
        else match hcompiled : compileEntries folding 0 entries with
          | .error e => .error e
          | .ok rules => .ok
            { entries := rules
              source := source
              accepted := (compileEntries_ok hcompiled).2
              bounded := by have := (compileEntries_ok hcompiled).1; omega
              named := fun _ => by grind }

end ApiLoad.Health
