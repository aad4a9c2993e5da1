import ApiLoad.Pricing.Quote

/-!
# Usage accumulators

Token counts of one answer, collected from one or more reports of the provider
(`internal/usage/types.go`, `internal/usage/accumulator.go`). A patch overwrites the fields it has
and keeps the others.
-/
namespace ApiLoad.Usage
open Pricing

inductive DiagnosticCode where
  | unsupportedBillableDetail | cacheWriteDefaulted5M | negativeValue | invalidNumber
  | missingRequiredField | inconsistentTotal | invalidPayload | invalidEventSequence
deriving DecidableEq, Repr

structure Diagnostics where
  flags : Finset DiagnosticCode := ∅
  totalDelta : Option Int := none
deriving DecidableEq

namespace Diagnostics

def add (d : Diagnostics) (code : DiagnosticCode) : Diagnostics :=
  { d with flags := insert code d.flags }

def has (d : Diagnostics) (code : DiagnosticCode) : Bool := code ∈ d.flags

def setTotalDelta (d : Diagnostics) (delta : Int) : Diagnostics :=
  { d.add .inconsistentTotal with totalDelta := some delta }

def merge (d other : Diagnostics) : Diagnostics :=
  ⟨d.flags ∪ other.flags, other.totalDelta.or d.totalDelta⟩

def single (code : DiagnosticCode) : Diagnostics := add {} code

end Diagnostics

structure Patch where
  uncachedInput : Option Int := none
  cacheRead : Option Int := none
  cacheWrite5M : Option Int := none
  cacheWrite1H : Option Int := none
  cacheWriteUnknown : Option Int := none
  output : Option Int := none
  final : Bool := false
  diagnostics : Diagnostics := {}

structure Result where
  measuredUnits : Units := {}
  tokens : Tokens
  state : UsageState
  diagnostics : Diagnostics

inductive PatchError where
  | finalized
  | negativePatch
  | tokenOverflow
deriving DecidableEq, Repr

def PatchError.text : PatchError → String
  | .finalized => "usage accumulator finalized"
  | .negativePatch => "usage patch contains negative token count"
  | .tokenOverflow => "usage token total overflows int64"

def noTokens : Tokens := ⟨0, 0, 0, 0, 0, 0⟩

inductive TokenField where
  | uncachedInput | cacheRead | cacheWrite5M | cacheWrite1H | cacheWriteUnknown | output
deriving DecidableEq, Repr

structure Accumulator where
  tokens : Tokens := noTokens
  presence : Finset TokenField := ∅
  diagnostics : Diagnostics := {}
  final : Bool := false
  finalized : Bool := false

namespace Patch

def values (patch : Patch) : List (TokenField × Option Int) :=
  [(.uncachedInput, patch.uncachedInput), (.cacheRead, patch.cacheRead),
    (.cacheWrite5M, patch.cacheWrite5M), (.cacheWrite1H, patch.cacheWrite1H),
    (.cacheWriteUnknown, patch.cacheWriteUnknown), (.output, patch.output)]

def valid (patch : Patch) : Bool := patch.values.all fun value => value.2.all (0 ≤ ·)

def applyTo (patch : Patch) (tokens : Tokens) : Tokens where
  uncachedInput := patch.uncachedInput.getD tokens.uncachedInput
  cacheRead := patch.cacheRead.getD tokens.cacheRead
  cacheWrite5M := patch.cacheWrite5M.getD tokens.cacheWrite5M
  cacheWrite1H := patch.cacheWrite1H.getD tokens.cacheWrite1H
  cacheWriteUnknown := patch.cacheWriteUnknown.getD tokens.cacheWriteUnknown
  output := patch.output.getD tokens.output

def fields (patch : Patch) : Finset TokenField :=
  ((patch.values.filter (·.2.isSome)).map (·.1)).toFinset

end Patch

namespace Accumulator

def mergePatch (a : Accumulator) (patch : Patch) : Accumulator × Except PatchError Unit :=
  if a.finalized then (a, .error .finalized)
  else if !patch.valid then (a, .error .negativePatch)
  else match checkedTotal (patch.applyTo a.tokens) with
    | none => (a, .error .tokenOverflow)
    | some _ =>
      ({ a with
          tokens := patch.applyTo a.tokens
          presence := a.presence ∪ patch.fields
          diagnostics := a.diagnostics.merge patch.diagnostics
          final := a.final || patch.final }, .ok ())

def finalize (a : Accumulator) (applicable : Bool) : Accumulator × Result × Bool :=
  if a.finalized then (a, { tokens := noTokens, state := .other "", diagnostics := {} }, false)
  else
    let done := { a with finalized := true }
    if !applicable then
      (done, { tokens := noTokens, state := .notApplicable, diagnostics := {} }, true)
    else
      let state :=
        if a.presence = ∅ then .missing else if a.final then .complete else .partly
      (done, { tokens := a.tokens, state, diagnostics := a.diagnostics }, true)

end Accumulator

/-! ## Sums of counts -/

def Tokens.nonneg (t : Tokens) : Prop :=
  0 ≤ t.uncachedInput ∧ 0 ≤ t.cacheRead ∧ 0 ≤ t.cacheWrite5M ∧ 0 ≤ t.cacheWrite1H ∧
    0 ≤ t.cacheWriteUnknown ∧ 0 ≤ t.output

def Tokens.sum (t : Tokens) : Int :=
  t.uncachedInput + t.cacheRead + t.cacheWrite5M + t.cacheWrite1H + t.cacheWriteUnknown + t.output

theorem checkedAdd_eq {left right : Int} (hleft : 0 ≤ left) (hright : 0 ≤ right)
    (h : left + right ≤ maxInt64) : checkedAdd left right = some (left + right) := by
  unfold checkedAdd
  rw [if_neg (by omega)]

theorem checkedTotal_eq {t : Tokens} (hnonneg : Tokens.nonneg t) (h : Tokens.sum t ≤ maxInt64) :
    checkedTotal t = some (Tokens.sum t) := by
  obtain ⟨h1, h2, h3, h4, h5, h6⟩ := hnonneg
  unfold Tokens.sum at h ⊢
  simp only [checkedTotal, checkedSum, List.foldlM_cons, List.foldlM_nil]
  rw [checkedAdd_eq le_rfl h1 (by omega)]
  simp only [Option.bind_eq_bind, Option.bind_some]
  rw [checkedAdd_eq (by omega) h2 (by omega)]
  simp only [Option.bind_some]
  rw [checkedAdd_eq (by omega) h3 (by omega)]
  simp only [Option.bind_some]
  rw [checkedAdd_eq (by omega) h4 (by omega)]
  simp only [Option.bind_some]
  rw [checkedAdd_eq (by omega) h5 (by omega)]
  simp only [Option.bind_some]
  rw [checkedAdd_eq (by omega) h6 (by omega)]
  simp

/-- A patch whose outcome stays in range is merged. -/
theorem Accumulator.mergePatch_ok {a : Accumulator} {patch : Patch} (hopen : a.finalized = false)
    (hvalid : patch.valid = true) (hnonneg : Tokens.nonneg (patch.applyTo a.tokens))
    (hsum : Tokens.sum (patch.applyTo a.tokens) ≤ maxInt64) :
    a.mergePatch patch = ({ a with
      tokens := patch.applyTo a.tokens
      presence := a.presence ∪ patch.fields
      diagnostics := a.diagnostics.merge patch.diagnostics
      final := a.final || patch.final }, .ok ()) := by
  unfold mergePatch
  rw [checkedTotal_eq hnonneg hsum]
  simp [hopen, hvalid]

end ApiLoad.Usage
