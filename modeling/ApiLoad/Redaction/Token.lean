import ApiLoad.Foundation.Base64

/-!
# Redaction tokens

A token stands for a piece of redacted text (`internal/platform/encryption/redaction.go`). It reads
`gld1_<n>_` followed by the `n` base64url characters of a ciphertext that is authenticated together
with this header. `RestoreText` replaces the tokens of a text that can be authenticated and leaves
everything else as it is.

A position in a text is represented by the rest of the text from there on, and the offsets of a
candidate count from its start.
-/
namespace ApiLoad.Redaction
open Foundation Base64

/-- `redactionTokenPrefix`, the bytes of `gld1_`. -/
def tokenPrefix : Bytes := [103, 108, 100, 49, 95]

def underscore : UInt8 := 95

def maxRedactionPlaintextBytes : Nat := 16 * 2 ^ 20
def maxRedactionTokensPerText : Nat := 65536
def redactionCiphertextOverhead : Nat := 16
def maxEncodedLen : Nat := encodedLen (maxRedactionPlaintextBytes + redactionCiphertextOverhead)

/-- The deterministic authenticated cipher behind a `redactionCipher`. Decryption also takes the
header, which is authenticated but not encrypted. -/
structure RedactionCipher where
  decryptDeterministically : Bytes → Bytes → Option Bytes

/-! ## Headers -/

def isDigit (c : UInt8) : Bool := 48 ≤ c && c ≤ 57

/-- The digits of a header and the text behind it, if the text starts with a header. -/
def splitHeader (text : Bytes) : Option (Bytes × Bytes) :=
  if tokenPrefix.isPrefixOf text then
    let rest := text.drop tokenPrefix.length
    let digits := rest.takeWhile isDigit
    match rest.drop digits.length with
    | c :: body => if digits ≠ [] ∧ c = underscore then some (digits, body) else none
    | [] => none
  else none

def header (digits : Bytes) : Bytes := tokenPrefix ++ digits ++ [underscore]

/-- One round of the loop that reads a length; the flag tells that it has become too large. -/
def readDigit (cap : Nat) (read : Nat × Bool) (c : UInt8) : Nat × Bool :=
  let digit := c.toNat - 48
  if read.2 || (cap - digit) / 10 < read.1 then (read.1, true) else (read.1 * 10 + digit, false)

/-- The length that a header declares. A length that is zero, too large, or written with a leading
zero is refused. -/
def headerLength (cap : Nat) (digits : Bytes) : Option Nat :=
  let (length, oversize) := digits.foldl (readDigit cap) (0, false)
  if oversize || length = 0 || (1 < digits.length && digits.head? = some 48) then none
  else some length

structure TokenCandidate where
  headerEnd : Nat := 0
  endAt : Nat := 0
  found : Bool := false
  malformed : Bool := false
  badHeader : Bool := false
deriving DecidableEq, Repr

def parseRedactionCandidate (text : Bytes) : TokenCandidate :=
  match splitHeader text with
  | none => {}
  | some (digits, body) =>
    let headerEnd := (header digits).length
    match headerLength maxEncodedLen digits with
    | none => { headerEnd, found := true, malformed := true, badHeader := true }
    | some length =>
      { headerEnd, endAt := headerEnd + length, found := true
        malformed := length < encodedLen redactionCiphertextOverhead || body.length < length }

def unrestoredCandidateEnd (text : Bytes) (candidate : TokenCandidate) : Nat :=
  if candidate.badHeader then candidate.headerEnd
  else
    let last := min candidate.endAt text.length
    let body := (text.drop candidate.headerEnd).take (last - candidate.headerEnd)
    candidate.headerEnd + (body.takeWhile isURLByte).length

def ciphertext (encoded : Bytes) : Option Bytes :=
  if encoded.all isURLByte then
    (decode encoded).filter fun data => redactionCiphertextOverhead ≤ data.length
  else none

namespace RedactionCipher

def decryptCandidate (cipher : RedactionCipher) (text : Bytes) (candidate : TokenCandidate) :
    Option Bytes :=
  if !candidate.found || candidate.malformed then none
  else
    let encoded := (text.drop candidate.headerEnd).take (candidate.endAt - candidate.headerEnd)
    (ciphertext encoded).bind fun data =>
      cipher.decryptDeterministically data (text.take candidate.headerEnd)

/-- `ValidTokenAt` at a position. -/
def validTokenAt (cipher : RedactionCipher) (text : Bytes) : Nat × Bool :=
  let candidate := parseRedactionCandidate text
  if (cipher.decryptCandidate text candidate).isNone then (0, false) else (candidate.endAt, true)

end RedactionCipher

/-! ## Restoring a text -/

/-- `strings.Index` of the prefix of tokens. -/
def indexPrefix : Bytes → Option Nat
  | [] => none
  | c :: text =>
    if tokenPrefix.isPrefixOf (c :: text) then some 0 else (indexPrefix text).map (· + 1)

/-- The loop of `RestoreText` over the rest of the text. What has been passed is carried along as
written; every round passes at least the prefix. -/
def restoreLoop (cipher : RedactionCipher) : Nat → Bytes → Bytes → Nat → Except String Bytes
  | 0, rest, out, _ => .ok (out ++ rest)
  | rounds + 1, rest, out, tokens =>
    match indexPrefix rest with
    | none => .ok (out ++ rest)
    | some relative =>
      let out := out ++ rest.take relative
      let text := rest.drop relative
      let candidate := parseRedactionCandidate text
      if !candidate.found then
        restoreLoop cipher rounds (text.drop tokenPrefix.length)
          (out ++ text.take tokenPrefix.length) tokens
      else if maxRedactionTokensPerText < tokens + 1 then
        .error "redaction token count exceeds maximum"
      else match cipher.decryptCandidate text candidate with
        | none =>
          let scan := unrestoredCandidateEnd text candidate
          restoreLoop cipher rounds (text.drop scan) (out ++ text.take scan) (tokens + 1)
        | some plaintext =>
          restoreLoop cipher rounds (text.drop candidate.endAt) (out ++ plaintext) (tokens + 1)

def RedactionCipher.restoreText (cipher : RedactionCipher) (text : Bytes) : Except String Bytes :=
  restoreLoop cipher text.length text [] 0

end ApiLoad.Redaction
