import ApiLoad.Requestredact.SignedContent
import ApiLoad.Redaction.Token

/-!
# Signature records

The gateway answers a client with restored strings, but the upstream checks its signature against
the strings it wrote. The gateway therefore replaces the signature of a block by a record of the
upstream signature, of a hash of every signed string as the client sees it and of the pieces that
were restored, with the upstream text for each (`internal/requestredact/signature.go` and
`internal/gateway/redaction_restore_signature.go`). When the client sends the block back unchanged,
the record gives the upstream strings and the upstream signature.
-/
namespace ApiLoad.Requestredact
open Foundation Base64 Redaction Json Utf8

def signatureMagic : Bytes := ascii "GLDSIG"
def signatureWrapperPrefix : Bytes := ascii "R0xEU0lH"
def signatureRecordVersion : Int := 2
def signatureHashBytes : Nat := 12
def maxInt32 : Nat := 2 ^ 31 - 1
def maxInt : Nat := 2 ^ 63 - 1

def errSignatureRecord : String := "invalid signature record"

structure SignatureString where
  path : Path
  hash : Bytes
  spans : List RestoreSpan
deriving DecidableEq, Repr

structure SignatureRecord where
  version : Int
  signature : Bytes
  strings : List SignatureString
deriving DecidableEq, Repr

/-! ## The JSON form of a record -/

def encodeStep : Step Bytes → Value
  | .name name => .str name
  | .index position => .num position

def encodePath (path : Path) : Value := .arr (path.map encodeStep)

def encodeSpan (span : RestoreSpan) : Value :=
  .arr [.num span.offset, .num span.length, .str span.original]

/-- A string without spans has no member for them (`omitempty`). -/
def encodeString (entry : SignatureString) : Value :=
  .obj ([(ascii "p", encodePath entry.path), (ascii "h", .str entry.hash)] ++
    if entry.spans = [] then [] else [(ascii "r", .arr (entry.spans.map encodeSpan))])

def encodeRecord (record : SignatureRecord) : Value :=
  .obj [(ascii "v", .num record.version), (ascii "s", .str record.signature),
    (ascii "f", .arr (record.strings.map encodeString))]

/-- A step of valid UTF-8 or to a position below a bound. -/
def Within (bound : Nat) : Step Bytes → Prop
  | .name name => validString name = true
  | .index position => position < bound

/-- A record that `json.Unmarshal` can read back: the positions of a path are read as `float64`, the
numbers of a span as `int`. -/
structure Marshallable (record : SignatureRecord) : Prop where
  version : record.version = signatureRecordVersion
  signature : validString record.signature = true
  hash : ∀ entry ∈ record.strings, validString entry.hash = true
  path : ∀ entry ∈ record.strings, ∀ step ∈ entry.path, Within (2 ^ 53) step
  span : ∀ entry ∈ record.strings, ∀ span ∈ entry.spans,
    span.offset ≤ maxInt ∧ span.length ≤ maxInt ∧ validString span.original = true

/-- What is used of `encoding/json` and `crypto/sha256`: the texts of two paths differ, and the text
of a record is read back. -/
structure Stdlib where
  sha256 : Bytes → Bytes
  marshal : Value → Bytes
  unmarshal : Bytes → Option Value
  marshal_path : ∀ left right : Path, (∀ step ∈ left, Within maxInt step) →
    (∀ step ∈ right, Within maxInt step) →
    marshal (encodePath left) = marshal (encodePath right) → left = right
  unmarshal_record : ∀ record, Marshallable record →
    unmarshal (marshal (encodeRecord record)) = some (encodeRecord record)

def signatureHash (lib : Stdlib) (value : Bytes) : Bytes :=
  encode ((lib.sha256 value).take signatureHashBytes)

def decodeInt : Value → Except String Int
  | .num n => if n.den = 1 then .ok n.num else .error mismatch
  | _ => .error mismatch

/-- `json.Unmarshal` of a part of a span: `null` leaves the zero value. -/
def decodePart {α : Type} (zero : α) (decode : Value → Except String α) : Value → Except String α
  | .null => .ok zero
  | value => decode value

/-- `signatureSpan.UnmarshalJSON` -/
def decodeSpan : Value → Except String RestoreSpan
  | .arr [offset, length, original] => do
    let offset ← decodePart 0 decodeInt offset
    let length ← decodePart 0 decodeInt length
    let original ← decodePart [] asString original
    if offset < 0 ∨ length < 0 then .error errSignatureRecord
    else .ok { offset := offset.toNat, length := length.toNat, original }
  | _ => .error errSignatureRecord

/-- The members of a struct; `null` leaves its zero value. -/
def decodeMembers : Value → Except String (List (Bytes × Value))
  | .null => .ok []
  | .obj members => .ok members
  | _ => .error mismatch

/-- An entry as decoded, with the elements of its path still of any type. -/
structure RawString where
  path : List Value
  hash : Bytes
  spans : List RestoreSpan

def decodeString (value : Value) : Except String RawString := do
  let members ← decodeMembers value
  let path ← field members (ascii "p") [] (asArray .ok)
  let hash ← field members (ascii "h") [] asString
  let spans ← field members (ascii "r") [] (asArray decodeSpan)
  .ok { path, hash, spans }

structure RawRecord where
  version : Int
  signature : Bytes
  strings : List RawString

def decodeRecord (value : Value) : Except String RawRecord := do
  let members ← decodeMembers value
  let version ← field members (ascii "v") 0 decodeInt
  let signature ← field members (ascii "s") [] asString
  let strings ← field members (ascii "f") [] (asArray decodeString)
  .ok { version, signature, strings }

def normalizeElement : Value → Option (Step Bytes)
  | .str name => some (.name name)
  | .num n => if n < 0 ∨ n.den ≠ 1 ∨ (maxInt32 : ℚ) < n then none else some (.index n.num.toNat)
  | _ => none

def normalizeSignaturePath (path : List Value) : Option Path :=
  if path = [] then none else path.mapM normalizeElement

def normalizeString (raw : RawString) : Option SignatureString :=
  (normalizeSignaturePath raw.path).map fun path => { path, hash := raw.hash, spans := raw.spans }

/-! ## Wrapping and unwrapping -/

def recordOf (lib : Stdlib) (signature : Bytes) (values : List SignedString) : SignatureRecord where
  version := signatureRecordVersion
  signature := signature
  strings := values.map fun value =>
    { path := value.path, hash := signatureHash lib value.value, spans := value.spans }

def wrapSignature (lib : Stdlib) (signature : Bytes) (values : List SignedString) : Bytes :=
  if signature = [] then signature
  else encodePadded (signatureMagic ++ lib.marshal (encodeRecord (recordOf lib signature values)))

/-- What `unwrapSignature` makes of a decoded record. -/
def acceptRecord (raw : RawRecord) : Option SignatureRecord :=
  if raw.version ≠ signatureRecordVersion ∨ raw.signature = [] then none
  else (raw.strings.mapM normalizeString).map fun strings =>
    { version := raw.version, signature := raw.signature, strings }

/-- `unwrapSignature`; the flag tells that the text has the prefix of the gateway. -/
def unwrapSignature (lib : Stdlib) (value : Bytes) : Option SignatureRecord × Bool :=
  if signatureWrapperPrefix.isPrefixOf value then
    match decodeRawStd (normalize value) with
    | none => (none, true)
    | some raw =>
      if signatureMagic.isPrefixOf raw then
        match (lib.unmarshal (raw.drop signatureMagic.length)).map decodeRecord with
        | some (.ok record) => (acceptRecord record, true)
        | _ => (none, true)
      else (none, true)
  else (none, false)

/-! ## Checking a block -/

structure SignedRestore where
  path : Path
  text : Bytes
deriving DecidableEq, Repr

/-- The rest of a string from a position, with the spans that begin there put back. -/
def applySpans (value : Bytes) (position : Nat) : List RestoreSpan → Option Bytes
  | [] => some (value.drop position)
  | span :: spans =>
    if span.offset < position ∨ value.length < span.offset + span.length then none
    else (applySpans value (span.offset + span.length) spans).map fun after =>
      (value.drop position).take (span.offset - position) ++ span.original ++ after

def restoreSignedString (lib : Stdlib) (value : Bytes) (entry : SignatureString) : Option Bytes :=
  if signatureHash lib value ≠ entry.hash then none
  else (applySpans value 0 entry.spans).filter fun restored => validString restored

/-- The key of a path among the entries of a record. -/
def pathKey (lib : Stdlib) (path : Path) : Bytes := lib.marshal (encodePath path)

/-- The text that the entries have for a string. -/
def restoredText (lib : Stdlib) (entries : List (Bytes × SignatureString)) (value : SignedString) :
    Option Bytes :=
  (entries.lookup (pathKey lib value.path)).bind (restoreSignedString lib value.value)

/-- The round over the strings of a block; only those that change are listed. -/
def restoreEach (lib : Stdlib) (entries : List (Bytes × SignatureString)) :
    List SignedString → Option (List SignedRestore)
  | [] => some []
  | value :: values => do
    let text ← restoredText lib entries value
    let restored ← restoreEach lib entries values
    some (if text = value.value then restored else { path := value.path, text } :: restored)

def restoreSignedBlock (lib : Stdlib) (block : Value) (signature : Path)
    (record : SignatureRecord) : Option (List SignedRestore) := do
  let values ← signedContent block signature
  if values.length ≠ record.strings.length then none
  let entries := record.strings.map fun entry => (pathKey lib entry.path, entry)
  -- an entry whose key is already present refuses the record
  if ¬ (entries.map Prod.fst).Nodup then none
  restoreEach lib entries values

/-- The block with its replacements made. -/
def applyRestores (block : Value) (restored : List SignedRestore) : Value :=
  restored.foldl (fun block r => block.setAt r.path (.str r.text)) block

/-! ## Signing a block -/

namespace redactionSigner

/-- The loop of `spans` over the rest of the original from `scan` on. What has been passed since
the end of the last span is carried along, and what has been built; every round passes at least the
prefix of a token. -/
def spansLoop (cipher : RedactionCipher) :
    Nat → Bytes → Bytes → Bytes → List RestoreSpan → Bytes × List RestoreSpan
  | 0, rest, passed, built, spans => (built ++ passed ++ rest, spans)
  | rounds + 1, rest, passed, built, spans =>
    match indexPrefix rest with
    | none => (built ++ passed ++ rest, spans)
    | some relative =>
      let passed := passed ++ rest.take relative
      let text := rest.drop relative
      let (last, valid) := cipher.validTokenAt text
      if !valid then
        spansLoop cipher rounds (text.drop tokenPrefix.length)
          (passed ++ text.take tokenPrefix.length) built spans
      else
        let token := text.take last
        match cipher.restoreText token with
        | .error _ => spansLoop cipher rounds (text.drop last) (passed ++ token) built spans
        | .ok plaintext =>
          if plaintext = token then
            spansLoop cipher rounds (text.drop last) (passed ++ token) built spans
          else
            let before := built ++ passed
            let span := { offset := before.length, length := plaintext.length, original := token }
            spansLoop cipher rounds (text.drop last) [] (before ++ plaintext) (spans ++ [span])

def spans (cipher : RedactionCipher) (original restored : Bytes) : List RestoreSpan :=
  if original = restored then []
  else
    let (built, spans) := spansLoop cipher original.length original [] [] []
    if built ≠ restored then [{ offset := 0, length := restored.length, original }] else spans

/-- A signed string with the spans that lead back to the same string of the original. -/
def withSpans (cipher : RedactionCipher) (original : Value) (value : SignedString) :
    Option SignedString :=
  match original.valueAt value.path with
  | some (.str upstream) => some { value with spans := spans cipher upstream value.value }
  | _ => none

/-- The values that `signPayload` records for one block. -/
def signedValues (cipher : RedactionCipher) (original restored : Value) (signature : Path) :
    Option (List SignedString) :=
  (signedContent restored signature).bind fun values => values.mapM (withSpans cipher original)

end redactionSigner

end ApiLoad.Requestredact
