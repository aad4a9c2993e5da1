import ApiLoad.Requestredact.Spans

/-!
# Records come back

A wrapped signature is read back as the record that was wrapped, whichever of the two alphabets it
is written with and whether or not it is padded. The only paths that do not survive are those with
a position above the largest 32 bit integer.
-/
namespace ApiLoad.Requestredact
open Foundation Base64 Redaction Json

variable {lib : Stdlib}

/-! ## The JSON form -/

/-- A position that `normalizeSignaturePath` accepts. -/
def SmallStep : Step Bytes → Prop
  | .name _ => True
  | .index position => position ≤ maxInt32

def rawString (entry : SignatureString) : RawString where
  path := entry.path.map encodeStep
  hash := entry.hash
  spans := entry.spans

@[simp] theorem decodeInt_natCast (n : Nat) : decodeInt (.num n) = .ok n := by
  simp [decodeInt]

@[simp] theorem decodeInt_intCast (n : Int) : decodeInt (.num n) = .ok n := by
  simp [decodeInt]

theorem decodeSpan_encodeSpan (span : RestoreSpan) : decodeSpan (encodeSpan span) = .ok span := by
  have natural (n : Nat) : decodePart 0 decodeInt (.num n) = .ok (n : Int) := decodeInt_natCast n
  simp only [encodeSpan, decodeSpan, natural]
  simp [decodePart, asString, bind, Except.bind]

theorem decodeString_encodeString (entry : SignatureString) :
    decodeString (encodeString entry) = .ok (rawString entry) := by
  have path : asArray .ok (.arr (entry.path.map encodeStep)) =
      .ok (entry.path.map encodeStep) := asArray_map_eq fun _ _ => rfl
  have spans : asArray decodeSpan (.arr (entry.spans.map encodeSpan)) = .ok entry.spans :=
    asArray_map fun span _ => decodeSpan_encodeSpan span
  have names : ascii "h" ≠ ascii "p" ∧ ascii "r" ≠ ascii "p" ∧ ascii "h" ≠ ascii "r" ∧
      ascii "p" ≠ ascii "r" ∧ ascii "r" ≠ ascii "h" := by decide +kernel
  by_cases empty : entry.spans = []
  · simp [encodeString, encodePath, decodeString, decodeMembers, field, empty, path, rawString,
      asString, bind, Except.bind, names]
  · simp [encodeString, encodePath, decodeString, decodeMembers, field, empty, path, spans,
      rawString, asString, bind, Except.bind, names]

theorem decodeRecord_encodeRecord (record : SignatureRecord) :
    decodeRecord (encodeRecord record) =
      .ok ⟨record.version, record.signature, record.strings.map rawString⟩ := by
  have strings : asArray decodeString (.arr (record.strings.map encodeString)) =
      .ok (record.strings.map rawString) :=
    asArray_map_eq fun entry _ => decodeString_encodeString entry
  have names : ascii "s" ≠ ascii "v" ∧ ascii "f" ≠ ascii "v" ∧ ascii "f" ≠ ascii "s" := by
    decide +kernel
  simp [encodeRecord, decodeRecord, decodeMembers, field, strings, asString, bind, Except.bind,
    names]

theorem normalizeElement_encodeStep (h : SmallStep step) :
    normalizeElement (encodeStep step) = some step := by
  cases step with
  | name name => rfl
  | index position =>
    have bound : ¬ (maxInt32 : ℚ) < position := by
      rw [not_lt]
      exact_mod_cast h
    simp [encodeStep, normalizeElement, bound]

theorem mapM_of_forall {α β : Type} {f : α → Option β} {g : β → α} {items : List β}
    (h : ∀ item ∈ items, f (g item) = some item) : (items.map g).mapM f = some items := by
  induction items with
  | nil => rfl
  | cons item items ih =>
    rw [List.map_cons, List.mapM_cons, h item (by simp), ih fun i hi => h i (by simp [hi])]
    rfl

/-- A record whose paths `normalizeSignaturePath` accepts. -/
structure Acceptable (record : SignatureRecord) : Prop where
  version : record.version = signatureRecordVersion
  signature : record.signature ≠ []
  path : ∀ entry ∈ record.strings, entry.path ≠ [] ∧ ∀ step ∈ entry.path, SmallStep step

variable {record : SignatureRecord}

theorem acceptRecord_of_acceptable (h : Acceptable record) :
    acceptRecord ⟨record.version, record.signature, record.strings.map rawString⟩ =
      some record := by
  have each : ∀ entry ∈ record.strings, normalizeString (rawString entry) = some entry := by
    intro entry he
    obtain ⟨nonempty, small⟩ := h.path entry he
    have path : normalizeSignaturePath (entry.path.map encodeStep) = some entry.path := by
      rw [normalizeSignaturePath, if_neg (by simpa using nonempty)]
      exact mapM_of_forall fun step hs => normalizeElement_encodeStep (small step hs)
    rw [normalizeString, rawString, path, Option.map_some]
  rw [acceptRecord, if_neg (not_or.mpr ⟨not_not.mpr h.version, h.signature⟩)]
  dsimp only
  rw [mapM_of_forall each, Option.map_some]

/-! ## Unwrapping -/

/-- The prefix of the gateway is the encoding of its magic. -/
theorem encodePadded_magic (payload : Bytes) :
    ∃ rest, encodePadded (signatureMagic ++ payload) = signatureWrapperPrefix ++ rest := by
  have group (a b c : UInt8) (rest : Bytes) :
      encode (a :: b :: c :: rest) = encode [a, b, c] ++ encode rest := by
    simp only [encode, List.cons_append, List.nil_append]
  have encoded : encode (signatureMagic ++ payload) = signatureWrapperPrefix ++ encode payload := by
    have bytes : signatureMagic = [71, 76, 68, 83, 73, 71] := by decide +kernel
    have wrapper : signatureWrapperPrefix = encode [71, 76, 68] ++ encode [83, 73, 71] := by
      decide +kernel
    rw [bytes, wrapper, List.append_assoc, ← group, ← group]
    rfl
  have alphabet : signatureWrapperPrefix.map stdByte = signatureWrapperPrefix := by decide +kernel
  rw [encodePadded, encodeStd, encoded, List.map_append, alphabet, List.append_assoc]
  exact ⟨_, rfl⟩

theorem rdropWhile_wrapper (rest : Bytes) :
    ∃ rest', (signatureWrapperPrefix ++ rest).rdropWhile (· = padByte) =
      signatureWrapperPrefix ++ rest' := by
  have kept : (signatureWrapperPrefix.reverse).dropWhile (· = padByte) =
      signatureWrapperPrefix.reverse := by decide +kernel
  rw [List.rdropWhile, List.reverse_append, List.dropWhile_append, kept]
  split
  · exact ⟨[], by simp⟩
  · exact ⟨(rest.reverse.dropWhile (· = padByte)).reverse, by simp⟩

/-- Every spelling of a wrapped text begins with the prefix of the gateway. -/
theorem prefix_reencode (urlSafe padded : Bool) (payload : Bytes) :
    signatureWrapperPrefix.isPrefixOf
      (reencode urlSafe padded (encodePadded (signatureMagic ++ payload))) = true := by
  have alphabet : signatureWrapperPrefix.map urlByte = signatureWrapperPrefix := by decide +kernel
  obtain ⟨rest, text_eq⟩ := encodePadded_magic payload
  obtain ⟨rest', trimmed⟩ := rdropWhile_wrapper rest
  rw [List.isPrefixOf_iff_prefix, text_eq]
  cases urlSafe <;> cases padded <;>
    simp [reencode, trimmed, alphabet]

theorem unwrapSignature_reencode (urlSafe padded : Bool) (valid : Marshallable record) :
    unwrapSignature lib (reencode urlSafe padded
      (encodePadded (signatureMagic ++ lib.marshal (encodeRecord record)))) =
      (acceptRecord ⟨record.version, record.signature, record.strings.map rawString⟩, true) := by
  have decoded : lib.unmarshal ((signatureMagic ++ lib.marshal (encodeRecord record)).drop
      signatureMagic.length) = some (encodeRecord record) := by
    rw [List.drop_left]
    exact lib.unmarshal_record _ valid
  have magic : signatureMagic.isPrefixOf (signatureMagic ++ lib.marshal (encodeRecord record)) =
      true := List.isPrefixOf_iff_prefix.mpr (List.prefix_append _ _)
  rw [unwrapSignature, if_pos (prefix_reencode urlSafe padded _), normalize_reencode,
    normalize_encodePadded, decodeRawStd_encodeStd]
  dsimp only
  rw [if_pos magic, decoded, Option.map_some, decodeRecord_encodeRecord]

end ApiLoad.Requestredact
