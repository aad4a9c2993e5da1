import ApiLoad.Foundation.JsonText
import ApiLoad.Requestredact.SignedBlock

/-!
# The round trip of a signed block

What the gateway hands to the client, what the client sends back and what the upstream then sees.
-/
namespace ApiLoad.Requestredact
open Foundation Base64 Redaction Json Utf8 List

/-- The arrays that a recorded path can lead through. -/
def ShortArrays (block : Value) : Prop :=
  ∀ path items, block.valueAt path = some (.arr items) → items.length ≤ maxInt32 + 1

section Record

variable {lib : Stdlib} {cipher : RedactionCipher} {original restored : Value} {signature : Path}
  {upstream : Bytes} {values : List SignedString}
  (recorded : Recorded cipher original restored signature values)
include recorded

theorem short_path (short : ShortArrays restored) {value : SignedString} (hv : value ∈ values)
    (mem : .index position ∈ value.path) : position ≤ maxInt32 :=
  Nat.le_of_lt_succ (index_lt short (recorded.content hv).1 mem)

/-- What is recorded can be read back, if the positions are those of arrays within a bound. -/
theorem recordOf_marshallable (validOriginal : InMemory original)
    (validRestored : InMemory restored)
    (signed : original.valueAt signature = some (.str upstream))
    (exact : ∀ value ∈ values, ∀ position, .index position ∈ value.path → position < 2 ^ 53) :
    Marshallable (recordOf lib upstream values) := by
  have entries {entry : SignatureString} (he : entry ∈ (recordOf lib upstream values).strings) :
      ∃ value ∈ values, entry = entryOf lib value := by
    obtain ⟨value, hv, rfl⟩ := mem_map.mp he
    exact ⟨value, hv, rfl⟩
  refine ⟨rfl, (validOriginal.text signed).1, ?_, ?_, ?_⟩
  · intro entry he
    obtain ⟨value, hv, rfl⟩ := entries he
    exact validString_ascii fun c hc => isURLByte_ascii c (encode_urlBytes _ c hc)
  · intro entry he step hs
    obtain ⟨value, hv, rfl⟩ := entries he
    cases step with
    | name name => exact valid_path recorded validRestored hv _ hs
    | index position => exact exact value hv position hs
  intro entry he span hs
  obtain ⟨value, hv, rfl⟩ := entries he
  obtain ⟨text, found, spans⟩ := recorded.back value hv
  rw [entryOf, spans] at hs
  have inside := le_of_applySpans (applySpans_spans text value.value) span hs
  have bound := (validRestored.text (recorded.content hv).1).2
  exact ⟨by omega, by omega, spans_valid (validOriginal.text found).1 span hs⟩

theorem recordOf_acceptable (same : original.SameStructure restored)
    (signed : original.valueAt signature = some (.str upstream)) (nonempty : upstream ≠ [])
    (short : ShortArrays restored) : Acceptable (recordOf lib upstream values) := by
  refine ⟨rfl, nonempty, fun entry he => ?_⟩
  obtain ⟨value, hv, rfl⟩ := List.mem_map.mp he
  have content := recorded.content hv
  constructor
  · -- a block that is a string has no place for a signature
    intro empty
    obtain ⟨text, found⟩ := same.str_of_str content.1
    have root : original = .str text := by
      rw [show value.path = [] from empty] at found
      exact Option.some.inj found
    rw [root] at signed
    exact content.2.1 (empty.trans (eq_nil_of_valueAt_str signed).symm)
  · intro step hs
    cases step with
    | name name => trivial
    | index position => exact short_path recorded short hv hs

end Record

/-- A block that comes back with its wrapped signature, in any spelling, is accepted exactly if its
signed strings are those that the client was given, and then it becomes the upstream's block again:
the signed strings and the signature are those of the original, other strings are as returned. -/
theorem signed_block_returns (lib : Stdlib) (cipher : RedactionCipher)
    (original restored returned : Value) (signature : Path) (upstream : Bytes)
    (urlSafe padded : Bool) (signed : original.valueAt signature = some (.str upstream))
    (nonempty : upstream ≠ []) (same : original.SameStructure restored)
    (distinct : restored.Distinct) (distinctReturned : returned.Distinct)
    (validOriginal : InMemory original) (validRestored : InMemory restored)
    (validReturned : InMemory returned)
    (shallow : (signedContent restored signature).isSome)
    (shallowReturned : (signedContent returned signature).isSome) (short : ShortArrays restored)
    (noCollision : NoCollision lib signature returned restored) :
    ∃ values, redactionSigner.signedValues cipher original restored signature = some values ∧
      (returned.valueAt signature =
          some (.str (reencode urlSafe padded (wrapSignature lib upstream values))) →
        ∃ record,
          unwrapSignature lib (reencode urlSafe padded (wrapSignature lib upstream values)) =
            (some record, true) ∧
          ((restoreSignedBlock lib returned signature record).isSome ↔
            SameSigned signature returned restored) ∧
          ∀ replacements, restoreSignedBlock lib returned signature record = some replacements →
            let block := (applyRestores returned replacements).setAt signature
              (.str record.signature)
            block.valueAt signature = original.valueAt signature ∧
            (∀ path text, Signed signature restored path text →
              block.valueAt path = original.valueAt path) ∧
            (∀ path text, returned.valueAt path = some (.str text) → path ≠ signature →
              ¬ Signed signature returned path text → block.valueAt path = some (.str text))) := by
  obtain ⟨values, signing, recorded⟩ := signedValues_recorded cipher distinct same shallow
  have exact : ∀ value ∈ values, ∀ position, .index position ∈ value.path → position < 2 ^ 53 := by
    intro value hv position hp
    have := short_path recorded short hv hp
    simp only [maxInt32] at this
    omega
  refine ⟨values, signing, fun carried => ⟨recordOf lib upstream values, ?_, ?_, ?_⟩⟩
  · rw [wrapSignature, if_neg nonempty,
      unwrapSignature_reencode urlSafe padded
        (recordOf_marshallable recorded validOriginal validRestored signed exact),
      acceptRecord_of_acceptable (recordOf_acceptable recorded same signed nonempty short)]
  · exact restoreSignedBlock_isSome_iff recorded validOriginal validRestored validReturned
      distinctReturned shallowReturned noCollision
  intro replacements accepted block
  have sameSigned := (restoreSignedBlock_isSome_iff recorded validOriginal
    validRestored validReturned distinctReturned shallowReturned noCollision).mp
    (by rw [accepted]; rfl)
  obtain ⟨replaced, kept⟩ := restoreSignedBlock_replaces recorded validOriginal validRestored
    validReturned distinctReturned noCollision accepted
  have place := kept signature _ carried fun h => h.2.1 rfl
  refine ⟨?_, ?_, ?_⟩
  · rw [signed]
    exact valueAt_setAt_self place
  · intro path text h
    obtain ⟨old, hold⟩ := same.str_of_str h.1
    have there := replaced path text ((sameSigned path text).mpr h)
    rw [hold] at there ⊢
    exact valueAt_setAt_str place there (Ne.symm h.2.1)
  · intro path text found elsewhere unsigned
    exact valueAt_setAt_str place (kept path text found unsigned) (Ne.symm elsewhere)

/-! ## A thinking block -/

/-- The number that JSON texts have for a natural one. -/
def natural (n : ℚ) : Nat := n.num.toNat

@[simp] theorem natural_natCast (n : Nat) : natural n = n := by
  simp [natural]

theorem encodePath_printable (path : Path) :
    JsonText.Printable natural (fun n => (n : ℚ)) (encodePath path) := by
  refine .arr fun item hi => ?_
  obtain ⟨step, -, rfl⟩ := mem_map.mp hi
  cases step with
  | name name => exact .str name
  | index position => exact .num (by rw [natural_natCast])

theorem encodeRecord_printable (h : Marshallable record) :
    JsonText.Printable natural (fun n => (n : ℚ)) (encodeRecord record) := by
  refine .obj ?_
  simp only [forall_mem_cons, not_mem_nil, false_implies, implies_true, and_true]
  refine ⟨.num ?_, .str _, .arr fun item hi => ?_⟩
  · rw [h.version]
    rfl
  obtain ⟨entry, -, rfl⟩ := mem_map.mp hi
  refine .obj fun m hm => ?_
  simp only [mem_append, mem_cons, not_mem_nil, or_false] at hm
  obtain (rfl | rfl) | hm := hm
  · exact encodePath_printable entry.path
  · exact .str _
  split at hm
  · cases hm
  obtain rfl := mem_singleton.mp hm
  refine .arr fun item hi => ?_
  obtain ⟨span, -, rfl⟩ := mem_map.mp hi
  refine .arr ?_
  simp only [forall_mem_cons, not_mem_nil, false_implies, implies_true, and_true]
  exact ⟨.num (by rw [natural_natCast]), .num (by rw [natural_natCast]), .str _⟩

theorem encodeStep_injective : Function.Injective encodeStep := by
  intro left right h
  cases left <;> cases right <;> simp_all [encodeStep]

/-- JSON texts without spaces; the hash is the beginning of a text. -/
def jsonLib : Stdlib where
  sha256 text := text
  marshal := JsonText.print natural
  unmarshal := JsonText.parse fun n => (n : ℚ)
  marshal_path left right _ _ h := by
    have same := JsonText.print_injective (encodePath_printable left) (encodePath_printable right) h
    exact map_injective_iff.mpr encodeStep_injective (Json.arr.inj same)
  unmarshal_record _ h := JsonText.parse_print (encodeRecord_printable h)

example : jsonLib.marshal (encodePath [.name (ascii "input"), .index 3]) =
    ascii "[\"input\",3]" := by
  decide +kernel

def noCipher : RedactionCipher := ⟨fun _ _ => none⟩

def signaturePath : Path := [.name (ascii "signature")]

def thinkingBlock (signature thinking : Bytes) : Value :=
  .obj [(ascii "type", .str (ascii "thinking")), (ascii "signature", .str signature),
    (ascii "thinking", .str thinking)]

section Sample

variable {signature thinking : Bytes}

theorem thinkingBlock_content (signature thinking : Bytes) :
    signedContent (thinkingBlock signature thinking) signaturePath =
      some [⟨[.name (ascii "thinking")], thinking, []⟩] := rfl

theorem thinkingBlock_distinct : (thinkingBlock signature thinking).Distinct := by
  have names : [ascii "type", ascii "signature", ascii "thinking"].Nodup := by decide +kernel
  refine .obj names ?_
  simp [Distinct.str]

theorem thinkingBlock_signed (path : Path) (text : Bytes) :
    Signed signaturePath (thinkingBlock signature thinking) path text ↔
      path = [.name (ascii "thinking")] ∧ text = thinking := by
  have mem := mem_signedContent thinkingBlock_distinct
    (thinkingBlock_content signature thinking) ⟨path, text, []⟩
  simpa using mem.symm

theorem inMemory_str (h : Sound text) : InMemory (.str text) :=
  .leaf h fun step => by cases step <;> rfl

theorem thinkingBlock_inMemory (hs : Sound signature) (ht : Sound thinking) :
    InMemory (thinkingBlock signature thinking) := by
  have names : ∀ name ∈ [ascii "type", ascii "signature", ascii "thinking"], Sound name := by
    decide +kernel
  refine .obj ?_ ?_
  · simpa [Holds] using names
  · have kind : Sound (ascii "thinking") := by decide +kernel
    simpa using ⟨inMemory_str kind, inMemory_str hs, inMemory_str ht⟩

/-- A thinking block has strings and nothing else. -/
theorem thinkingBlock_kind (signature thinking : Bytes) (path : Path) :
    ((thinkingBlock signature thinking).valueAt path).map kind = none ∨
      ((thinkingBlock signature thinking).valueAt path).map kind = some .str ∨
      ((thinkingBlock signature thinking).valueAt path).map kind =
        some (.obj [ascii "type", ascii "signature", ascii "thinking"]) := by
  match path with
  | [] => exact .inr (.inr rfl)
  | .index _ :: _ => exact .inl rfl
  | .name name :: path =>
    simp only [thinkingBlock, valueAt_cons, child, find?_cons]
    cases decide (ascii "type" = name) <;> cases decide (ascii "signature" = name) <;>
      cases decide (ascii "thinking" = name) <;> cases path <;>
        first | exact .inl rfl | exact .inr (.inl rfl)

theorem thinkingBlock_sameStructure :
    (thinkingBlock signature thinking).SameStructure (thinkingBlock signature other) := by
  intro path
  match path with
  | [] => rfl
  | .index _ :: _ => rfl
  | .name name :: path =>
    simp only [thinkingBlock, valueAt_cons, child, find?_cons]
    cases decide (ascii "type" = name) <;> cases decide (ascii "signature" = name) <;>
      cases decide (ascii "thinking" = name) <;> cases path <;> rfl

end Sample

/-- The spans that replace the text `y` by the text `x` of the upstream. -/
def sampleValues : List SignedString :=
  [⟨[.name (ascii "thinking")], ascii "y", [⟨0, 1, ascii "x"⟩]⟩]

def sampleReturned : Value :=
  thinkingBlock (reencode true false (wrapSignature jsonLib (ascii "s") sampleValues))
    (ascii "y")

/-- A thinking block that comes back unchanged, its signature spelled with the URL-safe alphabet
and without padding, gives the upstream's text and signature. -/
theorem signed_block_returns_thinking :
    ∃ record replacements,
      unwrapSignature jsonLib
        (reencode true false (wrapSignature jsonLib (ascii "s") sampleValues)) =
          (some record, true) ∧
      restoreSignedBlock jsonLib sampleReturned signaturePath record = some replacements ∧
      let block := (applyRestores sampleReturned replacements).setAt signaturePath
        (.str record.signature)
      block.valueAt signaturePath = some (.str (ascii "s")) ∧
        block.valueAt [.name (ascii "thinking")] = some (.str (ascii "x")) := by
  have noCollision : NoCollision jsonLib signaturePath sampleReturned
      (thinkingBlock (ascii "s") (ascii "y")) := by
    intro path text path' text' h h' _
    rw [((thinkingBlock_signed path text).mp h).2, ((thinkingBlock_signed path' text').mp h').2]
  have short : ShortArrays (thinkingBlock (ascii "s") (ascii "y")) := by
    intro path items found
    have kinds := thinkingBlock_kind (ascii "s") (ascii "y") path
    rw [found] at kinds
    rcases kinds with kinds | kinds | kinds <;> cases kinds
  obtain ⟨values, signing, returns⟩ := signed_block_returns jsonLib noCipher
    (thinkingBlock (ascii "s") (ascii "x")) (thinkingBlock (ascii "s") (ascii "y")) sampleReturned
    signaturePath (ascii "s") true false rfl (by decide +kernel) thinkingBlock_sameStructure
    thinkingBlock_distinct thinkingBlock_distinct
    (thinkingBlock_inMemory (by decide +kernel) (by decide +kernel))
    (thinkingBlock_inMemory (by decide +kernel) (by decide +kernel))
    (thinkingBlock_inMemory (by decide +kernel) (by decide +kernel)) rfl rfl short noCollision
  have computed : redactionSigner.signedValues noCipher (thinkingBlock (ascii "s") (ascii "x"))
      (thinkingBlock (ascii "s") (ascii "y")) signaturePath = some sampleValues := by decide +kernel
  have same : values = sampleValues := Option.some.inj (signing.symm.trans computed)
  subst same
  obtain ⟨record, unwrapped, accepted, restores⟩ := returns rfl
  have sameSigned : SameSigned signaturePath sampleReturned
      (thinkingBlock (ascii "s") (ascii "y")) := by
    intro path text
    rw [sampleReturned, thinkingBlock_signed, thinkingBlock_signed]
  obtain ⟨replacements, found⟩ := Option.isSome_iff_exists.mp (accepted.mpr sameSigned)
  obtain ⟨signature, strings, -⟩ := restores replacements found
  exact ⟨record, replacements, unwrapped, found, signature,
    strings _ _ ((thinkingBlock_signed _ _).mpr ⟨rfl, rfl⟩)⟩

/-! ## Two limits -/

/-- Empty arrays in each other. -/
def nested : Nat → Value
  | 0 => .arr []
  | depth + 1 => .arr [nested depth]

theorem nested_distinct (depth : Nat) : (nested depth).Distinct := by
  induction depth with
  | zero => exact .arr (by simp)
  | succ depth ih =>
    refine .arr fun item hi => ?_
    obtain rfl := mem_singleton.mp hi
    exact ih

theorem nested_no_text (depth : Nat) (path : Path) (text : Bytes) :
    (nested depth).valueAt path ≠ some (.str text) := by
  induction depth generalizing path with
  | zero => rcases path with _ | ⟨_ | _, _⟩ <;> simp [nested, valueAt_cons, child]
  | succ depth ih =>
    rcases path with _ | ⟨_ | _ | _, path⟩ <;> simp [nested, valueAt_cons, child, ih]

theorem nested_refused (h : maxSignedDepth < depth + levels) :
    collectSignedContent signature path business depth (nested levels) = none := by
  induction levels generalizing path depth with
  | zero => exact if_pos h
  | succ levels ih =>
    rw [nested, collectSignedContent, collectItems, ih (by omega)]
    split <;> rfl

/-- A thinking block with one more member, which holds no string. -/
def deepBlock (signature thinking : Bytes) : Value :=
  .obj [(ascii "type", .str (ascii "thinking")), (ascii "signature", .str signature),
    (ascii "thinking", .str thinking), (ascii "extra", nested 64)]

theorem deepBlock_content (signature thinking : Bytes) :
    signedContent (deepBlock signature thinking) signaturePath = none := by
  have skip : skipped false (ascii "type") = true ∧ skipped false (ascii "signature") = true ∧
      skipped false (ascii "thinking") = false ∧ skipped false (ascii "extra") = false := by
    decide +kernel
  have deep : collectSignedContent signaturePath ([] ++ [.name (ascii "extra")])
      (false || signedBusinessField (ascii "extra")) (0 + 1) (nested 64) = none :=
    nested_refused (by decide)
  simp only [signedContent, deepBlock, collectSignedContent, collectMembers, skip, deep, if_true]
  split <;> rfl

theorem deepBlock_signed (path : Path) (text : Bytes) :
    Signed signaturePath (deepBlock signature thinking) path text ↔
      path = [.name (ascii "thinking")] ∧ text = thinking := by
  constructor
  · rintro ⟨found, elsewhere, scope⟩
    match path with
    | [] | .index _ :: _ => cases found
    | .name name :: path =>
      have empty {leaf : Bytes} (h : (str leaf : Value).valueAt path = some (.str text)) :
          path = [] ∧ text = leaf := by
        obtain rfl := eq_nil_of_valueAt_str h
        cases h
        exact ⟨rfl, rfl⟩
      simp only [deepBlock, valueAt_cons, child, find?_cons] at found
      by_cases isType : ascii "type" = name
      · subst isType
        have skip : skipped false (ascii "type") = true := by decide +kernel
        simp [inScope, skip] at scope
      by_cases isSignature : ascii "signature" = name
      · subst isSignature
        have skip : skipped false (ascii "signature") = true := by decide +kernel
        simp [inScope, skip] at scope
      by_cases isThinking : ascii "thinking" = name
      · simp only [isType, isSignature, isThinking, decide_false, decide_true] at found
        obtain ⟨rfl, rfl⟩ := empty found
        exact ⟨by rw [isThinking], rfl⟩
      by_cases isExtra : ascii "extra" = name
      · simp only [isType, isSignature, isThinking, isExtra, decide_false, decide_true] at found
        exact absurd found (nested_no_text 64 path text)
      · simp [isType, isSignature, isThinking, isExtra] at found
  · rintro ⟨rfl, rfl⟩
    exact ⟨rfl, by decide +kernel, by decide +kernel⟩

theorem mapM_eq_none {α β : Type} {f : α → Option β} {items : List α} {item : α}
    (mem : item ∈ items) (h : f item = none) : items.mapM f = none := by
  induction items with
  | nil => cases mem
  | cons first items ih =>
    rw [mapM_cons]
    obtain rfl | mem := mem_cons.mp mem
    · rw [h]
      rfl
    · rw [ih mem]
      cases f first <;> rfl

/-- A recorded path with a position above the largest 32 bit integer is not read back. -/
theorem acceptRecord_large {record : SignatureRecord} {entry : SignatureString} (position : Nat)
    (mem : entry ∈ record.strings) (index : .index position ∈ entry.path)
    (large : maxInt32 < position) :
    acceptRecord ⟨record.version, record.signature, record.strings.map rawString⟩ = none := by
  have refused : normalizeElement (encodeStep (.index position)) = none := by
    have above : (maxInt32 : ℚ) < position := by exact_mod_cast large
    rw [encodeStep, normalizeElement, if_pos (.inr (.inr above))]
  have path : normalizeSignaturePath (entry.path.map encodeStep) = none := by
    unfold normalizeSignaturePath
    split
    · rfl
    · exact mapM_eq_none (mem_map_of_mem index) refused
  have string : normalizeString (rawString entry) = none := by
    rw [normalizeString, rawString, path]
    rfl
  rw [acceptRecord]
  split
  · rfl
  · rw [mapM_eq_none (mem_map_of_mem mem) string]
    rfl

/-- A block with a text behind `n` other items of an array. -/
def wideBlock (n : Nat) (signature text : Bytes) : Value :=
  .obj [(ascii "signature", .str signature),
    (ascii "content", .arr (replicate n .null ++ [.str text]))]

def wideValues (n : Nat) : List SignedString :=
  [⟨[.name (ascii "content"), .index n], ascii "y", [⟨0, 1, ascii "x"⟩]⟩]

section Wide

variable {n : Nat}

theorem collectItems_replicate (h : depth ≤ maxSignedDepth) (items : List Value) :
    collectItems signature path business depth index (replicate n .null ++ items) =
      collectItems signature path business depth (index + n) items := by
  induction n generalizing index with
  | zero => rfl
  | succ n ih =>
    rw [replicate_succ, cons_append, collectItems, collectSignedContent, if_neg (by omega), ih,
      Nat.add_right_comm]
    simp [Nat.add_assoc]

variable {signature text : Bytes}

theorem wideBlock_content :
    signedContent (wideBlock n signature text) signaturePath =
      some [⟨[.name (ascii "content"), .index n], text, []⟩] := by
  have skip : skipped false (ascii "signature") = true ∧
      skipped false (ascii "content") = false := by decide +kernel
  have items : collectItems signaturePath ([] ++ [.name (ascii "content")])
      (false || signedBusinessField (ascii "content")) (0 + 1 + 1) 0
      (replicate n .null ++ [.str text]) =
      some [⟨[.name (ascii "content"), .index n], text, []⟩] := by
    rw [collectItems_replicate (by decide)]
    simp [collectItems, collectSignedContent, signaturePath, maxSignedDepth]
  simpa [signedContent, wideBlock, collectSignedContent, collectMembers, skip, maxSignedDepth]
    using items

theorem wideBlock_distinct : (wideBlock n signature text).Distinct := by
  have names : [ascii "signature", ascii "content"].Nodup := by decide +kernel
  refine .obj names ?_
  have items : (arr (replicate n .null ++ [.str text]) : Value).Distinct := by
    refine .arr fun item hi => ?_
    obtain hi | hi := mem_append.mp hi
    · rw [eq_of_mem_replicate hi]
      intro path members found
      cases path <;> cases found
    · rw [mem_singleton.mp hi]
      exact .str
  simpa using ⟨Distinct.str, items⟩

theorem wideBlock_inMemory (hn : n < maxInt) (hs : Sound signature) (ht : Sound text) :
    InMemory (wideBlock n signature text) := by
  have names : ∀ name ∈ [ascii "signature", ascii "content"], Sound name := by decide +kernel
  refine .obj (by simpa [Holds] using names) ?_
  have items : InMemory (.arr (replicate n .null ++ [.str text])) := by
    refine .arr (by simpa [Holds] using hn) fun item hi => ?_
    obtain hi | hi := mem_append.mp hi
    · rw [eq_of_mem_replicate hi]
      exact .leaf trivial fun step => by cases step <;> rfl
    · rw [mem_singleton.mp hi]
      exact inMemory_str ht
  simpa using ⟨inMemory_str hs, items⟩

theorem wideBlock_signedValues :
    redactionSigner.signedValues noCipher (wideBlock n (ascii "s") (ascii "x"))
      (wideBlock n (ascii "s") (ascii "y")) signaturePath = some (wideValues n) := by
  have there : (wideBlock n (ascii "s") (ascii "x")).valueAt
      [.name (ascii "content"), .index n] = some (.str (ascii "x")) := by
    have other : ascii "signature" ≠ ascii "content" := by decide +kernel
    simp [wideBlock, valueAt_cons, child, other]
  have spans : redactionSigner.spans noCipher (ascii "x") (ascii "y") = [⟨0, 1, ascii "x"⟩] := by
    decide +kernel
  rw [redactionSigner.signedValues, wideBlock_content]
  simp [redactionSigner.withSpans, there, spans, wideValues]

end Wide

/-- A returned block with the same signed strings is refused if it is nested too deep elsewhere. The
record of a block with an array of more items than a 32 bit integer counts is refused, whatever
comes back. -/
theorem signed_block_limits :
    ((∃ wrapped : Bytes, (deepBlock wrapped (ascii "y")).valueAt signaturePath =
        some (.str (wrapSignature jsonLib (ascii "s") sampleValues))) ∧
      ∀ wrapped : Bytes, (deepBlock wrapped (ascii "y")).Distinct ∧
        SameSigned signaturePath (deepBlock wrapped (ascii "y"))
          (thinkingBlock (ascii "s") (ascii "y")) ∧
        ∀ record, restoreSignedBlock jsonLib (deepBlock wrapped (ascii "y")) signaturePath
          record = none) ∧
    (redactionSigner.signedValues noCipher (wideBlock (maxInt32 + 1) (ascii "s") (ascii "x"))
        (wideBlock (maxInt32 + 1) (ascii "s") (ascii "y")) signaturePath =
          some (wideValues (maxInt32 + 1)) ∧
      (∀ text ∈ [ascii "x", ascii "y"],
        (wideBlock (maxInt32 + 1) (ascii "s") text).Distinct ∧
          InMemory (wideBlock (maxInt32 + 1) (ascii "s") text)) ∧
      ∀ urlSafe padded, unwrapSignature jsonLib (reencode urlSafe padded
        (wrapSignature jsonLib (ascii "s") (wideValues (maxInt32 + 1)))) = (none, true)) := by
  refine ⟨⟨⟨_, rfl⟩, fun wrapped => ⟨?_, ?_, ?_⟩⟩, wideBlock_signedValues, ?_, ?_⟩
  · have names : [ascii "type", ascii "signature", ascii "thinking", ascii "extra"].Nodup := by
      decide +kernel
    refine .obj names ?_
    simp [Distinct.str, nested_distinct]
  · intro path text
    rw [deepBlock_signed, thinkingBlock_signed]
  · intro record
    rw [restoreSignedBlock, deepBlock_content]
    rfl
  · have sound : ∀ text ∈ [ascii "x", ascii "y"], Sound text := by decide +kernel
    exact fun text ht => ⟨wideBlock_distinct,
      wideBlock_inMemory (by decide) (by decide +kernel) (sound text ht)⟩
  · intro urlSafe padded
    have marshallable :
        Marshallable (recordOf jsonLib (ascii "s") (wideValues (maxInt32 + 1))) := by
      have name : validString (ascii "content") = true := by decide +kernel
      have exact : maxInt32 + 1 < 2 ^ 53 := by decide
      exact ⟨rfl, by decide +kernel, forall_mem_singleton.mpr (by decide +kernel),
        forall_mem_singleton.mpr
          (forall_mem_cons.mpr ⟨name, forall_mem_singleton.mpr exact⟩),
        forall_mem_singleton.mpr (forall_mem_singleton.mpr (by decide +kernel))⟩
    rw [wrapSignature, if_neg (by decide +kernel),
      unwrapSignature_reencode urlSafe padded marshallable,
      acceptRecord_large (maxInt32 + 1) (mem_singleton.mpr rfl) (by simp) (Nat.lt_succ_self _)]

end ApiLoad.Requestredact
