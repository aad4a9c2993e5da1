import ApiLoad.Requestredact.Signature

/-!
# Spans lead back to the upstream text

The offsets of the spans are computed while the restored text is built from the original one, and
they are applied to the restored text as it comes back. Whatever is built, putting the originals of
the spans back gives the text that has been scanned.
-/
namespace ApiLoad.Requestredact
open Foundation Base64 Redaction Utf8 List

variable {cipher : RedactionCipher}

/-! ## Tokens are ASCII -/

variable {text : Bytes}

theorem splitHeader_eq (h : splitHeader text = some (digits, body)) :
    text = header digits ++ body ∧ ∀ c ∈ digits, isDigit c = true := by
  unfold splitHeader at h
  split at h
  swap
  · cases h
  rename_i starts
  obtain ⟨rest, rfl⟩ := isPrefixOf_iff_prefix.mp starts
  rw [drop_left] at h
  dsimp only at h
  split at h
  swap
  · cases h
  rename_i c tail found
  split at h
  swap
  · cases h
  rename_i ends
  cases h
  refine ⟨?_, fun c hc => mem_takeWhile_imp hc⟩
  rw [header, ← ends.2, append_assoc, append_assoc, singleton_append, ← found]
  congr 1
  conv_lhs => rw [← takeWhile_append_dropWhile (p := isDigit) (l := rest)]
  congr 1
  rw [dropWhile_eq_drop_findIdx_not, takeWhile_eq_take_findIdx_not]
  simp

theorem parseRedactionCandidate_cases (found : (parseRedactionCandidate text).found = true)
    (sound : (parseRedactionCandidate text).malformed = false) :
    ∃ digits body length, text = header digits ++ body ∧ (∀ c ∈ digits, isDigit c = true) ∧
      (parseRedactionCandidate text).headerEnd = (header digits).length ∧
      (parseRedactionCandidate text).endAt = (header digits).length + length := by
  unfold parseRedactionCandidate at found sound ⊢
  split at found
  · simp at found
  rename_i digits body split_eq
  obtain ⟨text_eq, digits_eq⟩ := splitHeader_eq split_eq
  dsimp only at sound ⊢
  cases length_eq : headerLength maxEncodedLen digits with
  | none =>
    rw [split_eq] at sound
    dsimp only at sound
    rw [length_eq] at sound
    cases sound
  | some length => exact ⟨digits, body, length, text_eq, digits_eq, rfl, rfl⟩

/-- What makes a token valid: a header, and behind it as many base64url characters as it says. -/
theorem validTokenAt_cases (h : cipher.validTokenAt text = (last, true)) :
    ∃ digits body length, text = header digits ++ body ∧ (∀ c ∈ digits, isDigit c = true) ∧
      last = (header digits).length + length ∧ (body.take length).all isURLByte = true := by
  unfold RedactionCipher.validTokenAt at h
  dsimp only at h
  split at h
  · cases h
  rename_i decrypted
  obtain rfl : (parseRedactionCandidate text).endAt = last := (Prod.mk.inj h).1
  unfold RedactionCipher.decryptCandidate at decrypted
  split at decrypted
  · simp at decrypted
  rename_i accepted
  have accepted : (parseRedactionCandidate text).found = true ∧
      (parseRedactionCandidate text).malformed = false := by
    simpa using accepted
  obtain ⟨digits, body, length, text_eq, digits_eq, header_eq, end_eq⟩ :=
    parseRedactionCandidate_cases accepted.1 accepted.2
  refine ⟨digits, body, length, text_eq, digits_eq, end_eq, ?_⟩
  have encoded : (text.drop (parseRedactionCandidate text).headerEnd).take
      ((parseRedactionCandidate text).endAt - (parseRedactionCandidate text).headerEnd) =
      body.take length := by
    rw [end_eq, header_eq, Nat.add_sub_cancel_left]
    conv_lhs => rw [text_eq]
    rw [drop_left]
  by_contra refused
  simp [encoded, ciphertext, refused] at decrypted

theorem isURLByte_ascii (c : UInt8) (h : isURLByte c = true) : c < 128 := by
  revert h
  revert c
  decide +kernel

theorem isDigit_ascii (c : UInt8) (h : isDigit c = true) : c < 128 := by
  revert h
  revert c
  decide +kernel

/-- A valid token consists of ASCII characters. -/
theorem validTokenAt_ascii (cipher : RedactionCipher)
    (h : cipher.validTokenAt text = (last, true)) :
    ∀ c ∈ text.take last, c < 128 := by
  obtain ⟨digits, body, length, rfl, hd, rfl, hb⟩ := validTokenAt_cases h
  have prefix_ascii : ∀ c ∈ tokenPrefix, c < 128 := by decide +kernel
  intro c hc
  rw [take_length_add_append, header] at hc
  simp only [mem_append, mem_singleton] at hc
  obtain ((hc | hc) | rfl) | hc := hc
  · exact prefix_ascii c hc
  · exact isDigit_ascii c (hd c hc)
  · decide
  · exact isURLByte_ascii c (all_eq_true.mp hb c hc)

/-! ## The loop -/

/-- A span applied to a text that has been built over it. -/
theorem applySpans_over {after : Bytes} {new : List RestoreSpan}
    (h : applySpans (built ++ before ++ plaintext ++ text) (built ++ before ++ plaintext).length new
      = some after) :
    applySpans (built ++ before ++ plaintext ++ text) built.length
      (⟨(built ++ before).length, plaintext.length, token⟩ :: new) =
      some (before ++ token ++ after) := by
  have position : (built ++ before).length + plaintext.length =
      (built ++ before ++ plaintext).length := length_append.symm
  rw [applySpans, if_neg, position, h, Option.map_some]
  · simp
  · simp
    omega

/-- What the loop adds: a text, and spans that turn the text back into what was left to scan. -/
def Leads (left built : Bytes) (spans : List RestoreSpan) (result : Bytes × List RestoreSpan) :
    Prop :=
  ∃ text new, result.1 = built ++ text ∧ result.2 = spans ++ new ∧
    applySpans result.1 built.length new = some left ∧
    ∀ span ∈ new, validString span.original = true

theorem spansLoop_leads (cipher : RedactionCipher) (rounds : Nat) (rest passed built : Bytes)
    (spans : List RestoreSpan) :
    Leads (passed ++ rest) built spans
      (redactionSigner.spansLoop cipher rounds rest passed built spans) := by
  -- nothing more is restored
  have stop (rest passed built : Bytes) (spans : List RestoreSpan) :
      Leads (passed ++ rest) built spans (built ++ passed ++ rest, spans) := by
    refine ⟨passed ++ rest, [], by simp, by simp, ?_, by simp⟩
    simp [applySpans]
  induction rounds generalizing rest passed built spans with
  | zero => exact stop rest passed built spans
  | succ rounds ih =>
    unfold redactionSigner.spansLoop
    split
    · exact stop rest passed built spans
    rename_i relative _
    -- a part of the text that stays as it is moves from the rest to what has been passed
    have skip (n : Nat) : passed ++ rest =
        passed ++ rest.take relative ++ (rest.drop relative).take n ++
          (rest.drop relative).drop n := by
      rw [append_assoc, append_assoc, take_append_drop, take_append_drop]
    dsimp only
    split
    · rw [skip]
      exact ih _ _ _ _
    rename_i valid
    split
    · rw [skip]
      exact ih _ _ _ _
    rename_i plaintext _
    split
    · rw [skip]
      exact ih _ _ _ _
    set token := (rest.drop relative).take (cipher.validTokenAt (rest.drop relative)).1
      with token_eq
    set before := passed ++ rest.take relative with before_eq
    obtain ⟨text, new, built_eq, spans_eq, applied, valid_new⟩ := ih
      ((rest.drop relative).drop (cipher.validTokenAt (rest.drop relative)).1) []
      (built ++ before ++ plaintext)
      (spans ++ [⟨(built ++ before).length, plaintext.length, token⟩])
    refine ⟨before ++ plaintext ++ text,
      ⟨(built ++ before).length, plaintext.length, token⟩ :: new, ?_, ?_, ?_, ?_⟩
    · rw [built_eq]
      simp
    · rw [spans_eq]
      simp
    · rw [built_eq] at applied ⊢
      rw [applySpans_over applied, skip _, ← token_eq, nil_append]
    intro span hs
    obtain rfl | hs := mem_cons.mp hs
    · refine validString_ascii (validTokenAt_ascii cipher (Prod.ext rfl ?_))
      simpa using valid
    · exact valid_new span hs

/-- Applying the spans of a string to its restored form gives the original. -/
theorem applySpans_spans (original restored : Bytes) :
    applySpans restored 0 (redactionSigner.spans cipher original restored) = some original := by
  unfold redactionSigner.spans
  split
  · rename_i same
    rw [applySpans, drop_zero, same]
  obtain ⟨text, new, built_eq, spans_eq, applied, -⟩ :=
    spansLoop_leads cipher original.length original [] [] []
  dsimp only
  split
  · simp [applySpans]
  rename_i same
  rw [not_not] at same
  rw [← same, spans_eq, nil_append]
  exact applied

/-- The originals of the spans are valid if the original is. -/
theorem spans_valid (h : validString original = true) :
    ∀ span ∈ redactionSigner.spans cipher original restored,
      validString span.original = true := by
  unfold redactionSigner.spans
  split
  · simp
  obtain ⟨text, new, -, spans_eq, -, valid⟩ :=
    spansLoop_leads cipher original.length original [] [] []
  dsimp only
  split
  · simpa using h
  · rwa [spans_eq]

theorem le_of_applySpans {spans : List RestoreSpan}
    (applied : applySpans value position spans = some text) :
    ∀ span ∈ spans, span.offset + span.length ≤ value.length := by
  induction spans generalizing position text with
  | nil => simp
  | cons span spans ih =>
    rw [applySpans] at applied
    split at applied
    · cases applied
    rename_i inside
    obtain ⟨later, behind, -⟩ := Option.map_eq_some_iff.mp applied
    refine forall_mem_cons.mpr ⟨by omega, ih behind⟩

end ApiLoad.Requestredact
