import ApiLoad.Foundation.Lookup
import ApiLoad.Requestredact.RoundTrip

/-!
# A signed block returns to the upstream unchanged

The upstream block `original` and the block `restored` that the client is given differ in their
strings only. A block that the client sends back with the wrapped signature is accepted exactly if
its signed strings are those of the restored block, and then its replacements and the signature of
the record give the signed strings and the signature of the original.
-/
namespace ApiLoad.Requestredact
open Foundation Base64 Redaction SignedString Utf8 List

variable {lib : Stdlib} {cipher : RedactionCipher} {original restored returned : Value}
  {signature : Path} {upstream : Bytes} {values : List SignedString}

/-! ## What is recorded -/

/-- The spans that lead from the string of a value back to the original. -/
def LeadsBack (cipher : RedactionCipher) (original : Value) (value : SignedString) : Prop :=
  ∃ text, original.valueAt value.path = some (.str text) ∧
    value.spans = redactionSigner.spans cipher text value.value

def SignedString.pair (value : SignedString) : Path × Bytes := (value.path, value.value)

/-- The values recorded for a block: its signed strings, each with the way back to the original. -/
structure Recorded (cipher : RedactionCipher) (original restored : Value) (signature : Path)
    (values : List SignedString) : Prop where
  nodup : (values.map path).Nodup
  signed : ∀ path text, Signed signature restored path text ↔
    ∃ value ∈ values, value.path = path ∧ value.value = text
  back : ∀ value ∈ values, LeadsBack cipher original value

section

variable {path : Path} {text : Bytes}

theorem mem_pairs :
    (path, text) ∈ values.map pair ↔ ∃ value ∈ values, value.path = path ∧ value.value = text := by
  simp [pair]

theorem nodup_pairs (h : (values.map SignedString.path).Nodup) : (values.map pair).Nodup := by
  refine List.Nodup.of_map Prod.fst ?_
  rw [map_map]
  exact h

/-- The strings that are checked, with their paths, are the signed ones. -/
theorem mem_pairs_signedContent {block : Value} {strings : List SignedString}
    (distinct : block.Distinct) (content : signedContent block signature = some strings) :
    (path, text) ∈ strings.map pair ↔ Signed signature block path text := by
  have signed := mem_signedContent distinct content
  rw [mem_pairs]
  constructor
  · rintro ⟨s, hs, rfl, rfl⟩
    exact ((signed s).mp hs).1
  · intro h
    exact ⟨⟨path, text, []⟩, (signed _).mpr ⟨h, rfl⟩, rfl, rfl⟩

end

theorem Recorded.content {value : SignedString}
    (h : Recorded cipher original restored signature values) (hv : value ∈ values) :
    Signed signature restored value.path value.value :=
  (h.signed _ _).mpr ⟨value, hv, rfl, rfl⟩

theorem mapM_withSpans (cipher : RedactionCipher) (same : original.SameStructure restored)
    {strings : List SignedString}
    (signed : ∀ s ∈ strings, Signed signature restored s.path s.value) :
    ∃ values, strings.mapM (redactionSigner.withSpans cipher original) = some values ∧
      values.map pair = strings.map pair ∧
      ∀ value ∈ values, LeadsBack cipher original value := by
  induction strings with
  | nil => exact ⟨[], rfl, rfl, by simp⟩
  | cons s strings ih =>
    obtain ⟨text, found⟩ := same.str_of_str (signed s (by simp)).1
    obtain ⟨values, mapped, pairs, back⟩ := ih fun s' hs' => signed s' (by simp [hs'])
    refine ⟨{ s with spans := redactionSigner.spans cipher text s.value } :: values, ?_, ?_, ?_⟩
    · rw [mapM_cons, redactionSigner.withSpans, found, mapped]
      rfl
    · rw [map_cons, map_cons, pairs]
      rfl
    intro value hv
    obtain rfl | hv := mem_cons.mp hv
    · exact ⟨text, found, rfl⟩
    · exact back value hv

/-- Signing succeeds on a block of the same structure. -/
theorem signedValues_recorded (cipher : RedactionCipher) (distinct : restored.Distinct)
    (same : original.SameStructure restored)
    (shallow : (signedContent restored signature).isSome) :
    ∃ values, redactionSigner.signedValues cipher original restored signature = some values ∧
      Recorded cipher original restored signature values := by
  obtain ⟨strings, content⟩ := Option.isSome_iff_exists.mp shallow
  have signed := mem_signedContent distinct content
  have nodup := signedContent_nodup distinct content
  obtain ⟨values, mapped, pairs, back⟩ :=
    mapM_withSpans cipher same fun s hs => ((signed s).mp hs).1
  refine ⟨values, ?_, ?_, ?_, back⟩
  · rw [redactionSigner.signedValues, content]
    exact mapped
  · have paths := congrArg (map Prod.fst) pairs
    rw [map_map, map_map] at paths
    exact paths ▸ nodup
  intro path text
  rw [← mem_pairs, pairs, mem_pairs_signedContent distinct content]

/-! ## Looking up entries -/

theorem pathKey_inj (hl : ∀ step ∈ left, Within maxInt step)
    (hr : ∀ step ∈ right, Within maxInt step) :
    pathKey lib left = pathKey lib right ↔ left = right := by
  constructor
  · exact lib.marshal_path left right hl hr
  · rintro rfl
    rfl

/-! ## Replacements -/

section

variable {entries : List (Bytes × SignatureString)} {strings : List SignedString}

/-- The replacements of a block are those strings for which the entries have another text. -/
theorem restoreEach_cases (h : restoreEach lib entries strings = some replacements) :
    (∀ s ∈ strings, ∃ text, restoredText lib entries s = some text ∧
      (text ≠ s.value → ⟨s.path, text⟩ ∈ replacements)) ∧
    (∀ r ∈ replacements, ∃ s ∈ strings, s.path = r.path ∧
      restoredText lib entries s = some r.text ∧ r.text ≠ s.value) ∧
    (replacements.map SignedRestore.path).Sublist (strings.map path) := by
  induction strings generalizing replacements with
  | nil =>
    cases h
    simp
  | cons s strings ih =>
    obtain ⟨text, found, h⟩ := Option.bind_eq_some_iff.mp h
    obtain ⟨rest, hrest, h⟩ := Option.bind_eq_some_iff.mp h
    obtain ⟨each, sound, sub⟩ := ih hrest
    obtain rfl := (Option.some.inj h).symm
    split
    · rename_i same
      refine ⟨forall_mem_cons.mpr ⟨⟨text, found, fun differ => absurd same differ⟩, each⟩, ?_, ?_⟩
      · intro r hr
        obtain ⟨s', hs', found'⟩ := sound r hr
        exact ⟨s', by simp [hs'], found'⟩
      · exact sub.cons _
    · rename_i differ
      refine ⟨forall_mem_cons.mpr ⟨⟨text, found, fun _ => by simp⟩, ?_⟩, ?_, ?_⟩
      · intro s' hs'
        obtain ⟨text', found', listed⟩ := each s' hs'
        exact ⟨text', found', fun d => mem_cons_of_mem _ (listed d)⟩
      · intro r hr
        obtain rfl | hr := mem_cons.mp hr
        · exact ⟨s, by simp, rfl, found, differ⟩
        · obtain ⟨s', hs', found'⟩ := sound r hr
          exact ⟨s', by simp [hs'], found'⟩
      · exact sub.cons_cons _

theorem restoreEach_isSome_iff :
    (restoreEach lib entries strings).isSome ↔
      ∀ s ∈ strings, (restoredText lib entries s).isSome := by
  induction strings with
  | nil => simp [restoreEach]
  | cons s strings ih =>
    rw [forall_mem_cons, ← ih, restoreEach]
    cases restoredText lib entries s <;> cases restoreEach lib entries strings <;> simp

end

section Replace

variable {block : Value} {path : Path} {text : Bytes}

theorem applyRestores_cons (r : SignedRestore) (replacements : List SignedRestore) :
    applyRestores block (r :: replacements) =
      applyRestores (block.setAt r.path (.str r.text)) replacements := rfl

section

variable {replacements : List SignedRestore}
  (strings : ∀ r ∈ replacements, ∃ old, block.valueAt r.path = some (.str old))
include strings

/-- A string that is not replaced stays. -/
theorem valueAt_applyRestores_of_not_mem (found : block.valueAt path = some (.str text))
    (absent : path ∉ replacements.map SignedRestore.path) :
    (applyRestores block replacements).valueAt path = some (.str text) := by
  induction replacements generalizing block with
  | nil => exact found
  | cons r replacements ih =>
    rw [map_cons, mem_cons, not_or] at absent
    obtain ⟨old, hold⟩ := strings r (by simp)
    rw [applyRestores_cons]
    refine ih ?_ (Json.valueAt_setAt_str hold found (Ne.symm absent.1)) absent.2
    intro r' hr'
    by_cases same : r.path = r'.path
    · exact ⟨r.text, same ▸ Json.valueAt_setAt_self hold⟩
    · obtain ⟨old', hold'⟩ := strings r' (by simp [hr'])
      exact ⟨old', Json.valueAt_setAt_str hold hold' same⟩

/-- A string that is replaced once has its replacement. -/
theorem valueAt_applyRestores_of_mem (nodup : (replacements.map SignedRestore.path).Nodup)
    (mem : r ∈ replacements) :
    (applyRestores block replacements).valueAt r.path = some (.str r.text) := by
  induction replacements generalizing block with
  | nil => cases mem
  | cons first replacements ih =>
    rw [map_cons, nodup_cons] at nodup
    obtain ⟨old, hold⟩ := strings first (by simp)
    have later : ∀ r' ∈ replacements, ∃ old,
        (block.setAt first.path (.str first.text)).valueAt r'.path = some (.str old) := by
      intro r' hr'
      obtain ⟨old', hold'⟩ := strings r' (by simp [hr'])
      have differ : first.path ≠ r'.path := fun e => nodup.1 (mem_map.mpr ⟨r', hr', e.symm⟩)
      exact ⟨old', Json.valueAt_setAt_str hold hold' differ⟩
    rw [applyRestores_cons]
    obtain rfl | mem := mem_cons.mp mem
    · exact valueAt_applyRestores_of_not_mem later (Json.valueAt_setAt_self hold) nodup.1
    · exact ih later nodup.2 mem

end

end Replace

/-! ## The check of a returned block -/

/-- No two signed strings of the blocks have one hash. -/
def NoCollision (lib : Stdlib) (signature : Path) (left right : Value) : Prop :=
  ∀ path text path' text', Signed signature left path text → Signed signature right path' text' →
    signatureHash lib text = signatureHash lib text' → text = text'

/-- A string as Go has it in memory, of valid UTF-8. -/
def Sound (text : Bytes) : Prop := validString text = true ∧ text.length ≤ maxInt

instance (text : Bytes) : Decidable (Sound text) := inferInstanceAs (Decidable (_ ∧ _))

/-- What Go has in memory: an `int` counts the bytes of a text and the items of an array. -/
def Holds : Value → Prop
  | .str text => Sound text
  | .arr items => items.length ≤ maxInt
  | .obj members => ∀ m ∈ members, Sound m.1
  | .null | .bool _ | .num _ => True

abbrev InMemory (block : Value) : Prop := block.AllParts Holds

theorem InMemory.text {block : Value} {path : Path} {text : Bytes} (h : InMemory block)
    (found : block.valueAt path = some (.str text)) : Sound text :=
  h path _ found

/-- A path leads to positions that the arrays on its way have. -/
theorem index_lt {block part : Value} {path : Path} {bound : Nat}
    (arrays : ∀ path items, block.valueAt path = some (.arr items) → items.length ≤ bound)
    (found : block.valueAt path = some part) (mem : .index position ∈ path) : position < bound := by
  obtain ⟨front, back, rfl⟩ := append_of_mem mem
  obtain ⟨inner, behind, hi, hc⟩ := Json.child_of_valueAt found
  cases inner with
  | arr items =>
    obtain ⟨inside, -⟩ := List.getElem?_eq_some_iff.mp hc
    exact Nat.lt_of_lt_of_le inside (arrays front items hi)
  | _ => cases hc

theorem InMemory.path {block part : Value} {path : Path} (h : InMemory block)
    (found : block.valueAt path = some part) : ∀ step ∈ path, Within maxInt step := by
  intro step mem
  cases step with
  | index position => exact index_lt (fun front items hi => h front _ hi) found mem
  | name name =>
    obtain ⟨front, back, rfl⟩ := append_of_mem mem
    obtain ⟨inner, behind, hi, hc⟩ := Json.child_of_valueAt found
    cases inner with
    | obj members =>
      obtain ⟨m, hm, -⟩ := Option.map_eq_some_iff.mp hc
      have named : m.1 = name := by simpa using find?_some hm
      exact named ▸ (h front _ hi m (mem_of_find?_eq_some hm)).1
    | _ => cases hc

/-- The entries of a record with their keys. -/
def keyedEntries (lib : Stdlib) (record : SignatureRecord) : List (Bytes × SignatureString) :=
  record.strings.map fun entry => (pathKey lib entry.path, entry)

def entryOf (lib : Stdlib) (value : SignedString) : SignatureString where
  path := value.path
  hash := signatureHash lib value.value
  spans := value.spans

theorem restoreSignedBlock_eq (content : signedContent returned signature = some strings)
    (keys : ((keyedEntries lib record).map Prod.fst).Nodup) :
    restoreSignedBlock lib returned signature record =
      if strings.length ≠ record.strings.length then none
      else restoreEach lib (keyedEntries lib record) strings := by
  unfold keyedEntries at keys ⊢
  unfold restoreSignedBlock
  rw [content]
  dsimp only [Option.bind_eq_bind, Option.bind_some]
  split
  · rfl
  · rfl

section Check

variable (recorded : Recorded cipher original restored signature values)
  (validOriginal : InMemory original) (validRestored : InMemory restored)
include recorded validRestored

theorem valid_path {value : SignedString} (hv : value ∈ values) :
    ∀ step ∈ value.path, Within maxInt step :=
  validRestored.path (recorded.content hv).1

theorem keyedEntries_nodup :
    ((keyedEntries lib (recordOf lib upstream values)).map Prod.fst).Nodup := by
  have keys : (keyedEntries lib (recordOf lib upstream values)).map Prod.fst =
      (values.map path).map (pathKey lib) := by
    simp [keyedEntries, recordOf]
  rw [keys]
  refine recorded.nodup.map_on ?_
  intro p hp q hq same
  obtain ⟨v, hv, rfl⟩ := mem_map.mp hp
  obtain ⟨w, hw, rfl⟩ := mem_map.mp hq
  exact (pathKey_inj (valid_path recorded validRestored hv)
    (valid_path recorded validRestored hw)).mp same

include validOriginal

section

variable (validReturned : InMemory returned)
include validReturned

/-- The entries have a text for a returned string exactly if it is a recorded string, and then it is
the string of the original. -/
theorem restoredText_iff (noCollision : NoCollision lib signature returned restored)
    {s : SignedString}
    (signed : Signed signature returned s.path s.value) {text : Bytes} :
    restoredText lib (keyedEntries lib (recordOf lib upstream values)) s = some text ↔
      Signed signature restored s.path s.value ∧ original.valueAt s.path = some (.str text) := by
  have entry_iff (entry : SignatureString) :
      (keyedEntries lib (recordOf lib upstream values)).lookup (pathKey lib s.path) = some entry ↔
        ∃ v ∈ values, v.path = s.path ∧ entry = entryOf lib v := by
    rw [lookup_eq_some_iff (keyedEntries_nodup recorded validRestored), keyedEntries, recordOf,
      map_map, mem_map]
    refine exists_congr fun v => and_congr_right fun hv => ?_
    rw [Function.comp_apply, Prod.mk.injEq,
      pathKey_inj (valid_path recorded validRestored hv) (validReturned.path signed.1)]
    exact and_congr_right fun _ => eq_comm
  rw [restoredText, Option.bind_eq_some_iff]
  constructor
  · rintro ⟨entry, found, restoredTo⟩
    obtain ⟨v, hv, path_eq, rfl⟩ := (entry_iff entry).mp found
    have recordedAt := recorded.content hv
    unfold restoreSignedString at restoredTo
    split at restoredTo
    · cases restoredTo
    rename_i sameHash
    rw [not_not] at sameHash
    have same : s.value = v.value := noCollision _ _ _ _ signed recordedAt sameHash
    obtain ⟨old, hold, spans⟩ := recorded.back v hv
    rw [same, entryOf, spans, applySpans_spans, Option.filter_some] at restoredTo
    split at restoredTo
    · cases restoredTo
      exact ⟨same ▸ path_eq ▸ recordedAt, path_eq ▸ hold⟩
    · cases restoredTo
  · rintro ⟨recordedAt, hold⟩
    obtain ⟨v, hv, path_eq, value_eq⟩ := (recorded.signed _ _).mp recordedAt
    refine ⟨entryOf lib v, (entry_iff _).mpr ⟨v, hv, path_eq, rfl⟩, ?_⟩
    obtain ⟨old, hold', spans⟩ := recorded.back v hv
    have same : old = text := by
      rw [path_eq, hold] at hold'
      exact (Json.str.inj (Option.some.inj hold')).symm
    subst same
    rw [restoreSignedString, if_neg (by simp [entryOf, value_eq]), entryOf, spans, value_eq,
      applySpans_spans, Option.filter_some, if_pos (validOriginal.text hold).1]

/-- The check accepts a block exactly if its signed strings are the recorded ones. -/
theorem restoreSignedBlock_isSome_iff (distinct : returned.Distinct)
    (shallow : (signedContent returned signature).isSome)
    (noCollision : NoCollision lib signature returned restored) :
    (restoreSignedBlock lib returned signature (recordOf lib upstream values)).isSome ↔
      SameSigned signature returned restored := by
  obtain ⟨strings, content⟩ := Option.isSome_iff_exists.mp shallow
  have signed := mem_signedContent distinct content
  have nodup := nodup_pairs (signedContent_nodup distinct content)
  have text_iff (s : SignedString) (hs : s ∈ strings) :
      (restoredText lib (keyedEntries lib (recordOf lib upstream values)) s).isSome ↔
        Signed signature restored s.path s.value := by
    simp only [Option.isSome_iff_exists, restoredText_iff recorded validOriginal validRestored
      validReturned noCollision ((signed s).mp hs).1]
    refine ⟨fun ⟨_, h, _⟩ => h, fun h => ?_⟩
    obtain ⟨v, hv, path_eq, -⟩ := (recorded.signed _ _).mp h
    obtain ⟨text, hold, -⟩ := recorded.back v hv
    exact ⟨text, h, path_eq ▸ hold⟩
  rw [restoreSignedBlock_eq content (keyedEntries_nodup recorded validRestored)]
  have length_eq : (recordOf lib upstream values).strings.length = values.length := by
    simp [recordOf]
  rw [length_eq]
  constructor
  · intro accepted
    split at accepted
    · cases accepted
    rename_i sameLength
    rw [not_not] at sameLength
    have each := restoreEach_isSome_iff.mp accepted
    -- the returned strings are among the recorded ones and are as many
    have sub : strings.map pair ⊆ values.map pair := by
      intro p hp
      obtain ⟨s, hs, rfl⟩ := mem_map.mp hp
      exact mem_pairs.mpr ((recorded.signed _ _).mp ((text_iff s hs).mp (each s hs)))
    have perm := (subperm_of_subset nodup sub).perm_of_length_le (by simp [sameLength])
    intro path text
    rw [← mem_pairs_signedContent distinct content, recorded.signed, ← mem_pairs]
    exact perm.mem_iff
  · intro same
    have perm : (strings.map pair).Perm (values.map pair) := by
      rw [perm_ext_iff_of_nodup nodup (nodup_pairs recorded.nodup)]
      rintro ⟨path, text⟩
      rw [mem_pairs_signedContent distinct content, mem_pairs, ← recorded.signed]
      exact same path text
    have sameLength : strings.length = values.length := by simpa using perm.length_eq
    rw [if_neg (not_not.mpr sameLength), restoreEach_isSome_iff]
    intro s hs
    exact (text_iff s hs).mpr ((same _ _).mp ((signed s).mp hs).1)

/-- The replacements of an accepted block lead to the strings of the original. -/
theorem restoreSignedBlock_replaces (distinct : returned.Distinct)
    (noCollision : NoCollision lib signature returned restored)
    (accepted : restoreSignedBlock lib returned signature (recordOf lib upstream values) = some
      replacements) :
    (∀ path text, Signed signature returned path text →
      (applyRestores returned replacements).valueAt path = original.valueAt path) ∧
    (∀ path text, returned.valueAt path = some (.str text) → ¬ Signed signature returned path text →
      (applyRestores returned replacements).valueAt path = some (.str text)) := by
  obtain ⟨strings, content, -⟩ := Option.bind_eq_some_iff.mp accepted
  have signed := mem_signedContent distinct content
  rw [restoreSignedBlock_eq content (keyedEntries_nodup recorded validRestored)] at accepted
  split at accepted
  · cases accepted
  obtain ⟨each, sound, sub⟩ := restoreEach_cases accepted
  have nodup := sub.nodup (signedContent_nodup distinct content)
  have strings_there : ∀ r ∈ replacements, ∃ old, returned.valueAt r.path = some (.str old) := by
    intro r hr
    obtain ⟨s, hs, path_eq, -⟩ := sound r hr
    exact ⟨s.value, path_eq ▸ ((signed s).mp hs).1.1⟩
  have there (path : Path) (text : Bytes) (h : Signed signature returned path text) :
      ⟨path, text, []⟩ ∈ strings := (signed _).mpr ⟨h, rfl⟩
  constructor
  · intro path text h
    obtain ⟨old, found, listed⟩ := each _ (there path text h)
    have upstream_eq := ((restoredText_iff recorded validOriginal validRestored validReturned
      noCollision h).mp found).2
    rw [upstream_eq]
    by_cases changed : old = text
    swap
    · exact valueAt_applyRestores_of_mem strings_there nodup (listed changed)
    subst changed
    refine valueAt_applyRestores_of_not_mem strings_there h.1 fun mem => ?_
    obtain ⟨r, hr, path_eq⟩ := mem_map.mp mem
    obtain ⟨s, hs, path_eq', found', differ⟩ := sound r hr
    have sameString : s = ⟨path, old, []⟩ := by
      refine inj_on_of_nodup_map (signedContent_nodup distinct content) hs
        (there path old h) ?_
      exact path_eq'.trans path_eq
    rw [sameString, found] at found'
    rw [sameString] at differ
    exact differ (Option.some.inj found').symm
  · intro path text found unsigned
    refine valueAt_applyRestores_of_not_mem strings_there found fun mem => ?_
    obtain ⟨r, hr, path_eq⟩ := mem_map.mp mem
    obtain ⟨s, hs, path_eq', -⟩ := sound r hr
    have signedThere := ((signed s).mp hs).1
    rw [path_eq', path_eq] at signedThere
    have same : s.value = text :=
      Json.str.inj (Option.some.inj (signedThere.1.symm.trans found))
    exact unsigned (same ▸ signedThere)

end

end Check

end ApiLoad.Requestredact
