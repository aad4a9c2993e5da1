import Mathlib.Data.Rat.Defs
import ApiLoad.Foundation.JsonPath
import ApiLoad.Foundation.Base64

/-!
# Signed content

A block of an upstream answer may carry a signature over its content
(`internal/requestredact/signature.go`). `SignedContent` lists the strings of a block that are
checked when the block comes back: every string but the signature itself, those below protocol
fields and those below `cache_control`; inside of business data, such as the arguments of a call,
names do not matter.

Strings are the bytes of Go, and a block is the value that gjson reads.
-/
namespace ApiLoad.Requestredact
open Foundation Base64 Json List

abbrev Value := Json Bytes ℚ

/-- `[]any` of member names and positions. -/
abbrev Path := List (Step Bytes)

def ascii (text : String) : Bytes := text.toList.map fun c => UInt8.ofNat c.toNat

structure RestoreSpan where
  offset : Nat
  length : Nat
  original : Bytes
deriving DecidableEq, Repr

structure SignedString where
  path : Path
  value : Bytes
  spans : List RestoreSpan := []
deriving DecidableEq, Repr

def protocolFields : List Bytes :=
  ["id", "type", "role", "name", "status", "model", "modelVersion", "object", "metadata",
    "signature", "thoughtSignature", "thought_signature", "encrypted_content",
    "data", "b64_json", "result", "url", "image_url", "audio_url", "file_url",
    "file_data", "fileData", "inline_data", "inlineData", "mime_type", "mimeType",
    "encrypted_index", "format"].map ascii

def protocolField (key : Bytes) : Bool :=
  key ∈ protocolFields || (ascii "_id").isSuffixOf key || (ascii "Id").isSuffixOf key

def signedBusinessField (key : Bytes) : Bool :=
  key ∈ ["args", "input", "response", "output", "arguments"].map ascii

/-- A member outside of business data that is not looked into. -/
def skipped (business : Bool) (key : Bytes) : Bool :=
  !business && (protocolField key || key = ascii "cache_control")

def maxSignedDepth : Nat := 64

mutual

/-- `collectSignedContent`: the strings of a value found at `path`, unless it is nested too deep. -/
def collectSignedContent (signature path : Path) (business : Bool) (depth : Nat) :
    Value → Option (List SignedString)
  | .str text =>
    if maxSignedDepth < depth then none
    else if path = signature then some [] else some [{ path, value := text }]
  | .obj members =>
    if maxSignedDepth < depth then none
    else collectMembers signature path business (depth + 1) members
  | .arr items =>
    if maxSignedDepth < depth then none
    else collectItems signature path business (depth + 1) 0 items
  | .null | .bool _ | .num _ => if maxSignedDepth < depth then none else some []

/-- The round over the members of an object. -/
def collectMembers (signature path : Path) (business : Bool) (depth : Nat) :
    List (Bytes × Value) → Option (List SignedString)
  | [] => some []
  | (key, part) :: members =>
    if skipped business key then collectMembers signature path business depth members
    else do
      let here ← collectSignedContent signature (path ++ [.name key])
        (business || signedBusinessField key) depth part
      let after ← collectMembers signature path business depth members
      some (here ++ after)

/-- The round over the items of an array. -/
def collectItems (signature path : Path) (business : Bool) (depth index : Nat) :
    List Value → Option (List SignedString)
  | [] => some []
  | part :: items => do
    let here ← collectSignedContent signature (path ++ [.index index]) business depth part
    let after ← collectItems signature path business depth (index + 1) items
    some (here ++ after)

end

def signedContent (block : Value) (signature : Path) : Option (List SignedString) :=
  collectSignedContent signature [] false 0 block

/-! ## What is signed -/

/-- A path that does not lead through a member that is skipped. -/
def inScope (business : Bool) : Path → Bool
  | [] => true
  | .name key :: path =>
    !skipped business key && inScope (business || signedBusinessField key) path
  | .index _ :: path => inScope business path

/-- The string `text` at `path` is signed content of the block. -/
def Signed (signature : Path) (block : Value) (path : Path) (text : Bytes) : Prop :=
  block.valueAt path = some (.str text) ∧ path ≠ signature ∧ inScope false path = true

def SameSigned (signature : Path) (left right : Value) : Prop :=
  ∀ path text, Signed signature left path text ↔ Signed signature right path text

/-- A string of a value that stands at `path` and is collected from there. -/
def Reached (signature path : Path) (business : Bool) (value : Value) (s : SignedString) : Prop :=
  ∃ rest, s.path = path ++ rest ∧ value.valueAt rest = some (.str s.value) ∧ s.path ≠ signature ∧
    inScope business rest = true ∧ s.spans = []

/-- What is collected from a value is what can be reached in it. -/
def Collects (value : Value) : Prop :=
  ∀ signature path business depth strings,
    collectSignedContent signature path business depth value = some strings →
    (∀ s, s ∈ strings ↔ Reached signature path business value s) ∧
      (strings.map SignedString.path).Nodup

section Steps

variable {signature path : Path} {business : Bool} {depth : Nat} {strings : List SignedString}

/-- Whatever is collected lies within the depth limit. -/
theorem depth_le_of_collected
    (h : collectSignedContent signature path business depth value = some strings) :
    depth ≤ maxSignedDepth := by
  by_contra deep
  cases value <;> simp [collectSignedContent, not_le.mp deep] at h

theorem reached_step {value : Value} {inner : Bool} (found : value.child step = some part)
    (scope : ∀ rest, inScope business (step :: rest) = inScope inner rest)
    (h : Reached signature (path ++ [step]) inner part s) :
    Reached signature path business value s := by
  obtain ⟨rest, hp, hv, hs, hi, he⟩ := h
  refine ⟨step :: rest, by simpa using hp, ?_, hs, by rw [scope, hi], he⟩
  rw [valueAt_cons, found]
  exact hv

/-- Strings behind different steps stand at different paths. -/
theorem path_ne_of_step_ne {inner : Bool} {part' : Value} {s s' : SignedString}
    (differ : step ≠ other) (h : Reached signature (path ++ [step]) inner part s)
    (h' : Reached signature (path ++ [other]) inner' part' s') : s.path ≠ s'.path := by
  obtain ⟨rest, hp, -⟩ := h
  obtain ⟨rest', hp', -⟩ := h'
  rw [hp, hp']
  simp [differ]

/-- What the round over the members collects. -/
theorem collectMembers_spec {members : List (Bytes × Value)} (each : ∀ m ∈ members, Collects m.2)
    (names : (members.map Prod.fst).Nodup)
    (h : collectMembers signature path business depth members = some strings) :
    (∀ s, s ∈ strings ↔ ∃ m ∈ members, skipped business m.1 = false ∧
      Reached signature (path ++ [.name m.1]) (business || signedBusinessField m.1) m.2 s) ∧
      (strings.map SignedString.path).Nodup := by
  induction members generalizing strings with
  | nil =>
    cases h
    simp
  | cons m members ih =>
    obtain ⟨key, part⟩ := m
    rw [map_cons, nodup_cons] at names
    have ih := fun {strings} => @ih strings (fun m hm => each m (by simp [hm])) names.2
    rw [collectMembers] at h
    split at h
    · rename_i skip
      obtain ⟨mem, nodup⟩ := ih h
      refine ⟨fun s => ?_, nodup⟩
      rw [mem s]
      simp [skip]
    · rename_i keep
      obtain ⟨here, hhere, h⟩ := Option.bind_eq_some_iff.mp h
      obtain ⟨after, hafter, h⟩ := Option.bind_eq_some_iff.mp h
      cases h
      obtain ⟨memHere, nodupHere⟩ := each (key, part) (by simp) _ _ _ _ _ hhere
      obtain ⟨memAfter, nodupAfter⟩ := ih hafter
      constructor
      · intro s
        rw [mem_append, memHere s, memAfter s]
        simp [keep]
      rw [map_append, nodup_append]
      refine ⟨nodupHere, nodupAfter, ?_⟩
      intro p hp q hq
      obtain ⟨s, hs, rfl⟩ := mem_map.mp hp
      obtain ⟨s', hs', rfl⟩ := mem_map.mp hq
      obtain ⟨m, hm, -, reached⟩ := (memAfter s').mp hs'
      have differ : Step.name key ≠ .name m.1 := by
        intro e
        exact names.1 (mem_map.mpr ⟨m, hm, (Step.name.inj e).symm⟩)
      exact path_ne_of_step_ne differ ((memHere s).mp hs) reached

/-- What the round over the items collects. -/
theorem collectItems_spec (each : ∀ item ∈ items, Collects item)
    (h : collectItems signature path business depth index items = some strings) :
    (∀ s, s ∈ strings ↔ ∃ i part, items[i]? = some part ∧
      Reached signature (path ++ [.index (index + i)]) business part s) ∧
      (strings.map SignedString.path).Nodup := by
  induction items generalizing strings index with
  | nil =>
    cases h
    simp
  | cons part items ih =>
    obtain ⟨here, hhere, h⟩ := Option.bind_eq_some_iff.mp h
    obtain ⟨after, hafter, h⟩ := Option.bind_eq_some_iff.mp h
    cases h
    obtain ⟨memHere, nodupHere⟩ := each part (by simp) _ _ _ _ _ hhere
    obtain ⟨memAfter, nodupAfter⟩ := ih (fun item hi => each item (by simp [hi])) hafter
    constructor
    · intro s
      rw [mem_append, memHere s, memAfter s]
      constructor
      · rintro (hs | ⟨i, part, found, reached⟩)
        · exact ⟨0, part, rfl, hs⟩
        · exact ⟨i + 1, part, found, by rwa [Nat.add_right_comm] at reached⟩
      rintro ⟨i, part', found, reached⟩
      cases i with
      | zero =>
        cases found
        exact .inl reached
      | succ i => exact .inr ⟨i, part', found, by rwa [Nat.add_right_comm]⟩
    · rw [map_append, nodup_append]
      refine ⟨nodupHere, nodupAfter, ?_⟩
      intro p hp q hq
      obtain ⟨s, hs, rfl⟩ := mem_map.mp hp
      obtain ⟨s', hs', rfl⟩ := mem_map.mp hq
      obtain ⟨i, part', -, reached⟩ := (memAfter s').mp hs'
      have differ : Step.index index ≠ (.index (index + 1 + i) : Step Bytes) := by
        intro e
        have := Step.index.inj e
        omega
      exact path_ne_of_step_ne differ ((memHere s).mp hs) reached

end Steps

/-- `collectSignedContent` collects what can be reached, every path once. -/
theorem collects (value : Value) : value.Distinct → Collects value := by
  induction value using induction_on with
  | null | bool b | num n =>
    intro _ signature path business depth strings h
    have shallow := not_lt.mpr (depth_le_of_collected h)
    rw [collectSignedContent, if_neg shallow] at h
    cases h
    refine ⟨fun s => ?_, nodup_nil⟩
    constructor
    · intro hs
      cases hs
    · rintro ⟨rest, -, hv, -⟩
      cases rest <;> simp [valueAt_cons, child] at hv
  | str text =>
    intro _ signature path business depth strings h
    have shallow := not_lt.mpr (depth_le_of_collected h)
    rw [collectSignedContent, if_neg shallow] at h
    have reached (s : SignedString) : Reached signature path business (.str text) s ↔
        path ≠ signature ∧ s = { path, value := text } := by
      constructor
      · rintro ⟨rest, hp, hv, hs, -, he⟩
        obtain rfl := eq_nil_of_valueAt_str hv
        rw [append_nil] at hp
        cases s
        cases hv
        cases hp
        cases he
        exact ⟨hs, rfl⟩
      · rintro ⟨hs, rfl⟩
        exact ⟨[], by simp, rfl, hs, rfl, rfl⟩
    split at h
    · rename_i same
      cases h
      refine ⟨fun s => ?_, nodup_nil⟩
      rw [reached s]
      simp [same]
    · rename_i differ
      cases h
      simp [reached, differ]
  | arr items ih =>
    intro distinct signature path business depth strings h
    have shallow := not_lt.mpr (depth_le_of_collected h)
    rw [collectSignedContent, if_neg shallow] at h
    have each : ∀ item ∈ items, Collects item := by
      intro item hi
      obtain ⟨i, found⟩ := mem_iff_getElem?.mp hi
      have behind : (arr items).child (.index i) = some item := found
      exact ih item hi (distinct.child behind)
    obtain ⟨mem, nodup⟩ := collectItems_spec each h
    refine ⟨fun s => ?_, nodup⟩
    rw [mem s]
    constructor
    · rintro ⟨i, part, found, reached⟩
      rw [Nat.zero_add] at reached
      have behind : (arr items).child (.index i) = some part := found
      exact reached_step behind (fun _ => rfl) reached
    rintro ⟨rest, hp, hv, hs, hi, he⟩
    cases rest with
    | nil => cases hv
    | cons step rest =>
      obtain ⟨part, found, behind⟩ := Option.bind_eq_some_iff.mp hv
      cases step with
      | name key => cases found
      | index i => exact ⟨i, part, found, rest, by simpa using hp, behind, hs, hi, he⟩
  | obj members ih =>
    intro distinct signature path business depth strings h
    have shallow := not_lt.mpr (depth_le_of_collected h)
    rw [collectSignedContent, if_neg shallow] at h
    have names := distinct [] members rfl
    have each : ∀ m ∈ members, Collects m.2 := fun m hm =>
      ih m hm (distinct.child ((child_obj_iff names).mpr hm))
    obtain ⟨mem, nodup⟩ := collectMembers_spec each names h
    refine ⟨fun s => ?_, nodup⟩
    rw [mem s]
    constructor
    · rintro ⟨m, hm, keep, reached⟩
      exact reached_step ((child_obj_iff names).mpr hm) (fun _ => by simp [inScope, keep])
        reached
    rintro ⟨rest, hp, hv, hs, hi, he⟩
    cases rest with
    | nil => cases hv
    | cons step rest =>
      obtain ⟨part, found, behind⟩ := Option.bind_eq_some_iff.mp hv
      cases step with
      | index i => cases found
      | name key =>
        rw [inScope, Bool.and_eq_true, Bool.not_eq_true'] at hi
        exact ⟨(key, part), (child_obj_iff names).mp found, hi.1, rest, by simpa using hp,
          behind, hs, hi.2, he⟩

section Content

variable {signature : Path} {block : Value} {strings : List SignedString}

/-- `SignedContent` lists exactly the signed strings of a block. -/
theorem mem_signedContent (distinct : block.Distinct)
    (h : signedContent block signature = some strings) (s : SignedString) :
    s ∈ strings ↔ Signed signature block s.path s.value ∧ s.spans = [] := by
  rw [(collects block distinct _ _ _ _ _ h).1 s]
  constructor
  · rintro ⟨rest, hp, hv, hs, hi, he⟩
    rw [nil_append] at hp
    exact ⟨⟨hp ▸ hv, hs, hp ▸ hi⟩, he⟩
  · rintro ⟨⟨hv, hs, hi⟩, he⟩
    exact ⟨s.path, rfl, hv, hs, hi, he⟩

/-- `SignedContent` lists no path twice. -/
theorem signedContent_nodup (distinct : block.Distinct)
    (h : signedContent block signature = some strings) :
    (strings.map SignedString.path).Nodup :=
  (collects block distinct _ _ _ _ _ h).2

end Content

end ApiLoad.Requestredact
