import ApiLoad.Channel.Target

/-!
# Affinity keys

The hashed material (`internal/affinity/key.go`) has the length of each field in front of it, so
that the fields of one request cannot be read as those of another one.
-/
namespace ApiLoad.Affinity
open Channel List

/-- `binary.BigEndian.PutUint64`. -/
def putUint64 (n : UInt64) : List UInt8 :=
  [56, 48, 40, 32, 24, 16, 8, 0].map fun shift => UInt8.ofNat (n.toNat / 2 ^ shift)

def writeKeyField (value : List UInt8) : List UInt8 := putUint64 (.ofNat value.length) ++ value

/-- The bytes of a Go string constant. -/
def bytes (text : String) : List UInt8 := text.toUTF8.data.toList

def keyDomain : String := "gpt-load/affinity/prompt-prefix-hmac/v2"
def promptCacheKeyDomain : String := "gpt-load/affinity/prompt-cache-key/v1"

/-- What the unexported `deriveKey` hashes. -/
def keyMaterial (accessKeyID : UInt64) (clientProtocol : Protocol) (domain : String)
    (content : List UInt8) : List UInt8 :=
  writeKeyField (bytes domain) ++ (putUint64 accessKeyID ++
    (writeKeyField (bytes clientProtocol.text) ++ writeKeyField content))

/-- The unexported `deriveKey`; a key is a text, and the empty one is none. -/
def deriveKeyIn (hasher : Option (List UInt8 → String)) (accessKeyID : UInt64)
    (clientProtocol : Protocol) (domain : String) (content : List UInt8) : String :=
  match hasher with
  | none => ""
  | some hash =>
    if accessKeyID = 0 ∨ !clientProtocol.valid ∨ content = [] then ""
    else hash (keyMaterial accessKeyID clientProtocol domain content)

def deriveKey (hasher : Option (List UInt8 → String)) (accessKeyID : UInt64)
    (clientProtocol : Protocol) (promptPrefix : List UInt8) : String :=
  deriveKeyIn hasher accessKeyID clientProtocol keyDomain promptPrefix

def derivePromptCacheKey (hasher : Option (List UInt8 → String)) (accessKeyID : UInt64)
    (clientProtocol : Protocol) (key : List UInt8) : String :=
  deriveKeyIn hasher accessKeyID clientProtocol promptCacheKeyDomain key

/-! ## The material -/

theorem putUint64_inj (h : putUint64 m = putUint64 n) : m = n := by
  simp only [putUint64, map_cons, map_nil, cons.injEq, and_true, ← UInt8.toNat_inj,
    UInt8.toNat_ofNat'] at h
  have hm := m.toNat_lt
  have hn := n.toNat_lt
  exact UInt64.toNat_inj.mp (by omega)

/-- A field can be split off: its length is written in front of it. -/
theorem writeKeyField_inj (hv : v.length < 2 ^ 64) (hw : w.length < 2 ^ 64)
    (h : writeKeyField v ++ a = writeKeyField w ++ b) : v = w ∧ a = b := by
  simp only [writeKeyField, append_assoc] at h
  obtain ⟨length, rest⟩ := append_inj h rfl
  have same := congrArg UInt64.toNat (putUint64_inj length)
  rw [UInt64.toNat_ofNat_of_lt' hv, UInt64.toNat_ofNat_of_lt' hw] at same
  exact append_inj rest same

theorem bytes_inj (h : bytes s = bytes t) : s = t :=
  String.toByteArray_inj.mp (ByteArray.ext (Array.toList_inj.mp h))

theorem text_inj {p q : Protocol} (h : p.text = q.text) : p = q := by
  cases p <;> cases q <;> first | rfl | simp [Protocol.text] at h

theorem text_short (p : Protocol) : (bytes p.text).length < 2 ^ 64 := by
  cases p <;> decide

/-! ## Requests for a key -/

inductive Domain where
  | promptPrefix
  | promptCacheKey
deriving DecidableEq

def Domain.text : Domain → String
  | .promptPrefix => keyDomain
  | .promptCacheKey => promptCacheKeyDomain

/-- What a key is derived from. The length of a slice fits in an `int`. -/
structure KeyRequest where
  domain : Domain
  accessKeyID : UInt64
  clientProtocol : Protocol
  content : List UInt8
  sized : content.length < 2 ^ 63
deriving DecidableEq

namespace KeyRequest

def material (r : KeyRequest) : List UInt8 :=
  keyMaterial r.accessKeyID r.clientProtocol r.domain.text r.content

def key (hash : List UInt8 → String) (r : KeyRequest) : String :=
  match r.domain with
  | .promptPrefix => deriveKey (some hash) r.accessKeyID r.clientProtocol r.content
  | .promptCacheKey => derivePromptCacheKey (some hash) r.accessKeyID r.clientProtocol r.content

variable {hash : List UInt8 → String} {r r' : KeyRequest}

theorem key_eq_deriveKeyIn : r.key hash =
    deriveKeyIn (some hash) r.accessKeyID r.clientProtocol r.domain.text r.content := by
  unfold key
  cases r.domain <;> rfl

theorem key_eq (derived : r.key hash ≠ "") : r.key hash = hash r.material := by
  simp only [key_eq_deriveKeyIn, deriveKeyIn] at derived ⊢
  split at derived
  · exact absurd rfl derived
  · rw [if_neg ‹_›, material]

theorem material_inj (h : r.material = r'.material) : r = r' := by
  obtain ⟨domain, id, p, content, sized⟩ := r
  obtain ⟨domain', id', p', content', sized'⟩ := r'
  have short (d : Domain) : (bytes d.text).length < 2 ^ 64 := by cases d <;> decide
  simp only [material, keyMaterial] at h
  obtain ⟨named, rest⟩ := writeKeyField_inj (short _) (short _) h
  obtain ⟨number, rest⟩ := append_inj rest rfl
  obtain ⟨text, rest⟩ := writeKeyField_inj (text_short p) (text_short p') rest
  have fits : content.length < 2 ^ 64 := by omega
  have fits' : content'.length < 2 ^ 64 := by omega
  have last := writeKeyField_inj (a := []) (b := []) fits fits' (by simpa using rest)
  obtain rfl : domain = domain' := by
    have := bytes_inj named
    cases domain <;> cases domain' <;> first | rfl | simp [Domain.text, keyDomain,
      promptCacheKeyDomain] at this
  obtain rfl := putUint64_inj number
  obtain rfl := text_inj (bytes_inj text)
  obtain rfl := last.1
  rfl

end KeyRequest

/-- Two requests that differ in the access key, the protocol, the content or the kind of key get
different keys, unless the hash collides on just these two. -/
theorem keys_separate (hash : List UInt8 → String) {r r' : KeyRequest} (differ : r ≠ r')
    (clear : r.material ≠ r'.material → hash r.material ≠ hash r'.material)
    (derived : r.key hash ≠ "") : r.key hash ≠ r'.key hash := by
  intro same
  have given := same ▸ derived
  rw [KeyRequest.key_eq derived, KeyRequest.key_eq given] at same
  exact clear (fun eq => differ (KeyRequest.material_inj eq)) same

/-- A digest of sixty-four bits, FNV-1a in decimal. -/
def digest (material : List UInt8) : String :=
  toString (material.foldl
    (fun h b => (h ^^^ b.toNat) * 1099511628211 % 2 ^ 64) 14695981039346656037)

/-- The same bytes as a prompt prefix and as a prompt cache key, and for another access key. -/
theorem keys_separate_digest :
    let r : KeyRequest := ⟨.promptPrefix, 7, .gemini, [104, 105], by decide⟩
    r.key digest ≠ { r with domain := .promptCacheKey }.key digest ∧
      r.key digest ≠ { r with accessKeyID := 8 }.key digest :=
  ⟨keys_separate digest (by decide) (by decide +kernel) (by decide +kernel),
    keys_separate digest (by decide) (by decide +kernel) (by decide +kernel)⟩

end ApiLoad.Affinity
