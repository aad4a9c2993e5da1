import ApiLoad.Registry.Operations

/-!
# Owners of responses

The bounded index of `internal/state/response_bindings.go`: which credential a response belongs to,
until when. Entries stand in the order of insertion. `expire` removes entries from the front only,
so an entry that has expired can stay behind one that has not.
-/
namespace ApiLoad.State
open Foundation
open Registry.CredentialRegistry (CredentialRef)

def DefaultResponseBindingTTL : Int := 30 * 24 * 3600 * 10 ^ 9
def DefaultResponseBindingCapacity : Int := 100000
def maxResponseIDBytes : Nat := 4 * 2 ^ 10
def maxResponseBindingIDBytes : Int := 16 * 2 ^ 20

/-- `encoding/json` on the selections of `automodel`. A selection that cannot be encoded has an
empty text, and a text that cannot be decoded leaves a blank selection. -/
structure SelectionCodec (Selection : Type) where
  marshal : Selection → String
  unmarshal : String → Selection

structure ResponseBinding (Selection : Type) where
  autoSelection : Option Selection := none
  accessKeyID : Nat
  responseID : String
  groupID : Nat
  credentialID : Nat
  identityGeneration : Nat
  expiresAt : Int
deriving DecidableEq

variable {Selection : Type}

namespace ResponseBinding

def key (binding : ResponseBinding Selection) : Nat × String :=
  (binding.accessKeyID, binding.responseID)

/-- The fields of a binding that must be there. -/
def complete (binding : ResponseBinding Selection) : Bool :=
  binding.accessKeyID ≠ 0 && binding.responseID ≠ "" && binding.credentialID ≠ 0 &&
    binding.groupID ≠ 0 && binding.identityGeneration ≠ 0 &&
    binding.responseID.utf8ByteSize ≤ maxResponseIDBytes

def ownedBy (binding : ResponseBinding Selection) (ref : CredentialRef) : Prop :=
  binding.groupID = ref.groupID ∧ binding.credentialID = ref.id ∧
    binding.identityGeneration = ref.identityGeneration

end ResponseBinding

variable (codec : SelectionCodec Selection)

/-- The JSON of a pointer to a selection. -/
def encodeSelection : Option Selection → String
  | none => "null"
  | some selection => codec.marshal selection

def bindingBytes (binding : ResponseBinding Selection) : Int :=
  binding.responseID.utf8ByteSize + (binding.autoSelection.map
    fun selection => (codec.marshal selection).utf8ByteSize).getD 0

/-- The list `order`; the map `entries` finds its elements by their keys. -/
structure ResponseBindings (Selection : Type) where
  order : List (ResponseBinding Selection) := []
  idBytes : Int := 0
  capacity : Int := DefaultResponseBindingCapacity
  ttl : Int := DefaultResponseBindingTTL
deriving DecidableEq

namespace ResponseBindings
variable (b : ResponseBindings Selection)

/-- The map `entries`. -/
def entry (k : Nat × String) : Option (ResponseBinding Selection) := b.order.find? (·.key = k)

def remove (binding : ResponseBinding Selection) : ResponseBindings Selection :=
  { b with
    order := b.order.eraseP (·.key = binding.key)
    idBytes := b.idBytes - bindingBytes codec binding }

/-- The loop of `expire`; the list is what is left of `order`. -/
def expireFrom (now : Int) :
    List (ResponseBinding Selection) → ResponseBindings Selection → ResponseBindings Selection
  | [], b => b
  | element :: rest, b =>
    if now < element.expiresAt then b else expireFrom now rest (b.remove codec element)

def expire (now : Int) : ResponseBindings Selection := expireFrom codec now b.order b

/-- The loop of `insert` that makes room. It ends before the list is empty, unless nothing fits. -/
def evictFrom (amount : Int) :
    List (ResponseBinding Selection) → ResponseBindings Selection → ResponseBindings Selection
  | [], b => b
  | element :: rest, b =>
    if b.capacity ≤ b.order.length ∨ maxResponseBindingIDBytes < b.idBytes + amount then
      evictFrom amount rest (b.remove codec element)
    else b

def sameOwner (existing binding : ResponseBinding Selection) : Bool :=
  existing.groupID = binding.groupID && existing.credentialID = binding.credentialID &&
    existing.identityGeneration = binding.identityGeneration &&
    encodeSelection codec existing.autoSelection = encodeSelection codec binding.autoSelection

def insert (binding : ResponseBinding Selection) : ResponseBindings Selection × Bool :=
  match b.entry binding.key with
  | some existing =>
    if sameOwner codec existing binding && binding.expiresAt < existing.expiresAt then
      ({ b with order := b.order.map fun e =>
          if e.key = binding.key then { e with expiresAt := binding.expiresAt } else e }, true)
    else (b, sameOwner codec existing binding)
  | none =>
    if b.capacity ≤ 0 ∨ b.ttl ≤ 0 then (b, false)
    else
      let amount := bindingBytes codec binding
      if maxResponseBindingIDBytes < amount then (b, false)
      else
        let b := evictFrom codec amount b.order b
        ({ b with order := b.order ++ [binding], idBytes := b.idBytes + amount }, true)

def lookup (now : Int) (accessKeyID : Nat) (responseID : String) :
    ResponseBindings Selection × Option (ResponseBinding Selection) :=
  match b.entry (accessKeyID, responseID) with
  | none => (b, none)
  | some binding =>
    if now < binding.expiresAt then (b, some binding) else (b.remove codec binding, none)

/-- The entry that `Record` inserts. The selection is copied through its JSON. -/
def candidate (now : Int) (accessKeyID : Nat) (responseID : String) (ref : CredentialRef)
    (autoSelection : Option Selection) : ResponseBinding Selection where
  autoSelection := autoSelection.map fun selection => codec.unmarshal (codec.marshal selection)
  accessKeyID := accessKeyID
  responseID := responseID
  groupID := ref.groupID
  credentialID := ref.id
  identityGeneration := ref.identityGeneration
  expiresAt := now + b.ttl

def record (now : Int) (accessKeyID : Nat) (responseID : String) (ref : CredentialRef)
    (autoSelection : Option Selection) : ResponseBindings Selection × Bool :=
  let binding := b.candidate codec now accessKeyID responseID ref autoSelection
  if binding.complete then (b.expire codec now).insert codec binding else (b, false)

def isResourceBindingKey (key : String) : Bool := "native/".toList.isPrefixOf key.toList

def prepareResource (now : Int) (accessKeyID : Nat) (key : String) (ref : CredentialRef) :
    Option (ResponseBinding Selection) :=
  let binding := b.candidate codec now accessKeyID key ref none
  let fresh := if b.capacity ≤ 0 ∨ b.ttl ≤ 0 then none else some binding
  if binding.complete && isResourceBindingKey key then
    match b.entry (accessKeyID, key) with
    | some existing =>
      if now < existing.expiresAt then
        if existing.groupID ≠ ref.groupID ∨ existing.credentialID ≠ ref.id ∨
            existing.identityGeneration ≠ ref.identityGeneration then none
        else some existing
      else fresh
    | none => fresh
  else none

def remember (now : Int) (binding : ResponseBinding Selection) :
    ResponseBindings Selection × Bool :=
  if binding.complete && now < binding.expiresAt then
    let b := match b.entry binding.key with
      | some existing => if now < existing.expiresAt then b else b.remove codec existing
      | none => b
    (b.expire codec now).insert codec binding
  else (b, false)

def captureCheckpoint (now : Int) :
    ResponseBindings Selection × List (ResponseBinding Selection) :=
  let b := b.expire codec now
  (b, b.order)

def reset : ResponseBindings Selection := { b with order := [], idBytes := 0 }

/-- The loop of `RestoreCheckpoint` over the sorted bindings. -/
def restoreFrom (now : Int) : List (ResponseBinding Selection) → ResponseBindings Selection →
    ResponseBindings Selection × Except String Unit
  | [], b => (b, .ok ())
  | binding :: rest, b =>
    if binding.complete && now < binding.expiresAt then
      match b.insert codec binding with
      | (b, true) => restoreFrom now rest b
      | (b, false) => (b.reset, .error "response checkpoint contains conflicting ownership")
    else restoreFrom now rest b

def restoreCheckpoint (now : Int) (checkpoint : List (ResponseBinding Selection)) :
    ResponseBindings Selection × Except String Unit :=
  restoreFrom codec now (checkpoint.mergeSort fun x y => x.expiresAt ≤ y.expiresAt) b.reset

end ResponseBindings

/-! ## Histories -/

inductive BindingOperation (Selection : Type) where
  | lookup (accessKeyID : Nat) (responseID : String)
  | record (accessKeyID : Nat) (responseID : String) (ref : CredentialRef)
      (autoSelection : Option Selection)
  | prepareResource (accessKeyID : Nat) (key : String) (ref : CredentialRef)
  | remember (binding : ResponseBinding Selection)
  | captureCheckpoint
  | restoreCheckpoint (checkpoint : List (ResponseBinding Selection))

def BindingOperation.apply (b : ResponseBindings Selection) (now : Int) :
    BindingOperation Selection → ResponseBindings Selection
  | .lookup accessKeyID responseID => (b.lookup codec now accessKeyID responseID).1
  | .record accessKeyID responseID ref autoSelection =>
    (b.record codec now accessKeyID responseID ref autoSelection).1
  | .prepareResource .. => b
  | .remember binding => (b.remember codec now binding).1
  | .captureCheckpoint => (b.captureCheckpoint codec now).1
  | .restoreCheckpoint checkpoint => (b.restoreCheckpoint codec now checkpoint).1

def ResponseBindings.after (history : List (Int × BindingOperation Selection))
    (b : ResponseBindings Selection) : ResponseBindings Selection :=
  history.foldl (fun b call => call.2.apply codec b call.1) b

end ApiLoad.State
