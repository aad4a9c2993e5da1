import ApiLoad.Foundation.Transition
import ApiLoad.State.ResponseBindings

/-!
# The store of resource bindings

The owners of native resources, as `internal/resourcebinding/store.go` keeps them in the database. A
row is addressed by the access key and a hash of the resource key. A call reads the clock, then runs
its transaction, and a claim may then delete the expired rows of everybody; other calls come in
between. Transactions are serialisable, so each is one step. The hash is any function: collisions
are allowed.
-/
namespace ApiLoad.ResourceBinding
open Std Foundation
open State.ResponseBindings (isResourceBindingKey)

abbrev Binding := State.ResponseBinding Unit

/-- `UnixMilli` of a time in nanoseconds. -/
def unixMilli (time : Int) : Int := time / 10 ^ 6

def purgeInterval : Int := 3600 * 10 ^ 9

/-- The columns of the unique index. -/
@[ext] structure RowKey where
  accessKeyID : Nat
  resourceHash : String
deriving DecidableEq

instance : Ord RowKey := ⟨compareLex (compareOn RowKey.accessKeyID) (compareOn RowKey.resourceHash)⟩
instance : TransOrd RowKey :=
  inferInstanceAs
    (TransCmp (compareLex (compareOn RowKey.accessKeyID) (compareOn RowKey.resourceHash)))
instance : LawfulEqOrd RowKey :=
  KeyOrder.lawful_of_pair fun _ _ => RowKey.ext

structure Row where
  key : RowKey
  resourceKey : String
  groupID : Nat
  credentialID : Nat
  identityGeneration : Nat
  expiresAtMS : Int
deriving DecidableEq

abbrev Table := ExtTreeMap RowKey Row

inductive ClaimError where
  | unexpectedFormat | incomplete | expired | ownershipConflict
deriving DecidableEq, Repr

def ClaimError.text : ClaimError → String
  | .unexpectedFormat => "resource binding key has an unexpected format"
  | .incomplete => "resource binding is incomplete"
  | .expired => "resource binding has expired"
  | .ownershipConflict => "save resource binding: resource binding has a different owner"

def bindingFromRow (row : Row) : Binding where
  accessKeyID := row.key.accessKeyID
  responseID := row.resourceKey
  groupID := row.groupID
  credentialID := row.credentialID
  identityGeneration := row.identityGeneration
  expiresAt := row.expiresAtMS * 10 ^ 6

/-- The owner of a resource that two rows give is the same. -/
def Row.sameOwner (saved row : Row) : Bool :=
  saved.resourceKey = row.resourceKey && saved.groupID = row.groupID &&
    saved.credentialID = row.credentialID && saved.identityGeneration = row.identityGeneration

section
variable (resourceHash : String → String)

/-- The checks of `Claim` before its transaction, and the row it is about to save. -/
def claimRow (binding : Binding) (now : Int) : Except ClaimError Row :=
  if !isResourceBindingKey binding.responseID then .error .unexpectedFormat
  else if binding.accessKeyID = 0 || binding.groupID = 0 || binding.credentialID = 0 ||
      binding.identityGeneration = 0 then .error .incomplete
  else if unixMilli binding.expiresAt ≤ now then .error .expired
  else .ok
    { key := ⟨binding.accessKeyID, resourceHash binding.responseID⟩
      resourceKey := binding.responseID
      groupID := binding.groupID
      credentialID := binding.credentialID
      identityGeneration := binding.identityGeneration
      expiresAtMS := unixMilli binding.expiresAt }

end

/-- The transaction of `Claim`; with an error it is rolled back. -/
def claimTransaction (table : Table) (row : Row) (now : Int) : Except ClaimError (Table × Row) :=
  let table := match table[row.key]? with
    | some old => if old.expiresAtMS ≤ now then table.erase row.key else table
    | none => table
  let table := if table[row.key]?.isSome then table else table.insert row.key row
  let saved := table[row.key]?.getD row
  if saved.sameOwner row then .ok (table, saved) else .error .ownershipConflict

def loadRow (table : Table) (key : RowKey) (resourceKey : String) (now : Int) : Option Binding :=
  match table[key]? with
  | some row =>
    if now < row.expiresAtMS ∧ row.resourceKey = resourceKey then some (bindingFromRow row)
    else none
  | none => none

/-! ## Calls -/

/-- Where a call is. The times are those that it has read from the clock. -/
inductive Call where
  | claiming (row : Row) (now : Int)
  | claimed (binding : Binding)
  | purging (binding : Binding) (now : Int)
  | deleting (binding : Binding) (now : Int)
  | loading (key : RowKey) (resourceKey : String) (now : Int)
  | claimReturned (result : Except ClaimError Binding)
  | loadReturned (result : Option Binding)
deriving DecidableEq

structure Store where
  table : Table := ∅
  clock : Nat
  /-- The time of the last purge, if there has been one. -/
  lastPurge : Option Int := none
  calls : ExtTreeMap Nat Call := ∅

inductive Action where
  | tick (elapsed : Nat)
  | claim (c : Nat) (binding : Binding)
  | commit (c : Nat)
  | readClock (c : Nat)
  | decidePurge (c : Nat)
  | purge (c : Nat) (ok : Bool)
  | load (c : Nat) (accessKeyID : Nat) (key : String)
  | query (c : Nat)

namespace Store
variable (resourceHash : String → String)

def put (s : Store) (c : Nat) (call : Call) : Store := { s with calls := s.calls.insert c call }

def step : Action → Store → Option Store
  | .tick elapsed, s => some { s with clock := s.clock + elapsed }
  | .claim c binding, s =>
    if s.calls[c]?.isSome then none
    else match claimRow resourceHash binding (unixMilli s.clock) with
      | .error e => some (s.put c (.claimReturned (.error e)))
      | .ok row => some (s.put c (.claiming row (unixMilli s.clock)))
  | .commit c, s => match s.calls[c]? with
    | some (.claiming row now) =>
      match claimTransaction s.table row now with
      | .error e => some (s.put c (.claimReturned (.error e)))
      | .ok (table, saved) => some ({ s with table }.put c (.claimed (bindingFromRow saved)))
    | _ => none
  | .readClock c, s => match s.calls[c]? with
    | some (.claimed binding) => some (s.put c (.purging binding s.clock))
    | _ => none
  | .decidePurge c, s => match s.calls[c]? with
    | some (.purging binding now) =>
      if s.lastPurge.any (now - · < purgeInterval) then
        some (s.put c (.claimReturned (.ok binding)))
      else some ({ s with lastPurge := some now }.put c (.deleting binding now))
    | _ => none
  | .purge c ok, s => match s.calls[c]? with
    | some (.deleting binding now) =>
      let table := if ok then s.table.filter fun _ row => !(row.expiresAtMS ≤ unixMilli now)
        else s.table
      some ({ s with table }.put c (.claimReturned (.ok binding)))
    | _ => none
  | .load c accessKeyID key, s =>
    if s.calls[c]?.isSome then none
    else if accessKeyID = 0 || !isResourceBindingKey key then some (s.put c (.loadReturned none))
    else some (s.put c (.loading ⟨accessKeyID, resourceHash key⟩ key (unixMilli s.clock)))
  | .query c, s => match s.calls[c]? with
    | some (.loading key resourceKey now) =>
      some (s.put c (.loadReturned (loadRow s.table key resourceKey now)))
    | _ => none

/-- The states of a store whose clock starts at some time. -/
abbrev Reachable (start : Nat) : Store → Prop :=
  Transition.Reachable (step resourceHash) { clock := start }

end Store
end ApiLoad.ResourceBinding
