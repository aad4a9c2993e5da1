import ApiLoad.Foundation.Bytes
import ApiLoad.Foundation.Transition
import Mathlib.Logic.Function.Basic

/-!
# The pool of provider runtimes

`runtimeManager` of `internal/execution/bifrost/runtime_manager.go`: runtimes are built on demand,
one for each configuration, leased, and shut down when their configuration is retired and the last
lease on them is released. A step below is what one party does under the lock of the manager, or
between two uses of it. Several calls of `acquire` run at once, and each lease is known by the call
that returned it.
-/
namespace ApiLoad.Bifrost
open Foundation Function

/-- `effectiveProviderConfig`, without what only the factory reads. -/
structure ProviderConfig where
  canonical : Bytes
  fingerprint : String
  baseCanonical : Bytes := []
  baseFingerprint : String := ""
  targetCanonical : Bytes := []
  targetFingerprint : String := ""
  credentialPartitionID : Nat := 0
deriving DecidableEq, Inhabited

abbrev EntryID := Nat

/-- The runtime that the factory has built for an entry. No two calls of the factory return the same
one. -/
structure Runtime where
  entry : EntryID
deriving DecidableEq

/-- `runtimeEntry`; `ready` tells that the channel of this name is closed. -/
structure Entry where
  config : ProviderConfig
  runtime : Option Runtime := none
  ready : Bool := false
  initializing : Bool := true
  initErr : Option String := none
  refs : Nat := 1
  retiring : Bool
deriving DecidableEq, Inhabited

/-- How far a call of `acquire` is, and later the lease that it has returned. -/
inductive Phase
  /-- At the head of the loop. -/
  | called
  /-- Waiting for the channel `ready` of an entry. -/
  | waiting (entry : EntryID)
  /-- The channel is closed, but the error has not been read. -/
  | observed (entry : EntryID)
  /-- In the factory. -/
  | building (entry : EntryID)
  /-- The entry has been counted, and the lease is about to be made. -/
  | leasing (entry : EntryID)
  /-- The call has returned a lease. -/
  | held (entry : EntryID) (runtime : Option Runtime)
  /-- `Release` has been called. -/
  | releasing (entry : EntryID)
  | released
  | failed (problem : String)
deriving DecidableEq

structure Call where
  config : ProviderConfig
  phase : Phase := .called
deriving DecidableEq

/-- `runtimeManager`, its entries, the calls of `acquire`, and what has become of the runtimes that
left the pool: those in the local variables of the callers that retired them, those whose
`BeginShutdown` has been called, and among these those whose shutdown is awaited. -/
structure Pool where
  entries : List (String × EntryID) := []
  heap : EntryID → Entry := fun _ => default
  next : EntryID := 0
  active : List (String × Bytes) := []
  activeKnown : Bool := false
  closed : Bool := false
  shuttingDown : Int := 0
  shutdownClosed : Bool := false
  /-- How often `shutdownDone` has been closed. -/
  closings : Nat := 0
  calls : List Call := []
  retired : List Runtime := []
  begun : List Runtime := []
  awaited : List Runtime := []

namespace Pool

def setEntry (p : Pool) (e : EntryID) (entry : Entry) : Pool :=
  { p with heap := update p.heap e entry }

def setPhase (p : Pool) (i : Nat) (phase : Phase) : Pool :=
  { p with calls := p.calls.modify i fun call => { call with phase } }

def isActive (active : List (String × Bytes)) (config : ProviderConfig) : Bool :=
  let (fingerprint, canonical) :=
    if config.credentialPartitionID ≠ 0 then
      if config.targetFingerprint ≠ "" then (config.targetFingerprint, config.targetCanonical)
      else if config.baseFingerprint ≠ "" then (config.baseFingerprint, config.baseCanonical)
      else (config.fingerprint, config.canonical)
    else (config.fingerprint, config.canonical)
  active.lookup fingerprint = some canonical

def configIsActive (p : Pool) (config : ProviderConfig) : Bool := isActive p.active config

def maybeCloseShutdownLocked (p : Pool) : Pool :=
  if !p.closed || !p.entries.isEmpty || p.shuttingDown ≠ 0 || p.shutdownClosed then p
  else { p with shutdownClosed := true, closings := p.closings + 1 }

/-- `retireEntryLocked`, with the caller that keeps the runtime it returns. -/
def retireEntryLocked (p : Pool) (e : EntryID) : Pool :=
  let entry := p.heap e
  match entry.runtime with
  | none => p
  | some runtime =>
    if entry.initializing || !entry.retiring || entry.refs ≠ 0 ||
        p.entries.lookup entry.config.fingerprint ≠ some e then p
    else
      { p with
        entries := p.entries.filter fun f => f.1 ≠ entry.config.fingerprint
        shuttingDown := p.shuttingDown + 1
        retired := p.retired ++ [runtime] }

/-- The loops of `reconcile`, `retireCredential` and `beginShutdown` over the entries: some entries
are marked, and those retired that can be. -/
def sweep (mark : Entry → Option Bool) : List EntryID → Pool → Pool
  | [], p => p
  | e :: rest, p =>
    match mark (p.heap e) with
    | none => sweep mark rest p
    | some retiring =>
      sweep mark rest ((p.setEntry e { p.heap e with retiring }).retireEntryLocked e)

def ids (p : Pool) : List EntryID := p.entries.map Prod.snd

/-- The map built by `reconcile`; a later configuration replaces an earlier one. -/
def activeOf (configs : List ProviderConfig) : List (String × Bytes) :=
  configs.foldl (fun active config => (config.fingerprint, config.canonical) :: active) []

def reconcile (p : Pool) (configs : List ProviderConfig) : Pool :=
  if p.closed then p
  else
    let p := { p with activeKnown := true, active := activeOf configs }
    sweep (fun entry => some (!p.configIsActive entry.config)) p.ids p

def retireCredential (p : Pool) (credentialID : Nat) : Pool :=
  if credentialID = 0 then p
  else
    sweep (fun entry =>
      if entry.config.credentialPartitionID ≠ credentialID then none else some true) p.ids p

def beginShutdown (p : Pool) : Pool :=
  let p := { p with closed := true, activeKnown := true, active := [] }
  (sweep (fun _ => some true) p.ids p).maybeCloseShutdownLocked

/-- The head of the loop of `acquire`, up to the release of the lock. -/
def look (p : Pool) (i : Nat) (config : ProviderConfig) : Pool :=
  if p.closed then p.setPhase i (.failed "provider runtime manager is shut down")
  else match p.entries.lookup config.fingerprint with
    | some e =>
      let entry := p.heap e
      if entry.config.canonical ≠ config.canonical then
        p.setPhase i (.failed "provider runtime fingerprint collision")
      else if entry.initializing then p.setPhase i (.waiting e)
      else (p.setEntry e { entry with refs := entry.refs + 1 }).setPhase i (.leasing e)
    | none =>
      let entry : Entry := { config, retiring := p.activeKnown && !p.configIsActive config }
      { p.setEntry p.next entry with
        next := p.next + 1
        entries := (config.fingerprint, p.next) :: p.entries }.setPhase i (.building p.next)

/-- `acquire` after the factory has returned a runtime. -/
def built (p : Pool) (i : Nat) (e : EntryID) : Pool :=
  (p.setEntry e
  { p.heap e with initializing := false, runtime := some ⟨e⟩, ready := true }).setPhase
    i (.leasing e)

/-- `acquire` after the factory has failed. -/
def buildFailed (p : Pool) (i : Nat) (config : ProviderConfig) (e : EntryID) (problem : String) :
    Pool :=
  let p := p.setEntry e
    { p.heap e with initializing := false, initErr := some problem, ready := true }
  let p := { p with entries := p.entries.filter fun f => f.1 ≠ config.fingerprint }
  (p.setPhase i (.failed problem)).maybeCloseShutdownLocked

def release (p : Pool) (i : Nat) (e : EntryID) : Pool :=
  ((p.setEntry e { p.heap e with refs := (p.heap e).refs - 1 }).retireEntryLocked e).setPhase
    i .released

/-- The goroutine of `startShutdown`, after the shutdown of the runtime is complete. -/
def completed (p : Pool) (r : Runtime) : Pool :=
  { p with
    shuttingDown := p.shuttingDown - 1
    awaited := p.awaited.erase r }.maybeCloseShutdownLocked

end Pool

/-- The steps. Those with a number are steps of a call of `acquire` or on its lease. -/
inductive Label
  | acquire (config : ProviderConfig)
  | look (i : Nat)
  | cancel (i : Nat) (problem : String)
  | ready (i : Nat)
  | check (i : Nat)
  | built (i : Nat)
  | buildFailed (i : Nat) (problem : String)
  | lease (i : Nat)
  | callRelease (i : Nat)
  | release (i : Nat)
  | reconcile (configs : List ProviderConfig)
  | retireCredential (credentialID : Nat)
  | beginShutdown
  | startShutdown (runtime : Runtime)
  | completed (runtime : Runtime)

/-- A step of a call of `acquire`, or on the lease that it has returned. -/
def callStep (p : Pool) (i : Nat) (call : Call) : Label → Option Pool
  | .look _ =>
    match call.phase with
    | .called => some (p.look i call.config)
    | _ => none
  | .cancel _ problem =>
    match call.phase with
    | .waiting _ => some (p.setPhase i (.failed problem))
    | _ => none
  | .ready _ =>
    match call.phase with
    | .waiting e => if (p.heap e).ready then some (p.setPhase i (.observed e)) else none
    | _ => none
  | .check _ =>
    match call.phase with
    | .observed e =>
      match (p.heap e).initErr with
      | some problem => some (p.setPhase i (.failed problem))
      | none => some (p.setPhase i .called)
    | _ => none
  | .built _ =>
    match call.phase with
    | .building e => some (p.built i e)
    | _ => none
  | .buildFailed _ problem =>
    match call.phase with
    | .building e => some (p.buildFailed i call.config e problem)
    | _ => none
  | .lease _ =>
    match call.phase with
    | .leasing e => some (p.setPhase i (.held e (p.heap e).runtime))
    | _ => none
  | .callRelease _ =>
    match call.phase with
    | .held e _ => some (p.setPhase i (.releasing e))
    -- the lease has been released before
    | .releasing _ | .released => some p
    | _ => none
  | .release _ =>
    match call.phase with
    | .releasing e => some (p.release i e)
    | _ => none
  | _ => none

def step (label : Label) (p : Pool) : Option Pool :=
  match label with
  | .acquire config => some { p with calls := p.calls ++ [{ config }] }
  | .look i | .cancel i _ | .ready i | .check i | .built i | .buildFailed i _ | .lease i
  | .callRelease i | .release i => p.calls[i]?.bind fun call => callStep p i call label
  | .reconcile configs => some (p.reconcile configs)
  | .retireCredential credentialID => some (p.retireCredential credentialID)
  | .beginShutdown => some p.beginShutdown
  | .startShutdown r =>
    if r ∈ p.retired then
      some { p with
        retired := p.retired.erase r
        begun := p.begun ++ [r]
        awaited := p.awaited ++ [r] }
    else none
  | .completed r => if r ∈ p.awaited then some (p.completed r) else none

end ApiLoad.Bifrost
