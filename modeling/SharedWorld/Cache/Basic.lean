import SharedWorld.Scene
import SharedWorld.Table

/-!
# The resolution cache

A cache loads payloads on demand, with at most one load under way for a key. While a load is under
way its entry lists the tickets of those who wait for it; when it settles, each of them is delivered
the same outcome, and later readers find the settled entry.

Entries are counted by the references their readers hold. Entries that are ready and unreferenced
are idle: they stay in the order of their last touch, and the least recently touched ones are
evicted when there are more of them than the cache keeps.
-/

namespace SharedWorld

/-- What a load brought. -/
inductive LoadOutcome (π : Type) where
  | loaded (payload : π)
  | failed (error : LoadError)
  deriving DecidableEq, Repr

/-- The zone that a load brought. -/
def LoadOutcome.asZone : LoadOutcome Bundle → Except LoadError ZoneSummary
  | .loaded bundle => bundle.asZone
  | .failed error => .error error

/-- The scene that a load brought. -/
def LoadOutcome.asScene : LoadOutcome Bundle → Except LoadError SceneModel
  | .loaded bundle => bundle.asScene
  | .failed error => .error error

/-- Carries out loads. Some of them have an outcome as soon as one is started, others when it is
reported later. -/
structure Loader (κ π : Type) where
  /-- The outcomes that are reported when a load is started, given the keys of all loads started so
  far, the new one last. Each is the outcome of the oldest load of its key still under way. -/
  reports : List κ → List (κ × LoadOutcome π)

namespace Loader

variable {κ π : Type}

/-- The loader whose loads all stay under way until they are reported. -/
def manual : Loader κ π := ⟨fun _ => []⟩

/-- The loader that reads each load from a store on the spot. -/
def immediate (store : κ → LoadOutcome π) : Loader κ π :=
  ⟨fun started => started.getLast?.toList.map fun key => (key, store key)⟩

end Loader

/-- A store: what the loads of its keys bring. -/
abbrev Store (κ π : Type) [Ord κ] := Table κ (LoadOutcome π)

/-- Load a key from a store. A key that is missing there is not found, under its own text. -/
def Store.load {κ π : Type} [Ord κ] [ToString κ] (store : Store κ π) (key : κ) : LoadOutcome π :=
  (store.get? key).getD (.failed (.notFound (toString key)))

/-- Names one waiter. Tickets are issued in increasing order. -/
abbrev Ticket := Nat

/-- How far an entry's payload has come. -/
inductive EntryState (π : Type) where
  /-- The payload is being loaded for the holders of the tickets. -/
  | pending (waiters : List Ticket)
  | ready (payload : π)
  /-- The last load failed, and there still are references. -/
  | failed
  deriving DecidableEq, Repr

/-- What the cache holds under a key. -/
structure Entry (π : Type) where
  state : EntryState π
  /-- How many references readers hold. -/
  refs : Nat
  deriving DecidableEq, Repr

/-- A cache of payloads that are loaded on demand.

Three of its parts stand for containers it is built on, of which it takes just what they document:
* `idle` is an unbounded map that remembers in which order its keys were last touched. Putting a key
  there makes it the most recently touched one, and so does promoting a key that is there; promoting
  another does nothing. Popping a key takes it out wherever it stands, and popping without a key
  takes out the least recently touched one. Neither changes the order of the rest.
* `arrived` is an unbounded channel from the loads to the cache. Its messages come out in the order
  in which they were sent, each once, and receiving does not wait.
* `delivered` stands for a channel with room for one message for each waiter. Nobody but the pending
  entry holds its sender, so that the waiter receives at most one outcome, and finds the channel
  closed once the entry is gone without having sent one. -/
structure Cache (κ π : Type) [Ord κ] where
  /-- How many idle entries are kept. -/
  idleCapacity : Nat
  loader : Loader κ π
  entries : Table κ (Entry π) := Table.empty
  /-- The keys of the idle entries, each once, the least recently touched first. To put or to
  promote a key is to move it to the end, to pop one is to erase it, and to pop without a key is to
  drop the first. -/
  idle : List κ := []
  /-- The keys of all loads ever started, in their order. -/
  started : List κ := []
  /-- The keys of the loads still under way, the oldest first. -/
  loading : List κ := []
  /-- The outcomes that were reported and not yet settled, the oldest first. Sending appends to
  them, and receiving takes the first. -/
  arrived : List (κ × LoadOutcome π) := []
  nextTicket : Ticket := 0
  /-- What was delivered to each ticket: the one message of the waiter's channel, which stays until
  the waiter takes it. -/
  delivered : Table Ticket (LoadOutcome π) := Table.empty

/-- What can be seen of an entry. -/
inductive EntryStatus where
  | pending (waiters : Nat)
  | ready (refs : Nat)
  | failed (refs : Nat)
  deriving DecidableEq, Repr

/-- The status of an entry. -/
def Entry.status {π : Type} : Entry π → EntryStatus
  | ⟨.pending waiters, _⟩ => .pending waiters.length
  | ⟨.ready _, refs⟩ => .ready refs
  | ⟨.failed, refs⟩ => .failed refs

namespace Cache

variable {κ π : Type} [Ord κ]

/-- How many entries a cache keeps idle unless it is told otherwise. -/
def defaultIdleCapacity : Nat := 64

/-- An empty cache. -/
def new (idleCapacity : Nat) (loader : Loader κ π) : Cache κ π :=
  { idleCapacity := idleCapacity, loader := loader }

/-! ## Queries -/

/-- The status of the entry under `key`. -/
def status? (cache : Cache κ π) (key : κ) : Option EntryStatus :=
  (cache.entries.get? key).map Entry.status

/-- The payload under `key`, if it is ready. Looking does not touch the entry. -/
def peek? (cache : Cache κ π) (key : κ) : Option π :=
  match cache.entries.get? key with
  | some ⟨.ready payload, _⟩ => some payload
  | _ => none

/-- The number of entries. -/
def size (cache : Cache κ π) : Nat := cache.entries.size

/-- Whether there are no entries. -/
def isEmpty (cache : Cache κ π) : Bool := cache.entries.isEmpty

/-- How many loads the cache has started. -/
def loadsStarted (cache : Cache κ π) : Nat := cache.started.length

/-! ## Idle entries -/

variable [Std.TransOrd κ] [DecidableEq κ]

/-- Evict the least recently touched idle entries until no more are left than the cache keeps. -/
def trim (cache : Cache κ π) : Cache κ π :=
  let excess := cache.idle.length - cache.idleCapacity
  { cache with
    idle := cache.idle.drop excess
    entries := (cache.idle.take excess).foldl Table.erase cache.entries }

/-- Put `key` among the idle keys as the most recently touched one, and evict what no longer
fits. -/
def makeIdle (cache : Cache κ π) (key : κ) : Cache κ π :=
  { cache with idle := cache.idle.erase key ++ [key] }.trim

/-- Make `key` the most recently touched idle key, if it is idle. -/
def promote (cache : Cache κ π) (key : κ) : Cache κ π :=
  if key ∈ cache.idle then { cache with idle := cache.idle.erase key ++ [key] } else cache

/-! ## References -/

/-- Take a reference on the entry under `key`. The result is false if there is no entry. -/
def retain (cache : Cache κ π) (key : κ) : Bool × Cache κ π :=
  match cache.entries.get? key with
  | none => (false, cache)
  | some entry =>
    (true, { cache with
      entries := cache.entries.insert key { entry with refs := entry.refs + 1 }
      idle := cache.idle.erase key })

/-- Give a reference on the entry under `key` back. With the last one a ready entry becomes idle and
a failed one is removed. Without an entry or a reference, nothing happens. -/
def release (cache : Cache κ π) (key : κ) : Cache κ π :=
  match cache.entries.get? key with
  | none => cache
  | some entry =>
    match entry.refs with
    | 0 => cache
    | refs + 1 =>
      let cache := { cache with entries := cache.entries.insert key { entry with refs := refs } }
      match refs, entry.state with
      | 0, .ready _ => cache.makeIdle key
      | 0, .failed => { cache with entries := cache.entries.erase key }
      | _, _ => cache

/-! ## Loads -/

/-- Report the outcome of the oldest load of `key` still under way. The result is false if there is
none. -/
def report (cache : Cache κ π) (key : κ) (outcome : LoadOutcome π) : Bool × Cache κ π :=
  if key ∈ cache.loading then
    (true, { cache with
      loading := cache.loading.erase key
      arrived := cache.arrived ++ [(key, outcome)] })
  else (false, cache)

/-- Give up the oldest load of `key` still under way. -/
def abandon (cache : Cache κ π) (key : κ) : Bool × Cache κ π :=
  cache.report key (.failed .abandoned)

/-- Start the load of `key`, for the holder of a new ticket. The entry keeps its references. -/
def startLoad (cache : Cache κ π) (key : κ) (refs : Nat) : Cache κ π :=
  let started := cache.started ++ [key]
  (cache.loader.reports started).foldl (fun cache report => (cache.report report.1 report.2).2)
    { cache with
      entries := cache.entries.insert key ⟨.pending [cache.nextTicket], refs⟩
      started := started
      loading := cache.loading ++ [key]
      nextTicket := cache.nextTicket + 1 }

/-- Deliver an outcome to the holders of the tickets. -/
def deliver (cache : Cache κ π) (tickets : List Ticket) (outcome : LoadOutcome π) : Cache κ π :=
  { cache with
    delivered := tickets.foldl (fun delivered ticket => delivered.insert ticket outcome)
      cache.delivered }

/-- Settle the pending entry under `key`: every waiter is delivered the outcome, a payload makes the
entry ready, and a failure leaves an entry only where there are references. -/
def settle (cache : Cache κ π) (key : κ) (outcome : LoadOutcome π) : Cache κ π :=
  match cache.entries.get? key with
  | some ⟨.pending waiters, refs⟩ =>
    let cache := cache.deliver waiters outcome
    match outcome with
    | .loaded payload =>
      let cache := { cache with entries := cache.entries.insert key ⟨.ready payload, refs⟩ }
      if refs = 0 then cache.makeIdle key else cache
    | .failed _ =>
      if refs = 0 then { cache with entries := cache.entries.erase key }
      else { cache with entries := cache.entries.insert key ⟨.failed, refs⟩ }
  | _ => cache

/-- Settle every outcome that has arrived. The result is their number. -/
def maintain (cache : Cache κ π) : Nat × Cache κ π :=
  (cache.arrived.length,
    cache.arrived.foldl (fun cache arrival => cache.settle arrival.1 arrival.2)
      { cache with arrived := [] })

/-- Drop every entry, and with them the hope of everyone who waits. -/
def close (cache : Cache κ π) : Cache κ π :=
  { cache with entries := Table.empty, idle := [], arrived := [] }

end Cache

end SharedWorld
