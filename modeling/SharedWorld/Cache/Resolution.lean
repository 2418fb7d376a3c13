import SharedWorld.Cache.Basic

/-!
# Resolutions

A resolution stands for the outcome of resolving one key. A key that is ready is settled from the
start; otherwise the resolution holds a ticket, and its outcome is what the ticket is delivered.
The outcome can be taken once.
-/

namespace SharedWorld

/-- The outcome of resolving a key, now or later. -/
inductive Resolution (κ π : Type) where
  /-- The outcome is known, or has been taken. -/
  | settled (outcome : Option (LoadOutcome π))
  /-- The outcome is what the ticket is delivered by the load of `key`. -/
  | waiting (key : κ) (ticket : Ticket)
  deriving DecidableEq, Repr

namespace Cache

variable {κ π : Type} [Ord κ]

/-- Whether the entry under `key` is pending and lists the ticket among its waiters. -/
def awaits (cache : Cache κ π) (key : κ) (ticket : Ticket) : Bool :=
  match cache.entries.get? key with
  | some ⟨.pending waiters, _⟩ => waiters.contains ticket
  | _ => false

/-- What the holder of a ticket learns: the outcome it was delivered, nothing while its load is
pending, and that the load was abandoned if nobody is left to deliver it. -/
def outcomeFor? (cache : Cache κ π) (key : κ) (ticket : Ticket) : Option (LoadOutcome π) :=
  match cache.delivered.get? ticket with
  | some outcome => some outcome
  | none => if cache.awaits key ticket then none else some (.failed .abandoned)

variable [Std.TransOrd κ] [DecidableEq κ]

/-- Resolve `key`. A ready entry is read and touched, a pending one is joined, and an absent or
failed one is loaded. -/
def resolve (cache : Cache κ π) (key : κ) : Resolution κ π × Cache κ π :=
  match cache.entries.get? key with
  | some ⟨.ready payload, _⟩ => (.settled (some (.loaded payload)), cache.promote key)
  | some ⟨.pending waiters, refs⟩ =>
    (.waiting key cache.nextTicket,
      { cache with
        entries := cache.entries.insert key ⟨.pending (waiters ++ [cache.nextTicket]), refs⟩
        nextTicket := cache.nextTicket + 1 })
  | some ⟨.failed, refs⟩ => (.waiting key cache.nextTicket, cache.startLoad key refs)
  | none => (.waiting key cache.nextTicket, cache.startLoad key 0)

end Cache

namespace Resolution

variable {κ π : Type} [Ord κ]

/-- Take the outcome, if it is there and was not taken before. -/
def tryTake (resolution : Resolution κ π) (cache : Cache κ π) :
    Option (LoadOutcome π) × Resolution κ π :=
  match resolution with
  | .settled outcome => (outcome, .settled none)
  | .waiting key ticket =>
    match cache.outcomeFor? key ticket with
    | some outcome => (some outcome, .settled none)
    | none => (none, resolution)

/-- Wait for the outcome: `none` as long as it is not there. An outcome that was taken before counts
as abandoned. -/
def await (resolution : Resolution κ π) (cache : Cache κ π) : Option (LoadOutcome π) :=
  match resolution with
  | .settled outcome => some (outcome.getD (.failed .abandoned))
  | .waiting key ticket => cache.outcomeFor? key ticket

end Resolution

end SharedWorld
