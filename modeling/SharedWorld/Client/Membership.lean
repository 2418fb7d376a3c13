import SharedWorld.Message

/-!
# Membership of the local participant

A tracker follows the occupants of the place its participant is in, and tells its observers when the
participant joins or leaves them. Membership is read off the whole followed set after every change,
so a delta that was missed cannot leave it wrong for good.
-/

namespace SharedWorld

/-- An observer was told that the participant joined or left the occupants of a place. -/
structure MembershipNotice where
  observer : String
  place : PlaceId
  member : Bool
  deriving DecidableEq, Repr

/-- Follows an occupant collection for one participant. -/
structure MembershipTracker where
  /-- The name of the followed collection. -/
  collection : String
  /-- The participant. -/
  me : Identity
  /-- The place whose collection is followed. -/
  place : Option PlaceId := none
  occupants : OccupantSet := Table.empty
  /-- Whether the participant is among the occupants. -/
  member : Bool := false
  /-- The observers' names, in the order in which they are told. -/
  observers : List String := []

/-- A tracker after a change, with whom it told about the change. -/
structure MembershipUpdate where
  tracker : MembershipTracker
  /-- The new membership, if it flipped. -/
  flipped : Option Bool
  notices : List MembershipNotice

namespace MembershipTracker

/-- A tracker of the collection that every place publishes. -/
def new (me : Identity) : MembershipTracker := { collection := occupantsCollection, me := me }

/-- A tracker of the named collection. -/
def forCollection (me : Identity) (collection : String) : MembershipTracker :=
  { collection := collection, me := me }

/-- Add an observer, to be told after all others. -/
def watch (tracker : MembershipTracker) (observer : String) : MembershipTracker :=
  { tracker with observers := tracker.observers ++ [observer] }

/-- Read the membership off the followed set, and tell every observer if it flipped. -/
def reconcile (tracker : MembershipTracker) : MembershipUpdate :=
  let member := tracker.occupants.hasMember tracker.me
  if member = tracker.member then ⟨tracker, none, []⟩
  else
    { tracker := { tracker with member := member }
      flipped := some member
      notices := match tracker.place with
        | some place => tracker.observers.map fun observer => ⟨observer, place, member⟩
        | none => [] }

/-- Follow `place` from a full account of its occupants. -/
def reset (tracker : MembershipTracker) (place : PlaceId) (infos : List OccupantInfo) :
    MembershipUpdate :=
  { tracker with place := some place, occupants := OccupantSet.ofInfos infos }.reconcile

/-- Apply a delta of the followed collection. Other places and collections are ignored. -/
def apply (tracker : MembershipTracker) (place : PlaceId) (delta : OccupantDelta) :
    MembershipUpdate :=
  if tracker.place = some place ∧ delta.collection = tracker.collection then
    { tracker with occupants := tracker.occupants.apply delta.delta }.reconcile
  else ⟨tracker, none, []⟩

end MembershipTracker

end SharedWorld
