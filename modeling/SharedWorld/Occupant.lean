import SharedWorld.Id
import SharedWorld.Table

/-!
# Occupants of a place

A place publishes the set of its occupants, and every change to it as a delta. Whoever follows the
set applies the deltas. An update of an unknown occupant is taken as its arrival, so a copy that
missed an arrival is right again after the occupant's next delta.
-/

namespace SharedWorld

/-- The name of the occupant collection that every place publishes. -/
def occupantsCollection : String := "occupants"

/-- Whether an occupant's session has a connection. -/
inductive OccupantStatus where
  | active
  /-- The session lost its connection and may yet resume. -/
  | disconnected
  deriving DecidableEq, Repr

/-- What participants know of an occupant. -/
structure OccupantInfo where
  entity : EntityId
  identity : Identity
  status : OccupantStatus
  location : Option LocationId
  deriving DecidableEq, Repr

/-- One change to a set of occupants. -/
inductive SetDelta where
  | added (info : OccupantInfo)
  | updated (info : OccupantInfo)
  | removed (entity : EntityId)
  deriving DecidableEq, Repr

/-- The entity of the occupant that a change is about. -/
def SetDelta.entity : SetDelta → EntityId
  | .added info | .updated info => info.entity
  | .removed entity => entity

/-- A change to a named collection of occupants. -/
structure OccupantDelta where
  collection : String
  delta : SetDelta
  deriving DecidableEq, Repr

/-- A change to the collection that every place publishes. -/
def OccupantDelta.ofOccupants (delta : SetDelta) : OccupantDelta := ⟨occupantsCollection, delta⟩

/-- The occupants of a place, each under its entity. -/
abbrev OccupantSet := Table EntityId OccupantInfo

namespace OccupantSet

/-- Put an occupant into the set, in place of what was known of its entity. -/
def put (set : OccupantSet) (info : OccupantInfo) : OccupantSet := set.insert info.entity info

/-- The set of the given occupants; a later entry for an entity replaces an earlier one. -/
def ofInfos (infos : List OccupantInfo) : OccupantSet := infos.foldl put Table.empty

/-- Put an occupant into the set if its entity is already there. -/
def update (set : OccupantSet) (info : OccupantInfo) : OccupantSet :=
  if set.contains info.entity then set.put info else set

/-- The occupants' identities, in the order of their entities. -/
def identities (set : OccupantSet) : List Identity := set.values.map (·.identity)

/-- Whether some occupant has the given identity. -/
def hasMember (set : OccupantSet) (identity : Identity) : Bool := set.identities.contains identity

/-- The set after a delta of the collection it follows. -/
def apply (set : OccupantSet) : SetDelta → OccupantSet
  | .added info | .updated info => set.put info
  | .removed entity => set.erase entity

end OccupantSet

end SharedWorld
