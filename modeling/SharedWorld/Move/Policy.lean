import SharedWorld.World.Basic

/-!
# Zone policies

Each zone may have a policy, which is asked before a body moves into the zone and told after it did.
Zones without one are under a policy that they share. A policy may take its own past into account:
what it says depends on the calls it has had.
-/

namespace SharedWorld

/-- The rules of a zone. -/
structure ZonePolicy where
  /-- The name under which its calls are recorded. -/
  name : Option String := none
  /-- The reason for which a body may not enter, given the calls so far, the oldest first. -/
  verdict : List PolicyCall → Body → ZoneSummary → Option String
  /-- The calls so far. -/
  calls : List PolicyCall := []

namespace ZonePolicy

/-- The policy that lets everyone in. -/
def openToAll : ZonePolicy := { verdict := fun _ _ _ => none }

/-- The policy after a call. -/
def note (policy : ZonePolicy) (call : PolicyCall) : ZonePolicy :=
  { policy with calls := policy.calls ++ [call] }

end ZonePolicy

/-- The policies of all zones. -/
structure ZoneRegistry where
  /-- The policy of the zones without one of their own. -/
  fallback : ZonePolicy := .openToAll
  policies : Table ZoneId ZonePolicy := Table.empty

namespace ZoneRegistry

/-- The registry in which every zone is open to all. -/
def openToAll : ZoneRegistry := {}

/-- The registry in which every zone is under the given policy. -/
def withDefault (policy : ZonePolicy) : ZoneRegistry := { fallback := policy }

/-- Put a zone under a policy of its own. -/
def setPolicy (zones : ZoneRegistry) (zone : ZoneId) (policy : ZonePolicy) : ZoneRegistry :=
  { zones with policies := zones.policies.insert zone policy }

/-- Put a zone back under the shared policy. -/
def clearPolicy (zones : ZoneRegistry) (zone : ZoneId) : ZoneRegistry :=
  { zones with policies := zones.policies.erase zone }

/-- Whether a zone has a policy of its own. -/
def hasPolicy (zones : ZoneRegistry) (zone : ZoneId) : Bool := zones.policies.contains zone

/-- The policy a zone is under. -/
def policyFor (zones : ZoneRegistry) (zone : ZoneId) : ZonePolicy :=
  (zones.policies.get? zone).getD zones.fallback

/-- Note a call of the policy a zone is under. -/
def note (zones : ZoneRegistry) (zone : ZoneId) (call : PolicyCall) : ZoneRegistry :=
  match zones.policies.get? zone with
  | some policy => { zones with policies := zones.policies.insert zone (policy.note call) }
  | none => { zones with fallback := zones.fallback.note call }

end ZoneRegistry

/-- The world together with the rules of its zones: all that a move acts on. -/
structure Realm where
  world : World
  zones : ZoneRegistry := .openToAll

namespace Realm

/-- Call the policy a zone is under. -/
def consult (realm : Realm) (zone : ZoneId) (call : PolicyCall) : Realm :=
  { world := realm.world.record (.consulted (realm.zones.policyFor zone).name call)
    zones := realm.zones.note zone call }

/-- Ask the policy of a zone whether a body may enter. The result is the reason why not. -/
def ratify (realm : Realm) (body : Body) (zone : ZoneSummary) : Option String × Realm :=
  let policy := realm.zones.policyFor zone.zone
  let veto := policy.verdict policy.calls body zone
  (veto, realm.consult zone.zone (.ratified body zone veto))

/-- Tell the policy of a zone that the body of an entity entered. -/
def announce (realm : Realm) (entity : EntityId) (zone : ZoneId) : Realm :=
  match realm.world.body? entity with
  | some body => realm.consult zone (.entered body zone)
  | none => realm

end Realm

end SharedWorld
