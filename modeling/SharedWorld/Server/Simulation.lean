import SharedWorld.Move.Pipeline

/-!
# The simulation and its services

The simulation is what service handlers act on: the world with its zones' policies, the moves under
way, and the listeners that handlers keep. Two services are built in. The location service takes a
body out of its place; the zone service moves a body, and falls back on the location service.
-/

namespace SharedWorld

/-- The state that belongs to the simulation. -/
structure Simulation where
  realm : Realm
  pipeline : Pipeline := .empty
  /-- The listeners that handlers of further services keep, the oldest first. -/
  kept : List Listener := []

/-- The fault of a caller that has no body. -/
def Fault.noBodyFor (identity : Identity) : Fault := .internal ("no body for " ++ identity.name)

namespace Simulation

/-- A simulation without bodies. -/
def new (idleCapacity : Nat) (loader : Loader CacheKey Bundle) : Simulation :=
  { realm := { world := .new idleCapacity loader } }

/-- The world of a simulation. -/
def world (simulation : Simulation) : World := simulation.realm.world

/-- A simulation with another world. -/
def withWorld (simulation : Simulation) (world : World) : Simulation :=
  { simulation with realm := { simulation.realm with world := world } }

/-- Begin or queue a move. -/
def beginMove (simulation : Simulation) (request : MoveRequest) : Simulation :=
  let (pipeline, realm) := simulation.pipeline.begin simulation.realm request
  { simulation with pipeline := pipeline, realm := realm }

/-- Take every move under way on. The result counts the requests that were answered. -/
def advance (simulation : Simulation) : Nat × Simulation :=
  let (finished, pipeline, realm) := simulation.pipeline.advance simulation.realm
  (finished, { simulation with pipeline := pipeline, realm := realm })

/-- Settle the loads whose outcomes arrived. The result is their number. -/
def maintain (simulation : Simulation) : Nat × Simulation :=
  let (settled, cache) := simulation.world.cache.maintain
  (settled, simulation.withWorld { simulation.world with cache := cache })

/-- Keep the listener of a call, to answer it later. -/
def keep (simulation : Simulation) (listener : Listener) : Simulation :=
  { simulation with kept := simulation.kept ++ [listener] }

/-- Settle loads and take moves on, at most `rounds` times, until no outcome is left to settle. -/
def settleWithin (rounds : Nat) (simulation : Simulation) : Simulation :=
  match rounds with
  | 0 => simulation
  | rounds + 1 =>
    match simulation.maintain with
    | (0, simulation) => simulation
    | (_ + 1, simulation) => settleWithin rounds simulation.advance.2

/-- The number of moves that wait for their zone. -/
def zoneFlights (simulation : Simulation) : Nat :=
  simulation.pipeline.inFlight.values.countP fun flight =>
    match flight.stage with
    | .resolvingZone _ => true
    | .resolvingScene _ _ => false

/-- The number of requests that wait behind moves. -/
def queuedRequests (simulation : Simulation) : Nat :=
  simulation.pipeline.queued.values.flatten.length

/-- A bound on the rounds after which no outcome is left to settle. Every round but the last settles
a load. The loads are those that are not settled yet, and those that moves start meanwhile: one for
each move that waits for its zone and two for each request that waits behind a move. -/
def settlingRounds (simulation : Simulation) : Nat :=
  simulation.world.cache.loading.length + simulation.world.cache.arrived.length +
    simulation.zoneFlights + 2 * simulation.queuedRequests + 1

/-- Settle loads and take moves on until no outcome is left to settle. A load that settles can let a
move start its next one, which may have an outcome at once. -/
def settle (simulation : Simulation) : Simulation :=
  simulation.settleWithin simulation.settlingRounds

end Simulation

/-! ## Built-in services -/

/-- Leave the place the caller's body is in. A body that is in no place is acknowledged too. -/
def leavePlaceHandler : Handler Simulation := fun simulation call =>
  match simulation.world.entityFor? call.listener.caller with
  | none =>
    { context := simulation, use := .dropped, fault := some (.noBodyFor call.listener.caller) }
  | some entity =>
    { context := simulation.withWorld (simulation.world.leavePlace entity).2
      use := .answered (.success .ack) }

/-- Begin a move of the caller's body to the target in the arguments. -/
def moveToHandler : Handler Simulation := fun simulation call =>
  match MoveTarget.ofArguments call.args with
  | .error fault => { context := simulation, use := .dropped, fault := some fault }
  | .ok (target, version) =>
    match simulation.world.entityFor? call.listener.caller with
    | none =>
      { context := simulation, use := .dropped, fault := some (.noBodyFor call.listener.caller) }
    | some entity =>
      { context := simulation.beginMove ⟨entity, target, version, call.listener⟩, use := .kept }

/-- The basic operations on locations. -/
def locationTable : ServiceTable Simulation :=
  ⟨(Layer.named "location").on leavePlaceMethod leavePlaceHandler, []⟩

/-- The moves between scenes. -/
def zoneTable : ServiceTable Simulation :=
  .onTopOf ((Layer.named "zone").on moveToMethod moveToHandler) locationTable

/-- The router with the built-in services. -/
def builtInRouter : Router Simulation :=
  (Router.empty.register locationService locationTable).register zoneService zoneTable

end SharedWorld
