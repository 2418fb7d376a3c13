import SharedWorld.Server.Events
import SharedWorld.Server.Simulation
import SharedWorld.Session.Registry

/-!
# The server

Connections come and go at the session registry, and requests queue up. Once per tick the server
catches up: it lets bodies follow the sessions, ends the sessions whose grace period is over, runs
every queued request, and settles loads until there is nothing left to settle.
-/

namespace SharedWorld

/-- What a server is set up with. -/
structure ServerConfig where
  /-- How long a session without a connection waits to be resumed. -/
  sessionGrace : Duration := 60000 * nanosecondsPerMillisecond
  /-- How many idle entries the cache keeps. -/
  idleCapacity : Nat := Cache.defaultIdleCapacity
  deriving DecidableEq, Repr

/-- The state of a server. -/
structure Server where
  config : ServerConfig
  registry : Registry := .empty
  /-- The requests that were not run yet with their callers, the oldest first. -/
  requests : List (Identity × Request) := []
  router : Router Simulation := builtInRouter
  simulation : Simulation
  /-- What the simulation has done to its surroundings, the oldest first. -/
  journal : List Effect := []

namespace Server

/-- A server without sessions. -/
def new (config : ServerConfig) (loader : Loader CacheKey Bundle) : Server :=
  { config := config, simulation := .new config.idleCapacity loader }

/-- The world of a server. -/
def world (server : Server) : World := server.simulation.world

/-- A server with another world. -/
def withWorld (server : Server) (world : World) : Server :=
  { server with simulation := server.simulation.withWorld world }

/-! ## Delivery -/

/-- Carry an effect out: deliver its message, if it has one. A message that cannot be delivered is
lost. -/
def carryOut (server : Server) (effect : Effect) : Server :=
  { server with
    registry := match effect.delivery? with
      | some (recipient, message) => (server.registry.send recipient message).2
      | none => server.registry
    journal := server.journal ++ [effect] }

/-- Carry out what the simulation has done, in its order. -/
def flush (server : Server) : Server :=
  let (effects, world) := server.world.takeEffects
  effects.foldl carryOut (server.withWorld world)

/-- Answer a request through a listener that was kept. -/
def answer (server : Server) (listener : Listener) (answer : Answer) : Server :=
  server.carryOut (.answer listener answer)

/-! ## The tick -/

/-- Let the bodies follow an event of a session. -/
def followSession (world : World) : SessionEvent → World
  | .started _ identity => (world.createBody identity).2
  | .resumed _ identity => (world.createBody identity).2.setStatus identity .active
  | .disconnected _ identity _ => world.setStatus identity .disconnected
  | .ended _ identity => (world.removeBody identity).2

/-- Take the events of the sessions, and let the bodies follow them. -/
def applySessionEvents (server : Server) (events : ServerEvents) : ServerEvents × Server :=
  let (sessionEvents, registry) := server.registry.takeEvents
  let world := sessionEvents.foldl followSession server.world
  (sessionEvents.foldl ServerEvents.push events,
    ({ server with registry := registry }.withWorld world).flush)

/-- Run a request. The handler that is run for it, if there is one, is recorded before all that it
does. -/
def runRequest (server : Server) (caller : Identity) (request : Request) : Server :=
  let simulation := match server.router.route request.service request.method with
    | .ok (layer, _) => server.simulation.withWorld (server.world.record
        (.served request.service layer.name request.method caller))
    | .error _ => server.simulation
  let outcome := server.router.dispatch simulation caller request
  let simulation := match outcome.answer with
    | some answer => outcome.context.withWorld (outcome.context.world.record
        (.answer outcome.listener answer))
    | none => outcome.context
  { server with router := outcome.router, simulation := simulation }

/-- Run every queued request, in the order of their arrival. -/
def runRequests (server : Server) : Server :=
  server.requests.foldl (fun server request => server.runRequest request.1 request.2)
    { server with requests := [] }

/-- One tick at the instant `now`. The result is what happened during it. The sessions whose grace
period is over are ended in the given order. -/
def receiveIn (server : Server) (order : List Identity) (now : Instant) : ServerEvents × Server :=
  let (events, server) := server.applySessionEvents {}
  let (_, registry) := server.registry.expireIn order now server.config.sessionGrace
  let (events, server) := { server with registry := registry }.applySessionEvents events
  let server := server.runRequests
  let server := { server with simulation := server.simulation.settle }.flush
  let (changes, world) := server.world.takeChanges
  (events.pushChanges changes, server.withWorld world)

/-- One tick at the instant `now`, with sessions ended in the order of their identities. -/
def receive (server : Server) (now : Instant) : ServerEvents × Server := server.receiveIn [] now

/-! ## Between ticks -/

/-- Register a further service. -/
def registerService (server : Server) (service : ServiceId) (table : ServiceTable Simulation) :
    Server :=
  { server with router := server.router.register service table }

/-- Queue a request of a caller. -/
def requestAs (server : Server) (caller : Identity) (request : Request) : Server :=
  { server with requests := server.requests ++ [(caller, request)] }

/-- Queue a request that arrived on a connection. It is dropped if the connection has no session. -/
def requestFrom (server : Server) (connection : ConnectionId) (request : Request) : Server :=
  match server.registry.identityFor? connection with
  | some caller => server.requestAs caller request
  | none => server

/-- End the session of an identity. The result is false if there is none. -/
def endSession (server : Server) (identity : Identity) : Bool × Server :=
  let (ended, registry) := server.registry.endSession identity
  (ended, { server with registry := registry })

/-- Take the body of an identity out of its place, and order its client to move to a scene. -/
def moveBody (server : Server) (identity : Identity) (zone : ZoneId) (scene : SceneId) :
    Except SendError Unit × Server :=
  match server.world.entityFor? identity with
  | none => (.error (.noSession identity), server)
  | some entity =>
    let server := (server.withWorld (server.world.leavePlace entity).2).flush
    let (result, registry) := server.registry.send identity (.forcedMove zone scene)
    (result, { server with registry := registry })

/-- Report the outcome of the oldest load of a key still under way. The result is false if there is
none. -/
def reportLoad (server : Server) (key : CacheKey) (outcome : LoadOutcome Bundle) :
    Bool × Server :=
  let (found, cache) := server.world.cache.report key outcome
  (found, server.withWorld { server.world with cache := cache })

end Server

end SharedWorld
