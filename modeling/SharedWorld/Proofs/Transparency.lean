import SharedWorld.Proofs.Performances
import SharedWorld.Proofs.Sessions

/-!
# The cache is transparent

Two servers keep differently many idle entries in their caches, which read from the same store, and
the same happens to them. They find and load different entries, so a move may be answered on one of
them while it is parked on the other. But no tick ends before every move has come to what it would
come to without a cache, and so they differ in their caches only (`Server.run_transparent`).
-/

namespace SharedWorld.Server

/-! ## Servers that differ in their caches -/

/-- The servers differ at most in their caches, and in how many idle entries these are to keep. -/
structure Alike (server other : Server) : Prop where
  grace : other.config.sessionGrace = server.config.sessionGrace
  registry : other.registry = server.registry
  requests : other.requests = server.requests
  router : other.router = server.router
  journal : other.journal = server.journal
  pipeline : other.simulation.pipeline = server.simulation.pipeline
  kept : other.simulation.kept = server.simulation.kept
  realm : server.simulation.realm.Alike other.simulation.realm

/-- The built-in services are registered, and nothing is under way. -/
structure Rests (store : CacheKey → LoadOutcome Bundle) (server : Server) : Prop where
  builtIn : server.BuiltIn
  simulation : server.simulation.Rests store

/-- The servers differ at most in their caches, and nothing is under way on either. -/
structure Twins (store : CacheKey → LoadOutcome Bundle) (server other : Server) : Prop
    extends server.Alike other where
  rests : server.Rests store
  rests' : other.Rests store

variable {store : CacheKey → LoadOutcome Bundle} {server other : Server} {after after' : World}

/-- The caches differ by references only. -/
abbrev Recounted (store : CacheKey → LoadOutcome Bundle) (before after : World) : Prop :=
  Cache.Recounts (fun key payload => store key = .loaded payload) before.cache after.cache

/-- A server stays at rest while references are taken and given back. -/
theorem Rests.withWorld (h : server.Rests store) (recounts : Recounted store server.world after) :
    (server.withWorld after).Rests store :=
  ⟨h.builtIn, h.simulation.cache.recounts recounts, h.simulation.pipeline⟩

/-- The worlds of servers that are alike are alike. -/
theorem Alike.world (h : server.Alike other) : server.world.Alike other.world := h.realm.world

/-- Twins stay twins in worlds that are alike. -/
theorem Twins.withWorld (h : Twins store server other) (hafter : after.Alike after')
    (recounts : Recounted store server.world after)
    (recounts' : Recounted store other.world after') :
    Twins store (server.withWorld after) (other.withWorld after') :=
  ⟨⟨h.grace, h.registry, h.requests, h.router, h.journal, h.pipeline, h.kept, hafter,
    h.realm.zones⟩, h.rests.withWorld recounts, h.rests'.withWorld recounts'⟩

/-- What does not touch the caches leaves them at rest. -/
theorem Twins.withWorld_of_eq (h : Twins store server other) (hafter : after.Alike after')
    (hcache : after.cache = server.world.cache) (hcache' : after'.cache = other.world.cache) :
    Twins store (server.withWorld after) (other.withWorld after') :=
  h.withWorld hafter (h.rests.simulation.cache.sound.recounts_of_eq hcache)
    (h.rests'.simulation.cache.sound.recounts_of_eq hcache')

/-- Twins stay twins with the same registry. -/
theorem Twins.withRegistry (h : Twins store server other) (registry : Registry) :
    Twins store { server with registry := registry } { other with registry := registry } :=
  ⟨⟨h.grace, rfl, h.requests, h.router, h.journal, h.pipeline, h.kept, h.realm⟩,
    ⟨h.rests.builtIn, h.rests.simulation⟩, ⟨h.rests'.builtIn, h.rests'.simulation⟩⟩

/-- Twins stay twins with the same requests. -/
theorem Twins.withRequests (h : Twins store server other) (requests : List (Identity × Request)) :
    Twins store { server with requests := requests } { other with requests := requests } :=
  ⟨⟨h.grace, h.registry, rfl, h.router, h.journal, h.pipeline, h.kept, h.realm⟩,
    ⟨h.rests.builtIn, h.rests.simulation⟩, ⟨h.rests'.builtIn, h.rests'.simulation⟩⟩

/-! ## Delivery -/

/-- Twins stay twins when the same effect is carried out. -/
theorem Twins.carryOut (h : Twins store server other) (effect : Effect) :
    Twins store (server.carryOut effect) (other.carryOut effect) := by
  unfold Server.carryOut
  rw [h.registry, h.journal]
  exact ⟨⟨h.grace, rfl, h.requests, h.router, rfl, h.pipeline, h.kept, h.realm⟩,
    ⟨h.rests.builtIn, h.rests.simulation⟩, ⟨h.rests'.builtIn, h.rests'.simulation⟩⟩

/-- Twins stay twins when the same effects are carried out. -/
theorem Twins.foldl_carryOut (h : Twins store server other) (effects : List Effect) :
    Twins store (effects.foldl Server.carryOut server) (effects.foldl Server.carryOut other) := by
  induction effects generalizing server other with
  | nil => exact h
  | cons effect rest ih => exact ih (h.carryOut effect)

/-- Twins carry the same effects out. -/
theorem Twins.flush (h : Twins store server other) : Twins store server.flush other.flush := by
  obtain ⟨heffects, hworld⟩ := h.world.takeEffects
  unfold Server.flush
  dsimp only
  rw [← heffects]
  exact (h.withWorld_of_eq hworld rfl rfl).foldl_carryOut _

/-! ## Sessions -/

/-- Bodies that follow the events of sessions take and give back references only. -/
theorem recounted_followSessions (h : after.cache.Rests store) (events : List SessionEvent) :
    Recounted store after (events.foldl followSession after) :=
  List.foldlRecOn (motive := Recounted store after) events followSession h.sound.recounts_refl
    fun _ recounts event _ => recounts.trans (recounts_followSession recounts.sound event)

/-- Following the events of sessions leaves worlds alike. -/
theorem alike_followSessions (h : after.Alike after') (events : List SessionEvent) :
    (events.foldl followSession after).Alike (events.foldl followSession after') := by
  induction events generalizing after after' with
  | nil => exact h
  | cons event rest ih => exact ih (alike_followSession h event)

/-- Twins follow the events of sessions to the same changes. -/
theorem Twins.applySessionEvents (h : Twins store server other) (events : ServerEvents) :
    (server.applySessionEvents events).1 = (other.applySessionEvents events).1 ∧
      Twins store (server.applySessionEvents events).2 (other.applySessionEvents events).2 := by
  unfold Server.applySessionEvents Registry.takeEvents
  dsimp only
  rw [h.registry]
  refine ⟨rfl, Twins.flush ?_⟩
  exact (h.withRegistry _).withWorld (alike_followSessions h.world _)
    (recounted_followSessions h.rests.simulation.cache _)
    (recounted_followSessions h.rests'.simulation.cache _)

/-! ## Requests -/

/-- The simulation of a server is replaced, after a request was dispatched. -/
theorem Twins.dispatched (h : Twins store server other) {simulation simulation' : Simulation}
    (hrests : simulation.Rests store) (hrests' : simulation'.Rests store)
    (hkept : simulation.kept = server.simulation.kept)
    (hkept' : simulation'.kept = other.simulation.kept)
    (hrealm : simulation.realm.Alike simulation'.realm) :
    let router := { server.router with dispatched := server.router.dispatched + 1 }
    Twins store { server with router := router, simulation := simulation }
      { other with router := router, simulation := simulation' } := by
  refine ⟨⟨h.grace, h.registry, h.requests, rfl, h.journal, ?_, ?_, hrealm⟩,
    ⟨h.rests.builtIn, hrests⟩, ⟨h.rests.builtIn, hrests'⟩⟩
  · exact hrests'.pipeline.trans hrests.pipeline.symm
  · rw [hkept, hkept']
    exact h.kept

/-- A request that is answered in its dispatch leaves nothing to settle. -/
theorem Twins.answered (h : Twins store server other) (hafter : after.Alike after')
    (recounts : Recounted store server.world after)
    (recounts' : Recounted store other.world after') :
    let router := { server.router with dispatched := server.router.dispatched + 1 }
    Twins store
      { server with
        router := router
        simulation := (server.simulation.withWorld after).settle }
      { other with
        router := router
        simulation := (other.simulation.withWorld after').settle } := by
  have hrests := (h.rests.withWorld recounts).simulation
  have hrests' := (h.rests'.withWorld recounts').simulation
  have hsettled : (server.simulation.withWorld after).settle = server.simulation.withWorld after :=
    hrests.settle_eq
  have hsettled' : (other.simulation.withWorld after').settle =
    other.simulation.withWorld after' := hrests'.settle_eq
  rw [hsettled, hsettled']
  exact h.dispatched hrests hrests' rfl rfl ⟨hafter, h.realm.zones⟩

/-- A move that a request begins comes to the same on both servers. -/
theorem Twins.moved (h : Twins store server other) (hafter : after.Alike after')
    (hcache : after.cache = server.world.cache) (hcache' : after'.cache = other.world.cache)
    (move : MoveRequest) :
    let router := { server.router with dispatched := server.router.dispatched + 1 }
    Twins store
      { server with
        router := router
        simulation := ((server.simulation.withWorld after).beginMove move).settle }
      { other with
        router := router
        simulation := ((other.simulation.withWorld after').beginMove move).settle } := by
  have hbegun := h.withWorld_of_eq hafter hcache hcache'
  obtain ⟨hrests, hkept, hgoal⟩ := hbegun.rests.simulation.settle_beginMove move
  obtain ⟨hrests', hkept', hgoal'⟩ := hbegun.rests'.simulation.settle_beginMove move
  have hperformed := MoveRequest.alike_perform hbegun.realm move store
  exact h.dispatched hrests hrests' hkept hkept' ((hgoal.trans hperformed).trans hgoal'.symm)

/-- The handler of a request finds the same body on both servers. -/
theorem Twins.entityFor?_eq (h : Twins store server other) (caller : Identity) (effect : Effect) :
    (server.simulation.withWorld (server.world.record effect)).world.entityFor? caller =
        server.world.entityFor? caller ∧
      (other.simulation.withWorld (other.world.record effect)).world.entityFor? caller =
        server.world.entityFor? caller :=
  ⟨rfl, congrArg (Table.get? · caller) h.world.entities⟩

/-- A request comes to the same on both servers once all loads that it starts are settled. -/
theorem Twins.runRequest (h : Twins store server other) (caller : Identity) (request : Request) :
    Twins store
      { server.runRequest caller request with
        simulation := (server.runRequest caller request).simulation.settle }
      { other.runRequest caller request with
        simulation := (other.runRequest caller request).simulation.settle } := by
  have hsound := h.rests.simulation.cache.sound
  have hsound' := h.rests'.simulation.cache.sound
  have hleave : ∀ {world : World} (effect : Effect) (entity : EntityId),
      world.cache.Sound (fun key payload => store key = .loaded payload) →
        Recounted store world ((world.record effect).leavePlace entity).2 :=
    fun {world} effect entity hsound =>
      ((world.record effect).leavePlace_outcome entity).recounts hsound
  rcases builtInRouter_route h.rests.builtIn request with
    ⟨fault, hroute, -⟩ | ⟨layer, hroute, -⟩ | ⟨layer, hroute, -⟩
  · simp only [Server.runRequest, h.router, hroute, Router.dispatch_of_error hroute]
    exact h.answered (h.world.record _) hsound.recounts_refl hsound'.recounts_refl
  · have hserved := h.world.record (.served request.service layer.name request.method caller)
    obtain ⟨hfound, hfound'⟩ :=
      h.entityFor?_eq caller (.served request.service layer.name request.method caller)
    simp only [Server.runRequest, h.router, hroute, Router.dispatch_of_ok hroute,
      leavePlaceHandler, hfound, hfound']
    cases server.world.entityFor? caller with
    | none => exact h.answered (hserved.record _) hsound.recounts_refl hsound'.recounts_refl
    | some entity =>
      exact h.answered ((hserved.leavePlace entity).record _)
        (hleave (.served request.service layer.name request.method caller) entity hsound)
        (hleave (.served request.service layer.name request.method caller) entity hsound')
  · have hserved := h.world.record (.served request.service layer.name request.method caller)
    obtain ⟨hfound, hfound'⟩ :=
      h.entityFor?_eq caller (.served request.service layer.name request.method caller)
    simp only [Server.runRequest, h.router, hroute, Router.dispatch_of_ok hroute, moveToHandler,
      hfound, hfound']
    cases MoveTarget.ofArguments ⟨request.method, request.args⟩ with
    | error fault =>
      exact h.answered (hserved.record _) hsound.recounts_refl hsound'.recounts_refl
    | ok arguments =>
      cases server.world.entityFor? caller with
      | none => exact h.answered (hserved.record _) hsound.recounts_refl hsound'.recounts_refl
      | some entity => exact h.moved hserved rfl rfl _

/-- The requests of a tick, if there is at most one, come to the same on both servers. -/
theorem Twins.runRequests (h : Twins store server other) (hone : server.requests.length ≤ 1) :
    Twins store { server.runRequests with simulation := server.runRequests.simulation.settle }
      { other.runRequests with simulation := other.runRequests.simulation.settle } := by
  have hnone := h.withRequests []
  unfold Server.runRequests
  rw [h.requests]
  cases hrequests : server.requests with
  | nil =>
    simp only [List.foldl_nil, hnone.rests.simulation.settle_eq, hnone.rests'.simulation.settle_eq]
    exact hnone
  | cons request rest =>
    have hrest : rest = [] := by
      rw [hrequests, List.length_cons] at hone
      exact List.length_eq_zero_iff.mp (by omega)
    subst hrest
    exact hnone.runRequest request.1 request.2

/-! ## Ticks -/

/-- Carrying effects out leaves the requests waiting. -/
theorem requests_flush (server : Server) : server.flush.requests = server.requests :=
  List.foldlRecOn (motive := fun after : Server => after.requests = server.requests)
    server.world.takeEffects.1 Server.carryOut
    (b := server.withWorld server.world.takeEffects.2) rfl fun _ h _ _ => h

/-- Following the events of sessions leaves the requests waiting. -/
theorem requests_applySessionEvents (server : Server) (events : ServerEvents) :
    (server.applySessionEvents events).2.requests = server.requests := requests_flush _

/-- A tick with at most one request reports the same of both servers, if they come upon the sessions
that expire in the same order. -/
theorem Twins.receiveIn (h : Twins store server other) (order : List Identity) (now : Instant)
    (hone : server.requests.length ≤ 1) :
    (server.receiveIn order now).1 = (other.receiveIn order now).1 ∧
      Twins store (server.receiveIn order now).2 (other.receiveIn order now).2 := by
  have hfollowed := h.applySessionEvents {}
  rw [← server.requests_applySessionEvents {}] at hone
  unfold Server.receiveIn
  generalize server.applySessionEvents {} = followed at hfollowed hone ⊢
  generalize other.applySessionEvents {} = followed' at hfollowed ⊢
  obtain ⟨events, followed⟩ := followed
  obtain ⟨events', followed'⟩ := followed'
  obtain ⟨rfl, hfollowed⟩ : events = events' ∧ Twins store followed followed' := hfollowed
  dsimp only
  rw [hfollowed.registry, hfollowed.grace]
  have hexpired := hfollowed.withRegistry
    (followed.registry.expireIn order now followed.config.sessionGrace).2
  have hended := hexpired.applySessionEvents events
  have hqueued := requests_applySessionEvents { followed with
    registry := (followed.registry.expireIn order now followed.config.sessionGrace).2 } events
  generalize Server.applySessionEvents { followed with
    registry := (followed.registry.expireIn order now followed.config.sessionGrace).2 } events =
      ended at hended hqueued ⊢
  generalize Server.applySessionEvents { followed' with
    registry := (followed.registry.expireIn order now followed.config.sessionGrace).2 } events =
      ended' at hended ⊢
  obtain ⟨hevents, hended⟩ := hended
  rw [← hqueued] at hone
  have hflushed := (hended.runRequests hone).flush
  obtain ⟨hchanges, hworld⟩ := hflushed.world.takeChanges
  rw [hevents, hchanges]
  exact ⟨rfl, hflushed.withWorld_of_eq hworld rfl rfl⟩

/-- Ejecting a body comes to the same on both servers. -/
theorem Twins.moveBody (h : Twins store server other) (identity : Identity) (zone : ZoneId)
    (scene : SceneId) :
    (server.moveBody identity zone scene).1 = (other.moveBody identity zone scene).1 ∧
      Twins store (server.moveBody identity zone scene).2
        (other.moveBody identity zone scene).2 := by
  have hentity : other.world.entityFor? identity = server.world.entityFor? identity :=
    congrArg (Table.get? · identity) h.world.entities
  unfold Server.moveBody
  rw [hentity]
  cases hfound : server.world.entityFor? identity with
  | none => exact ⟨rfl, h⟩
  | some entity =>
    have hleft := h.withWorld (h.world.leavePlace entity)
      ((server.world.leavePlace_outcome entity).recounts h.rests.simulation.cache.sound)
      ((other.world.leavePlace_outcome entity).recounts h.rests'.simulation.cache.sound)
    have hflushed := hleft.flush
    dsimp only
    rw [hflushed.registry]
    exact ⟨rfl, hflushed.withRegistry _⟩

/-! ## Runs -/

/-- What happens to a server between its ticks, and its ticks. Where sessions expire, it is part of
the input in which order the server comes upon them: nothing that a server does determines it, and
participants are told in it that others are gone. Two servers have orders of their own, so what
happens to them is compared by `Alongside`. -/
inductive Input where
  /-- A participant's connection is established. -/
  | connect (now : Instant) (connection : ConnectionId) (identity : Identity)
    (capacity : Option Nat)
  /-- A connection is closed, or fails for the given cause. -/
  | disconnect (now : Instant) (connection : ConnectionId) (cause : Option String)
  /-- The transport reads all mailboxes of a connection. -/
  | drain (connection : ConnectionId)
  /-- The transport stops reading the mailboxes of a connection. -/
  | hangUp (connection : ConnectionId)
  /-- The session that a snapshot was taken of is ended. -/
  | endSnapshot (snapshot : Session)
  /-- The session of an identity is ended. -/
  | endSession (identity : Identity)
  /-- The sessions that have been without a connection for too long are ended, those of the given
  participants first. -/
  | expire (order : List Identity) (now : Instant) (grace : Duration)
  /-- A request of a caller arrives. -/
  | requestAs (caller : Identity) (request : Request)
  /-- A request arrives on a connection. -/
  | requestFrom (connection : ConnectionId) (request : Request)
  /-- The zones are put under other policies. -/
  | govern (zones : ZoneRegistry)
  /-- A body is taken out of its place, and its client is ordered to move to a scene. -/
  | moveBody (identity : Identity) (zone : ZoneId) (scene : SceneId)
  /-- A tick. The sessions that expire in it are ended in the order that is given. -/
  | tick (order : List Identity) (now : Instant)

/-- What a server answers to an input. -/
inductive Output where
  | done
  | key (key : SessionKey)
  | flag (flag : Bool)
  | messages (messages : List ServerMessage)
  | expired (identities : List Identity)
  | sent (result : Except SendError Unit)
  | happened (events : ServerEvents)

/-- The answer of a server to an input, and the server after it. -/
def feed (server : Server) : Input → Output × Server
  | .connect now connection identity capacity =>
    let (key, registry) := server.registry.connect now connection identity capacity
    (.key key, { server with registry := registry })
  | .disconnect now connection cause =>
    (.done, { server with registry := server.registry.disconnect now connection cause })
  | .drain connection =>
    let (messages, registry) := server.registry.drain connection
    (.messages messages, { server with registry := registry })
  | .hangUp connection =>
    let (found, registry) := server.registry.hangUp connection
    (.flag found, { server with registry := registry })
  | .endSnapshot snapshot =>
    (.done, { server with registry := server.registry.endSnapshot snapshot })
  | .endSession identity =>
    let (found, server) := server.endSession identity
    (.flag found, server)
  | .expire order now grace =>
    let (identities, registry) := server.registry.expireIn order now grace
    (.expired identities, { server with registry := registry })
  | .requestAs caller request => (.done, server.requestAs caller request)
  | .requestFrom connection request => (.done, server.requestFrom connection request)
  | .govern zones => (.done, server.govern zones)
  | .moveBody identity zone scene =>
    let (result, server) := server.moveBody identity zone scene
    (.sent result, server)
  | .tick order now =>
    let (events, server) := server.receiveIn order now
    (.happened events, server)

/-- The server after a list of inputs. -/
def fed (server : Server) (inputs : List Input) : Server :=
  inputs.foldl (fun server input => (server.feed input).2) server

/-- All that a server answers to a list of inputs. -/
def outputs (server : Server) (inputs : List Input) : List Output :=
  SharedWorld.history (fun server input => (server.feed input).2)
    (fun server input => [(server.feed input).1]) server inputs

/-- Whether at most one request waits whenever a tick begins. -/
def paced (server : Server) : List Input → Bool
  | [] => true
  | .tick order now :: rest =>
    server.requests.length ≤ 1 && paced (server.receiveIn order now).2 rest
  | input :: rest => paced (server.feed input).2 rest

/-- Twins stay twins when the same request is handed in. -/
theorem Twins.requestAs (h : Twins store server other) (caller : Identity) (request : Request) :
    Twins store (server.requestAs caller request) (other.requestAs caller request) := by
  unfold Server.requestAs
  rw [h.requests]
  exact h.withRequests _

/-- Twins stay twins when the same policies are installed. -/
theorem Twins.govern (h : Twins store server other) (zones : ZoneRegistry) :
    Twins store (server.govern zones) (other.govern zones) :=
  ⟨⟨h.grace, h.registry, h.requests, h.router, h.journal, h.pipeline, h.kept, h.world, rfl⟩,
    ⟨h.rests.builtIn, ⟨h.rests.simulation.cache, h.rests.simulation.pipeline⟩⟩,
    ⟨h.rests'.builtIn, ⟨h.rests'.simulation.cache, h.rests'.simulation.pipeline⟩⟩⟩

/-- Both servers answer the same to an input, and differ in their caches only after it. -/
theorem Twins.feed (h : Twins store server other) (input : Input)
    (hone : ∀ order now, input = .tick order now → server.requests.length ≤ 1) :
    (server.feed input).1 = (other.feed input).1 ∧
      Twins store (server.feed input).2 (other.feed input).2 := by
  cases input with
  | tick order now =>
    obtain ⟨hevents, hreceived⟩ := h.receiveIn order now (hone order now rfl)
    exact ⟨congrArg Output.happened hevents, hreceived⟩
  | moveBody identity zone scene =>
    obtain ⟨hresult, hmoved⟩ := h.moveBody identity zone scene
    exact ⟨congrArg Output.sent hresult, hmoved⟩
  | govern zones => exact ⟨rfl, h.govern zones⟩
  | requestAs caller request => exact ⟨rfl, h.requestAs caller request⟩
  | requestFrom connection request =>
    refine ⟨rfl, ?_⟩
    simp only [Server.feed, Server.requestFrom, h.registry]
    split
    · exact h.requestAs _ request
    · exact h
  | _ =>
    simp only [Server.feed, Server.endSession, h.registry, true_and]
    exact h.withRegistry _

/-- Inputs are paced if the first one is, and the others are after it. -/
theorem paced_cons_iff {input : Input} {rest : List Input} :
    server.paced (input :: rest) = true ↔
      (∀ order now, input = .tick order now → server.requests.length ≤ 1) ∧
        (server.feed input).2.paced rest = true := by
  cases input with
  | tick order now =>
    rw [paced, Bool.and_eq_true, decide_eq_true_iff]
    exact ⟨fun h => ⟨fun _ _ _ => h.1, h.2⟩, fun h => ⟨h.1 order now rfl, h.2⟩⟩
  | _ => exact ⟨fun h => ⟨nofun, h⟩, And.right⟩

/-- Servers that differ in their caches only answer the same as long as the same happens to them,
and still differ in their caches only. -/
theorem Twins.fed (h : Twins store server other) {inputs : List Input}
    (hpaced : server.paced inputs = true) :
    server.outputs inputs = other.outputs inputs ∧
      Twins store (server.fed inputs) (other.fed inputs) := by
  induction inputs generalizing server other with
  | nil => exact ⟨rfl, h⟩
  | cons input rest ih =>
    obtain ⟨hone, hrest⟩ := paced_cons_iff.mp hpaced
    obtain ⟨houtput, hfed⟩ := h.feed input hone
    obtain ⟨houtputs, htwins⟩ := ih hfed hrest
    refine ⟨?_, htwins⟩
    change _ :: (server.feed input).2.outputs rest = _ :: (other.feed input).2.outputs rest
    rw [houtput, houtputs]

/-- Two inputs are the same but for the order in which sessions are visited. -/
inductive Input.Like : Input → Input → Prop where
  | refl (input : Input) : Like input input
  | expire (order order' : List Identity) (now : Instant) (grace : Duration) :
      Like (.expire order now grace) (.expire order' now grace)
  | tick (order order' : List Identity) (now : Instant) : Like (.tick order now) (.tick order' now)

/-- The sessions that expire at an input, in the order in which the server comes upon them. -/
def expiring (server : Server) : Input → List Session
  | .expire order now grace => server.registry.expired order now grace
  | .tick order now =>
    let opened := (server.applySessionEvents {}).2
    opened.registry.expired order now opened.config.sessionGrace
  | _ => []

/-- The same happens to a server in both lists of inputs, and it comes upon the sessions that expire
together in the same order. -/
inductive Alongside : Server → List Input → List Input → Prop where
  | nil {server : Server} : Alongside server [] []
  | cons {server : Server} {input input' : Input} {rest rest' : List Input}
      (like : input.Like input') (same : server.expiring input = server.expiring input')
      (later : Alongside (server.feed input).2 rest rest') :
      Alongside server (input :: rest) (input' :: rest')

/-- A server does the same at two inputs if it comes upon the same sessions in the same order. -/
theorem feed_eq_of_like {input input' : Input} (hlike : input.Like input')
    (hsame : server.expiring input = server.expiring input') :
    server.feed input = server.feed input' := by
  cases hlike with
  | refl => rfl
  | expire order order' now grace =>
    simp only [feed, Registry.expireIn_eq_of_expired_eq hsame]
  | tick order order' now =>
    have hexpired := Registry.expireIn_eq_of_expired_eq hsame
    simp only [feed, receiveIn, hexpired]

/-- Every list of inputs goes alongside itself: servers that have all orders in common come upon the
same sessions in the same order. -/
theorem Alongside.refl (server : Server) (inputs : List Input) :
    server.Alongside inputs inputs := by
  induction inputs generalizing server with
  | nil => exact .nil
  | cons input rest ih => exact .cons (.refl input) rfl (ih _)

/-- A server answers the same to inputs that go alongside each other, and comes to the same. -/
theorem Alongside.fed {inputs inputs' : List Input} (h : server.Alongside inputs inputs') :
    server.outputs inputs = server.outputs inputs' ∧ server.fed inputs = server.fed inputs' := by
  induction h with
  | nil => exact ⟨rfl, rfl⟩
  | @cons server input input' rest rest' like same later ih =>
    obtain ⟨houtputs, hfed⟩ := ih
    have hfeed := feed_eq_of_like like same
    constructor
    · change _ :: (server.feed input).2.outputs rest = _ :: (server.feed input').2.outputs rest'
      rw [← hfeed, houtputs]
    · change (server.feed input).2.fed rest = (server.feed input').2.fed rest'
      rw [← hfeed, hfed]

/-- Inputs that go alongside paced ones are paced. -/
theorem Alongside.paced {inputs inputs' : List Input} (h : server.Alongside inputs inputs')
    (hpaced : server.paced inputs = true) : server.paced inputs' = true := by
  induction h with
  | nil => rfl
  | @cons server input input' rest rest' like same later ih =>
    obtain ⟨hone, hrest⟩ := paced_cons_iff.mp hpaced
    have hlater := ih hrest
    rw [feed_eq_of_like like same] at hlater
    cases like with
    | refl => exact paced_cons_iff.mpr ⟨hone, hlater⟩
    | expire => exact hlater
    | tick order order' now => exact paced_cons_iff.mpr ⟨fun _ _ _ => hone order now rfl, hlater⟩

end SharedWorld.Server
