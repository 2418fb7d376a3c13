import SharedWorld.Proofs.Runs

/-!
# How a move can go on

A step of a move ends in one of a few ways, and so does the dispatch of a request to the built-in
services. They are listed here once, with all that is known in each case; every invariant of the
moves is proved by going through the list. `Pipeline.Invariant` says what a property of the pipeline
must withstand so that it survives any number of requests and of rounds in which moves are taken on.
-/

namespace SharedWorld

/-! ## One step of a move -/

/-- The outcome of a resolution, if it is there and was not taken. -/
def Resolution.outcome? {κ π : Type} [Ord κ] (resolution : Resolution κ π) (cache : Cache κ π) :
    Option (LoadOutcome π) := (resolution.tryTake cache).1

/-- A resolution without an outcome stays as it is. -/
theorem Resolution.tryTake_of_none {κ π : Type} [Ord κ] {resolution : Resolution κ π}
    {cache : Cache κ π} (h : resolution.outcome? cache = none) :
    resolution.tryTake cache = (none, resolution) := by
  cases resolution with
  | settled outcome =>
    have houtcome : outcome = none := h
    rw [houtcome]
    rfl
  | waiting key ticket =>
    simp only [outcome?, tryTake] at h ⊢
    cases houtcome : cache.outcomeFor? key ticket with
    | none => rfl
    | some outcome =>
      rw [houtcome] at h
      cases h

/-- What counts as a zone is a zone that was loaded. -/
theorem LoadOutcome.eq_of_asZone {outcome : LoadOutcome Bundle} {summary : ZoneSummary}
    (h : outcome.asZone = .ok summary) : outcome = .loaded (.zone summary) := by
  unfold asZone Bundle.asZone at h
  split at h
  · split at h
    · cases h
      rfl
    · cases h
  · cases h

/-- What counts as a scene is a scene that was loaded. -/
theorem LoadOutcome.eq_of_asScene {outcome : LoadOutcome Bundle} {model : SceneModel}
    (h : outcome.asScene = .ok model) : outcome = .loaded (.scene model) := by
  unfold asScene Bundle.asScene at h
  split at h
  · split at h
    · cases h
      rfl
    · cases h
  · cases h

/-- The keys a move holds while its scene is resolved. -/
def MoveRequest.keys (request : MoveRequest) : List CacheKey :=
  [.zone request.target.zone, .scene request.target.scene]

namespace Flight

/-- How a step from the resolution of the scene ends. -/
inductive SceneOutcome (request : MoveRequest) (zone : ZoneSummary)
    (resolution : Resolution CacheKey Bundle) (realm : Realm) : Option Flight → Realm → Prop where
  /-- The scene is still being loaded. -/
  | waits (load : resolution.outcome? realm.world.cache = none) :
    SceneOutcome request zone resolution realm
      (some ⟨request, .resolvingScene zone resolution⟩) realm
  /-- The load failed, or brought no scene. -/
  | missing {outcome : LoadOutcome Bundle} {error : LoadError}
      (load : resolution.outcome? realm.world.cache = some outcome)
      (scene : outcome.asScene = .error error) :
    SceneOutcome request zone resolution realm none
      (request.finish realm request.keys (.failure .noSuchPlace))
  /-- The body could not be put into the place. -/
  | refused {outcome : LoadOutcome Bundle} {model : SceneModel} {fault : Fault} {world : World}
      (load : resolution.outcome? realm.world.cache = some outcome)
      (scene : outcome.asScene = .ok model)
      (commit : request.commit realm.world zone model = (.failure fault, world)) :
    SceneOutcome request zone resolution realm none
      (request.finish { realm with world := world } request.keys (.failure fault))
  /-- The body was put into the place. -/
  | entered {outcome : LoadOutcome Bundle} {model : SceneModel} {reply : Reply} {world : World}
      (load : resolution.outcome? realm.world.cache = some outcome)
      (scene : outcome.asScene = .ok model)
      (commit : request.commit realm.world zone model = (.success reply, world)) :
    SceneOutcome request zone resolution realm none
      ((request.finish { realm with world := world } request.keys (.success reply)).announce
        request.entity zone.zone)

/-- What becomes of a move that looks for its scene is one of the outcomes. -/
theorem stepScene_outcome (request : MoveRequest) (zone : ZoneSummary)
    (resolution : Resolution CacheKey Bundle) (realm : Realm) :
    SceneOutcome request zone resolution realm (stepScene request zone resolution realm).1
      (stepScene request zone resolution realm).2 := by
  cases hload : resolution.outcome? realm.world.cache with
  | none =>
    simp only [stepScene, Resolution.tryTake_of_none hload]
    exact .waits hload
  | some outcome =>
    have htake : resolution.tryTake realm.world.cache =
        (some outcome, (resolution.tryTake realm.world.cache).2) := by
      rw [← hload]
      rfl
    rw [stepScene, htake]
    dsimp only
    cases hscene : outcome.asScene with
    | error error => exact .missing hload hscene
    | ok model =>
      dsimp only
      cases hcommit : request.commit realm.world zone model with
      | mk answer world =>
        cases answer with
        | success reply => exact .entered hload hscene hcommit
        | failure fault => exact .refused hload hscene hcommit

/-- How a step from the resolution of the zone ends. -/
inductive ZoneOutcome (request : MoveRequest) (resolution : Resolution CacheKey Bundle)
    (realm : Realm) : Option Flight → Realm → Prop where
  /-- The zone is still being loaded. -/
  | waits (load : resolution.outcome? realm.world.cache = none) :
    ZoneOutcome request resolution realm (some ⟨request, .resolvingZone resolution⟩) realm
  /-- The load failed, or brought no zone. -/
  | missing {outcome : LoadOutcome Bundle} {error : LoadError}
      (load : resolution.outcome? realm.world.cache = some outcome)
      (zone : outcome.asZone = .error error) :
    ZoneOutcome request resolution realm none
      (request.finish realm [.zone request.target.zone] (.failure .noSuchZone))
  /-- The body is gone. -/
  | bodyless {outcome : LoadOutcome Bundle} {summary : ZoneSummary}
      (load : resolution.outcome? realm.world.cache = some outcome)
      (zone : outcome.asZone = .ok summary)
      (gone : realm.world.body? request.entity = none) :
    ZoneOutcome request resolution realm none
      (request.finish realm [.zone request.target.zone] (.failure (.noBody request.entity)))
  /-- The zone's policy does not let the body in. -/
  | vetoed {outcome : LoadOutcome Bundle} {summary : ZoneSummary} {body : Body} {reason : String}
      (load : resolution.outcome? realm.world.cache = some outcome)
      (zone : outcome.asZone = .ok summary)
      (found : realm.world.body? request.entity = some body)
      (verdict : (realm.ratify body summary).1 = some reason) :
    ZoneOutcome request resolution realm none
      (request.finish (realm.ratify body summary).2 [.zone request.target.zone]
        (.failure (.vetoed reason)))
  /-- The zone's policy lets the body in, and the move goes on to the scene. -/
  | admitted {outcome : LoadOutcome Bundle} {summary : ZoneSummary} {body : Body}
      {flight : Option Flight} {result : Realm}
      (load : resolution.outcome? realm.world.cache = some outcome)
      (zone : outcome.asZone = .ok summary)
      (found : realm.world.body? request.entity = some body)
      (verdict : (realm.ratify body summary).1 = none)
      (scene : SceneOutcome request summary
        ((realm.ratify body summary).2.acquire (.scene request.target.scene)).1
        ((realm.ratify body summary).2.acquire (.scene request.target.scene)).2 flight result) :
    ZoneOutcome request resolution realm flight result

/-- What becomes of a move that looks for its zone is one of the outcomes. -/
theorem stepZone_outcome (request : MoveRequest) (resolution : Resolution CacheKey Bundle)
    (realm : Realm) :
    ZoneOutcome request resolution realm (stepZone request resolution realm).1
      (stepZone request resolution realm).2 := by
  cases hload : resolution.outcome? realm.world.cache with
  | none =>
    simp only [stepZone, Resolution.tryTake_of_none hload]
    exact .waits hload
  | some outcome =>
    have htake : resolution.tryTake realm.world.cache =
        (some outcome, (resolution.tryTake realm.world.cache).2) := by
      rw [← hload]
      rfl
    rw [stepZone, htake]
    dsimp only
    cases hzone : outcome.asZone with
    | error error => exact .missing hload hzone
    | ok summary =>
      dsimp only
      cases hbody : realm.world.body? request.entity with
      | none => exact .bodyless hload hzone hbody
      | some body =>
        cases hverdict : realm.ratify body summary with
        | mk verdict asked =>
          have hasked : (realm.ratify body summary).2 = asked := by rw [hverdict]
          have hanswer : (realm.ratify body summary).1 = verdict := by rw [hverdict]
          cases verdict with
          | some reason =>
            have h := ZoneOutcome.vetoed hload hzone hbody hanswer
            rw [hasked] at h
            dsimp only
            rw [hverdict]
            exact h
          | none =>
            have hscene := stepScene_outcome request summary
              ((realm.ratify body summary).2.acquire (.scene request.target.scene)).1
              ((realm.ratify body summary).2.acquire (.scene request.target.scene)).2
            have h := ZoneOutcome.admitted hload hzone hbody hanswer hscene
            rw [hasked] at h
            dsimp only
            rw [hverdict]
            exact h

end Flight

/-! ## Invariants of the pipeline -/

/-- A property `Holds` of the pipeline and its realm, with a form `Busy` of it that holds while the
requests of one body are worked off: the body has no move under way, and its queue is the given one
instead of the one that is recorded. -/
structure Pipeline.Invariant (Holds : Pipeline → Realm → Prop)
    (Busy : EntityId → List MoveRequest → Pipeline → Realm → Prop) : Prop where
  /-- A move that still waits goes back to its body. -/
  waits : ∀ {pipeline realm entity flight flight' realm'}, Holds pipeline realm →
    pipeline.inFlight.get? entity = some flight → flight.step realm = (some flight', realm') →
    Holds { pipeline with inFlight := pipeline.inFlight.insert entity flight' } realm'
  /-- A move that has answered makes room for those behind it. -/
  answers : ∀ {pipeline realm entity flight realm'}, Holds pipeline realm →
    pipeline.inFlight.get? entity = some flight → flight.step realm = (none, realm') →
    Busy entity (pipeline.queueOf entity)
      { pipeline with inFlight := pipeline.inFlight.erase entity } realm'
  /-- A request that is answered at once makes room for those behind it. -/
  passes : ∀ {pipeline realm entity request rest realm'},
    Busy entity (request :: rest) pipeline realm → Flight.launch request realm = (none, realm') →
    Busy entity rest pipeline realm'
  /-- A request that has to wait becomes the move of its body. -/
  parks : ∀ {pipeline realm entity request rest flight realm'},
    Busy entity (request :: rest) pipeline realm →
    Flight.launch request realm = (some flight, realm') →
    Holds { pipeline.setQueue entity rest with
      inFlight := pipeline.inFlight.insert entity flight } realm'
  /-- There is no request left. -/
  rests : ∀ {pipeline realm entity}, Busy entity [] pipeline realm →
    Holds (pipeline.setQueue entity []) realm

namespace Pipeline.Invariant

variable {Holds : Pipeline → Realm → Prop}
  {Busy : EntityId → List MoveRequest → Pipeline → Realm → Prop}

/-- What each of its steps keeps is kept by starting the requests of a body. -/
theorem start (inv : Pipeline.Invariant Holds Busy) {pipeline : Pipeline} {realm : Realm}
    {entity : EntityId} {requests : List MoveRequest} (h : Busy entity requests pipeline realm) :
    Holds (pipeline.start realm entity requests).2.1
      (pipeline.start realm entity requests).2.2 := by
  induction requests generalizing realm with
  | nil => exact inv.rests h
  | cons request rest ih =>
    cases hlaunch : Flight.launch request realm with
    | mk flight realm' =>
      cases flight with
      | some flight =>
        have hparks := inv.parks h hlaunch
        simp only [Pipeline.start, Launch.run, hlaunch]
        exact hparks
      | none =>
        have hrest := ih (inv.passes h hlaunch)
        simp only [Pipeline.start, Launch.run, hlaunch] at hrest ⊢
        cases hparked : (Launch.run realm' rest).parked with
        | none =>
          rw [hparked] at hrest
          exact hrest
        | some flight =>
          rw [hparked] at hrest
          exact hrest

/-- A request that is begun is queued, or the requests of its body are begun one after the other. -/
theorem begin (inv : Pipeline.Invariant Holds Busy) {pipeline : Pipeline} {realm : Realm}
    (request : MoveRequest)
    (queues : Holds (pipeline.setQueue request.entity
      (pipeline.queueOf request.entity ++ [request])) realm)
    (opens : pipeline.inFlight.get? request.entity = none →
      Busy request.entity (request :: pipeline.queueOf request.entity) pipeline realm) :
    Holds (pipeline.begin realm request).1 (pipeline.begin realm request).2 := by
  unfold Pipeline.begin
  dsimp only
  by_cases hmoving : pipeline.isMoving request.entity = true
  · rw [if_pos hmoving]
    exact queues
  · rw [if_neg hmoving]
    exact inv.start (opens (Option.not_isSome_iff_eq_none.mp hmoving))

/-- What is preserved when moves begin, wait and are answered holds after the move of a body was
taken on. -/
theorem advanceBody (inv : Pipeline.Invariant Holds Busy) {pipeline : Pipeline} {realm : Realm}
    (h : Holds pipeline realm) (entity : EntityId) :
    Holds (pipeline.advanceBody realm entity).2.1 (pipeline.advanceBody realm entity).2.2 := by
  unfold Pipeline.advanceBody
  cases hflight : pipeline.inFlight.get? entity with
  | none => exact h
  | some flight =>
    dsimp only
    cases hstep : flight.step realm with
    | mk flight' realm' =>
      cases flight' with
      | some flight' => exact inv.waits h hflight hstep
      | none =>
        have hstart := inv.start (inv.answers h hflight hstep)
        exact hstart

/-- What each of its steps keeps is kept by taking moves on, in whatever order. -/
theorem advanceIn (inv : Pipeline.Invariant Holds Busy) {pipeline : Pipeline} {realm : Realm}
    (h : Holds pipeline realm) (bodies : List EntityId) :
    Holds (pipeline.advanceIn realm bodies).2.1 (pipeline.advanceIn realm bodies).2.2 := by
  induction bodies generalizing pipeline realm with
  | nil => exact h
  | cons entity rest ih => exact ih (inv.advanceBody h entity)

end Pipeline.Invariant

/-! ## The dispatch of a request -/

/-- Whether a request asks the built-in services to leave a place. Either of them does. -/
def Request.leaves (request : Request) : Bool :=
  request.method = leavePlaceMethod &&
    (request.service = locationService || request.service = zoneService)

namespace Server

/-- Only the built-in services are registered. -/
def BuiltIn (server : Server) : Prop := server.router.services = builtInRouter.services

/-- The listener that the dispatch of a request is given. -/
def listenerFor (server : Server) (caller : Identity) (request : Request) : Listener :=
  ⟨caller, request.request, server.router.dispatched⟩

/-- The move that the dispatch of a request hands to the pipeline, if it does. -/
def moveFor? (server : Server) (caller : Identity) (request : Request) : Option MoveRequest :=
  if request.service = zoneService ∧ request.method = moveToMethod then
    match MoveTarget.ofArguments ⟨request.method, request.args⟩ with
    | .error _ => none
    | .ok (target, version) => (server.world.entityFor? caller).map fun entity =>
      ⟨entity, target, version, server.listenerFor caller request⟩
  else none

/-- The body that the dispatch of a request takes out of its place, if it does. -/
def leaveFor? (server : Server) (caller : Identity) (request : Request) : Option EntityId :=
  if request.leaves then server.world.entityFor? caller else none

/-- What the dispatch of a request to the built-in services makes of the simulation. -/
inductive Served (server : Server) (caller : Identity) (request : Request) :
    Option MoveRequest → Simulation → Prop where
  /-- No handler is found. -/
  | unrouted (fault : Fault) (stays : server.leaveFor? caller request = none) :
    Served server caller request none (server.simulation.withWorld (server.world.record
      (.answer (server.listenerFor caller request) (.failure fault))))
  /-- The handler refuses the request. -/
  | refused (layer : String) (fault : Fault) (stays : server.leaveFor? caller request = none) :
    Served server caller request none (server.simulation.withWorld
      ((server.world.record (.served request.service layer request.method caller)).record
        (.answer (server.listenerFor caller request) (.failure fault))))
  /-- The caller's body leaves its place. -/
  | left (layer : String) {entity : EntityId} (body : server.world.entityFor? caller = some entity)
      (leaves : server.leaveFor? caller request = some entity) :
    Served server caller request none (server.simulation.withWorld
      (((server.world.record (.served request.service layer request.method caller)).leavePlace
        entity).2.record (.answer (server.listenerFor caller request) (.success .ack))))
  /-- A move of the caller's body is handed to the pipeline. -/
  | begun (layer : String) {move : MoveRequest}
      (body : server.world.entityFor? caller = some move.entity)
      (listener : move.listener = server.listenerFor caller request)
      (stays : server.leaveFor? caller request = none) :
    Served server caller request (some move) ((server.simulation.withWorld
      (server.world.record (.served request.service layer request.method caller))).beginMove move)

end Server

/-- The built-in services are those of zones and of locations. -/
theorem builtInRouter_services (service : ServiceId) :
    builtInRouter.services.get? service =
      if service = zoneService then some zoneTable
      else if service = locationService then some locationTable else none := by
  simp only [builtInRouter, Router.register, Router.empty, Table.get?_insert, Table.get?_empty]

/-- Locations offer leaving a place. -/
theorem locationTable_handler? (method : MethodId) :
    locationTable.handler? method =
      if method = leavePlaceMethod then some (locationTable.layer, leavePlaceHandler)
      else none := by
  simp only [ServiceTable.handler?, ServiceTable.layers, ServiceTable.find?, locationTable,
    Layer.on, Layer.named, Table.get?_insert, Table.get?_empty]
  by_cases hmethod : method = leavePlaceMethod
  · simp only [if_pos hmethod]
  · simp only [if_neg hmethod]

/-- Zones offer moving, and what locations offer. -/
theorem zoneTable_handler? (method : MethodId) :
    zoneTable.handler? method =
      if method = moveToMethod then some (zoneTable.layer, moveToHandler)
      else locationTable.handler? method := by
  have hlayer : zoneTable.layer.handlers.get? method =
      if method = moveToMethod then some moveToHandler else none := by
    simp only [zoneTable, ServiceTable.onTopOf, Layer.on, Layer.named, Table.get?_insert,
      Table.get?_empty]
  change ServiceTable.find? (zoneTable.layer :: locationTable.layers) method = _
  rw [ServiceTable.find?, hlayer]
  by_cases hmethod : method = moveToMethod
  · simp only [if_pos hmethod]
  · simp only [if_neg hmethod]
    rfl

/-- The built-in services handle the method that leaves a place, and the zone service handles moves
besides. -/
theorem builtInRouter_route {router : Router Simulation}
    (h : router.services = builtInRouter.services) (request : Request) :
    (∃ fault, router.route request.service request.method = .error fault ∧
      ¬(request.service = zoneService ∧ request.method = moveToMethod) ∧
      request.leaves = false) ∨
    (∃ layer, router.route request.service request.method = .ok (layer, leavePlaceHandler) ∧
      ¬(request.service = zoneService ∧ request.method = moveToMethod) ∧
      request.leaves = true) ∨
    (∃ layer, router.route request.service request.method = .ok (layer, moveToHandler) ∧
      (request.service = zoneService ∧ request.method = moveToMethod) ∧
      request.leaves = false) := by
  obtain ⟨id, service, method, args⟩ := request
  simp only [Router.route, h, builtInRouter_services, Request.leaves]
  by_cases hzone : service = zoneService
  · simp only [if_pos hzone, zoneTable_handler?]
    by_cases hmove : method = moveToMethod
    · simp only [if_pos hmove]
      exact .inr (.inr ⟨_, rfl, ⟨hzone, hmove⟩, by rw [hmove]; rfl⟩)
    · simp only [if_neg hmove, locationTable_handler?]
      by_cases hleave : method = leavePlaceMethod
      · simp only [if_pos hleave]
        exact .inr (.inl ⟨_, rfl, fun h => hmove h.2, by simp [hleave, hzone]⟩)
      · simp only [if_neg hleave]
        exact .inl ⟨_, rfl, fun h => hmove h.2, by simp [hleave]⟩
  · simp only [if_neg hzone]
    by_cases hlocation : service = locationService
    · simp only [if_pos hlocation, locationTable_handler?]
      by_cases hleave : method = leavePlaceMethod
      · simp only [if_pos hleave]
        exact .inr (.inl ⟨_, rfl, fun h => hzone h.1, by simp [hleave, hlocation]⟩)
      · simp only [if_neg hleave]
        exact .inl ⟨_, rfl, fun h => hzone h.1, by simp [hleave]⟩
    · simp only [if_neg hlocation]
      exact .inl ⟨_, rfl, fun h => hzone h.1, by simp [hzone, hlocation]⟩

section Dispatch

variable {σ : Type} {router : Router σ} {request : Request}

/-- A request that cannot be routed is answered with the fault, and counted. -/
theorem Router.dispatch_of_error {fault : Fault}
    (h : router.route request.service request.method = .error fault) (context : σ)
    (caller : Identity) :
    router.dispatch context caller request =
      ⟨{ router with dispatched := router.dispatched + 1 }, context,
        ⟨caller, request.request, router.dispatched⟩, some (.failure fault)⟩ := by
  have hroute : { router with dispatched := router.dispatched + 1 }.route request.service
      request.method = .error fault := h
  simp only [dispatch, hroute]

/-- A request that can be routed is handled and counted. -/
theorem Router.dispatch_of_ok {layer : Layer σ} {handler : Handler σ}
    (h : router.route request.service request.method = .ok (layer, handler)) (context : σ)
    (caller : Identity) :
    router.dispatch context caller request =
      let handled := handler context
        ⟨⟨caller, request.request, router.dispatched⟩, ⟨request.method, request.args⟩⟩
      ⟨{ router with dispatched := router.dispatched + 1 }, handled.context,
        ⟨caller, request.request, router.dispatched⟩, handled.answer?⟩ := by
  have hroute : { router with dispatched := router.dispatched + 1 }.route request.service
      request.method = .ok (layer, handler) := h
  simp only [dispatch, hroute]

end Dispatch

namespace Server

/-- Dispatching a request counts it, and leaves the services alone. -/
theorem runRequest_router (server : Server) (caller : Identity) (request : Request) :
    (server.runRequest caller request).router =
      { server.router with dispatched := server.router.dispatched + 1 } := by
  simp only [runRequest]
  cases hroute : server.router.route request.service request.method with
  | ok found =>
    obtain ⟨layer, handler⟩ := found
    simp only [Router.dispatch_of_ok hroute]
  | error fault => simp only [Router.dispatch_of_error hroute]

/-- Running a request is one of the listed ways. -/
theorem runRequest_served (server : Server) (h : server.BuiltIn) (caller : Identity)
    (request : Request) :
    Served server caller request (server.moveFor? caller request)
      (server.runRequest caller request).simulation := by
  have hstays : request.leaves = false → server.leaveFor? caller request = none :=
    fun hleaves => if_neg (Bool.eq_false_iff.mp hleaves)
  rcases builtInRouter_route h request with
    ⟨fault, hroute, hmove, hleaves⟩ | ⟨layer, hroute, hmove, hleaves⟩ |
      ⟨layer, hroute, hmove, hleaves⟩
  · simp only [moveFor?, if_neg hmove, runRequest, hroute, Router.dispatch_of_error hroute]
    exact .unrouted fault (hstays hleaves)
  · have hleave : server.leaveFor? caller request = server.world.entityFor? caller :=
      if_pos hleaves
    simp only [moveFor?, if_neg hmove, runRequest, hroute, Router.dispatch_of_ok hroute,
      leavePlaceHandler]
    cases hbody : server.world.entityFor? caller with
    | none =>
      have hrecorded : (server.simulation.withWorld (server.world.record (.served request.service
          layer.name request.method caller))).world.entityFor? caller = none := hbody
      simp only [hrecorded]
      exact .refused layer.name (.noBodyFor caller) (hleave.trans hbody)
    | some entity =>
      have hrecorded : (server.simulation.withWorld (server.world.record (.served request.service
          layer.name request.method caller))).world.entityFor? caller = some entity := hbody
      simp only [hrecorded]
      exact .left layer.name hbody (hleave.trans hbody)
  · simp only [moveFor?, if_pos hmove, runRequest, hroute, Router.dispatch_of_ok hroute,
      moveToHandler]
    cases hargs : MoveTarget.ofArguments ⟨request.method, request.args⟩ with
    | error fault => exact .refused layer.name fault (hstays hleaves)
    | ok arguments =>
      obtain ⟨target, version⟩ := arguments
      cases hbody : server.world.entityFor? caller with
      | none =>
        have hrecorded : (server.simulation.withWorld (server.world.record (.served request.service
            layer.name request.method caller))).world.entityFor? caller = none := hbody
        simp only [hrecorded]
        exact .refused layer.name (.noBodyFor caller) (hstays hleaves)
      | some entity =>
        have hrecorded : (server.simulation.withWorld (server.world.record (.served request.service
            layer.name request.method caller))).world.entityFor? caller = some entity := hbody
        simp only [hrecorded]
        exact .begun layer.name hbody rfl (hstays hleaves)

end Server

end SharedWorld
