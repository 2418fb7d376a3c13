import SharedWorld.Server.Basic

/-!
# Runs of a server

A server with the built-in services is changed by its surroundings and by its own ticks. Other
threads act while a tick is under way: connections come and go, requests arrive and loads complete.
A tick is therefore not one action here but many, each of which handles one thing, and a run is any
list of actions. What an action does depends on what it finds, and `ActOutcome` lists the ways. A
tick that nothing disturbs is a run (`receive_eq_run`), and so is the ejection of a body
(`moveBody_eq_run`).
-/

namespace SharedWorld

/-- Settle the outcome that arrived first. -/
def Cache.settleNext {κ π : Type} [Ord κ] [Std.TransOrd κ] [DecidableEq κ] (cache : Cache κ π) :
    Cache κ π :=
  match cache.arrived with
  | [] => cache
  | arrival :: rest => { cache with arrived := rest }.settle arrival.1 arrival.2

namespace Server

/-! ## Actions -/

/-- What can happen to a server with the built-in services. -/
inductive Action where
  /-- A participant's connection is established. -/
  | connect (now : Instant) (connection : ConnectionId) (identity : Identity)
    (capacity : Option Nat)
  /-- A connection is closed, or fails for the given cause. -/
  | disconnect (now : Instant) (connection : ConnectionId) (cause : Option String)
  /-- The transport reads all mailboxes of a connection. -/
  | drain (connection : ConnectionId)
  /-- The transport stops reading the mailboxes of a connection. -/
  | hangUp (connection : ConnectionId)
  /-- The session that a snapshot was taken of is ended. -/
  | endSnapshot (snapshot : Session)
  /-- The session of an identity is ended. -/
  | endSession (identity : Identity)
  /-- The sessions that have been without a connection for too long are ended, in the given
  order. -/
  | expire (order : List Identity) (now : Instant) (grace : Duration)
  /-- A request of a caller arrives. -/
  | requestAs (caller : Identity) (request : Request)
  /-- A request arrives on a connection. -/
  | requestFrom (connection : ConnectionId) (request : Request)
  /-- The oldest load of a key ends, by success, by failure or by being given up. -/
  | report (key : CacheKey) (outcome : LoadOutcome Bundle)
  /-- The zones are put under other policies. -/
  | govern (zones : ZoneRegistry)
  /-- A body is taken out of its place. -/
  | eject (identity : Identity)
  /-- A client is ordered to move to a scene. -/
  | order (identity : Identity) (zone : ZoneId) (scene : SceneId)
  /-- The bodies follow the session event that was emitted first. -/
  | follow
  /-- The request that arrived first is run. -/
  | serve
  /-- The outcome that arrived first is settled. -/
  | settle
  /-- The moves of the given bodies are taken on, in that order. -/
  | advance (bodies : List EntityId)
  /-- What the simulation did first is carried out. -/
  | deliver
  /-- The changes of locations are handed out. -/
  | takeChanges

/-- Let the bodies follow the first session event. -/
def followNext (server : Server) : Server :=
  match server.registry.events with
  | [] => server
  | event :: rest =>
    { server with registry := { server.registry with events := rest } }.withWorld
      (followSession server.world event)

/-- Run the first request. -/
def serveNext (server : Server) : Server :=
  match server.requests with
  | [] => server
  | request :: rest => { server with requests := rest }.runRequest request.1 request.2

/-- Take the moves of the given bodies on. -/
def advanceBodies (server : Server) (bodies : List EntityId) : Server :=
  let (_, pipeline, realm) :=
    server.simulation.pipeline.advanceIn server.simulation.realm bodies
  { server with simulation := { server.simulation with pipeline := pipeline, realm := realm } }

/-- Carry the first effect out. -/
def deliverNext (server : Server) : Server :=
  match server.world.effects with
  | [] => server
  | effect :: rest => (server.withWorld { server.world with effects := rest }).carryOut effect

/-- Take the body of an identity out of its place. -/
def eject (server : Server) (identity : Identity) : Server :=
  match server.world.entityFor? identity with
  | none => server
  | some entity => server.withWorld (server.world.leavePlace entity).2

/-- Put the zones under other policies. -/
def govern (server : Server) (zones : ZoneRegistry) : Server :=
  { server with simulation :=
      { server.simulation with realm := { server.simulation.realm with zones := zones } } }

/-- The server after an action. -/
def act (server : Server) : Action → Server
  | .connect now connection identity capacity =>
    { server with registry := (server.registry.connect now connection identity capacity).2 }
  | .disconnect now connection cause =>
    { server with registry := server.registry.disconnect now connection cause }
  | .drain connection => { server with registry := (server.registry.drain connection).2 }
  | .hangUp connection => { server with registry := (server.registry.hangUp connection).2 }
  | .endSnapshot snapshot => { server with registry := server.registry.endSnapshot snapshot }
  | .endSession identity => (server.endSession identity).2
  | .expire order now grace =>
    { server with registry := (server.registry.expireIn order now grace).2 }
  | .requestAs caller request => server.requestAs caller request
  | .requestFrom connection request => server.requestFrom connection request
  | .report key outcome => (server.reportLoad key outcome).2
  | .govern zones => server.govern zones
  | .eject identity => server.eject identity
  | .order identity zone scene =>
    { server with registry := (server.registry.send identity (.forcedMove zone scene)).2 }
  | .follow => server.followNext
  | .serve => server.serveNext
  | .settle =>
    server.withWorld { server.world with cache := server.world.cache.settleNext }
  | .advance bodies => server.advanceBodies bodies
  | .deliver => server.deliverNext
  | .takeChanges => server.withWorld server.world.takeChanges.2

/-- The server after a list of actions. -/
def run (server : Server) (actions : List Action) : Server := actions.foldl act server

/-- All that is observed of the actions of a run, each in the state it finds. -/
def collect {α : Type} (observe : Server → Action → List α) (server : Server) :
    List Action → List α
  | [] => []
  | action :: rest => observe server action ++ collect observe (server.act action) rest

/-- A server takes its actions one after the other. -/
theorem run_append (server : Server) (first rest : List Action) :
    server.run (first ++ rest) = (server.run first).run rest := List.foldl_append

/-- What is observed in a run is observed in its first part and then in the rest. -/
theorem collect_append {α : Type} (observe : Server → Action → List α) (server : Server)
    (first rest : List Action) :
    server.collect observe (first ++ rest) =
      server.collect observe first ++ (server.run first).collect observe rest := by
  induction first generalizing server with
  | nil => rfl
  | cons action first ih => rw [List.cons_append, collect, collect, ih, List.append_assoc]; rfl

/-- What one action preserves of a state and of all that was observed on the way to it, a run
preserves. -/
theorem run_collect_induction {α : Type} {observe : Server → Action → List α}
    {P : List α → Server → Prop}
    (step : ∀ seen server action, P seen server →
      P (seen ++ observe server action) (server.act action))
    {seen : List α} {server : Server} (start : P seen server) (actions : List Action) :
    P (seen ++ server.collect observe actions) (server.run actions) := by
  induction actions generalizing seen server with
  | nil => rwa [collect, List.append_nil]
  | cons action actions ih =>
    rw [collect, ← List.append_assoc]
    exact ih (step seen server action start)

/-- What one action preserves, a run preserves. -/
theorem run_induction {P : Server → Prop} (step : ∀ server action, P server → P (server.act action))
    {server : Server} (start : P server) (actions : List Action) : P (server.run actions) :=
  List.foldlRecOn actions act start fun server h action _ => step server action h

/-! ## What an action does -/

/-- What an action makes of a server, by what it finds there. -/
inductive ActOutcome (server : Server) : Action → Server → Prop where
  | connects (now : Instant) (connection : ConnectionId) (identity : Identity)
    (capacity : Option Nat) :
    ActOutcome server (.connect now connection identity capacity)
      { server with registry := (server.registry.connect now connection identity capacity).2 }
  | disconnects (now : Instant) (connection : ConnectionId) (cause : Option String) :
    ActOutcome server (.disconnect now connection cause)
      { server with registry := server.registry.disconnect now connection cause }
  | drains (connection : ConnectionId) :
    ActOutcome server (.drain connection)
      { server with registry := (server.registry.drain connection).2 }
  | hangsUp (connection : ConnectionId) :
    ActOutcome server (.hangUp connection)
      { server with registry := (server.registry.hangUp connection).2 }
  | endsSnapshot (snapshot : Session) :
    ActOutcome server (.endSnapshot snapshot)
      { server with registry := server.registry.endSnapshot snapshot }
  | endsSession (identity : Identity) :
    ActOutcome server (.endSession identity)
      { server with registry := (server.registry.endSession identity).2 }
  | expires (order : List Identity) (now : Instant) (grace : Duration) :
    ActOutcome server (.expire order now grace)
      { server with registry := (server.registry.expireIn order now grace).2 }
  | orders (identity : Identity) (zone : ZoneId) (scene : SceneId) :
    ActOutcome server (.order identity zone scene)
      { server with registry := (server.registry.send identity (.forcedMove zone scene)).2 }
  | queues (caller : Identity) (request : Request) :
    ActOutcome server (.requestAs caller request) (server.requestAs caller request)
  | hears {connection : ConnectionId} {caller : Identity}
    (identified : server.registry.identityFor? connection = some caller) (request : Request) :
    ActOutcome server (.requestFrom connection request) (server.requestAs caller request)
  /-- Nobody is known on the connection. -/
  | ignores {connection : ConnectionId}
    (unknown : server.registry.identityFor? connection = none) (request : Request) :
    ActOutcome server (.requestFrom connection request) server
  | reports (key : CacheKey) (outcome : LoadOutcome Bundle) :
    ActOutcome server (.report key outcome)
      (server.withWorld { server.world with cache := (server.world.cache.report key outcome).2 })
  | governs (zones : ZoneRegistry) : ActOutcome server (.govern zones) (server.govern zones)
  | ejects {identity : Identity} {entity : EntityId}
    (body : server.world.entityFor? identity = some entity) :
    ActOutcome server (.eject identity) (server.withWorld (server.world.leavePlace entity).2)
  | ejectsNobody {identity : Identity} (bodyless : server.world.entityFor? identity = none) :
    ActOutcome server (.eject identity) server
  | follows {event : SessionEvent} {rest : List SessionEvent}
    (events : server.registry.events = event :: rest) :
    ActOutcome server .follow
      ({ server with registry := { server.registry with events := rest } }.withWorld
        (followSession server.world event))
  | followsNothing (events : server.registry.events = []) : ActOutcome server .follow server
  | serves {caller : Identity} {request : Request} {rest : List (Identity × Request)}
    (requests : server.requests = (caller, request) :: rest) :
    ActOutcome server .serve ({ server with requests := rest }.runRequest caller request)
  | servesNothing (requests : server.requests = []) : ActOutcome server .serve server
  | settles :
    ActOutcome server .settle
      (server.withWorld { server.world with cache := server.world.cache.settleNext })
  | advances (bodies : List EntityId) :
    ActOutcome server (.advance bodies) (server.advanceBodies bodies)
  | delivers {effect : Effect} {rest : List Effect}
    (effects : server.world.effects = effect :: rest) :
    ActOutcome server .deliver
      ((server.withWorld { server.world with effects := rest }).carryOut effect)
  | deliversNothing (effects : server.world.effects = []) : ActOutcome server .deliver server
  | takesChanges :
    ActOutcome server .takeChanges (server.withWorld { server.world with changes := [] })

/-- Acting is one of the listed ways. -/
theorem act_outcome (server : Server) (action : Action) :
    ActOutcome server action (server.act action) := by
  cases action with
  | connect now connection identity capacity => exact .connects now connection identity capacity
  | disconnect now connection cause => exact .disconnects now connection cause
  | drain connection => exact .drains connection
  | hangUp connection => exact .hangsUp connection
  | endSnapshot snapshot => exact .endsSnapshot snapshot
  | endSession identity => exact .endsSession identity
  | expire order now grace => exact .expires order now grace
  | requestAs caller request => exact .queues caller request
  | requestFrom connection request =>
    rw [act, Server.requestFrom]
    split
    · exact .hears ‹_› request
    · exact .ignores ‹_› request
  | report key outcome => exact .reports key outcome
  | govern zones => exact .governs zones
  | eject identity =>
    rw [act, Server.eject]
    split
    · exact .ejectsNobody ‹_›
    · exact .ejects ‹_›
  | order identity zone scene => exact .orders identity zone scene
  | follow =>
    rw [act, followNext]
    split
    · exact .followsNothing ‹_›
    · exact .follows ‹_›
  | serve =>
    rw [act, serveNext]
    split
    · exact .servesNothing ‹_›
    · exact .serves ‹_›
  | settle => exact .settles
  | advance bodies => exact .advances bodies
  | deliver =>
    rw [act, deliverNext]
    split
    · exact .deliversNothing ‹_›
    · exact .delivers ‹_›
  | takeChanges => exact .takesChanges

/-! ## A tick is a run of its parts -/

/-- Some run whose actions are all of a kind leads from one state to the other. -/
def Leads (kind : Action → Prop) (start finish : Server) : Prop :=
  ∃ actions, (∀ action ∈ actions, kind action) ∧ start.run actions = finish

section Leads

variable {kind : Action → Prop}

/-- Every state leads to itself. -/
theorem Leads.refl (server : Server) : Leads kind server server := ⟨[], nofun, rfl⟩

/-- An action of the kind leads to the state after it. -/
theorem Leads.act (server : Server) (action : Action) (h : kind action) :
    Leads kind server (server.act action) :=
  ⟨[action], List.forall_mem_singleton.mpr h, rfl⟩

/-- States lead to each other step by step. -/
theorem Leads.trans {start middle finish : Server} (first : Leads kind start middle)
    (rest : Leads kind middle finish) : Leads kind start finish := by
  obtain ⟨first, hfirst, rfl⟩ := first
  obtain ⟨rest, hrest, rfl⟩ := rest
  refine ⟨first ++ rest, fun action hmem => ?_, run_append start first rest⟩
  exact (List.mem_append.mp hmem).elim (hfirst action) (hrest action)

/-- Actions of one kind are of a wider one. -/
theorem Leads.mono {other : Action → Prop} {start finish : Server} (h : Leads kind start finish)
    (hkind : ∀ action, kind action → other action) : Leads other start finish := by
  obtain ⟨actions, hall, hrun⟩ := h
  exact ⟨actions, fun action hmem => hkind action (hall action hmem), hrun⟩

/-- A run of one action over and over is of any kind that the action is of. -/
theorem Leads.only {action : Action} {start finish : Server} (h : Leads (action = ·) start finish)
    (hkind : kind action) : Leads kind start finish :=
  h.mono fun other heq => by
    rw [← heq]
    exact hkind

end Leads

/-- Effects are carried out one by one. -/
theorem leads_flush (server : Server) : Leads (Action.deliver = ·) server server.flush := by
  suffices h : ∀ effects (server : Server), server.world.effects = effects →
      Leads (Action.deliver = ·) server
        (effects.foldl carryOut (server.withWorld { server.world with effects := [] }))
    from h _ server rfl
  intro effects
  induction effects with
  | nil =>
    intro server hnil
    have hworld : { server.world with effects := [] } = server.world := by rw [← hnil]
    rw [hworld]
    exact Leads.refl server
  | cons effect rest ih =>
    intro server hcons
    refine (Leads.act server .deliver rfl).trans ?_
    have hnext : server.act .deliver =
        (server.withWorld { server.world with effects := rest }).carryOut effect := by
      simp only [Server.act, deliverNext, hcons]
    rw [hnext]
    exact ih _ rfl

/-- The bodies follow the session events one by one. -/
theorem leads_applySessionEvents (server : Server) (events : ServerEvents) :
    Leads (fun action => .follow = action ∨ .deliver = action) server
      (server.applySessionEvents events).2 := by
  suffices h : ∀ pending (server : Server), server.registry.events = pending →
      Leads (Action.follow = ·) server
        ({ server with registry := { server.registry with events := [] } }.withWorld
          (pending.foldl followSession server.world))
    from ((h _ server rfl).mono fun _ => .inl).trans ((leads_flush _).mono fun _ => .inr)
  intro pending
  induction pending with
  | nil =>
    intro server hnil
    have hregistry : { server.registry with events := [] } = server.registry := by rw [← hnil]
    rw [hregistry]
    exact Leads.refl server
  | cons event rest ih =>
    intro server hcons
    refine (Leads.act server .follow rfl).trans ?_
    have hnext : server.act .follow =
        { server with registry := { server.registry with events := rest } }.withWorld
          (followSession server.world event) := by
      simp only [Server.act, followNext, hcons]
    rw [hnext]
    exact ih _ rfl

/-- The requests are run one by one. -/
theorem leads_runRequests (server : Server) :
    Leads (Action.serve = ·) server server.runRequests := by
  suffices h : ∀ pending (server : Server), server.requests = pending →
      Leads (Action.serve = ·) server
        (pending.foldl (fun server request => server.runRequest request.1 request.2)
          { server with requests := [] })
    from h _ server rfl
  intro pending
  induction pending with
  | nil =>
    intro server hnil
    have hserver : { server with requests := [] } = server := by rw [← hnil]
    rw [hserver]
    exact Leads.refl server
  | cons request rest ih =>
    intro server hcons
    refine (Leads.act server .serve rfl).trans ?_
    have hnext : server.act .serve =
        { server with requests := rest }.runRequest request.1 request.2 := by
      simp only [Server.act, serveNext, hcons]
    rw [hnext]
    exact ih _ rfl

end Server

/-- Settling an outcome does not touch those that are still to be settled. -/
theorem Cache.settle_withArrived {κ π : Type} [Ord κ] [Std.TransOrd κ] [DecidableEq κ]
    (cache : Cache κ π) (arrived : List (κ × LoadOutcome π)) (key : κ) (outcome : LoadOutcome π) :
    { cache with arrived := arrived }.settle key outcome =
      { cache.settle key outcome with arrived := arrived } := by
  unfold settle
  cases cache.entries.get? key with
  | none => rfl
  | some entry =>
    obtain ⟨state, refs⟩ := entry
    cases state with
    | ready payload => rfl
    | failed => rfl
    | pending waiters =>
      cases outcome with
      | loaded payload =>
        dsimp only [deliver]
        split
        · rfl
        · rfl
      | failed error =>
        dsimp only [deliver]
        split
        · rfl
        · rfl

namespace Server

/-- The outcomes that arrived are settled one by one. -/
theorem leads_maintain (server : Server) :
    Leads (Action.settle = ·) server
      { server with simulation := server.simulation.maintain.2 } := by
  suffices h : ∀ arrived (server : Server), server.world.cache.arrived = arrived →
      Leads (Action.settle = ·) server (server.withWorld { server.world with
        cache := arrived.foldl (fun cache arrival => cache.settle arrival.1 arrival.2)
          { server.world.cache with arrived := [] } })
    from h _ server rfl
  intro arrived
  induction arrived with
  | nil =>
    intro server hnil
    have hcache : { server.world.cache with arrived := [] } = server.world.cache := by
      rw [← hnil]
    rw [List.foldl_nil, hcache]
    exact Leads.refl server
  | cons arrival rest ih =>
    intro server hcons
    refine (Leads.act server .settle rfl).trans ?_
    have hnext : server.act .settle = server.withWorld { server.world with
        cache := { server.world.cache with arrived := rest }.settle arrival.1 arrival.2 } := by
      simp only [Server.act, Cache.settleNext, hcons]
    rw [hnext, Cache.settle_withArrived]
    have hrest := ih (server.withWorld { server.world with
      cache := { server.world.cache.settle arrival.1 arrival.2 with arrived := rest } }) rfl
    have hfirst := Cache.settle_withArrived server.world.cache [] arrival.1 arrival.2
    rw [List.foldl_cons, hfirst]
    exact hrest

/-- The actions of the rounds in which loads are settled and moves are taken on. -/
inductive Action.Settling : Action → Prop where
  | settle : Settling .settle
  | advance (bodies : List EntityId) : Settling (.advance bodies)

/-- The rounds in which loads are settled and moves are taken on are runs. -/
theorem leads_settleWithin (rounds : Nat) (server : Server) :
    Leads Action.Settling server
      { server with simulation := server.simulation.settleWithin rounds } := by
  induction rounds generalizing server with
  | zero => exact Leads.refl server
  | succ rounds ih =>
    have hmaintain : Leads Action.Settling server
        { server with simulation := server.simulation.maintain.2 } :=
      (leads_maintain server).only .settle
    simp only [Simulation.settleWithin]
    cases hsettled : server.simulation.maintain with
    | mk count simulation =>
      rw [hsettled] at hmaintain
      cases count with
      | zero => exact hmaintain
      | succ count =>
        exact (hmaintain.trans (Leads.act _ (.advance simulation.pipeline.inFlight.keys)
          (.advance _))).trans (ih _)

/-- The actions of a tick before it settles loads. -/
inductive Action.Opening : Action → Prop where
  | follow : Opening .follow
  | expire (order : List Identity) (now : Instant) (grace : Duration) :
    Opening (.expire order now grace)
  | serve : Opening .serve
  | deliver : Opening .deliver

/-- The actions of a tick after it has settled loads. -/
inductive Action.Closing : Action → Prop where
  | deliver : Closing .deliver
  | takeChanges : Closing .takeChanges

/-- Events of sessions bring no change of a location. -/
theorem changes_foldl_push (pending : List SessionEvent) (events : ServerEvents) :
    (pending.foldl ServerEvents.push events).changes = events.changes := by
  induction pending generalizing events with
  | nil => rfl
  | cons event rest ih =>
    rw [List.foldl_cons, ih]
    cases event with
    | _ => rfl

/-- In a tick, the bodies follow the sessions and the requests are run, then the loads are settled,
then all that was done is carried out, and the changes of locations are handed out last. -/
theorem exists_finished (server : Server) (order : List Identity) (now : Instant) :
    ∃ served finished, Leads Action.Opening server served ∧
      Leads (Action.deliver = ·) { served with simulation := served.simulation.settle } finished ∧
      (server.receiveIn order now).2 = finished.act .takeChanges ∧
      (server.receiveIn order now).1.changes = finished.world.changes := by
  have hopening : ∀ action, Action.follow = action ∨ Action.deliver = action →
      action.Opening := by
    rintro action (rfl | rfl)
    · exact .follow
    · exact .deliver
  have hfollow := (leads_applySessionEvents server {}).mono hopening
  have hnone : (server.applySessionEvents {}).1.changes = [] := changes_foldl_push _ {}
  unfold receiveIn
  generalize server.applySessionEvents {} = followed at hfollow hnone ⊢
  obtain ⟨events, followed⟩ := followed
  have hexpire : Leads Action.Opening followed { followed with
      registry := (followed.registry.expireIn order now followed.config.sessionGrace).2 } :=
    Leads.act _ (.expire order now _) (.expire _ _ _)
  dsimp only
  generalize ({ followed with
    registry := (followed.registry.expireIn order now followed.config.sessionGrace).2 } : Server) =
      expired at hexpire ⊢
  have hended := (leads_applySessionEvents expired events).mono hopening
  have hstill : (expired.applySessionEvents events).1.changes = [] :=
    (changes_foldl_push _ events).trans hnone
  generalize expired.applySessionEvents events = ended at hended hstill ⊢
  have hserve := (leads_runRequests ended.2).only Action.Opening.serve
  have hflush := leads_flush { ended.2.runRequests with
    simulation := ended.2.runRequests.simulation.settle }
  exact ⟨ended.2.runRequests, _, ((hfollow.trans hexpire).trans hended).trans hserve, hflush, rfl,
    congrArg (· ++ _) hstill⟩

/-- In a tick, the bodies follow the sessions and the requests are run, then the loads are settled,
and then all that was done is handed out. -/
theorem exists_served (server : Server) (order : List Identity) (now : Instant) :
    ∃ served, Leads Action.Opening server served ∧
      Leads Action.Closing { served with simulation := served.simulation.settle }
        (server.receiveIn order now).2 := by
  obtain ⟨served, finished, hopen, hflush, htake, -⟩ := server.exists_finished order now
  have hclose := hflush.only Action.Closing.deliver
  rw [htake]
  exact ⟨served, hopen, hclose.trans (Leads.act _ .takeChanges .takeChanges)⟩

/-- A tick that nothing disturbs is a run of its parts. -/
theorem receive_eq_run (server : Server) (order : List Identity) (now : Instant) :
    ∃ actions, (server.receiveIn order now).2 = server.run actions := by
  obtain ⟨served, hopen, hclose⟩ := server.exists_served order now
  obtain ⟨actions, -, hrun⟩ := ((hopen.mono fun _ _ => trivial).trans
    ((leads_settleWithin served.simulation.settlingRounds served).mono fun _ _ => trivial)).trans
      (hclose.mono fun _ _ => trivial)
  exact ⟨actions, hrun.symm⟩

/-- Taking a body out of its place and ordering its client elsewhere is a run. -/
theorem moveBody_eq_run (server : Server) (identity : Identity) (zone : ZoneId) (scene : SceneId) :
    ∃ actions, (server.moveBody identity zone scene).2 = server.run actions := by
  suffices h : Leads (fun _ => True) server (server.moveBody identity zone scene).2 by
    obtain ⟨actions, -, h⟩ := h
    exact ⟨actions, h.symm⟩
  unfold moveBody
  cases hentity : server.world.entityFor? identity with
  | none => exact Leads.refl server
  | some entity =>
    have heject : server.act (.eject identity) =
        server.withWorld (server.world.leavePlace entity).2 := by
      simp only [Server.act, eject, hentity]
    refine (Leads.act server (.eject identity) trivial).trans ?_
    rw [heject]
    exact ((leads_flush _).only trivial).trans
      (Leads.act _ (.order identity zone scene) trivial)

/-! ## A run to look at -/

/-- A request to move the caller's body. -/
def Action.move (caller : Identity) (target : MoveTarget) : Action :=
  .requestAs caller ⟨1, zoneService, moveToMethod, target.toArguments 0⟩

/-- Two participants enter the same scene, and one of them is taken out of it again. -/
def meeting : List Action :=
  [.connect 0 1 ⟨"ada"⟩ none, .connect 0 2 ⟨"bob"⟩ none, .follow, .follow,
    .move ⟨"ada"⟩ ⟨1, 1, 1⟩, .move ⟨"bob"⟩ ⟨1, 1, 2⟩, .serve, .serve, .settle, .advance [1, 2],
    .settle, .advance [1, 2], .eject ⟨"bob"⟩]

end Server

/-- A store that has every zone and, under every id, the same scene for two. -/
def Loader.town : Loader CacheKey Bundle := .immediate fun
  | .zone zone => .loaded (.zone ⟨zone, "town", []⟩)
  | .scene scene => .loaded (.scene ⟨scene, 1, 1, "square", [⟨1, none⟩, ⟨2, none⟩], some 2, []⟩)

end SharedWorld
