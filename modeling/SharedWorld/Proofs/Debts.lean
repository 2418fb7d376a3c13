import SharedWorld.Proofs.Replies

/-!
# No request is lost

A request that has arrived waits to be run, or for its move, or for its answer to be carried out,
until its answer is carried out (`run_conserves`). So the server owes a participant exactly the
answers to those of its requests that were not answered yet.
-/

namespace SharedWorld

/-- Whether the listener is that of a request with the given caller and id. -/
def Listener.isOf (me : Identity) (id : RequestId) (listener : Listener) : Bool :=
  listener.caller = me && listener.request = id

namespace Pipeline

variable {pipeline before after : Pipeline} {realm realm' : Realm} {entity : EntityId}

/-- How many of the requests that were not answered have a listener of the kind. -/
def owing (pipeline : Pipeline) (kind : Listener → Bool) : Nat :=
  pipeline.inFlight.total (fun flight => if kind flight.request.listener then 1 else 0) +
    pipeline.queued.total (fun requests => (requests.map (·.listener)).countP kind)

/-- How many of them are not about the given body. -/
def owingBesides (pipeline : Pipeline) (entity : EntityId) (kind : Listener → Bool) : Nat :=
  (pipeline.inFlight.erase entity).total (fun flight =>
    if kind flight.request.listener then 1 else 0) +
    (pipeline.queued.erase entity).total (fun requests => (requests.map (·.listener)).countP kind)

/-- The requests of a body are those that wait for it. -/
theorem owing_eq (pipeline : Pipeline) (entity : EntityId) (kind : Listener → Bool) :
    pipeline.owing kind = ((pipeline.waiting entity).map (·.listener)).countP kind +
      pipeline.owingBesides entity kind := by
  have hflights := pipeline.inFlight.total_erase entity fun flight =>
    if kind flight.request.listener then 1 else 0
  have hqueues := pipeline.queued.total_erase entity fun requests =>
    (requests.map (·.listener)).countP kind
  have hflight : ((pipeline.inFlight.get? entity).elim 0 fun flight =>
      if kind flight.request.listener then 1 else 0) =
      ((((pipeline.inFlight.get? entity).map (·.request)).toList).map (·.listener)).countP
        kind := by
    cases pipeline.inFlight.get? entity with
    | none => rfl
    | some flight => simp [List.countP_cons]
  have hqueue : ((pipeline.queued.get? entity).elim 0 fun requests =>
      (requests.map (·.listener)).countP kind) =
      ((pipeline.queueOf entity).map (·.listener)).countP kind := by
    unfold queueOf
    cases pipeline.queued.get? entity with
    | none => rfl
    | some requests => rfl
  rw [waiting, List.map_append, List.countP_append, owing, owingBesides]
  omega

/-- What is not answered of the requests of a body waits. -/
theorem Progress.owing {requests done new : List MoveRequest} {count : Nat}
    (h : Progress entity requests before realm count after realm' done)
    (hrequests : requests = before.waiting entity ++ new) (kind : Listener → Bool) :
    after.owing kind + realm'.world.answered.countP kind =
      before.owing kind + realm.world.answered.countP kind +
        (new.map (·.listener)).countP kind := by
  have hbefore := before.owing_eq entity kind
  have hafter := after.owing_eq entity kind
  have hbesides : after.owingBesides entity kind = before.owingBesides entity kind := by
    rw [owingBesides, owingBesides, h.inFlight, h.queued]
  have hsplit : (requests.map (·.listener)).countP kind =
      (done.map (·.listener)).countP kind +
        ((after.waiting entity).map (·.listener)).countP kind := by
    rw [h.split, List.map_append, List.countP_append]
  rw [hrequests, List.map_append, List.countP_append] at hsplit
  rw [h.answered, List.countP_append]
  omega

/-- A move that begins is owed an answer, or has been given it. -/
theorem owing_begin (htidy : pipeline.Tidy) (realm : Realm) (request : MoveRequest)
    (kind : Listener → Bool) :
    (pipeline.begin realm request).1.owing kind +
        (pipeline.begin realm request).2.world.answered.countP kind =
      pipeline.owing kind + realm.world.answered.countP kind +
        [request.listener].countP kind := by
  obtain ⟨count, done, hprogress⟩ := begin_progress htidy realm request
  exact hprogress.owing rfl kind

/-- Taking moves on turns answers that are owed into answers that are given. -/
theorem owing_advanceIn (htidy : pipeline.Tidy) (realm : Realm) (bodies : List EntityId)
    (kind : Listener → Bool) :
    (pipeline.advanceIn realm bodies).2.1.owing kind +
        (pipeline.advanceIn realm bodies).2.2.world.answered.countP kind =
      pipeline.owing kind + realm.world.answered.countP kind := by
  induction bodies generalizing pipeline realm with
  | nil => rfl
  | cons entity rest ih =>
    obtain ⟨done, hprogress⟩ := advanceBody_progress htidy realm entity
    have hstep := hprogress.owing (List.append_nil _).symm kind
    have hrest := ih (hprogress.tidy htidy) (pipeline.advanceBody realm entity).2.2
    simp only [List.map_nil, List.countP_nil] at hstep
    exact hrest.trans hstep

end Pipeline

namespace Server

variable {server after : Server}

/-- The requests that an action brings, with their callers. -/
def arrivals (server : Server) : Action → List (Identity × Request)
  | .requestAs caller request => [(caller, request)]
  | .requestFrom connection request =>
    (server.registry.identityFor? connection).toList.map (·, request)
  | _ => []

/-- The effects that an action carries out. -/
def carries (server : Server) : Action → List Effect
  | .deliver => server.world.effects.take 1
  | _ => []

/-- How many requests of the given caller and id arrived. -/
def countOf (me : Identity) (id : RequestId) (arrived : List (Identity × Request)) : Nat :=
  arrived.countP fun (caller, request) => caller = me && request.request = id

/-- Requests count one by one. -/
theorem countOf_append (me : Identity) (id : RequestId) (first rest : List (Identity × Request)) :
    countOf me id (first ++ rest) = countOf me id first + countOf me id rest :=
  List.countP_append

/-- How many answers to requests of the given caller and id are still to be carried out. -/
def owing (server : Server) (me : Identity) (id : RequestId) : Nat :=
  countOf me id server.requests + server.simulation.pipeline.owing (·.isOf me id) +
    server.world.answered.countP (·.isOf me id)

/-- A request that is dispatched is owed an answer, or has been given it. -/
theorem Served.owing {caller : Identity} {request : Request} {move : Option MoveRequest}
    {simulation : Simulation} (served : Served server caller request move simulation)
    (htidy : server.simulation.pipeline.Tidy) (kind : Listener → Bool) :
    simulation.pipeline.owing kind + simulation.world.answered.countP kind =
      server.simulation.pipeline.owing kind + server.world.answered.countP kind +
        [server.listenerFor caller request].countP kind := by
  cases move with
  | none =>
    obtain ⟨hpipeline, hanswered⟩ := served.answered
    rw [hpipeline, hanswered, List.countP_append]
    omega
  | some move =>
    obtain ⟨layer, hlistener, rfl⟩ := served.handed
    rw [← hlistener]
    have hbegin := Pipeline.owing_begin htidy (server.simulation.withWorld (server.world.record
      (.served request.service layer request.method caller))).realm move kind
    have hrecord := server.world.answered_record_served request.service layer request.method caller
    have hworld : (server.simulation.withWorld (server.world.record
        (.served request.service layer request.method caller))).realm.world.answered =
        server.world.answered := hrecord
    rw [hworld] at hbegin
    exact hbegin

/-- A change of the world that answers nobody. -/
theorem owing_withWorld (server : Server) {world : World}
    (hanswered : world.answered = server.world.answered) (me : Identity) (id : RequestId) :
    (server.withWorld world).owing me id = server.owing me id := by
  have hworld : (server.withWorld world).world.answered = server.world.answered := hanswered
  rw [owing, hworld]
  rfl

/-- Who hands a request in is owed one answer more. -/
theorem owing_requestAs (server : Server) (caller : Identity) (request : Request) (me : Identity)
    (id : RequestId) :
    (server.requestAs caller request).owing me id =
      server.owing me id + countOf me id [(caller, request)] := by
  have hrequests : (server.requestAs caller request).requests =
      server.requests ++ [(caller, request)] := rfl
  rw [owing, hrequests, countOf_append, owing]
  change _ + server.simulation.pipeline.owing _ + server.world.answered.countP _ = _
  omega

/-- A request that is taken from the queue is not owed any more. -/
theorem owing_cons {caller : Identity} {request : Request} {rest : List (Identity × Request)}
    (h : server.requests = (caller, request) :: rest) (me : Identity) (id : RequestId) :
    ({ server with requests := rest } : Server).owing me id + countOf me id [(caller, request)] =
      server.owing me id := by
  have hcons := countOf_append me id [(caller, request)] rest
  rw [List.singleton_append, ← h] at hcons
  change countOf me id rest + server.simulation.pipeline.owing _ +
    server.world.answered.countP _ + _ = countOf me id server.requests + _ + _
  omega

/-- Running a request does not lose it. -/
theorem owing_runRequest (server : Server) (hbuiltIn : server.BuiltIn)
    (htidy : server.simulation.pipeline.Tidy) (caller : Identity) (request : Request)
    (me : Identity) (id : RequestId) :
    (server.runRequest caller request).owing me id =
      server.owing me id + countOf me id [(caller, request)] := by
  have hserved := (runRequest_served server hbuiltIn caller request).owing htidy (·.isOf me id)
  have hlistener : [server.listenerFor caller request].countP (·.isOf me id) =
      countOf me id [(caller, request)] := by
    rw [countOf, List.countP_singleton, List.countP_singleton]
    rfl
  rw [owing, owing]
  change countOf me id server.requests + _ +
    (server.runRequest caller request).simulation.world.answered.countP _ = _
  omega

/-- What an action carries out is not owed any more, and what it brings is owed from then on. -/
theorem ActOutcome.owing_eq {action : Action} (outcome : ActOutcome server action after)
    (hbuiltIn : server.BuiltIn) (htidy : server.simulation.pipeline.Tidy) (me : Identity)
    (id : RequestId) :
    after.owing me id + (Effect.answered (server.carries action)).countP (·.isOf me id) =
      server.owing me id + countOf me id (server.arrivals action) := by
  cases outcome with
  | queues caller request => exact owing_requestAs server caller request me id
  | @hears connection caller identified request =>
    rw [arrivals, identified]
    exact owing_requestAs server caller request me id
  | ignores unknown request =>
    rw [arrivals, unknown]
    rfl
  | ejects body =>
    exact owing_withWorld server (World.leavePlace_outcome server.world _).notifies.answered me id
  | @follows event rest events =>
    exact owing_withWorld { server with registry := { server.registry with events := rest } }
      (notifies_followSession server.world event).answered me id
  | @serves caller request rest requests =>
    have hserved := owing_runRequest { server with requests := rest } hbuiltIn htidy caller request
      me id
    exact hserved.trans (owing_cons requests me id)
  | advances bodies =>
    have hadvance := Pipeline.owing_advanceIn htidy server.simulation.realm bodies (·.isOf me id)
    change _ = _ + server.world.answered.countP _ at hadvance
    change countOf me id server.requests + (server.simulation.pipeline.advanceIn
      server.simulation.realm bodies).2.1.owing (·.isOf me id) +
        (server.simulation.pipeline.advanceIn server.simulation.realm
          bodies).2.2.world.answered.countP (·.isOf me id) + 0 = server.owing me id + 0
    rw [Server.owing]
    omega
  | @delivers effect rest effects =>
    -- An answer that is carried out was recorded, and is no longer owed from here on.
    have hsplit : server.world.answered = Effect.answered [effect] ++ Effect.answered rest := by
      rw [← Effect.answered_append, World.answered, effects]
      rfl
    have hcount := congrArg (List.countP (·.isOf me id)) hsplit
    rw [List.countP_append] at hcount
    rw [carries, effects]
    change countOf me id server.requests + server.simulation.pipeline.owing (·.isOf me id) +
      (Effect.answered rest).countP (·.isOf me id) +
        (Effect.answered [effect]).countP (·.isOf me id) = server.owing me id + 0
    rw [Server.owing]
    omega
  | deliversNothing effects =>
    rw [carries, effects]
    rfl
  | _ => rfl

/-- What an action carries out is entered into the journal. -/
theorem ActOutcome.journal_eq {action : Action} (outcome : ActOutcome server action after) :
    after.journal = server.journal ++ server.carries action := by
  cases outcome with
  | delivers effects =>
    rw [carries, effects]
    rfl
  | deliversNothing effects =>
    rw [carries, effects]
    exact (List.append_nil _).symm
  | _ => exact (List.append_nil _).symm

/-- Every request that has arrived is owed an answer, or the answer was carried out. -/
structure Conserves (me : Identity) (id : RequestId) (arrived : List (Identity × Request))
    (server : Server) : Prop where
  orderly : ∃ seen, server.Orderly seen
  count_eq : server.owing me id +
    (Effect.answered server.journal).countP (·.isOf me id) = countOf me id arrived

/-- No action makes an answer that is owed disappear, or gives one that is not. -/
theorem ActOutcome.conserves {me : Identity} {id : RequestId} {action : Action}
    (outcome : ActOutcome server action after) {arrived : List (Identity × Request)}
    (h : server.Conserves me id arrived) :
    after.Conserves me id (arrived ++ server.arrivals action) := by
  obtain ⟨seen, horderly⟩ := h.orderly
  have howing := outcome.owing_eq horderly.builtIn horderly.tidy me id
  have hcount := h.count_eq
  refine ⟨⟨_, outcome.orderly horderly⟩, ?_⟩
  rw [outcome.journal_eq, Effect.answered_append, List.countP_append, countOf_append]
  omega

/-- Whatever happens to a server, no request is lost. -/
theorem run_conserves (config : ServerConfig) (loader : Loader CacheKey Bundle)
    (actions : List Action) (me : Identity) (id : RequestId) :
    ((Server.new config loader).run actions).Conserves me id
      ((Server.new config loader).collect arrivals actions) :=
  run_collect_induction (P := Conserves me id)
    (fun _ server action h => (act_outcome server action).conserves h)
    ⟨⟨[], new_orderly config loader⟩, rfl⟩ actions

end Server

end SharedWorld
