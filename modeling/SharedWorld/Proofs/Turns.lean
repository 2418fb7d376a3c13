import SharedWorld.Proofs.Debts

/-!
# The requests of one body take their turns

Requests are dispatched in the order of their arrival. A move that has to wait for a load is parked,
and the moves of its body that are dispatched meanwhile queue up behind it. A request to leave a
place does not: it is done and answered within its dispatch, and so it overtakes the moves of its
body that wait. They put the body into their places after it has left. As long as no request of a
body overtakes another, they are answered in the order of their dispatches, and take effect in it
(`Server.run_inTurn`).
-/

namespace SharedWorld

/-- The listener that an effect tells of a success. -/
def Effect.granted? : Effect → Option Listener
  | .answer listener (.success _) => some listener
  | _ => none

namespace Server

variable {server after : Server} {seen : List Dispatch} {entity : EntityId}

/-- The body that the dispatch of a request begins to move or takes out of its place, if any. -/
def subject? (server : Server) (caller : Identity) (request : Request) : Option EntityId :=
  ((server.moveFor? caller request).map (·.entity)).or (server.leaveFor? caller request)

/-- The requests that an action takes from the queue. -/
def servings (server : Server) : Action → List (Identity × Request)
  | .serve => server.requests.take 1
  | _ => []

/-- A request about a body that was dispatched. -/
structure Errand where
  entity : EntityId
  listener : Listener
  deriving DecidableEq

/-- The requests about bodies that an action dispatches. -/
def errands (server : Server) (action : Action) : List Errand :=
  (server.servings action).flatMap fun (caller, request) =>
    (server.subject? caller request).toList.map (⟨·, server.listenerFor caller request⟩)

/-- The bodies with moves that wait, which an action takes out of their places on request. -/
def overtakings (server : Server) (action : Action) : List EntityId :=
  (server.servings action).flatMap fun (caller, request) =>
    (server.leaveFor? caller request).toList.filter fun entity =>
      !(server.simulation.pipeline.waiting entity).isEmpty

/-- The listeners of the requests about a body, in the order of their dispatches. -/
def listenersOf (errands : List Errand) (entity : EntityId) : List Listener :=
  (errands.filter (·.entity = entity)).map (·.listener)

/-- Those whose requests have taken effect, in this order. A move is answered with success in the
step that puts its body into its place, and a request to leave in the step that takes it out. -/
def granted (server : Server) : List Listener :=
  (server.journal ++ server.world.effects).filterMap Effect.granted?

/-- The requests about a body were answered in the order of their dispatches, and the others wait in
that order. -/
def InTurn (errands : List Errand) (entity : EntityId) (server : Server) : Prop :=
  listenersOf errands entity =
    server.answered.filter (· ∈ listenersOf errands entity) ++
      (server.simulation.pipeline.waiting entity).map (·.listener)

/-! ## What one action answers -/

/-- An action takes no answer back. -/
theorem ActOutcome.answers {action : Action} (outcome : ActOutcome server action after)
    (h : server.Orderly seen) : ∃ replies, after.answered = server.answered ++ replies := by
  have hsame : ∀ {after : Server}, after.answered = server.answered →
      ∃ replies, after.answered = server.answered ++ replies :=
    fun heq => ⟨[], heq.trans (List.append_nil _).symm⟩
  cases outcome with
  | ejects body =>
    exact hsame (answered_withWorld (World.leavePlace_outcome server.world _).notifies.answered)
  | follows events =>
    exact hsame (answered_withWorld (notifies_followSession server.world _).answered)
  | @serves caller request rest requests =>
    have hserved := runRequest_served { server with requests := rest } h.builtIn caller request
    cases hmove : server.moveFor? caller request with
    | none =>
      rw [show ({ server with requests := rest } : Server).moveFor? caller request = none from
        hmove] at hserved
      exact ⟨_, (congrArg (_ ++ ·) hserved.answered.2).trans (List.append_assoc _ _ _).symm⟩
    | some move =>
      rw [show ({ server with requests := rest } : Server).moveFor? caller request = some move from
        hmove] at hserved
      obtain ⟨layer, -, hbegun⟩ := hserved.handed
      obtain ⟨count, done, hprogress⟩ := Pipeline.begin_progress h.tidy (server.simulation.withWorld
        (server.world.record (.served request.service layer request.method caller))).realm move
      refine ⟨done.map (·.listener), ?_⟩
      rw [answered, answered, List.append_assoc]
      refine congrArg (_ ++ ·) ((congrArg (fun simulation => simulation.world.answered)
        hbegun).trans (hprogress.answered.trans (congrArg (· ++ _) ?_)))
      exact World.answered_record_served _ _ _ _ _
  | advances bodies =>
    obtain ⟨replies, hreplies, -⟩ := h.answering.counted bodies
    exact ⟨replies, hreplies⟩
  | @delivers effect rest effects =>
    refine hsame ?_
    change Effect.answered (server.journal ++ [effect]) ++ Effect.answered rest =
      Effect.answered server.journal ++ Effect.answered server.world.effects
    rw [effects, ← Effect.answered_append, ← Effect.answered_append, List.append_assoc]
    rfl
  | _ => exact hsame rfl

/-- The moves of a body that were begun are those begun first and those begun then. -/
theorem begunFor_append (first rest : List Dispatch) (entity : EntityId) :
    begunFor (first ++ rest) entity = begunFor first entity ++ begunFor rest entity := by
  rw [begunFor, List.filterMap_append, List.filter_append]
  rfl

section Accounted

variable {new : List Dispatch} {answered replies : List Listener}
  {waits waits' : EntityId → List MoveRequest}

/-- Nobody was answered who is only dispatched now. -/
theorem Accounted.not_answered (before : Accounted seen answered waits)
    (after : Accounted (seen ++ new) (answered ++ replies) waits') {listener : Listener}
    (hanswered : listener ∈ answered) : listener ∉ (begunFor new entity).map (·.listener) := by
  intro hnew
  obtain ⟨move, hbegun, rfl⟩ := List.mem_map.mp hnew
  obtain ⟨-, dispatch, hdispatch, hmove⟩ := Accounted.mem_begunFor_iff.mp hbegun
  obtain ⟨earlier, hearlier, heq⟩ := before.known hanswered
  have hnodup := after.listeners_nodup
  rw [List.map_append] at hnodup
  refine List.disjoint_of_nodup_append hnodup (List.mem_map_of_mem hearlier) ?_
  rw [heq, after.listener_eq (List.mem_append_right _ hdispatch) hmove]
  exact List.mem_map_of_mem hdispatch

/-- Of the moves of a body that wait and that are dispatched, the first ones are answered, and the
others wait. -/
theorem Accounted.turn (before : Accounted seen answered waits)
    (after : Accounted (seen ++ new) (answered ++ replies) waits') (entity : EntityId) :
    (waits entity).map (·.listener) ++ (begunFor new entity).map (·.listener) =
      replies.filter (· ∈ (begunFor (seen ++ new) entity).map (·.listener)) ++
        (waits' entity).map (·.listener) := by
  obtain ⟨done, hsplit, hdone⟩ := before.order entity
  obtain ⟨done', hsplit', hdone'⟩ := after.order entity
  have hold : answered.filter (· ∈ (begunFor (seen ++ new) entity).map (·.listener)) =
      done.map (·.listener) := by
    rw [← hdone, answeredFor]
    refine List.filter_congr fun listener hanswered => ?_
    rw [begunFor_append, List.map_append, decide_eq_decide, List.mem_append, or_iff_left]
    exact before.not_answered after hanswered
  rw [answeredFor, List.filter_append, hold] at hdone'
  have hlisteners := congrArg (List.map (·.listener)) hsplit'
  rw [begunFor_append, hsplit, List.map_append, List.map_append, List.map_append, ← hdone',
    List.append_assoc, List.append_assoc] at hlisteners
  exact List.append_cancel_left hlisteners

end Accounted

/-! ## Taking turns -/

variable {before new : List Errand}

/-- The listeners of a body are those of its first errands and then those of the others. -/
theorem listenersOf_append (before new : List Errand) (entity : EntityId) :
    listenersOf (before ++ new) entity = listenersOf before entity ++ listenersOf new entity := by
  rw [listenersOf, List.filter_append, List.map_append]
  rfl

/-- The requests about a body were answered in turn, and its moves are among them. -/
structure Turns (seen : List Dispatch) (errands : List Errand) (entity : EntityId)
    (server : Server) : Prop where
  orderly : server.Orderly seen
  begun : ∀ listener ∈ (begunFor seen entity).map (·.listener),
    listener ∈ listenersOf errands entity
  inTurn : InTurn errands entity server

/-- Where no request of a body overtakes another, they are answered in turn. -/
theorem Turns.moves {dispatched : List Dispatch} (h : server.Turns seen before entity)
    (hafter : after.Orderly (seen ++ dispatched)) {replies : List Listener}
    (hreplies : after.answered = server.answered ++ replies)
    (hnew : listenersOf new entity = (begunFor dispatched entity).map (·.listener)) :
    after.Turns (seen ++ dispatched) (before ++ new) entity := by
  have haccounted := hafter.accounted
  rw [hreplies] at haccounted
  have hturn := h.orderly.accounted.turn haccounted entity
  have hbegun : ∀ listener ∈ (begunFor (seen ++ dispatched) entity).map (·.listener),
      listener ∈ listenersOf (before ++ new) entity := by
    intro listener hlistener
    rw [begunFor_append, List.map_append] at hlistener
    rw [listenersOf_append, hnew]
    exact (List.mem_append.mp hlistener).elim
      (fun hold => List.mem_append_left _ (h.begun _ hold)) (List.mem_append_right _)
  refine ⟨hafter, hbegun, ?_⟩
  have hold : server.answered.filter (· ∈ listenersOf (before ++ new) entity) =
      server.answered.filter (· ∈ listenersOf before entity) := by
    refine List.filter_congr fun listener hanswered => ?_
    rw [listenersOf_append, hnew, decide_eq_decide, List.mem_append, or_iff_left]
    exact h.orderly.accounted.not_answered haccounted hanswered
  -- Whoever of the body's is answered now was waiting or is dispatched now, so it asked for a move.
  have hmoves : replies.filter (· ∈ listenersOf (before ++ new) entity) =
      replies.filter (· ∈ (begunFor (seen ++ dispatched) entity).map (·.listener)) := by
    refine List.filter_congr fun listener hlistener => decide_eq_decide.mpr ⟨fun hmem => ?_,
      hbegun listener⟩
    rw [listenersOf_append, h.inTurn, hnew, List.append_assoc] at hmem
    rw [begunFor_append, List.map_append]
    rcases List.mem_append.mp hmem with hanswered | hmem
    · exact absurd hlistener (List.disjoint_of_nodup_append haccounted.once
        (List.mem_filter.mp hanswered).1)
    · rcases List.mem_append.mp hmem with hwaits | hdispatched
      · obtain ⟨done, hsplit, -⟩ := h.orderly.accounted.order entity
        rw [hsplit, List.map_append]
        exact List.mem_append_left _ (List.mem_append_right _ hwaits)
      · exact List.mem_append_right _ hdispatched
  rw [InTurn, hreplies, List.filter_append, hold, hmoves, List.append_assoc, ← hturn,
    listenersOf_append, hnew, ← List.append_assoc]
  exact congrArg (· ++ _) h.inTurn

/-- A request to leave a place is no move. -/
theorem moveFor?_of_leaveFor? {caller : Identity} {request : Request}
    (h : server.leaveFor? caller request = some entity) :
    server.moveFor? caller request = none := by
  unfold leaveFor? at h
  by_cases hleaves : request.leaves = true
  · rw [if_pos hleaves] at h
    refine if_neg fun hmove => ?_
    rw [Request.leaves, hmove.2] at hleaves
    exact Bool.false_ne_true hleaves
  · rw [if_neg hleaves] at h
    cases h

/-- A move answers to the listener of its request. -/
theorem listener_of_moveFor? {caller : Identity} {request : Request} {move : MoveRequest}
    (h : server.moveFor? caller request = some move) :
    move.listener = server.listenerFor caller request := by
  unfold moveFor? at h
  split at h
  · split at h
    · cases h
    · obtain ⟨entity, -, rfl⟩ := Option.map_eq_some_iff.mp h
      rfl
  · cases h

/-- Who comes next is behind those that wait only if nobody does. -/
theorem next_iff {done waits : List Listener} {next : Listener} (h : next ∉ waits) :
    done ++ waits ++ [next] = done ++ [next] ++ waits ↔ waits = [] := by
  rw [List.append_assoc, List.append_assoc, List.append_right_inj]
  cases waits with
  | nil => exact ⟨fun _ => rfl, fun _ => rfl⟩
  | cons first rest =>
    refine ⟨fun heq => ?_, nofun⟩
    rw [← (List.cons.inj heq).1] at h
    exact absurd List.mem_cons_self h

section Serving

variable {caller : Identity} {request : Request} {rest : List (Identity × Request)}
  (hrequests : server.requests = (caller, request) :: rest)
include hrequests

/-- To serve is to dispatch the first request. -/
theorem servings_eq : server.servings .serve = [(caller, request)] := by
  rw [servings, hrequests]
  rfl

/-- The errand of a request is about the body that it concerns, if there is one. -/
theorem errands_eq : server.errands .serve =
    (server.subject? caller request).toList.map (⟨·, server.listenerFor caller request⟩) := by
  rw [errands, servings_eq hrequests, List.flatMap_singleton]

/-- A request is dispatched with its listener, and with its move if it begins one. -/
theorem dispatches_eq : server.dispatches .serve =
    [⟨server.listenerFor caller request, server.moveFor? caller request⟩] := by
  rw [dispatches, hrequests]

/-- The request to leave a place is answered behind all that was answered before, and so it takes
its turn exactly if no move of the body waits. -/
theorem Turns.leave_iff (h : server.Turns seen before entity)
    (hleave : server.leaveFor? caller request = some entity) :
    InTurn (before ++ server.errands .serve) entity (server.act .serve) ↔
      server.simulation.pipeline.waiting entity = [] := by
  have hmove := moveFor?_of_leaveFor? hleave
  have hserved := runRequest_served { server with requests := rest } h.orderly.builtIn caller
    request
  rw [show ({ server with requests := rest } : Server).moveFor? caller request = none from hmove]
    at hserved
  have hpipeline : (server.act .serve).simulation.pipeline = server.simulation.pipeline := by
    rw [act_serve hrequests]
    exact hserved.answered.1
  have hanswered := h.orderly.answering.at_once hrequests hmove
  have hfresh : server.listenerFor caller request ∉ server.answered :=
    h.orderly.accounted.fresh h.orderly.dispatched
  have hnew : listenersOf (server.errands .serve) entity = [server.listenerFor caller request] := by
    simp [listenersOf, errands_eq hrequests, subject?, hmove, hleave]
  have hwaits : server.listenerFor caller request ∉
      (server.simulation.pipeline.waiting entity).map (·.listener) := by
    intro hmem
    obtain ⟨move, hwaiting, heq⟩ := List.mem_map.mp hmem
    have hafter := (act_outcome server .serve).orderly h.orderly
    rw [← hpipeline] at hwaiting
    refine hafter.accounted.unanswered hwaiting ?_
    rw [heq, hanswered]
    exact List.mem_append_right _ List.mem_cons_self
  have hold : server.answered.filter (· ∈ listenersOf before entity ++
      [server.listenerFor caller request]) =
        server.answered.filter (· ∈ listenersOf before entity) := by
    refine List.filter_congr fun listener hlistener => ?_
    rw [decide_eq_decide, List.mem_append, or_iff_left]
    intro hmem
    rw [List.mem_singleton.mp hmem] at hlistener
    exact hfresh hlistener
  have hself : [server.listenerFor caller request].filter (· ∈ listenersOf before entity ++
      [server.listenerFor caller request]) = [server.listenerFor caller request] := by
    simp
  rw [InTurn, listenersOf_append, hnew, hanswered, hpipeline, List.filter_append, hold, hself,
    ← List.map_eq_nil_iff (f := fun move : MoveRequest => move.listener), ← next_iff hwaits]
  exact iff_of_eq (congrArg (· ++ [server.listenerFor caller request] = _) h.inTurn)

/-- A request that overtakes no move is answered in turn. -/
theorem errands_of_stays (hstays : server.leaveFor? caller request ≠ some entity) :
    listenersOf (server.errands .serve) entity =
      (begunFor (server.dispatches .serve) entity).map (·.listener) := by
  rw [errands_eq hrequests, dispatches_eq hrequests, subject?, begunFor]
  cases hmove : server.moveFor? caller request with
  | none =>
    cases hleave : server.leaveFor? caller request with
    | none => rfl
    | some other =>
      have hother : other ≠ entity := by
        rintro rfl
        exact hstays hleave
      simp [listenersOf, hother]
  | some move =>
    have hlistener := listener_of_moveFor? hmove
    by_cases hentity : move.entity = entity
    · simp [listenersOf, hentity, hlistener]
    · simp [listenersOf, hentity]

end Serving

/-- An action by which no request of the body overtakes another answers its requests in turn. -/
theorem ActOutcome.turns {action : Action} (outcome : ActOutcome server action after)
    (h : server.Turns seen before entity) (hclear : entity ∉ server.overtakings action) :
    after.Turns (seen ++ server.dispatches action) (before ++ server.errands action) entity := by
  have hafter := outcome.orderly h.orderly
  obtain ⟨replies, hreplies⟩ := outcome.answers h.orderly
  cases outcome with
  | @serves caller request rest requests =>
    by_cases hleave : server.leaveFor? caller request = some entity
    · have hidle : server.simulation.pipeline.waiting entity = [] := by
        simpa [overtakings, servings_eq requests, hleave] using hclear
      have hturn := (h.leave_iff requests hleave).mpr hidle
      rw [act_serve requests] at hturn
      refine ⟨hafter, fun listener hlistener => ?_, hturn⟩
      have hnone : begunFor [⟨server.listenerFor caller request, none⟩] entity = [] := rfl
      rw [begunFor_append, dispatches_eq requests, moveFor?_of_leaveFor? hleave, hnone,
        List.append_nil] at hlistener
      rw [listenersOf_append]
      exact List.mem_append_left _ (h.begun _ hlistener)
    · exact h.moves hafter hreplies (errands_of_stays requests hleave)
  | servesNothing requests =>
    refine h.moves hafter hreplies ?_
    rw [errands, servings, requests, dispatches, requests]
    rfl
  | _ => exact h.moves hafter hreplies rfl

/-- Bodies take their turns in every run in which no request overtakes a move. -/
theorem Turns.run (h : server.Turns seen before entity) {actions : List Action}
    (hclear : entity ∉ server.collect overtakings actions) :
    (server.run actions).Turns (seen ++ server.collect dispatches actions)
      (before ++ server.collect errands actions) entity := by
  induction actions generalizing server seen before with
  | nil =>
    rw [collect, collect, List.append_nil, List.append_nil]
    exact h
  | cons action rest ih =>
    rw [collect, List.mem_append, not_or] at hclear
    rw [collect, collect, ← List.append_assoc, ← List.append_assoc]
    exact ih ((act_outcome server action).turns h hclear.1) hclear.2

/-! ## What takes effect -/

/-- Requests are dispatched in the order of their arrival. -/
theorem ActOutcome.requests_eq {action : Action} (outcome : ActOutcome server action after) :
    server.requests ++ server.arrivals action = server.servings action ++ after.requests := by
  cases outcome with
  | queues caller request => rfl
  | hears identified request =>
    rw [arrivals, identified]
    rfl
  | ignores unknown request =>
    rw [arrivals, unknown]
    exact List.append_nil _
  | serves requests =>
    rw [servings, requests]
    exact List.append_nil _
  | servesNothing requests =>
    rw [servings, requests]
    rfl
  | _ => exact List.append_nil _

/-- Requests are dispatched in the order of their arrival. -/
theorem run_fifo (server : Server) (actions : List Action) :
    server.requests ++ server.collect arrivals actions =
      server.collect servings actions ++ (server.run actions).requests := by
  induction actions generalizing server with
  | nil => exact List.append_nil _
  | cons action rest ih =>
    rw [collect, collect, ← List.append_assoc, (act_outcome server action).requests_eq,
      List.append_assoc, ih, List.append_assoc]
    rfl

/-- Whose requests took effect, were answered. -/
theorem granted_sublist (server : Server) : server.granted.Sublist server.answered := by
  have hsublist : ∀ effects : List Effect,
      (effects.filterMap Effect.granted?).Sublist (Effect.answered effects) := by
    intro effects
    induction effects with
    | nil => exact .slnil
    | cons effect rest ih =>
      cases hgranted : effect.granted? with
      | none =>
        rw [List.filterMap_cons_none hgranted, Effect.answered, List.filterMap_cons]
        split
        · exact ih
        · exact ih.cons _
      | some listener =>
        have hanswer : effect.answer? = some listener := by
          cases effect with
          | answer other result =>
            cases result with
            | success reply => exact hgranted
            | failure fault => cases hgranted
          | _ => cases hgranted
        rw [List.filterMap_cons_some hgranted, Effect.answered, List.filterMap_cons_some hanswer]
        exact ih.cons_cons _
  rw [granted, answered, World.answered, ← Effect.answered_append]
  exact hsublist _

/-- Requests that are answered in turn take effect in turn. -/
theorem InTurn.granted {errands : List Errand} (h : InTurn errands entity server) :
    (server.granted.filter (· ∈ listenersOf errands entity)).Sublist
      (listenersOf errands entity) := by
  have hprefix : server.answered.filter (· ∈ listenersOf errands entity) <+:
      listenersOf errands entity := ⟨_, h.symm⟩
  exact (server.granted_sublist.filter _).trans hprefix.sublist

/-- Once a request is answered, no move of the body waits that was dispatched before it. -/
theorem Turns.settled {errands : List Errand} (h : server.Turns seen errands entity)
    {first rest : List Listener} {listener : Listener}
    (hsplit : listenersOf errands entity = first ++ listener :: rest)
    (hanswered : listener ∈ server.answered) {move : MoveRequest}
    (hwaits : move ∈ server.simulation.pipeline.waiting entity) : move.listener ∉ first := by
  have hturn := h.inTurn
  rw [InTurn, hsplit] at hturn
  rcases List.append_eq_append_iff.mp hturn with ⟨between, hdone, -⟩ | ⟨between, -, hwaiting⟩
  · intro hmem
    have hfirst := List.mem_append_left between hmem
    rw [← hdone] at hfirst
    exact h.orderly.accounted.unanswered hwaits (List.mem_filter.mp hfirst).1
  · have hmem : listener ∈ between ++ listener :: rest :=
      List.mem_append_right between List.mem_cons_self
    rw [← hwaiting] at hmem
    obtain ⟨other, hother, rfl⟩ := List.mem_map.mp hmem
    exact absurd hanswered (h.orderly.accounted.unanswered hother)

/-- How the requests about a body are dealt with, given all that arrived and were dispatched. -/
structure TakesTurns (arrived served : List (Identity × Request)) (errands : List Errand)
    (entity : EntityId) (server : Server) : Prop where
  /-- Requests are dispatched in the order of their arrival. -/
  fifo : arrived = served ++ server.requests
  /-- The requests about the body are answered in that order. -/
  in_turn : InTurn errands entity server
  /-- Once a request is answered, no move of the body waits that was dispatched before it. So none
  puts the body anywhere after a later request to leave was answered. -/
  settled : ∀ {first listener rest}, listenersOf errands entity = first ++ listener :: rest →
    listener ∈ server.answered →
    ∀ {move}, move ∈ server.simulation.pipeline.waiting entity → move.listener ∉ first
  /-- They take effect in that order. -/
  in_order : (server.granted.filter (· ∈ listenersOf errands entity)).Sublist
    (listenersOf errands entity)
  /-- If the next request takes the body out of its place, the order is kept exactly if no move of
  the body waits. -/
  leave_iff : ∀ {caller request rest}, server.requests = (caller, request) :: rest →
    server.leaveFor? caller request = some entity →
    (InTurn (errands ++ server.errands .serve) entity (server.act .serve) ↔
      server.simulation.pipeline.waiting entity = [])

/-- As long as no request of a body to leave its place is dispatched while a move of it waits, its
requests take effect in the order of their arrival, whatever happens to the server. -/
theorem run_inTurn (config : ServerConfig) (loader : Loader CacheKey Bundle)
    (actions : List Action) (entity : EntityId)
    (hclear : entity ∉ (Server.new config loader).collect overtakings actions) :
    ((Server.new config loader).run actions).TakesTurns
      ((Server.new config loader).collect arrivals actions)
      ((Server.new config loader).collect servings actions)
      ((Server.new config loader).collect errands actions) entity := by
  have hnew : (Server.new config loader).Turns [] [] entity :=
    ⟨new_orderly config loader, nofun, rfl⟩
  have hturns := hnew.run hclear
  exact ⟨run_fifo (Server.new config loader) actions, hturns.inTurn, hturns.settled,
    hturns.inTurn.granted, fun hrequests => hturns.leave_iff hrequests⟩

/-- A request to leave the place that the caller's body is in. -/
def Action.leave (caller : Identity) (id : RequestId) : Action :=
  .requestAs caller ⟨id, locationService, leavePlaceMethod, []⟩

/-- A participant enters a scene, leaves it and comes back. -/
def returning : List Action :=
  [.connect 0 1 ⟨"ada"⟩ none, .follow, .move ⟨"ada"⟩ ⟨1, 1, 1⟩, .leave ⟨"ada"⟩ 2,
    .move ⟨"ada"⟩ ⟨1, 1, 2⟩, .serve, .settle, .advance [1], .settle, .advance [1], .serve, .serve,
    .settle, .advance [1]]

/-- All loads are settled before the next request is dispatched, so the three take their turns. -/
theorem returning_takesTurns :
    ((Server.new {} .town).run returning).granted.map (·.request) = [1, 2, 1] ∧
      ((Server.new {} .town).run returning).TakesTurns
        ((Server.new {} .town).collect arrivals returning)
        ((Server.new {} .town).collect servings returning)
        ((Server.new {} .town).collect errands returning) 1 :=
  ⟨by decide +kernel, run_inTurn {} .town returning 1 (by decide +kernel)⟩

/-- A participant asks to enter a scene and then to leave. The scene is only loaded later. -/
def overtaken : List Action :=
  [.connect 0 1 ⟨"ada"⟩ none, .follow, .move ⟨"ada"⟩ ⟨1, 1, 1⟩, .leave ⟨"ada"⟩ 2, .serve, .serve,
    .report (.zone 1) (.loaded (.zone ⟨1, "town", []⟩)), .settle, .advance [1],
    .report (.scene 1) (.loaded (.scene ⟨1, 1, 1, "square", [⟨1, none⟩], none, []⟩)), .settle,
    .advance [1]]

/-- The request to leave has taken effect before the move that arrived before it, which leaves the
body in the place. -/
theorem overtaken_outOfTurn :
    listenersOf ((Server.new {} .manual).collect errands overtaken) 1 =
        [⟨⟨"ada"⟩, 1, 0⟩, ⟨⟨"ada"⟩, 2, 1⟩] ∧
      ((Server.new {} .manual).run overtaken).granted = [⟨⟨"ada"⟩, 2, 1⟩, ⟨⟨"ada"⟩, 1, 0⟩] ∧
      (((Server.new {} .manual).run overtaken).world.body? 1).map (·.location) =
        some (.inside 1 1 1 1) ∧
      ¬(((Server.new {} .manual).run overtaken).granted.filter (· ∈ listenersOf
        ((Server.new {} .manual).collect errands overtaken) 1)).Sublist
          (listenersOf ((Server.new {} .manual).collect errands overtaken) 1) := by
  decide +kernel

end Server

end SharedWorld
