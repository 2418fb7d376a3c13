import SharedWorld.Proofs.Responses
import SharedWorld.Proofs.Turns
import SharedWorld.Proofs.Verdicts

/-!
# A transition is settled by the answer to it

Sessions outlive clients: a participant may come back with a new client while moves that an earlier
one asked for still wait on the server. Every client numbers its requests from the same id on, and
takes any answer with the id of its pending request for the answer to it. So an earlier client's
answer can settle a transition that it does not belong to (`Tenure.handover_misleads`). Where no
answer with the id was still to come when the request was sent, the transition is settled by the
answer to this request and by no other (`Tenure.run_fares`).
-/

namespace SharedWorld

namespace Server

variable {server found : Server} {seen earlier : List Dispatch} {me : Identity} {id : RequestId}

/-! ## Who was answered -/

/-- The books of a server, with all that may come to a participant. -/
structure Books (seen : List Dispatch) (server : Server) : Prop where
  orderly : server.Orderly seen
  /-- A request that is no move is not dispatched without being answered. -/
  at_once : ∀ dispatch ∈ seen, dispatch.move = none → dispatch.listener ∈ server.answered
  proper : server.Proper
  separate : server.registry.SeparateMailboxes

/-- The books of a new server are empty. -/
theorem new_books (config : ServerConfig) (loader : Loader CacheKey Bundle) :
    (Server.new config loader).Books [] :=
  ⟨new_orderly config loader, nofun, new_proper config loader, Registry.separateMailboxes_empty⟩

/-- The books stay right whatever is done with a server. -/
theorem Books.act (h : server.Books seen) (action : Action) :
    (server.act action).Books (seen ++ server.dispatches action) := by
  have houtcome := act_outcome server action
  obtain ⟨replies, hreplies⟩ := houtcome.answers h.orderly
  refine ⟨houtcome.orderly h.orderly, fun dispatch hdispatch hmove => ?_,
    houtcome.proper h.orderly.builtIn h.proper, houtcome.separateMailboxes h.separate⟩
  rcases List.mem_append.mp hdispatch with hold | hnew
  · rw [hreplies]
    exact List.mem_append_left _ (h.at_once dispatch hold hmove)
  · cases action with
    | serve =>
      cases hrequests : server.requests with
      | nil =>
        rw [dispatches, hrequests] at hnew
        cases hnew
      | cons first rest =>
        rw [dispatches_eq hrequests] at hnew
        cases List.mem_singleton.mp hnew
        rw [h.orderly.answering.at_once hrequests hmove]
        exact List.mem_append_right _ List.mem_cons_self
    | _ => cases hnew

/-- The books are right in every run. -/
theorem run_books (config : ServerConfig) (loader : Loader CacheKey Bundle)
    (actions : List Action) :
    ((Server.new config loader).run actions).Books
      ((Server.new config loader).collect dispatches actions) :=
  run_collect_induction (P := Books) (fun _ _ action h => h.act action) (new_books config loader)
    actions

/-- Requests that are handed in change nothing but the queue. -/
theorem Books.submit (h : server.Books seen) (caller : Identity) (requests : List Request) :
    (server.submit caller requests).Books seen := by
  rw [submit_eq]
  exact ⟨⟨h.orderly.builtIn, h.orderly.dispatched, h.orderly.tidy, h.orderly.accounted⟩, h.at_once,
    h.proper, h.separate⟩

/-- If nothing is owed to the requests of a caller with some id, the answers to those that were
dispatched were carried out. -/
theorem Books.mem_carried (h : server.Books seen) (howing : server.owing me id = 0)
    {dispatch : Dispatch} (hdispatch : dispatch ∈ seen)
    (hmine : dispatch.listener.isOf me id = true) :
    dispatch.listener ∈ Effect.answered server.journal := by
  obtain ⟨⟨-, hpipeline⟩, hanswers⟩ : (countOf me id server.requests = 0 ∧
      server.simulation.pipeline.owing (·.isOf me id) = 0) ∧
        server.world.answered.countP (·.isOf me id) = 0 := by
    rw [owing] at howing
    omega
  have hanswered : dispatch.listener ∈ server.answered := by
    cases hmove : dispatch.move with
    | none => exact h.at_once dispatch hdispatch hmove
    | some move =>
      have hlistener := h.orderly.accounted.listener_eq hdispatch hmove
      have hbegun : move ∈ begunFor seen move.entity :=
        Accounted.mem_begunFor_iff.mpr ⟨rfl, dispatch, hdispatch, hmove⟩
      rw [← hlistener] at hmine ⊢
      refine h.orderly.accounted.answered_of_begun hbegun fun hwaits => ?_
      rw [Pipeline.owing_eq _ move.entity] at hpipeline
      exact List.countP_eq_zero.mp (Nat.eq_zero_of_add_eq_zero_right hpipeline) _
        (List.mem_map_of_mem hwaits) hmine
  exact (List.mem_append.mp hanswered).resolve_right fun hrecorded =>
    List.countP_eq_zero.mp hanswers _ hrecorded hmine

/-! ## In what order the requests came -/

/-- Who has handed in a request so far, with the id of the request, the first one first. -/
def lined (seen : List Dispatch) (server : Server) : List (Identity × RequestId) :=
  seen.map (fun dispatch => (dispatch.listener.caller, dispatch.listener.request)) ++
    server.requests.map fun (caller, request) => (caller, request.request)

/-- The listener of the request that is handed in next, if it has the given caller and id. -/
def nextListener (server : Server) (caller : Identity) (id : RequestId) : Listener :=
  ⟨caller, id, server.router.dispatched + server.requests.length⟩

/-- Everyone who was dispatched or still waits to be stands in line. -/
theorem length_lined (h : server.Orderly seen) :
    (lined seen server).length = server.router.dispatched + server.requests.length := by
  rw [lined, List.length_append, List.length_map, List.length_map, h.dispatched]

/-- Whoever hands a request in stands in line behind the others. -/
theorem lined_act (seen : List Dispatch) (server : Server) (action : Action) :
    lined (seen ++ server.dispatches action) (server.act action) =
      lined seen server ++
        (server.arrivals action).map fun (caller, request) => (caller, request.request) := by
  have hserved : (server.dispatches action).map
      (fun dispatch => (dispatch.listener.caller, dispatch.listener.request)) =
        (server.servings action).map fun (caller, request) => (caller, request.request) := by
    cases action with
    | serve =>
      rw [dispatches, servings]
      cases server.requests with
      | nil => rfl
      | cons first rest => rfl
    | _ => rfl
  have hqueue := congrArg (List.map fun entry : Identity × Request => (entry.1, entry.2.request))
    (act_outcome server action).requests_eq
  rw [List.map_append, List.map_append] at hqueue
  rw [lined, lined, List.map_append, hserved, List.append_assoc, List.append_assoc]
  exact congrArg (_ ++ ·) hqueue.symm

/-- Whoever hands requests in stands in line behind the others. -/
theorem lined_submit (seen : List Dispatch) (server : Server) (caller : Identity)
    (requests : List Request) :
    lined seen (server.submit caller requests) =
      lined seen server ++ requests.map fun request => (caller, request.request) := by
  rw [submit_eq, lined, lined, List.map_append, List.map_map, List.append_assoc]
  rfl

/-- The number of a dispatch is its place in the line. -/
theorem getElem?_lined (h : server.Orderly seen) {place : Nat} {dispatch : Dispatch}
    (hplace : seen[place]? = some dispatch) :
    dispatch.listener = ⟨dispatch.listener.caller, dispatch.listener.request, place⟩ ∧
      (lined seen server)[place]? =
        some (dispatch.listener.caller, dispatch.listener.request) := by
  have hlength := (List.getElem?_eq_some_iff.mp hplace).1
  have hserial : dispatch.listener.serial = place := by
    have hserials := congrArg (·[place]?) h.accounted.serials
    simpa [hplace, List.getElem?_range hlength] using hserials
  refine ⟨by rw [← hserial], ?_⟩
  rw [lined, List.getElem?_append_left (by rwa [List.length_map]), List.getElem?_map, hplace]
  rfl

/-- Who stands in line and is owed nothing, was dispatched. -/
theorem exists_dispatch (howing : server.owing me id = 0) {place : Nat}
    (hplace : (lined seen server)[place]? = some (me, id)) :
    ∃ dispatch, seen[place]? = some dispatch ∧ dispatch.listener.caller = me ∧
      dispatch.listener.request = id := by
  rcases Nat.lt_or_ge place seen.length with hdispatched | hqueued
  · rw [lined, List.getElem?_append_left (by rwa [List.length_map]), List.getElem?_map] at hplace
    obtain ⟨dispatch, hget, heq⟩ := Option.map_eq_some_iff.mp hplace
    exact ⟨dispatch, hget, congrArg Prod.fst heq, congrArg Prod.snd heq⟩
  · rw [lined, List.getElem?_append_right (by rwa [List.length_map]), List.getElem?_map] at hplace
    obtain ⟨⟨caller, request⟩, hget, heq⟩ := Option.map_eq_some_iff.mp hplace
    have hnone : countOf me id server.requests = 0 := by
      rw [owing] at howing
      omega
    have hcount := List.countP_eq_zero.mp hnone _ (List.mem_of_getElem? hget)
    cases heq
    simp at hcount

/-- Who stands in line and is owed nothing, has had its answer. -/
theorem Books.answered_of_lined (h : server.Books seen) (howing : server.owing me id = 0)
    {place : Nat} (hplace : (lined seen server)[place]? = some (me, id)) :
    ⟨me, id, place⟩ ∈ Effect.answered server.journal := by
  obtain ⟨dispatch, hdispatch, hcaller, hid⟩ := exists_dispatch howing hplace
  obtain ⟨hlistener, -⟩ := getElem?_lined h.orderly hdispatch
  rw [hcaller, hid] at hlistener
  have hmine : dispatch.listener.isOf me id = true := by simp [Listener.isOf, hcaller, hid]
  rw [← hlistener]
  exact h.mem_carried howing (List.mem_of_getElem? hdispatch) hmine

/-- An answer that was not owed before a request was handed in is the answer to this request, if it
goes to the same caller with the same id and the caller has handed in no other request since. -/
theorem Books.listener_eq (hfound : found.Books earlier) (h : server.Books seen)
    {later : List (Identity × RequestId)}
    (hlined : lined seen server = lined earlier found ++ (me, id) :: later)
    (hlater : ∀ entry ∈ later, entry.1 ≠ me) {carried : List Effect}
    (hjournal : server.journal = found.journal ++ carried) (howing : found.owing me id = 0)
    {listener : Listener} (hcarried : listener ∈ Effect.answered carried)
    (hcaller : listener.caller = me) (hid : listener.request = id) :
    listener = found.nextListener me id := by
  have honce := h.orderly.accounted.once
  rw [answered, hjournal, Effect.answered_append] at honce
  have hanswered : listener ∈ server.answered := by
    rw [answered, hjournal, Effect.answered_append]
    exact List.mem_append_left _ (List.mem_append_right _ hcarried)
  obtain ⟨dispatch, hdispatch, rfl⟩ := h.orderly.accounted.known hanswered
  obtain ⟨place, hplace⟩ := List.mem_iff_getElem?.mp hdispatch
  obtain ⟨hlistener, hentry⟩ := getElem?_lined h.orderly hplace
  rw [hcaller, hid] at hlistener hentry
  rw [hlined] at hentry
  rcases Nat.lt_trichotomy place (lined earlier found).length with hbefore | hself | hafter
  · -- the request had been handed in before, so it had been answered, and is not answered again
    rw [List.getElem?_append_left hbefore] at hentry
    have hfirst := hfound.answered_of_lined howing hentry
    rw [← hlistener] at hfirst
    exact absurd hcarried (List.disjoint_of_nodup_append (List.nodup_append.mp honce).1 hfirst)
  · rw [hlistener, hself, length_lined hfound.orderly]
    rfl
  · obtain ⟨ahead, rfl⟩ := Nat.exists_eq_add_of_lt hafter
    rw [List.getElem?_append_right (by omega), Nat.add_assoc, Nat.add_sub_cancel_left,
      List.getElem?_cons_succ] at hentry
    exact absurd rfl (hlater _ (List.mem_of_getElem? hentry))

end Server

open ClientEffect (verdicts)

/-! ## One client after the other -/

/-- A client of a participant at its connection. -/
structure Tenure where
  link : Link
  /-- The link as the last request of the client found it. -/
  found : Link

namespace Tenure

/-- What can happen to the clients of a participant and to their server. -/
inductive Event where
  /-- Something happens to the server. -/
  | acts (action : Server.Action)
  /-- The client is asked for a transition. -/
  | asks (target : MoveTarget) (observer : Option String) (send : Request → Option Fault)
  /-- The client handles the message that was read first. -/
  | hears (send : Request → Option Fault)
  /-- The client is told that its connection is lost. -/
  | loses
  /-- Somebody observes the client's membership. -/
  | watches (observer : String)
  /-- A new client of the participant connects, and takes the place of the client. -/
  | succeeds (now : Instant) (connection : ConnectionId) (capacity : Option Nat)

/-- A new client, which connects to a server. -/
def start (server : Server) (now : Instant) (connection : ConnectionId) (me : Identity)
    (capacity : Option Nat) : Tenure :=
  let link : Link := {
    me := me
    connection := connection
    mailbox := server.registry.mailboxes.length
    server := server.act (.connect now connection me capacity)
    wire := []
    client := .new me }
  ⟨link, link⟩

/-- The client does something about an event, and hands its requests to the server. The messages on
the wire are left for it. -/
def react (tenure : Tenure) (event : Client.Event) (wire : List ServerMessage) : Tenure :=
  let step := tenure.link.client.react event
  { link := { tenure.link with wire := wire }.take step
    found := if ClientEffect.requests step.effects = [] then tenure.found else tenure.link }

/-- What comes after an event. -/
def step (tenure : Tenure) : Event → Tenure
  | .acts action => { tenure with link := tenure.link.step (.acts action) }
  | .asks target observer send => tenure.react (.asks target observer send) tenure.link.wire
  | .hears send =>
    match tenure.link.wire with
    | [] => tenure
    | message :: rest => tenure.react (.hears message send) rest
  | .loses => tenure.react .loses tenure.link.wire
  | .watches observer => tenure.react (.watches observer) tenure.link.wire
  | .succeeds now connection capacity =>
    start tenure.link.server now connection tenure.link.me capacity

/-- What comes after a list of events. -/
def run (tenure : Tenure) (events : List Event) : Tenure := events.foldl step tenure

/-- What the client does to its surroundings in an event. -/
def effects (tenure : Tenure) : Event → List ClientEffect
  | .asks target observer send => (tenure.link.client.react (.asks target observer send)).effects
  | .hears send =>
    match tenure.link.wire with
    | [] => []
    | message :: _ => (tenure.link.client.react (.hears message send)).effects
  | .loses => (tenure.link.client.react .loses).effects
  | .acts _ | .watches _ | .succeeds .. => []

/-- No request of the participant comes from elsewhere. -/
def Allows (tenure : Tenure) : Event → Prop
  | .acts action => ∀ arrival ∈ tenure.link.server.arrivals action, arrival.1 ≠ tenure.link.me
  | _ => True

/-- All events of the list are allowed, each in the state it finds. -/
def Goes (tenure : Tenure) : List Event → Prop
  | [] => True
  | event :: rest => tenure.Allows event ∧ (tenure.step event).Goes rest

instance (tenure : Tenure) (event : Event) : Decidable (tenure.Allows event) :=
  match event with
  | .acts _ => List.decidableBAll _ _
  | .asks .. | .hears _ | .loses | .watches _ | .succeeds .. => .isTrue trivial

instance decidableGoes (tenure : Tenure) (events : List Event) : Decidable (tenure.Goes events) :=
  match events with
  | [] => .isTrue trivial
  | event :: rest =>
    have := decidableGoes (tenure.step event) rest
    inferInstanceAs (Decidable (tenure.Allows event ∧ (tenure.step event).Goes rest))

variable {tenure : Tenure} {pending : PendingTransition}

/-- What the server has carried out since the client sent its last request. -/
def carried (tenure : Tenure) : List Effect :=
  tenure.link.server.journal.drop tenure.found.server.journal.length

/-- Whom the answer to the last request of the client is for. -/
def asker (tenure : Tenure) (pending : PendingTransition) : Listener :=
  tenure.found.server.nextListener tenure.link.me pending.request

/-- How many answers with the given id were still to come to the participant when the client sent
its last request. -/
def overdue (tenure : Tenure) (id : RequestId) : Nat :=
  tenure.found.server.owing tenure.link.me id + tenure.found.delivered.countP (·.answers id)

/-! ## What is kept -/

/-- The client has sent a request with the given id, and no other one since. -/
structure Awaits (tenure : Tenure) (id : RequestId) : Prop where
  lined : ∃ earlier seen later, tenure.found.server.Books earlier ∧
    tenure.link.server.Books seen ∧
      Server.lined seen tenure.link.server =
        Server.lined earlier tenure.found.server ++ (tenure.link.me, id) :: later ∧
      ∀ entry ∈ later, entry.1 ≠ tenure.link.me
  journal : tenure.link.server.journal = tenure.found.server.journal ++ tenure.carried
  /-- What the client has not heard yet was there already, or was carried out since. -/
  heard : ∀ {response}, .response response ∈ tenure.link.delivered →
    .response response ∈ tenure.found.delivered ∨
      .response response ∈ Effect.heardBy tenure.link.me tenure.carried

/-- What holds of all clients of a participant that has no other way to hand in requests. -/
structure Sound (tenure : Tenure) : Prop where
  books : ∃ seen, tenure.link.server.Books seen
  reserves : tenure.link.server.registry.Reserves tenure.link.me tenure.link.mailbox
  awaits : ∀ {pending}, tenure.link.client.pending = some pending → tenure.Awaits pending.request

/-- A tenure that starts is sound. -/
theorem start_sound {server : Server} {seen : List Server.Dispatch} (h : server.Books seen)
    (now : Instant) (connection : ConnectionId) (me : Identity) (capacity : Option Nat) :
    (start server now connection me capacity).Sound where
  books := ⟨_, h.act (.connect now connection me capacity)⟩
  reserves :=
    (Registry.opens_connect h.separate.labeled now connection me capacity).reserves h.separate
  awaits := nofun

/-- What an action carries out comes behind what was carried out before. -/
theorem Awaits.carried_acts {id : RequestId} (h : tenure.Awaits id) (action : Server.Action) :
    (tenure.step (.acts action)).carried =
      tenure.carried ++ tenure.link.server.carries action := by
  have hjournal := (Server.act_outcome tenure.link.server action).journal_eq
  change (tenure.link.server.act action).journal.drop tenure.found.server.journal.length = _
  rw [hjournal, h.journal, List.append_assoc, List.drop_left]

/-- Orders to move are no responses. -/
theorem response_mem_sends {server : Server} {me : Identity} {action : Server.Action}
    {response : Response} (h : .response response ∈ server.sends me action) :
    .response response ∈ Effect.heardBy me (server.carries action) := by
  cases action with
  | order identity zone scene =>
    rw [Server.sends] at h
    split at h
    · cases List.mem_singleton.mp h
    · cases h
  | _ => exact h

/-- A response comes to the client's connection as an answer that is carried out. -/
theorem Sound.delivered_acts (h : tenure.Sound) {action : Server.Action} {response : Response}
    (hresponse : .response response ∈ (tenure.step (.acts action)).link.delivered) :
    .response response ∈ tenure.link.delivered ∨
      .response response ∈
        Effect.heardBy tenure.link.me (tenure.link.server.carries action) := by
  obtain ⟨seen, hbooks⟩ := h.books
  have hsubset := (Server.act_outcome tenure.link.server action).inbox_subset hbooks.separate
    h.reserves tenure.link.connection
  change _ ∈ (tenure.link.wire ++ _) ++ _ at hresponse
  rw [List.append_assoc] at hresponse
  rcases List.mem_append.mp hresponse with hwire | hbox
  · exact .inl (List.mem_append_left _ hwire)
  · rcases List.mem_append.mp (hsubset hbox) with hinbox | hsent
    · exact .inl (List.mem_append_right _ hinbox)
    · exact .inr (response_mem_sends hsent)

/-- Whatever the server does, the client has still sent the same request. -/
theorem Sound.acts (h : tenure.Sound) {action : Server.Action}
    (hallows : tenure.Allows (.acts action)) : (tenure.step (.acts action)).Sound := by
  obtain ⟨seen, hbooks⟩ := h.books
  have houtcome := Server.act_outcome tenure.link.server action
  refine ⟨⟨_, hbooks.act action⟩, houtcome.reserves hbooks.separate h.reserves,
    fun {pending} hpending => ?_⟩
  have hawaits := h.awaits hpending
  obtain ⟨earlier, seen, later, hearlier, hbooks, hlined, hlater⟩ := hawaits.lined
  have hcarried := hawaits.carried_acts action
  have hline := Server.lined_act seen tenure.link.server action
  rw [hlined, List.append_assoc, List.cons_append] at hline
  refine ⟨⟨earlier, _, _, hearlier, hbooks.act action, hline, fun entry hentry => ?_⟩, ?_,
    fun {response} hresponse => ?_⟩
  · rcases List.mem_append.mp hentry with hold | hnew
    · exact hlater entry hold
    · obtain ⟨arrival, harrival, rfl⟩ := List.mem_map.mp hnew
      exact hallows arrival harrival
  · rw [hcarried, ← List.append_assoc]
    exact houtcome.journal_eq.trans (congrArg (· ++ _) hawaits.journal)
  · rw [hcarried, Effect.heardBy_append]
    rcases h.delivered_acts hresponse with hold | hnew
    · exact (hawaits.heard hold).imp_right (List.mem_append_left _)
    · exact .inr (List.mem_append_right _ hnew)

/-- Messages that are handled are not to be heard any more. -/
theorem mem_delivered {link : Link} {wire : List ServerMessage} {message : ServerMessage}
    (hwire : wire ⊆ link.wire) (h : message ∈ Link.delivered { link with wire := wire }) :
    message ∈ link.delivered :=
  (List.mem_append.mp h).elim (fun hmem => List.mem_append_left _ (hwire hmem))
    (List.mem_append_right _)

/-- A client that sends nothing waits for nothing new. -/
theorem Sound.quiet (h : tenure.Sound) {client : Client} {wire : List ServerMessage}
    (hpending : ∀ {pending}, client.pending = some pending →
      tenure.link.client.pending = some pending)
    (hwire : wire ⊆ tenure.link.wire) :
    Sound { tenure with link := { tenure.link with client := client, wire := wire } } where
  books := h.books
  reserves := h.reserves
  awaits {pending} hafter := by
    have hawaits := h.awaits (hpending hafter)
    exact ⟨hawaits.lined, hawaits.journal,
      fun {response} hresponse => hawaits.heard (mem_delivered hwire hresponse)⟩

/-- The request that a client sends is the last one. -/
theorem Sound.sends (h : tenure.Sound) {client : Client} {wire : List ServerMessage}
    {request : Request} (hpending : ∀ {pending}, client.pending = some pending →
      request.request = pending.request)
    (hwire : wire ⊆ tenure.link.wire) :
    Sound ⟨{ tenure.link with
        client := client
        wire := wire
        server := tenure.link.server.submit tenure.link.me [request] }, tenure.link⟩ := by
  obtain ⟨seen, hbooks⟩ := h.books
  have hsubmit := hbooks.submit tenure.link.me [request]
  refine ⟨⟨seen, hsubmit⟩, ?_, fun {pending} hafter => ?_⟩
  · rw [Server.submit_eq]
    exact h.reserves
  · have hlined := Server.lined_submit seen tenure.link.server tenure.link.me [request]
    rw [List.map_singleton, hpending hafter] at hlined
    refine ⟨⟨seen, seen, [], hbooks, hsubmit, hlined, nofun⟩, ?_, fun {response} hresponse => ?_⟩
    · simp only [carried, Server.submit_eq, List.drop_length, List.append_nil]
    · simp only [Link.delivered, Server.submit_eq] at hresponse
      exact .inl (mem_delivered hwire hresponse)

/-- Whatever the client has to deal with, it waits for the answer to its last request or for no
answer. -/
theorem Sound.react (h : tenure.Sound) (event : Client.Event) {wire : List ServerMessage}
    (hwire : wire ⊆ tenure.link.wire) : (tenure.react event wire).Sound := by
  have hreaction := tenure.link.client.react_reaction event
  unfold Tenure.react
  dsimp only [Link.take]
  generalize ClientEffect.requests (tenure.link.client.react event).effects = requests
    at hreaction ⊢
  generalize (tenure.link.client.react event).client = client at hreaction ⊢
  cases hreaction with
  | stays same => exact h.quiet (fun hafter => by rwa [same] at hafter) hwire
  | @asks pending asked =>
    exact h.sends (fun {pending'} hafter => by cases asked.symm.trans hafter; rfl) hwire
  | settles settled => exact h.quiet (fun hafter => nomatch settled.symm.trans hafter) hwire
  | arrives settled => exact h.quiet (fun hafter => nomatch settled.symm.trans hafter) hwire

/-- A tenure stays sound in every event that it allows. -/
theorem Sound.step (h : tenure.Sound) {event : Event} (hallows : tenure.Allows event) :
    (tenure.step event).Sound := by
  cases event with
  | acts action => exact h.acts hallows
  | asks target observer send => exact h.react _ (List.Subset.refl _)
  | hears send =>
    cases hwire : tenure.link.wire with
    | nil =>
      simp only [Tenure.step, hwire]
      exact h
    | cons message rest =>
      have hrest : rest ⊆ tenure.link.wire := by
        rw [hwire]
        exact List.subset_cons_self message rest
      simp only [Tenure.step, hwire]
      exact h.react _ hrest
  | loses => exact h.react _ (List.Subset.refl _)
  | watches observer => exact h.react _ (List.Subset.refl _)
  | succeeds now connection capacity =>
    obtain ⟨seen, hbooks⟩ := h.books
    exact start_sound hbooks now connection tenure.link.me capacity

/-- A tenure stays sound in every run that it allows. -/
theorem Sound.run (h : tenure.Sound) {events : List Event} (hgoes : tenure.Goes events) :
    (tenure.run events).Sound := by
  induction events generalizing tenure with
  | nil => exact h
  | cons event rest ih => exact ih (h.step hgoes.1) hgoes.2

/-! ## What settles a transition -/

/-- How a pending transition fares in an event. -/
inductive Fares (tenure : Tenure) (pending : PendingTransition) : Event → Prop where
  /-- It is pending still, nobody is told of an outcome, and the client stays where it was. -/
  | waits {event : Event} (waits : (tenure.step event).link.client.pending = some pending)
    (silent : verdicts (tenure.effects event) = [])
    (stays : (tenure.step event).link.client.location = tenure.link.client.location) :
    Fares tenure pending event
  /-- The client handles the answer to its request. The server has carried this answer out since the
  request was sent, and no other one that goes to the participant with the id of the request. The
  transition is over then, and its observer was told. -/
  | settles {send : Request → Option Fault} {answer : Answer} {rest : List ServerMessage}
    (heard : tenure.link.wire = (tenure.asker pending).response answer :: rest)
    (answered : .answer (tenure.asker pending) answer ∈ tenure.carried)
    (only : ∀ {listener result}, .answer listener result ∈ tenure.carried →
      listener.caller = tenure.link.me → listener.request = pending.request →
      listener = tenure.asker pending)
    (done : (tenure.step (.hears send)).link.client.pending = none)
    (told : verdicts (tenure.effects (.hears send)) = [pending.party]) :
    Fares tenure pending (.hears send)
  /-- The connection is lost, and the observer is told so. The client stays where it was. -/
  | loses (told : tenure.effects .loses =
      [.failed pending.observer pending.target (.transport "connection lost")])
    (stays : (tenure.step .loses).link.client.location = tenure.link.client.location) :
    Fares tenure pending .loses
  /-- The client is replaced. -/
  | succeeds {now : Instant} {connection : ConnectionId} {capacity : Option Nat} :
    Fares tenure pending (.succeeds now connection capacity)

/-- Only an answer with the id of its request and the loss of the connection do anything about a
pending transition. -/
theorem react_stays {client : Client} (hpending : client.pending = some pending)
    (event : Client.Event) (hloses : event ≠ .loses)
    (hresponse : ∀ answer send, event ≠ .hears (.response ⟨pending.request, answer⟩) send) :
    (client.react event).client.pending = some pending ∧
      verdicts (client.react event).effects = [] ∧
        (client.react event).client.location = client.location := by
  have hrefused : ∀ send target observer,
      (client.requestTransition send target observer).2 = { client := client } := by
    intro send target observer
    simp only [Client.requestTransition, hpending]
  have hsame : ∀ {step : ClientStep}, step = { client := client } →
      step.client.pending = some pending ∧ verdicts step.effects = [] ∧
        step.client.location = client.location := by
    rintro _ rfl
    exact ⟨hpending, rfl, rfl⟩
  cases event with
  | asks target observer send => exact hsame (hrefused send target observer)
  | hears message send =>
    cases message with
    | response response =>
      refine hsame (Client.handleResponse_of_ne fun heq => ?_)
      rw [hpending, Option.map_some, Option.some.injEq] at heq
      exact hresponse response.answer send (by rw [heq])
    | occupants place delta => exact ⟨hpending, ClientEffect.verdicts_membership _, rfl⟩
    | forcedMove zone scene => exact hsame (hrefused send ⟨zone, scene, 0⟩ none)
  | loses => exact absurd rfl hloses
  | watches observer => exact ⟨hpending, rfl, rfl⟩

/-- To hear is to react to the next message on the wire. -/
theorem step_hears {message : ServerMessage} {rest : List ServerMessage}
    (hwire : tenure.link.wire = message :: rest) (send : Request → Option Fault) :
    tenure.step (.hears send) = tenure.react (.hears message send) rest := by
  simp only [step, hwire]

/-- An answer with the id of its request ends a pending transition, and its observer is told. -/
theorem react_settles {client : Client} (hpending : client.pending = some pending)
    (answer : Answer) (send : Request → Option Fault) :
    (client.react (.hears (.response ⟨pending.request, answer⟩) send)).client.pending = none ∧
      verdicts (client.react (.hears (.response ⟨pending.request, answer⟩) send)).effects =
        [pending.party] := by
  have hreact : client.react (.hears (.response ⟨pending.request, answer⟩) send) =
      { client with pending := none }.settle pending answer :=
    Client.handleResponse_of_pending hpending answer
  have hover : ({ client with pending := none }.settle pending answer).client.pending = none := by
    cases answer with
    | failure fault => rfl
    | success reply =>
      cases reply with
      | _ => rfl
  have htold := (Client.settle_turn hpending answer).verdicts_eq
  rw [hreact]
  rw [hover, hpending, if_neg (Option.some_ne_none pending).symm] at htold
  exact ⟨hover, htold⟩

/-- The answer with the id of the last request is the answer to it, if no other one was to come. -/
theorem Awaits.settles (h : tenure.Awaits pending.request) (hproper : tenure.link.server.Proper)
    (hpending : tenure.link.client.pending = some pending)
    (hclear : tenure.overdue pending.request = 0) {answer : Answer} {rest : List ServerMessage}
    (hwire : tenure.link.wire = .response ⟨pending.request, answer⟩ :: rest)
    (send : Request → Option Fault) : tenure.Fares pending (.hears send) := by
  obtain ⟨earlier, seen, later, hearlier, hbooks, hlined, hlater⟩ := h.lined
  obtain ⟨howing, hcount⟩ := Nat.add_eq_zero_iff.mp hclear
  have hmine : ∀ {listener result}, Effect.answer listener result ∈ tenure.carried →
      listener.caller = tenure.link.me → listener.request = pending.request →
      listener = tenure.asker pending := by
    intro listener result hmem
    exact hearlier.listener_eq hbooks hlined hlater h.journal howing
      (List.mem_filterMap.mpr ⟨_, hmem, rfl⟩)
  have hnext : .response ⟨pending.request, answer⟩ ∈ tenure.link.wire := by
    rw [hwire]
    exact List.mem_cons_self
  have hdelivered : .response ⟨pending.request, answer⟩ ∈ tenure.link.delivered :=
    List.mem_append_left _ hnext
  have hheard := (h.heard hdelivered).resolve_left fun hfound => by
    have hnone := List.countP_eq_zero.mp hcount _ hfound
    simp [ServerMessage.answers] at hnone
  have hcarried : ∀ effect ∈ tenure.carried, effect.Proper :=
    fun effect hmem => hproper.1 effect (List.mem_of_mem_drop hmem)
  obtain ⟨listener, result, hmem, hcaller, heq⟩ := Effect.exists_answer hcarried hheard
  obtain ⟨hid, rfl⟩ := Response.mk.inj (ServerMessage.response.inj heq)
  have hself := hmine hmem hcaller hid.symm
  rw [hself] at hmem
  obtain ⟨hover, htold⟩ := react_settles hpending answer send
  refine .settles hwire hmem hmine ?_ ?_
  · rw [step_hears hwire]
    exact hover
  · simp only [effects, hwire]
    exact htold

/-- A message that the client handles settles its transition or does nothing about it. -/
theorem Sound.fares_hears (h : tenure.Sound) (hpending : tenure.link.client.pending = some pending)
    (hclear : tenure.overdue pending.request = 0) {message : ServerMessage}
    {rest : List ServerMessage} (hwire : tenure.link.wire = message :: rest)
    (send : Request → Option Fault) : tenure.Fares pending (.hears send) := by
  by_cases hanswers : ∃ answer, message = .response ⟨pending.request, answer⟩
  · obtain ⟨answer, rfl⟩ := hanswers
    obtain ⟨seen, hbooks⟩ := h.books
    exact (h.awaits hpending).settles hbooks.proper hpending hclear hwire send
  · have hstale : ∀ answer send', Client.Event.hears message send ≠
        .hears (.response ⟨pending.request, answer⟩) send' :=
      fun answer send' heq => hanswers ⟨answer, (Client.Event.hears.inj heq).1⟩
    obtain ⟨hwaits, hsilent, hstays⟩ := react_stays hpending (.hears message send) nofun hstale
    refine .waits ?_ ?_ ?_
    · rw [step_hears hwire]
      exact hwaits
    · simp only [effects, hwire]
      exact hsilent
    · rw [step_hears hwire]
      exact hstays

/-- An event does nothing about a pending transition, or ends it in one of the listed ways. -/
theorem Sound.fares (h : tenure.Sound) (hpending : tenure.link.client.pending = some pending)
    (hclear : tenure.overdue pending.request = 0) (event : Event) :
    tenure.Fares pending event := by
  cases event with
  | acts action => exact .waits hpending rfl rfl
  | asks target observer send =>
    obtain ⟨hwaits, hsilent, hstays⟩ :=
      react_stays hpending (.asks target observer send) nofun nofun
    exact .waits hwaits hsilent hstays
  | hears send =>
    cases hwire : tenure.link.wire with
    | nil =>
      have hstep : tenure.step (.hears send) = tenure := by simp only [Tenure.step, hwire]
      refine .waits ?_ ?_ ?_
      · rw [hstep, hpending]
      · simp only [effects, hwire]
        rfl
      · rw [hstep]
    | cons message rest => exact h.fares_hears hpending hclear hwire send
  | loses =>
    have hreact : tenure.link.client.react .loses =
        ⟨{ tenure.link.client with pending := none },
          [.failed pending.observer pending.target (.transport "connection lost")]⟩ := by
      simp only [Client.react, Client.connectionLost, hpending]
    refine .loses (congrArg ClientStep.effects hreact) ?_
    exact congrArg (fun step : ClientStep => step.client.location) hreact
  | watches observer => exact .waits hpending rfl rfl
  | succeeds now connection capacity => exact .succeeds

/-- Whatever happens to a server and to the clients of a participant, one after the other, and
whatever has happened to the server before: a pending transition is pending until its client handles
the server's answer to its own request, or is told that the connection is lost, or is replaced. All
requests of the participant have to come from its clients, and no other answer with the id of the
request may still have been to come when the request was sent. -/
theorem run_fares (config : ServerConfig) (loader : Loader CacheKey Bundle)
    (actions : List Server.Action) (now : Instant) (connection : ConnectionId) (me : Identity)
    (capacity : Option Nat) (events : List Event) (event : Event) {tenure : Tenure}
    {pending : PendingTransition}
    (htenure : tenure =
      (start ((Server.new config loader).run actions) now connection me capacity).run events)
    (hgoes :
      (start ((Server.new config loader).run actions) now connection me capacity).Goes events)
    (hpending : tenure.link.client.pending = some pending)
    (hclear : tenure.overdue pending.request = 0) : tenure.Fares pending event := by
  have hbooks := Server.run_books config loader actions
  have hstart := start_sound hbooks now connection me capacity
  have hsound : tenure.Sound := by
    rw [htenure]
    exact hstart.run hgoes
  exact hsound.fares hpending hclear event

/-- A participant is in a scene and has asked for another one. It comes back with a new client
before it is there, and asks to return. -/
def comeback : List Event :=
  [.acts .follow, .asks ⟨1, 1, 1⟩ none fun _ => none, .acts .serve, .acts .settle,
    .acts (.advance [1]), .acts .settle, .acts (.advance [1])] ++
  List.replicate 5 (.acts .deliver) ++
  [.acts (.drain 1), .hears fun _ => none, .hears fun _ => none,
    .asks ⟨2, 2, 1⟩ none fun _ => none, .acts .serve, .succeeds 0 2 none,
    .asks ⟨1, 1, 2⟩ none fun _ => none, .acts .serve, .acts .settle, .acts (.advance [1]),
    .acts .settle, .acts (.advance [1])] ++
  List.replicate 12 (.acts .deliver) ++
  [.acts (.drain 2)] ++ List.replicate 5 (.hears fun _ => none)

/-- The new client after it has handled the answer to the old one's second request. -/
def cameBack : Tenure := (start (.new {} .town) 0 1 ⟨"ada"⟩ none).run comeback

/-- Nothing with the id of the new client's request was still to come, so it is settled by its
answer. -/
theorem cameBack_fares :
    cameBack.link.client.pending = some ⟨1, ⟨1, 1, 2⟩, none⟩ ∧
      cameBack.found.server.owing ⟨"ada"⟩ 2 = 1 ∧
      (cameBack.step (.hears fun _ => none)).link.client.location = some ⟨1, 1, 3, 2⟩ ∧
      cameBack.Fares ⟨1, ⟨1, 1, 2⟩, none⟩ (.hears fun _ => none) := by
  have hpending : cameBack.link.client.pending = some ⟨1, ⟨1, 1, 2⟩, none⟩ := by decide +kernel
  refine ⟨hpending, by decide +kernel, by decide +kernel, ?_⟩
  exact run_fares {} .town [] 0 1 ⟨"ada"⟩ none comeback _ rfl (by decide +kernel) hpending
    (by decide +kernel)

/-- A participant asks for a scene and comes back with a new client before it is there, which asks
for another scene. Its request has the id of the old one's. -/
def handover : List Event :=
  [.acts .follow, .asks ⟨1, 1, 1⟩ (some "old") fun _ => none, .acts .serve, .succeeds 0 2 none,
    .asks ⟨2, 2, 1⟩ (some "new") fun _ => none, .acts .serve,
    .acts (.report (.zone 1) (.loaded (.zone ⟨1, "town", []⟩))), .acts .settle,
    .acts (.advance [1]),
    .acts (.report (.scene 1) (.loaded (.scene ⟨1, 1, 1, "square", [⟨1, none⟩], none, []⟩))),
    .acts .settle, .acts (.advance [1])] ++
  List.replicate 6 (.acts .deliver) ++ [.acts (.drain 2), .hears fun _ => none]

/-- The new client before it handles the answer to the old one's request. -/
def handedOver : Tenure := (start (.new {} .manual) 0 1 ⟨"ada"⟩ none).run handover

/-- The new client takes the answer for the one to its own request, which nobody has answered: it
tells its observer that it is in the other scene. -/
theorem handover_misleads :
    (start (.new {} .manual) 0 1 ⟨"ada"⟩ none).Goes handover ∧
      handedOver.link.client.pending = some ⟨1, ⟨2, 2, 1⟩, some "new"⟩ ∧
      handedOver.asker ⟨1, ⟨2, 2, 1⟩, some "new"⟩ ∉ handedOver.link.server.answered ∧
      (handedOver.step (.hears fun _ => none)).link.client.pending = none ∧
      (handedOver.step (.hears fun _ => none)).link.client.location = some ⟨1, 1, 1, 1⟩ ∧
      verdicts (handedOver.effects (.hears fun _ => none)) = [(some "new", ⟨2, 2, 1⟩)] ∧
      ¬handedOver.Fares ⟨1, ⟨2, 2, 1⟩, some "new"⟩ (.hears fun _ => none) := by
  have hsettled : (handedOver.step (.hears fun _ => none)).link.client.pending = none := by
    decide +kernel
  have hunanswered : handedOver.asker ⟨1, ⟨2, 2, 1⟩, some "new"⟩ ∉
      Effect.answered handedOver.carried := by decide +kernel
  refine ⟨by decide +kernel, by decide +kernel, by decide +kernel, hsettled, by decide +kernel,
    by decide +kernel, fun hfares => ?_⟩
  cases hfares with
  | waits hwaits => cases hsettled.symm.trans hwaits
  | settles heard answered => exact hunanswered (List.mem_filterMap.mpr ⟨_, answered, rfl⟩)

end Tenure

end SharedWorld
