import SharedWorld.Proofs.Mailboxes
import SharedWorld.Proofs.News

/-!
# A client mirrors the place of its body

A client that is the only source of its participant's requests, and that handles what is sent to its
connection, knows where the participant's body is and whom it is with (`Link.run_mirrors`). The
server tells it everything (`Server.Informs`), its mailbox loses nothing
(`Server.ActOutcome.inbox_eq`), and as the client has one request pending at most, it never takes an
answer for a stale one: the server owes it the answer to its pending request and no other.
-/

namespace SharedWorld

/-- Whether a message answers a request with the given id. -/
def ServerMessage.answers (id : RequestId) : ServerMessage → Bool
  | .response ⟨request, _⟩ => request = id
  | _ => false

/-! ## What a client makes of a message -/

/-- A tracker that is reconciled shows the membership that its occupants have. -/
theorem MembershipTracker.reconcile_tracker (tracker : MembershipTracker) :
    tracker.reconcile.tracker =
      { tracker with member := tracker.occupants.hasMember tracker.me } := by
  unfold reconcile
  dsimp only
  by_cases hmember : tracker.occupants.hasMember tracker.me = tracker.member
  · rw [if_pos hmember, hmember]
  · rw [if_neg hmember]

/-- Requests go out in the order of the effects. -/
theorem ClientEffect.requests_append (first rest : List ClientEffect) :
    requests (first ++ rest) = requests first ++ requests rest := List.filterMap_append

/-- What is read off the effects does not depend on whom they tell of the membership. -/
theorem ClientEffect.filterMap_membership {β : Type} {read : ClientEffect → Option β}
    (h : ∀ notice, read (.membership notice) = none) (notices : List MembershipNotice) :
    (notices.map ClientEffect.membership).filterMap read = [] := by
  apply List.filterMap_eq_nil_iff.mpr
  intro effect hmem
  obtain ⟨notice, -, rfl⟩ := List.mem_map.mp hmem
  exact h notice

/-- Nor does it depend on the group that is subscribed to. -/
theorem Client.filterMap_changeGroup {β : Type} {read : ClientEffect → Option β}
    (hnew : ∀ group, read (.subscribed group) = none)
    (hold : ∀ group, read (.unsubscribed group) = none) (old new : Option GroupId) :
    (changeGroup old new).filterMap read = [] := by
  unfold changeGroup
  split
  · rfl
  · cases old with
    | none =>
      cases new with
      | none => rfl
      | some group => simp [hnew]
    | some group =>
      cases new with
      | none => simp [hold]
      | some group' => simp [hnew, hold]

/-- Calling observers hands no request in. -/
theorem ClientEffect.requests_membership (notices : List MembershipNotice) :
    requests (notices.map .membership) = [] := filterMap_membership (fun _ => rfl) notices

/-- Changing the group hands no request in. -/
theorem Client.requests_changeGroup (old new : Option GroupId) :
    ClientEffect.requests (changeGroup old new) = [] :=
  filterMap_changeGroup (fun _ => rfl) (fun _ => rfl) old new

namespace Client

variable {client : Client} {me : Identity}

/-- Where the client takes its participant to be, and whom it sees there. -/
def view (client : Client) : View :=
  ⟨client.location, client.membership.place, client.membership.occupants⟩

/-- How many answers to requests with the given id the client waits for. -/
def due (client : Client) (id : RequestId) : Nat :=
  if client.pending.map (·.request) = some id then 1 else 0

/-- The client follows the occupants that places publish, and knows whether the participant is
among them. -/
structure Follows (client : Client) (me : Identity) : Prop where
  collection : client.membership.collection = occupantsCollection
  me_eq : client.membership.me = me
  member : client.membership.member = client.membership.occupants.hasMember me

/-- A new client follows its own membership. -/
theorem new_follows (me : Identity) : (Client.new me).Follows me := ⟨rfl, rfl, rfl⟩

/-- A client follows its membership while its tracker stays the same. -/
theorem Follows.of_membership (h : client.Follows me) {after : Client}
    (hmembership : after.membership = client.membership) : after.Follows me := by
  constructor
  case collection => rw [hmembership, h.collection]
  case me_eq => rw [hmembership, h.me_eq]
  case member => rw [hmembership, h.member]

/-- What a client should make of the messages that it hears in a step. -/
structure Makes (client : Client) (me : Identity) (heard : List ServerMessage)
    (step : ClientStep) : Prop where
  follows : step.client.Follows me
  view_eq : step.client.view = heard.foldl View.hear client.view
  /-- It waits for the answers to all it has sent, but for those it has heard. -/
  due_eq : ∀ id, step.client.due id + heard.countP (·.answers id) =
    client.due id + (ClientEffect.requests step.effects).countP (·.request = id)

/-- A client that asks for a transition waits for its answer, if the request was sent. -/
theorem requestTransition_makes (h : client.Follows me) (send : Request → Option Fault)
    (target : MoveTarget) (observer : Option String) :
    client.Makes me [] (client.requestTransition send target observer).2 := by
  unfold requestTransition
  cases hpending : client.pending with
  | some pending => exact ⟨h, rfl, fun _ => rfl⟩
  | none =>
    dsimp only
    split
    · refine ⟨h.of_membership rfl, rfl, fun id => ?_⟩
      rw [due, due, hpending]
      rfl
    · refine ⟨h.of_membership rfl, rfl, fun id => ?_⟩
      simp only [due, hpending, Option.map_some, Option.some.injEq, Option.map_none, reduceCtorEq,
        if_false, ClientEffect.requests, List.filterMap_cons, List.filterMap_nil, List.countP_nil,
        List.countP_singleton, decide_eq_true_eq, Nat.zero_add, Nat.add_zero]

/-- A client that follows another set of occupants knows whether the participant is in it. -/
theorem follows_reconcile {after : Client} {tracker : MembershipTracker}
    (hafter : after.membership = tracker.reconcile.tracker)
    (hcollection : tracker.collection = occupantsCollection) (hme : tracker.me = me) :
    after.Follows me := by
  rw [MembershipTracker.reconcile_tracker] at hafter
  constructor
  case collection => rw [hafter, hcollection]
  case me_eq => rw [hafter, hme]
  case member => rw [hafter, hme]

/-- A client that is told of a change among the occupants applies it if it is about its place. -/
theorem handleOccupants_makes (h : client.Follows me) (send : Request → Option Fault)
    (place : PlaceId) (delta : OccupantDelta) :
    client.Makes me [.occupants place delta]
      (client.handleMessage send (.occupants place delta)) := by
  have hrequests : ClientEffect.requests
      (client.handleMessage send (.occupants place delta)).effects = [] :=
    ClientEffect.requests_membership _
  have hdue : ∀ id, (client.handleMessage send (.occupants place delta)).client.due id + 0 =
      client.due id + (ClientEffect.requests
        (client.handleMessage send (.occupants place delta)).effects).countP (·.request = id) := by
    intro id
    rw [hrequests]
    rfl
  have hmembership : (client.handleMessage send (.occupants place delta)).client.membership =
      (client.membership.apply place delta).tracker := rfl
  have hview : (client.handleMessage send (.occupants place delta)).client.view =
      ⟨client.location, (client.membership.apply place delta).tracker.place,
        (client.membership.apply place delta).tracker.occupants⟩ := rfl
  by_cases hhere : client.membership.place = some place ∧
      delta.collection = client.membership.collection
  · rw [MembershipTracker.apply, if_pos hhere] at hmembership hview
    refine ⟨follows_reconcile hmembership h.collection h.me_eq, ?_, hdue⟩
    rw [hview, MembershipTracker.reconcile_tracker]
    rw [h.collection] at hhere
    exact (if_pos hhere).symm
  · rw [MembershipTracker.apply, if_neg hhere] at hmembership hview
    refine ⟨h.of_membership hmembership, ?_, hdue⟩
    rw [hview]
    rw [h.collection] at hhere
    exact (if_neg hhere).symm

/-- The answer to the pending request settles the transition. -/
theorem handleResponse_of_pending {pending : PendingTransition}
    (h : client.pending = some pending) (answer : Answer) :
    client.handleResponse ⟨pending.request, answer⟩ =
      { client with pending := none }.settle pending answer := by
  simp only [handleResponse, h, if_true]

/-- A client that hears the answer to its pending request is told where it is, if the request was
granted. -/
theorem handleResponse_makes (h : client.Follows me) (response : Response)
    (hpending : client.pending.map (·.request) = some response.request) :
    client.Makes me [.response response] (client.handleResponse response) := by
  obtain ⟨pending, hsome, hrequest⟩ := Option.map_eq_some_iff.mp hpending
  obtain ⟨request, answer⟩ := response
  have hstep : client.handleResponse ⟨request, answer⟩ =
      { client with pending := none }.settle pending answer := by
    obtain rfl : pending.request = request := hrequest
    exact handleResponse_of_pending hsome answer
  have hdue : ∀ id, client.due id = if request = id then 1 else 0 := by
    intro id
    simp only [due, hpending, Option.some.injEq]
  have hsettled : ∀ {step : ClientStep}, step.client.pending = none →
      ClientEffect.requests step.effects = [] → ∀ id, step.client.due id +
        [ServerMessage.response ⟨request, answer⟩].countP (·.answers id) =
          client.due id + (ClientEffect.requests step.effects).countP (·.request = id) := by
    intro step hnone hrequests id
    rw [hrequests, hdue, due, hnone, List.countP_singleton]
    simp only [ServerMessage.answers, decide_eq_true_eq]
    exact Nat.add_comm _ _
  rw [hstep]
  cases answer with
  | failure fault => exact ⟨h.of_membership rfl, rfl, hsettled rfl rfl⟩
  | success reply =>
    cases reply with
    | ack => exact ⟨h.of_membership rfl, rfl, hsettled rfl rfl⟩
    | values values => exact ⟨h.of_membership rfl, rfl, hsettled rfl rfl⟩
    | moved reply =>
      refine ⟨follows_reconcile rfl h.collection h.me_eq, ?_, hsettled rfl ?_⟩
      · simp only [view, settle, applyMove, MembershipTracker.reset,
          MembershipTracker.reconcile_tracker, View.hear, List.foldl_cons, List.foldl_nil]
      · simp only [settle, applyMove, ClientEffect.requests_append, requests_changeGroup,
          ClientEffect.requests_membership]
        rfl

/-- A client that handles a message makes of it what it should, if it only hears the answer it waits
for. -/
theorem handleMessage_makes (h : client.Follows me) (send : Request → Option Fault)
    (message : ServerMessage)
    (hdue : ∀ id, [message].countP (·.answers id) ≤ client.due id) :
    client.Makes me [message] (client.handleMessage send message) := by
  cases message with
  | occupants place delta => exact handleOccupants_makes h send place delta
  | forcedMove zone scene =>
    have hmakes := requestTransition_makes h send ⟨zone, scene, 0⟩ none
    exact ⟨hmakes.follows, hmakes.view_eq, hmakes.due_eq⟩
  | response response =>
    have hpending : client.pending.map (·.request) = some response.request := by
      by_contra hstale
      have hone := hdue response.request
      rw [due, if_neg hstale] at hone
      simp [ServerMessage.answers] at hone
    exact handleResponse_makes h response hpending

/-- The client after it has handled messages. With each goes how the requests end that the client
sends when it handles the message. -/
def handleAll (client : Client) (handled : List (ServerMessage × (Request → Option Fault))) :
    Client :=
  handled.foldl (fun client (message, send) => (client.handleMessage send message).client) client

/-- A client that hears no answer but the one it waits for takes in all it hears. -/
theorem handleAll_view (h : client.Follows me)
    (handled : List (ServerMessage × (Request → Option Fault)))
    (hdue : ∀ id, (handled.map (·.1)).countP (·.answers id) ≤ client.due id) :
    (client.handleAll handled).Follows me ∧
      (client.handleAll handled).view = (handled.map (·.1)).foldl View.hear client.view := by
  induction handled generalizing client with
  | nil => exact ⟨h, rfl⟩
  | cons first rest ih =>
    obtain ⟨message, send⟩ := first
    have hsplit : ∀ id, (((message, send) :: rest).map (·.1)).countP (·.answers id) =
        [message].countP (·.answers id) + (rest.map (·.1)).countP (·.answers id) := by
      intro id
      rw [← List.countP_append]
      rfl
    have hmakes := handleMessage_makes h send message fun id => by
      have hcount := hdue id
      rw [hsplit] at hcount
      omega
    have hrest : ∀ id, (rest.map (·.1)).countP (·.answers id) ≤
        (client.handleMessage send message).client.due id := by
      intro id
      have hcount := hdue id
      have hstep := hmakes.due_eq id
      rw [hsplit] at hcount
      omega
    obtain ⟨hall, hseen⟩ := ih hmakes.follows hrest
    refine ⟨hall, hseen.trans ?_⟩
    rw [hmakes.view_eq]
    rfl

end Client

/-! ## A client and the server it is connected to -/

/-- Hand requests of a caller to the server. -/
def Server.submit (server : Server) (caller : Identity) (requests : List Request) : Server :=
  requests.foldl (fun server request => server.requestAs caller request) server

/-- A client at work: the server and the mailbox of the client's connection there, the messages that
were read from the mailbox and not handled yet, and the client. -/
structure Link where
  me : Identity
  connection : ConnectionId
  mailbox : Nat
  server : Server
  wire : List ServerMessage
  client : Client

namespace Link

/-- What can happen to a client and its server. -/
inductive Event where
  /-- Something happens to the server. -/
  | acts (action : Server.Action)
  /-- The client is asked for a transition. -/
  | asks (target : MoveTarget) (observer : Option String) (send : Request → Option Fault)
  /-- The client handles the message that was read first. -/
  | hears (send : Request → Option Fault)
  /-- Somebody observes the client's membership. -/
  | watches (observer : String)

/-- The link of a participant that connects to a server, with a new client. -/
def start (server : Server) (now : Instant) (connection : ConnectionId) (me : Identity) : Link where
  me := me
  connection := connection
  mailbox := server.registry.mailboxes.length
  server := server.act (.connect now connection me none)
  wire := []
  client := .new me

/-- The requests that the client has sent in a step are handed to the server. -/
def take (link : Link) (step : ClientStep) : Link :=
  { link with
    client := step.client
    server := link.server.submit link.me (ClientEffect.requests step.effects) }

/-- The link after an event. -/
def step (link : Link) : Event → Link
  | .acts action =>
    { link with
      server := link.server.act action
      wire := link.wire ++ link.server.reads link.connection link.mailbox action }
  | .asks target observer send =>
    link.take (link.client.requestTransition send target observer).2
  | .hears send =>
    match link.wire with
    | [] => link
    | message :: rest => { link with wire := rest }.take (link.client.handleMessage send message)
  | .watches observer => { link with client := link.client.watch observer }

/-- The link after a list of events. -/
def run (link : Link) (events : List Event) : Link := events.foldl step link

/-- No request of the participant comes from elsewhere, and its session stays bound to the
connection, whose mailbox stays open. -/
def Allows (link : Link) : Event → Prop
  | .acts action =>
    (∀ arrival ∈ link.server.arrivals action, arrival.1 ≠ link.me) ∧
      (link.server.act action).registry.Binds link.me link.connection link.mailbox
  | _ => True

/-- All events of the list are allowed, each in the state it finds. -/
def Goes (link : Link) : List Event → Prop
  | [] => True
  | event :: rest => link.Allows event ∧ (link.step event).Goes rest

instance (link : Link) (event : Event) : Decidable (link.Allows event) :=
  match event with
  | .acts _ => instDecidableAnd
  | .asks .. | .hears _ | .watches _ => .isTrue trivial

instance decidableGoes (link : Link) (events : List Event) : Decidable (link.Goes events) :=
  match events with
  | [] => .isTrue trivial
  | event :: rest =>
    have := decidableGoes (link.step event) rest
    inferInstanceAs (Decidable (link.Allows event ∧ (link.step event).Goes rest))

/-- The messages that were sent to the client and not handled yet. -/
def unheard (link : Link) : List ServerMessage :=
  link.wire ++ link.server.registry.inbox link.mailbox ++
    Effect.heardBy link.me link.server.world.effects

end Link

/-! ## What is kept while the link is up -/

namespace Server

variable {server : Server} {me : Identity}

/-- Requests that are handed in come behind the others. -/
theorem submit_eq (server : Server) (caller : Identity) (requests : List Request) :
    server.submit caller requests =
      { server with requests := server.requests ++ requests.map (caller, ·) } := by
  induction requests generalizing server with
  | nil =>
    rw [List.map_nil, List.append_nil]
    rfl
  | cons request rest ih =>
    refine (ih (server.requestAs caller request)).trans ?_
    rw [requestAs, List.append_assoc]
    rfl

/-- What the client sends is owed an answer. -/
theorem owing_submit (server : Server) (me : Identity) (requests : List Request)
    (id : RequestId) :
    (server.submit me requests).owing me id =
      server.owing me id + requests.countP (·.request = id) := by
  induction requests generalizing server with
  | nil => rfl
  | cons request rest ih =>
    have hrest := ih (server.requestAs me request)
    have hfirst := owing_requestAs server me request me id
    have hcount : countOf me id [(me, request)] = if request.request = id then 1 else 0 := by
      simp [countOf]
    change ((server.requestAs me request).submit me rest).owing me id = _
    rw [hrest, hfirst, hcount, List.countP_cons]
    simp only [decide_eq_true_eq]
    omega

end Server

/-- The answers among the messages that a participant hears are those to its own requests. -/
theorem Effect.countP_heardBy (me : Identity) (id : RequestId) {effects : List Effect}
    (h : ∀ effect ∈ effects, effect.Proper) :
    (Effect.heardBy me effects).countP (·.answers id) =
      (Effect.answered effects).countP (·.isOf me id) := by
  induction effects with
  | nil => rfl
  | cons effect rest ih =>
    have hrest := ih fun other hother => h other (List.mem_cons_of_mem _ hother)
    have hsplit : effect :: rest = [effect] ++ rest := rfl
    rw [hsplit, Effect.heardBy_append, Effect.answered_append, List.countP_append,
      List.countP_append, hrest]
    congr 1
    cases effect with
    | message recipient content =>
      have hproper := h _ List.mem_cons_self
      change (Effect.heardBy me [.message recipient content]).countP _ = 0
      by_cases hme : recipient = me
      · cases content with
        | response response => exact absurd rfl (hproper recipient response)
        | occupants place delta => simp [heardBy, delivery?, ServerMessage.answers, hme]
        | forcedMove zone scene => simp [heardBy, delivery?, ServerMessage.answers, hme]
      · simp [heardBy, delivery?, hme]
    | answer listener result =>
      by_cases hme : listener.caller = me
      · simp [heardBy, delivery?, answered, answer?, ServerMessage.answers, Listener.response,
          Listener.isOf, hme]
      · simp [heardBy, delivery?, answered, answer?, Listener.isOf, hme]
    | consulted policy call => rfl
    | served service layer method caller => rfl

namespace Server

variable {server : Server} {me : Identity}

/-- Requests of others do not count. -/
theorem countOf_eq_zero {arrived : List (Identity × Request)}
    (h : ∀ arrival ∈ arrived, arrival.1 ≠ me) (id : RequestId) : countOf me id arrived = 0 := by
  apply List.countP_eq_zero.mpr
  intro arrival hmem
  simp [h arrival hmem]

/-- What an action carries out was among the effects. -/
theorem mem_effects_of_carries {action : Action} {effect : Effect}
    (h : effect ∈ server.carries action) : effect ∈ server.world.effects := by
  cases action with
  | deliver => exact List.mem_of_mem_take h
  | _ => cases h

/-- Orders to move are no answers. -/
theorem countP_sends {action : Action} (h : ∀ effect ∈ server.carries action, effect.Proper)
    (me : Identity) (id : RequestId) :
    (server.sends me action).countP (·.answers id) =
      (Effect.answered (server.carries action)).countP (·.isOf me id) := by
  cases action with
  | order identity zone scene =>
    simp only [sends]
    split
    · rfl
    · rfl
  | _ => exact Effect.countP_heardBy me id h

/-- Orders to move tell nothing of the occupants. -/
theorem foldl_sends (server : Server) (me : Identity) (action : Action) (view : View) :
    (server.sends me action).foldl View.hear view = view.follow me (server.carries action) := by
  cases action with
  | order identity zone scene =>
    simp only [sends]
    split
    · rfl
    · rfl
  | _ => rfl

end Server

/-- Somebody who is told of no answer knows nothing. -/
theorem View.foldl_hear_blank {messages : List ServerMessage}
    (h : ∀ id, messages.countP (·.answers id) = 0) : messages.foldl hear blank = blank := by
  induction messages with
  | nil => rfl
  | cons message rest ih =>
    have hrest : ∀ id, rest.countP (·.answers id) = 0 := by
      intro id
      have hcount := h id
      rw [List.countP_cons] at hcount
      omega
    have hfirst : blank.hear message = blank := by
      cases message with
      | occupants place delta => exact hear_of_ne (Option.some_ne_none place).symm delta
      | forcedMove zone scene => rfl
      | response response =>
        have hcount := h response.request
        rw [List.countP_cons] at hcount
        simp [ServerMessage.answers] at hcount
    rw [List.foldl_cons, hfirst, ih hrest]

namespace Link

variable {link : Link}

/-- The messages that have come to the client's connection and were not handled yet. -/
def delivered (link : Link) : List ServerMessage :=
  link.wire ++ link.server.registry.inbox link.mailbox

/-- A client that handles what has come to its connection knows all that was carried out. -/
structure Tracks (link : Link) : Prop where
  follows : link.client.Follows link.me
  /-- The client waits for what the server owes it, and for the answers it has not handled. -/
  due_eq : ∀ id, link.server.owing link.me id + link.delivered.countP (·.answers id) =
    link.client.due id
  view_eq : link.delivered.foldl View.hear link.client.view =
    View.blank.follow link.me link.server.journal

/-- What holds as long as only allowed events happen. -/
structure Faithful (link : Link) : Prop where
  orderly : ∃ seen, link.server.Orderly seen
  informs : link.server.Informs link.me
  separate : link.server.registry.SeparateMailboxes
  binds : link.server.registry.Binds link.me link.connection link.mailbox
  tracks : link.server.world.Unwrapped → link.Tracks

/-- What the client handles and sends does not change what it should know. -/
theorem Tracks.take (h : link.Tracks) {heard wire : List ServerMessage}
    (hwire : link.wire = heard ++ wire) {step : ClientStep}
    (hmakes : link.client.Makes link.me heard step) :
    ({ link with wire := wire }.take step).Tracks := by
  have hdelivered : link.delivered = heard ++ ({ link with wire := wire }.take step).delivered := by
    simp only [delivered, hwire, Link.take, Server.submit_eq, List.append_assoc]
  constructor
  case follows => exact hmakes.follows
  case due_eq =>
    intro id
    have hbefore := h.due_eq id
    have hstep := hmakes.due_eq id
    have hsent := link.server.owing_submit link.me (ClientEffect.requests step.effects) id
    rw [hdelivered, List.countP_append] at hbefore
    change (link.server.submit link.me _).owing link.me id + _ = step.client.due id
    omega
  case view_eq =>
    have hbefore := h.view_eq
    rw [hdelivered, List.foldl_append, ← hmakes.view_eq] at hbefore
    refine hbefore.trans ?_
    simp only [Link.take, Server.submit_eq]

/-- A link stays faithful when the client handles what has come. -/
theorem Faithful.take (h : link.Faithful) {heard wire : List ServerMessage}
    (hwire : link.wire = heard ++ wire) {step : ClientStep}
    (hmakes : link.Tracks → link.client.Makes link.me heard step) :
    ({ link with wire := wire }.take step).Faithful := by
  obtain ⟨seen, horderly⟩ := h.orderly
  have htracks : link.server.world.Unwrapped → ({ link with wire := wire }.take step).Tracks :=
    fun hunwrapped => (h.tracks hunwrapped).take hwire (hmakes (h.tracks hunwrapped))
  constructor
  case orderly =>
    refine ⟨seen ++ [], ?_⟩
    simp only [Link.take, Server.submit_eq]
    exact horderly.quiet rfl rfl rfl
  case informs =>
    simp only [Link.take, Server.submit_eq]
    exact h.informs.of_same rfl rfl rfl
  case separate =>
    simp only [Link.take, Server.submit_eq]
    exact h.separate
  case binds =>
    simp only [Link.take, Server.submit_eq]
    exact h.binds
  case tracks =>
    intro hunwrapped
    apply htracks
    simp only [Link.take, Server.submit_eq] at hunwrapped
    exact hunwrapped

/-- An allowed action of the server brings no request of the participant, and what it carries out
comes to the client's connection. -/
theorem Tracks.acts (h : link.Tracks) (hfaithful : link.Faithful) {action : Server.Action}
    (hallows : link.Allows (.acts action)) (hunwrapped : link.server.world.Unwrapped) :
    (link.step (.acts action)).Tracks := by
  obtain ⟨hforeign, hbinds⟩ := hallows
  obtain ⟨seen, horderly⟩ := hfaithful.orderly
  have houtcome := Server.act_outcome link.server action
  have hinbox := houtcome.inbox_eq hfaithful.separate hfaithful.binds hbinds
  have hdelivered : (link.step (.acts action)).delivered =
      link.delivered ++ link.server.sends link.me action := by
    simp only [delivered, step, List.append_assoc, hinbox]
  have hcarried : ∀ effect ∈ link.server.carries action, effect.Proper := by
    intro effect hmem
    exact hfaithful.informs.proper hunwrapped effect
      (List.mem_append_right _ (Server.mem_effects_of_carries hmem))
  constructor
  case follows => exact h.follows
  case due_eq =>
    intro id
    have hbefore := h.due_eq id
    have howing := houtcome.owing_eq horderly.builtIn horderly.tidy link.me id
    have harrived := Server.countOf_eq_zero hforeign id
    have hsent := Server.countP_sends hcarried link.me id
    rw [hdelivered, List.countP_append]
    change (link.server.act action).owing link.me id + _ = link.client.due id
    omega
  case view_eq =>
    have hbefore := h.view_eq
    rw [hdelivered, List.foldl_append]
    change (link.server.sends link.me action).foldl View.hear
      (link.delivered.foldl View.hear link.client.view) =
        View.blank.follow link.me (link.server.act action).journal
    rw [hbefore, Server.foldl_sends, houtcome.journal_eq, View.follow_append]

/-- Every allowed event keeps the link faithful. -/
theorem Faithful.step (h : link.Faithful) {event : Event} (hallows : link.Allows event) :
    (link.step event).Faithful := by
  cases event with
  | acts action =>
    obtain ⟨seen, horderly⟩ := h.orderly
    have houtcome := Server.act_outcome link.server action
    refine ⟨⟨_, houtcome.orderly horderly⟩, houtcome.informs h.informs,
      houtcome.separateMailboxes h.separate, hallows.2, fun hunwrapped => ?_⟩
    have hbefore := (houtcome.keepsSound h.informs.builtIn).unwrapped hunwrapped
    exact (h.tracks hbefore).acts h hallows hbefore
  | asks target observer send =>
    have hmakes : link.Tracks → link.client.Makes link.me []
        (link.client.requestTransition send target observer).2 :=
      fun htracks => Client.requestTransition_makes htracks.follows send target observer
    exact h.take (List.nil_append _).symm hmakes
  | hears send =>
    cases hwire : link.wire with
    | nil =>
      simp only [Link.step, hwire]
      exact h
    | cons message rest =>
      have hmakes : link.Tracks → link.client.Makes link.me [message]
          (link.client.handleMessage send message) := by
        intro htracks
        apply Client.handleMessage_makes htracks.follows send message
        intro id
        have hdue := htracks.due_eq id
        have hsplit : link.delivered = [message] ++ (rest ++
            link.server.registry.inbox link.mailbox) := by
          rw [delivered, hwire]
          rfl
        rw [hsplit, List.countP_append] at hdue
        omega
      simp only [Link.step, hwire]
      exact h.take hwire hmakes
  | watches observer =>
    refine ⟨h.orderly, h.informs, h.separate, h.binds, fun hunwrapped => ?_⟩
    have htracks := h.tracks hunwrapped
    exact ⟨⟨htracks.follows.collection, htracks.follows.me_eq, htracks.follows.member⟩,
      htracks.due_eq, htracks.view_eq⟩

/-- A link that is faithful stays so through every run. -/
theorem Faithful.run (h : link.Faithful) {events : List Event} (hgoes : link.Goes events) :
    (link.run events).Faithful := by
  induction events generalizing link with
  | nil => exact h
  | cons event rest ih => exact ih (h.step hgoes.1) hgoes.2

end Link

namespace Server

/-- A server has no two participants that share a mailbox. -/
theorem run_lines (config : ServerConfig) (loader : Loader CacheKey Bundle)
    (actions : List Action) : ((Server.new config loader).run actions).registry.SeparateMailboxes :=
  run_induction (P := fun server => server.registry.SeparateMailboxes)
    (fun server action h => (act_outcome server action).separateMailboxes h)
    Registry.separateMailboxes_empty actions

end Server

namespace Link

/-- A link of a participant that has asked for nothing so far. -/
theorem start_faithful (config : ServerConfig) (loader : Loader CacheKey Bundle)
    (actions : List Server.Action) (now : Instant) (connection : ConnectionId) (me : Identity)
    (hsilent : ∀ arrival ∈ (Server.new config loader).collect Server.arrivals actions,
      arrival.1 ≠ me) :
    (Link.start ((Server.new config loader).run actions) now connection me).Faithful := by
  have hseparate := Server.run_lines config loader actions
  have horderly := Server.run_orderly config loader actions
  have hinforms := Server.run_informs config loader actions me
  have hconserves := fun id => (Server.run_conserves config loader actions me id).count_eq
  generalize (Server.new config loader).run actions = server at *
  have hopens := Registry.opens_connect hseparate.labeled now connection me none
  have hbox : (server.registry.connect now connection me none).2.mailboxes[
      server.registry.mailboxes.length]? = some { connection := connection, capacity := none } := by
    rw [hopens.mailboxes, List.getElem?_concat_length]
  have hempty : (Link.start server now connection me).delivered = [] := by
    change [] ++ Registry.inbox (server.registry.connect now connection me none).2
      server.registry.mailboxes.length = []
    rw [List.nil_append, Registry.inbox, hbox]
    rfl
  have hnone : ∀ id, server.owing me id = 0 ∧
      (Effect.answered server.journal).countP (·.isOf me id) = 0 := by
    intro id
    have hcount := hconserves id
    rw [Server.countOf_eq_zero hsilent id] at hcount
    omega
  have houtcome := Server.act_outcome server (.connect now connection me none)
  refine ⟨⟨_, houtcome.orderly horderly⟩, houtcome.informs hinforms, hseparate.of_opens hopens,
    ⟨hopens.handle, ?_⟩, fun hunwrapped => ⟨Client.new_follows me, ?_, ?_⟩⟩
  · change Option.map _ (server.registry.connect now connection me none).2.mailboxes[
      server.registry.mailboxes.length]? = _
    rw [hbox]
    rfl
  · intro id
    rw [hempty]
    exact (hnone id).1
  · have hproper : ∀ effect ∈ server.journal, effect.Proper := fun effect hmem =>
      hinforms.proper hunwrapped effect (List.mem_append_left _ hmem)
    rw [hempty]
    refine Eq.symm (View.foldl_hear_blank fun id => ?_)
    exact (Effect.countP_heardBy me id hproper).trans (hnone id).2

end Link

/-! ## What the client knows -/

/-- A body of a participant is the one the participant is registered with. -/
theorem World.Registers.bodyFor?_eq_some_iff {world : World} (h : world.Registers) {me : Identity}
    {body : Body} :
    world.bodyFor? me = some body ↔
      ∃ entity, world.bodies.get? entity = some body ∧ body.identity = me := by
  simp only [World.bodyFor?, World.entityFor?, World.body?, Option.bind_eq_some_iff]
  constructor
  · rintro ⟨entity, hentity, hbody⟩
    obtain ⟨same, hsame, hidentity⟩ := h.entity_iff.mp hentity
    cases hbody.symm.trans hsame
    exact ⟨entity, hbody, hidentity⟩
  · rintro ⟨entity, hbody, hidentity⟩
    exact ⟨entity, h.entity_iff.mpr ⟨body, hbody, hidentity⟩, hbody⟩

/-- The client knows where its participant's body is, and whom it is with. -/
structure Client.Mirrors (client : Client) (world : World) (me : Identity) : Prop where
  /-- If the body is in a place, the client has the location and the occupants of the place, its
  participant among them. -/
  inside : ∀ {body zone scene place location}, world.bodyFor? me = some body →
    body.location = .inside zone scene place location →
    client.location = some ⟨zone, scene, place, location⟩ ∧
      client.membership.place = some place ∧ client.membership.member = true ∧
      ∃ host, world.place? place = some host ∧ client.membership.occupants = host.occupants
  /-- If the body is in no place, the participant is no occupant of the place that the client
  follows. -/
  outside : (∀ {body}, world.bodyFor? me = some body → body.location.place? = none) →
    client.membership.member = false

/-- A client that is shown the world as it is mirrors it. -/
theorem World.ShownTo.mirrors {world : World} {me : Identity} {client : Client}
    (h : world.ShownTo me client.view) (hsound : world.Sound) (hfollows : client.Follows me) :
    client.Mirrors world me := by
  have hregistered := @World.Registers.bodyFor?_eq_some_iff world hsound.registers me
  constructor
  · intro body zone scene place location hbody hlocation
    obtain ⟨entity, hget, hidentity⟩ := hregistered.mp hbody
    have hstands : world.Stands me (.inside zone scene place location) :=
      ⟨entity, body, hget, hidentity, hlocation⟩
    have hwithin : world.Within me place := ⟨_, hstands, rfl⟩
    obtain ⟨host, hhost⟩ := hsound.houses.exists_of_within hwithin
    have hview := h.inside hstands hhost
    have hoccupants : client.membership.occupants = host.occupants := congrArg View.occupants hview
    refine ⟨congrArg View.location hview, congrArg View.place hview, ?_, host, hhost, hoccupants⟩
    rw [hfollows.member, hoccupants, OccupantSet.hasMember_iff]
    exact (hsound.houses.mem_identities_iff hhost).mpr hwithin
  · intro hnowhere
    rw [hfollows.member]
    apply h.outside
    rintro place ⟨location, ⟨entity, body, hget, hidentity, rfl⟩, hplace⟩
    rw [hnowhere (hregistered.mpr ⟨entity, hget, hidentity⟩)] at hplace
    cases hplace

namespace Link

variable {link : Link}

/-- A client that handles all that was sent to it mirrors the place of its participant's body. -/
theorem Faithful.mirrors (h : link.Faithful) (hunwrapped : link.server.world.Unwrapped)
    {handled : List (ServerMessage × (Request → Option Fault))}
    (hhandled : handled.map (·.1) = link.unheard) :
    (link.client.handleAll handled).Mirrors link.server.world link.me := by
  have htracks := h.tracks hunwrapped
  have hsplit : link.unheard =
      link.delivered ++ Effect.heardBy link.me link.server.world.effects := rfl
  have hproper : ∀ effect ∈ link.server.world.effects, effect.Proper := fun effect hmem =>
    h.informs.proper hunwrapped effect (List.mem_append_right _ hmem)
  have hdue : ∀ id, (handled.map (·.1)).countP (·.answers id) ≤ link.client.due id := by
    intro id
    have hcount := htracks.due_eq id
    have hanswered := Effect.countP_heardBy link.me id hproper
    have howing : link.server.world.answered.countP (·.isOf link.me id) ≤
        link.server.owing link.me id := Nat.le_add_left _ _
    rw [hhandled, hsplit, List.countP_append, hanswered]
    change _ + link.server.world.answered.countP _ ≤ _
    omega
  obtain ⟨hfollows, hview⟩ := Client.handleAll_view htracks.follows handled hdue
  have hshown : (link.client.handleAll handled).view = link.server.shown link.me := by
    rw [hview, hhandled, hsplit, List.foldl_append, htracks.view_eq, Server.shown,
      View.follow_append]
    rfl
  refine World.ShownTo.mirrors ?_ (h.informs.sound hunwrapped) hfollows
  rw [hshown]
  exact h.informs.shown hunwrapped

/-- Whatever happens on a link, it stays that of its participant. -/
theorem step_me (link : Link) (event : Event) : (link.step event).me = link.me := by
  cases event with
  | hears send =>
    unfold step
    dsimp only
    split
    · rfl
    · rfl
  | _ => rfl

/-- A link stays that of its participant in every run. -/
theorem run_me (link : Link) (events : List Event) : (link.run events).me = link.me := by
  induction events generalizing link with
  | nil => rfl
  | cons event rest ih => exact (ih (link.step event)).trans (link.step_me event)

/-- Whatever happens to a server before and after a participant connects to it: as long as all
requests of the participant come from its client and its session stays bound to the connection, the
client knows where the participant's body is and which occupants its place has, once it has handled
all that was sent to it, as long as fewer than 2^64 bodies and fewer than 2^64 places were ever
made. It does not matter how the requests end that the client sends. -/
theorem run_mirrors (config : ServerConfig) (loader : Loader CacheKey Bundle)
    (actions : List Server.Action) (now : Instant) (connection : ConnectionId) (me : Identity)
    (events : List Event) (handled : List (ServerMessage × (Request → Option Fault))) {link : Link}
    (hlink : link =
      (Link.start ((Server.new config loader).run actions) now connection me).run events)
    (hsilent : ∀ arrival ∈ (Server.new config loader).collect Server.arrivals actions,
      arrival.1 ≠ me)
    (hgoes : (Link.start ((Server.new config loader).run actions) now connection me).Goes events)
    (hbodies : link.server.world.entityIds.issued < 2 ^ 64)
    (hplaces : link.server.world.placeIds.issued < 2 ^ 64)
    (hhandled : handled.map (·.1) = link.unheard) :
    (link.client.handleAll handled).Mirrors link.server.world me := by
  have hstart := start_faithful config loader actions now connection me hsilent
  have hme : link.me = me := by
    rw [hlink, run_me]
    rfl
  have hfaithful : link.Faithful := by
    rw [hlink]
    exact hstart.run hgoes
  rw [← hme]
  exact hfaithful.mirrors ⟨hbodies, hplaces⟩ hhandled

/-- Ada joins Bob in a scene, and he is taken out of it again. -/
def visit : List Event :=
  [.acts .follow, .acts .follow, .acts (.move ⟨"bob"⟩ ⟨1, 1, 2⟩),
    .asks ⟨1, 1, 1⟩ none fun _ => none, .acts .serve, .acts .serve, .acts .settle,
    .acts (.advance [1, 2]), .acts .settle, .acts (.advance [1, 2])] ++
  List.replicate 12 (.acts .deliver) ++
  [.acts (.drain 1), .hears fun _ => none, .acts (.eject ⟨"bob"⟩)]

/-- The link of Ada after her visit. -/
def visited : Link :=
  (Link.start ((Server.new {} .town).run [.connect 0 2 ⟨"bob"⟩ none]) 0 1 ⟨"ada"⟩).run visit

/-- Ada is alone in her place, and her client knows. -/
theorem visited_mirrors :
    (visited.server.world.bodyFor? ⟨"ada"⟩).map (·.location) = some (.inside 1 1 1 1) ∧
      (visited.client.handleAll (visited.unheard.map (·, fun _ => none))).Mirrors
        visited.server.world ⟨"ada"⟩ := by
  refine ⟨by decide +kernel, ?_⟩
  refine run_mirrors {} .town [.connect 0 2 ⟨"bob"⟩ none] 0 1 ⟨"ada"⟩ visit _ rfl ?_ ?_ ?_ ?_ ?_
  · decide +kernel
  · decide +kernel
  · decide +kernel
  · decide +kernel
  · rw [List.map_map]
    exact List.map_id _

end Link

end SharedWorld
