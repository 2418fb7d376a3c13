import SharedWorld.Client.Membership
import SharedWorld.Client.SceneCache
import SharedWorld.Text.Quoted

/-!
# The client's side of a transition

A client asks the server to move its body, and has at most one such request pending. A second one is
refused before anything is sent. The answer to the pending request settles it; every other answer is
stale and ignored. Where the client is, which group it subscribes to, which scenes it holds and whom
it sees all come from the moves that were confirmed to it.

What a client does to its surroundings is recorded as effects, in their order. How sending a request
ends is up to the surroundings, and is an argument of the operations that send.
-/

namespace SharedWorld

/-- A request for a transition that has not been answered. -/
structure PendingTransition where
  request : RequestId
  target : MoveTarget
  /-- Who asked for the transition. Nobody waits for one that the server ordered. -/
  observer : Option String
  deriving DecidableEq, Repr

/-- Where the server last confirmed the client to be. -/
structure ClientLocation where
  zone : ZoneId
  scene : SceneId
  place : PlaceId
  location : LocationId
  deriving DecidableEq, Repr

/-- What a client does to its surroundings. -/
inductive ClientEffect where
  /-- The request was handed over and is on its way. -/
  | sent (request : Request)
  /-- The request was handed over and could not be sent. -/
  | unsent (request : Request) (fault : Fault)
  | subscribed (group : GroupId)
  | unsubscribed (group : GroupId)
  /-- The observer was told that its transition succeeded. -/
  | succeeded (observer : Option String) (target : MoveTarget) (reply : MoveReply)
  /-- The observer was told that its transition failed. -/
  | failed (observer : Option String) (target : MoveTarget) (fault : Fault)
  /-- A membership observer was told of a flip. -/
  | membership (notice : MembershipNotice)
  deriving DecidableEq, Repr

/-- The requests that were handed to the server in the course of the effects, the oldest first. -/
def ClientEffect.requests (effects : List ClientEffect) : List Request :=
  effects.filterMap fun
    | .sent request => some request
    | _ => none

/-- The groups that are subscribed to more often than they are unsubscribed from in the course of
the effects, in increasing order. -/
def ClientEffect.subscriptions (effects : List ClientEffect) : List GroupId :=
  let balance := effects.foldl (fun balance effect =>
    let count (group : GroupId) : Int := (balance.get? group).getD 0
    match effect with
    | .subscribed group => balance.insert group (count group + 1)
    | .unsubscribed group => balance.insert group (count group - 1)
    | _ => balance) (Table.empty : Table GroupId Int)
  (balance.toList.filter (0 < ·.2)).map (·.1)

/-- The state of a client. -/
structure Client where
  /-- The ids of the client's requests. -/
  requestIds : IdGenerator .request := {}
  pending : Option PendingTransition := none
  location : Option ClientLocation := none
  /-- The group of the confirmed location. -/
  group : Option GroupId := none
  scenes : SceneCache := Table.empty
  membership : MembershipTracker

/-- A client after an operation, with what the operation did. -/
structure ClientStep where
  client : Client
  effects : List ClientEffect := []

namespace Client

/-- The client of a participant. -/
def new (identity : Identity) : Client := { membership := .new identity }

/-- Whether a transition is pending. -/
def isPending (client : Client) : Bool := client.pending.isSome

/-- The target of the pending transition. -/
def pendingTarget? (client : Client) : Option MoveTarget := client.pending.map (·.target)

/-- Add an observer of the participant's membership. -/
def watch (client : Client) (observer : String) : Client :=
  { client with membership := client.membership.watch observer }

/-- Ask the server to move to `target`. The request carries the version of the scene the client
holds. It is refused while another one is pending; if it cannot be sent, nothing is pending after
it, but its id is used up. -/
def requestTransition (client : Client) (send : Request → Option Fault) (target : MoveTarget)
    (observer : Option String) : Except Fault RequestId × ClientStep :=
  match client.pending with
  | some _ => (.error .alreadyPending, { client := client })
  | none =>
    let (id, requestIds) := client.requestIds.generate
    let request : Request :=
      ⟨id, zoneService, moveToMethod, target.toArguments (client.scenes.version target.scene)⟩
    match send request with
    | some fault =>
      (.error (.transport fault.message),
        { client := { client with requestIds := requestIds }, effects := [.unsent request fault] })
    | none =>
      (.ok id,
        { client := { client with requestIds := requestIds, pending := some ⟨id, target, observer⟩ }
          effects := [.sent request] })

/-- The calls that turn the subscription of one group into that of another. -/
def changeGroup (old new : Option GroupId) : List ClientEffect :=
  if old = new then []
  else old.toList.map .unsubscribed ++ new.toList.map .subscribed

/-- Take over what a confirmed move says. -/
def applyMove (client : Client) (reply : MoveReply) : ClientStep :=
  let scenes := match reply.sceneUpdate with
    | some model => client.scenes.keep model
    | none => client.scenes
  let update := client.membership.reset reply.place reply.occupants
  { client := { client with
      scenes := scenes
      location := some ⟨reply.zone.zone, reply.scene, reply.place, reply.location⟩
      group := reply.group
      membership := update.tracker }
    effects := changeGroup client.group reply.group ++ update.notices.map .membership }

/-- The fault that reports a reply of another kind than a move's. -/
def unexpectedReply (description : String) : Fault :=
  .internal ("unexpected reply to move: " ++ description)

/-- Settle the pending transition by the answer to it. -/
def settle (client : Client) (pending : PendingTransition) : Answer → ClientStep
  | .success (.moved reply) =>
    let step := client.applyMove reply
    { step with effects := step.effects ++ [.succeeded pending.observer pending.target reply] }
  | .success .ack =>
    ⟨client, [.failed pending.observer pending.target (unexpectedReply "Ack")]⟩
  | .success (.values values) =>
    ⟨client, [.failed pending.observer pending.target
      (unexpectedReply (Argument.describeAll values))]⟩
  | .failure fault => ⟨client, [.failed pending.observer pending.target fault]⟩

/-- Handle the response to a request. Only the one to the pending request matters. -/
def handleResponse (client : Client) (response : Response) : ClientStep :=
  match client.pending with
  | none => { client := client }
  | some pending =>
    if pending.request = response.request then
      { client with pending := none }.settle pending response.answer
    else { client := client }

/-- Follow the server's order to move to a scene, unless a transition is pending already. -/
def followForcedMove (client : Client) (send : Request → Option Fault) (zone : ZoneId)
    (scene : SceneId) : ClientStep :=
  (client.requestTransition send ⟨zone, scene, 0⟩ none).2

/-- Handle a message of the server. -/
def handleMessage (client : Client) (send : Request → Option Fault) :
    ServerMessage → ClientStep
  | .response response => client.handleResponse response
  | .occupants place delta =>
    let update := client.membership.apply place delta
    ⟨{ client with membership := update.tracker }, update.notices.map .membership⟩
  | .forcedMove zone scene => client.followForcedMove send zone scene

/-- The connection went away: what was pending will not be answered. -/
def connectionLost (client : Client) : ClientStep :=
  match client.pending with
  | none => { client := client }
  | some pending =>
    ⟨{ client with pending := none },
      [.failed pending.observer pending.target (.transport "connection lost")]⟩

end Client

end SharedWorld
