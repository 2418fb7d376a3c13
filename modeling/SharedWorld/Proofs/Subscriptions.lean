import Mathlib.Data.Finset.Card
import Mathlib.Data.Finset.Option
import SharedWorld.Proofs.Confirmations

/-!
# The subscription follows the confirmed group

A client subscribes to the feed of the group that it was last confirmed to be in. The service that
keeps the subscriptions hears of calls only, so what it knows is what a replay of all calls comes
to. A move that is confirmed with another group leaves the old one before it joins the new one, and
nothing else makes a call. So the replay is always at the client's group, never holds two groups at
once, and no call is made in vain (`Client.run_subscribes`). -/

namespace SharedWorld

/-- A call to the service that keeps a client's subscriptions. -/
inductive GroupCall where
  | subscribe (group : GroupId)
  | unsubscribe (group : GroupId)
  deriving DecidableEq, Repr

namespace GroupCall

variable {groups : Finset GroupId} {call : GroupCall} {calls earlier later : List GroupCall}

/-- The groups that are subscribed to after a call. -/
def on (groups : Finset GroupId) : GroupCall → Finset GroupId
  | .subscribe group => insert group groups
  | .unsubscribe group => groups.erase group

/-- The groups that are subscribed to after a list of calls. -/
def replay (groups : Finset GroupId) (calls : List GroupCall) : Finset GroupId :=
  calls.foldl on groups

/-- The call changes something: its group is not subscribed to yet, or it is. -/
def Fits (groups : Finset GroupId) : GroupCall → Prop
  | .subscribe group => group ∉ groups
  | .unsubscribe group => group ∈ groups

/-- Each of the calls changes something, and none leads to more than one group. -/
inductive Proper : Finset GroupId → List GroupCall → Prop where
  | nil {groups : Finset GroupId} : Proper groups []
  | cons {groups : Finset GroupId} {call : GroupCall} {rest : List GroupCall}
    (fits : call.Fits groups) (single : (on groups call).card ≤ 1)
    (proper : Proper (on groups call) rest) : Proper groups (call :: rest)

/-- Calls are replayed one after the other. -/
theorem replay_append (groups : Finset GroupId) (earlier later : List GroupCall) :
    replay groups (earlier ++ later) = replay (replay groups earlier) later := List.foldl_append

/-- Calls are proper if the first ones are, and the others are where these lead. -/
theorem Proper.append (first : Proper groups earlier)
    (rest : Proper (replay groups earlier) later) : Proper groups (earlier ++ later) := by
  induction first with
  | nil => exact rest
  | cons fits single _ ih => exact .cons fits single (ih rest)

/-- Calls that are proper are so from every point on. -/
theorem Proper.of_append (h : Proper groups (earlier ++ later)) :
    Proper (replay groups earlier) later := by
  induction earlier generalizing groups with
  | nil => exact h
  | cons call rest ih =>
    cases h with
    | cons fits single proper => exact ih proper

/-- Each of the proper calls fits what was subscribed before it. -/
theorem Proper.fits (h : Proper groups (earlier ++ call :: later)) :
    call.Fits (replay groups earlier) := by
  cases h.of_append with
  | cons fits single proper => exact fits

/-- Proper calls never lead to more than one group. -/
theorem Proper.card_le (h : Proper groups (earlier ++ later)) (hfew : groups.card ≤ 1) :
    (replay groups earlier).card ≤ 1 := by
  induction earlier generalizing groups with
  | nil => exact hfew
  | cons call rest ih =>
    cases h with
    | cons fits single proper => exact ih proper single

end GroupCall

/-- The call that an effect makes to the service that keeps the subscriptions. -/
def ClientEffect.groupCall? : ClientEffect → Option GroupCall
  | .subscribed group => some (.subscribe group)
  | .unsubscribed group => some (.unsubscribe group)
  | _ => none

/-- The calls to the service that keeps the subscriptions, the first one first. -/
def ClientEffect.groupCalls (effects : List ClientEffect) : List GroupCall :=
  effects.filterMap groupCall?

/-- Handing a request over is no such call. -/
theorem ClientEffect.groupCall?_of_handed {effect : ClientEffect} {request : Request}
    (h : effect.handed? = some request) : effect.groupCall? = none := by
  cases effect with
  | sent | unsent => rfl
  | _ => cases h

namespace Client

variable {client : Client} {event : Event} {reply : MoveReply}

/-! ## The calls that an event makes -/

/-- The calls that an event makes. -/
def subscribes (client : Client) (event : Event) : List GroupCall :=
  ClientEffect.groupCalls (client.react event).effects

/-- The calls that are made in the course of the events, the first one first. -/
def groupCalls (client : Client) (events : List Event) : List GroupCall :=
  history (fun client event => (client.react event).client) subscribes client events

/-- A change of the group leaves the old one first. -/
theorem groupCalls_changeGroup (old new : Option GroupId) :
    ClientEffect.groupCalls (changeGroup old new) = if old = new then []
      else old.toList.map .unsubscribe ++ new.toList.map .subscribe := by
  unfold changeGroup
  split
  · rfl
  · cases old <;> cases new <;> rfl

/-- Calling observers subscribes to nothing. -/
theorem groupCalls_membership (notices : List MembershipNotice) :
    ClientEffect.groupCalls (notices.map .membership) = [] :=
  ClientEffect.filterMap_membership (fun _ => rfl) notices

/-- Applying the reply to a move changes the group to that of the reply. -/
theorem groupCalls_applyMove (client : Client) (reply : MoveReply) :
    ClientEffect.groupCalls (client.applyMove reply).effects =
      ClientEffect.groupCalls (changeGroup client.group reply.group) := by
  rw [ClientEffect.groupCalls, applyMove, List.filterMap_append]
  exact (congrArg _ (groupCalls_membership _)).trans (List.append_nil _)

/-- A move that is confirmed makes the calls that lead from the client's group to the reply's. -/
theorem subscribes_of_confirms (h : client.confirms? event = some reply) :
    client.subscribes event = ClientEffect.groupCalls (changeGroup client.group reply.group) := by
  obtain ⟨pending, -, -, heffects⟩ := react_of_confirms h
  rw [subscribes, heffects, ClientEffect.groupCalls, List.filterMap_append]
  exact (List.append_nil _).trans (groupCalls_applyMove { client with pending := none } reply)

/-- An event that confirms no move makes no call. -/
theorem subscribes_of_unconfirmed (h : client.confirms? event = none) :
    client.subscribes event = [] := by
  have hstep := react_unconfirmed h
  rw [subscribes]
  generalize client.react event = step at hstep
  cases hstep with
  | asks untold send target observer =>
    refine List.filterMap_eq_nil_iff.mpr fun effect hmem => ?_
    obtain ⟨request, hhanded⟩ :=
      (client.requestTransition_changes send target observer).2 effect hmem
    exact ClientEffect.groupCall?_of_handed hhanded
  | fails => rfl
  | ignores => rfl
  | hears place delta send => exact groupCalls_membership _
  | watches observer => rfl

/-! ## What the calls come to -/

variable {me : Identity}

/-- The calls that lead from one group to another are made one after the other, and end there. -/
theorem changeGroup_proper (old new : Option GroupId) :
    GroupCall.Proper old.toFinset (ClientEffect.groupCalls (changeGroup old new)) ∧
      GroupCall.replay old.toFinset (ClientEffect.groupCalls (changeGroup old new)) =
        new.toFinset := by
  rw [groupCalls_changeGroup]
  by_cases hsame : old = new
  · rw [if_pos hsame]
    exact ⟨.nil, congrArg Option.toFinset hsame⟩
  · rw [if_neg hsame]
    cases old with
    | none =>
      cases new with
      | none => exact ⟨.nil, rfl⟩
      | some group => exact ⟨.cons (by simp [GroupCall.Fits]) (by simp [GroupCall.on]) .nil, rfl⟩
    | some group =>
      have hleaves : GroupCall.on (Option.toFinset (some group)) (.unsubscribe group) = ∅ := by
        simp [GroupCall.on]
      have hfits : GroupCall.Fits (Option.toFinset (some group)) (.unsubscribe group) := by
        simp [GroupCall.Fits]
      have hnone : (GroupCall.on (Option.toFinset (some group)) (.unsubscribe group)).card ≤ 1 := by
        rw [hleaves]
        simp
      cases new with
      | none => exact ⟨.cons hfits hnone .nil, hleaves⟩
      | some other =>
        refine ⟨.cons hfits hnone ?_, by simp [GroupCall.replay, GroupCall.on]⟩
        rw [hleaves]
        exact .cons (by simp [GroupCall.Fits]) (by simp [GroupCall.on]) .nil

/-- The calls of the last event come after those before. -/
theorem groupCalls_concat (client : Client) (events : List Event) (event : Event) :
    client.groupCalls (events ++ [event]) =
      client.groupCalls events ++ (client.run events).subscribes event := by
  rw [groupCalls, history_append]
  simp [history, groupCalls, run]

/-- The calls of a run are made one after the other, and end at the client's group. -/
theorem run_proper (me : Identity) (events : List Event) :
    GroupCall.Proper ∅ ((Client.new me).groupCalls events) ∧
      GroupCall.replay ∅ ((Client.new me).groupCalls events) =
        ((Client.new me).run events).group.toFinset := by
  induction events using List.reverseRecOn with
  | nil => exact ⟨.nil, rfl⟩
  | append_singleton events event ih =>
    obtain ⟨hproper, hreplay⟩ := ih
    have hgroup := congrArg Outlook.group (outlook_concat me events event)
    rw [groupCalls_concat, GroupCall.replay_append, hreplay]
    cases hconfirms : ((Client.new me).run events).confirms? event with
    | none =>
      rw [subscribes_of_unconfirmed hconfirms, List.append_nil]
      rw [hconfirms] at hgroup
      exact ⟨hproper, congrArg Option.toFinset hgroup.symm⟩
    | some reply =>
      obtain ⟨hcalls, hend⟩ := changeGroup_proper ((Client.new me).run events).group reply.group
      rw [subscribes_of_confirms hconfirms]
      rw [hconfirms] at hgroup
      rw [← hreplay] at hcalls
      exact ⟨hproper.append hcalls, hend.trans (congrArg Option.toFinset hgroup.symm)⟩

/-- The calls that were made keep the subscription where the client is. -/
structure Subscribes (calls : List GroupCall) (client : Client) : Prop where
  /-- The client's group is subscribed to and no other. -/
  replay_eq : GroupCall.replay ∅ calls = client.group.toFinset
  /-- Not even between two calls there was more than one. -/
  single : ∀ {earlier later}, calls = earlier ++ later → (GroupCall.replay ∅ earlier).card ≤ 1
  /-- No group was subscribed to that was already, nor left that was not. -/
  fits : ∀ {earlier call later}, calls = earlier ++ call :: later →
    call.Fits (GroupCall.replay ∅ earlier)
  /-- An event that confirms no move makes no call. -/
  silent : ∀ {event}, client.confirms? event = none → client.subscribes event = []
  /-- Nor does one that confirms the same group. -/
  same : ∀ {event reply}, client.confirms? event = some reply → reply.group = client.group →
    client.subscribes event = []
  /-- Where the group changes, the old one is left before the new one is joined. -/
  switches : ∀ {event reply}, client.confirms? event = some reply → reply.group ≠ client.group →
    client.subscribes event =
      client.group.toList.map .unsubscribe ++ reply.group.toList.map .subscribe

/-- In the course of whatever is asked of a client and told to it, its subscription follows the
group that was confirmed to it last. -/
theorem run_subscribes (me : Identity) (events : List Event) :
    ((Client.new me).run events).Subscribes ((Client.new me).groupCalls events) := by
  obtain ⟨hproper, hreplay⟩ := run_proper me events
  refine ⟨hreplay, fun hcalls => ?_, fun hcalls => ?_, subscribes_of_unconfirmed, ?_, ?_⟩
  · rw [hcalls] at hproper
    exact hproper.card_le (by simp)
  · rw [hcalls] at hproper
    exact hproper.fits
  · intro event reply hconfirms hsame
    rw [subscribes_of_confirms hconfirms, groupCalls_changeGroup, if_pos hsame.symm]
  · intro event reply hconfirms hother
    rw [subscribes_of_confirms hconfirms, groupCalls_changeGroup, if_neg (Ne.symm hother)]

end Client

end SharedWorld
