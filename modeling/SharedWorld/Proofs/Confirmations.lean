import Mathlib.Data.List.Induction
import SharedWorld.Proofs.Memberships
import SharedWorld.Proofs.Verdicts

/-!
# A client shows what was confirmed to it last

Where a client is, its group, the place it watches and the scenes it holds change in one case only:
the client hears the reply to a move, and it is the answer to its pending request. All of them are
taken from that reply at once, so they never stem from two replies. From then on the occupants
follow what is told of the place, and nothing else changes before the next move is confirmed
(`Client.run_reflects`). -/

namespace SharedWorld

/-- A model that is held after another one was kept is that one, or was held before. -/
theorem SceneCache.get?_of_keep {scenes : SceneCache} {model held : SceneModel} {scene : SceneId}
    (h : (scenes.keep model).get? scene = some held) :
    held = model ∨ scenes.get? scene = some held := by
  unfold keep at h
  split at h
  · exact .inr h
  · rcases Table.get?_insert_eq_some_iff.mp h with ⟨-, heq⟩ | ⟨-, hold⟩
    · exact .inl heq.symm
    · exact .inr hold

namespace Client

variable {client : Client} {event : Event} {reply : MoveReply}

/-! ## What is confirmed, and what a client shows -/

/-- The move that an event confirms: the answer to the pending request says that it is done. -/
def confirms? (client : Client) : Event → Option MoveReply
  | .hears (.response ⟨request, .success (.moved reply)⟩) _ =>
    if client.pending.map (·.request) = some request then some reply else none
  | _ => none

/-- The moves that are confirmed in the course of the events, the first one first. -/
def confirmed (client : Client) (events : List Event) : List MoveReply :=
  history (fun client event => (client.react event).client)
    (fun client event => (client.confirms? event).toList) client events

/-- What an event tells of the occupants of the place. -/
def Event.change? (place : PlaceId) : Event → Option SetDelta
  | .hears (.occupants told delta) _ =>
    if told = place ∧ delta.collection = occupantsCollection then some delta.delta else none
  | _ => none

/-- What a client shows of the shared world and of its own place in it. -/
structure Outlook where
  location : Option ClientLocation
  group : Option GroupId
  place : Option PlaceId
  /-- The collection that the occupants are from. -/
  collection : String
  occupants : OccupantSet
  scenes : SceneCache

/-- What the client shows. -/
def outlook (client : Client) : Outlook :=
  ⟨client.location, client.group, client.membership.place, client.membership.collection,
    client.membership.occupants, client.scenes⟩

/-- What is shown after a move is confirmed. -/
def Outlook.confirm (outlook : Outlook) (reply : MoveReply) : Outlook :=
  { outlook with
    location := some ⟨reply.zone.zone, reply.scene, reply.place, reply.location⟩
    group := reply.group
    place := some reply.place
    occupants := .ofInfos reply.occupants
    scenes := reply.sceneUpdate.elim outlook.scenes outlook.scenes.keep }

/-- What is shown after an event that confirms nothing. -/
def Outlook.hear (outlook : Outlook) (event : Event) : Outlook :=
  { outlook with
    occupants := (outlook.place.bind event.change?).elim outlook.occupants outlook.occupants.apply }

/-- A client is confirmed by the success of the move that it waits for, and by nothing else. -/
theorem confirms?_eq_some_iff : client.confirms? event = some reply ↔ ∃ pending send,
    client.pending = some pending ∧
      event = .hears (.response ⟨pending.request, .success (.moved reply)⟩) send := by
  constructor
  · intro h
    unfold confirms? at h
    split at h
    · split at h
      · obtain ⟨pending, hpending, rfl⟩ := Option.map_eq_some_iff.mp ‹_›
        cases h
        exact ⟨pending, _, hpending, rfl⟩
      · cases h
    · cases h
  · rintro ⟨pending, send, hpending, rfl⟩
    simp [confirms?, hpending]

/-- The occupants of a place change by a delta of their collection that comes for the place. -/
theorem Event.change?_eq_some_iff {place : PlaceId} {delta : SetDelta} :
    event.change? place = some delta ↔
      ∃ send, event = .hears (.occupants place ⟨occupantsCollection, delta⟩) send := by
  constructor
  · intro h
    unfold change? at h
    split at h
    case h_1 told change send =>
      obtain ⟨collection, change⟩ := change
      by_cases hhere : told = place ∧ collection = occupantsCollection
      · obtain ⟨rfl, rfl⟩ := hhere
        simp only [and_self, if_true, Option.some.injEq] at h
        rw [h]
        exact ⟨send, rfl⟩
      · simp only [if_neg hhere, reduceCtorEq] at h
    case h_2 => cases h
  · rintro ⟨send, rfl⟩
    simp [change?]

/-! ## What an event does to it -/

/-- A confirmed move is taken over, and its observer is told. -/
theorem react_of_confirms (h : client.confirms? event = some reply) :
    ∃ pending, client.pending = some pending ∧ (client.react event).client =
        ({ client with pending := none }.applyMove reply).client ∧
      (client.react event).effects = ({ client with pending := none }.applyMove reply).effects ++
        [.succeeded pending.observer pending.target reply] := by
  obtain ⟨pending, send, hpending, rfl⟩ := confirms?_eq_some_iff.mp h
  have hreact : client.react (.hears (.response ⟨pending.request, .success (.moved reply)⟩) send) =
      { client with pending := none }.settle pending (.success (.moved reply)) :=
    handleResponse_of_pending hpending _
  rw [hreact]
  exact ⟨pending, hpending, rfl, rfl⟩

/-- What a client does at an event that confirms no move. -/
inductive Unconfirmed (client : Client) : Event → ClientStep → Prop where
  /-- It is asked for a transition, or ordered to make one. -/
  | asks {event : Event} (untold : ∀ place, event.change? place = none)
    (send : Request → Option Fault) (target : MoveTarget) (observer : Option String) :
    Unconfirmed client event (client.requestTransition send target observer).2
  /-- The pending transition fails. -/
  | fails {event : Event} (untold : ∀ place, event.change? place = none)
    (pending : PendingTransition) (fault : Fault) :
    Unconfirmed client event
      ⟨{ client with pending := none }, [.failed pending.observer pending.target fault]⟩
  /-- It does nothing. -/
  | ignores {event : Event} (untold : ∀ place, event.change? place = none) :
    Unconfirmed client event { client := client }
  /-- It is told of the occupants of a place. -/
  | hears (place : PlaceId) (delta : OccupantDelta) (send : Request → Option Fault) :
    Unconfirmed client (.hears (.occupants place delta) send)
      (client.handleMessage send (.occupants place delta))
  | watches (observer : String) :
    Unconfirmed client (.watches observer) { client := client.watch observer }

/-- An answer that confirms no move fails the pending transition, or is stale. -/
theorem handleResponse_unconfirmed {response : Response} {send : Request → Option Fault}
    (h : client.confirms? (.hears (.response response) send) = none) :
    client.Unconfirmed (.hears (.response response) send) (client.handleResponse response) := by
  obtain ⟨request, answer⟩ := response
  by_cases hanswers : client.pending.map (·.request) = some request
  · obtain ⟨pending, hpending, rfl⟩ := Option.map_eq_some_iff.mp hanswers
    rw [handleResponse_of_pending hpending]
    cases answer with
    | failure fault => exact .fails (fun _ => rfl) pending fault
    | success answer =>
      cases answer with
      | ack => exact .fails (fun _ => rfl) pending _
      | values values => exact .fails (fun _ => rfl) pending _
      | moved reply =>
        rw [confirms?, if_pos hanswers] at h
        cases h
  · rw [handleResponse_of_ne hanswers]
    exact .ignores fun _ => rfl

/-- Whatever confirms nothing leaves what the client shows to itself, but for the occupants. -/
theorem react_unconfirmed (h : client.confirms? event = none) :
    client.Unconfirmed event (client.react event) := by
  cases event with
  | asks target observer send => exact .asks (fun _ => rfl) send target observer
  | hears message send =>
    cases message with
    | response response => exact handleResponse_unconfirmed h
    | occupants place delta => exact .hears place delta send
    | forcedMove zone scene => exact .asks (fun _ => rfl) send ⟨zone, scene, 0⟩ none
  | loses =>
    rw [react, connectionLost]
    cases client.pending with
    | none => exact .ignores fun _ => rfl
    | some pending => exact .fails (fun _ => rfl) pending _
  | watches observer => exact .watches observer

/-- An event that tells nothing of the place leaves everything as it is. -/
theorem Outlook.hear_of_untold {outlook : Outlook}
    (h : ∀ place ∈ outlook.place, event.change? place = none) : outlook.hear event = outlook := by
  have hnone : outlook.place.bind event.change? = none := Option.bind_eq_none_iff.mpr h
  rw [hear, hnone]
  rfl

/-- A call for a transition can change which request is pending and which id is next, and hands over
requests only. -/
theorem requestTransition_changes (client : Client) (send : Request → Option Fault)
    (target : MoveTarget) (observer : Option String) :
    (∃ pending ids, (client.requestTransition send target observer).2.client =
        { client with pending := pending, requestIds := ids }) ∧
      ∀ effect ∈ (client.requestTransition send target observer).2.effects,
        ∃ request, effect.handed? = some request := by
  unfold requestTransition
  cases client.pending with
  | some pending => exact ⟨⟨_, _, rfl⟩, List.forall_mem_nil _⟩
  | none =>
    dsimp only
    split
    · exact ⟨⟨_, _, rfl⟩, List.forall_mem_singleton.mpr ⟨_, rfl⟩⟩
    · exact ⟨⟨_, _, rfl⟩, List.forall_mem_singleton.mpr ⟨_, rfl⟩⟩

/-- Word of the occupants shows if it is about the place that the client watches. -/
theorem handleOccupants_outlook (hcollection : client.membership.collection = occupantsCollection)
    (send : Request → Option Fault) (place : PlaceId) (delta : OccupantDelta) :
    (client.handleMessage send (.occupants place delta)).client.outlook =
      client.outlook.hear (.hears (.occupants place delta) send) := by
  have hafter : (client.handleMessage send (.occupants place delta)).client.outlook =
      ⟨client.location, client.group, (client.membership.apply place delta).tracker.place,
        (client.membership.apply place delta).tracker.collection,
        (client.membership.apply place delta).tracker.occupants, client.scenes⟩ := rfl
  rw [hafter]
  by_cases hheeds : client.membership.Heeds place delta
  · have hplace : client.membership.place = some place := hheeds.1
    have hchange : Event.change? place (.hears (.occupants place delta) send) = some delta.delta :=
      if_pos ⟨rfl, hheeds.2.trans hcollection⟩
    rw [hheeds.apply_eq, MembershipTracker.reconcile_tracker]
    simp only [Outlook.hear, outlook, hplace, Option.bind_some, hchange, Option.elim_some]
  · rw [MembershipTracker.apply_of_not_heeds hheeds, Outlook.hear_of_untold]
    · rfl
    · intro watched hwatched
      refine if_neg fun htold => hheeds ⟨?_, htold.2.trans hcollection.symm⟩
      rw [htold.1]
      exact hwatched

/-- At an event that confirms no move, only word of the occupants shows. -/
theorem Unconfirmed.outlook_eq {step : ClientStep} (h : client.Unconfirmed event step)
    (hcollection : client.membership.collection = occupantsCollection) :
    step.client.outlook = client.outlook.hear event := by
  cases h with
  | asks untold send target observer =>
    obtain ⟨⟨pending, ids, hafter⟩, -⟩ := client.requestTransition_changes send target observer
    rw [hafter, Outlook.hear_of_untold fun place _ => untold place]
    rfl
  | fails untold => exact (Outlook.hear_of_untold fun place _ => untold place).symm
  | ignores untold => exact (Outlook.hear_of_untold fun place _ => untold place).symm
  | hears place delta send => exact handleOccupants_outlook hcollection send place delta
  | watches observer => exact (Outlook.hear_of_untold fun _ _ => rfl).symm

/-- The client takes over what a confirmed move says. -/
theorem applyMove_outlook (client : Client) (reply : MoveReply) :
    (client.applyMove reply).client.outlook = client.outlook.confirm reply := by
  simp only [outlook, scenes_applyMove, Outlook.confirm]
  simp only [applyMove, MembershipTracker.reset, MembershipTracker.reconcile_tracker]

/-- An event shows in one of two ways: it confirms a move, or it tells of the occupants. -/
theorem react_outlook (hcollection : client.membership.collection = occupantsCollection)
    (event : Event) : (client.react event).client.outlook =
      (client.confirms? event).elim (client.outlook.hear event) client.outlook.confirm := by
  cases hconfirms : client.confirms? event with
  | some reply =>
    obtain ⟨pending, -, hafter, -⟩ := react_of_confirms hconfirms
    rw [hafter]
    exact applyMove_outlook { client with pending := none } reply
  | none => exact (react_unconfirmed hconfirms).outlook_eq hcollection

/-! ## What a client shows in the course of the events -/

variable {me : Identity} {events : List Event}

/-- The occupants that a client shows are always from the collection that places publish. -/
theorem run_collection (me : Identity) (events : List Event) :
    ((Client.new me).run events).membership.collection = occupantsCollection := by
  have hcollection : ((Client.new me).run events).outlook.collection = occupantsCollection :=
    List.foldlRecOn
      (motive := fun client : Client => client.outlook.collection = occupantsCollection)
      events (fun client event => (client.react event).client) rfl fun client h event _ => by
        rw [react_outlook h event]
        cases client.confirms? event with
        | none => exact h
        | some reply => exact h
  exact hcollection

/-- A client takes its events one after the other. -/
theorem run_append (client : Client) (earlier later : List Event) :
    client.run (earlier ++ later) = (client.run earlier).run later := List.foldl_append

/-- What is confirmed in the course of some events is confirmed by the first of them and then by the
rest. -/
theorem confirmed_append (client : Client) (earlier later : List Event) :
    client.confirmed (earlier ++ later) =
      client.confirmed earlier ++ (client.run earlier).confirmed later :=
  history_append client earlier later

/-- The last event confirms a move or not, after those before it. -/
theorem confirmed_concat (client : Client) (events : List Event) (event : Event) :
    client.confirmed (events ++ [event]) =
      client.confirmed events ++ ((client.run events).confirms? event).toList := by
  rw [confirmed_append]
  simp [confirmed, history]

/-- What is shown after one more event. -/
theorem outlook_concat (me : Identity) (events : List Event) (event : Event) :
    ((Client.new me).run (events ++ [event])).outlook =
      (((Client.new me).run events).confirms? event).elim
        (((Client.new me).run events).outlook.hear event)
        ((Client.new me).run events).outlook.confirm := by
  rw [run_append]
  exact react_outlook (run_collection me events) event

/-- A client to which no move was confirmed shows nothing. -/
theorem outlook_of_unconfirmed (h : (Client.new me).confirmed events = []) :
    ((Client.new me).run events).outlook = (Client.new me).outlook := by
  induction events using List.reverseRecOn with
  | nil => rfl
  | append_singleton events event ih =>
    rw [confirmed_concat, List.append_eq_nil_iff] at h
    rw [outlook_concat, Option.toList_eq_nil_iff.mp h.2, Option.elim_none, ih h.1]
    exact Outlook.hear_of_untold nofun

/-- What is shown is from the reply, and the occupants changed since then. -/
structure Outlook.Stems (outlook : Outlook) (reply : MoveReply) (changes : List SetDelta) :
    Prop where
  location : outlook.location = some ⟨reply.zone.zone, reply.scene, reply.place, reply.location⟩
  group : outlook.group = reply.group
  place : outlook.place = some reply.place
  occupants : outlook.occupants = changes.foldl OccupantSet.apply (.ofInfos reply.occupants)

/-- What a client shows right after a confirmation stems from it and from no change. -/
theorem Outlook.confirm_stems (outlook : Outlook) (reply : MoveReply) :
    (outlook.confirm reply).Stems reply [] := ⟨rfl, rfl, rfl, rfl⟩

/-- What stems from a confirmation still does after an event, with the change that it brings. -/
theorem Outlook.Stems.hear {outlook : Outlook} {changes : List SetDelta}
    (h : outlook.Stems reply changes) (event : Event) :
    (outlook.hear event).Stems reply (changes ++ (event.change? reply.place).toList) := by
  refine ⟨h.location, h.group, h.place, ?_⟩
  rw [Outlook.hear, h.place, Option.bind_some, h.occupants]
  cases event.change? reply.place with
  | none => simp
  | some delta => simp

/-- What is shown is from the move that was confirmed last, and the occupants changed since then as
was told of its place. -/
theorem run_stems (h : ((Client.new me).confirmed events).getLast? = some reply) :
    ∃ earlier event later, events = earlier ++ event :: later ∧
      ((Client.new me).run earlier).confirms? event = some reply ∧
      ((Client.new me).run (earlier ++ [event])).confirmed later = [] ∧
      ((Client.new me).run events).outlook.Stems reply
        (later.filterMap (Event.change? reply.place)) := by
  induction events using List.reverseRecOn with
  | nil => cases h
  | append_singleton events event ih =>
    rw [confirmed_concat] at h
    cases hconfirms : ((Client.new me).run events).confirms? event with
    | some latest =>
      rw [hconfirms, Option.toList_some, List.getLast?_concat, Option.some.injEq] at h
      subst h
      refine ⟨events, event, [], rfl, hconfirms, rfl, ?_⟩
      rw [outlook_concat, hconfirms]
      exact Outlook.confirm_stems _ latest
    | none =>
      rw [hconfirms, Option.toList_none, List.append_nil] at h
      obtain ⟨earlier, past, later, rfl, hpast, hlater, hstems⟩ := ih h
      refine ⟨earlier, past, later ++ [event], by simp, hpast, ?_, ?_⟩
      · rw [confirmed_concat, hlater, ← run_append, List.append_assoc, List.singleton_append,
          hconfirms]
        rfl
      · rw [outlook_concat, hconfirms, List.filterMap_append]
        exact hstems.hear event

/-- A scene that is held after a move is confirmed was brought by its reply, or was held before. -/
theorem Outlook.scenes_confirm {outlook : Outlook} {scene : SceneId} {model : SceneModel}
    (h : (outlook.confirm reply).scenes.get? scene = some model) :
    reply.sceneUpdate = some model ∨ outlook.scenes.get? scene = some model := by
  change (reply.sceneUpdate.elim outlook.scenes outlook.scenes.keep).get? scene = some model at h
  cases hupdate : reply.sceneUpdate with
  | none =>
    rw [hupdate] at h
    exact .inr h
  | some brought =>
    rw [hupdate, Option.elim_some] at h
    rcases SceneCache.get?_of_keep h with rfl | hheld
    · exact .inl rfl
    · exact .inr hheld

/-- A scene that is held was brought by a move that was confirmed. -/
theorem run_scenes_origin {scene : SceneId} {model : SceneModel}
    (h : ((Client.new me).run events).scenes.get? scene = some model) :
    ∃ reply ∈ (Client.new me).confirmed events, reply.sceneUpdate = some model := by
  induction events using List.reverseRecOn with
  | nil => cases h
  | append_singleton events event ih =>
    have hscenes := congrArg Outlook.scenes (outlook_concat me events event)
    have hafter : ((Client.new me).run (events ++ [event])).outlook.scenes.get? scene =
        some model := h
    rw [hscenes] at hafter
    rw [confirmed_concat]
    cases hconfirms : ((Client.new me).run events).confirms? event with
    | none =>
      rw [hconfirms] at hafter
      rw [Option.toList_none, List.append_nil]
      exact ih hafter
    | some latest =>
      rw [hconfirms] at hafter
      rcases Outlook.scenes_confirm hafter with hbrought | hheld
      · exact ⟨latest, by simp, hbrought⟩
      · obtain ⟨reply, hreply, hupdate⟩ := ih hheld
        exact ⟨reply, List.mem_append_left _ hreply, hupdate⟩

/-- All that a client shows after the events is from the last move that was confirmed in their
course. -/
structure Reflects (me : Identity) (events : List Event) (client : Client) : Prop where
  /-- Without any, the client shows nothing. -/
  unset : (Client.new me).confirmed events = [] →
    client.location = none ∧ client.group = none ∧ client.membership.place = none ∧
      client.membership.occupants = Table.empty ∧ client.scenes = Table.empty
  /-- Otherwise it shows what the reply to the move said, and the occupants with what was told since
  then of their place, in this order. -/
  latest : ∀ {reply}, ((Client.new me).confirmed events).getLast? = some reply →
    ∃ earlier event later, events = earlier ++ event :: later ∧
      ((Client.new me).run earlier).confirms? event = some reply ∧
      ((Client.new me).run (earlier ++ [event])).confirmed later = [] ∧
      client.location = some ⟨reply.zone.zone, reply.scene, reply.place, reply.location⟩ ∧
      client.group = reply.group ∧ client.membership.place = some reply.place ∧
      client.membership.occupants = (later.filterMap (Event.change? reply.place)).foldl
        OccupantSet.apply (.ofInfos reply.occupants)
  /-- The scenes were brought by confirmed moves. -/
  scenes : ∀ {scene model}, client.scenes.get? scene = some model → model.scene = scene ∧
    ∃ reply ∈ (Client.new me).confirmed events, reply.sceneUpdate = some model
  /-- A move is confirmed only by an answer to the pending request that says it is done. -/
  confirms : ∀ {event reply}, client.confirms? event = some reply ↔ ∃ pending send,
    client.pending = some pending ∧
      event = .hears (.response ⟨pending.request, .success (.moved reply)⟩) send
  /-- A change that is told of the place changes the occupants and nothing else. -/
  changes : ∀ {place delta} send, client.membership.place = some place →
    (client.react (.hears (.occupants place ⟨occupantsCollection, delta⟩) send)).client.outlook =
      { client.outlook with occupants := client.membership.occupants.apply delta }
  /-- Every other event changes nothing at all. -/
  steady : ∀ {event}, client.confirms? event = none →
    (∀ place delta send, client.membership.place = some place →
      event ≠ .hears (.occupants place ⟨occupantsCollection, delta⟩) send) →
    (client.react event).client.outlook = client.outlook

/-- In the course of whatever is asked of a client and told to it, what it shows is at any time from
the last move that was confirmed to it. -/
theorem run_reflects (me : Identity) (events : List Event) :
    ((Client.new me).run events).Reflects me events where
  unset h := by
    have hnothing := outlook_of_unconfirmed h
    exact ⟨congrArg Outlook.location hnothing, congrArg Outlook.group hnothing,
      congrArg Outlook.place hnothing, congrArg Outlook.occupants hnothing,
      congrArg Outlook.scenes hnothing⟩
  latest h := by
    obtain ⟨earlier, event, later, hevents, hconfirms, hlater, hstems⟩ := run_stems h
    exact ⟨earlier, event, later, hevents, hconfirms, hlater, hstems.location, hstems.group,
      hstems.place, hstems.occupants⟩
  scenes h := ⟨(run_inquires me events).filed h, run_scenes_origin h⟩
  confirms := confirms?_eq_some_iff
  changes {place delta} send hplace := by
    have hchange : Event.change? place
        (.hears (.occupants place ⟨occupantsCollection, delta⟩) send) = some delta :=
      Event.change?_eq_some_iff.mpr ⟨send, rfl⟩
    rw [react_outlook (run_collection me events)]
    simp only [confirms?, Option.elim_none, Outlook.hear, outlook, hplace, Option.bind_some,
      hchange, Option.elim_some]
  steady {event} hconfirms hdeaf := by
    rw [react_outlook (run_collection me events), hconfirms, Option.elim_none]
    refine Outlook.hear_of_untold fun place hplace => ?_
    by_contra hchange
    obtain ⟨delta, hdelta⟩ := Option.ne_none_iff_exists'.mp hchange
    obtain ⟨send, rfl⟩ := Event.change?_eq_some_iff.mp hdelta
    exact hdeaf place delta send hplace rfl

end Client

end SharedWorld
