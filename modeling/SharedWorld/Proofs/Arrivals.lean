import SharedWorld.Proofs.Mirror
import SharedWorld.Proofs.Provenance

/-!
# A client that has arrived holds its scene

A request for a transition carries the version of the scene that the client holds, or 0 if it holds
none, and the reply brings the model of the scene if that version is older than the model's. While
the request is pending the client keeps what it holds, so what the reply does not bring is there
already: a client that handles the reply then holds a model of the scene that is at least as new as
the one the move was committed with (`Server.run_arrives`). The exception is a model of version 0,
which is no newer than none: it is never sent, and a client that has no model of the scene is in a
scene that it does not hold.
-/

namespace SharedWorld

/-! ## The target on its way -/

/-- A target and a version are read back as they were written. -/
theorem MoveTarget.ofArguments_toArguments (target : MoveTarget) (version : SceneVersion)
    (method : MethodId) :
    ofArguments ⟨method, target.toArguments version⟩ = .ok (target, version) := by
  obtain ⟨⟨zone, hzone⟩, ⟨scene, hscene⟩, ⟨location, hlocation⟩⟩ := target
  have hread : ∀ {number : Nat}, number < 2 ^ 32 → (UInt32.ofNat number).toNat = number :=
    fun h => UInt32.toNat_ofNat_of_lt' h
  have hzone' : (UInt32.ofNat zone).toNat = zone := hread hzone
  have hscene' : (UInt32.ofNat scene).toNat = scene := hread hscene
  have hlocation' : (UInt32.ofNat location).toNat = location := hread hlocation
  simp only [ofArguments, toArguments, Arguments.word32, Arguments.getAs, Argument.word32?,
    bind, Except.bind, pure, Except.pure, List.getElem?_cons_zero, List.getElem?_cons_succ,
    hzone', hscene', hlocation']

namespace SceneCache

variable {scenes : SceneCache} {model : SceneModel}

/-- Every model is kept under its scene. -/
def Filed (scenes : SceneCache) : Prop :=
  ∀ ⦃scene model⦄, scenes.get? scene = some model → model.scene = scene

/-- A model of the same scene is held that is at least as new. -/
def Covers (scenes : SceneCache) (model : SceneModel) : Prop :=
  ∃ held, scenes.get? model.scene = some held ∧ held.scene = model.scene ∧
    model.version ≤ held.version

/-- Keeping a model files it under its own scene. -/
theorem Filed.keep (h : scenes.Filed) (model : SceneModel) : (scenes.keep model).Filed := by
  unfold SceneCache.keep
  split
  · exact h
  · intro scene other hother
    rcases Table.get?_insert_eq_some_iff.mp hother with ⟨rfl, rfl⟩ | ⟨-, hold⟩
    · rfl
    · exact h hold

/-- A model that is sent where it is newer than what is held is held then, or a newer one, except
that version 0 is not newer than nothing. -/
theorem Filed.covers_iff (h : scenes.Filed) (model : SceneModel) :
    (if scenes.version model.scene < model.version then scenes.keep model else scenes).Covers
      model ↔ model.version ≠ 0 ∨ (scenes.get? model.scene).isSome = true := by
  by_cases hnewer : scenes.version model.scene < model.version
  · rw [if_pos hnewer, SceneCache.keep, if_neg (UInt32.lt_asymm hnewer)]
    have hpos : 0 < model.version := UInt32.lt_of_le_of_lt UInt32.zero_le hnewer
    exact iff_of_true ⟨model, Table.get?_insert_self _ _ _, rfl, UInt32.le_refl _⟩
      (.inl (UInt32.ne_of_lt hpos).symm)
  · rw [if_neg hnewer]
    have hle := UInt32.not_lt.mp hnewer
    unfold SceneCache.version at hle
    cases hheld : scenes.get? model.scene with
    | none =>
      rw [hheld] at hle
      have hzero : model.version = 0 := UInt32.le_antisymm hle UInt32.zero_le
      refine iff_of_false ?_ (not_or.mpr ⟨not_not.mpr hzero, Bool.false_ne_true⟩)
      rintro ⟨held, hget, -⟩
      cases hheld.symm.trans hget
    | some held =>
      rw [hheld] at hle
      exact iff_of_true ⟨held, hheld, h hheld, hle⟩ (.inr rfl)

end SceneCache

/-! ## What a client holds while a request is pending -/

namespace Client

variable {client after : Client} {past requests : List Request}

/-- What can happen to a client. -/
inductive Event where
  /-- The client is asked for a transition. -/
  | asks (target : MoveTarget) (observer : Option String) (send : Request → Option Fault)
  /-- The client handles a message. -/
  | hears (message : ServerMessage) (send : Request → Option Fault)
  /-- The connection goes away. -/
  | loses
  /-- Somebody observes the client's membership. -/
  | watches (observer : String)

/-- What a client does at an event. -/
def react (client : Client) : Event → ClientStep
  | .asks target observer send => (client.requestTransition send target observer).2
  | .hears message send => client.handleMessage send message
  | .loses => client.connectionLost
  | .watches observer => { client := client.watch observer }

/-- The client after a list of events. -/
def run (client : Client) (events : List Event) : Client :=
  events.foldl (fun client event => (client.react event).client) client

/-- The requests that were sent in the course of the events, the oldest first. -/
def sends (client : Client) (events : List Event) : List Request :=
  history (fun client event => (client.react event).client)
    (fun client event => ClientEffect.requests (client.react event).effects) client events

/-- The request that a pending transition was asked for with, if the client holds the same scenes
still. -/
def inquiry (client : Client) (pending : PendingTransition) : Request :=
  ⟨pending.request, zoneService, moveToMethod,
    pending.target.toArguments (client.scenes.version pending.target.scene)⟩

/-- What an event does to the pending transition and to the scenes, with the requests it sends. -/
inductive Reaction (client after : Client) : List Request → Prop where
  | stays (same : after.pending = client.pending) (scenes : after.scenes = client.scenes) :
    Reaction client after []
  | asks {pending : PendingTransition} (asked : after.pending = some pending)
    (scenes : after.scenes = client.scenes) : Reaction client after [after.inquiry pending]
  /-- The transition is settled, and did not bring a scene. -/
  | settles (settled : after.pending = none) (scenes : after.scenes = client.scenes) :
    Reaction client after []
  | arrives (settled : after.pending = none) (model : SceneModel)
    (scenes : after.scenes = client.scenes.keep model) : Reaction client after []

/-- A transition asks for its target with the version the client has of the scene, or for
nothing. -/
theorem requestTransition_reaction (client : Client) (send : Request → Option Fault)
    (target : MoveTarget) (observer : Option String) :
    Reaction client (client.requestTransition send target observer).2.client
      (ClientEffect.requests (client.requestTransition send target observer).2.effects) := by
  unfold requestTransition
  cases hpending : client.pending with
  | some pending => exact .stays rfl rfl
  | none =>
    have hasks : Reaction client { client with
          requestIds := client.requestIds.generate.2
          pending := some ⟨client.requestIds.generate.1, target, observer⟩ } _ := .asks rfl rfl
    dsimp only
    split
    · exact .stays hpending.symm rfl
    · exact hasks

/-- Applying the reply to a move hands no request in. -/
theorem requests_applyMove (client : Client) (reply : MoveReply) :
    ClientEffect.requests (client.applyMove reply).effects = [] := by
  rw [applyMove, ClientEffect.requests_append, requests_changeGroup,
    ClientEffect.requests_membership]
  rfl

/-- The scenes a client holds after a move was confirmed to it. -/
theorem scenes_applyMove (client : Client) (reply : MoveReply) :
    (client.applyMove reply).client.scenes =
      reply.sceneUpdate.elim client.scenes client.scenes.keep := by
  unfold applyMove
  cases reply.sceneUpdate with
  | none => rfl
  | some model => rfl

/-- A response makes the client ask for nothing that its scenes do not bear out. -/
theorem handleResponse_reaction (client : Client) (response : Response) :
    Reaction client (client.handleResponse response).client
      (ClientEffect.requests (client.handleResponse response).effects) := by
  obtain ⟨request, answer⟩ := response
  unfold handleResponse
  cases hpending : client.pending with
  | none => exact .stays rfl rfl
  | some pending =>
    dsimp only
    split
    · cases answer with
      | failure fault => exact .settles rfl rfl
      | success reply =>
        cases reply with
        | ack => exact .settles rfl rfl
        | values values => exact .settles rfl rfl
        | moved reply =>
          have hrequests : ClientEffect.requests ({ client with pending := none }.settle pending
              (.success (.moved reply))).effects = [] := by
            rw [settle, ClientEffect.requests_append, requests_applyMove]
            rfl
          have hscenes := scenes_applyMove { client with pending := none } reply
          rw [hrequests]
          cases hupdate : reply.sceneUpdate with
          | none =>
            rw [hupdate] at hscenes
            exact .settles rfl hscenes
          | some model =>
            rw [hupdate] at hscenes
            exact .arrives rfl model hscenes
    · exact .stays rfl rfl

/-- Whatever happens to a client, its requests go out with versions that it has. -/
theorem react_reaction (client : Client) (event : Event) :
    Reaction client (client.react event).client
      (ClientEffect.requests (client.react event).effects) := by
  cases event with
  | asks target observer send => exact client.requestTransition_reaction send target observer
  | hears message send =>
    cases message with
    | response response => exact client.handleResponse_reaction response
    | occupants place delta =>
      have hrequests : ClientEffect.requests
          (client.handleMessage send (.occupants place delta)).effects = [] :=
        ClientEffect.requests_membership _
      rw [react, hrequests]
      exact .stays rfl rfl
    | forcedMove zone scene =>
      exact client.requestTransition_reaction send ⟨zone, scene, 0⟩ none
  | loses =>
    unfold react connectionLost
    cases hpending : client.pending with
    | none => exact .stays rfl rfl
    | some pending => exact .settles rfl rfl
  | watches observer => exact .stays rfl rfl

/-- The pending transition was asked for last, with the scenes that the client holds. -/
structure Inquires (past : List Request) (client : Client) : Prop where
  filed : client.scenes.Filed
  last : ∀ pending ∈ client.pending, past.getLast? = some (client.inquiry pending)

/-- What a client has asked for stays borne out by the scenes that it keeps. -/
theorem Reaction.inquires (reaction : Reaction client after requests) (h : client.Inquires past) :
    after.Inquires (past ++ requests) := by
  cases reaction with
  | stays same scenes =>
    refine ⟨by rw [scenes]; exact h.filed, fun pending hpending => ?_⟩
    rw [List.append_nil, inquiry, scenes]
    rw [same] at hpending
    exact h.last pending hpending
  | @asks pending asked scenes =>
    refine ⟨by rw [scenes]; exact h.filed, fun other hother => ?_⟩
    rw [asked] at hother
    cases hother
    exact List.getLast?_concat
  | settles settled scenes =>
    refine ⟨by rw [scenes]; exact h.filed, fun pending hpending => ?_⟩
    rw [settled] at hpending
    cases hpending
  | arrives settled model scenes =>
    refine ⟨by rw [scenes]; exact h.filed.keep model, fun pending hpending => ?_⟩
    rw [settled] at hpending
    cases hpending

/-- All that a client ever asked for is borne out by the scenes that it keeps. -/
theorem run_inquires (me : Identity) (events : List Event) :
    ((Client.new me).run events).Inquires ((Client.new me).sends events) := by
  have hrun := foldl_history_induction (P := Inquires)
    (fun past client event h => (client.react_reaction event).inquires h)
    (show Inquires [] (Client.new me) from ⟨nofun, nofun⟩) events
  exact hrun

end Client

/-! ## The reply to a request -/

/-- The reply to a move brings the model exactly if the caller's version is older. -/
theorem MoveRequest.Commits.reply_eq {move : MoveRequest} {model : SceneModel} {reply : MoveReply}
    (h : move.Commits model reply) :
    reply.scene = model.scene ∧
      reply.sceneUpdate = if move.version < model.version then some model else none := by
  obtain ⟨-, world, zone, after, hcommit⟩ := h
  unfold commit at hcommit
  split at hcommit
  · cases hcommit
  · dsimp only at hcommit
    split at hcommit
    · cases hcommit
    · cases hcommit
      exact ⟨rfl, rfl⟩

/-- A client that handles the reply to its request holds the model of the scene, unless the model is
of version 0 and the client had none. -/
theorem Client.Inquires.covers_iff {past : List Request} {client : Client}
    (h : client.Inquires past) {pending : PendingTransition}
    (hpending : client.pending = some pending) {move : MoveRequest}
    (hscene : move.target.scene = pending.target.scene)
    (hversion : move.version = client.scenes.version pending.target.scene) {model : SceneModel}
    {reply : MoveReply} (hcommits : move.Commits model reply) :
    (client.handleResponse ⟨pending.request, .success (.moved reply)⟩).client.scenes.Covers model ↔
      model.version ≠ 0 ∨ (client.scenes.get? model.scene).isSome = true := by
  have hmodel : model.scene = pending.target.scene := hcommits.1.trans hscene
  have hscenes : (client.handleResponse ⟨pending.request, .success (.moved reply)⟩).client.scenes =
      if client.scenes.version model.scene < model.version then client.scenes.keep model
      else client.scenes := by
    simp only [handleResponse, hpending, if_true, settle, scenes_applyMove, hcommits.reply_eq.2,
      hversion, ← hmodel]
    split
    · rfl
    · rfl
  rw [hscenes]
  exact h.filed.covers_iff model

namespace Server

/-- The server reads a client's request as it was meant. -/
theorem moveFor?_inquiry {server : Server} {me : Identity} {client : Client}
    {pending : PendingTransition} {move : MoveRequest}
    (h : server.moveFor? me (client.inquiry pending) = some move) :
    move.target = pending.target ∧
      move.version = client.scenes.version pending.target.scene := by
  rw [moveFor?, if_pos ⟨rfl, rfl⟩, Client.inquiry] at h
  dsimp only at h
  rw [MoveTarget.ofArguments_toArguments] at h
  obtain ⟨entity, -, rfl⟩ := Option.map_eq_some_iff.mp h
  exact ⟨rfl, rfl⟩

/-- Whatever happened to a client before it asked for the transition that is pending, and whatever
happens to the server before it runs the request and after: if the server replies that the move is
completed, the move was committed with a model of its target scene, the reply is about that scene,
and once the client has handled it, the client holds a model of the scene that is at least as new,
except if the version of the committed one is 0 and the client had no model of the scene. -/
theorem run_arrives (config : ServerConfig) {loader : Loader CacheKey Bundle}
    (hloader : loader.Names) {before after : List Action}
    (hactions : ∀ action ∈ before ++ .serve :: after, action.Names) (me : Identity)
    (events : List Client.Event) {client : Client} (hclient : client = (Client.new me).run events)
    {pending : PendingTransition} (hpending : client.pending = some pending) {request : Request}
    (hsent : ((Client.new me).sends events).getLast? = some request)
    {rest : List (Identity × Request)}
    (hserved : ((Server.new config loader).run before).requests = (me, request) :: rest)
    {final : Server} (hfinal : final = (Server.new config loader).run (before ++ .serve :: after))
    {reply : MoveReply} (hreply : .answer
      (((Server.new config loader).run before).listenerFor me request)
      (.success (.moved reply)) ∈ final.journal ++ final.world.effects) :
    ∃ move, ((Server.new config loader).run before).moveFor? me request = some move ∧
      move.target = pending.target ∧ (∃ model, move.Commits model reply) ∧
      ∀ {model}, move.Commits model reply → reply.scene = model.scene ∧
        ((client.handleResponse
            ⟨request.request, .success (.moved reply)⟩).client.scenes.Covers model ↔
          model.version ≠ 0 ∨ (client.scenes.get? model.scene).isSome = true) := by
  have hinquires : client.Inquires ((Client.new me).sends events) := by
    rw [hclient]
    exact Client.run_inquires me events
  obtain rfl : request = client.inquiry pending :=
    Option.some.inj (hsent.symm.trans (hinquires.last pending hpending))
  obtain ⟨move, model, hmove, hcommits⟩ := run_founded config hloader hactions hserved hfinal hreply
  obtain ⟨htarget, hversion⟩ := moveFor?_inquiry hmove
  refine ⟨move, hmove, htarget, ⟨model, hcommits⟩, fun {model} hcommits =>
    ⟨hcommits.reply_eq.1, ?_⟩⟩
  exact hinquires.covers_iff hpending (congrArg _ htarget) hversion hcommits

/-- The reply to a move to a spot of the square of the town, where nobody else is. -/
def atSquare (spot : LocationId) (update : Option SceneModel) : MoveReply :=
  ⟨1, ⟨1, "town", []⟩, 1, spot, none, update, [⟨1, ⟨"ada"⟩, .active, spot⟩]⟩

/-- Ada's client goes to the square, is told so, and asks for another spot of it. -/
def stroll : List Client.Event :=
  [.asks ⟨1, 1, 1⟩ none fun _ => none,
    .hears (.response ⟨1, .success (.moved (atSquare 1
      (some ⟨1, 1, 1, "square", [⟨1, none⟩, ⟨2, none⟩], some 2, []⟩)))⟩) fun _ => none,
    .asks ⟨1, 1, 2⟩ none fun _ => none]

/-- The request for the other spot, by somebody who holds the square. -/
def strollOn : Request := ⟨2, zoneService, moveToMethod, MoveTarget.toArguments ⟨1, 1, 2⟩ 1⟩

/-- What happens to the server until that request has arrived. -/
def beforeStroll : List Action :=
  [.connect 0 1 ⟨"ada"⟩ none, .follow, .move ⟨"ada"⟩ ⟨1, 1, 1⟩, .serve, .settle, .advance [1],
    .settle, .advance [1], .requestAs ⟨"ada"⟩ strollOn]

/-- The square is not sent again, and the client holds it still. -/
theorem stroll_covers :
    ∃ move, ((Server.new {} .town).run beforeStroll).moveFor? ⟨"ada"⟩ strollOn = some move ∧
      ∃ model, move.Commits model (atSquare 2 none) ∧
        (((Client.new ⟨"ada"⟩).run stroll).handleResponse
          ⟨2, .success (.moved (atSquare 2 none))⟩).client.scenes.Covers model := by
  have hactions : ∀ action ∈ beforeStroll ++ .serve :: [], action.Names := by
    simp [beforeStroll, Action.move, Action.Tells]
  have hpending : ((Client.new ⟨"ada"⟩).run stroll).pending = some ⟨2, ⟨1, 1, 2⟩, none⟩ := by
    decide +kernel
  have hsent : ((Client.new ⟨"ada"⟩).sends stroll).getLast? = some strollOn := by decide +kernel
  have hserved : ((Server.new {} .town).run beforeStroll).requests = [(⟨"ada"⟩, strollOn)] := by
    decide +kernel
  have hreply : .answer (((Server.new {} .town).run beforeStroll).listenerFor ⟨"ada"⟩ strollOn)
      (.success (.moved (atSquare 2 none))) ∈
        ((Server.new {} .town).run (beforeStroll ++ .serve :: [])).journal ++
          ((Server.new {} .town).run (beforeStroll ++ .serve :: [])).world.effects := by
    decide +kernel
  have hheld : (((Client.new ⟨"ada"⟩).run stroll).scenes.get? 1).isSome = true := by decide +kernel
  obtain ⟨move, hmove, -, ⟨model, hcommits⟩, harrives⟩ := run_arrives {} Loader.town_names hactions
    ⟨"ada"⟩ stroll rfl hpending hsent hserved rfl hreply
  obtain ⟨hscene, hcovers⟩ := harrives hcommits
  rw [show (1 : SceneId) = model.scene from hscene] at hheld
  exact ⟨move, hmove, model, hcommits, hcovers.mpr (.inr hheld)⟩

/-- Ada's client asks to go to the square for the first time. -/
def visitSquare : List Client.Event := [.asks ⟨1, 1, 1⟩ none fun _ => none]

/-- The request that it sends. -/
def firstVisit : Request := ⟨1, zoneService, moveToMethod, MoveTarget.toArguments ⟨1, 1, 1⟩ 0⟩

/-- What happens to the server until that request has arrived. -/
def beforeVisit : List Action :=
  [.connect 0 1 ⟨"ada"⟩ none, .follow, .requestAs ⟨"ada"⟩ firstVisit]

/-- Both loads that the request starts are settled. -/
def afterVisit : List Action := [.settle, .advance [1], .settle, .advance [1]]

end Server

/-- A store that has every zone and, under every id, a scene of version 0. -/
def Loader.draft : Loader CacheKey Bundle := .immediate fun
  | .zone zone => .loaded (.zone ⟨zone, "town", []⟩)
  | .scene scene => .loaded (.scene ⟨scene, 1, 0, "square", [⟨1, none⟩], none, []⟩)

/-- The loader of the draft brings each scene under its own name. -/
theorem Loader.draft_names : Loader.draft.Names := by
  refine immediate_tells fun {key payload} hloaded scene model hkey hbundle => ?_
  subst hkey hbundle
  cases hloaded
  rfl

namespace Server

/-- A client that has arrived in a scene of version 0 for the first time does not hold it. -/
theorem draft_uncovered :
    Loader.draft.Names ∧
      ((Client.new ⟨"ada"⟩).run visitSquare).pending = some ⟨1, ⟨1, 1, 1⟩, none⟩ ∧
      ((Client.new ⟨"ada"⟩).sends visitSquare).getLast? = some firstVisit ∧
      ((Server.new {} .draft).run beforeVisit).requests = [(⟨"ada"⟩, firstVisit)] ∧
      .answer (((Server.new {} .draft).run beforeVisit).listenerFor ⟨"ada"⟩ firstVisit)
          (.success (.moved (atSquare 1 none))) ∈
        ((Server.new {} .draft).run (beforeVisit ++ .serve :: afterVisit)).world.effects ∧
      ∃ move model,
        ((Server.new {} .draft).run beforeVisit).moveFor? ⟨"ada"⟩ firstVisit = some move ∧
          move.Commits model (atSquare 1 none) ∧
          ¬(((Client.new ⟨"ada"⟩).run visitSquare).handleResponse
            ⟨1, .success (.moved (atSquare 1 none))⟩).client.scenes.Covers model := by
  have hserved : ((Server.new {} .draft).run beforeVisit).requests = [(⟨"ada"⟩, firstVisit)] := by
    decide +kernel
  have hreply : .answer (((Server.new {} .draft).run beforeVisit).listenerFor ⟨"ada"⟩ firstVisit)
      (.success (.moved (atSquare 1 none))) ∈
        ((Server.new {} .draft).run (beforeVisit ++ .serve :: afterVisit)).world.effects := by
    decide +kernel
  have hnone : (((Client.new ⟨"ada"⟩).run visitSquare).handleResponse
      ⟨1, .success (.moved (atSquare 1 none))⟩).client.scenes.get? 1 = none := by decide +kernel
  have hactions : ∀ action ∈ beforeVisit ++ .serve :: afterVisit, action.Names := by
    simp [beforeVisit, afterVisit, Action.Tells]
  obtain ⟨move, model, hmove, hcommits⟩ := run_founded {} Loader.draft_names hactions hserved rfl
    (List.mem_append_right _ hreply)
  refine ⟨Loader.draft_names, by decide +kernel, by decide +kernel, hserved, hreply, move, model,
    hmove, hcommits, ?_⟩
  rintro ⟨held, hheld, -⟩
  rw [← hcommits.reply_eq.1] at hheld
  cases hnone.symm.trans hheld

end Server

end SharedWorld
