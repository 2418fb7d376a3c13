import SharedWorld.Proofs.Views

/-!
# Every participant is told what it should be shown

Whatever a server does, it shows each participant the outcome: a participant that hears all that was
sent to it, and nothing else, is shown the world as it is (`run_informs`). A move is made for the
body of the participant that asked for it and for no other, so the full account of a place goes to
the one that came.
-/

namespace SharedWorld

variable {me : Identity}

/-- A move stays that of its participant while names stay the same. -/
theorem MoveRequest.Owned.of_sameNames {request : MoveRequest} {before after : World}
    (h : request.Owned before) (same : before.SameNames after) : request.Owned after where
  issued := by
    rw [same.entityIds]
    exact h.issued
  caller hbody := by
    obtain ⟨body, hbefore, -, hidentity⟩ := same.exists_body hbody
    exact hidentity.symm.trans (h.caller hbefore)

/-! ## The operations on bodies -/

/-- The effect sends no response but as the answer to a request. -/
def Effect.Proper (effect : Effect) : Prop :=
  ∀ recipient response, effect ≠ .message recipient (.response response)

/-- An answer is the proper way to respond. -/
theorem Effect.proper_answer (listener : Listener) (answer : Answer) :
    (Effect.answer listener answer).Proper := nofun

/-- No response is on its way but as the answer to a request. -/
def World.Proper (world : World) : Prop := ∀ effect ∈ world.effects, effect.Proper

/-- Effects stay proper when a proper one is recorded. -/
theorem World.Proper.record {world : World} (h : world.Proper) {effect : Effect}
    (heffect : effect.Proper) : (world.record effect).Proper := by
  intro other hother
  rcases List.mem_append.mp hother with hold | hnew
  · exact h other hold
  · rw [List.mem_singleton.mp hnew]
    exact heffect

/-- What happened between the worlds keeps their records, is shown to the participant, leaves every
request with its caller, and sends no response but as an answer. -/
structure World.Tells (me : Identity) (before after : World) : Prop where
  keeps : before.KeepsSound after
  proper : before.Proper → after.Proper
  shows : before.Sound → after.Unwrapped → Shows me before after
  owns : before.Sound → after.Unwrapped → ∀ {request : MoveRequest},
    request.Owned before → request.Owned after

namespace World

variable {before after world : World}

/-- Nothing has to be told when nothing is done. -/
theorem Tells.refl (me : Identity) (world : World) : Tells me world world :=
  ⟨.refl world, id, fun _ _ => .refl me world, fun _ _ => id⟩

/-- Effects stay proper when there are but notices and answers. -/
theorem Notifies.proper (h : before.Notifies after) (hbefore : before.Proper) :
    after.Proper := by
  obtain ⟨notices, heffects, hnotices⟩ := h
  intro effect hmem
  rw [heffects] at hmem
  rcases List.mem_append.mp hmem with hold | hnew
  · exact hbefore effect hold
  · obtain ⟨recipient, place, delta, rfl⟩ := hnotices effect hnew
    exact nofun

/-- Everyone is told step by step. -/
theorem Tells.trans {middle : World} (first : Tells me before middle)
    (rest : Tells me middle after) : Tells me before after where
  keeps := first.keeps.trans rest.keeps
  proper h := rest.proper (first.proper h)
  shows h hafter := by
    have hmiddle := rest.keeps.unwrapped hafter
    exact (first.shows h hmiddle).trans (rest.shows (first.keeps.sound h hmiddle) hafter)
  owns h hafter _ hrequest := by
    have hmiddle := rest.keeps.unwrapped hafter
    exact rest.owns (first.keeps.sound h hmiddle) hafter (first.owns h hmiddle hrequest)

/-- Nothing has to be told of the cache and of the changes. -/
theorem tells_beside (me : Identity) (world : World) (cache : Cache CacheKey Bundle)
    (changes : List BodyChange) :
    Tells me world { world with cache := cache, changes := changes } where
  keeps := world.keepsSound_beside cache changes world.effects
  proper := id
  shows _ _ := shows_of_same rfl rfl rfl
  owns _ _ _ hrequest := hrequest.of_sameNames ⟨fun _ => rfl, rfl, rfl⟩

/-- A record of something that no participant gets to know. -/
theorem tells_record (world : World) {effect : Effect} (hproper : effect.Proper)
    (h : ∀ view : View, view.follow me [effect] = view) : Tells me world (world.record effect) where
  keeps := world.keepsSound_beside _ _ _
  proper hbefore := hbefore.record hproper
  shows _ _ := shows_record h
  owns _ _ _ hrequest := hrequest.of_sameNames ⟨fun _ => rfl, rfl, rfl⟩

/-- Nobody gets to know anything from a request that fails. -/
theorem tells_failure (me : Identity) (world : World) (listener : Listener) (fault : Fault) :
    Tells me world (world.record (.answer listener (.failure fault))) :=
  world.tells_record (Effect.proper_answer _ _) fun view => view.follow_failure me listener fault

/-- Everyone is told when a body leaves its place. -/
theorem tells_leavePlace (me : Identity) (world : World) (entity : EntityId) :
    Tells me world (world.leavePlace entity).2 where
  keeps := keepsSound_leavePlace world entity
  proper := (leavePlace_outcome world entity).notifies.proper
  shows h _ := (leavePlace_outcome world entity).shows h.registers.labeled h.registers.distinct
    h.houses me
  owns h _ _ hrequest :=
    hrequest.of_sameNames ((leavePlace_outcome world entity).sameNames h.registers.labeled)

/-- Everyone is told when a body gets a status. -/
theorem tells_setStatus (me : Identity) (world : World) (identity : Identity)
    (status : OccupantStatus) : Tells me world (world.setStatus identity status) where
  keeps := keepsSound_setStatus world identity status
  proper := (setStatus_outcome world identity status).notifies.proper
  shows h _ := (setStatus_outcome world identity status).shows h.registers.labeled h.houses me
  owns h _ _ hrequest :=
    hrequest.of_sameNames ((setStatus_outcome world identity status).sameNames h.registers.labeled)

/-- A new body has an entity that no request was made for. -/
theorem tells_createBody (me : Identity) (world : World) (identity : Identity) :
    Tells me world (world.createBody identity).2 where
  keeps := keepsSound_createBody world identity
  proper := (notifies_createBody world identity).proper
  shows h hafter := shows_createBody h.registers identity hafter.entityIds me
  owns h hafter request hrequest := by
    cases hknown : world.entities.get? identity with
    | some entity => rwa [createBody_of_some hknown]
    | none =>
      rw [createBody_of_none hknown] at hafter ⊢
      have hpeek := IdGenerator.peek_val h.registers.first hafter.entityIds
      have hissued := hrequest.issued
      refine ⟨Nat.le_succ_of_le hissued, fun {body} hbody => ?_⟩
      change (Table.insert _ _ _).get? request.entity = some body at hbody
      rw [Table.get?_insert, if_neg] at hbody
      · exact hrequest.caller hbody
      · intro hsame
        rw [hsame, hpeek] at hissued
        omega

/-- Everyone is told when a body is removed. -/
theorem tells_removeBody (me : Identity) (world : World) (identity : Identity) :
    Tells me world (world.removeBody identity).2 where
  keeps := keepsSound_removeBody world identity
  proper := (removeBody_outcome world identity).notifies.proper
  shows h _ := (removeBody_outcome world identity).shows h me
  owns h _ request hrequest := by
    have houtcome := removeBody_outcome world identity
    generalize (world.removeBody identity).2 = after at houtcome
    cases houtcome with
    | unknown => exact hrequest
    | @removes entity change left named leaves =>
      have hleft : request.Owned left := by
        have hstart : request.Owned { world with entities := world.entities.erase identity } :=
          ⟨hrequest.issued, hrequest.caller⟩
        exact hstart.of_sameNames (leaves.sameNames h.registers.labeled)
      refine ⟨hleft.issued, fun {body} hbody => hleft.caller ?_⟩
      change (left.bodies.erase entity).get? request.entity = some body at hbody
      rw [Table.get?_erase] at hbody
      split at hbody
      · cases hbody
      · exact hbody

end World

/-- Everyone is told when an event of a session is followed. -/
theorem Server.tells_followSession (me : Identity) (world : World) (event : SessionEvent) :
    World.Tells me world (followSession world event) := by
  cases event with
  | started key identity => exact world.tells_createBody me identity
  | resumed key identity =>
    exact (world.tells_createBody me identity).trans (World.tells_setStatus me _ identity .active)
  | disconnected key identity cause => exact world.tells_setStatus me identity .disconnected
  | ended key identity => exact world.tells_removeBody me identity

/-! ## One move -/

namespace MoveRequest

variable {request : MoveRequest}

/-- Nobody gets to know anything from a move that has failed before it went into a place. -/
theorem tells_finish_failure (me : Identity) (request : MoveRequest) (realm : Realm)
    (held : List CacheKey) (fault : Fault) :
    World.Tells me realm.world (request.finish realm held (.failure fault)).world := by
  rw [finish, World.foldl_release]
  exact (realm.world.tells_failure me request.listener fault).trans (World.tells_beside me _ _ _)

/-- A move that has its scene leaves the names alone. -/
theorem EntryOutcome.sameNames {world after : World} {zone : ZoneSummary} {model : SceneModel}
    {answer : Answer} (outcome : EntryOutcome request world zone model answer after)
    (h : world.Labeled) : world.SameNames after := by
  have hmade := (World.sameBodies_placeFor world model).sameNames
  have hlabeled := h.of_sameNames hmade
  cases outcome with
  | unlisted => exact ⟨fun _ => rfl, rfl, rfl⟩
  | refused commit => exact hmade.trans (commit.sameNames hlabeled)
  | entered commit => exact hmade.trans (commit.sameNames hlabeled)

/-- A move that goes into a place shows what it did with its answer. -/
theorem tells_finish_commit (me : Identity) {realm : Realm} {zone : ZoneSummary}
    {model : SceneModel} {answer : Answer} {after : World}
    (howned : realm.world.Unwrapped → request.Owned realm.world)
    (hcommit : request.commit realm.world zone model = (answer, after)) (held : List CacheKey) :
    World.Tells me realm.world
      (request.finish { realm with world := after } held answer).world := by
  have houtcome := request.commit_outcome realm.world zone model
  rw [hcommit] at houtcome
  have hanswer : World.Tells me realm.world (after.record (.answer request.listener answer)) := by
    constructor
    case keeps => exact houtcome.keepsSound.trans (after.keepsSound_beside _ _ _)
    case proper =>
      exact fun hbefore => (houtcome.notifies.proper hbefore).record (Effect.proper_answer _ _)
    case shows =>
      intro h hafter
      have hafter' : after.Unwrapped := ⟨hafter.entityIds, hafter.placeIds⟩
      exact houtcome.shows h hafter' (howned (houtcome.keepsSound.unwrapped hafter')) me
    case owns =>
      intro h _ other hother
      have hnames := houtcome.sameNames h.registers.labeled
      exact hother.of_sameNames ⟨hnames.names, hnames.entities, hnames.entityIds⟩
  rw [finish, World.foldl_release]
  exact hanswer.trans (World.tells_beside me _ _ _)

end MoveRequest

/-- Nothing has to be told of a call of a policy. -/
theorem Realm.tells_consult (me : Identity) (realm : Realm) (zone : ZoneId) (call : PolicyCall) :
    World.Tells me realm.world (realm.consult zone call).world :=
  realm.world.tells_record nofun fun _ => rfl

/-- Nothing has to be told when a policy is told of a body. -/
theorem Realm.tells_announce (me : Identity) (realm : Realm) (entity : EntityId) (zone : ZoneId) :
    World.Tells me realm.world (realm.announce entity zone).world := by
  unfold announce
  split
  · exact realm.tells_consult me zone _
  · exact .refl me _

namespace Flight

variable {request : MoveRequest} {resolution : Resolution CacheKey Bundle} {realm realm' : Realm}
  {flight : Option Flight}

/-- Everyone is told when a move has looked for its scene. -/
theorem SceneOutcome.tells {zone : ZoneSummary}
    (outcome : SceneOutcome request zone resolution realm flight realm') (me : Identity)
    (howned : realm.world.Unwrapped → request.Owned realm.world) :
    World.Tells me realm.world realm'.world := by
  cases outcome with
  | waits => exact .refl me _
  | missing => exact request.tells_finish_failure me realm request.keys _
  | refused load scene commit => exact MoveRequest.tells_finish_commit me howned commit _
  | entered load scene commit =>
    have hfinish := MoveRequest.tells_finish_commit me howned commit request.keys
    exact hfinish.trans (Realm.tells_announce me _ request.entity zone.zone)

/-- Everyone is told when a move has looked for its zone. -/
theorem ZoneOutcome.tells (outcome : ZoneOutcome request resolution realm flight realm')
    (me : Identity) (howned : realm.world.Unwrapped → request.Owned realm.world) :
    World.Tells me realm.world realm'.world := by
  cases outcome with
  | waits => exact .refl me _
  | missing => exact request.tells_finish_failure me realm _ _
  | bodyless => exact request.tells_finish_failure me realm _ _
  | @vetoed _ summary body =>
    have hratify : World.Tells me realm.world (realm.ratify body summary).2.world :=
      realm.tells_consult me summary.zone _
    exact hratify.trans (request.tells_finish_failure me _ _ _)
  | @admitted _ summary body flight _ _ _ _ _ scene =>
    have hratify : World.Tells me realm.world (realm.ratify body summary).2.world :=
      realm.tells_consult me summary.zone _
    have hacquire : World.Tells me (realm.ratify body summary).2.world
        ((realm.ratify body summary).2.acquire (.scene request.target.scene)).2.world :=
      World.tells_beside me _ _ _
    refine (hratify.trans hacquire).trans (scene.tells me fun hunwrapped => ?_)
    exact (howned ⟨hunwrapped.entityIds, hunwrapped.placeIds⟩).of_sameNames
      ⟨fun _ => rfl, rfl, rfl⟩

/-- Everyone is told when a move is taken on. -/
theorem tells_step (me : Identity) (flight : Flight) (realm : Realm)
    (howned : realm.world.Unwrapped → flight.request.Owned realm.world) :
    World.Tells me realm.world (flight.step realm).2.world := by
  unfold step
  split
  · exact (stepZone_outcome _ _ _).tells me howned
  · exact (stepScene_outcome _ _ _ _).tells me howned

/-- Everyone is told when a move begins. -/
theorem tells_launch (me : Identity) (request : MoveRequest) (realm : Realm)
    (howned : realm.world.Unwrapped → request.Owned realm.world) :
    World.Tells me realm.world (launch request realm).2.world := by
  have hacquire : World.Tells me realm.world
      (realm.acquire (.zone request.target.zone)).2.world :=
    World.tells_beside me _ _ _
  refine hacquire.trans ((stepZone_outcome request _ _).tells me fun hunwrapped => ?_)
  exact (howned ⟨hunwrapped.entityIds, hunwrapped.placeIds⟩).of_sameNames
    ⟨fun _ => rfl, rfl, rfl⟩

end Flight

/-! ## The moves of all bodies -/

/-- Every request that was not answered is about a body of its caller. -/
structure Pipeline.Owned (pipeline : Pipeline) (world : World) : Prop where
  inFlight : ∀ {entity flight}, pipeline.inFlight.get? entity = some flight →
    flight.request.Owned world
  queued : ∀ {entity request}, request ∈ pipeline.queueOf entity → request.Owned world

namespace Pipeline

variable {pipeline : Pipeline} {world before : World} {entity : EntityId} {flight : Flight}
  {requests : List MoveRequest}

/-- A move of an owned request can be put under way. -/
theorem Owned.insert (h : pipeline.Owned world) (hflight : flight.request.Owned world) :
    Owned { pipeline with inFlight := pipeline.inFlight.insert entity flight } world where
  inFlight hget := by
    rw [Table.get?_insert] at hget
    split at hget
    · cases hget
      exact hflight
    · exact h.inFlight hget
  queued := h.queued

/-- The moves stay those of their participants when one is taken out. -/
theorem Owned.erase (h : pipeline.Owned world) (entity : EntityId) :
    Owned { pipeline with inFlight := pipeline.inFlight.erase entity } world where
  inFlight hget := by
    rw [Table.get?_erase] at hget
    split at hget
    · cases hget
    · exact h.inFlight hget
  queued := h.queued

/-- The queue of a body can be replaced by owned requests, whatever it was. -/
theorem Owned.setQueue (h : (pipeline.setQueue entity []).Owned world)
    (hrequests : ∀ request ∈ requests, request.Owned world) :
    (pipeline.setQueue entity requests).Owned world where
  inFlight := h.inFlight
  queued {other request} hmem := by
    have hqueued : request ∈ (pipeline.setQueue entity []).queueOf other → request.Owned world :=
      h.queued
    rw [queueOf_setQueue] at hmem hqueued
    split at hmem
    · exact hrequests request hmem
    · rw [if_neg ‹_›] at hqueued
      exact hqueued hmem

/-- A queue can be emptied. -/
theorem Owned.clear (h : pipeline.Owned world) (entity : EntityId) :
    (pipeline.setQueue entity []).Owned world where
  inFlight := h.inFlight
  queued {other request} hmem := by
    rw [queueOf_setQueue] at hmem
    split at hmem
    · cases hmem
    · exact h.queued hmem

/-- The moves stay those of their participants while names stay the same. -/
theorem Owned.of_sameNames {after : World} (h : pipeline.Owned before)
    (same : before.SameNames after) : pipeline.Owned after where
  inFlight hget := (h.inFlight hget).of_sameNames same
  queued hmem := (h.queued hmem).of_sameNames same

/-- The moves stay those of their participants when everyone is told. -/
theorem Owned.of_tells {after : World} (h : pipeline.Owned before)
    (htells : World.Tells me before after) (hbefore : before.Sound) (hafter : after.Unwrapped) :
    pipeline.Owned after where
  inFlight hget := htells.owns hbefore hafter (h.inFlight hget)
  queued hmem := htells.owns hbefore hafter (h.queued hmem)

/-- Whatever is told in a step of a move is told in any number of them. -/
theorem tells_invariant (me : Identity) (hbefore : before.Sound) :
    Pipeline.Invariant
      (fun pipeline realm => pipeline.Owned before ∧ World.Tells me before realm.world)
      (fun entity requests pipeline realm => (pipeline.setQueue entity []).Owned before ∧
        (∀ request ∈ requests, request.Owned before) ∧ World.Tells me before realm.world) where
  waits {_ realm _ flight _ _} := by
    rintro ⟨howned, htells⟩ hflight hstep
    have hrequest := howned.inFlight hflight
    have hreplied := flight.step_replied realm
    have htold := flight.tells_step me realm fun hunwrapped =>
      htells.owns hbefore hunwrapped hrequest
    rw [hstep] at hreplied htold
    rw [← hreplied.1] at hrequest
    exact ⟨howned.insert hrequest, htells.trans htold⟩
  answers {_ realm entity flight _} := by
    rintro ⟨howned, htells⟩ hflight hstep
    have hrequest := howned.inFlight hflight
    have htold := flight.tells_step me realm fun hunwrapped =>
      htells.owns hbefore hunwrapped hrequest
    rw [hstep] at htold
    exact ⟨(howned.erase entity).clear entity, fun _ hmem => howned.queued hmem, htells.trans htold⟩
  passes {_ realm _ request _ _} := by
    rintro ⟨howned, hrequests, htells⟩ hlaunch
    have hrequest := hrequests request List.mem_cons_self
    have htold := Flight.tells_launch me request realm fun hunwrapped =>
      htells.owns hbefore hunwrapped hrequest
    rw [hlaunch] at htold
    exact ⟨howned, fun other hother => hrequests other (List.mem_cons_of_mem _ hother),
      htells.trans htold⟩
  parks {_ realm _ request _ _ _} := by
    rintro ⟨howned, hrequests, htells⟩ hlaunch
    have hrequest := hrequests request List.mem_cons_self
    have hreplied := Flight.launch_replied request realm
    have htold := Flight.tells_launch me request realm fun hunwrapped =>
      htells.owns hbefore hunwrapped hrequest
    rw [hlaunch] at hreplied htold
    have hrest := howned.setQueue fun other hother =>
      hrequests other (List.mem_cons_of_mem _ hother)
    rw [← hreplied.1] at hrequest
    exact ⟨hrest.insert hrequest, htells.trans htold⟩
  rests := by
    rintro _ _ _ ⟨howned, -, htells⟩
    exact ⟨howned, htells⟩

end Pipeline

/-- Everyone is told when a move is handed to the pipeline. -/
theorem Simulation.tells_beginMove {me : Identity} {before : World} (simulation : Simulation)
    {request : MoveRequest} (hbefore : before.Sound)
    (howned : simulation.pipeline.Owned before) (hrequest : request.Owned before)
    (htells : World.Tells me before simulation.world) :
    (simulation.beginMove request).pipeline.Owned before ∧
      World.Tells me before (simulation.beginMove request).world := by
  have hall : ∀ other ∈ request :: simulation.pipeline.queueOf request.entity,
      other.Owned before := by
    intro other hother
    rcases List.mem_cons.mp hother with rfl | hqueued
    · exact hrequest
    · exact howned.queued hqueued
  refine (Pipeline.tells_invariant me hbefore).begin request
    ⟨(howned.clear request.entity).setQueue fun other hother => hall other ?_, htells⟩
    fun _ => ⟨howned.clear request.entity, hall, htells⟩
  rcases List.mem_append.mp hother with hqueued | hnew
  · exact List.mem_cons_of_mem _ hqueued
  · rw [List.mem_singleton.mp hnew]
    exact List.mem_cons_self

/-! ## The server -/

namespace Server

variable {server after : Server}

/-- Everyone is told when a request is dispatched. -/
theorem Served.tells {caller : Identity} {request : Request} {move : Option MoveRequest}
    {simulation : Simulation} (served : Served server caller request move simulation)
    (me : Identity) (h : server.world.Sound)
    (howned : server.simulation.pipeline.Owned server.world) :
    simulation.pipeline.Owned server.world ∧ World.Tells me server.world simulation.world := by
  have hserved : ∀ layer, World.Tells me server.world
      (server.world.record (.served request.service layer request.method caller)) :=
    fun _ => server.world.tells_record nofun fun _ => rfl
  cases served with
  | unrouted => exact ⟨howned, server.world.tells_failure me _ _⟩
  | refused layer => exact ⟨howned, (hserved layer).trans (World.tells_failure me _ _ _)⟩
  | @left layer entity =>
    have hleft := (hserved layer).trans (World.tells_leavePlace me _ entity)
    refine ⟨howned, hleft.trans (World.tells_record _ (Effect.proper_answer _ _) fun view => ?_)⟩
    rw [View.follow_answer]
    exact ite_self _
  | @begun layer move body listener =>
    have hmove : move.Owned server.world := by
      obtain ⟨found, hfound, hidentity⟩ := h.registers.entity_iff.mp body
      refine ⟨h.registers.issued hfound, fun {other} hother => ?_⟩
      cases hfound.symm.trans hother
      rw [hidentity, listener]
      rfl
    exact Simulation.tells_beginMove (server.simulation.withWorld (server.world.record
      (.served request.service layer request.method caller))) h howned hmove (hserved layer)

/-- All that a participant was shown so far, whether it is on its way already or not. -/
def shown (server : Server) (me : Identity) : View :=
  View.blank.follow me (server.journal ++ server.world.effects)

/-- A participant that hears all that was sent to it is shown the world. -/
structure Informs (server : Server) (me : Identity) : Prop where
  builtIn : server.BuiltIn
  proper : server.world.Unwrapped →
    ∀ effect ∈ server.journal ++ server.world.effects, effect.Proper
  sound : server.world.Unwrapped → server.world.Sound
  owned : server.world.Unwrapped → server.simulation.pipeline.Owned server.world
  shown : server.world.Unwrapped → server.world.ShownTo me (server.shown me)

/-- On a new server there is nothing to be told. -/
theorem new_informs (config : ServerConfig) (loader : Loader CacheKey Bundle) (me : Identity) :
    (Server.new config loader).Informs me where
  builtIn := rfl
  proper _ := nofun
  sound _ := World.sound_new config.idleCapacity loader
  owned _ := ⟨nofun, nofun⟩
  shown _ := ⟨fun ⟨_, _, hbody, _⟩ _ => (nomatch hbody), fun _ => rfl⟩

/-- An action that carries nothing out. -/
theorem Informs.tells (h : server.Informs me) (hrouter : after.BuiltIn)
    (hjournal : after.journal = server.journal)
    (htells : server.world.Sound → server.simulation.pipeline.Owned server.world →
      after.simulation.pipeline.Owned server.world ∧ World.Tells me server.world after.world)
    (hkeeps : server.world.KeepsSound after.world) : after.Informs me where
  builtIn := hrouter
  proper hafter := by
    have hbefore := hkeeps.unwrapped hafter
    obtain ⟨-, htold⟩ := htells (h.sound hbefore) (h.owned hbefore)
    intro effect hmem
    rw [hjournal] at hmem
    rcases List.mem_append.mp hmem with hcarried | hrecorded
    · exact h.proper hbefore effect (List.mem_append_left _ hcarried)
    · exact htold.proper (fun other hother => h.proper hbefore other
        (List.mem_append_right _ hother)) effect hrecorded
  sound hafter := hkeeps.sound (h.sound (hkeeps.unwrapped hafter)) hafter
  owned hafter := by
    have hbefore := hkeeps.unwrapped hafter
    obtain ⟨howned, htold⟩ := htells (h.sound hbefore) (h.owned hbefore)
    exact howned.of_tells htold (h.sound hbefore) hafter
  shown hafter := by
    have hbefore := hkeeps.unwrapped hafter
    obtain ⟨-, htold⟩ := htells (h.sound hbefore) (h.owned hbefore)
    obtain ⟨new, heffects, hshows⟩ := htold.shows (h.sound hbefore) hafter
    rw [Server.shown, hjournal, heffects, ← List.append_assoc, View.follow_append]
    exact hshows (h.shown hbefore)

/-- An action that leaves the moves alone. -/
theorem Informs.tells_world (h : server.Informs me) {world : World}
    (htells : World.Tells me server.world world) : (server.withWorld world).Informs me :=
  h.tells h.builtIn rfl (fun _ howned => ⟨howned, htells⟩) htells.keeps

/-- An action that does not concern the simulation. -/
theorem Informs.of_same (h : server.Informs me) (hrouter : after.router = server.router)
    (hjournal : after.journal = server.journal)
    (hsimulation : after.simulation = server.simulation) : after.Informs me := by
  obtain ⟨config, registry, requests, router, simulation, journal⟩ := after
  cases hrouter
  cases hjournal
  cases hsimulation
  exact ⟨h.builtIn, h.proper, h.sound, h.owned, h.shown⟩

/-- A server keeps informing everyone, whatever is done with it. -/
theorem ActOutcome.informs {action : Action} (outcome : ActOutcome server action after)
    (h : server.Informs me) : after.Informs me := by
  have hkeeps := outcome.keepsSound h.builtIn
  have hbuiltIn := outcome.builtIn h.builtIn
  cases outcome with
  | reports key outcome => exact h.tells_world (server.world.tells_beside me _ _)
  | settles => exact h.tells_world (server.world.tells_beside me _ _)
  | takesChanges => exact h.tells_world (server.world.tells_beside me _ _)
  | governs zones => exact h.tells hbuiltIn rfl (fun _ howned => ⟨howned, .refl me _⟩) hkeeps
  | ejects body => exact h.tells_world (server.world.tells_leavePlace me _)
  | @follows event rest events =>
    exact (h.tells_world (tells_followSession me server.world event)).of_same rfl rfl rfl
  | @serves caller request rest requests =>
    have hserved := runRequest_served { server with requests := rest } h.builtIn caller request
    exact h.tells hbuiltIn rfl (fun hsound howned => hserved.tells me hsound howned) hkeeps
  | advances bodies =>
    refine h.tells hbuiltIn rfl (fun hsound howned => ?_) hkeeps
    exact (Pipeline.tells_invariant me hsound).advanceIn ⟨howned, .refl me server.world⟩ bodies
  | @delivers effect rest effects =>
    have hunwrapped : ∀ {world : World}, World.Unwrapped { world with effects := rest } →
        world.Unwrapped := fun hafter => ⟨hafter.entityIds, hafter.placeIds⟩
    constructor
    · exact h.builtIn
    · intro hafter
      have hproper := h.proper (hunwrapped hafter)
      rw [effects, ← List.singleton_append, ← List.append_assoc] at hproper
      exact hproper
    · intro hafter
      exact (h.sound (hunwrapped hafter)).of_same ⟨rfl, rfl, rfl⟩ ⟨rfl, rfl, rfl⟩
    · intro hafter
      exact (h.owned (hunwrapped hafter)).of_sameNames ⟨fun _ => rfl, rfl, rfl⟩
    · intro hafter
      have hshown := h.shown (hunwrapped hafter)
      rw [Server.shown, effects, ← List.singleton_append, ← List.append_assoc] at hshown
      exact hshown.of_same rfl rfl
  | _ => exact h.of_same rfl rfl rfl

/-- As long as no counter has come round, every participant that hears all that was sent to it is
shown the world as it is, whatever happens to the server. -/
theorem run_informs (config : ServerConfig) (loader : Loader CacheKey Bundle)
    (actions : List Action) (me : Identity) :
    ((Server.new config loader).run actions).Informs me :=
  run_induction (P := (Informs · me))
    (fun server action h => (act_outcome server action).informs h) (new_informs config loader me)
    actions

end Server

end SharedWorld
