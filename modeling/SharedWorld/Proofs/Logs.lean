import Mathlib.Data.List.Forall2
import SharedWorld.Proofs.Debts
import SharedWorld.Proofs.Ledger
import SharedWorld.Proofs.Replays

/-!
# The log of changes is complete

Every operation adds to the log what it does to the bodies (`World.Logs`). A body that leaves its
place is taken out of it by one of the actions listed in `Server.departures`. A body that is put
into a place is put there for a move, which is replied to in the same step, so the changes that put
bodies into places and the replies to completed moves come in the same order. Together with the
changes that were handed out, the log of a run is therefore all that happened to the bodies
(`Server.run_replays`).
-/

namespace SharedWorld

/-- The listener that an effect tells of a completed move, and the reply. -/
def Effect.completion? : Effect → Option (Listener × MoveReply)
  | .answer listener (.success (.moved reply)) => some (listener, reply)
  | _ => none

/-- Whether a change puts the body into a place, or to another location of its place. -/
def BodyChange.enters (change : BodyChange) : Bool := change.after.place?.isSome

/-- The change puts the body of one of the given moves where the reply to the move says. -/
def BodyChange.Enacts (asked : MoveRequest → Prop) (change : BodyChange)
    (completion : Listener × MoveReply) : Prop :=
  ∃ move, asked move ∧ move.listener = completion.1 ∧ change.entity = move.entity ∧
    change.after = .inside completion.2.zone.zone completion.2.scene completion.2.place
      completion.2.location

namespace World

variable {asked : MoveRequest → Prop} {before middle after world : World}
  {new new' departed departed' : List BodyChange}

/-- The replies to completed moves that were not carried out yet. -/
def completions (world : World) : List (Listener × MoveReply) :=
  world.effects.filterMap Effect.completion?

/-- Between the worlds, `new` was added to the log. It keeps leading to where the bodies are, and
the changes in it that put bodies into places are those that were replied to meanwhile. -/
structure Records (asked : MoveRequest → Prop) (new : List BodyChange) (before after : World) :
    Prop where
  changes : after.changes = before.changes ++ new
  replayed : ∀ {log}, before.Replayed log → after.Replayed (log ++ new)
  completions : ∃ replies, after.completions = before.completions ++ replies ∧
    List.Forall₂ (BodyChange.Enacts asked) (new.filter (·.enters)) replies

/-- Between the worlds the records stay in agreement, and what is added to the log is what was done.
The bodies that left their places meanwhile are those of the given changes. -/
structure Logs (asked : MoveRequest → Prop) (departed : List BodyChange) (before after : World) :
    Prop where
  keeps : before.KeepsSound after
  records : before.Sound → after.Unwrapped →
    ∃ new, Records asked new before after ∧ new.filter (!·.enters) = departed

/-- Changes are recorded one after the other. -/
theorem Records.trans (first : Records asked new before middle)
    (rest : Records asked new' middle after) : Records asked (new ++ new') before after where
  changes := by rw [rest.changes, first.changes, List.append_assoc]
  replayed {log} hlog := by
    rw [← List.append_assoc]
    exact rest.replayed (first.replayed hlog)
  completions := by
    obtain ⟨replies, hreplies, henacts⟩ := first.completions
    obtain ⟨replies', hreplies', henacts'⟩ := rest.completions
    refine ⟨replies ++ replies', ?_, ?_⟩
    · rw [hreplies', hreplies, List.append_assoc]
    · rw [List.filter_append]
      exact List.rel_append henacts henacts'

/-- The log goes on step by step. -/
theorem Logs.trans (first : Logs asked departed before middle)
    (rest : Logs asked departed' middle after) :
    Logs asked (departed ++ departed') before after where
  keeps := first.keeps.trans rest.keeps
  records hsound hafter := by
    have hmiddle := rest.keeps.unwrapped hafter
    obtain ⟨new, hnew, hdeparted⟩ := first.records hsound hmiddle
    obtain ⟨new', hnew', hdeparted'⟩ := rest.records (first.keeps.sound hsound hmiddle) hafter
    exact ⟨new ++ new', hnew.trans hnew', by rw [List.filter_append, hdeparted, hdeparted']⟩

/-- Where no body is moved and no move is completed, nothing is added. -/
theorem logs_quiet (hkeeps : before.KeepsSound after)
    (hlocation : after.location? = before.location?)
    (hissued : before.entityIds.issued ≤ after.entityIds.issued)
    (hchanges : after.changes = before.changes)
    (hcompletions : after.completions = before.completions) : Logs asked [] before after where
  keeps := hkeeps
  records _ _ := by
    refine ⟨[], ⟨hchanges.trans (List.append_nil _).symm, fun {log} hlog => ?_, [],
      hcompletions.trans (List.append_nil _).symm, .nil⟩, rfl⟩
    rw [List.append_nil]
    exact hlog.congr hlocation hissued

/-- The log stays right when nothing is done. -/
theorem Logs.refl (world : World) : Logs asked [] world world :=
  logs_quiet (.refl world) rfl (Nat.le_refl _) rfl rfl

/-- What the world has beside its bodies and places adds nothing where no move is completed. -/
theorem logs_beside (world : World) (cache : Cache CacheKey Bundle) {effects : List Effect}
    (hcompletions : effects.filterMap Effect.completion? = world.completions) :
    Logs asked [] world { world with cache := cache, effects := effects } :=
  logs_quiet (world.keepsSound_beside cache world.changes effects) rfl (Nat.le_refl _) rfl
    hcompletions

/-- An effect that is recorded completes a move or does not. -/
theorem completions_record (world : World) (effect : Effect) :
    (world.record effect).completions = world.completions ++ effect.completion?.toList := by
  rw [completions, record, List.filterMap_append]
  refine congrArg (_ ++ ·) ?_
  cases hcompletion : effect.completion? with
  | none => rw [List.filterMap_cons_none hcompletion]; rfl
  | some completion => rw [List.filterMap_cons_some hcompletion]; rfl

/-- The log stays right when an effect is recorded that completes no move. -/
theorem logs_record (world : World) {effect : Effect} (h : effect.completion? = none) :
    Logs asked [] world (world.record effect) := by
  have hcompletions := world.completions_record effect
  rw [h, Option.toList_none, List.append_nil] at hcompletions
  exact world.logs_beside world.cache hcompletions

/-- A message about occupants tells of no completed move. -/
theorem Notifies.completions (h : before.Notifies after) :
    after.completions = before.completions := by
  obtain ⟨notices, heffects, hnotices⟩ := h
  have hnone : notices.filterMap Effect.completion? = [] := by
    refine List.filterMap_eq_nil_iff.mpr fun effect hmem => ?_
    obtain ⟨recipient, place, delta, rfl⟩ := hnotices effect hmem
    rfl
  rw [World.completions, heffects, List.filterMap_append, hnone, List.append_nil]
  rfl

/-! ## Operations on bodies -/

variable {entity : EntityId} {identity : Identity} {change : Option BodyChange}

/-- A change that takes a body out of its place puts it into no other. -/
theorem LeaveOutcome.filter_enters (outcome : LeaveOutcome world entity change after) :
    change.toList.filter (·.enters) = [] ∧ change.toList.filter (!·.enters) = change.toList := by
  have houtdoors := outcome.outdoors
  cases change with
  | none => exact ⟨rfl, rfl⟩
  | some moved =>
    have hleaves : moved.enters = false := by rw [BodyChange.enters, houtdoors moved rfl]; rfl
    simp [hleaves]

/-- Leaving a place logs the departure. -/
theorem logs_leavePlace (world : World) (entity : EntityId) :
    Logs asked (world.departure? entity).toList world (world.leavePlace entity).2 := by
  have outcome := world.leavePlace_outcome entity
  rw [← outcome.change_eq]
  obtain ⟨hnone, hall⟩ := outcome.filter_enters
  refine ⟨world.keepsSound_leavePlace entity, fun hsound _ =>
    ⟨_, ⟨outcome.changes, fun {log} hlog => ?_, [],
      outcome.notifies.completions.trans (List.append_nil _).symm, ?_⟩, hall⟩⟩
  · exact outcome.replayed hsound.registers.labeled hsound.registers.issued hlog
  · rw [hnone]
    exact .nil

/-- What is recorded before and after a body leaves its place adds nothing to its change. -/
theorem logs_leavePlace_between (world : World) (entity : EntityId) {first last : Effect}
    (hfirst : first.completion? = none) (hlast : last.completion? = none) :
    Logs asked (world.departure? entity).toList world
      (((world.record first).leavePlace entity).2.record last) := by
  have hleave : Logs asked (world.departure? entity).toList world
      ((world.record first).leavePlace entity).2 :=
    (world.logs_record hfirst).trans ((world.record first).logs_leavePlace entity)
  have hlogs := hleave.trans (logs_record _ hlast)
  rwa [List.append_nil] at hlogs

/-- A departure enters no place. -/
theorem departure?_enters (world : World) (entity : EntityId) :
    (world.departure? entity).toList.filter (·.enters) = [] ∧
      (world.departure? entity).toList.filter (!·.enters) = (world.departure? entity).toList := by
  have outcome := world.leavePlace_outcome entity
  rw [← outcome.change_eq]
  exact outcome.filter_enters

/-- Removing a body logs its departure, if it was in a place. -/
theorem logs_removeBody (world : World) (identity : Identity) :
    Logs asked ((world.entityFor? identity).bind world.departure?).toList world
      (world.removeBody identity).2 := by
  have outcome := world.removeBody_outcome identity
  obtain ⟨hnone, hall⟩ :
      ((world.entityFor? identity).bind world.departure?).toList.filter (·.enters) = [] ∧
        ((world.entityFor? identity).bind world.departure?).toList.filter (!·.enters) =
          ((world.entityFor? identity).bind world.departure?).toList := by
    cases world.entityFor? identity with
    | none => exact ⟨rfl, rfl⟩
    | some entity => exact world.departure?_enters entity
  refine ⟨world.keepsSound_removeBody identity, fun hsound _ => ?_⟩
  obtain ⟨hchanges, hreplayed⟩ := outcome.replayed hsound.registers
  refine ⟨_, ⟨hchanges, hreplayed, [], ?_, ?_⟩, hall⟩
  · exact outcome.notifies.completions.trans (List.append_nil _).symm
  · rw [hnone]
    exact .nil

/-- The log stays right when a body gets a status. -/
theorem logs_setStatus (world : World) (identity : Identity) (status : OccupantStatus) :
    Logs asked [] world (world.setStatus identity status) where
  keeps := world.keepsSound_setStatus identity status
  records hsound hafter := by
    have outcome := world.setStatus_outcome identity status
    refine (logs_quiet (world.keepsSound_setStatus identity status)
      (outcome.location?_eq hsound.registers.labeled) ?_ outcome.changes
      outcome.notifies.completions).records hsound hafter
    exact Nat.le_of_eq (congrArg _ outcome.sameCounters.entityIds.symm)

/-- The log stays right when a body is made. -/
theorem logs_createBody (world : World) (identity : Identity) :
    Logs asked [] world (world.createBody identity).2 where
  keeps := world.keepsSound_createBody identity
  records hsound hafter := by
    refine ⟨[], ⟨?_, fun {log} hlog => ?_, [],
      (world.notifies_createBody identity).completions.trans (List.append_nil _).symm, .nil⟩, rfl⟩
    · rw [List.append_nil]
      unfold createBody
      split
      · rfl
      · rfl
    · rw [List.append_nil]
      exact replayed_createBody hsound.registers hafter.entityIds hlog

end World

/-- The change that an event of a session makes, if it ends the session of a body in a place. -/
def World.farewell? (world : World) : SessionEvent → Option BodyChange
  | .ended _ identity => (world.entityFor? identity).bind world.departure?
  | _ => none

/-- Following the event of a session logs the departure of its body, if it ends the session. -/
theorem Server.logs_followSession {asked : MoveRequest → Prop} (world : World)
    (event : SessionEvent) :
    World.Logs asked (world.farewell? event).toList world (followSession world event) := by
  cases event with
  | started key identity => exact world.logs_createBody identity
  | resumed key identity =>
    exact (world.logs_createBody identity).trans (World.logs_setStatus _ identity .active)
  | disconnected key identity cause => exact world.logs_setStatus identity .disconnected
  | ended key identity => exact world.logs_removeBody identity

/-! ## One move -/

variable {asked : MoveRequest → Prop}

namespace MoveRequest

variable {request : MoveRequest} {world after : World} {zone : ZoneSummary} {model : SceneModel}

/-- Putting a body into the place of a scene notes where it is put, if it is. -/
theorem commit_replayed {result : Except CommitError BodyChange}
    (outcome : World.CommitOutcome (world.placeFor model).2 request.entity zone.zone
      (world.placeFor model).1 request.target.location result after) (h : world.Registers) :
    after.changes = world.changes ++ result.toOption.toList ∧
      ∀ {log}, world.Replayed log → after.Replayed (log ++ result.toOption.toList) := by
  have hmade := World.sameBodies_placeFor world model
  refine ⟨outcome.changes.trans (congrArg (· ++ _) (world.changes_placeFor model)),
    fun {log} hlog => ?_⟩
  exact outcome.replayed (h.of_sameNames hmade.sameNames)
    (hlog.congr hmade.location?_eq (Nat.le_of_eq (congrArg _ hmade.entityIds.symm)))

/-- A move that is refused by the place adds nothing. -/
theorem EntryOutcome.logs {fault : Fault}
    (outcome : EntryOutcome request world zone model (.failure fault) after) :
    World.Logs asked [] world after := by
  have hcompletions := outcome.notifies.completions
  refine ⟨outcome.keepsSound, fun hsound _ => ?_⟩
  cases outcome with
  | unlisted => exact (World.Logs.refl world).records hsound ‹_›
  | refused commit =>
    obtain ⟨hchanges, hreplayed⟩ := commit_replayed commit hsound.registers
    exact ⟨[], ⟨hchanges, hreplayed, [], hcompletions.trans (List.append_nil _).symm, .nil⟩, rfl⟩

/-- The change of a move that is completed puts its body where the reply says. -/
theorem EntryOutcome.enacts {reply : MoveReply} (hasked : asked request)
    (outcome : EntryOutcome request world zone model (.success (.moved reply)) after)
    (hsound : world.Sound) (hafter : after.Unwrapped) :
    ∃ change : BodyChange, after.changes = world.changes ++ [change] ∧
      (∀ {log}, world.Replayed log → after.Replayed (log ++ [change])) ∧
      change.enters = true ∧ change.Enacts asked (request.listener, reply) := by
  cases outcome with
  | @entered change _ _ commit told =>
    obtain ⟨hchanges, hreplayed⟩ := commit_replayed commit hsound.registers
    obtain ⟨hplace, hzone, hscene, hlocation, -⟩ := told
    obtain ⟨body, host, hbody, hhost, hchange⟩ := commit.change_eq
    have hmade := World.sameBodies_placeFor world model
    obtain ⟨-, host', hhost', hmodel⟩ :=
      hsound.houses.placeFor model (commit.sameCounters.unwrapped hafter).placeIds
    obtain rfl : host = host' := Option.some.inj (hhost.symm.trans hhost')
    have hafter : change.after = .inside zone.zone host.scene (world.placeFor model).1
        request.target.location := by rw [hchange]; rfl
    refine ⟨change, hchanges, hreplayed, ?_, request, hasked, rfl, ?_, ?_⟩
    · rw [BodyChange.enters, hafter]
      rfl
    · rw [hchange]
      exact (hsound.registers.of_sameNames hmade.sameNames).labeled hbody
    · rw [hafter, hmodel, hzone, hscene, hplace, hlocation]

/-- The log stays right when a move fails. -/
theorem logs_finish (request : MoveRequest) (realm : Realm) (held : List CacheKey) (fault : Fault) :
    World.Logs asked [] realm.world (request.finish realm held (.failure fault)).world := by
  rw [finish, World.foldl_release]
  exact (realm.world.logs_record rfl).trans (World.logs_beside _ _ rfl)

/-- A move that is completed adds its change, and its reply. -/
theorem logs_finish_commit {realm : Realm} {reply : MoveReply} (hasked : asked request)
    (hcommit : request.commit realm.world zone model = (.success (.moved reply), after))
    (held : List CacheKey) : World.Logs asked [] realm.world
      (request.finish { realm with world := after } held (.success (.moved reply))).world := by
  have outcome := request.commit_outcome realm.world zone model
  rw [hcommit] at outcome
  dsimp only at outcome
  have hkeeps := request.keepsSound_finish { realm with world := after } held
    (.success (.moved reply))
  refine ⟨outcome.keepsSound.trans hkeeps, fun hsound hfinished => ?_⟩
  obtain ⟨change, hchanges, hreplayed, henters, henacts⟩ :=
    outcome.enacts hasked hsound (hkeeps.unwrapped hfinished)
  rw [finish, World.foldl_release]
  refine ⟨[change], ⟨hchanges, fun {log} hlog => ?_, [(request.listener, reply)], ?_, ?_⟩, ?_⟩
  · exact (hreplayed hlog).congr rfl (Nat.le_refl _)
  · refine (World.completions_record after _).trans (congrArg (· ++ _) ?_)
    exact outcome.notifies.completions
  · rw [List.filter_cons_of_pos henters, List.filter_nil]
    exact .cons henacts .nil
  · simp [henters]

end MoveRequest

namespace Realm

/-- The log stays right when a policy is called. -/
theorem logs_consult (realm : Realm) (zone : ZoneId) (call : PolicyCall) :
    World.Logs asked [] realm.world (realm.consult zone call).world := realm.world.logs_record rfl

/-- The log stays right when a policy is told of a body. -/
theorem logs_announce (realm : Realm) (entity : EntityId) (zone : ZoneId) :
    World.Logs asked [] realm.world (realm.announce entity zone).world := by
  unfold announce
  split
  · exact realm.logs_consult zone _
  · exact .refl realm.world

/-- The log stays right when a key is resolved. -/
theorem logs_acquire (realm : Realm) (key : CacheKey) :
    World.Logs asked [] realm.world (realm.acquire key).2.world :=
  realm.world.logs_beside (realm.acquire key).2.world.cache rfl

end Realm

namespace Flight

variable {request : MoveRequest} {resolution : Resolution CacheKey Bundle} {realm realm' : Realm}
  {flight : Option Flight}

/-- The log stays right when a move has looked for its scene, and nobody departs. -/
theorem SceneOutcome.logs {zone : ZoneSummary}
    (outcome : SceneOutcome request zone resolution realm flight realm') (hasked : asked request) :
    World.Logs asked [] realm.world realm'.world := by
  cases outcome with
  | waits => exact .refl realm.world
  | missing => exact request.logs_finish realm request.keys _
  | @refused _ model _ world load scene commit =>
    have hentry := request.commit_outcome realm.world zone model
    rw [commit] at hentry
    exact hentry.logs.trans (request.logs_finish { realm with world := world } request.keys _)
  | @entered _ model reply world load scene commit =>
    have hentry := request.commit_outcome realm.world zone model
    rw [commit] at hentry
    cases hentry with
    | entered =>
      exact (MoveRequest.logs_finish_commit hasked commit request.keys).trans
        (Realm.logs_announce _ _ _)

/-- The log stays right when a move has looked for its zone, and nobody departs. -/
theorem ZoneOutcome.logs (outcome : ZoneOutcome request resolution realm flight realm')
    (hasked : asked request) : World.Logs asked [] realm.world realm'.world := by
  cases outcome with
  | waits => exact .refl realm.world
  | missing => exact request.logs_finish realm _ _
  | bodyless => exact request.logs_finish realm _ _
  | @vetoed _ summary body =>
    have hratify : World.Logs asked [] realm.world (realm.ratify body summary).2.world :=
      realm.logs_consult summary.zone _
    exact hratify.trans (request.logs_finish _ _ _)
  | @admitted _ summary body _ _ _ _ _ _ scene =>
    have hratify : World.Logs asked [] realm.world (realm.ratify body summary).2.world :=
      realm.logs_consult summary.zone _
    exact (hratify.trans (Realm.logs_acquire _ _)).trans (scene.logs hasked)

/-- The log stays right when a move is taken on, and nobody departs. -/
theorem step_logs {flight : Flight} (hasked : asked flight.request) (realm : Realm) :
    World.Logs asked [] realm.world (flight.step realm).2.world := by
  obtain ⟨request, stage⟩ := flight
  cases stage with
  | resolvingZone resolution => exact (stepZone_outcome request resolution realm).logs hasked
  | resolvingScene zone resolution =>
    exact (stepScene_outcome request zone resolution realm).logs hasked

/-- The log stays right when a move begins, and nobody departs. -/
theorem launch_logs (hasked : asked request) (realm : Realm) :
    World.Logs asked [] realm.world (launch request realm).2.world :=
  (realm.logs_acquire (.zone request.target.zone)).trans
    ((stepZone_outcome request _ _).logs hasked)

end Flight

/-! ## The moves of all bodies -/

namespace Pipeline

variable {pipeline : Pipeline} {entity : EntityId} {flight : Flight} {requests : List MoveRequest}

/-- Every move that was not answered was asked for. -/
structure Asked (asked : MoveRequest → Prop) (pipeline : Pipeline) : Prop where
  moving : ∀ {entity flight}, pipeline.inFlight.get? entity = some flight → asked flight.request
  queued : ∀ {entity request}, request ∈ pipeline.queueOf entity → asked request

/-- Moves that were asked for are under way when one of them is put there. -/
theorem Asked.insert (h : pipeline.Asked asked) (hrequest : asked flight.request) :
    Asked asked { pipeline with inFlight := pipeline.inFlight.insert entity flight } where
  moving hget := by
    rcases Table.get?_insert_eq_some_iff.mp hget with ⟨-, rfl⟩ | ⟨-, hold⟩
    · exact hrequest
    · exact h.moving hold
  queued := h.queued

/-- Moves that were asked for are under way when one of them is taken from there. -/
theorem Asked.erase (h : pipeline.Asked asked) (entity : EntityId) :
    Asked asked { pipeline with inFlight := pipeline.inFlight.erase entity } :=
  ⟨fun hget => h.moving (Table.get?_erase_eq_some_iff.mp hget).2, h.queued⟩

/-- Moves that were asked for wait when they are put into a queue. -/
theorem Asked.setQueue (h : pipeline.Asked asked) (entity : EntityId)
    (hrequests : ∀ request ∈ requests, asked request) :
    (pipeline.setQueue entity requests).Asked asked where
  moving := h.moving
  queued hmem := by
    rw [queueOf_setQueue] at hmem
    split at hmem
    · exact hrequests _ hmem
    · exact h.queued hmem

/-- What holds between an earlier world and one of the pipeline's, holds on after each step of the
pipeline. -/
theorem logs_invariant (asked : MoveRequest → Prop) (before : World) :
    Pipeline.Invariant
      (fun pipeline realm => pipeline.Asked asked ∧ World.Logs asked [] before realm.world)
      (fun _ requests pipeline realm => (∀ request ∈ requests, asked request) ∧
        pipeline.Asked asked ∧ World.Logs asked [] before realm.world) where
  waits {_ realm _ flight _ _} h hflight hstep := by
    have hrequest := h.1.moving hflight
    have hlogs := Flight.step_logs hrequest realm
    have hreplied := flight.step_replied realm
    rw [hstep] at hlogs hreplied
    rw [← hreplied.1] at hrequest
    exact ⟨h.1.insert hrequest, h.2.trans hlogs⟩
  answers {_ realm entity _ _} h hflight hstep := by
    have hlogs := Flight.step_logs (h.1.moving hflight) realm
    rw [hstep] at hlogs
    exact ⟨fun _ hmem => h.1.queued hmem, h.1.erase entity, h.2.trans hlogs⟩
  passes {_ realm _ request _ _} h hlaunch := by
    obtain ⟨hrequests, hpipeline, hbefore⟩ := h
    have hlogs := Flight.launch_logs (hrequests request List.mem_cons_self) realm
    rw [hlaunch] at hlogs
    exact ⟨fun other hother => hrequests other (List.mem_cons_of_mem _ hother), hpipeline,
      hbefore.trans hlogs⟩
  parks {_ realm entity request _ _ _} h hlaunch := by
    obtain ⟨hrequests, hpipeline, hbefore⟩ := h
    have hrequest := hrequests request List.mem_cons_self
    have hlogs := Flight.launch_logs hrequest realm
    have hreplied := Flight.launch_replied request realm
    rw [hlaunch] at hlogs hreplied
    have hrest := hpipeline.setQueue entity fun other hother =>
      hrequests other (List.mem_cons_of_mem _ hother)
    rw [← hreplied.1] at hrequest
    exact ⟨hrest.insert hrequest, hbefore.trans hlogs⟩
  rests h := ⟨h.2.1.setQueue _ nofun, h.2.2⟩

end Pipeline

/-- The log stays right when a move is handed to the pipeline, and nobody departs. -/
theorem Simulation.beginMove_logs (simulation : Simulation) {request : MoveRequest}
    (h : simulation.pipeline.Asked asked) (hrequest : asked request) :
    (simulation.beginMove request).pipeline.Asked asked ∧
      World.Logs asked [] simulation.world (simulation.beginMove request).world := by
  refine (Pipeline.logs_invariant asked simulation.world).begin request
    ⟨h.setQueue _ fun other hother => ?_, .refl _⟩ fun _ => ⟨fun other hother => ?_, h, .refl _⟩
  · rcases List.mem_append.mp hother with hold | hnew
    · exact h.queued hold
    · rwa [List.mem_singleton.mp hnew]
  · rcases List.mem_cons.mp hother with rfl | hold
    · exact hrequest
    · exact h.queued hold

/-! ## Actions of a server -/

namespace Server

variable {server after : Server} {departed log : List BodyChange} {seen : List Dispatch}

/-- The changes by which an action takes a body out of its place: when it is ejected, when its
participant's session has ended and when its participant asks for it. -/
def departures (server : Server) : Action → List BodyChange
  | .eject identity =>
    ((server.world.entityFor? identity).bind server.world.departure?).toList
  | .follow => (server.registry.events.head?.bind server.world.farewell?).toList
  | .serve =>
    match server.requests with
    | [] => []
    | (caller, request) :: _ =>
      ((server.leaveFor? caller request).bind server.world.departure?).toList
  | _ => []

/-- The replies to completed moves, carried out or not. -/
def completions (server : Server) : List (Listener × MoveReply) :=
  server.journal.filterMap Effect.completion? ++ server.world.completions

/-- Dispatching a request logs the departure that it asks for. -/
theorem Served.logs {caller : Identity} {request : Request} {move : Option MoveRequest}
    {simulation : Simulation} (served : Served server caller request move simulation)
    (hasked : ∀ begun ∈ move, asked begun) (h : server.simulation.pipeline.Asked asked) :
    simulation.pipeline.Asked asked ∧ World.Logs asked
      ((server.leaveFor? caller request).bind server.world.departure?).toList server.world
      simulation.world := by
  have hserved : ∀ layer, World.Logs asked [] server.world
      (server.world.record (.served request.service layer request.method caller)) :=
    fun _ => World.logs_record _ rfl
  cases served with
  | unrouted fault stays =>
    rw [stays]
    exact ⟨h, World.logs_record _ rfl⟩
  | refused layer fault stays =>
    rw [stays]
    exact ⟨h, (hserved layer).trans (World.logs_record _ rfl)⟩
  | @left layer entity body leaves =>
    rw [leaves]
    exact ⟨h, World.logs_leavePlace_between _ entity rfl rfl⟩
  | @begun layer move body listener stays =>
    rw [stays]
    obtain ⟨hpipeline, hlogs⟩ := Simulation.beginMove_logs (server.simulation.withWorld
      (server.world.record (.served request.service layer request.method caller))) h
        (hasked move rfl)
    exact ⟨hpipeline, (hserved layer).trans hlogs⟩

/-- What an action does to the bodies is added to the log. Actions that hand changes or effects out
are looked at later. -/
theorem ActOutcome.logs {action : Action} (outcome : ActOutcome server action after)
    (hbuiltIn : server.BuiltIn)
    (hasked : ∀ dispatch ∈ server.dispatches action, ∀ move ∈ dispatch.move, asked move)
    (htakes : action ≠ .takeChanges) (hdelivers : action ≠ .deliver)
    (h : server.simulation.pipeline.Asked asked) :
    after.simulation.pipeline.Asked asked ∧
      World.Logs asked (server.departures action) server.world after.world := by
  cases outcome with
  | reports | settles => exact ⟨h, World.logs_beside _ _ rfl⟩
  | ejects body =>
    rw [departures, body, Option.bind_some]
    exact ⟨h, World.logs_leavePlace _ _⟩
  | ejectsNobody bodyless =>
    rw [departures, bodyless]
    exact ⟨h, .refl _⟩
  | follows events =>
    rw [departures, events, List.head?_cons, Option.bind_some]
    exact ⟨h, logs_followSession _ _⟩
  | followsNothing events =>
    rw [departures, events]
    exact ⟨h, .refl _⟩
  | @serves caller request rest requests =>
    have hserved := runRequest_served { server with requests := rest } hbuiltIn caller request
    rw [departures, requests]
    rw [dispatches, requests] at hasked
    exact hserved.logs (hasked _ (List.mem_singleton_self _)) h
  | servesNothing requests =>
    rw [departures, requests]
    exact ⟨h, .refl _⟩
  | advances bodies =>
    exact (Pipeline.logs_invariant asked server.world).advanceIn ⟨h, .refl _⟩ bodies
  | delivers | deliversNothing => exact absurd rfl hdelivers
  | takesChanges => exact absurd rfl htakes
  | _ => exact ⟨h, .refl _⟩

/-- The log so far leads to where the bodies are, and is what was done to them: the bodies that left
their places are those that were taken out of them, and those that went into places are those of the
completed moves. -/
structure Logged (asked : MoveRequest → Prop) (departed log : List BodyChange) (server : Server) :
    Prop where
  sound : server.world.Sound
  pipeline : server.simulation.pipeline.Asked asked
  replayed : server.world.Replayed (log ++ server.world.changes)
  leaves : (log ++ server.world.changes).filter (!·.enters) = departed
  arrivals : List.Forall₂ (BodyChange.Enacts asked)
    ((log ++ server.world.changes).filter (·.enters)) server.completions

/-- What is added to the log of the world is added to that of the server. -/
theorem Logged.logs (h : server.Logged asked departed log) (hunwrapped : after.world.Unwrapped)
    (hasked : after.simulation.pipeline.Asked asked) {others : List BodyChange}
    (hlogs : World.Logs asked others server.world after.world)
    (hjournal : after.journal = server.journal) : after.Logged asked (departed ++ others) log := by
  obtain ⟨new, hnew, hothers⟩ := hlogs.records h.sound hunwrapped
  obtain ⟨replies, hreplies, henacts⟩ := hnew.completions
  refine ⟨hlogs.keeps.sound h.sound hunwrapped, hasked, ?_, ?_, ?_⟩
  · rw [hnew.changes, ← List.append_assoc]
    exact hnew.replayed h.replayed
  · rw [hnew.changes, ← List.append_assoc, List.filter_append, h.leaves, hothers]
  · rw [hnew.changes, ← List.append_assoc, List.filter_append, completions, hreplies, hjournal,
      ← List.append_assoc]
    exact List.rel_append h.arrivals henacts

/-- The changes that are handed out stay in the log. -/
theorem Logged.handsOut (h : server.Logged asked departed log) :
    (server.withWorld { server.world with changes := [] }).Logged asked departed
      (log ++ server.world.changes) := by
  have hlog : log ++ server.world.changes ++
      (server.withWorld { server.world with changes := [] }).world.changes =
        log ++ server.world.changes := List.append_nil _
  refine ⟨h.sound.of_same ⟨rfl, rfl, rfl⟩ ⟨rfl, rfl, rfl⟩, h.pipeline, ?_, ?_, ?_⟩
  · rw [hlog]
    exact ⟨h.replayed.issued, h.replayed.replays⟩
  · rw [hlog]
    exact h.leaves
  · rw [hlog]
    exact h.arrivals

/-- An answer that is carried out stays one. -/
theorem Logged.delivers (h : server.Logged asked departed log) {effect : Effect}
    {rest : List Effect} (heffects : server.world.effects = effect :: rest) :
    ((server.withWorld { server.world with effects := rest }).carryOut effect).Logged asked
      departed log := by
  have harrivals := h.arrivals
  have hcompletions : server.completions = (server.journal ++ [effect]).filterMap
      Effect.completion? ++ rest.filterMap Effect.completion? := by
    rw [completions, World.completions, heffects, ← List.filterMap_append,
      ← List.filterMap_append, List.append_assoc]
    rfl
  rw [hcompletions] at harrivals
  exact ⟨h.sound.of_same ⟨rfl, rfl, rfl⟩ ⟨rfl, rfl, rfl⟩, h.pipeline,
    ⟨h.replayed.issued, h.replayed.replays⟩, h.leaves, harrivals⟩

/-- An action adds what it does to the log. -/
theorem ActOutcome.logged {action : Action} (outcome : ActOutcome server action after)
    (hbuiltIn : server.BuiltIn)
    (hasked : ∀ dispatch ∈ server.dispatches action, ∀ move ∈ dispatch.move, asked move)
    (hunwrapped : after.world.Unwrapped) (h : server.Logged asked departed log) :
    after.Logged asked (departed ++ server.departures action)
      (log ++ server.handedOut action) := by
  by_cases htakes : action = .takeChanges
  · subst htakes
    rw [show server.departures .takeChanges = [] from rfl, List.append_nil]
    cases outcome with
    | takesChanges => exact h.handsOut
  · have hnone : server.handedOut action = [] := by
      cases action with
      | takeChanges => exact absurd rfl htakes
      | _ => rfl
    rw [hnone, List.append_nil]
    by_cases hdelivers : action = .deliver
    · subst hdelivers
      rw [show server.departures .deliver = [] from rfl, List.append_nil]
      cases outcome with
      | delivers effects => exact h.delivers effects
      | deliversNothing => exact h
    · obtain ⟨hpipeline, hlogs⟩ := outcome.logs hbuiltIn hasked htakes hdelivers h.pipeline
      have hcarries : server.carries action = [] := by
        cases action with
        | deliver => exact absurd rfl hdelivers
        | _ => rfl
      have hjournal := outcome.journal_eq
      rw [hcarries, List.append_nil] at hjournal
      exact h.logs hunwrapped hpipeline hlogs hjournal

/-- The log of a server goes on through every run. -/
theorem Logged.run (h : server.Logged asked departed log) (hbuiltIn : server.BuiltIn)
    {actions : List Action}
    (hasked : ∀ dispatch ∈ server.collect dispatches actions, ∀ move ∈ dispatch.move, asked move)
    (hunwrapped : (server.run actions).world.Unwrapped) :
    (server.run actions).Logged asked (departed ++ server.collect departures actions)
      (log ++ server.collect handedOut actions) := by
  induction actions generalizing server departed log with
  | nil =>
    rw [collect, collect, List.append_nil, List.append_nil]
    exact h
  | cons action rest ih =>
    have outcome := act_outcome server action
    have hbuiltIn' := outcome.builtIn hbuiltIn
    rw [collect, collect, ← List.append_assoc, ← List.append_assoc]
    refine ih (outcome.logged hbuiltIn (fun dispatch hmem => hasked dispatch
      (List.mem_append_left _ hmem)) ((keepsSound_run hbuiltIn' rest).unwrapped hunwrapped)
      h) hbuiltIn'
      (fun dispatch hmem => hasked dispatch (List.mem_append_right _ hmem)) hunwrapped

/-! ## Ticks and ejections -/

/-- What no action of a run shows is not observed in the run. -/
theorem collect_eq_nil {α : Type} {observe : Server → Action → List α} {actions : List Action}
    (h : ∀ action ∈ actions, ∀ server, observe server action = []) (server : Server) :
    server.collect observe actions = [] := by
  induction actions generalizing server with
  | nil => rfl
  | cons action rest ih =>
    rw [List.forall_mem_cons] at h
    rw [collect, h.1 server, List.nil_append]
    exact ih h.2 _

/-- A tick reports the changes that are handed out during it. -/
theorem receive_hands (server : Server) (order : List Identity) (now : Instant) :
    ∃ actions, (server.receiveIn order now).2 = server.run actions ∧
      (server.receiveIn order now).1.changes = server.collect handedOut actions := by
  obtain ⟨served, finished, hopen, hflush, htake, hchanges⟩ := server.exists_finished order now
  have hopening : ∀ action, Action.Opening action → ∀ server : Server,
      server.handedOut action = [] := by
    rintro _ (_ | _ | _ | _) server
    all_goals rfl
  have hsettling : ∀ action, Action.Settling action → ∀ server : Server,
      server.handedOut action = [] := by
    rintro _ (_ | _) server
    all_goals rfl
  have hquiet : Leads (fun action => ∀ server : Server, server.handedOut action = []) server
      finished :=
    ((hopen.mono hopening).trans
      ((leads_settleWithin served.simulation.settlingRounds served).mono hsettling)).trans
        (hflush.only fun _ => rfl)
  obtain ⟨actions, hnone, rfl⟩ := hquiet
  refine ⟨actions ++ [.takeChanges], ?_, ?_⟩
  · rw [htake, run_append]
    rfl
  · rw [collect_append, collect_eq_nil hnone, hchanges]
    exact (List.append_nil _).symm

/-- The ejection of a body between ticks takes it out of its place, and hands nothing out. -/
theorem moveBody_departs (server : Server) (identity : Identity) (zone : ZoneId) (scene : SceneId) :
    ∃ actions, (server.moveBody identity zone scene).2 = server.run actions ∧
      server.collect departures actions =
        ((server.world.entityFor? identity).bind server.world.departure?).toList ∧
      server.collect handedOut actions = [] := by
  unfold moveBody
  cases hentity : server.world.entityFor? identity with
  | none => exact ⟨[], rfl, rfl, rfl⟩
  | some entity =>
    have heject : server.act (.eject identity) =
        server.withWorld (server.world.leavePlace entity).2 := by
      simp only [Server.act, eject, hentity]
    have hquiet : Leads (fun action => ∀ server : Server, server.departures action = [] ∧
        server.handedOut action = []) (server.act (.eject identity))
          ((server.act (.eject identity)).flush.act (.order identity zone scene)) :=
      ((leads_flush _).only fun _ => ⟨rfl, rfl⟩).trans
        (Leads.act _ _ fun server => ⟨rfl, rfl⟩)
    obtain ⟨actions, hnone, hrun⟩ := hquiet
    refine ⟨.eject identity :: actions, ?_, ?_, ?_⟩
    · rw [show server.run (.eject identity :: actions) =
        (server.act (.eject identity)).run actions from rfl, hrun, heject]
      rfl
    · rw [collect, collect_eq_nil fun action hmem server => (hnone action hmem server).1,
        List.append_nil, ← hentity]
      rfl
    · rw [collect, collect_eq_nil fun action hmem server => (hnone action hmem server).2]
      rfl

/-! ## The log of a run -/

/-- What the log of all changes of locations, handed out or not, tells of a server. -/
structure Replays (seen : List Dispatch) (departed log : List BodyChange) (server : Server) :
    Prop where
  /-- The changes of one body lead from nowhere to where it is, each starting where the one before
  it ended, or out of any place if the body was removed. -/
  replays : ∀ entity, ∃ last,
    BodyLocation.nowhere.replay (log.filter (·.entity = entity)) = some last ∧
      last.IsLast (server.world.location? entity)
  /-- The changes that take bodies out of their places are those that were made. -/
  departures : log.filter (!·.enters) = departed
  /-- The changes that put bodies into places are those of the completed moves, in the order in
  which these were replied to. -/
  arrivals : List.Forall₂
    (BodyChange.Enacts fun move => ∃ dispatch ∈ seen, dispatch.move = some move)
    (log.filter (·.enters)) server.completions
  /-- A tick goes on with the run, and reports the changes that it hands out. -/
  ticks : ∀ order now, ∃ actions, (server.receiveIn order now).2 = server.run actions ∧
    (server.receiveIn order now).1.changes = server.collect handedOut actions
  /-- So does the ejection of a body between ticks. It takes the body out of its place, if it is in
  one, and hands nothing out. -/
  ejections : ∀ identity zone scene, ∃ actions,
    (server.moveBody identity zone scene).2 = server.run actions ∧
      server.collect Server.departures actions =
        ((server.world.entityFor? identity).bind server.world.departure?).toList ∧
      server.collect handedOut actions = []

/-- The log of a new server is empty. -/
theorem new_logged (config : ServerConfig) (loader : Loader CacheKey Bundle) :
    (Server.new config loader).Logged asked [] [] where
  sound := World.sound_new config.idleCapacity loader
  pipeline := ⟨nofun, nofun⟩
  replayed := ⟨nofun, fun _ => ⟨.nowhere, rfl, rfl⟩⟩
  leaves := rfl
  arrivals := .nil

/-- Whatever happens to a server, the changes of locations that it reports, with those it has not
handed out yet, replay to where the bodies are, and are all that was done to them, as long as fewer
than 2^64 bodies and fewer than 2^64 places were ever made. -/
theorem run_replays (config : ServerConfig) (loader : Loader CacheKey Bundle)
    (actions : List Action)
    (hbodies : ((Server.new config loader).run actions).world.entityIds.issued < 2 ^ 64)
    (hplaces : ((Server.new config loader).run actions).world.placeIds.issued < 2 ^ 64) :
    ((Server.new config loader).run actions).Replays
      ((Server.new config loader).collect dispatches actions)
      ((Server.new config loader).collect departures actions)
      ((Server.new config loader).history actions) := by
  have hlogged : ((Server.new config loader).run actions).Logged (fun move =>
      ∃ dispatch ∈ (Server.new config loader).collect dispatches actions,
        dispatch.move = some move) _ _ :=
    (new_logged config loader).run (new_builtIn config loader)
      (fun dispatch hmem move hmove => ⟨dispatch, hmem, hmove⟩) ⟨hbodies, hplaces⟩
  exact ⟨hlogged.replayed.replays, hlogged.leaves, hlogged.arrivals, receive_hands _,
    moveBody_departs _⟩

/-- After a meeting the changes are handed out, and one of the two ends her session. -/
def farewell : List Action := meeting ++ [.takeChanges, .endSession ⟨"ada"⟩, .follow]

/-- Both have entered the scene then, bob was taken out of it, and ada's body was removed. -/
theorem farewell_replays :
    ((Server.new {} .town).history farewell).map (fun change => (change.entity, change.after)) =
        [(1, .inside 1 1 1 1), (2, .inside 1 1 1 2), (2, .vacated 1 1), (1, .vacated 1 1)] ∧
      ((Server.new {} .town).run farewell).world.location? 1 = none ∧
      ((Server.new {} .town).run farewell).Replays
        ((Server.new {} .town).collect dispatches farewell)
        ((Server.new {} .town).collect departures farewell)
        ((Server.new {} .town).history farewell) :=
  ⟨by decide +kernel, by decide +kernel,
    run_replays {} .town farewell (by decide +kernel) (by decide +kernel)⟩

end Server

end SharedWorld
