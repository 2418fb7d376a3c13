import Mathlib.Data.List.Nodup
import SharedWorld.Proofs.Bodies
import SharedWorld.Proofs.Moves

/-!
# Every request is answered at most once, and moves in their order

A request is answered while it is dispatched, or it is a move and waits: it is under way, or it is
queued behind another move of its body. The invariant is that the moves that were begun for a body
are those that were answered, in the order of the answers, followed by the one under way and by its
queue. Each way a move can go on keeps it.
-/

namespace SharedWorld

/-- The listener that an effect answers. -/
def Effect.answer? : Effect → Option Listener
  | .answer listener _ => some listener
  | _ => none

/-- The listeners that are answered in the course of the effects. -/
def Effect.answered (effects : List Effect) : List Listener := effects.filterMap Effect.answer?

/-- Answers are given in the order of the effects. -/
theorem Effect.answered_append (first rest : List Effect) :
    Effect.answered (first ++ rest) = Effect.answered first ++ Effect.answered rest :=
  List.filterMap_append

namespace World

/-- The listeners that were answered since the effects were taken. -/
def answered (world : World) : List Listener := Effect.answered world.effects

/-- An answer that is recorded is given. -/
theorem answered_record_answer (world : World) (listener : Listener) (answer : Answer) :
    (world.record (.answer listener answer)).answered = world.answered ++ [listener] :=
  Effect.answered_append _ _

/-- To note how a request was served answers nobody. -/
theorem answered_record_served (world : World) (service : ServiceId) (layer : String)
    (method : MethodId) (caller : Identity) :
    (world.record (.served service layer method caller)).answered = world.answered :=
  (Effect.answered_append _ _).trans (List.append_nil _)

end World

/-- The effect is a message about the occupants of a place. -/
def Effect.IsNotice (effect : Effect) : Prop :=
  ∃ recipient place delta, effect = .message recipient (.occupants place delta)

/-- Between the worlds nothing was recorded but messages about occupants. -/
def World.Notifies (before after : World) : Prop :=
  ∃ notices, after.effects = before.effects ++ notices ∧ ∀ effect ∈ notices, effect.IsNotice

namespace World

variable {before world after : World} {entity : EntityId}

/-- Nobody is notified where no effect is added. -/
theorem notifies_of_same (heffects : after.effects = before.effects) : before.Notifies after :=
  ⟨[], heffects.trans (List.append_nil _).symm, nofun⟩

/-- Participants are notified step by step. -/
theorem Notifies.trans {middle : World} (first : before.Notifies middle)
    (rest : middle.Notifies after) : before.Notifies after := by
  obtain ⟨notices, heffects, hfirst⟩ := first
  obtain ⟨notices', heffects', hrest⟩ := rest
  refine ⟨notices ++ notices', ?_, fun effect hmem => ?_⟩
  · rw [heffects', heffects, List.append_assoc]
  · rcases List.mem_append.mp hmem with hold | hnew
    · exact hfirst effect hold
    · exact hrest effect hnew

/-- Messages about occupants are no answers. -/
theorem Notifies.answered (h : before.Notifies after) : after.answered = before.answered := by
  obtain ⟨notices, heffects, hnotices⟩ := h
  have hnone : Effect.answered notices = [] := by
    apply List.filterMap_eq_nil_iff.mpr
    intro effect hmem
    obtain ⟨recipient, place, delta, rfl⟩ := hnotices effect hmem
    rfl
  rw [World.answered, heffects, Effect.answered_append, hnone, List.append_nil]
  rfl

/-- What is told to the occupants of a place are notices. -/
theorem isNotice_of_mem_notices {place : PlaceId} {delta : SetDelta} {also : Option Identity}
    {effect : Effect} (h : effect ∈ world.notices place delta also) : effect.IsNotice := by
  unfold notices at h
  split at h
  · cases h
  · obtain ⟨identity, -, rfl⟩ := List.mem_map.mp h
    exact ⟨identity, place, _, rfl⟩

/-- Telling the occupants of a place does no more than notify them. -/
theorem notifies_broadcast (world : World) (place : PlaceId) (delta : SetDelta)
    (also : Option Identity) : world.Notifies (world.broadcast place delta also) := by
  rw [broadcast_eq]
  exact ⟨_, rfl, fun _ => isNotice_of_mem_notices⟩

/-- Clearing out of a place does no more than notify those who stay. -/
theorem notifies_vacate (world : World) (change : BodyChange) :
    world.Notifies (world.vacate change) := by
  refine ⟨_, effects_vacate world change, fun effect hmem => ?_⟩
  unfold departures at hmem
  split at hmem
  · exact isNotice_of_mem_notices hmem
  · cases hmem

/-- Leaving a place does no more than notify those who stay. -/
theorem LeaveOutcome.notifies {change : Option BodyChange}
    (outcome : LeaveOutcome world entity change after) : world.Notifies after := by
  cases outcome with
  | outside => exact notifies_of_same rfl
  | leaves => exact notifies_vacate _ _

/-- Entering a place does no more than notify its occupants. -/
theorem CommitOutcome.notifies {zone : ZoneId} {place : PlaceId} {location : LocationId}
    {result : Except CommitError BodyChange}
    (outcome : CommitOutcome world entity zone place location result after) :
    world.Notifies after := by
  cases outcome with
  | bodyless => exact notifies_of_same (effects_dropIfEmpty world place)
  | placeless => exact notifies_of_same rfl
  | full => exact notifies_of_same (effects_dropIfEmpty world place)
  | shifts => exact notifies_broadcast _ _ _ _
  | @enters body host found hosted elsewhere room =>
    have hvacate : world.Notifies ((world.replace
        (body.movedTo (.inside zone host.scene place location))).vacate
          (body.changeTo (.inside zone host.scene place location))) := notifies_vacate _ _
    refine hvacate.trans ?_
    exact notifies_broadcast _ _ _ _

/-- A new status does no more than notify the occupants of the place. -/
theorem StatusOutcome.notifies {identity : Identity} {status : OccupantStatus}
    (outcome : StatusOutcome world identity status after) : world.Notifies after := by
  cases outcome with
  | same => exact notifies_of_same rfl
  | alone => exact notifies_of_same rfl
  | shown => exact notifies_broadcast _ _ _ _

/-- Removing a body does no more than notify those who stay. -/
theorem RemoveOutcome.notifies {identity : Identity}
    (outcome : RemoveOutcome world identity after) : world.Notifies after := by
  cases outcome with
  | unknown => exact notifies_of_same rfl
  | removes named leaves => exact leaves.notifies

/-- Making a body notifies nobody. -/
theorem notifies_createBody (world : World) (identity : Identity) :
    world.Notifies (world.createBody identity).2 := by
  unfold createBody
  split
  · exact notifies_of_same rfl
  · exact notifies_of_same rfl

/-- Finding a place for a scene notifies nobody. -/
theorem notifies_placeFor (world : World) (model : SceneModel) :
    world.Notifies (world.placeFor model).2 := by
  unfold placeFor
  split
  · exact notifies_of_same rfl
  · exact notifies_of_same rfl

end World

/-- Following an event of a session does no more than notify occupants. -/
theorem Server.notifies_followSession (world : World) (event : SessionEvent) :
    world.Notifies (followSession world event) := by
  cases event with
  | started key identity => exact world.notifies_createBody identity
  | resumed key identity =>
    have hstatus := World.setStatus_outcome (world.createBody identity).2 identity .active
    exact (world.notifies_createBody identity).trans hstatus.notifies
  | disconnected key identity cause => exact (world.setStatus_outcome identity _).notifies
  | ended key identity => exact (world.removeBody_outcome identity).notifies

/-! ## One move -/

/-- A move that has its scene does no more than notify occupants until it is answered. -/
theorem MoveRequest.EntryOutcome.notifies {request : MoveRequest} {world after : World}
    {zone : ZoneSummary} {model : SceneModel} {answer : Answer}
    (outcome : EntryOutcome request world zone model answer after) : world.Notifies after := by
  cases outcome with
  | unlisted => exact World.notifies_of_same rfl
  | refused commit => exact (world.notifies_placeFor model).trans commit.notifies
  | entered commit => exact (world.notifies_placeFor model).trans commit.notifies

/-- Finishing a move answers its listener. -/
theorem MoveRequest.answered_finish (request : MoveRequest) (realm : Realm)
    (held : List CacheKey) (answer : Answer) :
    (request.finish realm held answer).world.answered =
      realm.world.answered ++ [request.listener] := by
  rw [finish, World.foldl_release]
  exact World.answered_record_answer _ _ _

/-- Calling a policy answers nobody. -/
theorem Realm.answered_consult (realm : Realm) (zone : ZoneId) (call : PolicyCall) :
    (realm.consult zone call).world.answered = realm.world.answered :=
  (Effect.answered_append _ _).trans (List.append_nil _)

/-- Telling a policy of a body answers nobody. -/
theorem Realm.answered_announce (realm : Realm) (entity : EntityId) (zone : ZoneId) :
    (realm.announce entity zone).world.answered = realm.world.answered := by
  unfold announce
  split
  · exact realm.answered_consult zone _
  · rfl

namespace Flight

/-- A step of a move answers its request, or leaves a flight of the same request. -/
def Replied (request : MoveRequest) (before : Realm) : Option Flight → Realm → Prop
  | some flight, after => flight.request = request ∧ after.world.answered = before.world.answered
  | none, after => after.world.answered = before.world.answered ++ [request.listener]

/-- A move that has looked for its scene waits, or it is answered. -/
theorem SceneOutcome.replied {request : MoveRequest} {zone : ZoneSummary}
    {resolution : Resolution CacheKey Bundle} {realm realm' : Realm} {flight : Option Flight}
    (outcome : SceneOutcome request zone resolution realm flight realm') :
    Replied request realm flight realm' := by
  cases outcome with
  | waits => exact ⟨rfl, rfl⟩
  | missing => exact request.answered_finish realm request.keys _
  | @refused _ model _ world _ _ commit =>
    have hcommit := (request.commit_outcome realm.world zone model).notifies.answered
    rw [commit] at hcommit
    exact (request.answered_finish _ _ _).trans (congrArg (· ++ _) hcommit)
  | @entered _ model _ world _ _ commit =>
    have hcommit := (request.commit_outcome realm.world zone model).notifies.answered
    rw [commit] at hcommit
    exact ((Realm.answered_announce _ _ _).trans (request.answered_finish _ _ _)).trans
      (congrArg (· ++ _) hcommit)

/-- A move that has looked for its zone waits, or it is answered. -/
theorem ZoneOutcome.replied {request : MoveRequest} {resolution : Resolution CacheKey Bundle}
    {realm realm' : Realm} {flight : Option Flight}
    (outcome : ZoneOutcome request resolution realm flight realm') :
    Replied request realm flight realm' := by
  cases outcome with
  | waits => exact ⟨rfl, rfl⟩
  | missing => exact request.answered_finish realm _ _
  | bodyless => exact request.answered_finish realm _ _
  | @vetoed _ summary body =>
    exact (request.answered_finish _ _ _).trans
      (congrArg (· ++ _) (realm.answered_consult summary.zone _))
  | @admitted _ summary body flight _ _ _ _ _ scene =>
    have hratify : (realm.ratify body summary).2.world.answered = realm.world.answered :=
      realm.answered_consult summary.zone _
    have hscene := scene.replied
    cases flight with
    | some flight => exact ⟨hscene.1, hscene.2.trans hratify⟩
    | none => exact hscene.trans (congrArg (· ++ _) hratify)

/-- A move that is taken on waits on, or it is answered. -/
theorem step_replied (flight : Flight) (realm : Realm) :
    Replied flight.request realm (flight.step realm).1 (flight.step realm).2 := by
  unfold step
  split
  · exact (stepZone_outcome _ _ _).replied
  · exact (stepScene_outcome _ _ _ _).replied

/-- A move that begins waits, or it is answered. -/
theorem launch_replied (request : MoveRequest) (realm : Realm) :
    Replied request realm (launch request realm).1 (launch request realm).2 :=
  (stepZone_outcome request _ (realm.acquire (.zone request.target.zone)).2).replied

end Flight

/-! ## The moves of one body -/

namespace Pipeline

variable {pipeline after : Pipeline} {realm realm' : Realm} {entity : EntityId}

/-- The requests of a body that were not answered: that of the move under way, and those behind
it. -/
def waiting (pipeline : Pipeline) (entity : EntityId) : List MoveRequest :=
  ((pipeline.inFlight.get? entity).map (·.request)).toList ++ pipeline.queueOf entity

/-- A move waits if it is under way or in the queue of its body. -/
theorem mem_waiting_iff {request : MoveRequest} :
    request ∈ pipeline.waiting entity ↔
      (∃ flight, pipeline.inFlight.get? entity = some flight ∧ flight.request = request) ∨
        request ∈ pipeline.queueOf entity := by
  simp only [waiting, List.mem_append, Option.mem_toList, Option.map_eq_some_iff]

/-- Setting the queue of one body leaves those of the others alone. -/
theorem queueOf_setQueue (pipeline : Pipeline) (entity other : EntityId)
    (requests : List MoveRequest) :
    (pipeline.setQueue entity requests).queueOf other =
      if other = entity then requests else pipeline.queueOf other := by
  simp only [setQueue, queueOf]
  cases requests with
  | nil =>
    rw [List.isEmpty_nil, if_pos rfl, Table.get?_erase]
    split
    · rfl
    · rfl
  | cons request rest =>
    rw [List.isEmpty_cons, if_neg Bool.false_ne_true, Table.get?_insert]
    split
    · rfl
    · rfl

/-- Setting the queue of a body leaves those of the others. -/
theorem erase_setQueue (pipeline : Pipeline) (entity : EntityId) (requests : List MoveRequest) :
    (pipeline.setQueue entity requests).queued.erase entity = pipeline.queued.erase entity := by
  unfold setQueue
  dsimp only
  split
  · exact Table.erase_erase_self _ _
  · exact Table.erase_insert_self _ _ _

/-- Requests of a body only wait behind a move that is under way. -/
def Tidy (pipeline : Pipeline) : Prop :=
  ∀ ⦃entity⦄, pipeline.inFlight.get? entity = none → pipeline.queueOf entity = []

/-- Of the requests of a body, the first ones were answered, in their order, and the others wait.
Nothing happened to the requests of other bodies. -/
structure Progress (entity : EntityId) (requests : List MoveRequest) (before : Pipeline)
    (realm : Realm) (count : Nat) (after : Pipeline) (realm' : Realm)
    (done : List MoveRequest) : Prop where
  split : requests = done ++ after.waiting entity
  answered : realm'.world.answered = realm.world.answered ++ done.map (·.listener)
  count_eq : count = done.length
  inFlight : after.inFlight.erase entity = before.inFlight.erase entity
  queued : after.queued.erase entity = before.queued.erase entity
  idle : after.inFlight.get? entity = none → after.queueOf entity = []

section Progress

variable {requests done : List MoveRequest} {before : Pipeline} {count : Nat} {other : EntityId}

/-- Taking on the moves of one body leaves those of the others under way. -/
theorem Progress.inFlight_eq (h : Progress entity requests before realm count after realm' done)
    (hother : other ≠ entity) : after.inFlight.get? other = before.inFlight.get? other :=
  Table.get?_of_erase_eq h.inFlight hother

/-- Taking on the moves of one body leaves the queues of the others alone. -/
theorem Progress.queue_eq (h : Progress entity requests before realm count after realm' done)
    (hother : other ≠ entity) : after.queueOf other = before.queueOf other := by
  rw [queueOf, queueOf, Table.get?_of_erase_eq h.queued hother]

/-- Taking on the moves of one body leaves those of the others waiting. -/
theorem Progress.waiting (h : Progress entity requests before realm count after realm' done)
    (hother : other ≠ entity) : after.waiting other = before.waiting other := by
  rw [Pipeline.waiting, Pipeline.waiting, h.inFlight_eq hother, h.queue_eq hother]

/-- A tidy pipeline stays tidy when the moves of one body are taken on. -/
theorem Progress.tidy (h : Progress entity requests before realm count after realm' done)
    (hbefore : before.Tidy) : after.Tidy := by
  intro other hother
  by_cases heq : other = entity
  · rw [heq] at hother ⊢
    exact h.idle hother
  · rw [h.queue_eq heq]
    exact hbefore ((h.inFlight_eq heq).symm.trans hother)

end Progress

end Pipeline

/-- Beginning requests one after the other answers the first ones, until one has to wait. -/
theorem Launch.run_answered (realm : Realm) (requests : List MoveRequest) :
    ∃ done, requests = done ++ (((Launch.run realm requests).parked.map (·.request)).toList ++
        (Launch.run realm requests).remaining) ∧
      (Launch.run realm requests).realm.world.answered =
        realm.world.answered ++ done.map (·.listener) ∧
      (Launch.run realm requests).finished = done.length ∧
      ((Launch.run realm requests).parked = none → (Launch.run realm requests).remaining = []) := by
  induction requests generalizing realm with
  | nil => exact ⟨[], rfl, (List.append_nil _).symm, rfl, fun _ => rfl⟩
  | cons request rest ih =>
    have hreplied := Flight.launch_replied request realm
    cases hlaunch : Flight.launch request realm with
    | mk flight realm' =>
      rw [hlaunch] at hreplied
      cases flight with
      | some flight =>
        obtain ⟨hrequest, hanswered⟩ := hreplied
        simp only [Launch.run, hlaunch]
        refine ⟨[], ?_, hanswered.trans (List.append_nil _).symm, rfl,
          fun hnone => absurd hnone (Option.some_ne_none flight)⟩
        rw [Option.map_some, hrequest]
        rfl
      | none =>
        obtain ⟨done, hsplit, hanswered, hcount, hidle⟩ := ih realm'
        simp only [Launch.run, hlaunch]
        refine ⟨request :: done, congrArg (request :: ·) hsplit, ?_, congrArg (· + 1) hcount, hidle⟩
        rw [hanswered, hreplied, List.append_assoc]
        rfl

namespace Pipeline

variable {pipeline after : Pipeline} {realm realm' : Realm} {entity : EntityId}

/-- Starting the requests of a body answers some of them in their order. -/
theorem start_progress (hidle : pipeline.inFlight.get? entity = none) (realm : Realm)
    (requests : List MoveRequest) :
    ∃ done, Progress entity requests pipeline realm (pipeline.start realm entity requests).1
      (pipeline.start realm entity requests).2.1 (pipeline.start realm entity requests).2.2
      done := by
  obtain ⟨done, hsplit, hanswered, hcount, hrests⟩ := Launch.run_answered realm requests
  simp only [start]
  cases hparked : (Launch.run realm requests).parked with
  | none =>
    rw [hparked] at hsplit hrests
    refine ⟨done, ⟨?_, hanswered, hcount, rfl, erase_setQueue _ _ _, fun _ => ?_⟩⟩
    · rw [Pipeline.waiting, queueOf_setQueue, if_pos rfl]
      change requests = done ++ (((pipeline.inFlight.get? entity).map _).toList ++ _)
      rw [hidle]
      exact hsplit
    · rw [queueOf_setQueue, if_pos rfl]
      exact hrests rfl
  | some flight =>
    rw [hparked] at hsplit
    dsimp only
    have hqueue : queueOf { pipeline.setQueue entity (Launch.run realm requests).remaining
        with inFlight := pipeline.inFlight.insert entity flight } entity =
        (Launch.run realm requests).remaining :=
      (queueOf_setQueue pipeline entity entity _).trans (if_pos rfl)
    refine ⟨done, ⟨?_, hanswered, hcount, Table.erase_insert_self _ _ _, erase_setQueue _ _ _,
      fun hnone => ?_⟩⟩
    · rw [Pipeline.waiting]
      simp only [setQueue, Table.get?_insert_self] at hqueue ⊢
      rw [hqueue]
      exact hsplit
    · rw [setQueue, Table.get?_insert_self] at hnone
      cases hnone

/-- Taking the move of a body on answers the first requests of the body, until one has to wait. -/
theorem advanceBody_progress (htidy : pipeline.Tidy) (realm : Realm) (entity : EntityId) :
    ∃ done, Progress entity (pipeline.waiting entity) pipeline realm
      (pipeline.advanceBody realm entity).1 (pipeline.advanceBody realm entity).2.1
      (pipeline.advanceBody realm entity).2.2 done := by
  unfold advanceBody
  cases hflight : pipeline.inFlight.get? entity with
  | none =>
    exact ⟨[], ⟨rfl, (List.append_nil _).symm, rfl, rfl, rfl, fun hnone => htidy hnone⟩⟩
  | some flight =>
    have hreplied := flight.step_replied realm
    dsimp only
    cases hstep : flight.step realm with
    | mk flight' realm' =>
      rw [hstep] at hreplied
      cases flight' with
      | some flight' =>
        obtain ⟨hrequest, hanswered⟩ := hreplied
        refine ⟨[], ⟨?_, hanswered.trans (List.append_nil _).symm, rfl,
          Table.erase_insert_self _ _ _, rfl, fun hnone => ?_⟩⟩
        · simp only [Pipeline.waiting, Table.get?_insert_self, hflight, Option.map_some, hrequest]
          rfl
        · rw [Table.get?_insert_self] at hnone
          cases hnone
      | none =>
        have hidle : ({ pipeline with inFlight := pipeline.inFlight.erase entity } :
            Pipeline).inFlight.get? entity = none := Table.get?_erase_self _ _
        obtain ⟨done, hprogress⟩ := start_progress hidle realm' (pipeline.queueOf entity)
        refine ⟨flight.request :: done, ⟨?_, ?_, congrArg (· + 1) hprogress.count_eq,
          hprogress.inFlight.trans (Table.erase_erase_self _ _), hprogress.queued,
          hprogress.idle⟩⟩
        · rw [Pipeline.waiting, hflight]
          exact congrArg (flight.request :: ·) hprogress.split
        · refine hprogress.answered.trans ?_
          rw [hreplied, List.append_assoc]
          rfl

/-- A request is begun after all that wait already. -/
theorem begin_progress (htidy : pipeline.Tidy) (realm : Realm) (request : MoveRequest) :
    ∃ count done, Progress request.entity (pipeline.waiting request.entity ++ [request]) pipeline
      realm count (pipeline.begin realm request).1 (pipeline.begin realm request).2 done := by
  unfold begin
  dsimp only
  cases hflight : pipeline.inFlight.get? request.entity with
  | none =>
    have hmoving : pipeline.isMoving request.entity = false := by
      rw [isMoving, Table.contains, hflight]
      rfl
    obtain ⟨done, hprogress⟩ := start_progress hflight realm
      (request :: pipeline.queueOf request.entity)
    rw [hmoving, if_neg Bool.false_ne_true]
    refine ⟨_, done, ⟨?_, hprogress.answered, hprogress.count_eq, hprogress.inFlight,
      hprogress.queued, hprogress.idle⟩⟩
    rw [Pipeline.waiting, hflight, htidy hflight]
    rw [htidy hflight] at hprogress
    exact hprogress.split
  | some flight =>
    have hmoving : pipeline.isMoving request.entity = true := by
      rw [isMoving, Table.contains, hflight]
      rfl
    rw [hmoving, if_pos rfl]
    refine ⟨0, [], ⟨?_, (List.append_nil _).symm, rfl, rfl, erase_setQueue _ _ _,
      fun hnone => ?_⟩⟩
    · rw [Pipeline.waiting, Pipeline.waiting, queueOf_setQueue, if_pos rfl, List.append_assoc]
      rfl
    · change pipeline.inFlight.get? request.entity = none at hnone
      rw [hflight] at hnone
      cases hnone

end Pipeline

/-! ## All that was dispatched -/

namespace Server

/-- A request that was dispatched: its listener, and the move that the pipeline was handed for it,
if it was. -/
structure Dispatch where
  listener : Listener
  move : Option MoveRequest

/-- What an action dispatches. -/
def dispatches (server : Server) : Action → List Dispatch
  | .serve =>
    match server.requests with
    | [] => []
    | (caller, request) :: _ =>
      [⟨server.listenerFor caller request, server.moveFor? caller request⟩]
  | _ => []

/-- The moves that were begun for a body, the oldest first. -/
def begunFor (seen : List Dispatch) (entity : EntityId) : List MoveRequest :=
  (seen.filterMap (·.move)).filter (·.entity = entity)

/-- Those of the answered listeners that belong to moves begun for a body. -/
def answeredFor (seen : List Dispatch) (answered : List Listener) (entity : EntityId) :
    List Listener :=
  answered.filter (· ∈ (begunFor seen entity).map (·.listener))

/-- The books of a server: what was dispatched, who was answered, and which requests of each body
wait. -/
structure Accounted (seen : List Dispatch) (answered : List Listener)
    (waits : EntityId → List MoveRequest) : Prop where
  /-- The dispatches are numbered in their order. -/
  serials : seen.map (·.listener.serial) = List.range seen.length
  listener_eq : ∀ {dispatch move}, dispatch ∈ seen → dispatch.move = some move →
    move.listener = dispatch.listener
  known : ∀ {listener}, listener ∈ answered → ∃ dispatch ∈ seen, dispatch.listener = listener
  once : answered.Nodup
  /-- The moves begun for a body are those that were answered, in this order, and those that
  wait. -/
  order : ∀ entity, ∃ done, begunFor seen entity = done ++ waits entity ∧
    answeredFor seen answered entity = done.map (·.listener)

namespace Accounted

variable {seen : List Dispatch} {answered : List Listener} {waits : EntityId → List MoveRequest}
  {entity : EntityId} {move : MoveRequest}

/-- A move was begun for its body when it was dispatched. -/
theorem mem_begunFor_iff :
    move ∈ begunFor seen entity ↔
      move.entity = entity ∧ ∃ dispatch ∈ seen, dispatch.move = some move := by
  simp only [begunFor, List.mem_filter, List.mem_filterMap, decide_eq_true_eq, and_comm]

/-- No two dispatches have the same listener. -/
theorem listeners_nodup (h : Accounted seen answered waits) :
    (seen.map (·.listener)).Nodup := by
  refine List.Nodup.of_map Listener.serial ?_
  rw [List.map_map]
  change (seen.map (·.listener.serial)).Nodup
  rw [h.serials]
  exact List.nodup_range

/-- Two dispatches have different listeners, so a listener tells its move. -/
theorem move_eq (h : Accounted seen answered waits) {other : MoveRequest} {dispatch dispatch'}
    (hmem : dispatch ∈ seen) (hmove : dispatch.move = some move) (hmem' : dispatch' ∈ seen)
    (hmove' : dispatch'.move = some other) (heq : move.listener = other.listener) :
    move = other := by
  have hlistener : dispatch.listener = dispatch'.listener := by
    rw [← h.listener_eq hmem hmove, ← h.listener_eq hmem' hmove', heq]
  have hsame := List.inj_on_of_nodup_map h.listeners_nodup hmem hmem' hlistener
  rw [hsame, hmove'] at hmove
  exact (Option.some.inj hmove).symm

/-- The moves that were begun are listed in the order of their dispatches. -/
theorem begun_sublist {dispatches : List Dispatch}
    (h : ∀ dispatch ∈ dispatches, ∀ move, dispatch.move = some move →
      move.listener = dispatch.listener) :
    ((dispatches.filterMap (·.move)).map (·.listener)).Sublist (dispatches.map (·.listener)) := by
  induction dispatches with
  | nil => exact .slnil
  | cons dispatch rest ih =>
    have hrest := ih fun other hother => h other (List.mem_cons_of_mem _ hother)
    cases hmove : dispatch.move with
    | none =>
      rw [List.filterMap_cons_none hmove]
      exact hrest.cons _
    | some move =>
      rw [List.filterMap_cons_some hmove, List.map_cons, List.map_cons,
        h dispatch List.mem_cons_self move hmove]
      exact hrest.cons_cons _

/-- No two moves begun for a body have the same listener. -/
theorem begun_nodup (h : Accounted seen answered waits) (entity : EntityId) :
    ((begunFor seen entity).map (·.listener)).Nodup :=
  (h.listeners_nodup.sublist (begun_sublist fun _ hmem _ hmove => h.listener_eq hmem hmove)).sublist
    (List.filter_sublist.map _)

/-- A move that waits is not answered. -/
theorem unanswered (h : Accounted seen answered waits) (hmove : move ∈ waits entity) :
    move.listener ∉ answered := by
  intro hanswered
  obtain ⟨done, hsplit, hdone⟩ := h.order entity
  have hbegun : move.listener ∈ (begunFor seen entity).map (·.listener) := by
    rw [hsplit, List.map_append]
    exact List.mem_append_right _ (List.mem_map_of_mem hmove)
  have hmem : move.listener ∈ done.map (·.listener) := by
    rw [← hdone]
    exact List.mem_filter.mpr ⟨hanswered, decide_eq_true hbegun⟩
  have hnodup := h.begun_nodup entity
  rw [hsplit, List.map_append] at hnodup
  exact List.disjoint_of_nodup_append hnodup hmem (List.mem_map_of_mem hmove)

/-- A move that was begun and does not wait is answered. -/
theorem answered_of_begun (h : Accounted seen answered waits)
    (hbegun : move ∈ begunFor seen entity) (hwaits : move ∉ waits entity) :
    move.listener ∈ answered := by
  obtain ⟨done, hsplit, hdone⟩ := h.order entity
  rw [hsplit] at hbegun
  have hmem : move.listener ∈ answeredFor seen answered entity := by
    rw [hdone]
    exact List.mem_map_of_mem ((List.mem_append.mp hbegun).resolve_right hwaits)
  exact (List.mem_filter.mp hmem).1

/-- The first of the requests that wait for a body are answered. -/
theorem progress {waits' : EntityId → List MoveRequest} {done : List MoveRequest}
    (h : Accounted seen answered waits) (hsplit : waits entity = done ++ waits' entity)
    (hothers : ∀ other, other ≠ entity → waits' other = waits other) :
    Accounted seen (answered ++ done.map (·.listener)) waits' := by
  obtain ⟨before, hbegun, hbefore⟩ := h.order entity
  have hmem : ∀ {move}, move ∈ done → move ∈ begunFor seen entity := by
    intro move hmove
    rw [hbegun, hsplit]
    exact List.mem_append_right _ (List.mem_append_left _ hmove)
  constructor
  case serials => exact h.serials
  case listener_eq => exact h.listener_eq
  case known =>
    intro listener hlistener
    rcases List.mem_append.mp hlistener with hold | hnew
    · exact h.known hold
    · obtain ⟨move, hmove, rfl⟩ := List.mem_map.mp hnew
      obtain ⟨-, dispatch, hdispatch, heq⟩ := mem_begunFor_iff.mp (hmem hmove)
      exact ⟨dispatch, hdispatch, (h.listener_eq hdispatch heq).symm⟩
  case once =>
    refine h.once.append ?_ ?_
    · have hnodup := h.begun_nodup entity
      rw [hbegun, hsplit, List.map_append, List.map_append] at hnodup
      exact (List.nodup_append.mp (List.nodup_append.mp hnodup).2.1).1
    · intro listener hold hnew
      obtain ⟨move, hmove, rfl⟩ := List.mem_map.mp hnew
      have hwaits := List.mem_append_left (waits' entity) hmove
      rw [← hsplit] at hwaits
      exact h.unanswered hwaits hold
  case order =>
    intro other
    by_cases hother : other = entity
    · subst hother
      refine ⟨before ++ done, ?_, ?_⟩
      · rw [hbegun, hsplit, List.append_assoc]
      · rw [answeredFor, List.filter_append, List.map_append]
        refine congr (congrArg _ hbefore) (List.filter_eq_self.mpr fun listener hlistener => ?_)
        obtain ⟨move, hmove, rfl⟩ := List.mem_map.mp hlistener
        exact decide_eq_true (List.mem_map_of_mem (hmem hmove))
    · obtain ⟨earlier, hearlier, hanswered⟩ := h.order other
      refine ⟨earlier, by rw [hothers other hother, hearlier], ?_⟩
      rw [← hanswered, answeredFor, List.filter_append]
      refine (congrArg _ (List.filter_eq_nil_iff.mpr fun listener hlistener hin => ?_)).trans
        (List.append_nil _)
      obtain ⟨move, hmove, rfl⟩ := List.mem_map.mp hlistener
      obtain ⟨same, hsame, heq⟩ := List.mem_map.mp (of_decide_eq_true hin)
      obtain ⟨hentity, dispatch, hdispatch, hmoved⟩ := mem_begunFor_iff.mp (hmem hmove)
      obtain ⟨hentity', dispatch', hdispatch', hmoved'⟩ := mem_begunFor_iff.mp hsame
      have hmoves := h.move_eq hdispatch' hmoved' hdispatch hmoved heq
      rw [hmoves] at hentity'
      exact hother (hentity'.symm.trans hentity)

/-- The listener of a new dispatch has not been answered. -/
theorem fresh (h : Accounted seen answered waits) {listener : Listener}
    (hserial : listener.serial = seen.length) : listener ∉ answered := by
  intro hanswered
  obtain ⟨dispatch, hdispatch, rfl⟩ := h.known hanswered
  have hmem : dispatch.listener.serial ∈ List.range seen.length := by
    rw [← h.serials]
    exact List.mem_map_of_mem (f := fun dispatch : Dispatch => dispatch.listener.serial) hdispatch
  rw [hserial] at hmem
  exact Nat.lt_irrefl _ (List.mem_range.mp hmem)

/-- A request is dispatched. If it is a move, it waits for its body. -/
theorem dispatch (h : Accounted seen answered waits) (dispatch : Dispatch)
    (hserial : dispatch.listener.serial = seen.length)
    (hlistener : ∀ {move}, dispatch.move = some move → move.listener = dispatch.listener)
    {waits' : EntityId → List MoveRequest} (hwaits : ∀ entity,
      waits' entity = waits entity ++ dispatch.move.toList.filter (·.entity = entity)) :
    Accounted (seen ++ [dispatch]) answered waits' := by
  have hbegun : ∀ entity, begunFor (seen ++ [dispatch]) entity =
      begunFor seen entity ++ dispatch.move.toList.filter (·.entity = entity) := by
    intro entity
    rw [begunFor, List.filterMap_append, List.filter_append]
    cases hmove : dispatch.move with
    | none => rw [List.filterMap_cons_none hmove]; rfl
    | some move => rw [List.filterMap_cons_some hmove]; rfl
  constructor
  case serials =>
    rw [List.map_append, h.serials, List.length_append, List.length_singleton, List.range_succ]
    exact congrArg (_ ++ [·]) hserial
  case listener_eq =>
    intro other move hother hmove
    rcases List.mem_append.mp hother with hold | hnew
    · exact h.listener_eq hold hmove
    · rw [List.mem_singleton.mp hnew] at hmove ⊢
      exact hlistener hmove
  case known =>
    intro listener hanswered
    obtain ⟨other, hother, heq⟩ := h.known hanswered
    exact ⟨other, List.mem_append_left _ hother, heq⟩
  case once => exact h.once
  case order =>
    intro entity
    obtain ⟨done, hsplit, hdone⟩ := h.order entity
    refine ⟨done, by rw [hbegun, hsplit, hwaits, List.append_assoc], ?_⟩
    rw [← hdone, answeredFor, answeredFor, hbegun]
    refine List.filter_congr fun listener hanswered => ?_
    rw [List.map_append, decide_eq_decide, List.mem_append, or_iff_left]
    intro hnew
    obtain ⟨move, hmove, rfl⟩ := List.mem_map.mp hnew
    have hmoved := Option.mem_toList.mp (List.mem_filter.mp hmove).1
    rw [hlistener hmoved] at hanswered
    exact h.fresh hserial hanswered

/-- A dispatch whose request is no move is answered. -/
theorem answer (h : Accounted seen answered waits) {dispatch : Dispatch}
    (hdispatch : dispatch ∈ seen) (hmove : dispatch.move = none)
    (hfresh : dispatch.listener ∉ answered) :
    Accounted seen (answered ++ [dispatch.listener]) waits where
  serials := h.serials
  listener_eq := h.listener_eq
  known := by
    intro listener hlistener
    rcases List.mem_append.mp hlistener with hold | hnew
    · exact h.known hold
    · exact ⟨dispatch, hdispatch, (List.mem_singleton.mp hnew).symm⟩
  once := h.once.append (List.nodup_singleton _) fun listener hold hnew => by
    rw [List.mem_singleton.mp hnew] at hold
    exact hfresh hold
  order := by
    intro entity
    obtain ⟨done, hsplit, hdone⟩ := h.order entity
    refine ⟨done, hsplit, ?_⟩
    rw [← hdone, answeredFor, List.filter_append]
    refine (congrArg _ (List.filter_eq_nil_iff.mpr fun listener hlistener hin => ?_)).trans
      (List.append_nil _)
    rw [List.mem_singleton.mp hlistener] at hin
    obtain ⟨move, hbegun, heq⟩ := List.mem_map.mp (of_decide_eq_true hin)
    obtain ⟨-, other, hother, hmoved⟩ := mem_begunFor_iff.mp hbegun
    have hlistener := (h.listener_eq hother hmoved).symm.trans heq
    have hsame := List.inj_on_of_nodup_map h.listeners_nodup hother hdispatch hlistener
    rw [hsame, hmove] at hmoved
    cases hmoved

/-- A move is dispatched and begun behind those that wait already. -/
theorem begin (h : Accounted seen answered waits) (hserial : move.listener.serial = seen.length)
    {waits' : EntityId → List MoveRequest} {done : List MoveRequest}
    (hsplit : waits move.entity ++ [move] = done ++ waits' move.entity)
    (hothers : ∀ other, other ≠ move.entity → waits' other = waits other) :
    Accounted (seen ++ [⟨move.listener, some move⟩]) (answered ++ done.map (·.listener))
      waits' := by
  have hdispatch := h.dispatch ⟨move.listener, some move⟩ hserial
    (fun hmove => congrArg MoveRequest.listener (Option.some.inj hmove).symm) fun _ => rfl
  have hwaits : waits move.entity ++ (some move).toList.filter (·.entity = move.entity) =
      done ++ waits' move.entity := by
    rw [← hsplit]
    exact congrArg (_ ++ ·) (List.filter_eq_self.mpr
      (List.forall_mem_singleton.mpr (decide_eq_true rfl)))
  refine hdispatch.progress hwaits fun other hother => ?_
  rw [hothers other hother]
  refine (List.append_nil _).symm.trans (congrArg (_ ++ ·) (List.filter_eq_nil_iff.mpr ?_).symm)
  intro same hsame heq
  rw [List.mem_singleton.mp hsame] at heq
  exact hother (of_decide_eq_true heq).symm

end Accounted

end Server

/-- Moves that are taken on answer their requests in the order in which these wait, and their number
is returned. -/
theorem Pipeline.advanceIn_accounted {seen : List Server.Dispatch} {past : List Listener}
    {pipeline : Pipeline} {realm : Realm} (htidy : pipeline.Tidy)
    (h : Server.Accounted seen (past ++ realm.world.answered) pipeline.waiting)
    (bodies : List EntityId) :
    (pipeline.advanceIn realm bodies).2.1.Tidy ∧
      Server.Accounted seen (past ++ (pipeline.advanceIn realm bodies).2.2.world.answered)
        (pipeline.advanceIn realm bodies).2.1.waiting ∧
      ∃ replies, (pipeline.advanceIn realm bodies).2.2.world.answered =
          realm.world.answered ++ replies ∧
        (pipeline.advanceIn realm bodies).1 = replies.length := by
  induction bodies generalizing pipeline realm with
  | nil => exact ⟨htidy, h, [], (List.append_nil _).symm, rfl⟩
  | cons entity rest ih =>
    obtain ⟨done, hprogress⟩ := advanceBody_progress htidy realm entity
    have hstep := h.progress hprogress.split fun _ => hprogress.waiting
    rw [List.append_assoc, ← hprogress.answered] at hstep
    obtain ⟨htidy', haccounted, replies, hreplies, hcount⟩ := ih (hprogress.tidy htidy) hstep
    refine ⟨htidy', haccounted, done.map (·.listener) ++ replies, hreplies.trans ?_, ?_⟩
    · rw [hprogress.answered, List.append_assoc]
    · rw [List.length_append, List.length_map, ← hprogress.count_eq, ← hcount]
      rfl

namespace Server

variable {server after : Server} {seen : List Dispatch}

/-- The listeners that were answered so far, whether the answer is on its way already or not. -/
def answered (server : Server) : List Listener :=
  Effect.answered server.journal ++ server.world.answered

/-- The books of a server are in order, for the dispatches that were seen. -/
structure Orderly (seen : List Dispatch) (server : Server) : Prop where
  builtIn : server.BuiltIn
  dispatched : server.router.dispatched = seen.length
  tidy : server.simulation.pipeline.Tidy
  accounted : Accounted seen server.answered server.simulation.pipeline.waiting

/-- A new server is in order. -/
theorem new_orderly (config : ServerConfig) (loader : Loader CacheKey Bundle) :
    (Server.new config loader).Orderly [] where
  builtIn := rfl
  dispatched := rfl
  tidy := fun _ _ => rfl
  accounted := ⟨rfl, nofun, nofun, List.nodup_nil, fun _ => ⟨[], rfl, rfl⟩⟩

/-- What neither dispatches nor answers nor moves leaves the books as they are. -/
theorem Orderly.quiet (h : server.Orderly seen) (hrouter : after.router = server.router)
    (hpipeline : after.simulation.pipeline = server.simulation.pipeline)
    (hanswered : after.answered = server.answered) : after.Orderly (seen ++ []) where
  builtIn := (congrArg Router.services hrouter).trans h.builtIn
  dispatched := by rw [hrouter, h.dispatched, List.append_nil]
  tidy := by
    rw [hpipeline]
    exact h.tidy
  accounted := by
    rw [hpipeline, hanswered, List.append_nil]
    exact h.accounted

/-- Who was answered depends on the effects of the world alone. -/
theorem answered_withWorld {world : World} (hworld : world.answered = server.world.answered) :
    (server.withWorld world).answered = server.answered := congrArg (_ ++ ·) hworld

/-- A request that is no move is entered into the books, and answered. -/
theorem Orderly.answered_at_once (h : server.Orderly seen) {listener : Listener}
    (hserial : listener.serial = seen.length) {world : World}
    (hworld : world.answered = server.world.answered ++ [listener]) :
    Accounted (seen ++ [⟨listener, none⟩]) (Effect.answered server.journal ++ world.answered)
      server.simulation.pipeline.waiting := by
  have hdispatch := h.accounted.dispatch ⟨listener, none⟩ hserial nofun
    fun _ => (List.append_nil _).symm
  have hanswer := hdispatch.answer (List.mem_append_right _ List.mem_cons_self) rfl
    (h.accounted.fresh hserial)
  rw [hworld, ← List.append_assoc]
  exact hanswer

/-- A request that is no move is answered within its dispatch, and the pipeline is left alone. -/
theorem Served.answered {caller : Identity} {request : Request} {simulation : Simulation}
    (served : Served server caller request none simulation) :
    simulation.pipeline = server.simulation.pipeline ∧
      simulation.world.answered = server.world.answered ++ [server.listenerFor caller request] := by
  cases served with
  | unrouted => exact ⟨rfl, World.answered_record_answer _ _ _⟩
  | refused layer =>
    refine ⟨rfl, (World.answered_record_answer _ _ _).trans ?_⟩
    rw [World.answered_record_served]
  | @left layer entity =>
    refine ⟨rfl, (World.answered_record_answer _ _ _).trans ?_⟩
    rw [(World.leavePlace_outcome _ entity).notifies.answered, World.answered_record_served]

/-- A request that is a move is handed to the pipeline. -/
theorem Served.handed {caller : Identity} {request : Request} {move : MoveRequest}
    {simulation : Simulation} (served : Served server caller request (some move) simulation) :
    ∃ layer, move.listener = server.listenerFor caller request ∧
      simulation = (server.simulation.withWorld (server.world.record
        (.served request.service layer request.method caller))).beginMove move := by
  cases served with
  | begun layer body listener => exact ⟨layer, listener, rfl⟩

/-- A dispatch is entered into the books, with its answer or with its move. -/
theorem Orderly.served (h : server.Orderly seen) {caller : Identity} {request : Request}
    {move : Option MoveRequest} {simulation : Simulation}
    (served : Served server caller request move simulation) :
    simulation.pipeline.Tidy ∧
      Accounted (seen ++ [⟨server.listenerFor caller request, move⟩])
        (Effect.answered server.journal ++ simulation.world.answered)
        simulation.pipeline.waiting := by
  have hserial : (server.listenerFor caller request).serial = seen.length := h.dispatched
  cases move with
  | none =>
    obtain ⟨hpipeline, hanswered⟩ := served.answered
    rw [hpipeline]
    exact ⟨h.tidy, h.answered_at_once hserial hanswered⟩
  | some move =>
    obtain ⟨layer, listener, rfl⟩ := served.handed
    obtain ⟨count, done, hprogress⟩ := Pipeline.begin_progress h.tidy (server.simulation.withWorld
      (server.world.record (.served request.service layer request.method caller))).realm move
    rw [← listener] at hserial
    have hbegin := h.accounted.begin hserial hprogress.split
      fun _ => hprogress.waiting
    refine ⟨hprogress.tidy h.tidy, ?_⟩
    rw [← listener]
    refine (congrArg (Accounted _ · _) ?_).mpr hbegin
    rw [answered, List.append_assoc]
    refine congrArg (_ ++ ·) (hprogress.answered.trans (congrArg (· ++ _) ?_))
    exact World.answered_record_served _ _ _ _ _

/-- Running a request enters it into the books. -/
theorem Orderly.runRequest (h : server.Orderly seen) (caller : Identity) (request : Request) :
    (server.runRequest caller request).Orderly
      (seen ++ [⟨server.listenerFor caller request, server.moveFor? caller request⟩]) := by
  have hrouter := runRequest_router server caller request
  obtain ⟨htidy, haccounted⟩ := h.served (runRequest_served server h.builtIn caller request)
  refine ⟨(congrArg Router.services hrouter).trans h.builtIn, ?_, htidy, haccounted⟩
  rw [hrouter, List.length_append, h.dispatched]
  rfl

/-- An action enters what it dispatches into the books, and keeps them in order. -/
theorem ActOutcome.orderly {action : Action} (outcome : ActOutcome server action after)
    (h : server.Orderly seen) : after.Orderly (seen ++ server.dispatches action) := by
  cases outcome with
  | ejects body =>
    exact h.quiet rfl rfl
      (answered_withWorld (World.leavePlace_outcome server.world _).notifies.answered)
  | follows events =>
    exact h.quiet rfl rfl (answered_withWorld (notifies_followSession server.world _).answered)
  | @serves caller request rest requests =>
    have hpopped : ({ server with requests := rest } : Server).Orderly seen :=
      ⟨h.builtIn, h.dispatched, h.tidy, h.accounted⟩
    rw [dispatches, requests]
    exact hpopped.runRequest caller request
  | servesNothing requests =>
    rw [dispatches, requests]
    exact h.quiet rfl rfl rfl
  | advances bodies =>
    have hadvance := Pipeline.advanceIn_accounted h.tidy h.accounted bodies
    rw [show server.dispatches (.advance bodies) = [] from rfl, List.append_nil]
    exact ⟨h.builtIn, h.dispatched, hadvance.1, hadvance.2.1⟩
  | @delivers effect rest effects =>
    refine h.quiet rfl rfl ?_
    change Effect.answered (server.journal ++ [effect]) ++ Effect.answered rest =
      Effect.answered server.journal ++ Effect.answered server.world.effects
    rw [effects, ← Effect.answered_append, ← Effect.answered_append, List.append_assoc]
    rfl
  | _ => exact h.quiet rfl rfl rfl

/-- A server stays in order in every run. -/
theorem run_orderly (config : ServerConfig) (loader : Loader CacheKey Bundle)
    (actions : List Action) :
    ((Server.new config loader).run actions).Orderly
      ((Server.new config loader).collect dispatches actions) :=
  run_collect_induction (P := Orderly)
    (fun _ server action h => (act_outcome server action).orderly h) (new_orderly config loader)
    actions

/-- How a server answers the requests it has dispatched so far, given those that were seen. -/
structure Answering (seen : List Dispatch) (server : Server) : Prop where
  /-- Every dispatch has a listener of its own. -/
  distinct : (seen.map (·.listener)).Nodup
  /-- No listener is answered twice. -/
  once : server.answered.Nodup
  /-- Nobody is answered who did not ask. -/
  asked : ∀ {listener}, listener ∈ server.answered → listener ∈ seen.map (·.listener)
  /-- A request that is not handed to the pipeline is answered within its dispatch, and nobody else
  is. -/
  at_once : ∀ {caller request rest}, server.requests = (caller, request) :: rest →
    server.moveFor? caller request = none →
    (server.act .serve).answered = server.answered ++ [server.listenerFor caller request]
  /-- A request that is a move is handed to the pipeline. -/
  begun : ∀ {caller request rest move}, server.requests = (caller, request) :: rest →
    server.moveFor? caller request = some move →
    ∃ layer, move.listener = server.listenerFor caller request ∧
      (server.act .serve).simulation = (server.simulation.withWorld (server.world.record
        (.served request.service layer request.method caller))).beginMove move
  /-- A move that was handed to the pipeline is unanswered exactly as long as it is under way or
  waits behind the move of its body that is. -/
  unanswered_iff : ∀ {dispatch move}, dispatch ∈ seen → dispatch.move = some move →
    (move.listener ∉ server.answered ↔
      (∃ flight, server.simulation.pipeline.inFlight.get? move.entity = some flight ∧
        flight.request = move) ∨ move ∈ server.simulation.pipeline.queueOf move.entity)
  /-- The moves of a body are answered in the order in which they were begun. -/
  in_order : ∀ entity, answeredFor seen server.answered entity <+:
    (begunFor seen entity).map (·.listener)
  /-- Taking moves on, in whatever order, returns the number of the answers it gives. -/
  counted : ∀ bodies, ∃ replies : List Listener,
    (server.act (.advance bodies)).answered = server.answered ++ replies ∧
      (server.simulation.pipeline.advanceIn server.simulation.realm bodies).1 = replies.length

/-- To serve is to dispatch the first request. -/
theorem act_serve {caller : Identity} {request : Request} {rest : List (Identity × Request)}
    (h : server.requests = (caller, request) :: rest) :
    server.act .serve = { server with requests := rest }.runRequest caller request := by
  simp only [Server.act, serveNext, h]

/-- A server that is in order answers as it should. -/
theorem Orderly.answering (h : server.Orderly seen) : server.Answering seen where
  distinct := h.accounted.listeners_nodup
  once := h.accounted.once
  asked hanswered := by
    obtain ⟨dispatch, hdispatch, rfl⟩ := h.accounted.known hanswered
    exact List.mem_map_of_mem hdispatch
  at_once {caller request rest} hrequests hmove := by
    rw [act_serve hrequests]
    have hserved := runRequest_served { server with requests := rest } h.builtIn caller request
    rw [show ({ server with requests := rest } : Server).moveFor? caller request = none from hmove]
      at hserved
    exact (congrArg (_ ++ ·) hserved.answered.2).trans (List.append_assoc _ _ _).symm
  begun {caller request rest move} hrequests hmove := by
    rw [act_serve hrequests]
    have hserved := runRequest_served { server with requests := rest } h.builtIn caller request
    rw [show ({ server with requests := rest } : Server).moveFor? caller request = some move from
      hmove] at hserved
    exact hserved.handed
  unanswered_iff {dispatch move} hdispatch hmove := by
    have hbegun : move ∈ begunFor seen move.entity :=
      Accounted.mem_begunFor_iff.mpr ⟨rfl, dispatch, hdispatch, hmove⟩
    rw [← Pipeline.mem_waiting_iff]
    refine ⟨fun hunanswered => ?_, h.accounted.unanswered⟩
    exact Decidable.byContradiction fun hwaits =>
      hunanswered (h.accounted.answered_of_begun hbegun hwaits)
  in_order entity := by
    obtain ⟨done, hsplit, hdone⟩ := h.accounted.order entity
    rw [hdone, hsplit, List.map_append]
    exact List.prefix_append _ _
  counted bodies := by
    obtain ⟨-, -, replies, hreplies, hcount⟩ :=
      Pipeline.advanceIn_accounted h.tidy h.accounted bodies
    exact ⟨replies, (congrArg (_ ++ ·) hreplies).trans (List.append_assoc _ _ _).symm, hcount⟩

/-- Whatever happens to a server, in whatever order, every request that it dispatches is answered at
most once, a request that is no move is answered within its dispatch, a move is unanswered exactly
as long as it is under way or queued, and the moves of a body are answered in the order in which
they were begun. -/
theorem run_answering (config : ServerConfig) (loader : Loader CacheKey Bundle)
    (actions : List Action) :
    ((Server.new config loader).run actions).Answering
      ((Server.new config loader).collect dispatches actions) :=
  (run_orderly config loader actions).answering

end Server

end SharedWorld
