import SharedWorld.Proofs.Replies

/-!
# The legs of moves

A move is not made at one go. It is begun, it waits for its zone and for its scene, and whenever it
is taken on it finds another realm. Each such stretch of work is a leg. `Leg.Ending` lists how a leg
ends, with all that is known then; the legs of an action follow each other from the realm that the
action finds to the realm that it leaves (`Leg.Path`). What the legs of a pipeline preserve, one leg
after the other, is lifted once by `Pipeline.Chronicle`.
-/

namespace SharedWorld

/-- A stretch of work on a move: the move is begun, or it is taken on from where it waits. -/
structure Leg where
  request : MoveRequest
  /-- Where the move waits. A move that is begun waits nowhere. -/
  stage? : Option Stage
  /-- The realm that the leg finds. -/
  before : Realm

namespace Leg

/-- What a leg comes to: the move if it waits again, and the realm. -/
def outcome (leg : Leg) : Option Flight × Realm :=
  match leg.stage? with
  | none => Flight.launch leg.request leg.before
  | some stage => Flight.step ⟨leg.request, stage⟩ leg.before

/-- The move after a leg, if it waits. -/
def parked (leg : Leg) : Option Flight := leg.outcome.1

/-- The realm after a leg. -/
def after (leg : Leg) : Realm := leg.outcome.2

/-- What a leg does to the surroundings, the first thing first. -/
def effects (leg : Leg) : List Effect :=
  leg.after.world.effects.drop leg.before.world.effects.length

/-- The effects of a leg are those that it adds. -/
theorem effects_eq {leg : Leg} {effects : List Effect}
    (h : leg.after.world.effects = leg.before.world.effects ++ effects) :
    leg.effects = effects := by
  rw [Leg.effects, h, List.drop_left]

end Leg

/-! ## The two halves of a move -/

namespace World

/-- Making a place changes nothing but the places. -/
theorem placeFor_eq (world : World) (model : SceneModel) :
    (world.placeFor model).2 = { world with
      places := (world.placeFor model).2.places
      hosts := (world.placeFor model).2.hosts
      placeIds := (world.placeFor model).2.placeIds } := by
  unfold placeFor
  split
  · rfl
  · rfl

/-- Neither does dropping one. -/
theorem dropIfEmpty_eq (world : World) (place : PlaceId) :
    world.dropIfEmpty place = { world with
      places := (world.dropIfEmpty place).places
      hosts := (world.dropIfEmpty place).hosts } := by
  unfold dropIfEmpty
  split
  · rfl
  · split
    · rfl
    · rfl

/-- A move that could not go into its place left the world alone, or dropped the place. -/
theorem CommitOutcome.of_error {world after : World} {entity : EntityId} {zone : ZoneId}
    {place : PlaceId} {location : LocationId} {error : CommitError}
    (outcome : CommitOutcome world entity zone place location (.error error) after) :
    after = world ∨ after = world.dropIfEmpty place := by
  cases outcome with
  | bodyless => exact .inr rfl
  | placeless => exact .inl rfl
  | full => exact .inr rfl

end World

namespace MoveRequest

/-- Whom the policy of a zone is asked about when the load of the zone is taken, if it is asked. -/
def inquiry? (request : MoveRequest) (load : LoadOutcome Bundle) (realm : Realm) :
    Option (Body × ZoneSummary) :=
  match load with
  | .loaded (.zone zone) => (realm.world.body? request.entity).map (·, zone)
  | _ => none

/-- The realm after the policy was asked, if it was. -/
def inquire (request : MoveRequest) (load : LoadOutcome Bundle) (realm : Realm) : Realm :=
  match request.inquiry? load realm with
  | none => realm
  | some (body, zone) => (realm.ratify body zone).2

/-- The call of the policy, if it was asked. -/
def inquiry (request : MoveRequest) (load : LoadOutcome Bundle) (realm : Realm) : List Effect :=
  match request.inquiry? load realm with
  | none => []
  | some (body, zone) => [.consulted (realm.zones.policyFor zone.zone).name
      (.ratified body zone (realm.ratify body zone).1)]

/-- What the load of its zone comes to for a move: the zone that it goes on into, or the first thing
that is wrong. -/
def admission (request : MoveRequest) (load : LoadOutcome Bundle) (realm : Realm) :
    Except Fault ZoneSummary :=
  match load with
  | .loaded (.zone zone) =>
    match realm.world.body? request.entity with
    | none => .error (.noBody request.entity)
    | some body =>
      match (realm.zones.policyFor zone.zone).verdict (realm.zones.policyFor zone.zone).calls body
        zone with
      | some reason => .error (.vetoed reason)
      | none => .ok zone
  | _ => .error .noSuchZone

/-- What the load of its scene comes to for a move. -/
def land (request : MoveRequest) (zone : ZoneSummary) (load : LoadOutcome Bundle)
    (world : World) : Answer × World :=
  match load with
  | .loaded (.scene model) => request.commit world zone model
  | _ => (.failure .noSuchPlace, world)

variable {request : MoveRequest} {load : LoadOutcome Bundle} {realm : Realm}

/-- Asking a policy leaves the world alone, and is recorded. -/
theorem inquire_world (request : MoveRequest) (load : LoadOutcome Bundle) (realm : Realm) :
    (request.inquire load realm).world =
      { realm.world with effects := realm.world.effects ++ request.inquiry load realm } := by
  unfold inquire inquiry
  cases request.inquiry? load realm with
  | none => simp only [List.append_nil]
  | some asked => rfl

/-- Without a zone nobody is asked. -/
theorem admission_of_asZone_error (request : MoveRequest) (realm : Realm) {error : LoadError}
    (h : load.asZone = .error error) :
    request.admission load realm = .error .noSuchZone ∧ request.inquire load realm = realm := by
  cases load with
  | failed error => exact ⟨rfl, rfl⟩
  | loaded bundle =>
    cases bundle with
    | scene model => exact ⟨rfl, rfl⟩
    | zone summary => cases h

/-- Without a body nobody is asked about. -/
theorem admission_of_bodyless {zone : ZoneSummary} (h : realm.world.body? request.entity = none) :
    request.admission (.loaded (.zone zone)) realm = .error (.noBody request.entity) ∧
      request.inquire (.loaded (.zone zone)) realm = realm := by
  simp only [admission, inquire, inquiry?, h, Option.map_none, and_self]

/-- With a zone and a body the policy has the say. -/
theorem admission_of_body {zone : ZoneSummary} {body : Body}
    (h : realm.world.body? request.entity = some body) :
    request.admission (.loaded (.zone zone)) realm =
        (match (realm.ratify body zone).1 with
          | some reason => .error (.vetoed reason)
          | none => .ok zone) ∧
      request.inquire (.loaded (.zone zone)) realm = (realm.ratify body zone).2 := by
  constructor
  · simp only [admission, h]
    rfl
  · simp only [inquire, inquiry?, h, Option.map_some]

/-- Who is let in has a zone and a body. -/
theorem inquiry?_of_admission {zone : ZoneSummary} (h : request.admission load realm = .ok zone) :
    ∃ body, request.inquiry? load realm = some (body, zone) ∧ load = .loaded (.zone zone) ∧
      realm.world.body? request.entity = some body ∧ (realm.ratify body zone).1 = none := by
  unfold admission at h
  split at h
  case h_1 summary =>
    cases hbody : realm.world.body? request.entity with
    | none => simp only [hbody, reduceCtorEq] at h
    | some body =>
      cases hverdict : (realm.ratify body summary).1 with
      | some reason =>
        have hveto : (realm.zones.policyFor summary.zone).verdict
            (realm.zones.policyFor summary.zone).calls body summary = some reason := hverdict
        simp only [hbody, hveto, reduceCtorEq] at h
      | none =>
        have hgranted : (realm.zones.policyFor summary.zone).verdict
            (realm.zones.policyFor summary.zone).calls body summary = none := hverdict
        simp only [hbody, hgranted, Except.ok.injEq] at h
        subst h
        exact ⟨body, by simp only [inquiry?, hbody, Option.map_some], rfl, rfl, hverdict⟩
  case h_2 => cases h

/-- What brings no scene brings nobody into a place. -/
theorem land_of_asScene_error {zone : ZoneSummary} {error : LoadError}
    (h : load.asScene = .error error) (world : World) :
    request.land zone load world = (.failure .noSuchPlace, world) := by
  cases load with
  | failed error => rfl
  | loaded bundle =>
    cases bundle with
    | scene model => cases h
    | zone summary => rfl

/-- A load brings no scene, or the move is committed with the scene that it brings. -/
theorem land_cases {zone : ZoneSummary} {world after : World} {answer : Answer}
    (h : request.land zone load world = (answer, after)) :
    answer = .failure .noSuchPlace ∧ after = world ∨
      ∃ model, load = .loaded (.scene model) ∧
        EntryOutcome request world zone model answer after := by
  cases hscene : load.asScene with
  | error error =>
    rw [land_of_asScene_error hscene, Prod.mk.injEq] at h
    exact .inl ⟨h.1.symm, h.2.symm⟩
  | ok model =>
    obtain rfl := LoadOutcome.eq_of_asScene hscene
    have hentry := request.commit_outcome world zone model
    rw [show request.commit world zone model = (answer, after) from h] at hentry
    exact .inr ⟨model, rfl, hentry⟩

/-- A move that could not go into its place changed nothing but the places. -/
theorem land_failure {zone : ZoneSummary} {fault : Fault} {world after : World}
    (h : request.land zone load world = (.failure fault, after)) :
    after =
      { world with places := after.places, hosts := after.hosts, placeIds := after.placeIds } := by
  rcases land_cases h with ⟨-, rfl⟩ | ⟨model, -, hentry⟩
  · rfl
  · cases hentry with
    | unlisted => rfl
    | refused commit =>
      rcases commit.of_error with rfl | rfl
      · exact world.placeFor_eq model
      · rw [World.dropIfEmpty_eq]
        rw [world.placeFor_eq model]

/-- Finishing a move adds its answer. -/
theorem effects_finish (request : MoveRequest) (realm : Realm) (held : List CacheKey)
    (answer : Answer) : (request.finish realm held answer).world.effects =
      realm.world.effects ++ [.answer request.listener answer] := by
  rw [finish, World.foldl_release]
  rfl

end MoveRequest

/-- The call by which a policy is told that a body entered. -/
def Realm.announcement (realm : Realm) (entity : EntityId) (zone : ZoneId) : List Effect :=
  match realm.world.body? entity with
  | some body => [.consulted (realm.zones.policyFor zone).name (.entered body zone)]
  | none => []

/-- Telling a policy of a body adds the announcement. -/
theorem Realm.effects_announce (realm : Realm) (entity : EntityId) (zone : ZoneId) :
    (realm.announce entity zone).world.effects =
      realm.world.effects ++ realm.announcement entity zone := by
  unfold announce announcement
  cases realm.world.body? entity with
  | none => exact (List.append_nil _).symm
  | some body => rfl

/-! ## How a leg ends -/

namespace Leg

/-- Where a leg looks for its zone, if the move does not have it yet. A move that is begun asks for
it first. -/
def quest? (leg : Leg) : Option (Resolution CacheKey Bundle × Realm) :=
  match leg.stage? with
  | none => some (leg.before.acquire (.zone leg.request.target.zone))
  | some (.resolvingZone resolution) => some (resolution, leg.before)
  | some (.resolvingScene _ _) => none

/-- A leg that has got through to the scene, with the calls of policies on the way, the resolution
of the scene and the realm: the move waited there, or it has just been let into its zone. -/
inductive Reaches (leg : Leg) (zone : ZoneSummary) :
    List Effect → Resolution CacheKey Bundle → Realm → Prop where
  | resumes {resolution : Resolution CacheKey Bundle}
      (stage : leg.stage? = some (.resolvingScene zone resolution)) :
    Reaches leg zone [] resolution leg.before
  | admitted {resolution : Resolution CacheKey Bundle} {realm : Realm} {load : LoadOutcome Bundle}
      (quest : leg.quest? = some (resolution, realm))
      (taken : resolution.outcome? realm.world.cache = some load)
      (admitted : leg.request.admission load realm = .ok zone) :
    Reaches leg zone (leg.request.inquiry load realm)
      ((leg.request.inquire load realm).acquire (.scene leg.request.target.scene)).1
      ((leg.request.inquire load realm).acquire (.scene leg.request.target.scene)).2

/-- How a leg ends: the move if it waits again, the realm, and what was done to the surroundings. -/
inductive Ending (leg : Leg) : Option Flight → Realm → List Effect → Prop where
  /-- The zone is still being loaded. -/
  | awaitsZone {resolution : Resolution CacheKey Bundle} {realm : Realm}
      (quest : leg.quest? = some (resolution, realm))
      (load : resolution.outcome? realm.world.cache = none) :
    Ending leg (some ⟨leg.request, .resolvingZone resolution⟩) realm []
  /-- The move is not let into its zone. -/
  | stopped {resolution : Resolution CacheKey Bundle} {realm : Realm} {load : LoadOutcome Bundle}
      {fault : Fault} (quest : leg.quest? = some (resolution, realm))
      (taken : resolution.outcome? realm.world.cache = some load)
      (refused : leg.request.admission load realm = .error fault) :
    Ending leg none (leg.request.finish (leg.request.inquire load realm)
        [.zone leg.request.target.zone] (.failure fault))
      (leg.request.inquiry load realm ++ [.answer leg.request.listener (.failure fault)])
  /-- The scene is still being loaded. -/
  | awaitsScene {zone : ZoneSummary} {inquiry : List Effect}
      {resolution : Resolution CacheKey Bundle} {realm : Realm}
      (reaches : leg.Reaches zone inquiry resolution realm)
      (load : resolution.outcome? realm.world.cache = none) :
    Ending leg (some ⟨leg.request, .resolvingScene zone resolution⟩) realm inquiry
  /-- The body could not be put into its place. -/
  | refused {zone : ZoneSummary} {inquiry : List Effect} {resolution : Resolution CacheKey Bundle}
      {realm : Realm} {load : LoadOutcome Bundle} {fault : Fault} {world : World}
      (reaches : leg.Reaches zone inquiry resolution realm)
      (taken : resolution.outcome? realm.world.cache = some load)
      (lands : leg.request.land zone load realm.world = (.failure fault, world)) :
    Ending leg none
      (leg.request.finish { realm with world := world } leg.request.keys (.failure fault))
      (inquiry ++ [.answer leg.request.listener (.failure fault)])
  /-- The body was put into its place. -/
  | entered {zone : ZoneSummary} {inquiry notices : List Effect}
      {resolution : Resolution CacheKey Bundle} {realm : Realm} {load : LoadOutcome Bundle}
      {reply : Reply} {world : World} (reaches : leg.Reaches zone inquiry resolution realm)
      (taken : resolution.outcome? realm.world.cache = some load)
      (lands : leg.request.land zone load realm.world = (.success reply, world))
      (noticed : world.effects = realm.world.effects ++ notices)
      (quiet : ∀ effect ∈ notices, effect.IsNotice) :
    Ending leg none
      ((leg.request.finish { realm with world := world } leg.request.keys (.success reply)).announce
        leg.request.entity zone.zone)
      (inquiry ++ notices ++ [.answer leg.request.listener (.success reply)] ++
        Realm.announcement { realm with world := world } leg.request.entity zone.zone)

variable {leg : Leg} {zone : ZoneSummary} {inquiry : List Effect}
  {resolution : Resolution CacheKey Bundle} {realm after : Realm} {flight : Option Flight}

/-- A leg that has got through to the scene ends in one of the ways listed. -/
theorem Reaches.ending (reaches : leg.Reaches zone inquiry resolution realm)
    (outcome : Flight.SceneOutcome leg.request zone resolution realm flight after) :
    ∃ effects, Ending leg flight after effects := by
  cases outcome with
  | waits load => exact ⟨_, .awaitsScene reaches load⟩
  | missing load scene =>
    exact ⟨_, .refused reaches load (MoveRequest.land_of_asScene_error scene _)⟩
  | refused load scene commit =>
    cases LoadOutcome.eq_of_asScene scene
    exact ⟨_, .refused reaches load commit⟩
  | @entered _ model _ _ load scene commit =>
    cases LoadOutcome.eq_of_asScene scene
    have hentry := leg.request.commit_outcome realm.world zone model
    rw [commit] at hentry
    obtain ⟨notices, hnoticed, hquiet⟩ := hentry.notifies
    exact ⟨_, .entered reaches load commit hnoticed hquiet⟩

/-- So does one that looks for its zone. -/
theorem ending_of_quest (quest : leg.quest? = some (resolution, realm))
    (outcome : Flight.ZoneOutcome leg.request resolution realm flight after) :
    ∃ effects, Ending leg flight after effects := by
  cases outcome with
  | waits load => exact ⟨_, .awaitsZone quest load⟩
  | missing load zone =>
    obtain ⟨hrefused, hinquire⟩ := MoveRequest.admission_of_asZone_error leg.request realm zone
    have hending := Ending.stopped quest load hrefused
    rw [hinquire] at hending
    exact ⟨_, hending⟩
  | bodyless load zone gone =>
    cases LoadOutcome.eq_of_asZone zone
    obtain ⟨hrefused, hinquire⟩ := MoveRequest.admission_of_bodyless gone
    have hending := Ending.stopped quest load hrefused
    rw [hinquire] at hending
    exact ⟨_, hending⟩
  | vetoed load zone found verdict =>
    cases LoadOutcome.eq_of_asZone zone
    obtain ⟨hrefused, hinquire⟩ := MoveRequest.admission_of_body found
    rw [verdict] at hrefused
    have hending := Ending.stopped quest load hrefused
    rw [hinquire] at hending
    exact ⟨_, hending⟩
  | admitted load zone found verdict scene =>
    cases LoadOutcome.eq_of_asZone zone
    obtain ⟨hadmitted, hinquire⟩ := MoveRequest.admission_of_body found
    rw [verdict] at hadmitted
    have hreaches := Reaches.admitted quest load hadmitted
    rw [hinquire] at hreaches
    exact hreaches.ending scene

/-- A leg that looks for its zone finds the world as it was, but for the cache. -/
theorem quest_realm (quest : leg.quest? = some (resolution, realm)) :
    realm = ⟨{ leg.before.world with cache := realm.world.cache }, leg.before.zones⟩ := by
  unfold quest? at quest
  split at quest
  · cases quest
    rfl
  · cases quest
    rfl
  · cases quest

/-- A leg that has got through to the scene finds the world as it was, but for the cache and what is
recorded of the policies. -/
theorem Reaches.world_eq (reaches : leg.Reaches zone inquiry resolution realm) :
    realm.world = { leg.before.world with
      cache := realm.world.cache, effects := leg.before.world.effects ++ inquiry } := by
  cases reaches with
  | resumes => simp only [List.append_nil]
  | @admitted _ realm load quest =>
    have hworld := congrArg Realm.world (quest_realm quest)
    simp only [Realm.acquire, MoveRequest.inquire_world]
    rw [hworld]

/-- The effects of a leg are those that were recorded in its course. -/
theorem Ending.recorded {effects : List Effect} (ending : Ending leg flight after effects) :
    after.world.effects = leg.before.world.effects ++ effects := by
  cases ending with
  | awaitsZone quest =>
    rw [quest_realm quest, List.append_nil]
  | stopped quest =>
    rw [MoveRequest.effects_finish, MoveRequest.inquire_world, quest_realm quest,
      List.append_assoc]
  | awaitsScene reaches => rw [reaches.world_eq]
  | refused reaches _ lands =>
    rw [MoveRequest.effects_finish, MoveRequest.land_failure lands, reaches.world_eq,
      List.append_assoc]
  | entered reaches _ _ noticed =>
    rw [Realm.effects_announce, MoveRequest.effects_finish, noticed, reaches.world_eq]
    simp only [List.append_assoc]
    rfl

/-- Every leg ends in one of the ways listed. -/
theorem ending (leg : Leg) : Ending leg leg.parked leg.after leg.effects := by
  suffices h : ∃ effects, Ending leg leg.parked leg.after effects by
    obtain ⟨effects, hending⟩ := h
    rwa [effects_eq hending.recorded]
  unfold parked after outcome
  cases hstage : leg.stage? with
  | none =>
    have hquest : leg.quest? = some (leg.before.acquire (.zone leg.request.target.zone)) := by
      simp only [quest?, hstage]
    exact ending_of_quest hquest (Flight.stepZone_outcome _ _ _)
  | some stage =>
    cases stage with
    | resolvingZone resolution =>
      have hquest : leg.quest? = some (resolution, leg.before) := by simp only [quest?, hstage]
      exact ending_of_quest hquest (Flight.stepZone_outcome _ _ _)
    | resolvingScene zone resolution =>
      exact Reaches.ending (.resumes hstage) (Flight.stepScene_outcome _ _ _ _)

/-- What was recorded before a leg stays recorded. -/
theorem recorded (leg : Leg) :
    leg.after.world.effects = leg.before.world.effects ++ leg.effects := leg.ending.recorded

end Leg

/-! ## The legs of an action -/

/-- The legs of begun requests, each after the one before it is answered, until one waits. -/
def Launch.legs (realm : Realm) : List MoveRequest → List Leg
  | [] => []
  | request :: rest =>
    let leg : Leg := ⟨request, none, realm⟩
    leg :: match leg.parked with
      | some _ => []
      | none => Launch.legs leg.after rest

namespace Launch

variable {realm : Realm} {move : MoveRequest} {rest : List MoveRequest}

/-- A request that waits is the last one that is begun. -/
theorem run_of_parked {flight : Flight} (h : Leg.parked ⟨move, none, realm⟩ = some flight) :
    run realm (move :: rest) = ⟨0, some flight, rest, Leg.after ⟨move, none, realm⟩⟩ ∧
      legs realm (move :: rest) = [⟨move, none, realm⟩] := by
  have hlaunch : Flight.launch move realm = (some flight, Leg.after ⟨move, none, realm⟩) :=
    Prod.ext h rfl
  simp only [run, legs, hlaunch, h, and_self]

/-- After a request that is answered the next ones are begun. -/
theorem run_of_answered (h : Leg.parked ⟨move, none, realm⟩ = none) :
    run realm (move :: rest) = { run (Leg.after ⟨move, none, realm⟩) rest with
        finished := (run (Leg.after ⟨move, none, realm⟩) rest).finished + 1 } ∧
      legs realm (move :: rest) =
        ⟨move, none, realm⟩ :: legs (Leg.after ⟨move, none, realm⟩) rest := by
  have hlaunch : Flight.launch move realm = (none, Leg.after ⟨move, none, realm⟩) := Prod.ext h rfl
  simp only [run, legs, hlaunch, h, and_self]

end Launch

namespace Pipeline

/-- The legs that the beginning of a request comes to. -/
def beginLegs (pipeline : Pipeline) (realm : Realm) (request : MoveRequest) : List Leg :=
  if pipeline.isMoving request.entity then []
  else Launch.legs realm (request :: pipeline.queueOf request.entity)

/-- The legs of one body when its move is taken on. -/
def bodyLegs (pipeline : Pipeline) (realm : Realm) (entity : EntityId) : List Leg :=
  match pipeline.inFlight.get? entity with
  | none => []
  | some flight =>
    let leg : Leg := ⟨flight.request, some flight.stage, realm⟩
    leg :: match leg.parked with
      | some _ => []
      | none => Launch.legs leg.after (pipeline.queueOf entity)

/-- The legs when the moves of the given bodies are taken on. -/
def legsIn (pipeline : Pipeline) (realm : Realm) : List EntityId → List Leg
  | [] => []
  | entity :: rest =>
    let (_, after, realm') := pipeline.advanceBody realm entity
    pipeline.bodyLegs realm entity ++ after.legsIn realm' rest

section Flight

variable {pipeline : Pipeline} {realm : Realm} {entity : EntityId} {flight : Flight}

/-- A move that still waits goes back to its body. -/
theorem advanceBody_of_parked (hflight : pipeline.inFlight.get? entity = some flight)
    {flight' : Flight}
    (h : Leg.parked ⟨flight.request, some flight.stage, realm⟩ = some flight') :
    pipeline.advanceBody realm entity =
        (0, { pipeline with inFlight := pipeline.inFlight.insert entity flight' },
          Leg.after ⟨flight.request, some flight.stage, realm⟩) ∧
      pipeline.bodyLegs realm entity = [⟨flight.request, some flight.stage, realm⟩] := by
  have hstep : flight.step realm = (some flight', Leg.after ⟨flight.request, some flight.stage,
    realm⟩) := Prod.ext h rfl
  simp only [advanceBody, bodyLegs, hflight, hstep, h, and_self]

/-- After a move that is answered those behind it are begun. -/
theorem advanceBody_of_answered (hflight : pipeline.inFlight.get? entity = some flight)
    (h : Leg.parked ⟨flight.request, some flight.stage, realm⟩ = none) :
    pipeline.advanceBody realm entity =
        (let started := Pipeline.start { pipeline with inFlight := pipeline.inFlight.erase entity }
          (Leg.after ⟨flight.request, some flight.stage, realm⟩) entity (pipeline.queueOf entity)
        (started.1 + 1, started.2)) ∧
      pipeline.bodyLegs realm entity = ⟨flight.request, some flight.stage, realm⟩ ::
        Launch.legs (Leg.after ⟨flight.request, some flight.stage, realm⟩)
          (pipeline.queueOf entity) := by
  have hstep : flight.step realm = (none, Leg.after ⟨flight.request, some flight.stage, realm⟩) :=
    Prod.ext h rfl
  simp only [advanceBody, bodyLegs, hflight, hstep, h, and_true]
  rfl

end Flight

/-- A property of the legs so far, the pipeline and the realm, with a form `Busy` of it that holds
while the requests of one body are worked off: the body has no move under way, and its queue is the
given one instead of the one that is recorded. -/
structure Chronicle (Holds : List Leg → Pipeline → Realm → Prop)
    (Busy : EntityId → List MoveRequest → List Leg → Pipeline → Realm → Prop) : Prop where
  /-- A move that still waits goes back to its body. -/
  waits : ∀ {legs pipeline realm entity flight flight'}, Holds legs pipeline realm →
    pipeline.inFlight.get? entity = some flight → ∀ leg : Leg,
    leg = ⟨flight.request, some flight.stage, realm⟩ → leg.parked = some flight' →
    Holds (legs ++ [leg]) { pipeline with inFlight := pipeline.inFlight.insert entity flight' }
      leg.after
  /-- A move that has answered makes room for those behind it. -/
  answers : ∀ {legs pipeline realm entity flight}, Holds legs pipeline realm →
    pipeline.inFlight.get? entity = some flight → ∀ leg : Leg,
    leg = ⟨flight.request, some flight.stage, realm⟩ → leg.parked = none →
    Busy entity (pipeline.queueOf entity) (legs ++ [leg])
      { pipeline with inFlight := pipeline.inFlight.erase entity } leg.after
  /-- A request that is answered at once makes room for those behind it. -/
  passes : ∀ {legs pipeline realm entity request rest},
    Busy entity (request :: rest) legs pipeline realm → ∀ leg : Leg,
    leg = ⟨request, none, realm⟩ → leg.parked = none →
    Busy entity rest (legs ++ [leg]) pipeline leg.after
  /-- A request that has to wait becomes the move of its body. -/
  parks : ∀ {legs pipeline realm entity request rest flight},
    Busy entity (request :: rest) legs pipeline realm → ∀ leg : Leg,
    leg = ⟨request, none, realm⟩ → leg.parked = some flight →
    Holds (legs ++ [leg]) { pipeline.setQueue entity rest with
      inFlight := pipeline.inFlight.insert entity flight } leg.after
  /-- There is no request left. -/
  rests : ∀ {legs pipeline realm entity}, Busy entity [] legs pipeline realm →
    Holds legs (pipeline.setQueue entity []) realm

namespace Chronicle

variable {Holds : List Leg → Pipeline → Realm → Prop}
  {Busy : EntityId → List MoveRequest → List Leg → Pipeline → Realm → Prop} {legs : List Leg}
  {pipeline : Pipeline} {realm : Realm} {entity : EntityId}

/-- What is kept by every leg is kept by starting the requests of a body. -/
theorem start (chronicle : Chronicle Holds Busy) {requests : List MoveRequest}
    (h : Busy entity requests legs pipeline realm) :
    Holds (legs ++ Launch.legs realm requests) (pipeline.start realm entity requests).2.1
      (pipeline.start realm entity requests).2.2 := by
  induction requests generalizing legs realm with
  | nil =>
    rw [Launch.legs, List.append_nil]
    exact chronicle.rests h
  | cons request rest ih =>
    cases hparked : Leg.parked ⟨request, none, realm⟩ with
    | some flight =>
      obtain ⟨hrun, hlegs⟩ := @Launch.run_of_parked _ _ rest _ hparked
      rw [hlegs]
      simp only [Pipeline.start, hrun]
      exact chronicle.parks h _ rfl hparked
    | none =>
      obtain ⟨hrun, hlegs⟩ := @Launch.run_of_answered _ _ rest hparked
      have hrest := ih (chronicle.passes h _ rfl hparked)
      rw [List.append_assoc] at hrest
      rw [hlegs]
      simp only [Pipeline.start, hrun] at hrest ⊢
      cases hlast : (Launch.run (Leg.after ⟨request, none, realm⟩) rest).parked with
      | none =>
        rw [hlast] at hrest
        exact hrest
      | some flight =>
        rw [hlast] at hrest
        exact hrest

/-- What is kept by every leg is kept by taking a body's moves on. -/
theorem advanceBody (chronicle : Chronicle Holds Busy) (h : Holds legs pipeline realm)
    (entity : EntityId) :
    Holds (legs ++ pipeline.bodyLegs realm entity) (pipeline.advanceBody realm entity).2.1
      (pipeline.advanceBody realm entity).2.2 := by
  cases hflight : pipeline.inFlight.get? entity with
  | none =>
    simp only [Pipeline.advanceBody, bodyLegs, hflight, List.append_nil]
    exact h
  | some flight =>
    cases hparked : Leg.parked ⟨flight.request, some flight.stage, realm⟩ with
    | some flight' =>
      obtain ⟨hadvance, hlegs⟩ := advanceBody_of_parked hflight hparked
      rw [hadvance, hlegs]
      exact chronicle.waits h hflight _ rfl hparked
    | none =>
      obtain ⟨hadvance, hlegs⟩ := advanceBody_of_answered hflight hparked
      have hstart := chronicle.start (chronicle.answers h hflight _ rfl hparked)
      rw [List.append_assoc] at hstart
      rw [hadvance, hlegs]
      exact hstart

/-- What is kept by every leg is kept by taking moves on, in whatever order. -/
theorem advanceIn (chronicle : Chronicle Holds Busy) (legs : List Leg) (pipeline : Pipeline)
    (realm : Realm) (h : Holds legs pipeline realm) (bodies : List EntityId) :
    Holds (legs ++ pipeline.legsIn realm bodies) (pipeline.advanceIn realm bodies).2.1
      (pipeline.advanceIn realm bodies).2.2 := by
  induction bodies generalizing legs pipeline realm with
  | nil =>
    rw [legsIn, List.append_nil]
    exact h
  | cons entity rest ih =>
    have hrest := ih _ _ _ (chronicle.advanceBody h entity)
    rw [List.append_assoc] at hrest
    exact hrest

/-- A request that is begun is queued, or all requests of its body are worked off. -/
theorem begin (chronicle : Chronicle Holds Busy) (legs : List Leg) (pipeline : Pipeline)
    (realm : Realm) (request : MoveRequest)
    (queues : pipeline.isMoving request.entity = true →
      Holds legs (pipeline.setQueue request.entity
        (pipeline.queueOf request.entity ++ [request])) realm)
    (opens : pipeline.inFlight.get? request.entity = none →
      Busy request.entity (request :: pipeline.queueOf request.entity) legs pipeline realm) :
    Holds (legs ++ pipeline.beginLegs realm request) (pipeline.begin realm request).1
      (pipeline.begin realm request).2 := by
  unfold Pipeline.begin beginLegs
  dsimp only
  by_cases hmoving : pipeline.isMoving request.entity = true
  · rw [if_pos hmoving, if_pos hmoving, List.append_nil]
    exact queues hmoving
  · rw [if_neg hmoving, if_neg hmoving]
    exact chronicle.start (opens (Option.not_isSome_iff_eq_none.mp hmoving))

end Chronicle

end Pipeline

/-! ## The legs follow each other -/

/-- The legs lead from one realm to another, each from where the one before it ends. -/
def Leg.Path (before : Realm) : List Leg → Realm → Prop
  | [], after => before = after
  | leg :: rest, after => leg.before = before ∧ Leg.Path leg.after rest after

namespace Leg.Path

variable {before middle after : Realm} {legs rest : List Leg}

/-- Two paths make one, if the second begins where the first ends. -/
theorem append (first : Path before legs middle) (second : Path middle rest after) :
    Path before (legs ++ rest) after := by
  induction legs generalizing before with
  | nil =>
    cases first
    exact second
  | cons leg legs ih => exact ⟨first.1, ih first.2⟩

/-- A path goes on with a leg that begins where it ends. -/
theorem concat (h : Path before legs middle) (leg : Leg) (hleg : leg.before = middle) :
    Path before (legs ++ [leg]) leg.after := h.append ⟨hleg, rfl⟩

/-- The legs of a pipeline follow each other. -/
theorem chronicle (before : Realm) :
    Pipeline.Chronicle (fun legs _ realm => Path before legs realm)
      (fun _ _ legs _ realm => Path before legs realm) where
  waits h _ leg hleg _ := h.concat leg (congrArg Leg.before hleg)
  answers h _ leg hleg _ := h.concat leg (congrArg Leg.before hleg)
  passes h leg hleg _ := h.concat leg (congrArg Leg.before hleg)
  parks h leg hleg _ := h.concat leg (congrArg Leg.before hleg)
  rests h := h

section Relations

variable {R : Realm → Realm → Prop}

/-- What every leg establishes between the realm before and after it, and what composes, all of them
establish together. -/
theorem compose (refl : ∀ realm, R realm realm)
    (trans : ∀ {before middle after}, R before middle → R middle after → R before after)
    (step : ∀ leg : Leg, R leg.before leg.after) (h : Path before legs after) : R before after := by
  induction legs generalizing before with
  | nil =>
    cases h
    exact refl _
  | cons leg legs ih =>
    obtain ⟨rfl, hrest⟩ := h
    exact trans (step leg) (ih hrest)

/-- It holds then between the start of the legs and that of each, and between the end of each and
the end of them all. -/
theorem around (refl : ∀ realm, R realm realm)
    (trans : ∀ {before middle after}, R before middle → R middle after → R before after)
    (step : ∀ leg : Leg, R leg.before leg.after) (h : Path before legs after) {leg : Leg}
    (hmem : leg ∈ legs) : R before leg.before ∧ R leg.after after := by
  induction legs generalizing before with
  | nil => cases hmem
  | cons first legs ih =>
    obtain ⟨rfl, hrest⟩ := h
    rcases List.mem_cons.mp hmem with rfl | hmem
    · exact ⟨refl _, hrest.compose refl trans step⟩
    · obtain ⟨hbefore, hafter⟩ := ih hrest hmem
      exact ⟨trans (step first) hbefore, hafter⟩

end Relations

/-- The effects of the legs are recorded one after the other. -/
theorem recorded (h : Path before legs after) :
    after.world.effects = before.world.effects ++ legs.flatMap Leg.effects := by
  induction legs generalizing before with
  | nil =>
    cases h
    exact (List.append_nil _).symm
  | cons leg legs ih =>
    obtain ⟨rfl, hrest⟩ := h
    rw [ih hrest, leg.recorded, List.flatMap_cons, List.append_assoc]

end Leg.Path

namespace Server

/-- The simulation in which the handler of a request runs: the run of it is recorded. -/
def opened (server : Server) (caller : Identity) (request : Request) : Simulation :=
  match server.router.route request.service request.method with
  | .ok (layer, _) => server.simulation.withWorld (server.world.record
      (.served request.service layer.name request.method caller))
  | .error _ => server.simulation

/-- The legs that an action comes to. -/
def legs (server : Server) : Action → List Leg
  | .serve =>
    match server.requests with
    | [] => []
    | (caller, request) :: _ =>
      match server.moveFor? caller request with
      | none => []
      | some move =>
        server.simulation.pipeline.beginLegs (server.opened caller request).realm move
  | .advance bodies => server.simulation.pipeline.legsIn server.simulation.realm bodies
  | _ => []

/-- A request that is a move begins it. -/
theorem runRequest_begun (server : Server) (h : server.BuiltIn) {caller : Identity}
    {request : Request} {move : MoveRequest} (hmove : server.moveFor? caller request = some move) :
    (server.runRequest caller request).simulation =
      (server.opened caller request).beginMove move := by
  unfold moveFor? at hmove
  by_cases hzone : request.service = zoneService ∧ request.method = moveToMethod
  · rw [if_pos hzone] at hmove
    rcases builtInRouter_route h request with
      ⟨fault, hroute, hother, -⟩ | ⟨layer, hroute, hother, -⟩ | ⟨layer, hroute, -, -⟩
    · exact absurd hzone hother
    · exact absurd hzone hother
    · cases hargs : MoveTarget.ofArguments ⟨request.method, request.args⟩ with
      | error fault => simp only [hargs, reduceCtorEq] at hmove
      | ok arguments =>
        obtain ⟨target, version⟩ := arguments
        simp only [hargs, Option.map_eq_some_iff] at hmove
        obtain ⟨entity, hentity, rfl⟩ := hmove
        have hrecorded : (server.simulation.withWorld (server.world.record (.served request.service
            layer.name request.method caller))).world.entityFor? caller = some entity := hentity
        simp only [runRequest, opened, hroute, Router.dispatch_of_ok hroute, moveToHandler, hargs,
          hrecorded]
        rfl
  · rw [if_neg hzone] at hmove
    cases hmove

/-- Opening a request records which handler is run, and nothing else. -/
theorem opened_realm (server : Server) (caller : Identity) (request : Request) :
    ∃ served, (server.opened caller request).realm =
        ⟨{ server.world with effects := server.world.effects ++ served },
          server.simulation.realm.zones⟩ ∧
      ∀ effect ∈ served, ∃ layer, effect =
        .served request.service layer request.method caller := by
  unfold opened
  cases server.router.route request.service request.method with
  | ok found =>
    obtain ⟨layer, handler⟩ := found
    exact ⟨[_], rfl, fun effect hmem => ⟨layer.name, List.mem_singleton.mp hmem⟩⟩
  | error fault =>
    refine ⟨[], ?_, List.forall_mem_nil _⟩
    rw [List.append_nil]
    rfl

/-- Opening a request leaves the pipeline alone. -/
theorem opened_pipeline (server : Server) (caller : Identity) (request : Request) :
    (server.opened caller request).pipeline = server.simulation.pipeline := by
  unfold opened
  split
  · rfl
  · rfl

/-- Whether an action begins a move or takes moves on. -/
def Moves (server : Server) (action : Action) : Prop :=
  (∃ bodies, action = .advance bodies) ∨
    ∃ caller request rest move, action = .serve ∧ server.requests = (caller, request) :: rest ∧
      server.moveFor? caller request = some move

/-- Other actions have no legs. -/
theorem moves_of_mem_legs {server : Server} {action : Action} {leg : Leg}
    (hleg : leg ∈ server.legs action) : server.Moves action := by
  cases action with
  | serve =>
    rw [legs] at hleg
    cases hrequests : server.requests with
    | nil =>
      rw [hrequests] at hleg
      cases hleg
    | cons first rest =>
      obtain ⟨caller, request⟩ := first
      simp only [hrequests] at hleg
      cases hmove : server.moveFor? caller request with
      | none =>
        rw [hmove] at hleg
        cases hleg
      | some move => exact .inr ⟨caller, request, rest, move, rfl, hrequests, hmove⟩
  | advance bodies => exact .inl ⟨bodies, rfl⟩
  | _ => cases hleg

/-- The legs of an action lead to the realm that it leaves. They start in the realm that it finds,
but for the record of the handler that is run. -/
theorem Moves.path {server : Server} {action : Action} (hmoves : server.Moves action)
    (h : server.BuiltIn) :
    ∃ served, (∀ effect ∈ served, ∃ service layer method caller,
        effect = .served service layer method caller) ∧
      Leg.Path ⟨{ server.world with effects := server.world.effects ++ served },
        server.simulation.realm.zones⟩ (server.legs action)
        (server.act action).simulation.realm := by
  rcases hmoves with ⟨bodies, rfl⟩ | ⟨caller, request, rest, move, rfl, hrequests, hmove⟩
  · refine ⟨[], List.forall_mem_nil _, ?_⟩
    have hpath := (Leg.Path.chronicle server.simulation.realm).advanceIn []
      server.simulation.pipeline server.simulation.realm rfl bodies
    rw [List.append_nil]
    exact hpath
  · obtain ⟨served, hrealm, hserved⟩ := server.opened_realm caller request
    refine ⟨served, fun effect hmem => ?_, ?_⟩
    · obtain ⟨layer, heffect⟩ := hserved effect hmem
      exact ⟨_, _, _, _, heffect⟩
    · have hbegun := runRequest_begun { server with requests := rest } h hmove
      have hpath := (Leg.Path.chronicle (server.opened caller request).realm).begin []
        server.simulation.pipeline (server.opened caller request).realm move (fun _ => rfl)
          fun _ => rfl
      simp only [legs, hrequests, hmove]
      rw [act_serve hrequests, hbegun, ← hrealm]
      change Leg.Path _ _ ((opened { server with requests := rest } caller
        request).pipeline.begin _ _).2
      rw [opened_pipeline]
      exact hpath

/-- A leg of a run belongs to one of its actions. -/
theorem exists_action_of_mem_collect {α : Type} {observe : Server → Action → List α}
    {server : Server} {actions : List Action} {seen : α}
    (h : seen ∈ server.collect observe actions) :
    ∃ earlier action later, actions = earlier ++ action :: later ∧
      seen ∈ observe (server.run earlier) action := by
  induction actions generalizing server with
  | nil => cases h
  | cons action actions ih =>
    rcases List.mem_append.mp h with hnow | hlater
    · exact ⟨[], action, actions, rfl, hnow⟩
    · obtain ⟨earlier, other, later, hsplit, hseen⟩ := ih hlater
      exact ⟨action :: earlier, other, later, congrArg (action :: ·) hsplit, hseen⟩

end Server

end SharedWorld
