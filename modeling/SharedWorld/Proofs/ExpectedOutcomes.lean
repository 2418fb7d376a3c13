import SharedWorld.Proofs.Noninterference
import SharedWorld.Proofs.Rulings

/-!
# The expected outcomes of legs

A leg depends on little: on what is ready and what was settled, on whose body it moves, and on the
rules of the zone. So what it is bound to come to (`Leg.expected`) can be told at the start already,
whatever legs come before it (`Leg.expects_of_resembles`), but for the id of the place that its
body comes into and for whom it finds there. Places have to have room, though: a place that can be
full is full for those who come late.
-/

namespace SharedWorld

/-! ## What is told without the place -/

/-- The key that a resolution waits for. -/
def Resolution.key? {κ π : Type} : Resolution κ π → Option κ
  | .waiting key _ => some key
  | .settled _ => none

/-- A resolution that is to hear of a key waits for that key, or is told already. -/
theorem Cache.Hears.key?_eq {cache : Cache CacheKey Bundle} {key : CacheKey}
    {resolution : Resolution CacheKey Bundle} {heard : Option (LoadOutcome Bundle)}
    (h : cache.Hears key resolution heard) : resolution.key? = some key := by
  cases h with
  | waits => rfl
  | told => rfl

/-- What is not there right away is waited for under its key. -/
theorem Realm.key?_acquire {realm : Realm} (h : realm.world.cache.SingleFlight) {key : CacheKey}
    (hnone : (realm.acquire key).1.outcome? (realm.acquire key).2.world.cache = none) :
    (realm.acquire key).1.key? = some key := by
  obtain ⟨houtcome, hhears⟩ := Realm.hears_acquire h key
  rw [houtcome, Option.map_eq_none_iff] at hnone
  exact (hhears hnone).key?_eq

/-- How a move waits, but for the number of its ticket. -/
structure Wait where
  request : MoveRequest
  /-- The zone that the move was let into, if it was. -/
  zone? : Option ZoneSummary
  /-- The key whose load it waits for. -/
  key? : Option CacheKey
  deriving DecidableEq

def Flight.wait (flight : Flight) : Wait :=
  match flight.stage with
  | .resolvingZone resolution => ⟨flight.request, none, resolution.key?⟩
  | .resolvingScene zone resolution => ⟨flight.request, some zone, resolution.key?⟩

/-- An answer without the place that it tells of, and without its occupants. -/
def Answer.placeless : Answer → Answer
  | .success (.moved reply) => .success (.moved { reply with place := default, occupants := [] })
  | answer => answer

/-- Who is answered by an effect, and what. -/
def Effect.reply? : Effect → Option (Listener × Answer)
  | .answer listener result => some (listener, result.placeless)
  | _ => none

/-- The answers that are given in the course of the effects. -/
def Effect.replies (effects : List Effect) : List (Listener × Answer) :=
  effects.filterMap Effect.reply?

/-- That a policy was asked or told something, but for where the body was. -/
structure Consultation where
  policy : Option String
  identity : Identity
  zone : ZoneId
  /-- What the policy said, if it was asked. -/
  verdict? : Option (Option String)
  deriving DecidableEq

/-- What a policy was asked, as a consultation. -/
def Ratification.consultation (ratification : Ratification) : Consultation :=
  ⟨ratification.policy, ratification.body.identity, ratification.zone.zone,
    some ratification.veto⟩

/-- What a policy is asked or told by an effect. -/
def Effect.consultation? : Effect → Option Consultation
  | .consulted policy (.ratified body zone veto) =>
    some ⟨policy, body.identity, zone.zone, some veto⟩
  | .consulted policy (.entered body zone) => some ⟨policy, body.identity, zone, none⟩
  | _ => none

/-- What policies are asked and told in the course of the effects. -/
def Effect.consultations (effects : List Effect) : List Consultation :=
  effects.filterMap Effect.consultation?

/-- The same location, without the place. -/
def BodyLocation.placeless : BodyLocation → BodyLocation
  | .inside zone scene _ location => .inside zone scene default location
  | other => other

/-- The bodies of the entities, without the places that they are in. -/
abbrev Whereabouts : Type := EntityId → Option Body

/-- Where the bodies of a world are. -/
def World.whereabouts (world : World) : Whereabouts := fun entity =>
  (world.body? entity).map fun body => body.movedTo body.location.placeless

/-- A body that goes to a location, or stays where it is. -/
def Body.goTo (body : Body) : Option BodyLocation → Body
  | none => body
  | some location => body.movedTo location

/-- Going to a location makes no other body of it. -/
theorem Body.identity_goTo (body : Body) (location? : Option BodyLocation) :
    (body.goTo location?).identity = body.identity := by
  cases location? with
  | none => rfl
  | some location => rfl

/-- A change of a body's location, without the places. -/
def BodyChange.placeless (change : BodyChange) : BodyChange :=
  { change with before := change.before.placeless, after := change.after.placeless }

/-- The change that is noted of a body that goes to a location, if to any. -/
def Whereabouts.step (whereabouts : Whereabouts) (entity : EntityId)
    (location? : Option BodyLocation) : List BodyChange :=
  match whereabouts entity, location? with
  | some body, some location => [body.changeTo location]
  | _, _ => []

/-- Where the bodies are when one of them has gone to a location, if to any. -/
def Whereabouts.send (whereabouts : Whereabouts) (entity : EntityId)
    (location? : Option BodyLocation) : Whereabouts :=
  Function.update whereabouts entity ((whereabouts entity).map (·.goTo location?))

namespace Whereabouts

variable (whereabouts : Whereabouts) (entity : EntityId)

/-- Nobody has moved when a body stays where it is. -/
theorem send_none : whereabouts.send entity none = whereabouts := by
  have hstay : (fun body : Body => body.goTo none) = id := rfl
  rw [send, hstay, Option.map_id, id, Function.update_eq_self]

/-- No change is noted of a body that stays where it is. -/
theorem step_none : whereabouts.step entity none = [] := by
  unfold step
  cases whereabouts entity with
  | none => rfl
  | some body => rfl

/-- A body that is sent to a location is there. -/
theorem send_self (location? : Option BodyLocation) :
    whereabouts.send entity location? entity = (whereabouts entity).map (·.goTo location?) :=
  Function.update_self _ _ _

/-- Sending a body somewhere moves no other body. -/
theorem send_other {other : EntityId} (h : other ≠ entity) (location? : Option BodyLocation) :
    whereabouts.send entity location? other = whereabouts other := Function.update_of_ne h _ _

end Whereabouts

namespace Effect

/-- Answers are given in the order of the effects. -/
theorem replies_append (first rest : List Effect) :
    replies (first ++ rest) = replies first ++ replies rest := List.filterMap_append

/-- Asking policies answers nobody. -/
theorem replies_of_ratifies {effects : List Effect}
    (h : ∀ effect ∈ effects, effect.IsRatification) : replies effects = [] := by
  refine List.filterMap_eq_nil_iff.mpr fun effect hmem => ?_
  obtain ⟨_, _, _, _, rfl⟩ := h effect hmem
  rfl

/-- Notices answer nobody. -/
theorem replies_of_notices {effects : List Effect} (h : ∀ effect ∈ effects, effect.IsNotice) :
    replies effects = [] := by
  refine List.filterMap_eq_nil_iff.mpr fun effect hmem => ?_
  obtain ⟨_, _, _, rfl⟩ := h effect hmem
  rfl

/-- Policies are consulted in the order of the effects. -/
theorem consultations_append (first rest : List Effect) :
    consultations (first ++ rest) = consultations first ++ consultations rest :=
  List.filterMap_append

/-- If nothing but ratifications took place, policies were asked for these. -/
theorem consultations_of_ratifies {effects : List Effect}
    (h : ∀ effect ∈ effects, effect.IsRatification) :
    consultations effects =
      (effects.filterMap Effect.ratified?).map Ratification.consultation := by
  rw [consultations, List.map_filterMap]
  refine List.filterMap_congr fun effect hmem => ?_
  obtain ⟨_, _, _, _, rfl⟩ := h effect hmem
  rfl

/-- Notices consult no policy. -/
theorem consultations_of_notices {effects : List Effect}
    (h : ∀ effect ∈ effects, effect.IsNotice) : consultations effects = [] := by
  refine List.filterMap_eq_nil_iff.mpr fun effect hmem => ?_
  obtain ⟨_, _, _, rfl⟩ := h effect hmem
  rfl

/-- Telling a policy of a body answers nobody. -/
theorem replies_announcement (realm : Realm) (entity : EntityId) (zone : ZoneId) :
    replies (realm.announcement entity zone) = [] := by
  unfold Realm.announcement
  split
  · rfl
  · rfl

end Effect

namespace World

variable {before after world : World} {entity : EntityId}

/-- The whereabouts depend on the bodies alone. -/
theorem whereabouts_of_bodies (h : after.bodies = before.bodies) :
    after.whereabouts = before.whereabouts := by
  funext entity
  rw [whereabouts, whereabouts, body?, body?, h]

/-- A body that has gone somewhere is the one that was there before. -/
theorem identity_of_whereabouts {location? : Option BodyLocation} {body : Body}
    (h : after.whereabouts = before.whereabouts.send entity location?)
    (hbody : after.body? entity = some body) :
    ∃ body', before.body? entity = some body' ∧ body'.identity = body.identity := by
  have hsent := congrFun h entity
  rw [Whereabouts.send_self, whereabouts, hbody, whereabouts, Option.map_some,
    Option.map_map] at hsent
  obtain ⟨body', hbody', hgone⟩ := Option.map_eq_some_iff.mp hsent.symm
  refine ⟨body', hbody', ?_⟩
  have hidentity := congrArg Body.identity hgone
  rwa [Function.comp_apply, Body.identity_goTo] at hidentity

/-- A body that enters a place has gone there, and no other has gone anywhere. -/
theorem CommitOutcome.whereabouts_eq {zone : ZoneId} {place : PlaceId} {location : LocationId}
    {change : BodyChange}
    (outcome : CommitOutcome world entity zone place location (.ok change) after)
    (h : world.Labeled) :
    ∃ host, world.places.get? place = some host ∧ after.whereabouts =
      world.whereabouts.send entity (some (.inside zone host.scene default location)) := by
  obtain ⟨body, host, hbody, hhost, hbodies⟩ := outcome.bodies_eq
  refine ⟨host, hhost, funext fun other => ?_⟩
  rw [whereabouts, body?, hbodies, h hbody, Table.get?_insert]
  by_cases hother : other = entity
  · subst hother
    rw [if_pos rfl, Whereabouts.send_self, whereabouts, body?, hbody]
    rfl
  · rw [if_neg hother, Whereabouts.send_other _ _ hother]
    rfl

/-- Entering a place notes the one change that the body's whereabouts tell. -/
theorem CommitOutcome.placeless_changes {zone : ZoneId} {place : PlaceId} {location : LocationId}
    {change : BodyChange}
    (outcome : CommitOutcome world entity zone place location (.ok change) after) :
    ∃ host, world.places.get? place = some host ∧ after.changes.map BodyChange.placeless =
      world.changes.map BodyChange.placeless ++ world.whereabouts.step entity
        (some (.inside zone host.scene default location)) := by
  obtain ⟨body, host, hbody, hhost, rfl⟩ := outcome.change_eq
  refine ⟨host, hhost, ?_⟩
  have hwhere : world.whereabouts entity = some (body.movedTo body.location.placeless) := by
    rw [whereabouts, body?, hbody, Option.map_some]
  simp only [outcome.changes, List.map_append, Whereabouts.step, hwhere]
  rfl

/-! ## What holds of all places -/

/-- Every place is of this kind, by its scene and its capacity. -/
def AllPlaces (kind : SceneId → Option Nat → Prop) (world : World) : Prop :=
  ∀ ⦃place host⦄, world.places.get? place = some host → kind host.scene host.capacity

namespace AllPlaces

variable {kind : SceneId → Option Nat → Prop}

/-- Places stay of their kind whoever is in them. -/
theorem changeOccupants (h : world.AllPlaces kind) (place : PlaceId)
    (f : OccupantSet → OccupantSet) : (world.changeOccupants place f).AllPlaces kind := by
  intro other host' hhost'
  rw [get?_changeOccupants, Option.map_eq_some_iff] at hhost'
  obtain ⟨host, hhost, rfl⟩ := hhost'
  have hkind := h hhost
  split
  · exact hkind
  · exact hkind

/-- Places stay of their kind when one is dropped. -/
theorem dropIfEmpty (h : world.AllPlaces kind) (place : PlaceId) :
    (world.dropIfEmpty place).AllPlaces kind := by
  unfold World.dropIfEmpty
  split
  · exact h
  · split
    · exact fun _ _ hhost => h (Table.get?_erase_eq_some_iff.mp hhost).2
    · exact h

/-- Places stay of their kind when a body clears out of one. -/
theorem vacate (h : world.AllPlaces kind) (change : BodyChange) :
    (world.vacate change).AllPlaces kind := by
  rcases world.vacate_cases change with hstays | ⟨zone, scene, place, location, -, hleaves⟩
  · rw [hstays]
    exact h
  · have hleft := h.changeOccupants place (Table.erase · change.entity)
    rw [hleaves]
    refine AllPlaces.dropIfEmpty ?_ place
    exact hleft

/-- Places stay of their kind when one is made of that kind. -/
theorem placeFor (h : world.AllPlaces kind) (model : SceneModel)
    (hmodel : kind model.scene model.capacity) : (world.placeFor model).2.AllPlaces kind := by
  unfold World.placeFor
  split
  · exact h
  · intro place host hhost
    rcases Table.get?_insert_eq_some_iff.mp hhost with ⟨-, rfl⟩ | ⟨-, hold⟩
    · exact hmodel
    · exact h hold

/-- The place that a move is to come into is of the kind too. -/
theorem hostFor (h : world.AllPlaces kind) (hsound : world.Sound) (model : SceneModel)
    (hmodel : kind model.scene model.capacity) :
    kind model.scene (world.hostFor model).capacity := by
  obtain ⟨-, hhost⟩ := hsound.placeFor_hostFor model
  have hkind := h.placeFor model hmodel hhost
  rwa [hsound.scene_hostFor model] at hkind

end AllPlaces

/-- Places stay of their kind when a body enters one. -/
theorem CommitOutcome.allPlaces {kind : SceneId → Option Nat → Prop} {zone : ZoneId}
    {place : PlaceId} {location : LocationId} {change : BodyChange}
    (outcome : CommitOutcome world entity zone place location (.ok change) after)
    (h : world.AllPlaces kind) : after.AllPlaces kind := by
  cases outcome with
  | @shifts body host found hosted here =>
    rw [broadcast_eq]
    have hmoved : (world.replace
      (body.movedTo (.inside zone host.scene place location))).AllPlaces kind := h
    exact hmoved.changeOccupants place
      (OccupantSet.update · (arrival body zone host.scene place location))
  | @enters body host found hosted elsewhere room =>
    rw [broadcast_eq]
    have hmoved : (world.replace
      (body.movedTo (.inside zone host.scene place location))).AllPlaces kind := h
    have hleft := hmoved.vacate (body.changeTo (.inside zone host.scene place location))
    exact hleft.changeOccupants place
      (OccupantSet.put · (arrival body zone host.scene place location))

end World

/-! ## What a leg is bound to come to -/

/-- What a leg comes to, told without the place. -/
inductive ExpectedOutcome where
  /-- The move waits for its zone, or for its scene if it was let into the given zone. -/
  | waits (zone? : Option ZoneSummary)
  | fails (fault : Fault)
  /-- The body is put into the place of a scene of a zone. -/
  | enters (zone : ZoneSummary) (model : SceneModel)

namespace MoveRequest

variable (move : MoveRequest)

/-- What the load of its scene comes to for a move that was let into a zone, if places have room for
everyone. -/
def passage (zone : ZoneSummary) (load : LoadOutcome Bundle) (world : World) :
    Except Fault SceneModel :=
  match load with
  | .loaded (.scene model) =>
    if zone.containsScene model.scene then
      match world.body? move.entity with
      | none => .error (.internal (CommitError.noSuchBody move.entity).message)
      | some _ => .ok model
    else .error .noSuchPlace
  | _ => .error .noSuchPlace

/-- What comes of a move that was let into a zone, with the load of its scene if it is there. -/
def outlook (zone : ZoneSummary) (load? : Option (LoadOutcome Bundle)) (world : World) :
    ExpectedOutcome :=
  match load? with
  | none => .waits (some zone)
  | some load =>
    match move.passage zone load world with
    | .error fault => .fails fault
    | .ok model => .enters zone model

/-- What comes of a move that looks for its zone, with the load of the zone if it is there. -/
def expected (load? : Option (LoadOutcome Bundle)) (realm : Realm) : ExpectedOutcome :=
  match load? with
  | none => .waits none
  | some load =>
    match move.admission load realm with
    | .error fault => .fails fault
    | .ok zone => move.outlook zone
      ((realm.world.cache.peek? (.scene move.target.scene)).map .loaded) realm.world

variable {move : MoveRequest} {zone : ZoneSummary} {load : LoadOutcome Bundle} {world : World}
  {model : SceneModel}

/-- Nothing but a full place keeps out who could pass. -/
theorem reception_cases (move : MoveRequest) (zone : ZoneSummary) (load : LoadOutcome Bundle)
    (world : World) :
    move.reception zone load world = move.passage zone load world ∨
      ∃ model fault, move.passage zone load world = .ok model ∧
        (world.hostFor model).isFull = true ∧ move.reception zone load world = .error fault := by
  unfold reception passage
  cases load with
  | failed error => exact .inl rfl
  | loaded bundle =>
    cases bundle with
    | zone summary => exact .inl rfl
    | scene model =>
      dsimp only
      cases zone.containsScene model.scene with
      | false => exact .inl rfl
      | true =>
        cases world.body? move.entity with
        | none => exact .inl rfl
        | some body =>
          simp only [if_true]
          by_cases hfull : body.location.place? ≠ some (world.hostFor model).id ∧
              (world.hostFor model).isFull
          · exact .inr ⟨model, _, rfl, hfull.2, if_pos hfull⟩
          · exact .inl (if_neg hfull)

/-- A move gets through to the model that its load has brought. -/
theorem load_of_passage (h : move.passage zone load world = .ok model) :
    load = .loaded (.scene model) := by
  unfold passage at h
  split at h
  · split at h
    · split at h
      · cases h
      · cases h
        rfl
    · cases h
  · cases h

/-- A move that is to enter has its scene loaded. -/
theorem load_of_outlook {load? : Option (LoadOutcome Bundle)} {zone' : ZoneSummary}
    (h : move.outlook zone load? world = .enters zone' model) :
    load? = some (.loaded (.scene model)) := by
  cases load? with
  | none => cases h
  | some load =>
    simp only [outlook] at h
    cases hpassage : move.passage zone load world with
    | error fault => simp only [hpassage, reduceCtorEq] at h
    | ok found =>
      simp only [hpassage, ExpectedOutcome.enters.injEq] at h
      rw [load_of_passage hpassage, h.2]

/-- A leg that is bound to enter finds the model of its scene ready. -/
theorem ready_of_expected {load? : Option (LoadOutcome Bundle)} {realm : Realm}
    (h : move.expected load? realm = .enters zone model) :
    realm.world.cache.peek? (.scene move.target.scene) = some (.scene model) := by
  unfold expected at h
  split at h
  · cases h
  · split at h
    · cases h
    · obtain ⟨bundle, hready, hbundle⟩ := Option.map_eq_some_iff.mp (load_of_outlook h)
      cases hbundle
      exact hready

/-- A move that its place receives got through to the scene. -/
theorem passage_of_reception (h : move.reception zone load world = .ok model) :
    move.passage zone load world = .ok model := by
  rcases move.reception_cases zone load world with heq | ⟨_, _, -, -, hfailed⟩
  · exact heq.symm.trans h
  · rw [h] at hfailed
    cases hfailed

/-- A move that is refused where places have room for everyone did not get through. -/
theorem passage_of_refusal {fault : Fault} (h : move.reception zone load world = .error fault)
    (roomy : ∀ model, move.passage zone load world = .ok model →
      (world.hostFor model).capacity = none) : move.passage zone load world = .error fault := by
  rcases move.reception_cases zone load world with heq | ⟨model, _, hpasses, hfull, -⟩
  · exact heq.symm.trans h
  · rw [Place.isFull, roomy model hpasses] at hfull
    cases hfull

end MoveRequest

namespace Leg

variable {leg : Leg} {zone : ZoneSummary} {inquiry : List Effect}
  {resolution : Resolution CacheKey Bundle} {realm : Realm}

/-- What a leg is bound to come to, as things stand before it. -/
def expected (leg : Leg) : ExpectedOutcome :=
  match leg.stage? with
  | none => leg.request.expected
    ((leg.before.world.cache.peek? (.zone leg.request.target.zone)).map .loaded) leg.before
  | some (.resolvingZone resolution) =>
    leg.request.expected (resolution.outcome? leg.before.world.cache) leg.before
  | some (.resolvingScene zone resolution) =>
    leg.request.outlook zone (resolution.outcome? leg.before.world.cache) leg.before.world

/-- What a leg is bound to come to, when it looks for its zone. -/
theorem expected_of_quest (h : leg.before.world.cache.SingleFlight)
    (quest : leg.quest? = some (resolution, realm)) :
    leg.expected = leg.request.expected (resolution.outcome? realm.world.cache) leg.before := by
  unfold quest? at quest
  cases hstage : leg.stage? with
  | none =>
    simp only [hstage, Option.some.injEq] at quest
    have hread := (Realm.hears_acquire h (.zone leg.request.target.zone)).1
    rw [quest] at hread
    simp only [expected, hstage, hread]
  | some stage =>
    cases stage with
    | resolvingZone =>
      simp only [hstage, Option.some.injEq, Prod.mk.injEq] at quest
      simp only [expected, hstage, quest.1, ← quest.2]
    | resolvingScene => simp only [hstage, reduceCtorEq] at quest

/-- What a leg is bound to come to, when it has been let into its zone. -/
theorem expected_of_reaches (h : leg.before.world.cache.SingleFlight)
    (reaches : leg.Reaches zone inquiry resolution realm) :
    leg.expected = leg.request.outlook zone (resolution.outcome? realm.world.cache)
      leg.before.world := by
  cases reaches with
  | resumes stage =>
    unfold expected
    rw [stage]
  | @admitted _ realm load quest taken admitted =>
    obtain ⟨hsingle, hpeek⟩ := leg.quest_acquires h quest
    have hcache : (leg.request.inquire load realm).world.cache = realm.world.cache := by
      rw [MoveRequest.inquire_world]
    have hadmitted : leg.request.admission load leg.before = .ok zone := by
      rw [quest_realm quest] at admitted
      exact (MoveRequest.admission_congr rfl rfl).symm.trans admitted
    have hscene := hpeek (.scene leg.request.target.scene) nofun
    rw [← hcache] at hsingle
    rw [expected_of_quest h quest, taken, (Realm.hears_acquire hsingle _).1, hcache, hscene]
    simp only [MoveRequest.expected, hadmitted]

end Leg

/-- The move as it waits then, if it does. -/
def ExpectedOutcome.wait? (move : MoveRequest) : ExpectedOutcome → Option Wait
  | .waits none => some ⟨move, none, some (.zone move.target.zone)⟩
  | .waits (some zone) => some ⟨move, some zone, some (.scene move.target.scene)⟩
  | _ => none

/-- How the move is answered, if it is. -/
def ExpectedOutcome.reply? (move : MoveRequest) : ExpectedOutcome → Option (Listener × Answer)
  | .waits _ => none
  | .fails fault => some (move.listener, .failure fault)
  | .enters zone model => some (move.listener, .success (.moved
    { place := default
      zone := zone
      scene := model.scene
      location := move.target.location
      group := (model.findLocation move.target.location).bind (·.group)
      sceneUpdate := if move.version < model.version then some model else none
      occupants := [] }))

/-- Where the body of the move goes, if it does. -/
def ExpectedOutcome.location? (move : MoveRequest) : ExpectedOutcome → Option BodyLocation
  | .enters zone model => some (.inside zone.zone model.scene default move.target.location)
  | _ => none

/-- What the policy of the zone is told of the move, if its body gets into the zone. -/
def ExpectedOutcome.entrance? (realm : Realm) (move : MoveRequest) :
    ExpectedOutcome → Option Consultation
  | .enters zone _ => (realm.world.body? move.entity).map fun body =>
    ⟨(realm.zones.policyFor zone.zone).name, body.identity, zone.zone, none⟩
  | _ => none

/-- A leg comes to what it was bound to come to. -/
structure Leg.Meets (leg : Leg) (expected : ExpectedOutcome) : Prop where
  wait : leg.parked.map Flight.wait = expected.wait? leg.request
  replies : Effect.replies leg.effects = (expected.reply? leg.request).toList
  whereabouts : leg.after.world.whereabouts =
    leg.before.world.whereabouts.send leg.request.entity (expected.location? leg.request)
  changes : leg.after.world.changes.map BodyChange.placeless =
    leg.before.world.changes.map BodyChange.placeless ++
      leg.before.world.whereabouts.step leg.request.entity (expected.location? leg.request)
  consultations : Effect.consultations leg.effects =
    leg.ratification?.toList.map Ratification.consultation ++
      (expected.entrance? leg.before leg.request).toList

namespace Leg

variable {leg : Leg} {zone : ZoneSummary} {inquiry : List Effect}
  {resolution : Resolution CacheKey Bundle} {realm : Realm}

/-- The leg takes on a move that has heard of the load that it waits for what was settled so far, or
it begins the move. -/
def Heard (leg : Leg) : Prop :=
  ∀ stage, leg.stage? = some stage → ∃ heard, leg.before.world.cache.Hears
    (Flight.key ⟨leg.request, stage⟩) (Flight.resolution ⟨leg.request, stage⟩) heard

/-- A leg that is not told of its zone waits for the load of the zone. -/
theorem Heard.key?_of_quest (heard : leg.Heard) (h : leg.before.world.cache.SingleFlight)
    (quest : leg.quest? = some (resolution, realm))
    (unheard : resolution.outcome? realm.world.cache = none) :
    resolution.key? = some (.zone leg.request.target.zone) := by
  unfold quest? at quest
  cases hstage : leg.stage? with
  | none =>
    simp only [hstage, Option.some.injEq] at quest
    have hkey := @Realm.key?_acquire leg.before h (.zone leg.request.target.zone)
    rw [quest] at hkey
    exact hkey unheard
  | some stage =>
    obtain ⟨_, hhears⟩ := heard stage hstage
    cases stage with
    | resolvingZone =>
      simp only [hstage, Option.some.injEq, Prod.mk.injEq] at quest
      rw [← quest.1]
      exact hhears.key?_eq
    | resolvingScene => simp only [hstage, reduceCtorEq] at quest

/-- A leg that is not told of its scene waits for the load of the scene. -/
theorem Heard.key?_of_reaches (heard : leg.Heard) (h : leg.before.world.cache.SingleFlight)
    (reaches : leg.Reaches zone inquiry resolution realm)
    (unheard : resolution.outcome? realm.world.cache = none) :
    resolution.key? = some (.scene leg.request.target.scene) := by
  cases reaches with
  | resumes stage =>
    obtain ⟨_, hhears⟩ := heard _ stage
    exact hhears.key?_eq
  | @admitted _ realm load quest =>
    have hcache : (leg.request.inquire load realm).world.cache = realm.world.cache := by
      rw [MoveRequest.inquire_world]
    have hsingle := (leg.quest_acquires h quest).1
    rw [← hcache] at hsingle
    exact Realm.key?_acquire hsingle unheard

/-- Nobody has gone anywhere in a leg that leaves the bodies alone. -/
theorem whereabouts_stay (bodies : leg.after.world.bodies = leg.before.world.bodies) :
    leg.after.world.whereabouts = leg.before.world.whereabouts.send leg.request.entity none := by
  rw [World.whereabouts_of_bodies bodies, Whereabouts.send_none]

/-- A leg that records no change is one in which nobody has gone anywhere. -/
theorem changes_stay (changes : leg.after.world.changes = leg.before.world.changes) :
    leg.after.world.changes.map BodyChange.placeless =
      leg.before.world.changes.map BodyChange.placeless ++
        leg.before.world.whereabouts.step leg.request.entity none := by
  rw [changes, Whereabouts.step_none, List.append_nil]

end Leg

namespace MoveRequest

variable {move : MoveRequest} {zone : ZoneSummary} {model : SceneModel} {world after : World}
  {reply : Reply}

/-- A move that lands has sent its body to its target, and no other body anywhere. -/
theorem whereabouts_land (h : world.Sound)
    (hland : move.land zone (.loaded (.scene model)) world = (.success reply, after)) :
    after.whereabouts = world.whereabouts.send move.entity
      (some (.inside zone.zone model.scene default move.target.location)) := by
  obtain ⟨_, heq, hentry⟩ := land_success hland
  cases heq
  have hsame := world.sameBodies_placeFor model
  cases hentry with
  | entered commit =>
    obtain ⟨-, hmade⟩ := h.placeFor_hostFor model
    obtain ⟨host, hhost, hwhereabouts⟩ :=
      commit.whereabouts_eq (h.registers.labeled.of_sameNames hsame.sameNames)
    rw [hmade] at hhost
    cases hhost
    rw [h.scene_hostFor, World.whereabouts_of_bodies hsame.bodies] at hwhereabouts
    exact hwhereabouts

/-- A move that lands notes that its body has gone to its target. -/
theorem changes_land (h : world.Sound)
    (hland : move.land zone (.loaded (.scene model)) world = (.success reply, after)) :
    after.changes.map BodyChange.placeless = world.changes.map BodyChange.placeless ++
      world.whereabouts.step move.entity
        (some (.inside zone.zone model.scene default move.target.location)) := by
  obtain ⟨_, heq, hentry⟩ := land_success hland
  cases heq
  cases hentry with
  | entered commit =>
    obtain ⟨-, hmade⟩ := h.placeFor_hostFor model
    obtain ⟨host, hhost, hchanges⟩ := commit.placeless_changes
    rw [hmade] at hhost
    cases hhost
    rwa [h.scene_hostFor, World.changes_placeFor,
      World.whereabouts_of_bodies (world.sameBodies_placeFor model).bodies] at hchanges

/-- Places stay of their kind when a move lands in one of that kind. -/
theorem allPlaces_land {kind : SceneId → Option Nat → Prop} (h : world.AllPlaces kind)
    (hmodel : kind model.scene model.capacity)
    (hland : move.land zone (.loaded (.scene model)) world = (.success reply, after)) :
    after.AllPlaces kind := by
  obtain ⟨_, heq, hentry⟩ := land_success hland
  cases heq
  cases hentry with
  | entered commit => exact commit.allPlaces (h.placeFor model hmodel)

/-- What a move is told that gets into a place, but for the place. -/
theorem Welcomes.placeless {moved : MoveReply} (h : move.Welcomes zone model world moved) :
    some (move.listener, (Answer.success (.moved moved)).placeless) =
      (ExpectedOutcome.enters zone model).reply? move := by
  simp only [Answer.placeless, ExpectedOutcome.reply?, h.zone, h.scene, h.location, h.group,
    h.sceneUpdate]

end MoveRequest

namespace Leg

variable {leg : Leg} {zone : ZoneSummary} {inquiry : List Effect}
  {resolution : Resolution CacheKey Bundle} {realm : Realm}

/-- A leg that brings its body into a place was bound to. -/
theorem Reaches.enters (reaches : leg.Reaches zone inquiry resolution realm)
    (hsingle : leg.before.world.cache.SingleFlight) (hsound : leg.before.world.Sound)
    (hafter : leg.after.world.Sound) {load : LoadOutcome Bundle} {reply : Reply} {world : World}
    (taken : resolution.outcome? realm.world.cache = some load)
    (bodies : world.SameBodies leg.after.world) (places : world.SamePlaces leg.after.world)
    (lands : leg.request.land zone load realm.world = (.success reply, world)) :
    ∃ model moved, leg.expected = .enters zone model ∧ load = .loaded (.scene model) ∧
      reply = .moved moved ∧ leg.request.Welcomes zone model leg.after.world moved := by
  obtain ⟨model, moved, hmodel, hreply, hwelcomes⟩ :=
    reaches.reception_of_success hsound hafter bodies places lands
  have hpassage := MoveRequest.passage_of_reception hmodel
  refine ⟨model, moved, ?_, MoveRequest.load_of_passage hpassage, hreply, hwelcomes⟩
  rw [expected_of_reaches hsingle reaches, taken]
  simp only [MoveRequest.outlook, hpassage]

/-- A leg after which its move waits is bound to wait. -/
theorem meets_of_parked {flight : Flight} {zone? : Option ZoneSummary}
    (parked : leg.parked = some flight)
    (wait : some flight.wait = (ExpectedOutcome.waits zone?).wait? leg.request)
    (asked : ∀ effect ∈ leg.effects, effect.IsRatification) : leg.Meets (.waits zone?) where
  wait := by
    rw [parked]
    exact wait
  replies := Effect.replies_of_ratifies asked
  whereabouts := whereabouts_stay (traceless_of_parked parked).bodies
  changes := changes_stay (traceless_of_parked parked).changes
  consultations := by
    rw [Effect.consultations_of_ratifies asked, ← ratifications_eq]
    exact (List.append_nil _).symm

/-- A leg that ends in a failure answers its move. -/
theorem answer_mem_of_failure {fault : Fault}
    (effects : leg.effects = inquiry ++ [.answer leg.request.listener (.failure fault)]) :
    .answer leg.request.listener (.failure fault) ∈ leg.effects := by
  rw [effects]
  exact List.mem_append_right _ (List.mem_singleton.mpr rfl)

/-- A leg that ends in a failure is bound to fail. -/
theorem meets_of_failure {fault : Fault} (hsound : leg.before.world.Sound)
    (hunwrapped : leg.after.world.Unwrapped) (parked : leg.parked = none)
    (effects : leg.effects = inquiry ++ [.answer leg.request.listener (.failure fault)])
    (asked : ∀ effect ∈ inquiry, effect.IsRatification) : leg.Meets (.fails fault) where
  wait := by
    rw [parked]
    rfl
  replies := by
    rw [effects, Effect.replies_append, Effect.replies_of_ratifies asked]
    rfl
  whereabouts := whereabouts_stay (traceless_of_failure hsound hunwrapped.placeIds
    (answer_mem_of_failure effects)).bodies
  changes := changes_stay (traceless_of_failure hsound hunwrapped.placeIds
    (answer_mem_of_failure effects)).changes
  consultations := by
    rw [effects, Effect.consultations_append, Effect.consultations_of_ratifies asked,
      ← ratifications_eq, ratifications, effects, List.filterMap_append]
    simp only [List.map_append, List.append_assoc]
    rfl

/-- A leg comes to what it is bound to come to, as long as the place that it leads to has room. -/
theorem meets (hsingle : leg.before.world.cache.SingleFlight) (heard : leg.Heard)
    (hsound : leg.before.world.Sound) (hunwrapped : leg.after.world.Unwrapped)
    (roomy : ∀ zone model, leg.expected = .enters zone model →
      (leg.before.world.hostFor model).capacity = none) : leg.Meets leg.expected := by
  have hafter := leg.keepsSound.sound hsound hunwrapped
  -- What is expected was read off the realm before the leg. Each ending tells what it found there.
  have hending := leg.ending
  generalize hrealm : leg.after = after, heffects : leg.effects = effects,
    hparked : leg.parked = flight at hending
  cases hending with
  | awaitsZone quest load =>
    have hexpected : leg.expected = .waits none := by
      rw [expected_of_quest hsingle quest, load]
      rfl
    rw [hexpected]
    refine meets_of_parked hparked ?_ ?_
    · simp only [Flight.wait, heard.key?_of_quest hsingle quest load, ExpectedOutcome.wait?]
    · rw [heffects]
      exact List.forall_mem_nil _
  | @stopped resolution realm load fault quest taken refused =>
    have hrefused : leg.request.admission load leg.before = .error fault := by
      rw [quest_realm quest] at refused
      exact (MoveRequest.admission_congr rfl rfl).symm.trans refused
    have hexpected : leg.expected = .fails fault := by
      rw [expected_of_quest hsingle quest, taken]
      simp only [MoveRequest.expected, hrefused]
    rw [hexpected]
    exact meets_of_failure hsound hunwrapped hparked heffects
      (leg.request.inquiry_ratifies load realm).2
  | @awaitsScene zone inquiry resolution realm reaches load =>
    have hexpected : leg.expected = .waits (some zone) := by
      rw [expected_of_reaches hsingle reaches, load]
      rfl
    rw [hexpected]
    refine meets_of_parked hparked ?_ ?_
    · simp only [Flight.wait, heard.key?_of_reaches hsingle reaches load, ExpectedOutcome.wait?]
    · rw [heffects]
      exact reaches.inquiry_ratifies.2
  | @refused zone inquiry resolution realm load fault world reaches taken lands =>
    have hexpected : leg.expected = leg.request.outlook zone (some load) leg.before.world := by
      rw [expected_of_reaches hsingle reaches, taken]
    have hpassage : leg.request.passage zone load leg.before.world = .error fault := by
      refine MoveRequest.passage_of_refusal (reaches.reception_of_failure hsound lands)
        fun model hpasses => roomy zone model ?_
      simp only [hexpected, MoveRequest.outlook, hpasses]
    rw [hexpected]
    simp only [MoveRequest.outlook, hpassage]
    exact meets_of_failure hsound hunwrapped hparked heffects reaches.inquiry_ratifies.2
  | @entered zone inquiry notices resolution realm load reply world reaches taken lands noticed
      quiet =>
    have hsame := leg.request.same_finish_announce { realm with world := world } leg.request.keys
      (.success reply) leg.request.entity zone.zone
    rw [← hrealm] at hsame
    obtain ⟨model, moved, hexpected, rfl, rfl, hwelcomes⟩ :=
      reaches.enters hsingle hsound hafter taken hsame.1 hsame.2 lands
    rw [hexpected]
    obtain ⟨_, body, _, -, -, hbody, -⟩ := reaches.arrives hsound.registers.labeled lands
    have hfound : realm.world.bodies = leg.before.world.bodies := by rw [reaches.world_eq]
    have hlanded := MoveRequest.whereabouts_land (reaches.sound hsound) lands
    rw [World.whereabouts_of_bodies hfound] at hlanded
    constructor
    case wait =>
      rw [hparked]
      rfl
    case replies =>
      rw [heffects, Effect.replies_append, Effect.replies_append, Effect.replies_append,
        Effect.replies_of_ratifies reaches.inquiry_ratifies.2, Effect.replies_of_notices quiet,
        Effect.replies_announcement, ← hwelcomes.placeless]
      rfl
    case whereabouts => exact (World.whereabouts_of_bodies hsame.1.bodies).trans hlanded
    case changes =>
      have hchanges := MoveRequest.changes_land (reaches.sound hsound) lands
      have hnoted : realm.world.changes = leg.before.world.changes := by rw [reaches.world_eq]
      rw [World.whereabouts_of_bodies hfound, hnoted] at hchanges
      rw [hrealm, Realm.changes_announce, MoveRequest.finish, World.foldl_release]
      exact hchanges
    case consultations =>
      -- The body is told of in its new place, and it is still the same participant's.
      obtain ⟨body', hbody', hidentity⟩ := World.identity_of_whereabouts hlanded hbody
      rw [heffects, Effect.consultations_append, Effect.consultations_append,
        Effect.consultations_append, Effect.consultations_of_ratifies reaches.inquiry_ratifies.2,
        reaches.letIn.1, Effect.consultations_of_notices quiet, reaches.announcement_eq hbody]
      simp only [ExpectedOutcome.entrance?, hbody', Option.map_some, hidentity, List.append_assoc]
      rfl

/-- A leg makes no other place than that of the scene that it leads to. -/
theorem allPlaces (hsingle : leg.before.world.cache.SingleFlight)
    (hsound : leg.before.world.Sound) (hunwrapped : leg.after.world.Unwrapped)
    {kind : SceneId → Option Nat → Prop} (h : leg.before.world.AllPlaces kind)
    (hmodel : ∀ zone model, leg.expected = .enters zone model →
      kind model.scene model.capacity) : leg.after.world.AllPlaces kind := by
  have hafter := leg.keepsSound.sound hsound hunwrapped
  have hending := leg.ending
  generalize hrealm : leg.after = after, heffects : leg.effects = effects,
    hparked : leg.parked = flight at hending
  have hfailed : ∀ {inquiry fault}, effects = inquiry ++ [.answer leg.request.listener
      (.failure fault)] → after.world.AllPlaces kind := by
    rintro inquiry fault rfl
    have hanswer : .answer leg.request.listener (.failure fault) ∈ leg.effects := by
      rw [heffects]
      exact List.mem_append_right _ (List.mem_singleton.mpr rfl)
    rw [World.AllPlaces, ← hrealm,
      (traceless_of_failure hsound hunwrapped.placeIds hanswer).places]
    exact h
  have hparks : ∀ {flight}, leg.parked = some flight → after.world.AllPlaces kind := by
    intro flight hsome
    rw [World.AllPlaces, ← hrealm, (traceless_of_parked hsome).places]
    exact h
  cases hending with
  | awaitsZone => exact hparks hparked
  | stopped => exact hfailed rfl
  | awaitsScene => exact hparks hparked
  | refused => exact hfailed rfl
  | @entered zone _ _ resolution realm load reply world reaches taken lands =>
    have hsame := leg.request.same_finish_announce { realm with world := world } leg.request.keys
      (.success reply) leg.request.entity zone.zone
    rw [← hrealm] at hsame
    obtain ⟨model, moved, hexpected, rfl, rfl, -⟩ :=
      reaches.enters hsingle hsound hafter taken hsame.1 hsame.2 lands
    have hfound : realm.world.AllPlaces kind := by
      rw [World.AllPlaces, reaches.world_eq]
      exact h
    rw [← hrealm, World.AllPlaces, hsame.2.places]
    exact MoveRequest.allPlaces_land hfound (hmodel zone model hexpected) lands

end Leg

/-! ## In whatever realm -/

/-- What policies say depends on nothing but the identity of the body and on the zone. -/
def ZoneRegistry.Impartial (zones : ZoneRegistry) : Prop :=
  ∀ (zone : ZoneId) (calls calls' : List PolicyCall) (body body' : Body) (summary : ZoneSummary),
    body.identity = body'.identity →
    (zones.policyFor zone).verdict calls body summary =
      (zones.policyFor zone).verdict calls' body' summary

namespace Realm.Resembles

variable {start realm : Realm} {move : MoveRequest} {load : LoadOutcome Bundle} {zone : ZoneSummary}

/-- A realm that resembles the one at the start has the same bodies, by whose they are. -/
theorem body?_cases (h : start.Resembles realm) (entity : EntityId) :
    realm.world.body? entity = none ∧ start.world.body? entity = none ∨
      ∃ body body', realm.world.body? entity = some body ∧
        start.world.body? entity = some body' ∧ body.identity = body'.identity := by
  cases hbody : realm.world.body? entity with
  | none =>
    have hnames := h.names.names entity
    rw [show realm.world.bodies.get? entity = none from hbody, Option.map_none, eq_comm,
      Option.map_eq_none_iff] at hnames
    exact .inl ⟨rfl, hnames⟩
  | some body =>
    obtain ⟨body', hbody', -, hidentity⟩ := h.names.exists_body hbody
    exact .inr ⟨body, body', rfl, hbody', hidentity.symm⟩

/-- A move gets through to its scene wherever it would at the start. -/
theorem passage_eq (h : start.Resembles realm) :
    move.passage zone load realm.world = move.passage zone load start.world := by
  unfold MoveRequest.passage
  rcases h.body?_cases move.entity with ⟨hbody, hbody'⟩ | ⟨body, body', hbody, hbody', -⟩
  · simp only [hbody, hbody']
  · simp only [hbody, hbody']

/-- A move is let into its zone wherever it would be at the start. -/
theorem admission_eq (h : start.Resembles realm) (himpartial : start.zones.Impartial) :
    move.admission load realm = move.admission load start := by
  unfold MoveRequest.admission
  rcases h.body?_cases move.entity with ⟨hbody, hbody'⟩ | ⟨body, body', hbody, hbody', hidentity⟩
  · simp only [hbody, hbody']
  · have hverdict := fun zone : ZoneSummary => himpartial zone.zone
      (realm.zones.policyFor zone.zone).calls (start.zones.policyFor zone.zone).calls
      body body' zone hidentity
    simp only [hbody, hbody', h.rules.verdict, hverdict]

/-- The same policies are asked the same and say the same. -/
theorem ratification_eq (h : start.Resembles realm) (himpartial : start.zones.Impartial) :
    (move.ratification? load realm).map Ratification.consultation =
      (move.ratification? load start).map Ratification.consultation := by
  unfold MoveRequest.ratification? MoveRequest.inquiry?
  cases load with
  | failed error => rfl
  | loaded bundle =>
    cases bundle with
    | scene model => rfl
    | zone summary =>
      rcases h.body?_cases move.entity with
        ⟨hbody, hbody'⟩ | ⟨body, body', hbody, hbody', hidentity⟩
      · simp only [hbody, hbody', Option.map_none]
      · have hverdict := himpartial summary.zone (realm.zones.policyFor summary.zone).calls
          (start.zones.policyFor summary.zone).calls body body' summary hidentity
        simp only [hbody, hbody', Option.map_some, Ratification.consultation, Realm.ratify,
          h.rules.name, h.rules.verdict, hverdict, hidentity]

/-- The same policy is told of the same body. -/
theorem entrance_eq (h : start.Resembles realm) (expected : ExpectedOutcome) :
    expected.entrance? realm move = expected.entrance? start move := by
  cases expected with
  | waits zone? => rfl
  | fails fault => rfl
  | enters zone model =>
    unfold ExpectedOutcome.entrance?
    rcases h.body?_cases move.entity with ⟨hbody, hbody'⟩ | ⟨body, body', hbody, hbody', hidentity⟩
    · simp only [hbody, hbody', Option.map_none]
    · simp only [hbody, hbody', Option.map_some, h.rules.name, hidentity]

/-- What comes of a move in its zone is what would come of it at the start. -/
theorem outlook_eq (h : start.Resembles realm) (load? : Option (LoadOutcome Bundle)) :
    move.outlook zone load? realm.world = move.outlook zone load? start.world := by
  unfold MoveRequest.outlook
  simp only [h.passage_eq]

/-- What comes of a move is what would come of it at the start. -/
theorem expected_eq (h : start.Resembles realm) (himpartial : start.zones.Impartial)
    (load? : Option (LoadOutcome Bundle)) :
    move.expected load? realm = move.expected load? start := by
  unfold MoveRequest.expected
  simp only [h.admission_eq himpartial, h.ready, h.outlook_eq]

end Realm.Resembles

namespace Leg

/-- The load of its zone, if the leg looks for the zone and the load is there. -/
def zoneLoad? (leg : Leg) : Option (LoadOutcome Bundle) :=
  match leg.stage? with
  | none => (leg.before.world.cache.peek? (.zone leg.request.target.zone)).map .loaded
  | some (.resolvingZone resolution) => resolution.outcome? leg.before.world.cache
  | some (.resolvingScene _ _) => none

/-- The policy of its zone is asked when the leg takes the load of the zone. -/
theorem zoneLoad?_spec (leg : Leg) (hsingle : leg.before.world.cache.SingleFlight) :
    leg.admission? = leg.zoneLoad?.map (leg.request.admission · leg.before) ∧
      leg.ratification? = leg.zoneLoad?.bind (leg.request.ratification? · leg.before) := by
  unfold zoneLoad?
  cases hstage : leg.stage? with
  | none =>
    have hquest : leg.quest? = some (leg.before.acquire (.zone leg.request.target.zone)) := by
      simp only [quest?, hstage]
    have hread := (Realm.hears_acquire hsingle (.zone leg.request.target.zone)).1
    generalize leg.before.acquire (.zone leg.request.target.zone) = acquired at hquest hread
    obtain ⟨resolution, realm⟩ := acquired
    rw [admission?_of_quest hquest, ratification?_of_quest hquest, hread, quest_realm hquest]
    exact ⟨rfl, rfl⟩
  | some stage =>
    cases stage with
    | resolvingZone resolution =>
      have hquest : leg.quest? = some (resolution, leg.before) := by simp only [quest?, hstage]
      exact ⟨admission?_of_quest hquest, ratification?_of_quest hquest⟩
    | resolvingScene zone resolution =>
      have hquest : leg.quest? = none := by simp only [quest?, hstage]
      rw [admission?, ratification?, hquest]
      exact ⟨rfl, rfl⟩

/-- The leg as it would go in another realm. -/
def foreseen (leg : Leg) (start : Realm) : Leg := { leg with before := start }

/-- What comes before a leg does not matter to what it is bound to come to, to what it takes from
the cache, and to what policies it asks. -/
structure Expects (start : Realm) (leg : Leg) : Prop where
  heard : leg.Heard
  expected : leg.expected = (leg.foreseen start).expected
  taken : leg.taken = (leg.foreseen start).taken
  ratification : leg.ratification?.map Ratification.consultation =
    (leg.foreseen start).ratification?.map Ratification.consultation

/-- In a realm like the one at the start, a leg expects what it would expect there. -/
theorem expects_of_resembles {start : Realm} (leg : Leg)
    (hsingle : start.world.cache.SingleFlight) (himpartial : start.zones.Impartial)
    (h : start.Resembles leg.before) (heard : Heard ⟨leg.request, leg.stage?, start⟩) :
    leg.Expects start := by
  have houtcome : ∀ stage, leg.stage? = some stage →
      (Flight.resolution ⟨leg.request, stage⟩).outcome? leg.before.world.cache =
        (Flight.resolution ⟨leg.request, stage⟩).outcome? start.world.cache := by
    intro stage hstage
    obtain ⟨heard, hhears⟩ := heard stage hstage
    rw [hhears.outcome?, (hhears.quiet hsingle h.quiet).outcome?]
  have hload : leg.zoneLoad? = (leg.foreseen start).zoneLoad? := by
    unfold zoneLoad? foreseen
    cases hstage : leg.stage? with
    | none => simp only [h.ready]
    | some stage =>
      cases stage with
      | resolvingZone resolution => exact houtcome _ hstage
      | resolvingScene zone resolution => rfl
  obtain ⟨hadmission, hratification⟩ := zoneLoad?_spec leg h.quiet.single
  obtain ⟨hadmission', hratification'⟩ := zoneLoad?_spec (leg.foreseen start) hsingle
  constructor
  case heard =>
    intro stage hstage
    obtain ⟨heard, hhears⟩ := heard stage hstage
    exact ⟨heard, hhears.quiet hsingle h.quiet⟩
  case expected =>
    unfold expected foreseen
    cases hstage : leg.stage? with
    | none => simp only [h.ready, h.expected_eq himpartial]
    | some stage =>
      have hload := houtcome stage hstage
      cases stage with
      | resolvingZone resolution =>
        simp only [Flight.resolution] at hload
        simp only [hload, h.expected_eq himpartial]
      | resolvingScene zone resolution =>
        simp only [Flight.resolution] at hload
        simp only [hload, h.outlook_eq]
  case taken =>
    rw [taken, taken, hadmission, hadmission', hload]
    simp only [h.admission_eq himpartial]
    rfl
  case ratification =>
    rw [hratification, hratification', hload, Option.map_bind, Option.map_bind]
    simp only [Function.comp_def, h.ratification_eq himpartial]
    rfl

end Leg

end SharedWorld
