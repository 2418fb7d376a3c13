import SharedWorld.Proofs.News
import SharedWorld.Proofs.Refusals

/-!
# What policies are asked and told

The policy of a zone is asked once about a move into it, when the zone has been resolved, and told
once that the body entered, after the move was answered. Whatever policies the zones are put under
meanwhile, no move gets further than its ratification lets it: `Standing.Asked` follows what was
asked along a journey, and `Leg.Disciplined` sums up what comes of it for a whole move.
-/

namespace SharedWorld

/-- What a policy was asked and said. -/
structure Ratification where
  policy : Option String
  body : Body
  zone : ZoneSummary
  veto : Option String
  deriving DecidableEq, Repr

/-- What a policy was told. -/
structure Entrance where
  policy : Option String
  body : Body
  zone : ZoneId
  deriving DecidableEq, Repr

/-- What a policy was asked, if the effect is that it was asked. -/
def Effect.ratified? : Effect → Option Ratification
  | .consulted policy (.ratified body zone veto) => some ⟨policy, body, zone, veto⟩
  | _ => none

/-- What a policy was told, if the effect is that it was told. -/
def Effect.entered? : Effect → Option Entrance
  | .consulted policy (.entered body zone) => some ⟨policy, body, zone⟩
  | _ => none

/-- Asking policies tells none of an entrance. -/
theorem Effect.entrances_of_ratifies {effects : List Effect}
    (h : ∀ effect ∈ effects, effect.IsRatification) : effects.filterMap entered? = [] := by
  refine List.filterMap_eq_nil_iff.mpr fun effect hmem => ?_
  obtain ⟨_, _, _, _, rfl⟩ := h effect hmem
  rfl

/-- Notices tell no policy of an entrance. -/
theorem Effect.entrances_of_notices {effects : List Effect}
    (h : ∀ effect ∈ effects, effect.IsNotice) : effects.filterMap entered? = [] := by
  refine List.filterMap_eq_nil_iff.mpr fun effect hmem => ?_
  obtain ⟨_, _, _, rfl⟩ := h effect hmem
  rfl

namespace Leg

/-- What policies were asked during a leg. -/
def ratifications (leg : Leg) : List Ratification := leg.effects.filterMap Effect.ratified?

/-- What policies were told during a leg. -/
def entrances (leg : Leg) : List Entrance := leg.effects.filterMap Effect.entered?

end Leg

/-! ## Bodies under their own entities -/

namespace World

/-- No operation puts a body under another entity than its own. -/
theorem labeled_bookkeeping :
    Bookkeeping fun _ _ before after => before.Labeled → after.Labeled where
  trans first rest h := rest (first h)
  perm _ _ := id
  effects _ _ := id
  leavePlace world entity h := h.of_sameNames ((leavePlace_outcome world entity).sameNames h)
  enters _ _ _ outcome h := h.of_sameNames (outcome.sameNames h)
  finish flight realm answer h := by
    rw [MoveRequest.finish, foldl_release]
    exact h
  takesZone _ _ := id
  takesScene _ _ _ := id
  createBody world identity h := by
    cases hknown : world.entities.get? identity with
    | some entity => rwa [createBody_of_some hknown]
    | none =>
      rw [createBody_of_none hknown]
      intro entity body hbody
      rcases Table.get?_insert_eq_some_iff.mp hbody with ⟨rfl, rfl⟩ | ⟨-, hold⟩
      · rfl
      · exact h hold
  removeBody world identity h := by
    have houtcome := removeBody_outcome world identity
    generalize (world.removeBody identity).2 = after at houtcome
    cases houtcome with
    | unknown => exact h
    | @removes entity change left named leaves =>
      have hstart : ({ world with entities := world.entities.erase identity } : World).Labeled := h
      have hleft := hstart.of_sameNames (leaves.sameNames hstart)
      exact fun entity body hbody => hleft (Table.get?_erase_eq_some_iff.mp hbody).2
  setStatus world identity status h :=
    h.of_sameNames ((setStatus_outcome world identity status).sameNames h)

/-- Moving a body changes its location, and no other body. -/
theorem CommitOutcome.bodies_eq {world after : World} {entity : EntityId} {zone : ZoneId}
    {place : PlaceId} {location : LocationId} {change : BodyChange}
    (outcome : CommitOutcome world entity zone place location (.ok change) after) :
    ∃ body host, world.bodies.get? entity = some body ∧ world.places.get? place = some host ∧
      after.bodies = world.bodies.insert body.entity
        (body.movedTo (.inside zone host.scene place location)) := by
  cases outcome with
  | @shifts body host found hosted here =>
    refine ⟨body, host, found, hosted, ?_⟩
    rw [broadcast_eq]
    rfl
  | @enters body host found hosted elsewhere room =>
    refine ⟨body, host, found, hosted, ?_⟩
    rw [broadcast_eq]
    exact (sameBodies_vacate (world.replace (body.movedTo (.inside zone host.scene place location)))
      (body.changeTo (.inside zone host.scene place location))).bodies

/-- A body that was moved is where it was moved to. -/
theorem CommitOutcome.body_arrived {world after : World} {entity : EntityId} {zone : ZoneId}
    {place : PlaceId} {location : LocationId} {change : BodyChange}
    (outcome : CommitOutcome world entity zone place location (.ok change) after)
    (h : world.Labeled) :
    ∃ body host, after.bodies.get? entity = some body ∧ world.places.get? place = some host ∧
      body.location = .inside zone host.scene place location := by
  obtain ⟨body, host, hbody, hhost, hbodies⟩ := outcome.bodies_eq
  refine ⟨body.movedTo (.inside zone host.scene place location), host, ?_, hhost, rfl⟩
  rw [hbodies, h hbody, Table.get?_insert_self]

end World

/-- Bodies stay kept under their own entities in each leg. -/
theorem Leg.labeled (leg : Leg) : leg.before.world.Labeled → leg.after.world.Labeled := by
  obtain ⟨request, stage?, before⟩ := leg
  cases stage? with
  | none => exact World.labeled_bookkeeping.launch request [] before
  | some stage => exact World.labeled_bookkeeping.step ⟨request, stage⟩ [] before

namespace Server

/-- Every state that a server reaches keeps its bodies under their own entities. -/
theorem run_labeled (config : ServerConfig) (loader : Loader CacheKey Bundle)
    (actions : List Action) : ((Server.new config loader).run actions).world.Labeled := by
  refine (run_induction (P := fun server => server.BuiltIn ∧ server.world.Labeled) ?_
    ⟨new_builtIn config loader, nofun⟩ actions).2
  intro server action ⟨hbuiltIn, hlabeled⟩
  have houtcome := act_outcome server action
  exact ⟨houtcome.builtIn hbuiltIn,
    World.labeled_bookkeeping.act houtcome hbuiltIn (fun _ => id) id (fun _ => id) hlabeled⟩

/-- So does every state that a leg of a run finds. -/
theorem labeled_of_mem_legs (config : ServerConfig) (loader : Loader CacheKey Bundle)
    {actions : List Action} {leg : Leg}
    (hleg : leg ∈ (Server.new config loader).collect legs actions) : leg.before.world.Labeled := by
  obtain ⟨earlier, action, later, rfl, hmem⟩ := exists_action_of_mem_collect hleg
  obtain ⟨served, -, hpath⟩ :=
    (moves_of_mem_legs hmem).path (run_builtIn (new_builtIn config loader) earlier)
  exact (hpath.around (R := fun before after => before.world.Labeled → after.world.Labeled)
    (fun _ => id) (fun first rest h => rest (first h)) Leg.labeled hmem).1
      (run_labeled config loader earlier)

end Server

/-! ## What one leg asks -/

/-- What a policy is asked when the load of a zone is taken. -/
def MoveRequest.ratification? (request : MoveRequest) (load : LoadOutcome Bundle) (realm : Realm) :
    Option Ratification :=
  (request.inquiry? load realm).map fun (body, zone) =>
    ⟨(realm.zones.policyFor zone.zone).name, body, zone, (realm.ratify body zone).1⟩

/-- A policy is asked in the course of the effects just if it ratifies the move or vetoes it. -/
theorem MoveRequest.ratified_inquiry (request : MoveRequest) (load : LoadOutcome Bundle)
    (realm : Realm) : (request.inquiry load realm).filterMap Effect.ratified? =
      (request.ratification? load realm).toList := by
  unfold inquiry ratification?
  cases request.inquiry? load realm with
  | none => rfl
  | some asked => rfl

/-- What is said decides on the admission. -/
theorem MoveRequest.admission_of_ratification? {request : MoveRequest} {load : LoadOutcome Bundle}
    {realm : Realm} {ratification : Ratification}
    (h : request.ratification? load realm = some ratification) :
    load = .loaded (.zone ratification.zone) ∧
      realm.world.body? request.entity = some ratification.body ∧
      ratification.policy = (realm.zones.policyFor ratification.zone.zone).name ∧
      ratification.veto = (realm.ratify ratification.body ratification.zone).1 ∧
      request.admission load realm = match ratification.veto with
        | some reason => .error (.vetoed reason)
        | none => .ok ratification.zone := by
  unfold ratification? inquiry? at h
  split at h
  case h_1 zone =>
    cases hbody : realm.world.body? request.entity with
    | none => simp only [hbody, Option.map_none, reduceCtorEq] at h
    | some body =>
      simp only [hbody, Option.map_some, Option.some.injEq] at h
      subst h
      exact ⟨rfl, rfl, rfl, rfl, (admission_of_body hbody).1⟩
  case h_2 => cases h

/-- Only a scene brings a move success. -/
theorem MoveRequest.land_success {request : MoveRequest} {zone : ZoneSummary}
    {load : LoadOutcome Bundle} {world after : World} {reply : Reply}
    (h : request.land zone load world = (.success reply, after)) :
    ∃ model, load = .loaded (.scene model) ∧
      EntryOutcome request world zone model (.success reply) after := by
  rcases land_cases h with ⟨hanswer, -⟩ | hentered
  · cases hanswer
  · exact hentered

/-- Telling a policy of a body leaves the bodies alone. -/
theorem Realm.bodies_announce (realm : Realm) (entity : EntityId) (zone : ZoneId) :
    (realm.announce entity zone).world.bodies = realm.world.bodies := by
  unfold announce
  split
  · rfl
  · rfl

/-- Telling a policy of a body records no change. -/
theorem Realm.changes_announce (realm : Realm) (entity : EntityId) (zone : ZoneId) :
    (realm.announce entity zone).world.changes = realm.world.changes := by
  unfold announce
  split
  · rfl
  · rfl

/-- Noting a call puts no zone under another policy: each is the same, or has had the call. -/
theorem ZoneRegistry.policyFor_note (zones : ZoneRegistry) (zone other : ZoneId)
    (call : PolicyCall) :
    (zones.note zone call).policyFor other = zones.policyFor other ∨
      (zones.note zone call).policyFor other = (zones.policyFor other).note call := by
  unfold note policyFor
  cases hpolicy : zones.policies.get? zone with
  | some policy =>
    simp only [Table.get?_insert]
    by_cases heq : other = zone
    · rw [if_pos heq, heq, hpolicy]
      exact .inr rfl
    · rw [if_neg heq]
      exact .inl rfl
  | none =>
    dsimp only
    cases zones.policies.get? other with
    | some policy => exact .inl rfl
    | none => exact .inr rfl

/-- A zone has the same policy when a call is noted. -/
theorem ZoneRegistry.policyFor_note_name (zones : ZoneRegistry) (zone other : ZoneId)
    (call : PolicyCall) :
    ((zones.note zone call).policyFor other).name = (zones.policyFor other).name := by
  rcases zones.policyFor_note zone other call with heq | heq
  · rw [heq]
  · rw [heq]
    rfl

namespace Leg

variable {leg : Leg} {zone : ZoneSummary} {inquiry effects : List Effect}
  {resolution : Resolution CacheKey Bundle} {realm after : Realm} {load : LoadOutcome Bundle}
  {ratification : Ratification}

/-- What a policy is asked during a leg. -/
def ratification? (leg : Leg) : Option Ratification :=
  leg.quest?.bind fun quest =>
    (quest.1.outcome? quest.2.world.cache).bind (leg.request.ratification? · quest.2)

/-- A leg that looks for its zone asks the policy when it is told of the zone. -/
theorem ratification?_of_quest (quest : leg.quest? = some (resolution, realm)) :
    leg.ratification? = (resolution.outcome? realm.world.cache).bind
      (leg.request.ratification? · realm) := by
  rw [ratification?, quest, Option.bind_some]

/-- A leg that has got through to the scene was let into the zone just now, or it was before. -/
theorem Reaches.letIn (reaches : leg.Reaches zone inquiry resolution realm) :
    inquiry.filterMap Effect.ratified? = leg.ratification?.toList ∧
      ((∃ resolution, leg.stage? = some (.resolvingScene zone resolution)) ∧
          leg.ratification? = none ∨
        (∀ zone resolution, leg.stage? ≠ some (.resolvingScene zone resolution)) ∧
          ∃ ratification, leg.ratification? = some ratification ∧ ratification.zone = zone ∧
            ratification.veto = none) := by
  cases reaches with
  | resumes stage =>
    have hnone : leg.ratification? = none := by rw [ratification?, quest?, stage]; rfl
    rw [hnone]
    exact ⟨rfl, .inl ⟨⟨_, stage⟩, rfl⟩⟩
  | @admitted _ realm load quest outcome admitted =>
    have hasked : leg.ratification? = leg.request.ratification? load realm := by
      rw [ratification?_of_quest quest, outcome, Option.bind_some]
    rw [hasked]
    refine ⟨leg.request.ratified_inquiry load realm, .inr ⟨?_, ?_⟩⟩
    · intro zone resolution hstage
      rw [quest?, hstage] at quest
      cases quest
    · obtain ⟨body, hinquiry, -, -, hveto⟩ := MoveRequest.inquiry?_of_admission admitted
      rw [MoveRequest.ratification?, hinquiry]
      exact ⟨_, rfl, rfl, hveto⟩

/-- Nothing else than the admission asks a policy. -/
theorem ratifications_eq (leg : Leg) : leg.ratifications = leg.ratification?.toList := by
  have hending := leg.ending
  rw [ratifications]
  generalize leg.after = after, leg.effects = effects, leg.parked = flight at hending
  cases hending with
  | awaitsZone quest load =>
    rw [ratification?_of_quest quest, load]
    rfl
  | stopped quest outcome refused =>
    rw [List.filterMap_append, MoveRequest.ratified_inquiry, ratification?_of_quest quest, outcome,
      Option.bind_some]
    exact List.append_nil _
  | awaitsScene reaches => exact reaches.letIn.1
  | refused reaches =>
    rw [List.filterMap_append, reaches.letIn.1]
    exact List.append_nil _
  | @entered zone inquiry notices resolution realm load reply world reaches outcome lands noticed
      quiet =>
    have hnotices : notices.filterMap Effect.ratified? = [] := by
      refine List.filterMap_eq_nil_iff.mpr fun effect hmem => ?_
      obtain ⟨_, _, _, rfl⟩ := quiet effect hmem
      rfl
    have hannounced : (Realm.announcement { realm with world := world } leg.request.entity
        zone.zone).filterMap Effect.ratified? = [] := by
      unfold Realm.announcement
      split
      · rfl
      · rfl
    rw [List.filterMap_append, List.filterMap_append, List.filterMap_append, hnotices, hannounced,
      reaches.letIn.1]
    simp only [List.append_nil]
    exact List.append_nil _

/-- A policy is asked when the zone has been resolved. It is the one that the zone is under then. -/
structure Asks (leg : Leg) (ratification : Ratification) : Prop where
  resolved : ∃ resolution realm, leg.quest? = some (resolution, realm) ∧
    resolution.outcome? realm.world.cache = some (.loaded (.zone ratification.zone))
  body : leg.before.world.body? leg.request.entity = some ratification.body
  policy : ratification.policy = (leg.before.zones.policyFor ratification.zone.zone).name
  veto : ratification.veto = (leg.before.ratify ratification.body ratification.zone).1

/-- A leg that asks the policy lets its move in, or stops it with the veto. -/
theorem asks_of_mem (h : ratification ∈ leg.ratifications) :
    leg.Asks ratification ∧ leg.admission? = some (match ratification.veto with
      | some reason => .error (.vetoed reason)
      | none => .ok ratification.zone) := by
  rw [ratifications_eq, Option.mem_toList] at h
  obtain ⟨⟨resolution, realm⟩, hentry, hload⟩ := Option.bind_eq_some_iff.mp h
  obtain ⟨load, houtcome, hasked⟩ := Option.bind_eq_some_iff.mp hload
  obtain ⟨rfl, hbody, hpolicy, hveto, hadmission⟩ :=
    MoveRequest.admission_of_ratification? hasked
  have hrealm := quest_realm hentry
  rw [hrealm] at hbody hpolicy hveto
  refine ⟨⟨⟨resolution, realm, hentry, houtcome⟩, hbody, hpolicy, hveto⟩, ?_⟩
  rw [admission?_of_quest hentry, houtcome, Option.map_some, hadmission]

/-! ## What a leg that enters does -/

/-- A leg that brings its move no success changes no body and tells no policy anything. -/
theorem unentered (h : ∀ reply, .answer leg.request.listener (.success reply) ∉ leg.effects) :
    leg.after.world.bodies = leg.before.world.bodies ∧ leg.entrances = [] := by
  have hending := leg.ending
  rw [entrances]
  generalize leg.after = after, leg.effects = effects, leg.parked = flight at hending h
  cases hending with
  | awaitsZone quest => exact ⟨congrArg (·.world.bodies) (quest_realm quest), rfl⟩
  | @stopped resolution realm load fault quest outcome refused =>
    constructor
    · simp only [MoveRequest.finish, World.foldl_release, MoveRequest.inquire_world]
      exact congrArg (·.world.bodies) (quest_realm quest)
    · rw [List.filterMap_append,
        Effect.entrances_of_ratifies (leg.request.inquiry_ratifies load realm).2]
      rfl
  | awaitsScene reaches =>
    exact ⟨(congrArg World.bodies reaches.world_eq).trans rfl,
      Effect.entrances_of_ratifies reaches.inquiry_ratifies.2⟩
  | refused reaches outcome lands =>
    constructor
    · simp only [MoveRequest.finish, World.foldl_release]
      rw [MoveRequest.land_failure lands]
      exact (congrArg World.bodies reaches.world_eq).trans rfl
    · rw [List.filterMap_append, Effect.entrances_of_ratifies reaches.inquiry_ratifies.2]
      rfl
  | entered =>
    exact absurd (List.mem_append_left _ (List.mem_append_right _ (List.mem_singleton.mpr rfl)))
      (h _)

/-- Between the admission and the entrance of a body, the zone stays under its policy. -/
theorem Reaches.policy_name (reaches : leg.Reaches zone inquiry resolution realm) (id : ZoneId) :
    (realm.zones.policyFor id).name = (leg.before.zones.policyFor id).name := by
  cases reaches with
  | resumes => rfl
  | @admitted _ realm load quest outcome admitted =>
    obtain ⟨body, hinquiry, -⟩ := MoveRequest.inquiry?_of_admission admitted
    have hzones : ((leg.request.inquire load realm).acquire
        (.scene leg.request.target.scene)).2.zones =
          realm.zones.note zone.zone (.ratified body zone (realm.ratify body zone).1) := by
      simp only [Realm.acquire, MoveRequest.inquire, hinquiry, Realm.ratify, Realm.consult]
    rw [hzones, ZoneRegistry.policyFor_note_name, congrArg Realm.zones (quest_realm quest)]

/-- A body that was put into its place is where the reply tells. -/
theorem Reaches.arrives (reaches : leg.Reaches zone inquiry resolution realm)
    (hlabeled : leg.before.world.Labeled) {load : LoadOutcome Bundle} {reply : Reply}
    {world : World} (lands : leg.request.land zone load realm.world = (.success reply, world)) :
    ∃ moved body scene, reply = .moved moved ∧ moved.zone = zone ∧
      world.body? leg.request.entity = some body ∧
      body.location = .inside zone.zone scene moved.place moved.location := by
  obtain ⟨model, rfl, hentry⟩ := MoveRequest.land_success lands
  cases hentry with
  | @entered change _ moved commit told =>
    have hmade : (realm.world.placeFor model).2.Labeled := by
      rw [World.Labeled, (World.sameBodies_placeFor realm.world model).bodies,
        congrArg World.bodies reaches.world_eq]
      exact hlabeled
    obtain ⟨body, host, hbody, -, hlocation⟩ := commit.body_arrived hmade
    obtain ⟨hplace, hzone, -, hspot, -⟩ := told
    refine ⟨moved, body, host.scene, rfl, hzone, hbody, ?_⟩
    rw [hlocation, hplace, hspot]

/-- The arrival of a body is told to the policy that let it in. -/
theorem Reaches.announcement_eq (reaches : leg.Reaches zone inquiry resolution realm)
    {world : World} {body : Body} (hbody : world.body? leg.request.entity = some body) :
    Realm.announcement { realm with world := world } leg.request.entity zone.zone =
      [.consulted (leg.before.zones.policyFor zone.zone).name (.entered body zone.zone)] := by
  rw [← reaches.policy_name]
  simp only [Realm.announcement, hbody]

/-- A leg that brings its move success puts the body where the reply tells. After the move is
answered, the policy of the zone is told, which is the one that let the body in. -/
theorem entered_of_success (hlabeled : leg.before.world.Labeled) {reply : Reply}
    (h : .answer leg.request.listener (.success reply) ∈ leg.effects) :
    ∃ zone inquiry resolution realm moved body scene earlier,
      leg.Reaches zone inquiry resolution realm ∧ reply = .moved moved ∧ moved.zone = zone ∧
        leg.after.world.body? leg.request.entity = some body ∧
        body.location = .inside zone.zone scene moved.place moved.location ∧
        leg.effects = earlier ++ [.answer leg.request.listener (.success reply),
          .consulted (leg.before.zones.policyFor zone.zone).name (.entered body zone.zone)] ∧
        earlier.filterMap Effect.entered? = [] := by
  have hending := leg.ending
  generalize leg.after = after, heffects : leg.effects = effects, leg.parked = flight at hending h
  cases hending with
  | awaitsZone => cases h
  | @stopped resolution realm load =>
    cases answer_eq_of_ratifies (leg.request.inquiry_ratifies load realm).2 h
  | awaitsScene reaches =>
    exact absurd h (answer_not_mem_of_ratifies reaches.inquiry_ratifies.2 _ _)
  | refused reaches => cases answer_eq_of_ratifies reaches.inquiry_ratifies.2 h
  | @entered zone inquiry notices resolution realm load reply' world reaches outcome lands noticed
      quiet =>
    cases answer_eq_of_entered reaches.inquiry_ratifies.2 quiet h
    obtain ⟨moved, body, scene, hreply, hzone, hbody, hlocation⟩ := reaches.arrives hlabeled lands
    refine ⟨zone, inquiry, resolution, realm, moved, body, scene, inquiry ++ notices, reaches,
      hreply, hzone, ?_, hlocation, ?_, ?_⟩
    · rw [World.body?, Realm.bodies_announce, MoveRequest.finish, World.foldl_release]
      exact hbody
    · rw [reaches.announcement_eq hbody]
      simp only [List.append_assoc, List.singleton_append]
    · rw [List.filterMap_append, Effect.entrances_of_ratifies reaches.inquiry_ratifies.2,
        Effect.entrances_of_notices quiet, List.append_nil]

end Leg

/-! ## What is asked along a journey -/

/-- How much was asked for a move that has come so far. -/
def Standing.Asked : Standing → List Ratification → Prop
  | .queued, asked | .waits (.resolvingZone _), asked => asked = []
  | .waits (.resolvingScene zone _), asked =>
    ∃ ratification, asked = [ratification] ∧ ratification.zone = zone ∧ ratification.veto = none
  | .answered, asked => asked.length ≤ 1

namespace Leg

variable {leg : Leg} {zone : ZoneSummary} {inquiry : List Effect}
  {resolution : Resolution CacheKey Bundle} {realm : Realm} {asked : List Ratification}

/-- Nothing was asked for a move that still looks for its zone. -/
theorem asked_of_quest (quest : leg.quest? = some (resolution, realm))
    (h : (leg.stage?.elim Standing.queued Standing.waits).Asked asked) : asked = [] := by
  cases hstage : leg.stage? with
  | none =>
    rw [hstage] at h
    exact h
  | some stage =>
    rw [hstage] at h
    cases stage with
    | resolvingZone => exact h
    | resolvingScene =>
      rw [quest?, hstage] at quest
      cases quest

/-- A move that has got through to its scene was let into its zone once, and nothing else was
asked. -/
theorem Reaches.asked_once (reaches : leg.Reaches zone inquiry resolution realm)
    (h : (leg.stage?.elim Standing.queued Standing.waits).Asked asked) :
    ∃ ratification, asked ++ leg.ratifications = [ratification] ∧ ratification.zone = zone ∧
      ratification.veto = none := by
  rw [ratifications_eq]
  obtain ⟨-, ⟨⟨_, hstage⟩, hnone⟩ | ⟨hstage, ratification, hsome, hzone, hveto⟩⟩ := reaches.letIn
  · rw [hstage] at h
    obtain ⟨ratification, rfl, hzone, hveto⟩ := h
    rw [hnone]
    exact ⟨ratification, rfl, hzone, hveto⟩
  · have hasked : asked = [] := by
      cases hbefore : leg.stage? with
      | none =>
        rw [hbefore] at h
        exact h
      | some stage =>
        rw [hbefore] at h
        cases stage with
        | resolvingZone => exact h
        | resolvingScene => exact absurd hbefore (hstage _ _)
    rw [hasked, hsome]
    exact ⟨ratification, rfl, hzone, hveto⟩

/-- A leg asks no more than there is still to ask. -/
theorem asks (leg : Leg) (h : (leg.stage?.elim Standing.queued Standing.waits).Asked asked) :
    leg.standing.Asked (asked ++ leg.ratifications) := by
  have hending := leg.ending
  generalize leg.after = after, leg.effects = effects, hparked : leg.parked = flight at hending
  have hone : ∀ {zone}, (∃ ratification, asked ++ leg.ratifications = [ratification] ∧
      ratification.zone = zone ∧ ratification.veto = none) →
      (asked ++ leg.ratifications).length ≤ 1 := by
    rintro zone ⟨ratification, hasked, -⟩
    rw [hasked]
    exact Nat.le_refl 1
  cases hending with
  | awaitsZone quest load =>
    rw [standing_of_parked hparked, asked_of_quest quest h, ratifications_eq,
      ratification?_of_quest quest, load]
    rfl
  | stopped quest =>
    rw [standing_of_none hparked, asked_of_quest quest h, ratifications_eq]
    cases leg.ratification? with
    | none => exact Nat.zero_le 1
    | some ratification => exact Nat.le_refl 1
  | awaitsScene reaches =>
    rw [standing_of_parked hparked]
    exact reaches.asked_once h
  | refused reaches =>
    rw [standing_of_none hparked]
    exact hone (reaches.asked_once h)
  | entered reaches =>
    rw [standing_of_none hparked]
    exact hone (reaches.asked_once h)

end Leg

namespace Journey

variable {request : MoveRequest} {legs : List Leg} {standing : Standing}

/-- However often a move is taken on, its zone's policy is asked once at most, and the move gets to
its scene only if it has said yes. -/
theorem asked (h : Journey request legs standing) :
    standing.Asked (legs.flatMap Leg.ratifications) := by
  induction h with
  | unbegun => rfl
  | begins leg mine begins =>
    have hasks : leg.standing.Asked ([] ++ leg.ratifications) := leg.asks (by rw [begins]; rfl)
    rw [List.flatMap_singleton]
    exact hasks
  | resumes before leg mine resumes ih =>
    rw [List.flatMap_append, List.flatMap_singleton]
    exact leg.asks (by rw [resumes]; exact ih)

/-- A policy is asked once at most in the journey of a move. -/
theorem asked_length (h : Journey request legs standing) :
    (legs.flatMap Leg.ratifications).length ≤ 1 := by
  have hasked := h.asked
  cases standing with
  | queued =>
    rw [show legs.flatMap Leg.ratifications = [] from hasked]
    exact Nat.zero_le 1
  | answered => exact hasked
  | waits stage =>
    cases stage with
    | resolvingZone =>
      rw [show legs.flatMap Leg.ratifications = [] from hasked]
      exact Nat.zero_le 1
    | resolvingScene =>
      obtain ⟨ratification, hone, -⟩ := hasked
      rw [hone]
      exact Nat.le_refl 1

/-- A move that has got through to its scene was let into its zone. -/
theorem letIn {leg : Leg} {zone : ZoneSummary} {inquiry : List Effect}
    {resolution : Resolution CacheKey Bundle} {realm : Realm}
    (h : Journey request (legs ++ [leg]) standing)
    (reaches : leg.Reaches zone inquiry resolution realm) :
    ∃ ratification, (legs ++ [leg]).flatMap Leg.ratifications = [ratification] ∧
      ratification.zone = zone ∧ ratification.veto = none := by
  have hasked := reaches.asked_once h.of_concat.1.asked
  rwa [List.flatMap_append, List.flatMap_singleton]

end Journey

/-! ## What a whole move asks and tells -/

/-- The legs are those of a move for which the policies are called as they should be. -/
structure Leg.Disciplined (move : MoveRequest) (legs : List Leg) : Prop where
  /-- A policy is asked once at most. -/
  once : (legs.flatMap Leg.ratifications).length ≤ 1
  /-- It is the policy of the zone that was resolved, at the time when it is asked. -/
  asks : ∀ leg ∈ legs, ∀ ratification ∈ leg.ratifications, leg.Asks ratification
  /-- Bodies change only after the policy has let the body in. -/
  stays : ∀ {earlier leg later}, legs = earlier ++ leg :: later →
    leg.after.world.bodies ≠ leg.before.world.bodies →
    ∃ ratification ∈ (earlier ++ [leg]).flatMap Leg.ratifications, ratification.veto = none
  /-- After a veto nothing was taken from the cache but the zone. -/
  vetoed : ∀ {ratification}, ratification ∈ legs.flatMap Leg.ratifications →
    ratification.veto ≠ none → legs.flatMap Leg.taken = [.zone move.target.zone] ∧
      ∀ leg ∈ legs, leg.after.world.cache =
        leg.returned.foldl Cache.release (leg.taken.foldl Cache.acquire leg.before.world.cache)
  /-- After a success, and not before it, the policy of the zone that let the body in is told, when
  the body is where it was moved to. -/
  tells : ∀ {reply}, .answer move.listener (.success reply) ∈ legs.flatMap Leg.effects →
    ∃ ratification entrance earlier last recorded moved scene,
      legs.flatMap Leg.ratifications = [ratification] ∧ ratification.veto = none ∧
      legs.flatMap Leg.entrances = [entrance] ∧ entrance.zone = ratification.zone.zone ∧
      legs = earlier ++ [last] ∧
      last.effects = recorded ++ [.answer move.listener (.success reply),
        .consulted entrance.policy (.entered entrance.body entrance.zone)] ∧
      entrance.policy = (last.before.zones.policyFor entrance.zone).name ∧
      last.after.world.body? move.entity = some entrance.body ∧
      reply = .moved moved ∧ moved.zone = ratification.zone ∧
      entrance.body.location = .inside entrance.zone scene moved.place moved.location
  /-- Without a success no policy is told anything. -/
  silent : (∀ reply, .answer move.listener (.success reply) ∉ legs.flatMap Leg.effects) →
    legs.flatMap Leg.entrances = []

/-- A leg that is not let into its zone ends its move without success. -/
theorem Leg.parked_of_stopped {leg : Leg} {fault : Fault}
    (h : leg.admission? = some (.error fault)) :
    leg.parked = none ∧ ∀ reply, .answer leg.request.listener (.success reply) ∉ leg.effects := by
  have hending := leg.ending
  generalize leg.after = after, leg.effects = effects, leg.parked = flight at hending
  cases hending with
  | awaitsZone quest load =>
    rw [admission?_of_quest quest, load] at h
    cases h
  | @stopped resolution realm load =>
    refine ⟨rfl, fun reply hmem => ?_⟩
    cases answer_eq_of_ratifies (leg.request.inquiry_ratifies load realm).2 hmem
  | awaitsScene reaches => exact absurd h (reaches.held.2.2 fault)
  | refused reaches => exact absurd h (reaches.held.2.2 fault)
  | entered reaches => exact absurd h (reaches.held.2.2 fault)

/-- The legs before the last one bring their move no success. -/
theorem Leg.unanswered_of_parked {leg : Leg} {flight : Flight} (h : leg.parked = some flight)
    (answer : Answer) : .answer leg.request.listener answer ∉ leg.effects := by
  obtain ⟨inquiry, heffects, -, hratifies⟩ := (traceless_of_parked h).effects
  rw [heffects, List.append_nil]
  exact answer_not_mem_of_ratifies hratifies _ _

namespace Journey

variable {move : MoveRequest} {legs : List Leg} {standing : Standing}

/-- A success is brought by the last leg of a journey. -/
theorem exists_last_of_answer (h : Journey move legs standing) {answer : Answer}
    (hanswer : .answer move.listener answer ∈ legs.flatMap Leg.effects) :
    ∃ earlier last, legs = earlier ++ [last] ∧
      (∀ leg ∈ earlier, ∃ flight, leg.parked = some flight) ∧ last.request = move ∧
      .answer move.listener answer ∈ last.effects := by
  obtain ⟨leg, hmem, hleg⟩ := List.mem_flatMap.mp hanswer
  have hmine := h.mine
  have hparked : leg.parked = none := by
    cases hparked : leg.parked with
    | none => rfl
    | some flight =>
      rw [← hmine leg hmem] at hleg
      exact absurd hleg (Leg.unanswered_of_parked hparked answer)
  obtain ⟨earlier, later, rfl⟩ := List.append_of_mem hmem
  cases h.last_of_answered hparked
  have hbefore := h.of_concat.1.parked
  refine ⟨earlier, leg, rfl, hbefore ?_, hmine leg hmem, hleg⟩
  cases leg.stage? with
  | _ => exact nofun

/-- A move that is turned away has taken nothing from the cache but its zone. -/
theorem stopped (h : Journey move legs standing) {leg : Leg} (hleg : leg ∈ legs) {fault : Fault}
    (hadmission : leg.admission? = some (.error fault)) :
    (∃ earlier, legs = earlier ++ [leg]) ∧ legs.flatMap Leg.taken = [.zone move.target.zone] ∧
      ∀ leg ∈ legs, leg.after.world.cache =
        leg.returned.foldl Cache.release
          (leg.taken.foldl Cache.acquire leg.before.world.cache) := by
  obtain ⟨hparked, hunanswered⟩ := Leg.parked_of_stopped hadmission
  obtain ⟨earlier, later, rfl⟩ := List.append_of_mem hleg
  cases h.last_of_answered hparked
  obtain ⟨hbefore, hmine, rfl⟩ := h.of_concat
  have hwaiting : leg.stage?.elim Standing.queued Standing.waits ≠ .answered := by
    cases leg.stage? with
    | _ => exact nofun
  refine ⟨⟨earlier, rfl⟩, ?_, fun other hother => ?_⟩
  · have hbalance := h.balance.1
    have hreturned : leg.returned = [.zone move.target.zone] := by
      rw [Leg.returned, hparked, hadmission, hmine]
      rfl
    rw [Leg.standing_of_none hparked, Standing.held, List.append_nil, List.flatMap_append,
      List.flatMap_append, hbefore.balance.2 hwaiting, List.flatMap_singleton,
      List.flatMap_singleton, hreturned] at hbalance
    rw [List.flatMap_append, List.flatMap_singleton]
    exact hbalance
  · rcases List.mem_append.mp hother with hold | hlast
    · obtain ⟨flight, hflight⟩ := hbefore.parked hwaiting other hold
      exact (Leg.traceless_of_parked hflight).cache
    · cases List.mem_singleton.mp hlast
      exact Leg.cache_eq hunanswered

/-- However a move travels, the policies are called for it as they should be. -/
theorem disciplined (h : Journey move legs standing)
    (hlabeled : ∀ leg ∈ legs, leg.before.world.Labeled) : Leg.Disciplined move legs where
  once := h.asked_length
  asks leg _ ratification hmem := (Leg.asks_of_mem hmem).1
  stays {earlier leg later} hsplit hbodies := by
    subst hsplit
    have hlegs : earlier ++ leg :: later = (earlier ++ [leg]) ++ later := by
      rw [List.append_assoc, List.singleton_append]
    rw [hlegs] at h
    obtain ⟨_, hjourney⟩ := h.of_append
    obtain ⟨reply, hreply⟩ : ∃ reply,
        .answer leg.request.listener (.success reply) ∈ leg.effects := by
      by_contra hnone
      exact hbodies (Leg.unentered fun reply hmem => hnone ⟨reply, hmem⟩).1
    obtain ⟨zone, inquiry, resolution, realm, moved, body, scene, recorded, reaches, -⟩ :=
      Leg.entered_of_success (hlabeled leg (List.mem_append_right _ List.mem_cons_self)) hreply
    obtain ⟨ratification, hone, -, hveto⟩ := hjourney.letIn reaches
    rw [hone]
    exact ⟨ratification, List.mem_singleton.mpr rfl, hveto⟩
  vetoed {ratification} hmem hveto := by
    obtain ⟨leg, hleg, hasked⟩ := List.mem_flatMap.mp hmem
    obtain ⟨reason, hreason⟩ := Option.ne_none_iff_exists'.mp hveto
    have hadmission := (Leg.asks_of_mem hasked).2
    rw [hreason] at hadmission
    exact (h.stopped hleg hadmission).2
  tells {reply} hmem := by
    obtain ⟨earlier, last, rfl, hwaits, rfl, hanswer⟩ := h.exists_last_of_answer hmem
    obtain ⟨zone, inquiry, resolution, realm, moved, body, scene, recorded, reaches, hreply, hzone,
        hbody, hlocation, heffects, hquiet⟩ :=
      Leg.entered_of_success (hlabeled last (List.mem_append_right _ (List.mem_singleton.mpr rfl)))
        hanswer
    obtain ⟨ratification, hone, rfl, hveto⟩ := h.letIn reaches
    refine ⟨ratification, ⟨_, body, ratification.zone.zone⟩, earlier, last, recorded, moved, scene,
      hone, hveto, ?_, rfl, rfl, heffects, rfl, hbody, hreply, hzone, hlocation⟩
    -- All legs but the last one were parked, and nobody enters anything in a leg that is parked.
    have hearlier : earlier.flatMap Leg.entrances = [] :=
      List.flatMap_eq_nil_iff.mpr fun leg hleg => by
        obtain ⟨flight, hflight⟩ := hwaits leg hleg
        exact (Leg.unentered fun reply => Leg.unanswered_of_parked hflight _).2
    rw [List.flatMap_append, hearlier, List.flatMap_singleton, Leg.entrances, heffects,
      List.filterMap_append, hquiet]
    rfl
  silent hnone := List.flatMap_eq_nil_iff.mpr fun leg hleg => by
    refine (Leg.unentered fun reply hmem => ?_).2
    rw [h.mine leg hleg] at hmem
    exact hnone reply (List.mem_flatMap.mpr ⟨leg, hleg, hmem⟩)

end Journey

namespace Server

/-- What an observation of the effects that sees only calls of policies sees of a run, it sees of
its legs. -/
theorem filterMap_deeds {α : Type} {observe : Effect → Option α} {server : Server}
    (hcalls : ∀ effect : Effect, effect.Uncalled → observe effect = none) (h : server.BuiltIn)
    (hstart : server.deeds = []) (actions : List Action) :
    (server.run actions).deeds.filterMap observe =
      (server.collect legs actions).flatMap fun leg => leg.effects.filterMap observe := by
  induction actions using List.reverseRecOn with
  | nil =>
    change server.deeds.filterMap observe = []
    rw [hstart]
    rfl
  | append_singleton actions action ih =>
    obtain ⟨others, hdeeds, huncalled⟩ := deeds_act (run_builtIn h actions) action
    have hothers : others.filterMap observe = [] :=
      List.filterMap_eq_nil_iff.mpr fun effect hmem => hcalls effect (huncalled effect hmem)
    rw [run_append, collect_append]
    change ((server.run actions).act action).deeds.filterMap observe = _
    rw [hdeeds, List.filterMap_append, ih, List.filterMap_append, hothers, List.nil_append,
      List.flatMap_append]
    simp only [collect, List.append_nil, List.filterMap_flatMap]

/-- Under whatever policies the zones are put meanwhile, every call of a policy is made for a move,
and for each move the policies are called as they should be. -/
theorem run_disciplined (config : ServerConfig) (loader : Loader CacheKey Bundle)
    (actions : List Action) :
    (((Server.new config loader).run actions).deeds.filterMap Effect.ratified? =
        ((Server.new config loader).collect legs actions).flatMap Leg.ratifications ∧
      ((Server.new config loader).run actions).deeds.filterMap Effect.entered? =
        ((Server.new config loader).collect legs actions).flatMap Leg.entrances) ∧
    (∀ leg ∈ (Server.new config loader).collect legs actions,
      ∃ dispatch ∈ (Server.new config loader).collect dispatches actions,
        dispatch.move = some leg.request) ∧
    ∀ dispatch ∈ (Server.new config loader).collect dispatches actions, ∀ move ∈ dispatch.move,
      Leg.Disciplined move (Leg.ofMove move ((Server.new config loader).collect legs actions)) ∧
      ∀ answer, .answer move.listener answer ∈ ((Server.new config loader).run actions).deeds ↔
        .answer move.listener answer ∈
          (Leg.ofMove move ((Server.new config loader).collect legs actions)).flatMap
            Leg.effects := by
  have hbuiltIn := new_builtIn config loader
  have htravels := run_travels config loader actions
  refine ⟨⟨filterMap_deeds ?_ hbuiltIn rfl actions, filterMap_deeds ?_ hbuiltIn rfl actions⟩,
    fun leg hleg => htravels.dispatched hleg, fun dispatch hdispatch move hmove => ?_⟩
  · intro effect huncalled
    cases effect with
    | consulted policy call => exact absurd rfl (huncalled policy call)
    | _ => rfl
  · intro effect huncalled
    cases effect with
    | consulted policy call => exact absurd rfl (huncalled policy call)
    | _ => rfl
  · obtain ⟨standing, hjourney, -⟩ :=
      htravels.journey (run_orderly config loader actions) hdispatch hmove
    refine ⟨hjourney.disciplined fun leg hleg =>
      labeled_of_mem_legs config loader (List.mem_filter.mp hleg).1, fun answer => ⟨?_, ?_⟩⟩
    · intro hanswer
      obtain ⟨-, earlier, last, hsplit, -, -, -, hlast⟩ :=
        exists_last_leg config loader actions hdispatch hmove hanswer
      rw [hsplit]
      exact List.mem_flatMap.mpr
        ⟨last, List.mem_append_right _ (List.mem_singleton.mpr rfl), hlast⟩
    · intro hanswer
      obtain ⟨leg, hleg, heffect⟩ := List.mem_flatMap.mp hanswer
      exact mem_deeds_of_leg hbuiltIn (List.mem_filter.mp hleg).1 heffect

end Server

end SharedWorld
