import SharedWorld.Proofs.Journeys

/-!
# Moves that fail

A move can fail at either of its stages, even after a place was made for it. Whatever it fails by,
nothing is left of it but its answer: bodies and places are as they were, and the references that it
took on its way are given back, each once. `Leg.Traceless` says so of one leg. The references are
balanced leg by leg (`Leg.balance`) and so along a whole journey.
-/

namespace SharedWorld

/-! ## The worlds that legs find -/

/-- A leg keeps the world sound. -/
theorem Leg.keepsSound (leg : Leg) : leg.before.world.KeepsSound leg.after.world := by
  obtain ⟨request, stage?, before⟩ := leg
  cases stage? with
  | none => exact World.keepsSound_bookkeeping.launch request [] before
  | some stage => exact World.keepsSound_bookkeeping.step ⟨request, stage⟩ [] before

namespace Server

variable {server : Server} {action : Action} {leg : Leg}

/-- The legs of an action keep the world sound, those before a leg as well as those after it. -/
theorem keepsSound_of_mem_legs (h : server.BuiltIn) (hleg : leg ∈ server.legs action) :
    server.world.KeepsSound leg.before.world ∧
      leg.after.world.KeepsSound (server.act action).world := by
  obtain ⟨served, -, hpath⟩ := (moves_of_mem_legs hleg).path h
  obtain ⟨hbefore, hafter⟩ := hpath.around
    (R := fun before after => before.world.KeepsSound after.world)
    (fun realm => .refl realm.world) .trans Leg.keepsSound hleg
  exact ⟨(server.world.keepsSound_beside _ _ _).trans hbefore, hafter⟩

/-- As long as no counter has come round, each leg of a run finds a sound world. -/
theorem sound_of_mem_legs (config : ServerConfig) (loader : Loader CacheKey Bundle)
    {actions : List Action} (hleg : leg ∈ (Server.new config loader).collect legs actions)
    (h : ((Server.new config loader).run actions).world.Unwrapped) :
    leg.before.world.Sound ∧ leg.after.world.Unwrapped := by
  obtain ⟨earlier, action, later, rfl, hmem⟩ := exists_action_of_mem_collect hleg
  have hbuiltIn := run_builtIn (new_builtIn config loader) earlier
  obtain ⟨hbefore, hafter⟩ := keepsSound_of_mem_legs hbuiltIn hmem
  have hlater := keepsSound_run ((act_outcome _ action).builtIn hbuiltIn) later
  rw [run_append] at h
  have hunwrapped := hafter.unwrapped (hlater.unwrapped h)
  have hfound := leg.keepsSound.unwrapped hunwrapped
  exact ⟨hbefore.sound (run_sound config loader earlier (hbefore.unwrapped hfound)) hfound,
    hunwrapped⟩

end Server

/-! ## A place that is made in vain -/

namespace World

/-- Finding a place for a scene gives one id out at most. -/
theorem placeIds_placeFor (world : World) (model : SceneModel) :
    (world.placeFor model).2.placeIds = world.placeIds ∨
      (world.placeFor model).2.placeIds = world.placeIds.generate.2 := by
  unfold placeFor
  split
  · exact .inl rfl
  · exact .inr rfl

/-- If nobody enters the place of a scene, it is dropped exactly if it was made just now. Only its
id is used up. -/
theorem Sound.dropIfEmpty_placeFor {world : World} (h : world.Sound) (model : SceneModel)
    (hfresh : (world.placeFor model).2.placeIds.issued < 2 ^ 64) :
    (world.placeFor model).2.dropIfEmpty (world.placeFor model).1 =
      { world with placeIds := (world.placeFor model).2.placeIds } := by
  unfold placeFor at hfresh ⊢
  cases hhost : world.hosts.get? model.scene with
  | some place =>
    obtain ⟨host, hplace, -⟩ := h.houses.host_iff.mp hhost
    have hoccupied := h.houses.occupied hplace List.not_mem_nil
    simp only [dropIfEmpty, hplace, hoccupied, Bool.false_eq_true, if_false]
  | none =>
    simp only [hhost, IdGenerator.generate] at hfresh ⊢
    have hnew : world.places.get? world.placeIds.peek = none := by
      refine Option.eq_none_iff_forall_ne_some.mpr fun host hplace => ?_
      have hissued := h.houses.issued hplace
      rw [IdGenerator.peek_val h.houses.first hfresh] at hissued
      omega
    have hempty : Table.isEmpty (Table.empty : OccupantSet) = true := rfl
    simp only [dropIfEmpty, Table.get?_insert_self, hempty, if_true, Table.erase_insert_self]
    rw [Table.erase_eq_self hnew, Table.erase_eq_self hhost]

end World

/-- A move that could not go into its place used up an id at most. -/
theorem MoveRequest.land_failure_of_sound {request : MoveRequest} {zone : ZoneSummary}
    {load : LoadOutcome Bundle} {fault : Fault} {world after : World} (h : world.Sound)
    (hland : request.land zone load world = (.failure fault, after))
    (hfresh : after.placeIds.issued < 2 ^ 64) :
    after = { world with placeIds := after.placeIds } ∧
      (after.placeIds = world.placeIds ∨ after.placeIds = world.placeIds.generate.2) := by
  rcases land_cases hland with ⟨-, rfl⟩ | ⟨model, -, hentry⟩
  · exact ⟨rfl, .inl rfl⟩
  · cases hentry with
    | unlisted => exact ⟨rfl, .inl rfl⟩
    | @refused error after commit =>
      have hids := commit.sameCounters.placeIds
      have hmade : (world.placeFor model).2.placeIds.issued < 2 ^ 64 := by
        rw [← hids]
        exact hfresh
      have hdropped : after = (world.placeFor model).2.dropIfEmpty (world.placeFor model).1 := by
        cases commit with
        | bodyless => rfl
        | full => rfl
        | placeless gone =>
          obtain ⟨host, hhost, -⟩ := (h.houses.placeFor model hmade).2
          rw [hhost] at gone
          cases gone
      rw [h.dropIfEmpty_placeFor model hmade] at hdropped
      subst hdropped
      exact ⟨rfl, world.placeIds_placeFor model⟩

/-! ## References taken and given back -/

/-- Resolve a key and take a reference on its entry. -/
def Cache.acquire {κ π : Type} [Ord κ] [Std.TransOrd κ] [DecidableEq κ] (cache : Cache κ π)
    (key : κ) : Cache κ π := ((cache.resolve key).2.retain key).2

/-- The keys that a move holds references on, as far as it has come. -/
def Standing.held (request : MoveRequest) : Standing → List CacheKey
  | .waits stage => Flight.held ⟨request, stage⟩
  | .queued | .answered => []

namespace Leg

/-- What a leg learns of its zone, if it waits for the zone and the load is there. -/
def admission? (leg : Leg) : Option (Except Fault ZoneSummary) :=
  leg.quest?.bind fun quest =>
    (quest.1.outcome? quest.2.world.cache).map (leg.request.admission · quest.2)

/-- The keys that a leg resolves and takes a reference on: its zone if it begins the move, and its
scene if it is let into its zone. -/
def taken (leg : Leg) : List CacheKey :=
  (if leg.stage? = none then [.zone leg.request.target.zone] else []) ++
    match leg.admission? with
    | some (.ok _) => [.scene leg.request.target.scene]
    | _ => []

/-- The keys that a leg gives a reference back on, if it answers the move. -/
def returned (leg : Leg) : List CacheKey :=
  if leg.parked.isSome then [] else
    match leg.admission? with
    | some (.error _) => [.zone leg.request.target.zone]
    | _ => leg.request.keys

variable {leg : Leg} {zone : ZoneSummary} {inquiry effects : List Effect}
  {resolution : Resolution CacheKey Bundle} {realm after : Realm} {load : LoadOutcome Bundle}

/-- A leg that looks for its zone holds it, and nothing else yet. -/
theorem quest_cache (quest : leg.quest? = some (resolution, realm)) :
    realm.world.cache = (if leg.stage? = none then [.zone leg.request.target.zone] else
        []).foldl Cache.acquire leg.before.world.cache ∧
      (leg.stage?.elim [] fun stage => Flight.held ⟨leg.request, stage⟩) ++
        (if leg.stage? = none then [.zone leg.request.target.zone] else []) =
          [.zone leg.request.target.zone] := by
  unfold quest? at quest
  cases hstage : leg.stage? with
  | none =>
    simp only [hstage, Option.some.injEq] at quest
    rw [show realm = _ from (congrArg Prod.snd quest).symm]
    exact ⟨rfl, rfl⟩
  | some stage =>
    cases stage with
    | resolvingZone resolution =>
      simp only [hstage, Option.some.injEq] at quest
      rw [show realm = _ from (congrArg Prod.snd quest).symm]
      exact ⟨rfl, rfl⟩
    | resolvingScene => simp only [hstage, reduceCtorEq] at quest

/-- A leg that looks for its zone is let in or stopped when it is told of the zone. -/
theorem admission?_of_quest (quest : leg.quest? = some (resolution, realm)) :
    leg.admission? = (resolution.outcome? realm.world.cache).map
      (leg.request.admission · realm) := by
  rw [admission?, quest, Option.bind_some]

/-- A leg that has got through to the scene holds its zone and its scene, and was not turned
away. -/
theorem Reaches.held (reaches : leg.Reaches zone inquiry resolution realm) :
    realm.world.cache = leg.taken.foldl Cache.acquire leg.before.world.cache ∧
      (leg.stage?.elim [] fun stage => Flight.held ⟨leg.request, stage⟩) ++ leg.taken =
        leg.request.keys ∧ ∀ fault, leg.admission? ≠ some (.error fault) := by
  cases reaches with
  | resumes stage =>
    have hentry : leg.quest? = none := by rw [quest?, stage]
    have hadmission : leg.admission? = none := by rw [admission?, hentry, Option.bind_none]
    rw [taken, hadmission, stage]
    exact ⟨rfl, rfl, fun _ => (Option.some_ne_none _).symm⟩
  | @admitted _ realm load quest outcome admitted =>
    have hadmission : leg.admission? = some (.ok zone) := by
      rw [admission?_of_quest quest, outcome, Option.map_some, admitted]
    obtain ⟨hcache, hheld⟩ := quest_cache quest
    rw [taken, hadmission, List.foldl_append, ← hcache, ← List.append_assoc, hheld]
    refine ⟨?_, rfl, fun fault heq => ?_⟩
    · simp only [Realm.acquire, MoveRequest.inquire_world]
      rfl
    · cases heq

/-- A leg after which its move waits gives nothing back. -/
theorem returned_of_parked {flight : Flight} (h : leg.parked = some flight) :
    leg.returned = [] := by rw [returned, h, Option.isSome_some, if_pos rfl]

/-- A leg that has got through to the scene gives back the zone and the scene. -/
theorem Reaches.returned_eq (reaches : leg.Reaches zone inquiry resolution realm)
    (h : leg.parked = none) : leg.returned = leg.request.keys := by
  obtain ⟨-, -, hadmitted⟩ := reaches.held
  rw [returned, h, Option.isSome_none, if_neg Bool.false_ne_true]
  split
  · exact absurd ‹_› (hadmitted _)
  · rfl

/-- A leg that still waits for its zone takes nothing else. -/
theorem taken_of_waits (quest : leg.quest? = some (resolution, realm))
    (h : resolution.outcome? realm.world.cache = none) :
    leg.taken = if leg.stage? = none then [.zone leg.request.target.zone] else [] := by
  rw [taken, admission?_of_quest quest, h, Option.map_none, List.append_nil]

/-- Neither does a leg that is turned away, and it gives the zone back. -/
theorem taken_of_stopped {fault : Fault} (quest : leg.quest? = some (resolution, realm))
    (outcome : resolution.outcome? realm.world.cache = some load)
    (refused : leg.request.admission load realm = .error fault) :
    leg.taken = (if leg.stage? = none then [.zone leg.request.target.zone] else []) ∧
      (leg.parked = none → leg.returned = [.zone leg.request.target.zone]) := by
  have hadmission : leg.admission? = some (.error fault) := by
    rw [admission?_of_quest quest, outcome, Option.map_some, refused]
  constructor
  · rw [taken, hadmission, List.append_nil]
  · intro h
    rw [returned, hadmission, h, Option.isSome_none, if_neg Bool.false_ne_true]

/-- What a move holds before a leg and what the leg takes is what the leg gives back and what the
move holds then. -/
theorem balance (leg : Leg) :
    (leg.stage?.elim [] fun stage => Flight.held ⟨leg.request, stage⟩) ++ leg.taken =
      leg.returned ++ leg.standing.held leg.request := by
  have hending := leg.ending
  generalize leg.after = after, leg.effects = effects, hparked : leg.parked = flight at hending
  cases hending with
  | awaitsZone quest load =>
    rw [taken_of_waits quest load, (quest_cache quest).2, returned_of_parked hparked,
      standing_of_parked hparked]
    rfl
  | stopped quest outcome refused =>
    obtain ⟨htaken, hreturned⟩ := taken_of_stopped quest outcome refused
    rw [htaken, (quest_cache quest).2, hreturned hparked, standing_of_none hparked]
    rfl
  | awaitsScene reaches load =>
    rw [reaches.held.2.1, returned_of_parked hparked, standing_of_parked hparked]
    rfl
  | refused reaches =>
    rw [reaches.held.2.1, reaches.returned_eq hparked, standing_of_none hparked]
    rfl
  | entered reaches =>
    rw [reaches.held.2.1, reaches.returned_eq hparked, standing_of_none hparked]
    rfl

end Leg

/-- Along its journey a move gives back what it takes, and keeps what it holds. It gives nothing
back before it is answered. -/
theorem Journey.balance {request : MoveRequest} {legs : List Leg} {standing : Standing}
    (h : Journey request legs standing) :
    legs.flatMap Leg.taken = legs.flatMap Leg.returned ++ standing.held request ∧
      (standing ≠ .answered → legs.flatMap Leg.returned = []) := by
  have hnone : ∀ {leg : Leg}, leg.standing ≠ .answered → leg.returned = [] := by
    intro leg hstanding
    cases hparked : leg.parked with
    | some flight => exact Leg.returned_of_parked hparked
    | none => exact absurd (Leg.standing_of_none hparked) hstanding
  induction h with
  | unbegun => exact ⟨rfl, fun _ => rfl⟩
  | begins leg mine begins =>
    have hbalance := leg.balance
    rw [begins, mine] at hbalance
    simp only [List.flatMap_singleton]
    exact ⟨hbalance, hnone⟩
  | @resumes legs stage before leg mine resumes ih =>
    have hbalance := leg.balance
    rw [resumes, mine] at hbalance
    obtain ⟨htaken, hreturned⟩ := ih
    rw [hreturned nofun, List.nil_append] at htaken
    rw [List.flatMap_append, List.flatMap_append, htaken, hreturned nofun]
    simp only [List.flatMap_singleton, List.nil_append]
    exact ⟨hbalance, hnone⟩

/-! ## What is left of a failed move -/

/-- A policy is asked whether a body may enter its zone. -/
def Effect.IsRatification (effect : Effect) : Prop :=
  ∃ policy body zone veto, effect = .consulted policy (.ratified body zone veto)

/-- A policy is asked once at most, and nothing else takes place meanwhile. -/
theorem MoveRequest.inquiry_ratifies (request : MoveRequest) (load : LoadOutcome Bundle)
    (realm : Realm) : (request.inquiry load realm).length ≤ 1 ∧
      ∀ effect ∈ request.inquiry load realm, effect.IsRatification := by
  unfold inquiry
  split
  · exact ⟨Nat.zero_le 1, List.forall_mem_nil _⟩
  · exact ⟨Nat.le_refl 1, fun effect hmem => ⟨_, _, _, _, List.mem_singleton.mp hmem⟩⟩

namespace Leg

/-- A leg leaves nothing behind but the given effects: bodies, places and the tables that lead to
them are as they were, and no change is noted. At most one id of a place is used up, and at most one
policy is asked. In the cache, references are taken and given back, and nothing else is done. -/
structure Traceless (leg : Leg) (effects : List Effect) : Prop where
  bodies : leg.after.world.bodies = leg.before.world.bodies
  entities : leg.after.world.entities = leg.before.world.entities
  entityIds : leg.after.world.entityIds = leg.before.world.entityIds
  places : leg.after.world.places = leg.before.world.places
  hosts : leg.after.world.hosts = leg.before.world.hosts
  changes : leg.after.world.changes = leg.before.world.changes
  placeIds : leg.after.world.placeIds = leg.before.world.placeIds ∨
    leg.after.world.placeIds = leg.before.world.placeIds.generate.2
  effects : ∃ inquiry, leg.effects = inquiry ++ effects ∧ inquiry.length ≤ 1 ∧
    ∀ effect ∈ inquiry, effect.IsRatification
  cache : leg.after.world.cache =
    leg.returned.foldl Cache.release (leg.taken.foldl Cache.acquire leg.before.world.cache)

variable {leg : Leg} {zone : ZoneSummary} {inquiry effects : List Effect}
  {resolution : Resolution CacheKey Bundle} {realm : Realm} {ids : IdGenerator .place}

/-- Until a leg has its scene, a policy is asked once at most, and nothing else takes place. -/
theorem Reaches.inquiry_ratifies (reaches : leg.Reaches zone inquiry resolution realm) :
    inquiry.length ≤ 1 ∧ ∀ effect ∈ inquiry, effect.IsRatification := by
  cases reaches with
  | resumes => exact ⟨Nat.zero_le 1, List.forall_mem_nil _⟩
  | admitted => exact leg.request.inquiry_ratifies _ _

/-- Asking policies answers nobody. -/
theorem answer_not_mem_of_ratifies (h : ∀ effect ∈ inquiry, effect.IsRatification)
    (listener : Listener) (answer : Answer) : .answer listener answer ∉ inquiry := by
  intro hmem
  obtain ⟨_, _, _, _, heq⟩ := h _ hmem
  cases heq

/-- A leg that ends in an answer gives no other. -/
theorem answer_eq_of_ratifies (h : ∀ effect ∈ inquiry, effect.IsRatification)
    {listener : Listener} {answer other : Answer}
    (hmem : .answer listener answer ∈ inquiry ++ [.answer listener other]) : answer = other := by
  have hanswer := (List.mem_append.mp hmem).resolve_left (answer_not_mem_of_ratifies h _ _)
  cases List.mem_singleton.mp hanswer
  rfl

/-- With its reply, a body that was put into its place is announced. Nothing of that answers a move
but the reply. -/
theorem answer_eq_of_entered {notices : List Effect} {entity : EntityId} {id : ZoneId}
    (h : ∀ effect ∈ inquiry, effect.IsRatification) (quiet : ∀ effect ∈ notices, effect.IsNotice)
    {listener : Listener} {answer other : Answer}
    (hmem : .answer listener answer ∈ inquiry ++ notices ++ [.answer listener other] ++
      realm.announcement entity id) : answer = other := by
  simp only [List.mem_append, List.mem_singleton] at hmem
  rcases hmem with ((hasked | hnotice) | hanswer) | hannounced
  · exact absurd hasked (answer_not_mem_of_ratifies h _ _)
  · obtain ⟨_, _, _, heq⟩ := quiet _ hnotice
    cases heq
  · cases hanswer
    rfl
  · unfold Realm.announcement at hannounced
    split at hannounced
    · cases List.mem_singleton.mp hannounced
    · cases hannounced

/-- In the cache, a leg that brings its move no success does nothing but to take references and to
give them back. -/
theorem cache_eq (h : ∀ reply, .answer leg.request.listener (.success reply) ∉ leg.effects) :
    leg.after.world.cache =
      leg.returned.foldl Cache.release (leg.taken.foldl Cache.acquire leg.before.world.cache) := by
  have hending := leg.ending
  generalize leg.after = after, leg.effects = effects, hparked : leg.parked = flight at hending h
  cases hending with
  | awaitsZone quest load =>
    rw [taken_of_waits quest load, returned_of_parked hparked, (quest_cache quest).1]
    rfl
  | stopped quest outcome refused =>
    obtain ⟨htaken, hreturned⟩ := taken_of_stopped quest outcome refused
    rw [htaken, hreturned hparked, ← (quest_cache quest).1]
    simp only [MoveRequest.finish, World.foldl_release, MoveRequest.inquire_world]
    rfl
  | awaitsScene reaches load =>
    rw [returned_of_parked hparked, reaches.held.1]
    rfl
  | refused reaches outcome lands =>
    rw [reaches.returned_eq hparked, ← reaches.held.1]
    simp only [MoveRequest.finish, World.foldl_release]
    rw [MoveRequest.land_failure lands]
    rfl
  | entered reaches outcome lands noticed quiet =>
    exact absurd (List.mem_append_left _ (List.mem_append_right _ (List.mem_singleton.mpr rfl)))
      (h _)

/-- A leg after which the world is as it was, but for the cache, the effects, and the counter of
places, is traceless. -/
theorem Traceless.of_world_eq (inquiry : List Effect) (ids : IdGenerator .place)
    (world : leg.after.world = { leg.before.world with
      cache := leg.after.world.cache, effects := leg.after.world.effects, placeIds := ids })
    (placeIds : ids = leg.before.world.placeIds ∨ ids = leg.before.world.placeIds.generate.2)
    (recorded : leg.effects = inquiry ++ effects)
    (ratifies : inquiry.length ≤ 1 ∧ ∀ effect ∈ inquiry, effect.IsRatification)
    (unentered : ∀ reply, .answer leg.request.listener (.success reply) ∉ effects) :
    leg.Traceless effects where
  bodies := by rw [world]
  entities := by rw [world]
  entityIds := by rw [world]
  places := by rw [world]
  hosts := by rw [world]
  changes := by rw [world]
  placeIds := by rw [world]; exact placeIds
  effects := ⟨inquiry, recorded, ratifies⟩
  cache := cache_eq fun reply hmem => by
    rw [recorded] at hmem
    rcases List.mem_append.mp hmem with hinquiry | hdone
    · exact answer_not_mem_of_ratifies ratifies.2 _ _ hinquiry
    · exact unentered reply hdone

/-- While a move waits, its legs are traceless. -/
theorem traceless_of_parked {flight : Flight} (h : leg.parked = some flight) :
    leg.Traceless [] := by
  have hending := leg.ending
  generalize hafter : leg.after = after, heffects : leg.effects = effects at hending
  rw [h] at hending
  cases hending with
  | awaitsZone quest load =>
    refine .of_world_eq [] _ ?_ (.inl rfl) heffects ⟨Nat.zero_le 1, List.forall_mem_nil _⟩
      fun _ => nofun
    rw [hafter, quest_realm quest]
  | awaitsScene reaches load =>
    refine .of_world_eq effects _ ?_ (.inl rfl) (heffects.trans (List.append_nil _).symm)
      reaches.inquiry_ratifies fun _ => nofun
    rw [hafter, reaches.world_eq]

/-- Whatever a move fails by, the leg is traceless with which it is answered. -/
theorem traceless_of_failure (hsound : leg.before.world.Sound)
    (hfresh : leg.after.world.placeIds.issued < 2 ^ 64) {fault : Fault}
    (h : .answer leg.request.listener (.failure fault) ∈ leg.effects) :
    leg.Traceless [.answer leg.request.listener (.failure fault)] := by
  have hending := leg.ending
  generalize hafter : leg.after = after, heffects : leg.effects = effects,
    leg.parked = flight at hending
  rw [hafter] at hfresh
  rw [heffects] at h
  have hunentered : ∀ reply, .answer leg.request.listener (.success reply) ∉
      [Effect.answer leg.request.listener (.failure fault)] :=
    fun reply hmem => nomatch List.mem_singleton.mp hmem
  cases hending with
  | awaitsZone => cases h
  | awaitsScene reaches =>
    exact absurd h (answer_not_mem_of_ratifies reaches.inquiry_ratifies.2 _ _)
  | @stopped resolution realm load fault' quest outcome refused =>
    have hasked := leg.request.inquiry_ratifies load realm
    cases answer_eq_of_ratifies hasked.2 h
    refine .of_world_eq _ _ ?_ (.inl rfl) heffects hasked hunentered
    rw [hafter]
    simp only [MoveRequest.finish, World.foldl_release, MoveRequest.inquire_world]
    rw [quest_realm quest]
    rfl
  | @refused zone inquiry resolution realm load fault' world reaches outcome lands =>
    have hasked := reaches.inquiry_ratifies
    cases answer_eq_of_ratifies hasked.2 h
    -- The scene may have got a place for this move, which is dropped again. Only its id is spent.
    have hreached := reaches.world_eq
    have hrealm : realm.world.Sound := by
      rw [hreached]
      exact hsound.of_same ⟨rfl, rfl, rfl⟩ ⟨rfl, rfl, rfl⟩
    have hfinished : leg.request.finish { realm with world := world } leg.request.keys
        (.failure fault) = { realm with world := { world with
          cache := leg.request.keys.foldl Cache.release world.cache
          effects := world.effects ++ [.answer leg.request.listener (.failure fault)] } } := by
      simp only [MoveRequest.finish, World.foldl_release, World.record]
    rw [hfinished] at hafter hfresh
    obtain ⟨hworld, hids⟩ := MoveRequest.land_failure_of_sound hrealm lands hfresh
    refine .of_world_eq _ world.placeIds ?_ ?_ heffects hasked hunentered
    · rw [hafter]
      dsimp only
      rw [hworld, hreached]
    · rw [hreached] at hids
      exact hids
  | entered reaches outcome lands noticed quiet =>
    cases answer_eq_of_entered reaches.inquiry_ratifies.2 quiet h

end Leg

/-- The legs are those of a move that failed. None of them leaves anything behind but the answer,
and together they give back what they take. -/
def Leg.InVain (move : MoveRequest) (fault : Fault) (legs : List Leg) : Prop :=
  ∃ earlier last, legs = earlier ++ [last] ∧ (∀ leg ∈ earlier, leg.Traceless []) ∧
    last.Traceless [.answer move.listener (.failure fault)] ∧
    legs.flatMap Leg.taken = legs.flatMap Leg.returned

namespace Server

/-- A failed move leaves no trace, as long as fewer than 2^64 bodies and fewer than 2^64 places were
ever made. -/
theorem failed_move_traceless (config : ServerConfig) (loader : Loader CacheKey Bundle)
    (actions : List Action)
    (hbodies : ((Server.new config loader).run actions).world.entityIds.issued < 2 ^ 64)
    (hplaces : ((Server.new config loader).run actions).world.placeIds.issued < 2 ^ 64)
    {dispatch : Dispatch} {move : MoveRequest} {fault : Fault}
    (hdispatch : dispatch ∈ (Server.new config loader).collect dispatches actions)
    (hmove : dispatch.move = some move)
    (hfailed : .answer move.listener (.failure fault) ∈
      ((Server.new config loader).run actions).deeds) :
    Leg.InVain move fault (Leg.ofMove move ((Server.new config loader).collect legs actions)) := by
  obtain ⟨hjourney, earlier, last, hsplit, hwaits, rfl, -, hanswer⟩ :=
    exists_last_leg config loader actions hdispatch hmove hfailed
  have hlast : last ∈ (Server.new config loader).collect legs actions := by
    have hmem : last ∈ earlier ++ [last] :=
      List.mem_append_right earlier (List.mem_singleton.mpr rfl)
    rw [← hsplit] at hmem
    exact (List.mem_filter.mp hmem).1
  obtain ⟨hsound, hunwrapped⟩ := sound_of_mem_legs config loader hlast ⟨hbodies, hplaces⟩
  refine ⟨earlier, last, hsplit, fun leg hmem => ?_, ?_, ?_⟩
  · obtain ⟨flight, hparked⟩ := hwaits leg hmem
    exact Leg.traceless_of_parked hparked
  · exact Leg.traceless_of_failure hsound hunwrapped.placeIds hanswer
  · have hbalance := hjourney.balance.1
    rwa [Standing.held, List.append_nil] at hbalance

/-- A participant sets out for a scene that takes nobody. -/
def setOut : List Action :=
  [.connect 0 1 ⟨"ada"⟩ none, .follow, .move ⟨"ada"⟩ ⟨1, 1, 1⟩, .serve, .settle, .advance [1],
    .settle, .advance [1]]

/-- The move of the participant. -/
def setOutMove : MoveRequest := ⟨1, ⟨1, 1, 1⟩, 0, ⟨⟨"ada"⟩, 1, 0⟩⟩

end Server

/-- A store that has every zone and, under every id, a scene that takes nobody. -/
def Loader.walledTown : Loader CacheKey Bundle := .immediate fun
  | .zone zone => .loaded (.zone ⟨zone, "town", []⟩)
  | .scene scene => .loaded (.scene ⟨scene, 1, 1, "square", [⟨1, none⟩], some 0, []⟩)

/-- The place that is made for the participant is dropped again. -/
theorem Server.setOut_traceless :
    Leg.InVain setOutMove (.internal "Place 1 is full (0 occupants)")
        (Leg.ofMove setOutMove ((Server.new {} .walledTown).collect legs setOut)) ∧
      ((Server.new {} .walledTown).run setOut).world.placeIds.issued = 1 := by
  have hdispatch : ⟨⟨⟨"ada"⟩, 1, 0⟩, some setOutMove⟩ ∈
      (Server.new {} .walledTown).collect dispatches setOut := List.mem_singleton.mpr rfl
  exact ⟨failed_move_traceless {} .walledTown setOut (by decide +kernel) (by decide +kernel)
    hdispatch rfl (by decide +kernel), by decide +kernel⟩

end SharedWorld
