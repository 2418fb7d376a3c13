import SharedWorld.Proofs.Bookkeeping

/-!
# The world's records agree

Every operation on the world keeps it sound, and so does every action of a server, in any order.
`World.Consistent` spells out what soundness comes to. It is about ids that are handed out once, so
it is kept as long as no counter has come round.
-/

namespace SharedWorld

/-- No counter of the world has come round. -/
structure World.Unwrapped (world : World) : Prop where
  entityIds : world.entityIds.issued < 2 ^ 64
  placeIds : world.placeIds.issued < 2 ^ 64

/-- The later world is sound if the earlier one is and no counter has come round. -/
structure World.KeepsSound (before after : World) : Prop where
  unwrapped : after.Unwrapped → before.Unwrapped
  sound : before.Sound → after.Unwrapped → after.Sound

namespace World

variable {before after world : World} {entity : EntityId}

/-! ## Counters -/

/-- The worlds have handed out the same ids. -/
structure SameCounters (before after : World) : Prop where
  entityIds : after.entityIds = before.entityIds
  placeIds : after.placeIds = before.placeIds

/-- With the same counters, none had come round before. -/
theorem SameCounters.unwrapped (same : before.SameCounters after) (h : after.Unwrapped) :
    before.Unwrapped := by
  have hentities := h.entityIds
  have hplaces := h.placeIds
  rw [same.entityIds] at hentities
  rw [same.placeIds] at hplaces
  exact ⟨hentities, hplaces⟩

/-- Dropping a place gives no place id out. -/
theorem placeIds_dropIfEmpty (world : World) (place : PlaceId) :
    (world.dropIfEmpty place).placeIds = world.placeIds := by
  unfold dropIfEmpty
  split
  · rfl
  · split
    · rfl
    · rfl

/-- Dropping a place gives no id out. -/
theorem sameCounters_dropIfEmpty (world : World) (place : PlaceId) :
    world.SameCounters (world.dropIfEmpty place) :=
  ⟨(sameBodies_dropIfEmpty world place).entityIds, placeIds_dropIfEmpty world place⟩

/-- Clearing out of a place gives no id out. -/
theorem sameCounters_vacate (world : World) (change : BodyChange) :
    world.SameCounters (world.vacate change) := by
  refine ⟨(sameBodies_vacate world change).entityIds, ?_⟩
  rcases world.vacate_cases change with hstays | ⟨zone, scene, place, location, -, hleaves⟩
  · rw [hstays]
  · rw [hleaves, placeIds_dropIfEmpty]
    rfl

/-- Leaving a place gives no id out. -/
theorem LeaveOutcome.sameCounters {change : Option BodyChange}
    (outcome : LeaveOutcome world entity change after) : world.SameCounters after := by
  cases outcome with
  | outside => exact ⟨rfl, rfl⟩
  | leaves =>
    have hvacate := sameCounters_vacate
    exact ⟨(hvacate _ _).entityIds, (hvacate _ _).placeIds⟩

/-- Entering a place that is there gives no id out. -/
theorem CommitOutcome.sameCounters {zone : ZoneId} {place : PlaceId} {location : LocationId}
    {result : Except CommitError BodyChange}
    (outcome : CommitOutcome world entity zone place location result after) :
    world.SameCounters after := by
  cases outcome with
  | bodyless => exact sameCounters_dropIfEmpty world place
  | placeless => exact ⟨rfl, rfl⟩
  | full => exact sameCounters_dropIfEmpty world place
  | shifts =>
    rw [broadcast_eq]
    exact ⟨rfl, rfl⟩
  | enters =>
    rw [broadcast_eq]
    have hvacate := sameCounters_vacate
    exact ⟨(hvacate _ _).entityIds, (hvacate _ _).placeIds⟩

/-- A new status gives no id out. -/
theorem StatusOutcome.sameCounters {identity : Identity} {status : OccupantStatus}
    (outcome : StatusOutcome world identity status after) : world.SameCounters after := by
  cases outcome with
  | same => exact ⟨rfl, rfl⟩
  | alone => exact ⟨rfl, rfl⟩
  | shown =>
    rw [broadcast_eq]
    exact ⟨rfl, rfl⟩

/-- Removing a body gives no id out. -/
theorem RemoveOutcome.sameCounters {identity : Identity}
    (outcome : RemoveOutcome world identity after) : world.SameCounters after := by
  cases outcome with
  | unknown => exact ⟨rfl, rfl⟩
  | removes named leaves => exact ⟨leaves.sameCounters.entityIds, leaves.sameCounters.placeIds⟩

/-! ## What every operation keeps -/

/-- Doing nothing keeps a world sound. -/
theorem KeepsSound.refl (world : World) : world.KeepsSound world := ⟨id, fun h _ => h⟩

/-- A world that is kept sound step by step is kept sound. -/
theorem KeepsSound.trans {middle : World} (first : before.KeepsSound middle)
    (rest : middle.KeepsSound after) : before.KeepsSound after :=
  ⟨fun h => first.unwrapped (rest.unwrapped h),
    fun h hafter => rest.sound (first.sound h (rest.unwrapped hafter)) hafter⟩

/-- A world stays sound while its bodies and places stay the same. -/
theorem keepsSound_of_same (bodies : before.SameBodies after) (places : before.SamePlaces after) :
    before.KeepsSound after := by
  refine ⟨fun h => ⟨?_, ?_⟩, fun h _ => h.of_same bodies places⟩
  · rw [← bodies.entityIds]
    exact h.entityIds
  · rw [← places.placeIds]
    exact h.placeIds

/-- What the world has beside its bodies and places has no part in its soundness. -/
theorem keepsSound_beside (world : World) (cache : Cache CacheKey Bundle)
    (changes : List BodyChange) (effects : List Effect) :
    world.KeepsSound { world with cache := cache, changes := changes, effects := effects } :=
  keepsSound_of_same ⟨rfl, rfl, rfl⟩ ⟨rfl, rfl, rfl⟩

/-- Making a body keeps a world sound. -/
theorem keepsSound_createBody (world : World) (identity : Identity) :
    world.KeepsSound (world.createBody identity).2 where
  unwrapped h := by
    cases hknown : world.entities.get? identity with
    | some entity => rwa [createBody_of_some hknown] at h
    | none =>
      rw [createBody_of_none hknown] at h
      exact ⟨Nat.lt_of_succ_lt h.entityIds, h.placeIds⟩
  sound h hafter := sound_createBody h identity hafter.entityIds

/-- Removing a body keeps a world sound. -/
theorem keepsSound_removeBody (world : World) (identity : Identity) :
    world.KeepsSound (world.removeBody identity).2 :=
  ⟨(removeBody_outcome world identity).sameCounters.unwrapped,
    fun h _ => (removeBody_outcome world identity).sound h⟩

/-- A new status keeps a world sound. -/
theorem keepsSound_setStatus (world : World) (identity : Identity) (status : OccupantStatus) :
    world.KeepsSound (world.setStatus identity status) :=
  ⟨(setStatus_outcome world identity status).sameCounters.unwrapped,
    fun h _ => (setStatus_outcome world identity status).sound h⟩

/-- Leaving a place keeps a world sound. -/
theorem keepsSound_leavePlace (world : World) (entity : EntityId) :
    world.KeepsSound (world.leavePlace entity).2 :=
  ⟨(leavePlace_outcome world entity).sameCounters.unwrapped,
    fun h _ => (leavePlace_outcome world entity).sound h⟩

/-- Finding a place for a scene takes no place id back. -/
theorem issued_le_placeFor (world : World) (model : SceneModel) :
    world.placeIds.issued ≤ (world.placeFor model).2.placeIds.issued := by
  unfold placeFor
  split
  · exact Nat.le_refl _
  · exact Nat.le_succ _

end World

namespace MoveRequest

/-- A move that goes into the place of a scene keeps the world sound, whether the place is there,
is made for it, or takes nobody any more. -/
theorem EntryOutcome.keepsSound {request : MoveRequest} {world after : World} {zone : ZoneSummary}
    {model : SceneModel} {answer : Answer}
    (outcome : EntryOutcome request world zone model answer after) : world.KeepsSound after := by
  suffices h : ∀ {result}, World.CommitOutcome (world.placeFor model).2 request.entity zone.zone
      (world.placeFor model).1 request.target.location result after → world.KeepsSound after by
    cases outcome with
    | unlisted => exact .refl world
    | refused commit => exact h commit
    | entered commit => exact h commit
  intro result commit
  have hmade := World.sameBodies_placeFor world model
  have hcounters := commit.sameCounters
  constructor
  · intro hafter
    have hbefore := hcounters.unwrapped hafter
    refine ⟨?_, Nat.lt_of_le_of_lt (world.issued_le_placeFor model) hbefore.placeIds⟩
    rw [← hmade.entityIds]
    exact hbefore.entityIds
  · intro hsound hafter
    have hhoused := (hsound.houses.placeFor model (hcounters.unwrapped hafter).placeIds).1
    rw [← hmade.stays] at hhoused
    have hregisters := hsound.registers.of_sameNames hmade.sameNames
    exact ⟨commit.houses hregisters.labeled hhoused,
      hregisters.of_sameNames (commit.sameNames hregisters.labeled)⟩

/-- Answering a request and giving references back touches neither bodies nor places. -/
theorem keepsSound_finish (request : MoveRequest) (realm : Realm) (held : List CacheKey)
    (answer : Answer) : realm.world.KeepsSound (request.finish realm held answer).world := by
  rw [finish, World.foldl_release]
  exact realm.world.keepsSound_beside _ _ _

end MoveRequest

/-- Resolving a key keeps the world sound. -/
theorem Realm.keepsSound_acquire (realm : Realm) (key : CacheKey) :
    realm.world.KeepsSound (realm.acquire key).2.world :=
  realm.world.keepsSound_beside _ _ _

/-- Whatever moves are under way, each operation keeps the world sound. -/
theorem World.keepsSound_bookkeeping :
    World.Bookkeeping fun _ _ before after => before.KeepsSound after where
  trans := .trans
  perm world _ := .refl world
  effects world effects := world.keepsSound_beside _ _ effects
  createBody := keepsSound_createBody
  removeBody := keepsSound_removeBody
  setStatus := keepsSound_setStatus
  leavePlace := keepsSound_leavePlace
  enters _ _ _ outcome := outcome.keepsSound
  finish flight realm answer := flight.request.keepsSound_finish realm flight.held answer
  takesZone _ realm := realm.keepsSound_acquire _
  takesScene realm _ _ := realm.keepsSound_acquire _

namespace Server

/-- No action registers a service. -/
theorem ActOutcome.builtIn {server after : Server} {action : Action}
    (outcome : ActOutcome server action after) (h : server.BuiltIn) : after.BuiltIn := by
  cases outcome with
  | serves requests => exact (congrArg Router.services (runRequest_router _ _ _)).trans h
  | _ => exact h

/-- What one action does to the world keeps it sound. -/
theorem ActOutcome.keepsSound {server after : Server} {action : Action}
    (outcome : ActOutcome server action after) (h : server.BuiltIn) :
    server.world.KeepsSound after.world :=
  World.keepsSound_bookkeeping.act outcome h (fun _ => server.world.keepsSound_beside _ _ _)
    (server.world.keepsSound_beside _ _ _) fun _ => server.world.keepsSound_beside _ _ _

/-- Whatever a run does, it keeps the world sound. -/
theorem keepsSound_run {server : Server} (h : server.BuiltIn) (actions : List Action) :
    server.world.KeepsSound (server.run actions).world := by
  induction actions generalizing server with
  | nil => exact .refl server.world
  | cons action actions ih =>
    have houtcome := act_outcome server action
    exact (houtcome.keepsSound h).trans (ih (houtcome.builtIn h))

/-- The services of a server stay the built-in ones. -/
theorem run_builtIn {server : Server} (h : server.BuiltIn) (actions : List Action) :
    (server.run actions).BuiltIn :=
  run_induction (fun server action h => (act_outcome server action).builtIn h) h actions

/-- A new server has the built-in services. -/
theorem new_builtIn (config : ServerConfig) (loader : Loader CacheKey Bundle) :
    (Server.new config loader).BuiltIn := rfl

/-- As long as no counter has come round, every state that a server reaches is sound. -/
theorem run_sound (config : ServerConfig) (loader : Loader CacheKey Bundle)
    (actions : List Action) (h : ((Server.new config loader).run actions).world.Unwrapped) :
    ((Server.new config loader).run actions).world.Sound :=
  (keepsSound_run (new_builtIn config loader) actions).sound
    (World.sound_new config.idleCapacity loader) h

end Server

/-! ## What soundness comes to -/

/-- The records of a world agree. -/
structure World.Consistent (world : World) : Prop where
  /-- A body tells of a place exactly when the place is there and counts it as an occupant. So no
  place has an occupant without a body. -/
  inside_iff : ∀ {entity place},
    (∃ body, world.bodies.get? entity = some body ∧ body.location.place? = some place) ↔
      ∃ host, world.places.get? place = some host ∧ host.occupants.contains entity = true
  /-- No body is an occupant of two places. -/
  one_place : ∀ {entity place place' host host'}, world.places.get? place = some host →
    world.places.get? place' = some host' → host.occupants.contains entity = true →
    host'.occupants.contains entity = true → place = place'
  /-- A place publishes of an occupant what its body tells. -/
  occupant_info : ∀ {entity place host info}, world.places.get? place = some host →
    host.occupants.get? entity = some info →
    ∃ body, world.bodies.get? entity = some body ∧ info = body.occupantInfo
  /-- A body is in the scene of its place. -/
  scene_eq : ∀ {entity body place host}, world.bodies.get? entity = some body →
    body.location.place? = some place → world.places.get? place = some host →
    body.location.scene? = some host.scene
  /-- Scenes lead to their places, and places to their scenes. A scene has one place. -/
  host_iff : ∀ {scene place}, world.hosts.get? scene = some place ↔
    ∃ host, world.places.get? place = some host ∧ host.scene = scene
  /-- A place is kept under its own id. -/
  place_eq : ∀ {place host}, world.places.get? place = some host → host.id = place
  /-- Nobody keeps a place open that has no occupants. -/
  occupied : ∀ {place host}, world.places.get? place = some host →
    0 < host.occupants.size
  /-- No place has more occupants than it takes. -/
  capacity : ∀ {place host bound}, world.places.get? place = some host →
    host.capacity = some bound → host.occupants.size ≤ bound
  /-- Participants lead to their bodies, and bodies to their participants. -/
  entity_iff : ∀ {identity entity}, world.entities.get? identity = some entity ↔
    ∃ body, world.bodies.get? entity = some body ∧ body.identity = identity
  /-- A body is kept under its own entity. -/
  body_eq : ∀ {entity body}, world.bodies.get? entity = some body → body.entity = entity

/-- The records of a sound world agree. -/
theorem World.Sound.consistent {world : World} (h : world.Sound) : world.Consistent where
  inside_iff {entity place} := by
    constructor
    · rintro ⟨body, hbody, hplace⟩
      obtain ⟨host, hhost, -, hin⟩ := h.houses.exists_host hbody hplace
      exact ⟨host, hhost, Table.contains_iff.mpr ⟨_, hin⟩⟩
    · rintro ⟨host, hhost, hin⟩
      obtain ⟨info, hinfo⟩ := Table.contains_iff.mp hin
      obtain ⟨body, hbody, hplace, -⟩ := h.houses.exists_body hhost hinfo
      exact ⟨body, hbody, hplace⟩
  one_place hhost hhost' hin hin' := by
    obtain ⟨info, hinfo⟩ := Table.contains_iff.mp hin
    obtain ⟨info', hinfo'⟩ := Table.contains_iff.mp hin'
    obtain ⟨body, hbody, hplace, -⟩ := h.houses.exists_body hhost hinfo
    obtain ⟨body', hbody', hplace', -⟩ := h.houses.exists_body hhost' hinfo'
    cases hbody.symm.trans hbody'
    exact Option.some.inj (hplace.symm.trans hplace')
  occupant_info hhost hinfo := by
    obtain ⟨body, hbody, -, -, hinfo⟩ := h.houses.exists_body hhost hinfo
    exact ⟨body, hbody, hinfo⟩
  scene_eq hbody hplace hhost := by
    obtain ⟨host, hhost', -, hin⟩ := h.houses.exists_host hbody hplace
    cases hhost.symm.trans hhost'
    obtain ⟨body, hbody', -, hscene, -⟩ := h.houses.exists_body hhost hin
    cases hbody.symm.trans hbody'
    exact hscene
  host_iff := h.houses.host_iff
  place_eq := h.houses.id_eq
  occupied hhost := by
    have hoccupied := h.houses.occupied hhost List.not_mem_nil
    exact List.length_pos_iff.mpr fun hnil => by
      rw [Table.isEmpty, hnil] at hoccupied
      cases hoccupied
  capacity := h.houses.capacity
  entity_iff := h.registers.entity_iff
  body_eq hbody := h.registers.labeled hbody

/-- Whatever happens to a server, the records of its world agree with each other, as long as fewer
than 2^64 bodies and fewer than 2^64 places were ever made. -/
theorem Server.run_consistent (config : ServerConfig) (loader : Loader CacheKey Bundle)
    (actions : List Action)
    (hbodies : ((Server.new config loader).run actions).world.entityIds.issued < 2 ^ 64)
    (hplaces : ((Server.new config loader).run actions).world.placeIds.issued < 2 ^ 64) :
    ((Server.new config loader).run actions).world.Consistent :=
  (run_sound config loader actions ⟨hbodies, hplaces⟩).consistent

/-- In a meeting two bodies and one place are made. -/
theorem Server.meeting_consistent : ((Server.new {} .town).run meeting).world.Consistent :=
  run_consistent {} .town meeting (by decide +kernel) (by decide +kernel)

end SharedWorld
