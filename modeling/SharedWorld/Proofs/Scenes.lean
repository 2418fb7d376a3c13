import SharedWorld.Proofs.Consistency
import SharedWorld.Proofs.Headcounts
import SharedWorld.Proofs.Loads

/-!
# The references on scenes

A scene is referenced once for each occupant of its place and once for each move under way that has
got to its scene. A body that moves within its place stays in its scene, so unlike that of the zones
this account has no exception. A move that goes into a place gives the references of the place it
leaves back before it takes new ones; in between, the scene it goes to is held by the move itself.

So as long as a place is there, the entry of its scene is referenced, and what it was made from
stays (`World.KeepsSceneEntries`). -/

namespace SharedWorld

/-- A scene that is loaded under the key of a scene is that scene. -/
def CacheKey.Names (key : CacheKey) (bundle : Bundle) : Prop :=
  ∀ scene model, key = .scene scene → bundle = .scene model → model.scene = scene

/-- How many bodies are in a scene. -/
def World.attending (world : World) (scene : SceneId) : Nat :=
  world.headcount (·.holds (.scene scene))

/-- Whether a move has got to the given scene. -/
def Flight.awaits (flight : Flight) (scene : SceneId) : Bool :=
  match flight.stage with
  | .resolvingZone _ => false
  | .resolvingScene _ _ => flight.request.target.scene = scene

/-- How many of the moves have got to a scene. -/
def awaiting (flights : List Flight) (scene : SceneId) : Nat := flights.countP (·.awaits scene)

/-- What a move was told of its scene is what the cache holds. -/
def Flight.Informed (cache : Cache CacheKey Bundle) (flight : Flight) : Prop :=
  match flight.stage with
  | .resolvingZone _ => True
  | .resolvingScene _ resolution => cache.Holds (.scene flight.request.target.scene) resolution

/-- The payload under a key is still there, and was not loaded again. -/
structure Cache.Lasts (before after : Cache CacheKey Bundle) (key : CacheKey) : Prop where
  keeps : ∀ {payload}, before.peek? key = some payload → after.peek? key = some payload
  started : after.started.count key = before.started.count key

/-- The entries of scenes that are referenced stay, and what is there is not loaded again. -/
structure Cache.Preserves (before after : Cache CacheKey Bundle) : Prop where
  evolves : ∀ {scene}, 0 < after.refs (.scene scene) → before.Evolves after (.scene scene)
  started : ∀ {key payload}, before.peek? key = some payload →
    after.started.count key = before.started.count key

namespace World

/-- Each reference on a scene belongs to a body that is in the scene, or is one of those that are
held for moves. A scene somebody is in is ready. -/
structure Tallied (held : SceneId → Nat) (world : World) : Prop where
  cache : world.cache.Sound CacheKey.Names
  refs : ∀ scene, world.cache.refs (.scene scene) = world.attending scene + held scene
  ready : ∀ {scene}, 0 < world.attending scene →
    ∃ model, world.cache.peek? (.scene scene) = some (.scene model)

/-- The records of the world agree, its account of the scenes is right when the given moves are
under way, and none of these was told anything wrong. -/
structure Tally (flights : List Flight) (world : World) : Prop where
  sound : world.Sound
  tallied : world.Tallied (awaiting flights)
  informed : ∀ flight ∈ flights, flight.Informed world.cache

/-- No place is made under an id that was given out before, and no place changes its scene. -/
structure KeepsScenes (before after : World) : Prop where
  issued : before.placeIds.issued ≤ after.placeIds.issued
  scene : ∀ {place host'}, after.places.get? place = some host' →
    place.val ≤ before.placeIds.issued →
    ∃ host, before.places.get? place = some host ∧ host'.scene = host.scene

/-- The places that are still there have kept their scenes, and what these were made from. -/
structure KeepsSceneEntries (before after : World) : Prop where
  issued : before.placeIds.issued ≤ after.placeIds.issued
  scene : ∀ {place host'}, after.places.get? place = some host' →
    place.val ≤ before.placeIds.issued →
    ∃ host, before.places.get? place = some host ∧ host'.scene = host.scene ∧
      before.cache.Lasts after.cache (.scene host.scene)

/-- The account of the earlier world with its moves carries over to the later one with its own, and
the places that stay keep their scenes and the entries of these. -/
structure CarriesTally (flights flights' : List Flight) (before after : World) : Prop where
  keeps : before.KeepsSound after
  tally : before.Tally flights → after.Unwrapped → after.Tally flights'
  entries : before.Tally flights → after.Unwrapped → before.KeepsSceneEntries after

end World

/-! ## What is said of the scenes -/

/-- A payload lasts step by step. -/
theorem Cache.Lasts.trans {before middle after : Cache CacheKey Bundle} {key : CacheKey}
    (first : before.Lasts middle key) (rest : middle.Lasts after key) : before.Lasts after key :=
  ⟨fun h => rest.keeps (first.keeps h), rest.started.trans first.started⟩

/-- A cache that starts no load preserves what is referenced. -/
theorem Cache.Preserves.of_started {before after : Cache CacheKey Bundle}
    (hstarted : after.started = before.started)
    (h : ∀ scene, 0 < after.refs (.scene scene) → before.Evolves after (.scene scene)) :
    before.Preserves after :=
  ⟨fun {scene} => h scene, fun _ => by rw [hstarted]⟩

/-- A move that waits for a scene is counted there. -/
theorem awaiting_pos {flights : List Flight} {flight : Flight} {scene : SceneId}
    (hmem : flight ∈ flights) (h : flight.awaits scene = true) : 0 < awaiting flights scene :=
  List.countP_pos_iff.mpr ⟨flight, hmem, h⟩

/-- Each move that waits counts once, at its own scene. -/
theorem awaiting_cons (flight : Flight) (flights : List Flight) (scene : SceneId) :
    awaiting (flight :: flights) scene =
      awaiting flights scene + if flight.awaits scene then 1 else 0 := by
  simp only [awaiting, List.countP_cons]

/-- A move stays informed while the entry of its scene evolves. -/
theorem Flight.Informed.evolves {flight : Flight} {before after : Cache CacheKey Bundle}
    (h : flight.Informed before) (hevolves : flight.awaits flight.request.target.scene = true →
      before.Evolves after (.scene flight.request.target.scene)) : flight.Informed after := by
  obtain ⟨request, stage⟩ := flight
  cases stage with
  | resolvingZone resolution => trivial
  | resolvingScene zone resolution => exact (hevolves (decide_eq_true rfl)).holds h

/-- A location holds a scene just if it is inside of it. -/
theorem BodyLocation.holds_scene_iff {location : BodyLocation} {scene : SceneId} :
    location.holds (.scene scene) = true ↔
      ∃ zone place spot, location = .inside zone scene place spot := by
  cases location with
  | nowhere => simp [holds]
  | vacated zone other => simp [holds]
  | inside zone other place spot => simp [holds, eq_comm]

namespace World

variable {before after world : World} {held held' : SceneId → Nat}
  {flights flights' : List Flight} {scene : SceneId}

/-- Somebody is in the scene of a place. -/
theorem Houses.attending_pos {place : PlaceId} {host : Place} (h : world.Houses world.stays [])
    (hhost : world.places.get? place = some host) : 0 < world.attending host.scene := by
  obtain ⟨entity, info, hinfo⟩ : ∃ entity info, host.occupants.get? entity = some info := by
    by_contra hnone
    have hempty := Table.isEmpty_iff.mpr fun entity => Option.eq_none_iff_forall_ne_some.mpr
      fun info hinfo => hnone ⟨entity, info, hinfo⟩
    rw [h.occupied hhost List.not_mem_nil] at hempty
    cases hempty
  obtain ⟨body, hbody, hplace, hscene, -⟩ := h.exists_body hhost hinfo
  obtain ⟨zone, scene, spot, hlocation⟩ := BodyLocation.place?_eq_some_iff.mp hplace
  rw [hlocation] at hscene
  cases hscene
  refine List.countP_pos_iff.mpr ⟨body, Table.mem_values_iff.mpr ⟨entity, hbody⟩, ?_⟩
  exact BodyLocation.holds_scene_iff.mpr ⟨zone, place, spot, hlocation⟩

/-- The number of occupants of the place of a scene. -/
def occupancy (world : World) (scene : SceneId) : Nat :=
  ((world.host? scene).bind world.place?).elim 0 (·.occupants.size)

/-- Whoever is in a scene is an occupant of its place. -/
theorem Houses.occupancy_eq {place : PlaceId} {host : Place} (h : world.Houses world.stays [])
    (hhost : world.places.get? place = some host) :
    world.occupancy host.scene = host.occupants.size := by
  rw [occupancy, host?, h.host_iff.mpr ⟨host, hhost, rfl⟩, Option.bind_some, place?, hhost]
  rfl

/-- The bodies in a scene are the occupants of its place. -/
theorem Houses.attending_eq (h : world.Houses world.stays []) (scene : SceneId) :
    world.attending scene = world.occupancy scene := by
  cases hplace : world.hosts.get? scene with
  | none =>
    rw [occupancy, host?, hplace]
    refine List.countP_eq_zero.mpr fun body hmem hholds => ?_
    obtain ⟨entity, hbody⟩ := Table.mem_values_iff.mp hmem
    obtain ⟨zone, place, spot, hlocation⟩ := BodyLocation.holds_scene_iff.mp hholds
    have hstay : world.stays entity = some ⟨place, scene, body.occupantInfo⟩ := by
      rw [World.stays, hbody, Option.bind_some, Body.stay?, hlocation]
    obtain ⟨host, hhost, hscene⟩ := h.housed hstay
    rw [h.host_iff.mpr ⟨host, hhost, hscene⟩] at hplace
    cases hplace
  | some place =>
    obtain ⟨host, hhost, rfl⟩ := h.host_iff.mp hplace
    rw [h.occupancy_eq hhost, attending, headcount, Table.size, ← List.length_map (·.1)]
    refine Table.countP_values_eq_length host.occupants.keys_nodup fun entity => ?_
    rw [← Table.keys, Table.mem_keys_iff]
    constructor
    · rintro ⟨info, hinfo⟩
      obtain ⟨body, hbody, hplace, hscene, -⟩ := h.exists_body hhost hinfo
      obtain ⟨zone, scene, spot, hlocation⟩ := BodyLocation.place?_eq_some_iff.mp hplace
      rw [hlocation] at hscene
      cases hscene
      exact ⟨body, hbody, BodyLocation.holds_scene_iff.mpr ⟨zone, place, spot, hlocation⟩⟩
    · rintro ⟨body, hbody, hholds⟩
      obtain ⟨zone, other, spot, hlocation⟩ := BodyLocation.holds_scene_iff.mp hholds
      have hstay : world.stays entity = some ⟨other, host.scene, body.occupantInfo⟩ := by
        rw [World.stays, hbody, Option.bind_some, Body.stay?, hlocation]
      have hsame : other = place :=
        Option.some.inj ((h.host_iff.mpr (h.housed hstay)).symm.trans hplace)
      rw [hsame] at hstay
      exact ⟨body.occupantInfo, (h.occupant_iff hhost).mpr hstay⟩

/-! ## Places that stay -/

/-- No place is new, and none changes its scene. -/
def AddsNoPlace (before after : Table PlaceId Place) : Prop :=
  ∀ ⦃place host'⦄, after.get? place = some host' →
    ∃ host, before.get? place = some host ∧ host'.scene = host.scene

/-- Doing nothing adds no place. -/
theorem AddsNoPlace.refl (places : Table PlaceId Place) : AddsNoPlace places places :=
  fun _ host hhost => ⟨host, hhost, rfl⟩

/-- Where no step adds a place, none is added. -/
theorem AddsNoPlace.trans {before middle after : Table PlaceId Place}
    (first : AddsNoPlace before middle) (rest : AddsNoPlace middle after) :
    AddsNoPlace before after := by
  intro place host'' hhost''
  obtain ⟨host', hhost', hscene'⟩ := rest hhost''
  obtain ⟨host, hhost, hscene⟩ := first hhost'
  exact ⟨host, hhost, hscene'.trans hscene⟩

/-- Changing the occupants of a place adds no place. -/
theorem addsNoPlace_changeOccupants (world : World) (place : PlaceId)
    (f : OccupantSet → OccupantSet) :
    AddsNoPlace world.places (world.changeOccupants place f).places := by
  intro other host' hhost'
  rw [get?_changeOccupants, Option.map_eq_some_iff] at hhost'
  obtain ⟨host, hhost, rfl⟩ := hhost'
  refine ⟨host, hhost, ?_⟩
  split
  · rfl
  · rfl

/-- Dropping a place adds none. -/
theorem addsNoPlace_dropIfEmpty (world : World) (place : PlaceId) :
    AddsNoPlace world.places (world.dropIfEmpty place).places := by
  unfold dropIfEmpty
  split
  · exact .refl _
  · split
    · exact fun _ host hhost => ⟨host, (Table.get?_erase_eq_some_iff.mp hhost).2, rfl⟩
    · exact .refl _

/-- Clearing out of a place adds none. -/
theorem addsNoPlace_vacate (world : World) (change : BodyChange) :
    AddsNoPlace world.places (world.vacate change).places := by
  rcases world.vacate_cases change with hstays | ⟨zone, scene, place, location, -, hleaves⟩
  · rw [hstays]
    exact .refl _
  · have hleft := world.addsNoPlace_changeOccupants place (Table.erase · change.entity)
    rw [hleaves]
    exact hleft.trans (addsNoPlace_dropIfEmpty _ place)

variable {entity : EntityId}

/-- Leaving a place adds none. -/
theorem LeaveOutcome.addsNoPlace {change : Option BodyChange}
    (outcome : LeaveOutcome world entity change after) : AddsNoPlace world.places after.places := by
  cases outcome with
  | outside => exact .refl _
  | @leaves body zone scene place location found inside =>
    exact addsNoPlace_vacate (world.replace (body.movedTo (.vacated zone scene))) _

/-- A new status adds no place. -/
theorem StatusOutcome.addsNoPlace {identity : Identity} {status : OccupantStatus}
    (outcome : StatusOutcome world identity status after) :
    AddsNoPlace world.places after.places := by
  cases outcome with
  | same => exact .refl _
  | alone => exact .refl _
  | @shown entity body place named found inside =>
    rw [broadcast_eq]
    exact addsNoPlace_changeOccupants (world.replace (body.withStatus status)) place
      (OccupantSet.update · (body.withStatus status).occupantInfo)

/-- Removing a body adds no place. -/
theorem RemoveOutcome.addsNoPlace {identity : Identity}
    (outcome : RemoveOutcome world identity after) : AddsNoPlace world.places after.places := by
  cases outcome with
  | unknown => exact .refl _
  | removes named leaves => exact leaves.addsNoPlace

/-- Entering a place that is there adds none. -/
theorem CommitOutcome.addsNoPlace {zone : ZoneId} {place : PlaceId} {location : LocationId}
    {result : Except CommitError BodyChange}
    (outcome : CommitOutcome world entity zone place location result after) :
    AddsNoPlace world.places after.places := by
  cases outcome with
  | bodyless => exact world.addsNoPlace_dropIfEmpty place
  | placeless => exact .refl _
  | full => exact world.addsNoPlace_dropIfEmpty place
  | @shifts body host found hosted here =>
    rw [broadcast_eq]
    exact addsNoPlace_changeOccupants
      (world.replace (body.movedTo (.inside zone host.scene place location))) place
      (OccupantSet.update · (arrival body zone host.scene place location))
  | @enters body host found hosted elsewhere room =>
    rw [broadcast_eq]
    have hvacated := addsNoPlace_vacate
      (world.replace (body.movedTo (.inside zone host.scene place location)))
      (body.changeTo (.inside zone host.scene place location))
    exact hvacated.trans (addsNoPlace_changeOccupants _ place
      (OccupantSet.put · (arrival body zone host.scene place location)))

/-- Places keep their scenes where none is added. -/
theorem keepsScenes_of_addsNoPlace (h : AddsNoPlace before.places after.places)
    (hissued : after.placeIds = before.placeIds) : before.KeepsScenes after :=
  ⟨Nat.le_of_eq (congrArg _ hissued.symm), fun hhost _ => h hhost⟩

/-- Places keep their scenes step by step. -/
theorem KeepsScenes.trans {middle : World} (first : before.KeepsScenes middle)
    (rest : middle.KeepsScenes after) : before.KeepsScenes after := by
  refine ⟨Nat.le_trans first.issued rest.issued, fun hhost'' hold => ?_⟩
  obtain ⟨host', hhost', hscene'⟩ := rest.scene hhost'' (Nat.le_trans hold first.issued)
  obtain ⟨host, hhost, hscene⟩ := first.scene hhost' hold
  exact ⟨host, hhost, hscene'.trans hscene⟩

/-- Places keep their scenes when a body is made. -/
theorem keepsScenes_createBody (world : World) (identity : Identity) :
    world.KeepsScenes (world.createBody identity).2 := by
  unfold createBody
  split
  · exact keepsScenes_of_addsNoPlace (.refl _) rfl
  · exact keepsScenes_of_addsNoPlace (.refl _) rfl

/-- A place that is made is given an id that was not given out before. -/
theorem Houses.keepsScenes_placeFor {stays : EntityId → Option Stay} (h : world.Houses stays [])
    (model : SceneModel) (hfresh : (world.placeFor model).2.placeIds.issued < 2 ^ 64) :
    world.KeepsScenes (world.placeFor model).2 := by
  unfold World.placeFor at hfresh ⊢
  cases hhost : world.hosts.get? model.scene with
  | some place => exact keepsScenes_of_addsNoPlace (.refl _) rfl
  | none =>
    simp only [hhost, IdGenerator.generate] at hfresh ⊢
    refine ⟨Nat.le_succ _, fun {place host'} hhost' hold => ?_⟩
    rcases Table.get?_insert_eq_some_iff.mp hhost' with ⟨rfl, -⟩ | ⟨-, hthere⟩
    · rw [IdGenerator.peek_val h.first hfresh] at hold
      exact absurd hold (Nat.not_succ_le_self _)
    · exact ⟨host', hthere, rfl⟩

/-- Places keep the entries of their scenes step by step. -/
theorem KeepsSceneEntries.trans {middle : World} (first : before.KeepsSceneEntries middle)
    (rest : middle.KeepsSceneEntries after) : before.KeepsSceneEntries after := by
  refine ⟨Nat.le_trans first.issued rest.issued, fun hhost'' hold => ?_⟩
  obtain ⟨host', hhost', hscene', hlasts'⟩ := rest.scene hhost'' (Nat.le_trans hold first.issued)
  obtain ⟨host, hhost, hscene, hlasts⟩ := first.scene hhost' hold
  rw [hscene] at hlasts'
  exact ⟨host, hhost, hscene'.trans hscene, hlasts.trans hlasts'⟩

/-! ## Accounts that are carried over -/

/-- The tally is carried over step by step. -/
theorem CarriesTally.trans {middle : World} {during : List Flight}
    (first : CarriesTally flights during before middle)
    (rest : CarriesTally during flights' middle after) :
    CarriesTally flights flights' before after where
  keeps := first.keeps.trans rest.keeps
  tally h hafter := rest.tally (first.tally h (rest.keeps.unwrapped hafter)) hafter
  entries h hafter :=
    (first.entries h (rest.keeps.unwrapped hafter)).trans
      (rest.entries (first.tally h (rest.keeps.unwrapped hafter)) hafter)

/-- The order in which moves are listed does not matter. -/
theorem carriesTally_perm (world : World) (hperm : flights.Perm flights') :
    CarriesTally flights flights' world world where
  keeps := .refl world
  tally h _ := by
    have hcount : awaiting flights = awaiting flights' := funext fun scene => hperm.countP_eq _
    have htallied := h.tallied
    rw [hcount] at htallied
    exact ⟨h.sound, htallied, fun flight hmem => h.informed flight (hperm.mem_iff.mpr hmem)⟩
  entries _ _ := ⟨Nat.le_refl _, fun {_ host} hhost _ => ⟨host, hhost, rfl, id, rfl⟩⟩

/-- What is done to the account of a world, shown where the account is right. A place that stays has
an occupant, so its scene is referenced. -/
theorem carriesTally_of_tallied (hkeeps : before.KeepsSound after)
    (h : before.Tally flights → after.Unwrapped → before.KeepsScenes after ∧
      after.Tallied (awaiting flights') ∧ before.cache.Preserves after.cache ∧
      ∀ flight ∈ flights', flight ∈ flights ∨ flight.Informed after.cache) :
    CarriesTally flights flights' before after where
  keeps := hkeeps
  tally hbefore hafter := by
    obtain ⟨-, htallied, hpreserves, hinformed⟩ := h hbefore hafter
    refine ⟨hkeeps.sound hbefore.sound hafter, htallied, fun flight hmem => ?_⟩
    rcases hinformed flight hmem with hold | hnew
    · refine (hbefore.informed flight hold).evolves fun hawaits => hpreserves.evolves ?_
      have hpos := awaiting_pos hmem hawaits
      rw [htallied.refs]
      omega
    · exact hnew
  entries hbefore hafter := by
    obtain ⟨hscenes, htallied, hpreserves, -⟩ := h hbefore hafter
    refine ⟨hscenes.issued, fun {place host'} hhost' hold => ?_⟩
    obtain ⟨host, hhost, hscene⟩ := hscenes.scene hhost' hold
    have hthen := hbefore.sound.houses.attending_pos hhost
    have hnow := (hkeeps.sound hbefore.sound hafter).houses.attending_pos hhost'
    obtain ⟨model, hpeek⟩ := hbefore.tallied.ready hthen
    refine ⟨host, hhost, hscene, (hpreserves.evolves ?_).keeps, hpreserves.started hpeek⟩
    rw [htallied.refs, ← hscene]
    omega

/-- An account stays right when references and bodies change together. A scene that somebody comes
into has to be ready. -/
theorem Tallied.step (h : before.Tallied held) (hcache : after.cache.Sound CacheKey.Names)
    (hrefs : ∀ scene, after.cache.refs (.scene scene) = after.attending scene + held' scene)
    (hpreserves : before.cache.Preserves after.cache)
    (hready : ∀ scene, 0 < after.attending scene → 0 < before.attending scene ∨
      ∃ model, before.cache.peek? (.scene scene) = some (.scene model)) :
    after.Tallied held' := by
  refine ⟨hcache, hrefs, fun {scene} hpos => ?_⟩
  obtain ⟨model, hpeek⟩ := (hready scene hpos).elim h.ready id
  refine ⟨model, (hpreserves.evolves ?_).keeps hpeek⟩
  rw [hrefs]
  omega

/-- What touches neither bodies nor places carries the account over, with the references it takes or
gives back. -/
theorem carriesTally_cache (world : World) (cache : Cache CacheKey Bundle)
    (changes : List BodyChange) (effects : List Effect)
    (h : world.Tally flights → cache.Sound CacheKey.Names ∧
      (∀ scene, cache.refs (.scene scene) + awaiting flights scene =
        world.cache.refs (.scene scene) + awaiting flights' scene) ∧
      world.cache.Preserves cache ∧
      ∀ flight ∈ flights', flight ∈ flights ∨ flight.Informed cache) :
    CarriesTally flights flights' world
      { world with cache := cache, changes := changes, effects := effects } := by
  refine carriesTally_of_tallied (world.keepsSound_beside cache changes effects) fun htally _ => ?_
  obtain ⟨hsound, hrefs, hpreserves, hinformed⟩ := h htally
  refine ⟨keepsScenes_of_addsNoPlace (.refl _) rfl, htally.tallied.step hsound (fun scene => ?_)
    hpreserves fun _ hpos => .inl hpos, hpreserves, hinformed⟩
  have hbefore := htally.tallied.refs scene
  have hafter := hrefs scene
  change cache.refs (.scene scene) = world.attending scene + _
  omega

/-- Neither changes nor effects matter to the tally. -/
theorem carriesTally_beside (world : World) (changes : List BodyChange) (effects : List Effect) :
    CarriesTally flights flights world { world with changes := changes, effects := effects } :=
  world.carriesTally_cache world.cache changes effects fun h => ⟨h.tallied.cache, fun _ => rfl,
    .of_started rfl fun _ _ => .refl _ _, fun _ hmem => .inl hmem⟩

/-! ## Operations on bodies -/

variable {change : Option BodyChange}

/-- No load is started when references follow a body. -/
theorem Follows.started (h : Follows change before after)
    (hsound : before.cache.Sound CacheKey.Names) : after.cache.started = before.cache.started := by
  have hleave : ∀ location, (before.cache.leave location).started = before.cache.started := by
    intro location
    cases location with
    | nowhere => rfl
    | vacated zone scene => rfl
    | inside zone scene place spot =>
      have hzone := hsound.release_spares (.zone zone)
      have hscene := (hsound.release (.zone zone)).1.release_spares (.scene scene)
      exact hscene.loads.started.trans hzone.loads.started
  have harrive : ∀ (cache : Cache CacheKey Bundle) location,
      (cache.arrive location).started = cache.started := by
    intro cache location
    cases location with
    | nowhere => rfl
    | vacated zone scene => rfl
    | inside zone scene place spot =>
      exact (Cache.retain_spares _ (.scene scene)).loads.started.trans
        (cache.retain_spares (.zone zone)).loads.started
  rw [h.cache]
  cases change with
  | none => rfl
  | some moved =>
    rw [Option.elim_some, Cache.follow]
    split
    · exact (harrive _ _).trans (hleave _)
    · rfl

/-- An account stays right when a body moves. A body that stays in its place stays in its scene, and
the scene that it comes into has to be one that a move is held for. -/
theorem Tallied.follows (h : before.Tallied held) (hfollows : Follows change before after)
    (hstayed : ∀ moved ∈ change, moved.changedPlace = false → ∀ scene,
      moved.before.holds (.scene scene) = moved.after.holds (.scene scene))
    (hentered : ∀ moved ∈ change, ∀ scene, moved.after.holds (.scene scene) = true →
      0 < held scene ∧ ∃ model, before.cache.peek? (.scene scene) = some (.scene model)) :
    after.Tallied held ∧ before.cache.Preserves after.cache := by
  have hscene : ∀ scene, _ := fun scene => hfollows.refs h.cache (h.refs scene)
    (fun moved hmoved hsame => hstayed moved hmoved hsame scene)
    fun moved hmoved hholds => (hentered moved hmoved scene hholds).1
  have hpreserves : before.cache.Preserves after.cache :=
    .of_started (hfollows.started h.cache) fun scene => (hscene scene).2.1
  refine ⟨h.step (hfollows.sound h.cache) (fun scene => (hscene scene).1) hpreserves
    fun scene hpos => ?_, hpreserves⟩
  rcases (hscene scene).2.2 hpos with hthere | ⟨moved, hmoved, hholds⟩
  · exact .inl hthere
  · exact .inr (hentered moved hmoved scene hholds).2

/-- A body that goes to no other place comes into no scene. -/
theorem carriesTally_of_follows (hkeeps : before.KeepsSound after)
    (hscenes : before.KeepsScenes after)
    (h : before.Sound → after.Unwrapped → ∃ change : Option BodyChange,
      (∀ moved ∈ change, moved.after.place? = none) ∧ Follows change before after) :
    CarriesTally flights flights before after := by
  refine carriesTally_of_tallied hkeeps fun htally hafter => ?_
  obtain ⟨change, houtdoors, hfollows⟩ := h htally.sound hafter
  have hstayed : ∀ moved ∈ change, moved.changedPlace = false → ∀ scene,
      moved.before.holds (.scene scene) = moved.after.holds (.scene scene) := by
    intro moved hmoved hsame scene
    have hafter := houtdoors moved hmoved
    have hbefore : moved.before.place? = none :=
      (not_not.mp (of_decide_eq_false hsame)).trans hafter
    rw [BodyLocation.holds_of_place? hbefore, BodyLocation.holds_of_place? hafter]
  obtain ⟨htallied, hpreserves⟩ := htally.tallied.follows hfollows hstayed
    fun moved hmoved scene hholds => by
      rw [BodyLocation.holds_of_place? (houtdoors moved hmoved)] at hholds
      cases hholds
  exact ⟨hscenes, htallied, hpreserves, fun _ hmem => .inl hmem⟩

/-- Leaving a place carries the tally over. -/
theorem carriesTally_leavePlace (world : World) (entity : EntityId) :
    CarriesTally flights flights world (world.leavePlace entity).2 := by
  have outcome := leavePlace_outcome world entity
  exact carriesTally_of_follows (world.keepsSound_leavePlace entity)
    (keepsScenes_of_addsNoPlace outcome.addsNoPlace outcome.sameCounters.placeIds) fun hsound _ =>
      ⟨_, outcome.outdoors, outcome.follows hsound.registers.labeled hsound.houses⟩

/-- A new status carries the tally over. -/
theorem carriesTally_setStatus (world : World) (identity : Identity) (status : OccupantStatus) :
    CarriesTally flights flights world (world.setStatus identity status) := by
  have outcome := setStatus_outcome world identity status
  exact carriesTally_of_follows (world.keepsSound_setStatus identity status)
    (keepsScenes_of_addsNoPlace outcome.addsNoPlace outcome.sameCounters.placeIds) fun hsound _ =>
      ⟨none, nofun, outcome.follows hsound.registers.labeled⟩

/-- Making a body carries the tally over. -/
theorem carriesTally_createBody (world : World) (identity : Identity) :
    CarriesTally flights flights world (world.createBody identity).2 :=
  carriesTally_of_follows (world.keepsSound_createBody identity)
    (world.keepsScenes_createBody identity) fun hsound hafter =>
      ⟨none, nofun, follows_createBody hsound.registers identity hafter.entityIds⟩

/-- Removing a body carries the tally over. -/
theorem carriesTally_removeBody (world : World) (identity : Identity) :
    CarriesTally flights flights world (world.removeBody identity).2 := by
  have outcome := removeBody_outcome world identity
  exact carriesTally_of_follows (world.keepsSound_removeBody identity)
    (keepsScenes_of_addsNoPlace outcome.addsNoPlace outcome.sameCounters.placeIds) fun hsound _ =>
      outcome.follows hsound

variable {entity : EntityId} {zone : ZoneId} {place : PlaceId} {location : LocationId}
  {result : Except CommitError BodyChange}

/-- Moving a body into the place of a scene that a move is held for keeps the account right. -/
theorem CommitOutcome.tallied {host : Place}
    (outcome : CommitOutcome world entity zone place location result after)
    (hlabeled : world.Labeled) (houses : world.Houses world.stays [place])
    (h : world.Tallied held) (hhost : world.places.get? place = some host)
    (hheld : 0 < held host.scene)
    (hready : ∃ model, world.cache.peek? (.scene host.scene) = some (.scene model)) :
    after.Tallied held ∧ world.cache.Preserves after.cache := by
  have hfollows := outcome.follows hlabeled houses
  cases result with
  | error error => exact h.follows hfollows nofun nofun
  | ok change =>
    obtain ⟨body, host', hbody, hhost', rfl⟩ := outcome.change_eq
    obtain rfl : host = host' := Option.some.inj (hhost.symm.trans hhost')
    refine h.follows hfollows (fun moved hmoved hsame scene => ?_)
      fun moved hmoved scene hholds => ?_
    · obtain rfl := Option.some.inj hmoved
      have hhere : body.location.place? = some place := not_not.mp (of_decide_eq_false hsame)
      obtain ⟨host', hhost', hstay, -⟩ := houses.exists_host hbody hhere
      obtain rfl : host = host' := Option.some.inj (hhost.symm.trans hhost')
      obtain ⟨zone', scene', spot, hlocation⟩ := BodyLocation.place?_eq_some_iff.mp hhere
      rw [World.stays, hbody, Option.bind_some, Body.stay?, hlocation] at hstay
      have hscene : scene' = host.scene := congrArg Stay.scene (Option.some.inj hstay)
      simp [Body.changeTo, hlocation, hscene, BodyLocation.holds]
    · obtain rfl := Option.some.inj hmoved
      obtain ⟨zone', place', spot, hlocation⟩ := BodyLocation.holds_scene_iff.mp hholds
      cases hlocation
      exact ⟨hheld, hready⟩

/-- The references stay counted when a place is found or made for a scene. -/
theorem Tallied.placeFor (h : world.Tallied held) (model : SceneModel) :
    (world.placeFor model).2.Tallied held := by
  have hcache := world.cache_placeFor model
  have hattending : ∀ scene, (world.placeFor model).2.attending scene = world.attending scene :=
    fun scene => (sameBodies_placeFor world model).headcount _
  refine ⟨?_, fun scene => ?_, fun {scene} hpos => ?_⟩
  · rw [hcache]
    exact h.cache
  · rw [hcache, hattending, h.refs]
  · rw [hattending] at hpos
    rw [hcache]
    exact h.ready hpos

end World

/-- Going into the place of a scene carries the account over if one of the moves was told of the
scene. -/
theorem MoveRequest.EntryOutcome.carriesTally {request : MoveRequest} {world after : World}
    {zone : ZoneSummary} {model : SceneModel} {answer : Answer} {flights : List Flight}
    {resolution : Resolution CacheKey Bundle} {loaded : LoadOutcome Bundle}
    (outcome : EntryOutcome request world zone model answer after)
    (hmem : ⟨request, .resolvingScene zone resolution⟩ ∈ flights)
    (hload : resolution.outcome? world.cache = some loaded) (hmodel : loaded.asScene = .ok model) :
    World.CarriesTally flights flights world after := by
  have hkeeps := outcome.keepsSound
  suffices h : ∀ {result}, World.CommitOutcome (world.placeFor model).2 request.entity zone.zone
      (world.placeFor model).1 request.target.location result after →
      World.CarriesTally flights flights world after by
    cases outcome with
    | unlisted => exact world.carriesTally_perm (.refl _)
    | refused commit => exact h commit
    | entered commit => exact h commit
  intro result commit
  refine World.carriesTally_of_tallied hkeeps fun h hunwrapped => ?_
  have hfresh := (commit.sameCounters.unwrapped hunwrapped).placeIds
  have hmade := World.sameBodies_placeFor world model
  obtain ⟨hhoused, host, hhost, hscene⟩ := h.sound.houses.placeFor model hfresh
  rw [← hmade.stays] at hhoused
  -- The scene that was loaded for the move is the one it goes to.
  rw [LoadOutcome.eq_of_asScene hmodel] at hload
  have hpeek := (h.informed _ hmem : world.cache.Holds _ _).peek? hload
  have htarget : host.scene = request.target.scene :=
    hscene.trans (h.tallied.cache.ready_fits hpeek _ _ rfl rfl)
  have hcache := world.cache_placeFor model
  have hpos : 0 < awaiting flights host.scene := by
    rw [htarget]
    exact awaiting_pos hmem (decide_eq_true rfl)
  obtain ⟨htallied, hpreserves⟩ := commit.tallied
    (h.sound.registers.labeled.of_sameNames hmade.sameNames) hhoused (h.tallied.placeFor model)
    hhost hpos ⟨model, by rw [hcache, htarget]; exact hpeek⟩
  rw [hcache] at hpreserves
  exact ⟨(h.sound.houses.keepsScenes_placeFor model hfresh).trans
    (World.keepsScenes_of_addsNoPlace commit.addsNoPlace commit.sameCounters.placeIds),
    htallied, hpreserves, fun _ hmem => .inl hmem⟩

end SharedWorld
