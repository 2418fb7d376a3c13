import SharedWorld.Move.Flight
import SharedWorld.Proofs.Places

/-!
# What the operations on bodies do

An operation on a body ends in one of a few ways, which are listed here with all that is known in
each case. Bodies, places and the tables that lead to them are changed one after the other, and
agree again when the operation is over: `World.Sound` states this in a form that each way can be
shown to keep.
-/

namespace SharedWorld

/-- Every body is kept under its own entity. -/
def World.Labeled (world : World) : Prop :=
  ∀ ⦃entity body⦄, world.bodies.get? entity = some body → body.entity = entity

/-- The bodies are kept under their own entities, and these under their participants' identities. -/
structure World.Registers (world : World) : Prop where
  labeled : world.Labeled
  entity_iff : ∀ {identity entity}, world.entities.get? identity = some entity ↔
    ∃ body, world.bodies.get? entity = some body ∧ body.identity = identity
  issued : ∀ {entity body}, world.bodies.get? entity = some body →
    entity.val ≤ world.entityIds.issued
  first : world.entityIds.first = 1

/-- The places are as the bodies' locations want them, and the bodies are registered. -/
structure World.Sound (world : World) : Prop where
  houses : world.Houses world.stays []
  registers : world.Registers

namespace World

variable {before after : World} {world : World}

/-- The worlds have bodies of the same names, under the same entities. -/
structure SameNames (before after : World) : Prop where
  names : ∀ entity, (after.bodies.get? entity).map (fun body => (body.entity, body.identity)) =
    (before.bodies.get? entity).map fun body => (body.entity, body.identity)
  entities : after.entities = before.entities
  entityIds : after.entityIds = before.entityIds

/-- Bodies that are the same have the same names. -/
theorem SameBodies.sameNames (h : before.SameBodies after) : before.SameNames after :=
  ⟨fun entity => by rw [h.bodies], h.entities, h.entityIds⟩

/-- Names stay the same step by step. -/
theorem SameNames.trans {middle : World} (first : before.SameNames middle)
    (rest : middle.SameNames after) : before.SameNames after :=
  ⟨fun entity => (rest.names entity).trans (first.names entity),
    rest.entities.trans first.entities, rest.entityIds.trans first.entityIds⟩

/-- Replacing a body by one of the same names. -/
theorem Labeled.sameNames_replace (h : world.Labeled) {entity : EntityId} {body : Body}
    (hbody : world.bodies.get? entity = some body) (body' : Body)
    (hentity : body'.entity = body.entity) (hidentity : body'.identity = body.identity) :
    world.SameNames (world.replace body') := by
  refine ⟨fun other => ?_, rfl, rfl⟩
  rw [replace, Table.get?_insert, hentity, h hbody]
  by_cases heq : other = entity
  · rw [if_pos heq, heq, hbody, Option.map_some, Option.map_some, hentity, hidentity, h hbody]
  · rw [if_neg heq]

/-- With the same names, every body was there before, as the body of the same participant. -/
theorem SameNames.exists_body (h : before.SameNames after) {entity : EntityId} {body : Body}
    (hbody : after.bodies.get? entity = some body) :
    ∃ body', before.bodies.get? entity = some body' ∧ body'.entity = body.entity ∧
      body'.identity = body.identity := by
  have hnames := h.names entity
  rw [hbody, Option.map_some, eq_comm, Option.map_eq_some_iff] at hnames
  obtain ⟨body', hbody', hname⟩ := hnames
  exact ⟨body', hbody', congrArg Prod.fst hname, congrArg Prod.snd hname⟩

/-- To have the same names goes both ways. -/
theorem SameNames.symm (h : before.SameNames after) : after.SameNames before :=
  ⟨fun entity => (h.names entity).symm, h.entities.symm, h.entityIds.symm⟩

/-- Bodies stay kept under their own entities while names stay the same. -/
theorem Labeled.of_sameNames (h : before.Labeled) (same : before.SameNames after) :
    after.Labeled := by
  intro entity body hbody
  obtain ⟨body', hbody', hentity, -⟩ := same.exists_body hbody
  rw [← hentity]
  exact h hbody'

/-- The register of entities stays right while names stay the same. -/
theorem Registers.of_sameNames (h : before.Registers) (same : before.SameNames after) :
    after.Registers where
  labeled := h.labeled.of_sameNames same
  entity_iff := by
    intro identity entity
    rw [same.entities]
    refine h.entity_iff.trans ⟨?_, ?_⟩
    · rintro ⟨body, hbody, hidentity⟩
      obtain ⟨body', hbody', -, hsame⟩ := same.symm.exists_body hbody
      exact ⟨body', hbody', hsame.trans hidentity⟩
    · rintro ⟨body, hbody, hidentity⟩
      obtain ⟨body', hbody', -, hsame⟩ := same.exists_body hbody
      exact ⟨body', hbody', hsame.trans hidentity⟩
  issued hbody := by
    obtain ⟨body', hbody', -⟩ := same.exists_body hbody
    rw [same.entityIds]
    exact h.issued hbody'
  first := by rw [same.entityIds]; exact h.first

/-- A world is sound if its bodies and places are those of a sound one. -/
theorem Sound.of_same (h : before.Sound) (bodies : before.SameBodies after)
    (places : before.SamePlaces after) : after.Sound where
  houses := h.houses.of_stays places bodies.stays
  registers := h.registers.of_sameNames bodies.sameNames

/-- A new world is sound. -/
theorem sound_new (idleCapacity : Nat) (loader : Loader CacheKey Bundle) :
    (World.new idleCapacity loader).Sound where
  houses := .new idleCapacity loader
  registers := ⟨nofun, ⟨nofun, fun ⟨_, h, _⟩ => nomatch h⟩, nofun, rfl⟩

/-! ## How the operations on bodies end -/

/-- How taking a body out of its place ends. -/
inductive LeaveOutcome (world : World) (entity : EntityId) : Option BodyChange → World → Prop where
  /-- The body is in no place, or there is none. -/
  | outside (nowhere : world.stays entity = none) : LeaveOutcome world entity none world
  /-- The body keeps its zone and its scene. -/
  | leaves {body : Body} {zone : ZoneId} {scene : SceneId} {place : PlaceId}
      {location : LocationId} (found : world.bodies.get? entity = some body)
      (inside : body.location = .inside zone scene place location) :
    LeaveOutcome world entity (some (body.changeTo (.vacated zone scene)))
      (((world.replace (body.movedTo (.vacated zone scene))).vacate
        (body.changeTo (.vacated zone scene))).note (body.changeTo (.vacated zone scene)))

/-- What becomes of a body that is to leave its place is one of the outcomes. -/
theorem leavePlace_outcome (world : World) (entity : EntityId) :
    LeaveOutcome world entity (world.leavePlace entity).1 (world.leavePlace entity).2 := by
  unfold leavePlace
  cases hbody : world.bodies.get? entity with
  | none => exact .outside (by rw [stays, hbody]; rfl)
  | some body =>
    dsimp only
    cases hlocation : body.location with
    | nowhere => exact .outside (by rw [stays, hbody, Option.bind_some, Body.stay?, hlocation])
    | vacated zone scene =>
      exact .outside (by rw [stays, hbody, Option.bind_some, Body.stay?, hlocation])
    | inside zone scene place location => exact .leaves hbody hlocation

/-- What a body's place publishes of it after it was moved there. -/
def arrival (body : Body) (zone : ZoneId) (scene : SceneId) (place : PlaceId)
    (location : LocationId) : OccupantInfo :=
  (body.movedTo (.inside zone scene place location)).occupantInfo

/-- How moving a body into a place ends. -/
inductive CommitOutcome (world : World) (entity : EntityId) (zone : ZoneId) (place : PlaceId)
    (location : LocationId) : Except CommitError BodyChange → World → Prop where
  /-- The body is gone. -/
  | bodyless (gone : world.bodies.get? entity = none) :
    CommitOutcome world entity zone place location (.error (.noSuchBody entity))
      (world.dropIfEmpty place)
  /-- The place is gone. -/
  | placeless (gone : world.places.get? place = none) :
    CommitOutcome world entity zone place location (.error (.noSuchPlace place)) world
  /-- The place takes no further occupant. -/
  | full {host : Place} (hosted : world.places.get? place = some host) :
    CommitOutcome world entity zone place location
      (.error (.placeFull place (host.capacity.getD 0))) (world.dropIfEmpty place)
  /-- The body is in the place already, and moves to another location of it. -/
  | shifts {body : Body} {host : Place} (found : world.bodies.get? entity = some body)
      (hosted : world.places.get? place = some host) (here : body.location.place? = some place) :
    CommitOutcome world entity zone place location
      (.ok (body.changeTo (.inside zone host.scene place location)))
      ((((world.replace
          (body.movedTo (.inside zone host.scene place location))).changeOccupants place
        (OccupantSet.update · (arrival body zone host.scene place location))).broadcast place
          (.updated (arrival body zone host.scene place location)) none).note
            (body.changeTo (.inside zone host.scene place location)))
  /-- The body leaves the place it is in, if any, and is put into the new one. -/
  | enters {body : Body} {host : Place} (found : world.bodies.get? entity = some body)
      (hosted : world.places.get? place = some host)
      (elsewhere : body.location.place? ≠ some place) (room : host.isFull = false) :
    CommitOutcome world entity zone place location
      (.ok (body.changeTo (.inside zone host.scene place location)))
      (((((((world.replace (body.movedTo (.inside zone host.scene place location))).vacate
        (body.changeTo (.inside zone host.scene place location))).changeOccupants place
          (OccupantSet.put · (arrival body zone host.scene place location))).retain
            (.zone zone)).retain (.scene host.scene)).broadcast place
              (.added (arrival body zone host.scene place location)) none).note
                (body.changeTo (.inside zone host.scene place location)))

/-- What becomes of a body that is to enter a place is one of the outcomes. -/
theorem commitMove_outcome (world : World) (entity : EntityId) (zone : ZoneId) (place : PlaceId)
    (location : LocationId) :
    CommitOutcome world entity zone place location
      (world.commitMove entity zone place location).1
      (world.commitMove entity zone place location).2 := by
  unfold commitMove
  cases hbody : world.bodies.get? entity with
  | none => exact .bodyless hbody
  | some body =>
    cases hhost : world.places.get? place with
    | none => exact .placeless hhost
    | some host =>
      dsimp only
      by_cases hhere : body.location.place? = some place
      · simp only [if_pos hhere]
        exact .shifts hbody hhost hhere
      · simp only [if_neg hhere]
        cases hroom : host.isFull with
        | true => exact .full hhost
        | false => exact .enters hbody hhost hhere hroom

/-! ## Operations on bodies -/

variable {entity : EntityId} {body : Body}

/-- A body in a place is an occupant of the place, which publishes what the body tells. -/
theorem Houses.exists_host {spare : List PlaceId} {place : PlaceId}
    (h : world.Houses world.stays spare) (hbody : world.bodies.get? entity = some body)
    (hplace : body.location.place? = some place) :
    ∃ host, world.places.get? place = some host ∧
      world.stays entity = some ⟨place, host.scene, body.occupantInfo⟩ ∧
      host.occupants.get? entity = some body.occupantInfo := by
  cases hlocation : body.location with
  | nowhere => rw [hlocation] at hplace; cases hplace
  | vacated zone scene => rw [hlocation] at hplace; cases hplace
  | inside zone scene before location =>
    rw [hlocation] at hplace
    cases hplace
    have hstay : world.stays entity = some ⟨place, scene, body.occupantInfo⟩ := by
      rw [World.stays, hbody, Option.bind_some, Body.stay?, hlocation]
    obtain ⟨host, hhost, hscene⟩ := h.housed hstay
    change host.scene = scene at hscene
    subst hscene
    exact ⟨host, hhost, hstay, (h.occupant_iff hhost).mpr hstay⟩

/-- An occupant of a place has a body, which is in the place and tells what the place publishes. -/
theorem Houses.exists_body {spare : List PlaceId} {place : PlaceId} {host : Place}
    {info : OccupantInfo} (h : world.Houses world.stays spare)
    (hhost : world.places.get? place = some host)
    (hinfo : host.occupants.get? entity = some info) :
    ∃ body, world.bodies.get? entity = some body ∧ body.location.place? = some place ∧
      body.location.scene? = some host.scene ∧ info = body.occupantInfo := by
  obtain ⟨body, hbody, hstay⟩ := Option.bind_eq_some_iff.mp ((h.occupant_iff hhost).mp hinfo)
  refine ⟨body, hbody, ?_⟩
  unfold Body.stay? at hstay
  cases hlocation : body.location with
  | nowhere => rw [hlocation] at hstay; cases hstay
  | vacated zone scene => rw [hlocation] at hstay; cases hstay
  | inside zone scene before location =>
    rw [hlocation] at hstay
    cases hstay
    exact ⟨rfl, rfl, rfl⟩

/-- Taking a body out of its place renames no body. -/
theorem LeaveOutcome.sameNames {change : Option BodyChange}
    (outcome : LeaveOutcome world entity change after) (h : world.Labeled) :
    world.SameNames after := by
  cases outcome with
  | outside => exact ⟨fun _ => rfl, rfl, rfl⟩
  | @leaves body zone scene place location found inside =>
    have hrelocate := h.sameNames_replace found (body.movedTo (.vacated zone scene)) rfl rfl
    have hnames := hrelocate.trans
      (sameBodies_vacate _ (body.changeTo (.vacated zone scene))).sameNames
    exact ⟨hnames.names, hnames.entities, hnames.entityIds⟩

/-- A body that is taken out of its place stays nowhere. -/
theorem LeaveOutcome.stays {change : Option BodyChange}
    (outcome : LeaveOutcome world entity change after) (h : world.Labeled) :
    after.stays = Function.update world.stays entity none := by
  cases outcome with
  | outside nowhere => rw [Function.update_eq_self_iff.mpr nowhere.symm]
  | @leaves body zone scene place location found inside =>
    have hvacate := (sameBodies_vacate (world.replace (body.movedTo (.vacated zone scene)))
      (body.changeTo (.vacated zone scene))).stays
    rw [stays_replace] at hvacate
    rw [← h found]
    exact hvacate

/-- When a body has left, every place holds just those who stay in it. -/
theorem LeaveOutcome.houses {change : Option BodyChange}
    (outcome : LeaveOutcome world entity change after) (h : world.Labeled)
    (houses : world.Houses world.stays []) : after.Houses after.stays [] := by
  rw [outcome.stays h]
  cases outcome with
  | outside nowhere => rwa [Function.update_eq_self_iff.mpr nowhere.symm]
  | @leaves body zone scene place location found inside =>
    have hrelocated : (world.replace (body.movedTo (.vacated zone scene))).Houses world.stays [] :=
      houses.of_same ⟨rfl, rfl, rfl⟩
    have hbefore : (world.stays (body.changeTo (.vacated zone scene)).entity).map Stay.place =
        (body.changeTo (.vacated zone scene)).before.place? := by
      simp only [Body.changeTo, h found, World.stays, found, Option.bind_some,
        Body.stay?_place]
    have hvacated := hrelocated.vacate _ hbefore
    simp only [Body.changeTo, h found] at hvacated ⊢
    exact hvacated.of_same ⟨rfl, rfl, rfl⟩

/-- A world stays sound when a body leaves its place. -/
theorem LeaveOutcome.sound {change : Option BodyChange}
    (outcome : LeaveOutcome world entity change after) (h : world.Sound) : after.Sound where
  houses := outcome.houses h.registers.labeled h.houses
  registers := h.registers.of_sameNames (outcome.sameNames h.registers.labeled)

/-- Moving a body renames no body. -/
theorem CommitOutcome.sameNames {zone : ZoneId} {place : PlaceId} {location : LocationId}
    {result : Except CommitError BodyChange}
    (outcome : CommitOutcome world entity zone place location result after)
    (h : world.Labeled) : world.SameNames after := by
  cases outcome with
  | bodyless => exact (sameBodies_dropIfEmpty world place).sameNames
  | placeless => exact ⟨fun _ => rfl, rfl, rfl⟩
  | full => exact (sameBodies_dropIfEmpty world place).sameNames
  | @shifts body host found hosted here =>
    rw [broadcast_eq]
    have hnames := h.sameNames_replace found
      (body.movedTo (.inside zone host.scene place location)) rfl rfl
    exact ⟨hnames.names, hnames.entities, hnames.entityIds⟩
  | @enters body host found hosted elsewhere room =>
    rw [broadcast_eq]
    have hrelocate := h.sameNames_replace found
      (body.movedTo (.inside zone host.scene place location)) rfl rfl
    have hnames := hrelocate.trans (sameBodies_vacate _
      (body.changeTo (.inside zone host.scene place location))).sameNames
    exact ⟨hnames.names, hnames.entities, hnames.entityIds⟩

/-- Dropping an empty place leaves the other places as they are. -/
theorem get?_dropIfEmpty_of_ne (world : World) {place other : PlaceId} (hne : other ≠ place) :
    (world.dropIfEmpty place).places.get? other = world.places.get? other := by
  have herased : (world.places.erase place).get? other = world.places.get? other := by
    rw [Table.get?_erase, if_neg hne]
  unfold dropIfEmpty
  split
  · rfl
  · split
    · exact herased
    · rfl

/-- Undoing a stay leaves the other places as they are. -/
theorem get?_vacate_of_ne (world : World) (change : BodyChange) {place : PlaceId}
    (hplace : change.before.place? ≠ some place) :
    (world.vacate change).places.get? place = world.places.get? place := by
  rcases world.vacate_cases change with hstays | ⟨zone, scene, before, location, hbefore, hleaves⟩
  · rw [hstays]
  · have hne : place ≠ before := by
      rintro rfl
      exact hplace (by rw [hbefore]; rfl)
    have hothers := world.get?_changeOccupants before place (Table.erase · change.entity)
    simp only [if_neg hne, Option.map_id'] at hothers
    rw [hleaves, get?_dropIfEmpty_of_ne _ hne]
    exact hothers

/-- Moving a body keeps the places as the bodies want them. The place it is moved to may have been
empty before. -/
theorem CommitOutcome.houses {zone : ZoneId} {place : PlaceId} {location : LocationId}
    {result : Except CommitError BodyChange}
    (outcome : CommitOutcome world entity zone place location result after) (h : world.Labeled)
    (houses : world.Houses world.stays [place]) : after.Houses after.stays [] := by
  cases outcome with
  | bodyless =>
    rw [(sameBodies_dropIfEmpty world place).stays]
    exact houses.dropIfEmpty
  | placeless gone =>
    refine houses.weaken fun hhost hmem => ?_
    rw [List.mem_singleton.mp hmem, gone] at hhost
    cases hhost
  | full =>
    rw [(sameBodies_dropIfEmpty world place).stays]
    exact houses.dropIfEmpty
  | @shifts body host found hosted here =>
    obtain ⟨host', hhost', hstay, hin⟩ := houses.exists_host found here
    cases hosted.symm.trans hhost'
    rw [← h found] at hstay hin
    have hrelocated : (world.replace (body.movedTo (.inside zone host.scene place location))).Houses
        world.stays [place] := houses.of_same ⟨rfl, rfl, rfl⟩
    have hput := hrelocated.put (arrival body zone host.scene place location) hosted
      (.inr ⟨body.occupantInfo, hstay⟩)
    rw [← changeOccupants_update
      (world.replace (body.movedTo (.inside zone host.scene place location)))
      (arrival body zone host.scene place location) hosted
      (Table.contains_iff.mpr ⟨_, hin⟩)] at hput
    rw [broadcast_eq]
    exact hput.of_stays ⟨rfl, rfl, rfl⟩ (stays_replace world _)
  | @enters body host found hosted elsewhere room =>
    have hrelocated : (world.replace (body.movedTo (.inside zone host.scene place location))).Houses
        world.stays [place] := houses.of_same ⟨rfl, rfl, rfl⟩
    have hbefore : (world.stays body.entity).map Stay.place = body.location.place? := by
      rw [World.stays, h found, found, Option.bind_some, Body.stay?_place]
    have hvacated := hrelocated.vacate
      (body.changeTo (.inside zone host.scene place location)) hbefore
    have hhost := (get?_vacate_of_ne
      (world.replace (body.movedTo (.inside zone host.scene place location)))
      (body.changeTo (.inside zone host.scene place location)) elsewhere).trans hosted
    have hput := hvacated.put (arrival body zone host.scene place location) hhost
      (.inl ⟨Function.update_self _ _ _, room⟩)
    rw [broadcast_eq]
    refine hput.of_stays ⟨rfl, rfl, rfl⟩ ?_
    refine ((sameBodies_vacate _ _).stays.trans (stays_replace world _)).trans ?_
    exact (Function.update_idem _ _ _).symm

/-- How marking a body ends. -/
inductive StatusOutcome (world : World) (identity : Identity) (status : OccupantStatus) :
    World → Prop where
  /-- There is no body, or it is marked so already. -/
  | same : StatusOutcome world identity status world
  /-- The body is in no place. -/
  | alone {entity : EntityId} {body : Body} (named : world.entities.get? identity = some entity)
      (found : world.bodies.get? entity = some body) (outside : body.location.place? = none) :
    StatusOutcome world identity status (world.replace (body.withStatus status))
  /-- The place of the body is told. -/
  | shown {entity : EntityId} {body : Body} {place : PlaceId}
      (named : world.entities.get? identity = some entity)
      (found : world.bodies.get? entity = some body)
      (inside : body.location.place? = some place) :
    StatusOutcome world identity status
      (((world.replace (body.withStatus status)).changeOccupants place
        (OccupantSet.update · (body.withStatus status).occupantInfo)).broadcast place
          (.updated (body.withStatus status).occupantInfo) none)

/-- What becomes of a body that is to get a status is one of the outcomes. -/
theorem setStatus_outcome (world : World) (identity : Identity) (status : OccupantStatus) :
    StatusOutcome world identity status (world.setStatus identity status) := by
  unfold setStatus bodyFor? entityFor? body?
  cases hnamed : world.entities.get? identity with
  | none => exact .same
  | some entity =>
    simp only [Option.bind_some]
    cases hbody : world.bodies.get? entity with
    | none => exact .same
    | some body =>
      dsimp only
      split
      · exact .same
      · cases hplace : body.location.place? with
        | none => exact .alone hnamed hbody hplace
        | some place => exact .shown hnamed hbody hplace

/-- A new status changes no name. -/
theorem StatusOutcome.sameNames {identity : Identity} {status : OccupantStatus}
    (outcome : StatusOutcome world identity status after) (h : world.Labeled) :
    world.SameNames after := by
  cases outcome with
  | same => exact ⟨fun _ => rfl, rfl, rfl⟩
  | @alone entity body named found outside =>
    exact h.sameNames_replace found (body.withStatus status) rfl rfl
  | @shown entity body place named found inside =>
    rw [broadcast_eq]
    have hnames := h.sameNames_replace found (body.withStatus status) rfl rfl
    exact ⟨hnames.names, hnames.entities, hnames.entityIds⟩

/-- With a new status, every place holds just those who stay in it, as they are. -/
theorem StatusOutcome.houses {identity : Identity} {status : OccupantStatus}
    (outcome : StatusOutcome world identity status after) (h : world.Labeled)
    (houses : world.Houses world.stays []) : after.Houses after.stays [] := by
  cases outcome with
  | same => exact houses
  | @alone entity body named found outside =>
    have hstay : world.stays body.entity = none := by
      rw [h found, World.stays, found, Option.bind_some]
      exact Option.map_eq_none_iff.mp (body.stay?_place.trans outside)
    have hmarked : (body.withStatus status).stay? = none :=
      Option.map_eq_none_iff.mp ((body.withStatus status).stay?_place.trans outside)
    refine houses.of_stays ⟨rfl, rfl, rfl⟩ ((stays_replace world _).trans ?_)
    rw [hmarked]
    exact Function.update_eq_self_iff.mpr hstay.symm
  | @shown entity body place named found inside =>
    obtain ⟨host, hosted, hstay, hin⟩ := houses.exists_host found inside
    rw [← h found] at hstay hin
    have hmarked : (world.replace (body.withStatus status)).Houses world.stays [place] :=
      (houses.sparing [place]).of_same ⟨rfl, rfl, rfl⟩
    have hput := hmarked.put (body.withStatus status).occupantInfo hosted
      (.inr ⟨body.occupantInfo, hstay⟩)
    rw [← changeOccupants_update (world.replace (body.withStatus status))
      (body.withStatus status).occupantInfo hosted (Table.contains_iff.mpr ⟨_, hin⟩)] at hput
    rw [broadcast_eq]
    refine hput.of_stays ⟨rfl, rfl, rfl⟩ ((stays_replace world _).trans ?_)
    obtain ⟨zone, scene, location, hlocation⟩ := BodyLocation.place?_eq_some_iff.mp inside
    have hscene : host.scene = scene := by
      rw [World.stays, h found, found, Option.bind_some, Body.stay?, hlocation] at hstay
      exact congrArg Stay.scene (Option.some.inj hstay).symm
    simp only [Body.stay?, Body.withStatus, hlocation, hscene]
    rfl

/-- A world stays sound when a body gets a status. -/
theorem StatusOutcome.sound {identity : Identity} {status : OccupantStatus}
    (outcome : StatusOutcome world identity status after) (h : world.Sound) : after.Sound where
  houses := outcome.houses h.registers.labeled h.houses
  registers := h.registers.of_sameNames (outcome.sameNames h.registers.labeled)

/-- The entity of a new body is new, as long as the counter has not come round. -/
theorem Registers.get?_peek (h : world.Registers) (hfresh : world.entityIds.issued + 1 < 2 ^ 64) :
    world.bodies.get? world.entityIds.peek = none := by
  cases hbody : world.bodies.get? world.entityIds.peek with
  | none => rfl
  | some body =>
    have hissued := h.issued hbody
    rw [IdGenerator.peek_val h.first hfresh] at hissued
    omega

/-- A participant that has no body gets one that is nowhere. -/
theorem createBody_of_none {identity : Identity} (hnew : world.entities.get? identity = none) :
    (world.createBody identity).2 =
      { world with
        bodies := world.bodies.insert world.entityIds.peek
          { entity := world.entityIds.peek, identity := identity }
        entities := world.entities.insert identity world.entityIds.peek
        entityIds := world.entityIds.generate.2 } := by
  simp only [createBody, hnew]
  rfl

/-- A participant that has a body gets no other. -/
theorem createBody_of_some {identity : Identity}
    (hknown : world.entities.get? identity = some entity) :
    (world.createBody identity).2 = world := by
  simp only [createBody, hknown]

/-- A participant that gets a body is registered with it. -/
theorem Registers.createBody (h : world.Registers) (identity : Identity)
    (hfresh : (world.createBody identity).2.entityIds.issued < 2 ^ 64) :
    (world.createBody identity).2.Registers := by
  cases hknown : world.entities.get? identity with
  | some entity => rwa [createBody_of_some hknown]
  | none =>
    rw [createBody_of_none hknown] at hfresh ⊢
    have hpeek := h.get?_peek hfresh
    have hval := IdGenerator.peek_val h.first hfresh
    have hget : ∀ {other body}, (world.bodies.insert world.entityIds.peek
        { entity := world.entityIds.peek, identity := identity }).get? other = some body ↔
        other = world.entityIds.peek ∧ ⟨world.entityIds.peek, identity, .nowhere, .active⟩ = body ∨
        world.bodies.get? other = some body := by
      intro other body
      rw [Table.get?_insert]
      by_cases heq : other = world.entityIds.peek
      · rw [if_pos heq]
        simp only [heq, hpeek, Option.some.injEq, true_and, reduceCtorEq, or_false]
      · rw [if_neg heq]
        simp only [heq, false_and, false_or]
    constructor
    case labeled =>
      intro other body hbody
      rcases hget.mp hbody with ⟨rfl, rfl⟩ | hold
      · rfl
      · exact h.labeled hold
    case entity_iff =>
      intro name other
      rw [Table.get?_insert]
      by_cases hname : name = identity
      · rw [if_pos hname]
        subst hname
        constructor
        · rintro ⟨rfl⟩
          exact ⟨_, hget.mpr (.inl ⟨rfl, rfl⟩), rfl⟩
        · rintro ⟨body, hbody, hidentity⟩
          rcases hget.mp hbody with ⟨rfl, -⟩ | hold
          · rfl
          · rw [h.entity_iff.mpr ⟨body, hold, hidentity⟩] at hknown
            cases hknown
      · rw [if_neg hname]
        refine h.entity_iff.trans ⟨?_, ?_⟩
        · rintro ⟨body, hold, hidentity⟩
          exact ⟨body, hget.mpr (.inr hold), hidentity⟩
        · rintro ⟨body, hbody, hidentity⟩
          rcases hget.mp hbody with ⟨-, rfl⟩ | hold
          · exact absurd hidentity.symm hname
          · exact ⟨body, hold, hidentity⟩
    case issued =>
      intro other body hbody
      rcases hget.mp hbody with ⟨rfl, -⟩ | hold
      · exact Nat.le_of_eq hval
      · exact Nat.le_succ_of_le (h.issued hold)
    case first => exact h.first

/-- A world stays sound when a body is made, unless the entities have come round. -/
theorem sound_createBody (h : world.Sound) (identity : Identity)
    (hfresh : (world.createBody identity).2.entityIds.issued < 2 ^ 64) :
    (world.createBody identity).2.Sound := by
  refine ⟨?_, h.registers.createBody identity hfresh⟩
  cases hknown : world.entities.get? identity with
  | some entity =>
    rw [createBody_of_some hknown]
    exact h.houses
  | none =>
    rw [createBody_of_none hknown] at hfresh ⊢
    have hstay : world.stays world.entityIds.peek = none := by
      rw [World.stays, h.registers.get?_peek hfresh]
      rfl
    refine h.houses.of_stays ⟨rfl, rfl, rfl⟩ ?_
    refine (stays_replace world ⟨world.entityIds.peek, identity, .nowhere, .active⟩).trans ?_
    exact Function.update_eq_self_iff.mpr hstay.symm

/-- How removing the body of a participant ends. -/
inductive RemoveOutcome (world : World) (identity : Identity) : World → Prop where
  /-- The participant has no body. -/
  | unknown (unknown : world.entities.get? identity = none) : RemoveOutcome world identity world
  /-- The body leaves its place and is removed. -/
  | removes {entity : EntityId} {change : Option BodyChange} {left : World}
      (named : world.entities.get? identity = some entity)
      (leaves : LeaveOutcome { world with entities := world.entities.erase identity } entity change
        left) :
    RemoveOutcome world identity { left with bodies := left.bodies.erase entity }

/-- What becomes of a body that is to be removed is one of the outcomes. -/
theorem removeBody_outcome (world : World) (identity : Identity) :
    RemoveOutcome world identity (world.removeBody identity).2 := by
  unfold removeBody
  cases hnamed : world.entities.get? identity with
  | none => exact .unknown hnamed
  | some entity => exact .removes hnamed (leavePlace_outcome _ entity)

/-- A participant whose body is removed is not registered any more. -/
theorem RemoveOutcome.registers {identity : Identity}
    (outcome : RemoveOutcome world identity after) (h : world.Registers) : after.Registers := by
  cases outcome with
  | unknown => exact h
  | @removes entity change left named leaves =>
    obtain ⟨body, hbody, hidentity⟩ := h.entity_iff.mp named
    have hlabeled : ({ world with entities := world.entities.erase identity } : World).Labeled :=
      h.labeled
    have hnames := leaves.sameNames hlabeled
    have hget : ∀ {other body}, (left.bodies.erase entity).get? other = some body ↔
        other ≠ entity ∧ left.bodies.get? other = some body := by
      intro other body
      rw [Table.get?_erase]
      by_cases heq : other = entity
      · rw [if_pos heq]
        simp only [heq, reduceCtorEq, ne_eq, not_true, false_and]
      · rw [if_neg heq]
        simp only [heq, ne_eq, not_false_iff, true_and]
    constructor
    case labeled => exact fun other body hother => hlabeled.of_sameNames hnames (hget.mp hother).2
    case entity_iff =>
      intro name other
      change left.entities.get? name = some other ↔ _
      rw [hnames.entities, Table.get?_erase]
      constructor
      · intro hother
        by_cases hname : name = identity
        · rw [if_pos hname] at hother
          cases hother
        · rw [if_neg hname] at hother
          obtain ⟨body', hbody', hsame⟩ := h.entity_iff.mp hother
          obtain ⟨body'', hbody'', -, hname'⟩ := hnames.symm.exists_body hbody'
          refine ⟨body'', hget.mpr ⟨?_, hbody''⟩, hname'.trans hsame⟩
          rintro rfl
          cases hbody.symm.trans hbody'
          exact hname (hsame.symm.trans hidentity)
      · rintro ⟨body', hbody', hname⟩
        obtain ⟨hne, hbody'⟩ := hget.mp hbody'
        obtain ⟨body'', hbody'', -, hname'⟩ := hnames.exists_body hbody'
        have hother := h.entity_iff.mpr ⟨body'', hbody'', hname'.trans hname⟩
        rw [if_neg, hother]
        rintro rfl
        exact hne (Option.some.inj (hother.symm.trans named))
    case issued =>
      intro other body hother
      obtain ⟨body', hbody', -⟩ := hnames.exists_body (hget.mp hother).2
      change other.val ≤ left.entityIds.issued
      rw [hnames.entityIds]
      exact h.issued hbody'
    case first =>
      change left.entityIds.first = 1
      rw [hnames.entityIds]
      exact h.first

/-- A world stays sound when a body is removed. -/
theorem RemoveOutcome.sound {identity : Identity} (outcome : RemoveOutcome world identity after)
    (h : world.Sound) : after.Sound := by
  refine ⟨?_, outcome.registers h.registers⟩
  cases outcome with
  | unknown => exact h.houses
  | @removes entity change left named leaves =>
    have hlabeled : ({ world with entities := world.entities.erase identity } : World).Labeled :=
      h.registers.labeled
    have hhouses := leaves.houses hlabeled (h.houses.of_same ⟨rfl, rfl, rfl⟩)
    refine hhouses.of_stays ⟨rfl, rfl, rfl⟩ ?_
    funext other
    rw [World.stays, Table.get?_erase]
    by_cases heq : other = entity
    · rw [if_pos heq, heq, leaves.stays hlabeled, Function.update_self]
      rfl
    · rw [if_neg heq]
      rfl

end World

/-! ## Entering the place of a scene -/

namespace MoveRequest

/-- How putting the body of a request into the place of a scene ends. -/
inductive EntryOutcome (request : MoveRequest) (world : World) (zone : ZoneSummary)
    (model : SceneModel) : Answer → World → Prop where
  /-- The scene is not one of the zone's. -/
  | unlisted (unlisted : zone.containsScene model.scene = false) :
    EntryOutcome request world zone model (.failure .noSuchPlace) world
  /-- The body could not be put into the place. -/
  | refused {error : CommitError} {after : World}
      (commit : World.CommitOutcome (world.placeFor model).2 request.entity zone.zone
        (world.placeFor model).1 request.target.location (.error error) after) :
    EntryOutcome request world zone model (.failure (.internal error.message)) after
  /-- The body is in the place, and the answer tells of it. -/
  | entered {change : BodyChange} {after : World} {reply : MoveReply}
      (commit : World.CommitOutcome (world.placeFor model).2 request.entity zone.zone
        (world.placeFor model).1 request.target.location (.ok change) after)
      (told : reply.place = (world.placeFor model).1 ∧ reply.zone = zone ∧
        reply.scene = model.scene ∧ reply.location = request.target.location ∧
        reply.occupants = ((after.places.get? (world.placeFor model).1).map
          (·.occupants.values)).getD []) :
    EntryOutcome request world zone model (.success (.moved reply)) after

/-- What becomes of a move that has its scene is one of the outcomes. -/
theorem commit_outcome (request : MoveRequest) (world : World) (zone : ZoneSummary)
    (model : SceneModel) :
    EntryOutcome request world zone model (request.commit world zone model).1
      (request.commit world zone model).2 := by
  unfold commit
  cases hlisted : zone.containsScene model.scene with
  | false => exact .unlisted hlisted
  | true =>
    have hcommit := World.commitMove_outcome (world.placeFor model).2 request.entity zone.zone
      (world.placeFor model).1 request.target.location
    simp only [Bool.not_true, Bool.false_eq_true, if_false]
    generalize (world.placeFor model).2.commitMove request.entity zone.zone
      (world.placeFor model).1 request.target.location = result at hcommit ⊢
    obtain ⟨result, after⟩ := result
    cases result with
    | error error => exact .refused hcommit
    | ok change => exact .entered hcommit ⟨rfl, rfl, rfl, rfl, rfl⟩

end MoveRequest

end SharedWorld
