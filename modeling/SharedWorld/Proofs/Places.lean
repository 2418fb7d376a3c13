import Mathlib.Data.List.Nodup
import Mathlib.Logic.Function.Basic
import SharedWorld.Proofs.Tables
import SharedWorld.World.Basic

/-!
# Places and the stays of bodies

Where every body stays determines the occupants of every place. `World.Houses` says that the places
of a world are exactly as a given assignment of stays wants them, except that the places of a list
may be empty; each operation on places is described by how it changes the assignment. The stays a
world should house are those that its bodies' locations tell (`World.stays`).
-/

namespace SharedWorld

/-- A counter that starts at one gives the numbers in their order, and comes round in the end. -/
theorem IdGenerator.peek_val_mod {kind : IdKind} {ids : IdGenerator kind} (hfirst : ids.first = 1)
    (hkind : kind.count = 2 ^ 64 := by rfl) : ids.peek.val = (ids.issued + 1) % 2 ^ 64 := by
  have hnext : ids.next.toNat = (ids.issued + 1) % 2 ^ 64 := by
    simp only [next, hfirst, UInt64.toNat_add, UInt64.toNat_ofNat', UInt64.toNat_one]
    omega
  simp only [peek, Id.clamp, hnext, hkind]
  omega

/-- A counter that starts at one and has not come round gives the numbers in their order. -/
theorem IdGenerator.peek_val {kind : IdKind} {ids : IdGenerator kind}
    (hfirst : ids.first = 1) (hfresh : ids.issued + 1 < 2 ^ 64)
    (hkind : kind.count = 2 ^ 64 := by rfl) : ids.peek.val = ids.issued + 1 := by
  rw [peek_val_mod hfirst hkind]
  exact Nat.mod_eq_of_lt hfresh

/-- The ids that a counter gives which starts at one. -/
def IdGenerator.given (kind : IdKind) (issued : Nat) : List (Id kind) :=
  (List.range issued).map fun number => IdGenerator.peek { first := 1, issued := number }

/-- A counter gives no id twice before it has come round. -/
theorem IdGenerator.nodup_given {kind : IdKind} {issued : Nat} (hissued : issued ≤ 2 ^ 64)
    (hkind : kind.count = 2 ^ 64 := by rfl) : (given kind issued).Nodup := by
  refine List.Nodup.map_on (fun i hi j hj heq => ?_) List.nodup_range
  have hval := congrArg Id.val heq
  rw [peek_val_mod rfl hkind, peek_val_mod rfl hkind] at hval
  rw [List.mem_range] at hi hj
  dsimp only at hval
  omega

/-! ## What the operations leave alone -/

/-- The worlds have the same bodies, and the same counter of them. -/
structure World.SameBodies (before after : World) : Prop where
  bodies : after.bodies = before.bodies
  entities : after.entities = before.entities
  entityIds : after.entityIds = before.entityIds

/-- The worlds have the same places, and the same counter of them. -/
structure World.SamePlaces (before after : World) : Prop where
  places : after.places = before.places
  hosts : after.hosts = before.hosts
  placeIds : after.placeIds = before.placeIds

namespace World

variable {world : World}

/-- The messages of a broadcast. -/
def notices (world : World) (place : PlaceId) (delta : SetDelta) (also : Option Identity) :
    List Effect :=
  match world.places.get? place with
  | none => []
  | some host =>
    (host.occupants.identities ++ also.toList.filter fun identity =>
      !host.occupants.identities.contains identity).map
        (Effect.message · (.occupants place (.ofOccupants delta)))

/-- A broadcast does nothing but to send its messages. -/
theorem broadcast_eq (world : World) (place : PlaceId) (delta : SetDelta) (also : Option Identity) :
    world.broadcast place delta also =
      { world with effects := world.effects ++ world.notices place delta also } := by
  unfold broadcast notices
  cases world.places.get? place with
  | none => simp only [List.append_nil]
  | some host => rfl

/-- What is sent when a body's stay is undone. -/
def departures (world : World) (change : BodyChange) : List Effect :=
  match change.before with
  | .inside _ _ place _ =>
    (world.changeOccupants place (Table.erase · change.entity)).notices place
      (.removed change.entity) (some change.identity)
  | _ => []

/-- Undoing a stay does nothing if there is no place to leave. Otherwise the body is taken from the
occupants, which is told, its references are given back, and a place left empty is dropped. -/
theorem vacate_cases (world : World) (change : BodyChange) :
    world.vacate change = world ∨
      ∃ zone scene place location, change.before = .inside zone scene place location ∧
        world.vacate change =
          ((({ world.changeOccupants place (Table.erase · change.entity) with
            effects := world.effects ++ world.departures change }.release
              (.zone zone)).release (.scene scene)).dropIfEmpty place) := by
  cases hbefore : change.before with
  | nowhere => exact .inl (by simp only [vacate, hbefore])
  | vacated zone scene => exact .inl (by simp only [vacate, hbefore])
  | inside zone scene place location =>
    cases hhost : world.places.get? place with
    | none => exact .inl (by simp only [vacate, hbefore, hhost])
    | some host =>
      refine .inr ⟨zone, scene, place, location, rfl, ?_⟩
      simp only [vacate, departures, hbefore, hhost, broadcast_eq]
      rfl

/-- Dropping a place has no effect. -/
theorem effects_dropIfEmpty (world : World) (place : PlaceId) :
    (world.dropIfEmpty place).effects = world.effects := by
  unfold dropIfEmpty
  split
  · rfl
  · split
    · rfl
    · rfl

/-- Clearing out of a place tells those who stay of the departure. -/
theorem effects_vacate (world : World) (change : BodyChange) :
    (world.vacate change).effects = world.effects ++ world.departures change := by
  cases hbefore : change.before with
  | nowhere => simp only [vacate, departures, hbefore, List.append_nil]
  | vacated zone scene => simp only [vacate, departures, hbefore, List.append_nil]
  | inside zone scene place location =>
    simp only [vacate, departures, hbefore]
    cases hplace : world.places.get? place with
    | none =>
      have hmissing : (world.changeOccupants place (Table.erase · change.entity)).places.get?
          place = none := by
        simp only [changeOccupants, Table.modify, hplace]
      simp only [notices, hmissing, List.append_nil]
    | some host =>
      simp only [effects_dropIfEmpty, broadcast_eq]
      rfl

/-- Giving references back changes the cache only. -/
theorem foldl_release (world : World) (held : List CacheKey) :
    held.foldl release world = { world with cache := held.foldl Cache.release world.cache } := by
  induction held generalizing world with
  | nil => rfl
  | cons key held ih => exact ih (world.release key)

/-- Dropping a place leaves the bodies alone. -/
theorem sameBodies_dropIfEmpty (world : World) (place : PlaceId) :
    world.SameBodies (world.dropIfEmpty place) := by
  unfold dropIfEmpty
  split
  · exact ⟨rfl, rfl, rfl⟩
  · split
    · exact ⟨rfl, rfl, rfl⟩
    · exact ⟨rfl, rfl, rfl⟩

/-- Clearing out of a place leaves the bodies where they were put. -/
theorem sameBodies_vacate (world : World) (change : BodyChange) :
    world.SameBodies (world.vacate change) := by
  rcases world.vacate_cases change with hstays | ⟨zone, scene, place, location, -, hleaves⟩
  · rw [hstays]
    exact ⟨rfl, rfl, rfl⟩
  · rw [hleaves]
    have hdrop := sameBodies_dropIfEmpty
    exact ⟨(hdrop _ _).bodies, (hdrop _ _).entities, (hdrop _ _).entityIds⟩

/-- Finding a place for a scene leaves the bodies alone. -/
theorem sameBodies_placeFor (world : World) (model : SceneModel) :
    world.SameBodies (world.placeFor model).2 := by
  unfold placeFor
  split
  · exact ⟨rfl, rfl, rfl⟩
  · exact ⟨rfl, rfl, rfl⟩

/-- A place after the occupants of one place were changed. -/
theorem get?_changeOccupants (world : World) (place other : PlaceId)
    (f : OccupantSet → OccupantSet) :
    (world.changeOccupants place f).places.get? other = (world.places.get? other).map fun host =>
      if other = place then { host with occupants := f host.occupants } else host := by
  simp only [changeOccupants, Table.get?_modify]
  by_cases hother : other = place
  · simp only [hother, if_true]
  · simp only [if_neg hother, Option.map_id']

/-- Updating an occupant that is there is putting it. -/
theorem changeOccupants_update (world : World) {place : PlaceId} {host : Place}
    (info : OccupantInfo) (hhost : world.places.get? place = some host)
    (hin : host.occupants.contains info.entity = true) :
    world.changeOccupants place (OccupantSet.update · info) =
      world.changeOccupants place (OccupantSet.put · info) := by
  simp only [changeOccupants, Table.modify, hhost, OccupantSet.update, if_pos hin]

end World

/-! ## Stays -/

/-- A location has a place just if it is inside of it. -/
theorem BodyLocation.place?_eq_some_iff {location : BodyLocation} {place : PlaceId} :
    location.place? = some place ↔
      ∃ zone scene spot, location = .inside zone scene place spot := by
  cases location with
  | nowhere => exact ⟨nofun, nofun⟩
  | vacated zone scene => exact ⟨nofun, nofun⟩
  | inside zone scene before spot =>
    simp only [BodyLocation.place?, Option.some.injEq, BodyLocation.inside.injEq]
    exact ⟨fun h => ⟨zone, scene, spot, rfl, rfl, h, rfl⟩, fun ⟨_, _, _, _, _, h, _⟩ => h⟩

/-- A body's stay in a place. -/
structure Stay where
  place : PlaceId
  scene : SceneId
  /-- What the place publishes of the body. -/
  info : OccupantInfo

/-- The stay that a body's location tells of. -/
def Body.stay? (body : Body) : Option Stay :=
  match body.location with
  | .inside _ scene place _ => some ⟨place, scene, body.occupantInfo⟩
  | .nowhere | .vacated _ _ => none

/-- A body stays in the place that its location has. -/
theorem Body.stay?_place (body : Body) : body.stay?.map Stay.place = body.location.place? := by
  unfold Body.stay? BodyLocation.place?
  cases body.location with
  | nowhere => rfl
  | vacated zone scene => rfl
  | inside zone scene place location => rfl

/-- The stay of every entity in the world. -/
def World.stays (world : World) (entity : EntityId) : Option Stay :=
  (world.bodies.get? entity).bind Body.stay?

/-- Where bodies stay depends on the bodies alone. -/
theorem World.SameBodies.stays {before after : World} (h : before.SameBodies after) :
    after.stays = before.stays := by
  funext entity
  rw [World.stays, World.stays, h.bodies]

/-- The body somewhere else. -/
def Body.movedTo (body : Body) (location : BodyLocation) : Body :=
  { body with location := location }

/-- The body under another status. -/
def Body.withStatus (body : Body) (status : OccupantStatus) : Body :=
  { body with status := status }

/-- The world with another body of the same entity. -/
def World.replace (world : World) (body : Body) : World :=
  { world with bodies := world.bodies.insert body.entity body }

/-- Replacing a body changes its stay only. -/
theorem World.stays_replace (world : World) (body : Body) :
    (world.replace body).stays = Function.update world.stays body.entity body.stay? := by
  funext other
  simp only [World.stays, World.replace, Table.get?_insert, Function.update_apply]
  split
  · rfl
  · rfl

/-- The places of a world are as the stays want them; only the `spare` ones may be empty. -/
structure World.Houses (world : World) (stays : EntityId → Option Stay) (spare : List PlaceId) :
    Prop where
  id_eq : ∀ {place host}, world.places.get? place = some host → host.id = place
  host_iff : ∀ {scene place}, world.hosts.get? scene = some place ↔
    ∃ host, world.places.get? place = some host ∧ host.scene = scene
  occupant_iff : ∀ {place host entity info}, world.places.get? place = some host →
    (host.occupants.get? entity = some info ↔ stays entity = some ⟨place, host.scene, info⟩)
  housed : ∀ {entity stay}, stays entity = some stay →
    ∃ host, world.places.get? stay.place = some host ∧ host.scene = stay.scene
  capacity : ∀ {place host bound}, world.places.get? place = some host →
    host.capacity = some bound → host.occupants.size ≤ bound
  occupied : ∀ {place host}, world.places.get? place = some host → place ∉ spare →
    host.occupants.isEmpty = false
  issued : ∀ {place host}, world.places.get? place = some host →
    place.val ≤ world.placeIds.issued
  first : world.placeIds.first = 1

namespace World.Houses

variable {world after : World} {stays : EntityId → Option Stay} {spare : List PlaceId}

/-- Stays are housed while the places stay the same. -/
theorem of_same (h : world.Houses stays spare) (same : world.SamePlaces after) :
    after.Houses stays spare := by
  obtain ⟨hplaces, hhosts, hids⟩ := same
  constructor
  case id_eq => rw [hplaces]; exact h.id_eq
  case host_iff => rw [hplaces, hhosts]; exact h.host_iff
  case occupant_iff => rw [hplaces]; exact h.occupant_iff
  case housed => rw [hplaces]; exact h.housed
  case capacity => rw [hplaces]; exact h.capacity
  case occupied => rw [hplaces]; exact h.occupied
  case issued => rw [hplaces, hids]; exact h.issued
  case first => rw [hids]; exact h.first

/-- A world whose bodies tell of the stays that its places house. -/
theorem of_stays (h : world.Houses stays spare) (same : world.SamePlaces after)
    (hstays : after.stays = stays) : after.Houses after.stays spare := by
  rw [hstays]
  exact h.of_same same

/-- A place may be empty if the place it would be is not there, or is occupied. -/
theorem weaken {spare' : List PlaceId} (h : world.Houses stays spare)
    (hspare : ∀ {place host}, world.places.get? place = some host → place ∈ spare →
      place ∈ spare' ∨ host.occupants.isEmpty = false) : world.Houses stays spare' where
  id_eq := h.id_eq
  host_iff := h.host_iff
  occupant_iff := h.occupant_iff
  housed := h.housed
  capacity := h.capacity
  occupied := by
    intro place host hhost hnot
    by_cases hmem : place ∈ spare
    · exact (hspare hhost hmem).resolve_left hnot
    · exact h.occupied hhost hmem
  issued := h.issued
  first := h.first

/-- Places that may stand empty need not. -/
theorem sparing (h : world.Houses stays []) (spare : List PlaceId) : world.Houses stays spare :=
  h.weaken fun _ hmem => absurd hmem List.not_mem_nil

/-- The world without places houses nobody. -/
theorem new (idleCapacity : Nat) (loader : Loader CacheKey Bundle) :
    (World.new idleCapacity loader).Houses (World.new idleCapacity loader).stays [] where
  id_eq h := by cases h
  host_iff := ⟨nofun, fun ⟨_, h, _⟩ => nomatch h⟩
  occupant_iff h := by cases h
  housed h := by cases h
  capacity h := by cases h
  occupied h := by cases h
  issued h := by cases h
  first := rfl

/-- Changing the occupants of a place, with the stays to match. -/
theorem changeOccupants {stays' : EntityId → Option Stay} {spare' : List PlaceId} {place : PlaceId}
    {host : Place} {f : OccupantSet → OccupantSet} (h : world.Houses stays spare)
    (hhost : world.places.get? place = some host)
    (hhere : ∀ entity info, (f host.occupants).get? entity = some info ↔
      stays' entity = some ⟨place, host.scene, info⟩)
    (hplaces : ∀ entity stay, stays' entity = some stay → stay.place = place ∧
      stay.scene = host.scene ∨ stay.place ≠ place ∧ stays entity = some stay)
    (hothers : ∀ entity stay, stays entity = some stay → stay.place ≠ place →
      stays' entity = some stay)
    (hcapacity : ∀ bound, host.capacity = some bound → (f host.occupants).size ≤ bound)
    (hspare : ∀ other ∈ spare, other ≠ place → other ∈ spare')
    (hoccupied : place ∉ spare' → (f host.occupants).isEmpty = false) :
    (world.changeOccupants place f).Houses stays' spare' := by
  have hget : ∀ {other changed}, (world.changeOccupants place f).places.get? other = some changed ↔
      ∃ old, world.places.get? other = some old ∧
        (if other = place then { old with occupants := f old.occupants } else old) = changed := by
    intro other changed
    rw [get?_changeOccupants, Option.map_eq_some_iff]
  constructor
  case id_eq =>
    intro other changed hchanged
    obtain ⟨old, hold, rfl⟩ := hget.mp hchanged
    have := h.id_eq hold
    split
    · exact this
    · exact this
  case host_iff =>
    intro scene other
    refine h.host_iff.trans ⟨?_, ?_⟩
    · rintro ⟨old, hold, hscene⟩
      refine ⟨_, hget.mpr ⟨old, hold, rfl⟩, ?_⟩
      split
      · exact hscene
      · exact hscene
    · rintro ⟨changed, hchanged, hscene⟩
      obtain ⟨old, hold, rfl⟩ := hget.mp hchanged
      refine ⟨old, hold, ?_⟩
      split at hscene
      · exact hscene
      · exact hscene
  case occupant_iff =>
    intro other changed entity info hchanged
    obtain ⟨old, hold, rfl⟩ := hget.mp hchanged
    by_cases hother : other = place
    · subst hother
      rw [hhost] at hold
      cases hold
      simpa only [if_true] using hhere entity info
    · simp only [if_neg hother]
      refine (h.occupant_iff hold).trans ⟨fun hstay => hothers _ _ hstay hother, fun hstay => ?_⟩
      rcases hplaces _ _ hstay with ⟨heq, _⟩ | ⟨_, hold⟩
      · exact absurd heq hother
      · exact hold
  case housed =>
    intro entity stay hstay
    rcases hplaces _ _ hstay with ⟨hplace, hscene⟩ | ⟨hne, hold⟩
    · refine ⟨_, hget.mpr ⟨host, ?_, rfl⟩, ?_⟩
      · rw [hplace]
        exact hhost
      · rw [if_pos hplace]
        exact hscene.symm
    · obtain ⟨old, hplace, hscene⟩ := h.housed hold
      exact ⟨old, hget.mpr ⟨old, hplace, if_neg hne⟩, hscene⟩
  case capacity =>
    intro other changed bound hchanged hbound
    obtain ⟨old, hold, rfl⟩ := hget.mp hchanged
    by_cases hother : other = place
    · subst hother
      rw [hhost] at hold
      cases hold
      simp only [if_true] at hbound ⊢
      exact hcapacity bound hbound
    · simp only [if_neg hother] at hbound ⊢
      exact h.capacity hold hbound
  case occupied =>
    intro other changed hchanged hnot
    obtain ⟨old, hold, rfl⟩ := hget.mp hchanged
    by_cases hother : other = place
    · subst hother
      rw [hhost] at hold
      cases hold
      simpa only [if_true] using hoccupied hnot
    · simp only [if_neg hother]
      exact h.occupied hold fun hmem => hnot (hspare _ hmem hother)
  case issued =>
    intro other changed hchanged
    obtain ⟨old, hold, -⟩ := hget.mp hchanged
    exact h.issued hold
  case first => exact h.first

/-- An occupant leaves a place. The place may be empty then. -/
theorem erase {entity : EntityId} {stay : Stay} (h : world.Houses stays spare)
    (hstay : stays entity = some stay) :
    (world.changeOccupants stay.place (Table.erase · entity)).Houses
      (Function.update stays entity none) (stay.place :: spare) := by
  obtain ⟨host, hhost, hscene⟩ := h.housed hstay
  refine h.changeOccupants hhost ?_ ?_ ?_ ?_ ?_ ?_
  · intro other info
    rw [Table.get?_erase, Function.update_apply]
    split
    · simp only [reduceCtorEq]
    · exact h.occupant_iff hhost
  · intro other stay' hstay'
    rw [Function.update_apply] at hstay'
    split at hstay'
    · cases hstay'
    · by_cases hplace : stay'.place = stay.place
      · obtain ⟨host', hhost', hscene'⟩ := h.housed hstay'
        rw [hplace, hhost] at hhost'
        cases hhost'
        exact .inl ⟨hplace, hscene'.symm⟩
      · exact .inr ⟨hplace, hstay'⟩
  · intro other stay' hstay' hplace
    rw [Function.update_apply]
    by_cases heq : other = entity
    · rw [if_pos heq]
      rw [heq, hstay] at hstay'
      cases hstay'
      exact absurd rfl hplace
    · rw [if_neg heq]
      exact hstay'
  · intro bound hbound
    have hsize : (host.occupants.erase entity).size ≤ host.occupants.size := by
      rw [Table.size_eq_total, Table.size_eq_total, ← Table.total_erase host.occupants entity]
      exact Nat.le_add_right _ _
    exact Nat.le_trans hsize (h.capacity hhost hbound)
  · exact fun other hmem _ => List.mem_cons_of_mem _ hmem
  · exact fun hnot => absurd List.mem_cons_self hnot

/-- An occupant arrives at a place that is not full, or changes there. -/
theorem put {place : PlaceId} {host : Place} (h : world.Houses stays (place :: spare))
    (info : OccupantInfo) (hhost : world.places.get? place = some host)
    (hstay : stays info.entity = none ∧ host.isFull = false ∨
      ∃ before, stays info.entity = some ⟨place, host.scene, before⟩) :
    (world.changeOccupants place (OccupantSet.put · info)).Houses
      (Function.update stays info.entity (some ⟨place, host.scene, info⟩)) spare := by
  refine h.changeOccupants hhost ?_ ?_ ?_ ?_ ?_ ?_
  · intro other info'
    rw [OccupantSet.put, Table.get?_insert, Function.update_apply]
    split
    · simp only [Option.some.injEq, Stay.mk.injEq, true_and]
    · exact h.occupant_iff hhost
  · intro other stay' hstay'
    rw [Function.update_apply] at hstay'
    split at hstay'
    · cases hstay'
      exact .inl ⟨rfl, rfl⟩
    · by_cases hplace : stay'.place = place
      · obtain ⟨host', hhost', hscene'⟩ := h.housed hstay'
        rw [hplace, hhost] at hhost'
        cases hhost'
        exact .inl ⟨hplace, hscene'.symm⟩
      · exact .inr ⟨hplace, hstay'⟩
  · intro other stay' hstay' hplace
    rw [Function.update_apply]
    by_cases heq : other = info.entity
    · rw [if_pos heq]
      rw [heq] at hstay'
      rcases hstay with ⟨hnone, -⟩ | ⟨before, hbefore⟩
      · rw [hnone] at hstay'
        cases hstay'
      · rw [hbefore] at hstay'
        cases hstay'
        exact absurd rfl hplace
    · rw [if_neg heq]
      exact hstay'
  · intro bound hbound
    have hsize := Table.total_insert host.occupants info.entity info fun _ => 1
    rw [← Table.size_eq_total, ← Table.size_eq_total] at hsize
    have hold := h.capacity hhost hbound
    change (host.occupants.insert info.entity info).size ≤ bound
    rcases hstay with ⟨-, hroom⟩ | ⟨before, hbefore⟩
    · simp only [Place.isFull, hbound, Option.any_some, decide_eq_false_iff_not] at hroom
      omega
    · rw [(h.occupant_iff hhost).mpr hbefore, Option.elim_some] at hsize
      omega
  · exact fun other hmem hne => (List.mem_cons.mp hmem).resolve_left hne
  · exact fun _ => Table.isEmpty_eq_false_of_get? (Table.get?_insert_self host.occupants _ _)

/-- Dropping a place if it is empty makes sure that it is not. -/
theorem dropIfEmpty {place : PlaceId} (h : world.Houses stays (place :: spare)) :
    (world.dropIfEmpty place).Houses stays spare := by
  unfold World.dropIfEmpty
  cases hhost : world.places.get? place with
  | none =>
    refine h.weaken fun hhost' hmem => ?_
    refine .inl ((List.mem_cons.mp hmem).resolve_left fun heq => ?_)
    rw [heq, hhost] at hhost'
    cases hhost'
  | some host =>
    dsimp only
    by_cases hempty : host.occupants.isEmpty = true
    · rw [if_pos hempty]
      -- Nobody stays in the place that is dropped, so whoever stays somewhere is still housed.
      have hnobody : ∀ {entity stay}, stays entity = some stay → stay.place ≠ place := by
        rintro entity ⟨place', scene, info⟩ hstay rfl
        obtain ⟨host', hhost', hscene⟩ := h.housed hstay
        cases hhost.symm.trans hhost'
        change host.scene = scene at hscene
        subst hscene
        have hin := (h.occupant_iff hhost).mpr hstay
        rw [Table.isEmpty_iff.mp hempty entity] at hin
        cases hin
      have hhosts : world.hosts.get? host.scene = some place :=
        h.host_iff.mpr ⟨host, hhost, rfl⟩
      simp only [hhosts, if_true]
      have hget : ∀ {other host'}, (world.places.erase place).get? other = some host' ↔
          other ≠ place ∧ world.places.get? other = some host' := Table.get?_erase_eq_some_iff
      constructor
      case id_eq => exact fun hhost' => h.id_eq (hget.mp hhost').2
      case host_iff =>
        intro scene other
        rw [Table.get?_erase]
        constructor
        · intro hother
          by_cases hsame : scene = host.scene
          · rw [if_pos hsame] at hother
            cases hother
          · rw [if_neg hsame] at hother
            obtain ⟨host', hhost', hscene⟩ := h.host_iff.mp hother
            refine ⟨host', hget.mpr ⟨?_, hhost'⟩, hscene⟩
            rintro rfl
            cases hhost.symm.trans hhost'
            exact hsame hscene.symm
        · rintro ⟨host', hhost', hscene⟩
          obtain ⟨hne, hhost'⟩ := hget.mp hhost'
          have hother := h.host_iff.mpr ⟨host', hhost', hscene⟩
          rw [if_neg, hother]
          rintro rfl
          rw [hhosts] at hother
          cases hother
          exact hne rfl
      case occupant_iff => exact fun hhost' => h.occupant_iff (hget.mp hhost').2
      case housed =>
        intro entity stay hstay
        obtain ⟨host', hhost', hscene⟩ := h.housed hstay
        exact ⟨host', hget.mpr ⟨hnobody hstay, hhost'⟩, hscene⟩
      case capacity => exact fun hhost' => h.capacity (hget.mp hhost').2
      case occupied =>
        intro other host' hhost' hnot
        obtain ⟨hne, hhost'⟩ := hget.mp hhost'
        exact h.occupied hhost' fun hmem => (List.mem_cons.mp hmem).elim hne hnot
      case issued => exact fun hhost' => h.issued (hget.mp hhost').2
      case first => exact h.first
    · rw [if_neg hempty]
      refine h.weaken fun hhost' hmem => ?_
      rcases List.mem_cons.mp hmem with rfl | hmem
      · cases hhost.symm.trans hhost'
        exact .inr (Bool.eq_false_iff.mpr hempty)
      · exact .inl hmem

/-- Undoing a body's stay takes the stay out of the places. -/
theorem vacate (h : world.Houses stays spare) (change : BodyChange)
    (hbefore : (stays change.entity).map Stay.place = change.before.place?) :
    (world.vacate change).Houses (Function.update stays change.entity none) spare := by
  cases hlocation : change.before with
  | nowhere =>
    rw [hlocation] at hbefore
    have hnone : stays change.entity = none := Option.map_eq_none_iff.mp hbefore
    rw [Function.update_eq_self_iff.mpr hnone.symm]
    simpa only [World.vacate, hlocation] using h
  | vacated zone scene =>
    rw [hlocation] at hbefore
    have hnone : stays change.entity = none := Option.map_eq_none_iff.mp hbefore
    rw [Function.update_eq_self_iff.mpr hnone.symm]
    simpa only [World.vacate, hlocation] using h
  | inside zone scene place location =>
    rw [hlocation] at hbefore
    obtain ⟨stay, hstay, hplace⟩ := Option.map_eq_some_iff.mp hbefore
    subst hplace
    obtain ⟨host, hhost, -⟩ := h.housed hstay
    simp only [World.vacate, hlocation, hhost, World.broadcast_eq]
    exact dropIfEmpty ((h.erase hstay).of_same ⟨rfl, rfl, rfl⟩)

/-- The place that is made for a scene is new, as long as the counter has not come round. -/
theorem placeFor (h : world.Houses stays []) (model : SceneModel)
    (hfresh : (world.placeFor model).2.placeIds.issued < 2 ^ 64) :
    (world.placeFor model).2.Houses stays [(world.placeFor model).1] ∧
      ∃ host, (world.placeFor model).2.places.get? (world.placeFor model).1 = some host ∧
        host.scene = model.scene := by
  unfold World.placeFor at hfresh ⊢
  cases hhost : world.hosts.get? model.scene with
  | some place =>
    exact ⟨h.sparing _, h.host_iff.mp hhost⟩
  | none =>
    simp only [hhost, IdGenerator.generate] at hfresh ⊢
    generalize hmade : Place.mk world.placeIds.peek model.zone model.scene model.capacity
      Table.empty = made
    -- The ids that were given are all smaller, so the place that is made takes nobody else's id.
    have hnew : ∀ {other host}, world.places.get? other = some host →
        other ≠ world.placeIds.peek := by
      rintro other host hother rfl
      have hissued := h.issued hother
      rw [IdGenerator.peek_val h.first hfresh] at hissued
      omega
    have hget : ∀ {other host}, (world.places.insert world.placeIds.peek made).get? other =
        some host ↔ other = world.placeIds.peek ∧ made = host ∨
          other ≠ world.placeIds.peek ∧ world.places.get? other = some host :=
      Table.get?_insert_eq_some_iff
    subst hmade
    refine ⟨?_, _, Table.get?_insert_self _ _ _, rfl⟩
    constructor
    case id_eq =>
      intro other host hother
      rcases hget.mp hother with ⟨rfl, rfl⟩ | ⟨-, hold⟩
      · rfl
      · exact h.id_eq hold
    case host_iff =>
      intro scene other
      rw [Table.get?_insert]
      by_cases hscene : scene = model.scene
      · rw [if_pos hscene]
        subst hscene
        constructor
        · rintro ⟨rfl⟩
          exact ⟨_, hget.mpr (.inl ⟨rfl, rfl⟩), rfl⟩
        · rintro ⟨host, hother, hscene⟩
          rcases hget.mp hother with ⟨rfl, -⟩ | ⟨-, hold⟩
          · rfl
          · rw [h.host_iff.mpr ⟨host, hold, hscene⟩] at hhost
            cases hhost
      · rw [if_neg hscene]
        refine h.host_iff.trans ⟨?_, ?_⟩
        · rintro ⟨host, hold, hother⟩
          exact ⟨host, hget.mpr (.inr ⟨hnew hold, hold⟩), hother⟩
        · rintro ⟨host, hother, hsame⟩
          rcases hget.mp hother with ⟨-, rfl⟩ | ⟨-, hold⟩
          · exact absurd hsame.symm hscene
          · exact ⟨host, hold, hsame⟩
    case occupant_iff =>
      intro other host entity info hother
      rcases hget.mp hother with ⟨rfl, rfl⟩ | ⟨-, hold⟩
      · refine ⟨nofun, fun hstay => ?_⟩
        obtain ⟨host, hold, -⟩ := h.housed hstay
        exact absurd rfl (hnew hold)
      · exact h.occupant_iff hold
    case housed =>
      intro entity stay hstay
      obtain ⟨host, hold, hscene⟩ := h.housed hstay
      exact ⟨host, hget.mpr (.inr ⟨hnew hold, hold⟩), hscene⟩
    case capacity =>
      intro other host bound hother hbound
      rcases hget.mp hother with ⟨rfl, rfl⟩ | ⟨-, hold⟩
      · exact Nat.zero_le bound
      · exact h.capacity hold hbound
    case occupied =>
      intro other host hother hnot
      rcases hget.mp hother with ⟨rfl, -⟩ | ⟨-, hold⟩
      · exact absurd (List.mem_singleton.mpr rfl) hnot
      · exact h.occupied hold List.not_mem_nil
    case issued =>
      intro other host hother
      rcases hget.mp hother with ⟨rfl, -⟩ | ⟨-, hold⟩
      · exact Nat.le_of_eq (IdGenerator.peek_val h.first hfresh)
      · exact Nat.le_succ_of_le (h.issued hold)
    case first => exact h.first

end World.Houses

end SharedWorld
