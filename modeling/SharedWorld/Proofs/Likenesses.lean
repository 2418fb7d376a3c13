import SharedWorld.Proofs.Moves
import SharedWorld.Proofs.Places

/-!
# Worlds that differ in their caches

The cache has no part in what happens to bodies and places, and none in what the surroundings are
told of it. Where two worlds differ at most in their caches (`World.Alike`), every operation gives
the same result on both, and leaves two that do not differ otherwise either. So it is for the realms
of such worlds, and for what sessions make of them.
-/

namespace SharedWorld

/-- The worlds differ at most in their caches. -/
def World.Alike (world other : World) : Prop := ∃ cache, other = { world with cache := cache }

namespace World

variable {world other third : World} {entity : EntityId}

/-- A world is like itself. -/
theorem Alike.refl (world : World) : world.Alike world := ⟨world.cache, rfl⟩

/-- Likeness goes both ways. -/
theorem Alike.symm (h : world.Alike other) : other.Alike world := by
  obtain ⟨cache, rfl⟩ := h
  exact ⟨world.cache, rfl⟩

/-- Worlds that are like the same one are alike. -/
theorem Alike.trans (h : world.Alike other) (h' : other.Alike third) : world.Alike third := by
  obtain ⟨cache, rfl⟩ := h
  obtain ⟨cache', rfl⟩ := h'
  exact ⟨cache', rfl⟩

/-- A world is like itself with another cache. -/
theorem alike_cache (world : World) (cache : Cache CacheKey Bundle) :
    world.Alike { world with cache := cache } := ⟨cache, rfl⟩

/-- Worlds that are alike have the same bodies. -/
theorem Alike.bodies (h : world.Alike other) : other.bodies = world.bodies := by
  obtain ⟨cache, rfl⟩ := h
  rfl

/-- Worlds that are alike have the same places. -/
theorem Alike.places (h : world.Alike other) : other.places = world.places := by
  obtain ⟨cache, rfl⟩ := h
  rfl

/-- Worlds that are alike have the same register of entities. -/
theorem Alike.entities (h : world.Alike other) : other.entities = world.entities := by
  obtain ⟨cache, rfl⟩ := h
  rfl

/-- Everyone has the same body in worlds that are alike. -/
theorem Alike.bodyFor?_eq (h : world.Alike other) (identity : Identity) :
    other.bodyFor? identity = world.bodyFor? identity := by
  obtain ⟨cache, rfl⟩ := h
  rfl

/-- An operation that lets the cache be does not tell the worlds apart. -/
theorem Alike.map (h : world.Alike other) (f : World → World)
    (hf : ∀ world cache, f { world with cache := cache } = { f world with cache := cache }) :
    (f world).Alike (f other) := by
  obtain ⟨cache, rfl⟩ := h
  exact ⟨cache, hf world cache⟩

/-- The same effects are taken from worlds that are alike, and leave them alike. -/
theorem Alike.takeEffects (h : world.Alike other) :
    world.takeEffects.1 = other.takeEffects.1 ∧ world.takeEffects.2.Alike other.takeEffects.2 := by
  obtain ⟨cache, rfl⟩ := h
  exact ⟨rfl, cache, rfl⟩

/-- The same changes are taken from worlds that are alike, and leave them alike. -/
theorem Alike.takeChanges (h : world.Alike other) :
    world.takeChanges.1 = other.takeChanges.1 ∧ world.takeChanges.2.Alike other.takeChanges.2 := by
  obtain ⟨cache, rfl⟩ := h
  exact ⟨rfl, cache, rfl⟩

/-! ## Operations on places -/

/-- Recording an effect leaves worlds alike. -/
theorem Alike.record (h : world.Alike other) (effect : Effect) :
    (world.record effect).Alike (other.record effect) :=
  h.map (World.record · effect) fun _ _ => rfl

/-- Noting a change leaves worlds alike. -/
theorem Alike.note (h : world.Alike other) (change : BodyChange) :
    (world.note change).Alike (other.note change) :=
  h.map (World.note · change) fun _ _ => rfl

/-- Relocating a body leaves worlds alike. -/
theorem Alike.relocate (h : world.Alike other) (body : Body) (after : BodyLocation) :
    (world.relocate body after).Alike (other.relocate body after) :=
  h.map (World.relocate · body after) fun _ _ => rfl

/-- Changing the occupants of a place leaves worlds alike. -/
theorem Alike.changeOccupants (h : world.Alike other) (place : PlaceId)
    (f : OccupantSet → OccupantSet) :
    (world.changeOccupants place f).Alike (other.changeOccupants place f) :=
  h.map (World.changeOccupants · place f) fun _ _ => rfl

/-- The same is told to the same occupants in worlds that are alike. -/
theorem Alike.broadcast (h : world.Alike other) (place : PlaceId) (delta : SetDelta)
    (also : Option Identity) :
    (world.broadcast place delta also).Alike (other.broadcast place delta also) := by
  rw [broadcast_eq, broadcast_eq]
  obtain ⟨cache, rfl⟩ := h
  exact ⟨cache, rfl⟩

/-- Taking or giving back a reference touches the cache only. -/
theorem Alike.retain (h : world.Alike other) (key : CacheKey) :
    (world.retain key).Alike (other.retain key) :=
  ((alike_cache world _).symm.trans h).trans (alike_cache other _)

/-- Giving a reference back leaves worlds alike. -/
theorem Alike.release (h : world.Alike other) (key : CacheKey) :
    (world.release key).Alike (other.release key) :=
  ((alike_cache world _).symm.trans h).trans (alike_cache other _)

/-- The same places are dropped in worlds that are alike. -/
theorem Alike.dropIfEmpty (h : world.Alike other) (place : PlaceId) :
    (world.dropIfEmpty place).Alike (other.dropIfEmpty place) := by
  unfold World.dropIfEmpty
  rw [h.places]
  split
  · exact h
  · split
    · obtain ⟨cache, rfl⟩ := h
      exact ⟨cache, rfl⟩
    · exact h

/-- Clearing out of a place leaves worlds alike. -/
theorem Alike.vacate (h : world.Alike other) (change : BodyChange) :
    (world.vacate change).Alike (other.vacate change) := by
  unfold World.vacate
  rw [h.places]
  split
  · split
    · exact h
    · exact ((((h.changeOccupants _ _).broadcast _ _ _).release _).release _).dropIfEmpty _
  · exact h

/-- The same place is found or made for a scene in worlds that are alike. -/
theorem Alike.placeFor (h : world.Alike other) (model : SceneModel) :
    (world.placeFor model).1 = (other.placeFor model).1 ∧
      (world.placeFor model).2.Alike (other.placeFor model).2 := by
  obtain ⟨cache, rfl⟩ := h
  unfold World.placeFor
  dsimp only
  split
  · exact ⟨rfl, cache, rfl⟩
  · exact ⟨rfl, cache, rfl⟩

/-! ## Operations on bodies -/

/-- Making a body leaves worlds alike. -/
theorem Alike.createBody (h : world.Alike other) (identity : Identity) :
    (world.createBody identity).2.Alike (other.createBody identity).2 := by
  obtain ⟨cache, rfl⟩ := h
  unfold World.createBody
  dsimp only
  split
  · exact ⟨cache, rfl⟩
  · exact ⟨cache, rfl⟩

/-- Leaving a place leaves worlds alike. -/
theorem Alike.leavePlace (h : world.Alike other) (entity : EntityId) :
    (world.leavePlace entity).2.Alike (other.leavePlace entity).2 := by
  unfold World.leavePlace
  rw [h.bodies]
  split
  · exact h
  · split
    · exact h
    · exact ((h.relocate _ _).vacate _).note _

/-- Removing a body leaves worlds alike. -/
theorem Alike.removeBody (h : world.Alike other) (identity : Identity) :
    (world.removeBody identity).2.Alike (other.removeBody identity).2 := by
  unfold World.removeBody
  rw [h.entities]
  cases hentity : world.entities.get? identity with
  | none => exact h
  | some entity =>
    have hnamed : World.Alike { world with entities := world.entities.erase identity }
        { other with entities := world.entities.erase identity } := by
      obtain ⟨cache, rfl⟩ := h
      exact ⟨cache, rfl⟩
    obtain ⟨cache, hleft⟩ := hnamed.leavePlace entity
    dsimp only
    rw [hleft]
    exact ⟨cache, rfl⟩

/-- Putting a body leaves worlds alike. -/
theorem Alike.putBody (h : world.Alike other) (entity : EntityId) (body : Body) :
    World.Alike { world with bodies := world.bodies.insert entity body }
      { other with bodies := other.bodies.insert entity body } :=
  h.map (fun world => { world with bodies := world.bodies.insert entity body }) fun _ _ => rfl

/-- A new status leaves worlds alike. -/
theorem Alike.setStatus (h : world.Alike other) (identity : Identity) (status : OccupantStatus) :
    (world.setStatus identity status).Alike (other.setStatus identity status) := by
  unfold World.setStatus
  rw [h.bodyFor?_eq]
  split
  · exact h
  · split
    · exact h
    · dsimp only
      split
      · exact h.putBody _ _
      · exact ((h.putBody _ _).changeOccupants _ _).broadcast _ _ _

/-- Entering a place comes to the same in worlds that are alike, and leaves them alike. -/
theorem Alike.commitMove (h : world.Alike other) (entity : EntityId) (zone : ZoneId)
    (place : PlaceId) (location : LocationId) :
    (world.commitMove entity zone place location).1 =
        (other.commitMove entity zone place location).1 ∧
      (world.commitMove entity zone place location).2.Alike
        (other.commitMove entity zone place location).2 := by
  unfold World.commitMove
  rw [h.bodies, h.places]
  split
  · exact ⟨rfl, h.dropIfEmpty place⟩
  · split
    · exact ⟨rfl, h⟩
    · dsimp only
      split
      · exact ⟨rfl, (((h.relocate _ _).changeOccupants _ _).broadcast _ _ _).note _⟩
      · split
        · exact ⟨rfl, h.dropIfEmpty place⟩
        · exact ⟨rfl, ((((((h.relocate _ _).vacate _).changeOccupants _ _).retain _).retain
            _).broadcast _ _ _).note _⟩

end World

/-! ## Sessions -/

/-- Following an event of a session leaves worlds alike. -/
theorem Server.alike_followSession {world other : World} (h : world.Alike other)
    (event : SessionEvent) : (followSession world event).Alike (followSession other event) := by
  cases event with
  | started key identity => exact h.createBody identity
  | resumed key identity => exact (h.createBody identity).setStatus identity .active
  | disconnected key identity cause => exact h.setStatus identity .disconnected
  | ended key identity => exact h.removeBody identity

/-! ## Moves -/

/-- The realms differ at most in the caches of their worlds. -/
structure Realm.Alike (realm other : Realm) : Prop where
  world : realm.world.Alike other.world
  zones : other.zones = realm.zones

namespace Realm

variable {realm other third : Realm}

/-- A realm is like itself. -/
theorem Alike.refl (realm : Realm) : realm.Alike realm := ⟨.refl realm.world, rfl⟩

/-- Likeness of realms goes both ways. -/
theorem Alike.symm (h : realm.Alike other) : other.Alike realm := ⟨h.world.symm, h.zones.symm⟩

/-- Realms that are like the same one are alike. -/
theorem Alike.trans (h : realm.Alike other) (h' : other.Alike third) : realm.Alike third :=
  ⟨h.world.trans h'.world, h'.zones.trans h.zones⟩

/-- Every entity has the same body in realms that are alike. -/
theorem Alike.body?_eq (h : realm.Alike other) (entity : EntityId) :
    other.world.body? entity = realm.world.body? entity := by
  rw [World.body?, h.world.bodies, World.body?]

/-- Calling a policy leaves realms alike. -/
theorem Alike.consult (h : realm.Alike other) (zone : ZoneId) (call : PolicyCall) :
    (realm.consult zone call).Alike (other.consult zone call) := by
  unfold Realm.consult
  rw [h.zones]
  exact ⟨h.world.record _, rfl⟩

/-- A policy says the same in realms that are alike, and leaves them alike. -/
theorem Alike.ratify (h : realm.Alike other) (body : Body) (zone : ZoneSummary) :
    (realm.ratify body zone).1 = (other.ratify body zone).1 ∧
      (realm.ratify body zone).2.Alike (other.ratify body zone).2 := by
  unfold Realm.ratify
  rw [h.zones]
  exact ⟨rfl, h.consult _ _⟩

/-- Telling a policy of a body leaves realms alike. -/
theorem Alike.announce (h : realm.Alike other) (entity : EntityId) (zone : ZoneId) :
    (realm.announce entity zone).Alike (other.announce entity zone) := by
  unfold Realm.announce
  rw [h.body?_eq]
  split
  · exact h.consult _ _
  · exact h

/-- Asking for a key touches the cache only. -/
theorem alike_acquire (realm : Realm) (key : CacheKey) : realm.Alike (realm.acquire key).2 :=
  ⟨World.alike_cache realm.world _, rfl⟩

end Realm

namespace MoveRequest

variable {realm other : Realm} {world world' : World}

/-- A move that has its scene comes to the same in worlds that are alike, and leaves them alike. -/
theorem alike_commit (h : world.Alike world') (request : MoveRequest) (zone : ZoneSummary)
    (model : SceneModel) : (request.commit world zone model).1 =
        (request.commit world' zone model).1 ∧
      (request.commit world zone model).2.Alike (request.commit world' zone model).2 := by
  have hplace := h.placeFor model
  unfold commit
  split
  · exact ⟨rfl, h⟩
  · generalize world.placeFor model = made at hplace ⊢
    generalize world'.placeFor model = made' at hplace ⊢
    obtain ⟨place, made⟩ := made
    obtain ⟨place', made'⟩ := made'
    obtain ⟨rfl, hmade⟩ : place = place' ∧ made.Alike made' := hplace
    have hcommit := hmade.commitMove request.entity zone.zone place request.target.location
    dsimp only
    generalize made.commitMove request.entity zone.zone place request.target.location = result
      at hcommit ⊢
    generalize made'.commitMove request.entity zone.zone place request.target.location = result'
      at hcommit ⊢
    obtain ⟨result, after⟩ := result
    obtain ⟨result', after'⟩ := result'
    obtain ⟨rfl, hafter⟩ : result = result' ∧ after.Alike after' := hcommit
    cases result with
    | error error => exact ⟨rfl, hafter⟩
    | ok change =>
      dsimp only
      rw [World.place?, World.place?, hafter.places]
      exact ⟨rfl, hafter⟩

/-- Answering is all that the surroundings see of the end of a move. -/
theorem alike_finish (h : realm.Alike other) (request : MoveRequest) (held held' : List CacheKey)
    (answer : Answer) :
    (request.finish realm held answer).Alike (request.finish other held' answer) := by
  rw [finish, finish, World.foldl_release, World.foldl_release]
  exact ⟨((World.alike_cache _ _).symm.trans (h.world.record _)).trans (World.alike_cache _ _),
    h.zones⟩

end MoveRequest

end SharedWorld
