import SharedWorld.Proofs.Headcounts
import SharedWorld.Proofs.Loads

/-!
# Who is waiting does not notice bodies

A body that goes somewhere, and a move that has answered, take references on cache entries and give
references back. That may evict an entry, but no load is started or settled by it: everybody who
waits for one stays listed, and nobody is told anything (`Cache.Recounts`).
-/

namespace SharedWorld

namespace Cache

open Std

variable {κ π : Type} [Ord κ] {Fits : κ → π → Prop} {before after cache : Cache κ π}

/-- Only references were taken or given back. -/
structure Recounts (Fits : κ → π → Prop) (before after : Cache κ π) : Prop where
  spares : before.Spares after
  sound : after.Sound Fits

/-- Doing nothing takes no reference and gives none back. -/
theorem Sound.recounts_refl (h : cache.Sound Fits) : Recounts Fits cache cache := ⟨.refl cache, h⟩

/-- A cache that is the same has the same references. -/
theorem Sound.recounts_of_eq (h : before.Sound Fits) (heq : after = before) :
    Recounts Fits before after := by
  rw [heq]
  exact h.recounts_refl

/-- References are taken and given back step by step. -/
theorem Recounts.trans {middle : Cache κ π} (first : Recounts Fits before middle)
    (rest : Recounts Fits middle after) : Recounts Fits before after :=
  ⟨first.spares.trans rest.spares, rest.sound⟩

section

variable [DecidableEq κ] [TransOrd κ] [LawfulEqOrd κ]

/-- Taking a reference starts no load and tells nobody anything. -/
theorem Sound.recounts_retain (h : cache.Sound Fits) (key : κ) :
    Recounts Fits cache (cache.retain key).2 := ⟨cache.retain_spares key, (h.retain key).1⟩

/-- Giving a reference back starts no load and tells nobody anything. -/
theorem Sound.recounts_release (h : cache.Sound Fits) (key : κ) :
    Recounts Fits cache (cache.release key) := ⟨h.release_spares key, (h.release key).1⟩

/-- Giving references back starts no load and tells nobody anything. -/
theorem Sound.recounts_releases (h : cache.Sound Fits) (held : List κ) :
    Recounts Fits cache (held.foldl Cache.release cache) :=
  ⟨h.releases_spares held, (h.releases held).1⟩

end

end Cache

variable {Fits : CacheKey → Bundle → Prop}

namespace World

variable {world after : World} {entity : EntityId}

/-- Clearing out of a place does no more to the cache than give references back. -/
theorem recounts_vacate (world : World) (h : world.cache.Sound Fits) (change : BodyChange) :
    Cache.Recounts Fits world.cache (world.vacate change).cache := by
  rcases world.vacate_cases change with hstays | ⟨zone, scene, place, location, -, hleaves⟩
  · rw [hstays]
    exact h.recounts_refl
  · have hzone := h.recounts_release (.zone zone)
    rw [hleaves, cache_dropIfEmpty]
    exact hzone.trans (hzone.sound.recounts_release (.scene scene))

/-- Leaving a place does no more to the cache than give references back. -/
theorem LeaveOutcome.recounts {change : Option BodyChange}
    (outcome : LeaveOutcome world entity change after) (h : world.cache.Sound Fits) :
    Cache.Recounts Fits world.cache after.cache := by
  cases outcome with
  | outside => exact h.recounts_refl
  | @leaves body zone scene place location found inside =>
    exact recounts_vacate (world.replace (body.movedTo (.vacated zone scene))) h _

/-- Entering a place does no more to the cache than take references and give some back. -/
theorem CommitOutcome.recounts {zone : ZoneId} {place : PlaceId} {location : LocationId}
    {result : Except CommitError BodyChange}
    (outcome : CommitOutcome world entity zone place location result after)
    (h : world.cache.Sound Fits) : Cache.Recounts Fits world.cache after.cache := by
  cases outcome with
  | bodyless => exact h.recounts_of_eq (cache_dropIfEmpty world place)
  | placeless => exact h.recounts_refl
  | full => exact h.recounts_of_eq (cache_dropIfEmpty world place)
  | shifts =>
    rw [broadcast_eq]
    exact h.recounts_refl
  | @enters body host found hosted elsewhere room =>
    have hvacate := recounts_vacate
      (world.replace (body.movedTo (.inside zone host.scene place location))) h
      (body.changeTo (.inside zone host.scene place location))
    have hzone := hvacate.sound.recounts_retain (.zone zone)
    rw [broadcast_eq]
    exact (hvacate.trans hzone).trans (hzone.sound.recounts_retain (.scene host.scene))

/-- Making a body leaves the cache alone. -/
theorem cache_createBody (world : World) (identity : Identity) :
    (world.createBody identity).2.cache = world.cache := by
  unfold createBody
  split
  · rfl
  · rfl

/-- A new status leaves the cache alone. -/
theorem StatusOutcome.cache_eq {identity : Identity} {status : OccupantStatus}
    (outcome : StatusOutcome world identity status after) : after.cache = world.cache := by
  cases outcome with
  | same => rfl
  | alone => rfl
  | shown => rw [broadcast_eq]; rfl

/-- Removing a body does no more to the cache than give references back. -/
theorem RemoveOutcome.recounts {identity : Identity}
    (outcome : RemoveOutcome world identity after) (h : world.cache.Sound Fits) :
    Cache.Recounts Fits world.cache after.cache := by
  cases outcome with
  | unknown => exact h.recounts_refl
  | removes named leaves => exact leaves.recounts h

end World

/-- Following an event of a session does no more to the cache than give references back. -/
theorem Server.recounts_followSession {world : World} (h : world.cache.Sound Fits)
    (event : SessionEvent) :
    Cache.Recounts Fits world.cache (followSession world event).cache := by
  cases event with
  | started key identity => exact h.recounts_of_eq (world.cache_createBody identity)
  | resumed key identity =>
    have hcache := (World.setStatus_outcome (world.createBody identity).2 identity .active).cache_eq
    rw [world.cache_createBody] at hcache
    exact h.recounts_of_eq hcache
  | disconnected key identity cause =>
    exact h.recounts_of_eq (world.setStatus_outcome identity .disconnected).cache_eq
  | ended key identity => exact (world.removeBody_outcome identity).recounts h

namespace MoveRequest

/-- A move that has its scene does no more to the cache than take references and give some back. -/
theorem EntryOutcome.recounts {request : MoveRequest} {world after : World} {zone : ZoneSummary}
    {model : SceneModel} {answer : Answer}
    (outcome : EntryOutcome request world zone model answer after) (h : world.cache.Sound Fits) :
    Cache.Recounts Fits world.cache after.cache := by
  have hsame := world.cache_placeFor model
  have hplace : (world.placeFor model).2.cache.Sound Fits := by
    rw [hsame]
    exact h
  cases outcome with
  | unlisted => exact h.recounts_refl
  | refused commit =>
    rw [← hsame]
    exact commit.recounts hplace
  | entered commit =>
    rw [← hsame]
    exact commit.recounts hplace

/-- Finishing a move does no more to the cache than give references back. -/
theorem recounts_finish (request : MoveRequest) {realm : Realm} (h : realm.world.cache.Sound Fits)
    (held : List CacheKey) (answer : Answer) :
    Cache.Recounts Fits realm.world.cache (request.finish realm held answer).world.cache := by
  rw [finish, World.foldl_release]
  exact h.recounts_releases held

end MoveRequest

/-- Telling a policy of a body leaves the cache alone. -/
theorem Realm.cache_announce (realm : Realm) (entity : EntityId) (zone : ZoneId) :
    (realm.announce entity zone).world.cache = realm.world.cache := by
  unfold announce
  split
  · rfl
  · rfl

end SharedWorld
