import Mathlib.Data.List.Perm.Subperm
import SharedWorld.Proofs.Evictions
import SharedWorld.Proofs.Ratifications
import SharedWorld.Proofs.Timelines

/-!
# What legs leave to each other

Moves of many bodies are taken on in one go, and what the one does another finds. Yet what a leg
depends on is not touched by the others: nothing becomes ready and nothing is settled while moves
are taken on, bodies keep their names, and zones stay under their rules (`Realm.Precedes`). If
nothing is evicted either, every leg finds a realm like the one at the start
(`Leg.Path.resembles`).
-/

namespace SharedWorld

/-! ## Nothing becomes ready -/

namespace Cache

open Std

variable {κ π : Type} [Ord κ] {before middle after cache : Cache κ π} {keys : List κ}

/-- What is ready was ready before. -/
def ReadiesNothing (before after : Cache κ π) : Prop :=
  ∀ ⦃key payload⦄, after.peek? key = some payload → before.peek? key = some payload

/-- What was ready is ready still. -/
def EvictsNothing (before after : Cache κ π) : Prop :=
  ∀ ⦃key payload⦄, before.peek? key = some payload → after.peek? key = some payload

/-- All that is ready is among the keys, and the cache keeps as many idle entries. -/
structure Ample (keys : List κ) (cache : Cache κ π) : Prop where
  ready : ∀ ⦃key payload⦄, cache.peek? key = some payload → key ∈ keys
  room : keys.length ≤ cache.idleCapacity

/-- Nothing becomes ready, and nothing is evicted where there is room for all that is ready. -/
structure KeepsAmple (before after : Cache κ π) : Prop where
  readiesNothing : ReadiesNothing before after
  idleCapacity : after.idleCapacity = before.idleCapacity
  sound : before.Sound (fun _ _ => True) → after.Sound fun _ _ => True
  spares : ∀ keys, before.Sound (fun _ _ => True) → before.Ample keys → EvictsNothing before after

/-- If nothing becomes ready step by step, nothing becomes ready. -/
theorem ReadiesNothing.trans (first : ReadiesNothing before middle)
    (rest : ReadiesNothing middle after) :
    ReadiesNothing before after := fun _ _ hpeek => first (rest hpeek)

/-- Where nothing is missing at the end, nothing was missing in between. -/
theorem ReadiesNothing.peek?_eq (first : ReadiesNothing before middle)
    (rest : ReadiesNothing middle after) (spared : EvictsNothing before after) (key : κ) :
    middle.peek? key = before.peek? key := by
  refine Option.ext fun payload => ⟨fun hpeek => first hpeek, fun hpeek => ?_⟩
  exact rest (spared hpeek)

/-- Nothing becomes ready where all entries stay in their states. -/
theorem readiesNothing_of_sameState (h : ∀ key, before.SameState after key) :
    ReadiesNothing before after :=
  fun key _ hpeek => (h key).peek?.symm.trans hpeek

/-- Nothing is evicted where all entries stay in their states. -/
theorem evictsNothing_of_sameState (h : ∀ key, before.SameState after key) :
    EvictsNothing before after := fun key _ hpeek => (h key).peek?.trans hpeek

/-- There stays room while nothing becomes ready. -/
theorem Ample.keepsAmple (h : before.Ample keys) (keepsAmple : KeepsAmple before after) :
    after.Ample keys :=
  ⟨fun _ _ hpeek => h.ready (keepsAmple.readiesNothing hpeek),
    Nat.le_trans h.room (Nat.le_of_eq keepsAmple.idleCapacity.symm)⟩

/-- A cache that keeps all its entries idle has room for those that are ready. -/
theorem ample_keys [TransOrd κ] [LawfulEqOrd κ]
    (h : cache.entries.keys.length ≤ cache.idleCapacity) :
    cache.Ample cache.entries.keys where
  ready key payload hpeek := by
    obtain ⟨refs, hentry⟩ := peek?_eq_some_iff.mp hpeek
    exact Table.mem_keys_iff.mpr ⟨_, hentry⟩
  room := h

/-- Doing nothing keeps a cache ample. -/
theorem KeepsAmple.refl (cache : Cache κ π) : KeepsAmple cache cache :=
  ⟨fun _ _ => id, rfl, id, fun _ _ _ _ _ => id⟩

/-- A cache that is kept ample step by step is kept ample. -/
theorem KeepsAmple.trans (first : KeepsAmple before middle) (rest : KeepsAmple middle after) :
    KeepsAmple before after where
  readiesNothing := first.readiesNothing.trans rest.readiesNothing
  idleCapacity := rest.idleCapacity.trans first.idleCapacity
  sound h := rest.sound (first.sound h)
  spares keys h hample _ _ hpeek :=
    rest.spares keys (first.sound h) (hample.keepsAmple first) (first.spares keys h hample hpeek)

variable [DecidableEq κ]

/-- Where there is room for all that is ready, it does not run out with one more idle entry. -/
theorem Ample.length_touched (h : cache.Ample keys) (hsound : cache.Sound fun _ _ => True) {key : κ}
    {payload : π} (hpeek : cache.peek? key = some payload) :
    (cache.idle.erase key ++ [key]).length ≤ cache.idleCapacity := by
  have hnodup : (key :: cache.idle.erase key).Nodup :=
    List.nodup_cons.mpr ⟨hsound.idle_nodup.not_mem_erase, hsound.idle_nodup.erase key⟩
  have hready : ∀ other ∈ key :: cache.idle.erase key, other ∈ keys := by
    intro other hmem
    rcases List.mem_cons.mp hmem with rfl | hmem
    · exact h.ready hpeek
    · obtain ⟨payload', hentry⟩ := hsound.idle_ready (List.mem_of_mem_erase hmem)
      exact h.ready (peek?_eq_some_iff.mpr ⟨0, hentry⟩)
  have hlength := (List.subperm_of_subset hnodup hready).length_le
  rw [List.length_append, List.length_singleton]
  exact Nat.le_trans hlength h.room

variable [TransOrd κ] [LawfulEqOrd κ] (cache : Cache κ π) (key : κ)

/-- Nothing becomes ready when an entry becomes idle. -/
theorem readiesNothing_makeIdle : ReadiesNothing cache (cache.makeIdle key) := by
  intro other payload hpeek
  obtain ⟨refs, hentry⟩ := peek?_eq_some_iff.mp hpeek
  refine peek?_eq_some_iff.mpr ⟨refs, ?_⟩
  rw [makeIdle, trim, get?_foldl_erase] at hentry
  split at hentry
  · cases hentry
  · exact hentry

/-- Taking a reference keeps a cache ample. -/
theorem keepsAmple_retain : KeepsAmple cache (cache.retain key).2 where
  readiesNothing := by
    unfold retain
    split
    · exact fun _ _ => id
    · exact readiesNothing_of_sameState (sameState_of_insert ‹_› rfl)
  idleCapacity := by
    unfold retain
    split
    · rfl
    · rfl
  sound h := (h.retain key).1
  spares _ h _ _ _ := ((h.retain key).2.2 _).keeps

/-- Giving a reference back makes nothing ready. It evicts something only for want of room. -/
theorem keepsAmple_release : KeepsAmple cache (cache.release key) := by
  suffices h : ReadiesNothing cache (cache.release key) ∧
      (cache.release key).idleCapacity = cache.idleCapacity ∧
      ∀ keys, cache.Sound (fun _ _ => True) → cache.Ample keys →
        EvictsNothing cache (cache.release key) from
    ⟨h.1, h.2.1, fun hsound => (hsound.release key).1, h.2.2⟩
  have hsame : ReadiesNothing cache cache ∧ cache.idleCapacity = cache.idleCapacity ∧
      ∀ keys, cache.Sound (fun _ _ => True) → cache.Ample keys → EvictsNothing cache cache :=
    ⟨fun _ _ => id, rfl, fun _ _ _ _ _ => id⟩
  cases hentry : cache.entries.get? key with
  | none =>
    rw [release_of_refs (by rw [refs, hentry]; rfl)]
    exact hsame
  | some entry =>
    obtain ⟨state, refs⟩ := entry
    cases refs with
    | zero =>
      rw [release_of_refs (by rw [Cache.refs, hentry]; rfl)]
      exact hsame
    | succ refs =>
      have hstate : ∀ other, cache.SameState
          { cache with entries := cache.entries.insert key ⟨state, refs⟩ } other :=
        sameState_of_insert hentry rfl
      simp only [release, hentry]
      -- Only the last reference matters: without it a ready entry is idle, a failed one is gone.
      cases refs with
      | succ refs =>
        exact ⟨readiesNothing_of_sameState hstate, rfl,
          fun _ _ _ => evictsNothing_of_sameState hstate⟩
      | zero =>
        cases state with
        | pending waiters =>
          exact ⟨readiesNothing_of_sameState hstate, rfl,
            fun _ _ _ => evictsNothing_of_sameState hstate⟩
        | ready payload =>
          refine ⟨(readiesNothing_of_sameState hstate).trans (readiesNothing_makeIdle _ key), rfl,
            fun keys hsound hample other payload' hpeek => ?_⟩
          have hpeek' : cache.peek? key = some payload := peek?_eq_some_iff.mpr ⟨1, hentry⟩
          rw [makeIdle, trim_of_le (hample.length_touched hsound hpeek')]
          exact (hstate other).peek?.trans hpeek
        | failed =>
          refine ⟨(readiesNothing_of_sameState hstate).trans fun other payload hpeek => ?_, rfl,
            fun keys hsound hample other payload hpeek => ?_⟩
          · obtain ⟨count, hother⟩ := peek?_eq_some_iff.mp hpeek
            exact peek?_eq_some_iff.mpr ⟨count, (Table.get?_erase_eq_some_iff.mp hother).2⟩
          · have hother : other ≠ key := by
              rintro rfl
              rw [peek?, hentry] at hpeek
              cases hpeek
            obtain ⟨count, hentry'⟩ := peek?_eq_some_iff.mp ((hstate other).peek?.trans hpeek)
            exact peek?_eq_some_iff.mpr
              ⟨count, Table.get?_erase_eq_some_iff.mpr ⟨hother, hentry'⟩⟩

/-- Giving references back keeps a cache ample. -/
theorem keepsAmple_releases (keys : List κ) : KeepsAmple cache (keys.foldl release cache) := by
  induction keys generalizing cache with
  | nil => exact .refl cache
  | cons key rest ih => exact (keepsAmple_release cache key).trans (ih (cache.release key))

/-- What is not ready when it is asked for has to be loaded first. -/
theorem keepsAmple_resolve : KeepsAmple cache (cache.resolve key).2 := by
  refine ⟨?_, ?_, fun h => (h.resolve key).sound,
    fun _ h _ _ _ => ((h.resolve key).evolves _).keeps⟩
  · intro other payload hpeek
    have houtcome := cache.resolve_outcome key
    generalize (cache.resolve key).1 = resolution, (cache.resolve key).2 = after at houtcome hpeek
    obtain ⟨refs, hentry⟩ := peek?_eq_some_iff.mp hpeek
    refine peek?_eq_some_iff.mpr ⟨refs, ?_⟩
    cases houtcome with
    | reads =>
      unfold promote at hentry
      split at hentry
      · exact hentry
      · exact hentry
    | joins =>
      rcases Table.get?_insert_eq_some_iff.mp hentry with ⟨-, heq⟩ | ⟨-, hold⟩
      · cases heq
      · exact hold
    | loads =>
      rw [(cache.startLoad_starts key (cache.refs key)).readers.entries] at hentry
      rcases Table.get?_insert_eq_some_iff.mp hentry with ⟨-, heq⟩ | ⟨-, hold⟩
      · cases heq
      · exact hold
  · have houtcome := cache.resolve_outcome key
    generalize (cache.resolve key).1 = resolution, (cache.resolve key).2 = after at houtcome
    cases houtcome with
    | reads =>
      unfold promote
      split
      · rfl
      · rfl
    | joins => rfl
    | loads => exact (cache.idle_startLoad key (cache.refs key)).2

/-- Resolving a key and taking a reference keeps a cache ample. -/
theorem keepsAmple_acquire : KeepsAmple cache ((cache.resolve key).2.retain key).2 :=
  (keepsAmple_resolve cache key).trans (keepsAmple_retain _ key)

end Cache

namespace World

variable {before middle after world : World} {entity : EntityId}

/-- What was there is there for the moves that come later: nothing has become ready, and the bodies
have the same names. -/
structure KeepsLegInputs (before after : World) : Prop where
  keepsAmple : before.cache.KeepsAmple after.cache
  names : before.Labeled → before.SameNames after

/-- What legs depend on is kept step by step. -/
theorem KeepsLegInputs.trans (first : before.KeepsLegInputs middle)
    (rest : middle.KeepsLegInputs after) : before.KeepsLegInputs after where
  keepsAmple := first.keepsAmple.trans rest.keepsAmple
  names h := (first.names h).trans (rest.names (h.of_sameNames (first.names h)))

/-- What legs depend on is kept while the cache stays ample and the bodies the same. -/
theorem keepsLegInputs_of_bodies (keepsAmple : before.cache.KeepsAmple after.cache)
    (bodies : before.SameBodies after) : before.KeepsLegInputs after :=
  ⟨keepsAmple, fun _ => bodies.sameNames⟩

/-- Clearing out of a place keeps the cache ample. -/
theorem keepsAmple_vacate (world : World) (change : BodyChange) :
    world.cache.KeepsAmple (world.vacate change).cache := by
  rcases world.vacate_cases change with hstays | ⟨zone, scene, place, location, -, hleaves⟩
  · rw [hstays]
    exact .refl _
  · have hzone := world.cache.keepsAmple_release (.zone zone)
    rw [hleaves, cache_dropIfEmpty]
    exact hzone.trans (Cache.keepsAmple_release _ (CacheKey.scene scene))

/-- What legs depend on is kept when a body leaves its place. -/
theorem LeaveOutcome.keepsLegInputs {change : Option BodyChange}
    (outcome : LeaveOutcome world entity change after) : world.KeepsLegInputs after := by
  refine ⟨?_, outcome.sameNames⟩
  cases outcome with
  | outside => exact .refl _
  | @leaves body zone scene place location found inside =>
    exact keepsAmple_vacate (world.replace (body.movedTo (.vacated zone scene))) _

/-- What legs depend on is kept when a body enters a place. -/
theorem CommitOutcome.keepsLegInputs {zone : ZoneId} {place : PlaceId} {location : LocationId}
    {result : Except CommitError BodyChange}
    (outcome : CommitOutcome world entity zone place location result after) :
    world.KeepsLegInputs after := by
  refine ⟨?_, outcome.sameNames⟩
  cases outcome with
  | bodyless | full =>
    rw [cache_dropIfEmpty]
    exact .refl _
  | placeless => exact .refl _
  | shifts =>
    rw [broadcast_eq]
    exact .refl _
  | @enters body host found hosted elsewhere room =>
    rw [broadcast_eq]
    have hvacate := keepsAmple_vacate
      (world.replace (body.movedTo (.inside zone host.scene place location)))
      (body.changeTo (.inside zone host.scene place location))
    have hzone := hvacate.trans (Cache.keepsAmple_retain _ (.zone zone))
    exact hzone.trans (Cache.keepsAmple_retain _ (CacheKey.scene host.scene))

/-- What legs depend on is kept when a place is found for a scene. -/
theorem keepsLegInputs_placeFor (world : World) (model : SceneModel) :
    world.KeepsLegInputs (world.placeFor model).2 := by
  refine keepsLegInputs_of_bodies ?_ (world.sameBodies_placeFor model)
  rw [cache_placeFor]
  exact .refl _

/-- Each operation leaves to those after it what they depend on. -/
theorem keepsLegInputs_upkeep : Upkeep fun _ _ before after => before.KeepsLegInputs after where
  trans := .trans
  perm _ _ := keepsLegInputs_of_bodies (.refl _) ⟨rfl, rfl, rfl⟩
  effects _ _ := keepsLegInputs_of_bodies (.refl _) ⟨rfl, rfl, rfl⟩
  leavePlace world entity := (leavePlace_outcome world entity).keepsLegInputs
  enters {_ request zone _ _ model _ world after} _ _ _ outcome := by
    have hplace := world.keepsLegInputs_placeFor model
    cases outcome with
    | unlisted => exact keepsLegInputs_of_bodies (.refl _) ⟨rfl, rfl, rfl⟩
    | refused commit => exact hplace.trans commit.keepsLegInputs
    | entered commit => exact hplace.trans commit.keepsLegInputs
  finish flight realm answer := by
    rw [MoveRequest.finish, foldl_release]
    exact keepsLegInputs_of_bodies (Cache.keepsAmple_releases _ _) ⟨rfl, rfl, rfl⟩
  takesZone _ realm := keepsLegInputs_of_bodies (Cache.keepsAmple_acquire _ _) ⟨rfl, rfl, rfl⟩
  takesScene realm _ _ := keepsLegInputs_of_bodies (Cache.keepsAmple_acquire _ _) ⟨rfl, rfl, rfl⟩

end World

/-- What legs depend on is kept by each leg. -/
theorem Leg.keepsLegInputs (leg : Leg) : leg.before.world.KeepsLegInputs leg.after.world := by
  obtain ⟨request, stage?, before⟩ := leg
  cases stage? with
  | none => exact World.keepsLegInputs_upkeep.launch request [] before
  | some stage => exact World.keepsLegInputs_upkeep.step ⟨request, stage⟩ [] before

/-! ## Zones stay under their rules -/

/-- The zones are under the same policies, whatever calls these have had. -/
structure ZoneRegistry.SameRules (before after : ZoneRegistry) : Prop where
  name : ∀ zone, (after.policyFor zone).name = (before.policyFor zone).name
  verdict : ∀ zone, (after.policyFor zone).verdict = (before.policyFor zone).verdict

namespace ZoneRegistry.SameRules

/-- Zones are under the same rules as themselves. -/
theorem refl (zones : ZoneRegistry) : SameRules zones zones := ⟨fun _ => rfl, fun _ => rfl⟩

/-- Zones stay under the same rules step by step. -/
theorem trans {before middle after : ZoneRegistry} (first : SameRules before middle)
    (rest : SameRules middle after) : SameRules before after where
  name zone := (rest.name zone).trans (first.name zone)
  verdict zone := (rest.verdict zone).trans (first.verdict zone)

/-- Zones stay under the same rules when a call of a policy is noted. -/
theorem note (zones : ZoneRegistry) (zone : ZoneId) (call : PolicyCall) :
    SameRules zones (zones.note zone call) where
  name other := zones.policyFor_note_name zone other call
  verdict other := by
    rcases zones.policyFor_note zone other call with heq | heq
    · rw [heq]
    · rw [heq]
      rfl

/-- Zones stay under the same rules when a policy is told of a body. -/
theorem announce (realm : Realm) (entity : EntityId) (zone : ZoneId) :
    SameRules realm.zones (realm.announce entity zone).zones := by
  unfold Realm.announce
  split
  · exact note _ _ _
  · exact refl _

/-- Zones stay under the same rules when a policy is asked. -/
theorem inquire (request : MoveRequest) (load : LoadOutcome Bundle) (realm : Realm) :
    SameRules realm.zones (request.inquire load realm).zones := by
  unfold MoveRequest.inquire
  split
  · exact refl _
  · exact note _ _ _

end ZoneRegistry.SameRules

namespace Leg

variable {leg : Leg} {zone : ZoneSummary} {inquiry : List Effect}
  {resolution : Resolution CacheKey Bundle} {realm : Realm}

/-- Looking for its zone or scene, a leg calls no policy. -/
theorem quest_zones (quest : leg.quest? = some (resolution, realm)) :
    realm.zones = leg.before.zones := by
  rw [quest_realm quest]

/-- Zones stay under the same rules until a leg has its scene. -/
theorem Reaches.sameRules (reaches : leg.Reaches zone inquiry resolution realm) :
    leg.before.zones.SameRules realm.zones := by
  cases reaches with
  | resumes => exact .refl _
  | @admitted _ realm load quest =>
    rw [← quest_zones quest]
    exact .inquire leg.request load realm

/-- Zones stay under the same rules in each leg. -/
theorem sameRules (leg : Leg) : leg.before.zones.SameRules leg.after.zones := by
  have hending := leg.ending
  generalize leg.after = after, leg.effects = effects, leg.parked = flight at hending
  cases hending with
  | awaitsZone quest =>
    rw [quest_zones quest]
    exact .refl _
  | @stopped resolution realm load fault quest =>
    rw [← quest_zones quest]
    exact .inquire leg.request load realm
  | awaitsScene reaches => exact reaches.sameRules
  | refused reaches => exact reaches.sameRules
  | @entered zone _ _ _ realm _ reply world reaches =>
    have hannounced := ZoneRegistry.SameRules.announce
      (leg.request.finish { realm with world := world } leg.request.keys (.success reply))
      leg.request.entity zone.zone
    exact reaches.sameRules.trans hannounced

end Leg

/-! ## Along a path of legs -/

/-- A leg finds in the realm what it would find in the other: the same is ready and was settled, and
the same bodies are under the same rules. -/
structure Realm.Resembles (start realm : Realm) : Prop where
  ready : ∀ key, realm.world.cache.peek? key = start.world.cache.peek? key
  quiet : Cache.Quiet start.world.cache realm.world.cache
  names : start.world.SameNames realm.world
  rules : start.zones.SameRules realm.zones

/-- How legs lead from one realm to another. -/
structure Realm.Precedes (before after : Realm) : Prop where
  keepsLegInputs : before.world.KeepsLegInputs after.world
  quiet : before.world.cache.SingleFlight → Cache.Quiet before.world.cache after.world.cache
  rules : before.zones.SameRules after.zones
  keeps : before.world.KeepsSound after.world

namespace Realm.Precedes

/-- A realm precedes itself. -/
theorem refl (realm : Realm) : realm.Precedes realm where
  keepsLegInputs := World.keepsLegInputs_of_bodies (.refl _) ⟨rfl, rfl, rfl⟩
  quiet h := h.quiet_refl
  rules := .refl _
  keeps := .refl _

/-- Realms precede each other step by step. -/
theorem trans {before middle after : Realm} (first : before.Precedes middle)
    (rest : middle.Precedes after) : before.Precedes after where
  keepsLegInputs := first.keepsLegInputs.trans rest.keepsLegInputs
  quiet h := (first.quiet h).trans (rest.quiet (first.quiet h).single)
  rules := first.rules.trans rest.rules
  keeps := first.keeps.trans rest.keeps

/-- The realm before a leg precedes the one after it. -/
theorem leg (leg : Leg) : leg.before.Precedes leg.after :=
  ⟨leg.keepsLegInputs, leg.quiet, leg.sameRules, leg.keepsSound⟩

end Realm.Precedes

/-- The realm at the start of a path precedes the one at its end. -/
theorem Leg.Path.precedes {start finish : Realm} {legs : List Leg} (h : Path start legs finish) :
    start.Precedes finish :=
  h.compose Realm.Precedes.refl Realm.Precedes.trans Realm.Precedes.leg

/-- What holds at the start and survives each of the legs, each of them finds. -/
theorem Leg.Path.preserves {P : Realm → Prop} {start finish : Realm} {legs : List Leg}
    (h : Path start legs finish) (hstart : P start)
    (step : ∀ leg ∈ legs, P leg.before → P leg.after) : ∀ leg ∈ legs, P leg.before := by
  induction legs generalizing start with
  | nil => exact List.forall_mem_nil _
  | cons first legs ih =>
    obtain ⟨rfl, hrest⟩ := h
    obtain ⟨hfirst, hlater⟩ := List.forall_mem_cons.mp step
    exact List.forall_mem_cons.mpr ⟨hstart, ih hrest (hfirst hstart) hlater⟩

/-- If nothing is evicted, every leg finds what it would find at the start. -/
theorem Leg.Path.resembles {start finish : Realm} {legs : List Leg} (h : Path start legs finish)
    (hsingle : start.world.cache.SingleFlight) (hsound : start.world.Sound)
    (hunwrapped : finish.world.Unwrapped)
    (spared : start.world.cache.EvictsNothing finish.world.cache) {leg : Leg} (hleg : leg ∈ legs) :
    start.Resembles leg.before ∧ leg.before.world.Sound ∧ leg.after.world.Unwrapped := by
  obtain ⟨hbefore, hafter⟩ :=
    h.around Realm.Precedes.refl Realm.Precedes.trans Realm.Precedes.leg hleg
  have hrest := (Realm.Precedes.leg leg).trans hafter
  have hunwrapped' := hafter.keeps.unwrapped hunwrapped
  refine ⟨⟨?_, hbefore.quiet hsingle, hbefore.keepsLegInputs.names hsound.registers.labeled,
    hbefore.rules⟩, hbefore.keeps.sound hsound (leg.keepsSound.unwrapped hunwrapped'), hunwrapped'⟩
  exact hbefore.keepsLegInputs.keepsAmple.readiesNothing.peek?_eq
    hrest.keepsLegInputs.keepsAmple.readiesNothing spared

end SharedWorld
