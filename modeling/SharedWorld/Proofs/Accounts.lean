import SharedWorld.Proofs.Consistency
import SharedWorld.Proofs.Headcounts

/-!
# The references on zones

A zone is referenced once for each body that stands in it and once for each move under way to it.
References are taken and given back at different times by different functions; what each of them
does to the account of a world is stated by `World.CarriesAccounts`.

The accounts are right as long as no body changes its zone without changing its place. A scene can
be entered through any zone that lists it, so a body that is in the scene's place can move there
again through another zone. It then stands in the new zone, which it holds no reference on, and the
reference it holds is on the old one.
-/

namespace SharedWorld

/-- Whether a body at the location is in a place that it entered through the zone. -/
def BodyLocation.standsIn (location : BodyLocation) (zone : ZoneId) : Bool :=
  match location with
  | .inside other _ _ _ => other = zone
  | .nowhere | .vacated _ _ => false

/-- How many bodies stand in a zone. -/
def World.standing (world : World) (zone : ZoneId) : Nat :=
  world.bodies.values.countP (·.location.standsIn zone)

/-- How many of the moves are to a zone. -/
def movesTo (flights : List Flight) (zone : ZoneId) : Nat :=
  flights.countP (·.request.target.zone = zone)

/-- How many moves to a zone are under way. -/
def Pipeline.bound (pipeline : Pipeline) (zone : ZoneId) : Nat :=
  movesTo pipeline.inFlight.values zone

/-- Whether the change takes a body to another zone without taking it to another place. -/
def BodyChange.rezones (change : BodyChange) : Bool :=
  change.before.place?.isSome && change.before.place? = change.after.place? &&
    change.before.zone? ≠ change.after.zone?

/-- A zone that is loaded under the key of a zone is that zone. -/
def CacheKey.Fits (key : CacheKey) (bundle : Bundle) : Prop :=
  ∀ zone summary, key = .zone zone → bundle = .zone summary → summary.zone = zone

/-- The changes that were not handed out yet take no body to another zone of the same place, and no
counter has come round. -/
structure World.Regular (world : World) : Prop where
  unwrapped : world.Unwrapped
  settled : ∀ change ∈ world.changes, change.rezones = false

/-- Each reference on a zone belongs to a body that stands in the zone, or is one of those that are
held for moves. A zone somebody stands in is ready. -/
structure World.Balanced (held : ZoneId → Nat) (world : World) : Prop where
  cache : world.cache.Sound CacheKey.Fits
  refs : ∀ zone, world.cache.refs (.zone zone) = world.standing zone + held zone
  ready : ∀ {zone}, 0 < world.standing zone →
    ∃ summary, world.cache.peek? (.zone zone) = some (.zone summary)

/-- What a move was told of its zone is what the cache holds. -/
def Flight.Supported (cache : Cache CacheKey Bundle) (flight : Flight) : Prop :=
  match flight.stage with
  | .resolvingZone resolution => cache.Holds (.zone flight.request.target.zone) resolution
  | .resolvingScene zone _ => zone.zone = flight.request.target.zone ∧
    cache.peek? (.zone flight.request.target.zone) = some (.zone zone)

/-- The records of the world agree, its account of the zones is right when the given moves are under
way, and none of these was told anything wrong. -/
structure World.Accounts (flights : List Flight) (world : World) : Prop where
  sound : world.Sound
  balanced : world.Balanced (movesTo flights)
  supported : ∀ flight ∈ flights, flight.Supported world.cache

/-- The account of the earlier world with its moves is carried over to the later one with its
own. -/
structure World.CarriesAccounts (flights flights' : List Flight) (before after : World) : Prop where
  regular : after.Regular → before.Regular
  accounts : before.Accounts flights → after.Regular → after.Accounts flights'

/-- A move that is under way is counted at its zone. -/
theorem movesTo_pos {flights : List Flight} {flight : Flight} (hmem : flight ∈ flights) :
    0 < movesTo flights flight.request.target.zone :=
  List.countP_pos_iff.mpr ⟨flight, hmem, decide_eq_true rfl⟩

/-- Each move under way counts once, at its own zone. -/
theorem movesTo_cons (flight : Flight) (flights : List Flight) (zone : ZoneId) :
    movesTo (flight :: flights) zone =
      movesTo flights zone + if flight.request.target.zone = zone then 1 else 0 := by
  simp only [movesTo, List.countP_cons, decide_eq_true_eq]

/-- A move keeps its support while the entry of its zone is kept. -/
theorem Flight.Supported.evolves {flight : Flight} {before after : Cache CacheKey Bundle}
    (h : flight.Supported before)
    (hevolves : before.Evolves after (.zone flight.request.target.zone)) :
    flight.Supported after := by
  obtain ⟨request, stage⟩ := flight
  cases stage with
  | resolvingZone resolution => exact hevolves.holds h
  | resolvingScene zone resolution => exact ⟨h.1, hevolves.keeps h.2⟩

namespace World

variable {before after world : World} {held held' : ZoneId → Nat} {flights flights' : List Flight}

/-- Who stands in a zone depends on the bodies alone. -/
theorem SameBodies.standing (h : before.SameBodies after) (zone : ZoneId) :
    after.standing zone = before.standing zone := by
  rw [World.standing, World.standing, h.bodies]

/-- A world carries its own account over. -/
theorem CarriesAccounts.refl (flights : List Flight) (world : World) :
    CarriesAccounts flights flights world world := ⟨id, fun h _ => h⟩

/-- Accounts are carried over step by step. -/
theorem CarriesAccounts.trans {middle : World} {during : List Flight}
    (first : CarriesAccounts flights during before middle)
    (rest : CarriesAccounts during flights' middle after) :
    CarriesAccounts flights flights' before after :=
  ⟨fun h => first.regular (rest.regular h),
    fun h hafter => rest.accounts (first.accounts h (rest.regular hafter)) hafter⟩

/-- The order in which moves are listed does not matter. -/
theorem Accounts.perm (h : world.Accounts flights) (hperm : flights.Perm flights') :
    world.Accounts flights' := by
  have hcount : movesTo flights = movesTo flights' := funext fun zone => hperm.countP_eq _
  refine ⟨h.sound, ?_, fun flight hmem => h.supported flight (hperm.mem_iff.mpr hmem)⟩
  rw [← hcount]
  exact h.balanced

/-- What is done to the account of a world, shown where the account is right. The moves that go on
hold what they hold. -/
theorem carriesAccounts_of_balanced (hkeeps : before.KeepsSound after) {new : List BodyChange}
    (hchanges : after.changes = before.changes ++ new)
    (h : before.Regular → before.Accounts flights → after.Unwrapped →
      (∀ change ∈ new, change.rezones = false) → after.Balanced (movesTo flights') ∧
        (∀ zone, 0 < after.cache.refs (.zone zone) →
          before.cache.Evolves after.cache (.zone zone)) ∧
        ∀ flight ∈ flights', flight ∈ flights ∨ flight.Supported after.cache) :
    CarriesAccounts flights flights' before after := by
  have hsettled : after.Regular → ∀ change ∈ before.changes ++ new, change.rezones = false := by
    intro hafter
    rw [← hchanges]
    exact hafter.settled
  have hregular : after.Regular → before.Regular := fun hafter =>
    ⟨hkeeps.unwrapped hafter.unwrapped, fun change hmem =>
      hsettled hafter change (List.mem_append_left _ hmem)⟩
  refine ⟨hregular, fun hbefore hafter => ?_⟩
  obtain ⟨hbalanced, hevolves, hsupported⟩ := h (hregular hafter) hbefore hafter.unwrapped
    fun change hmem => hsettled hafter change (List.mem_append_right _ hmem)
  refine ⟨hkeeps.sound hbefore.sound hafter.unwrapped, hbalanced, fun flight hmem => ?_⟩
  rcases hsupported flight hmem with hold | hnew
  · refine (hbefore.supported flight hold).evolves (hevolves _ ?_)
    have hpos := movesTo_pos hmem
    rw [hbalanced.refs]
    omega
  · exact hnew

/-- An account stays right when references and bodies change together. A zone that somebody comes to
stand in has to be ready. -/
theorem Balanced.step (h : before.Balanced held) (hcache : after.cache.Sound CacheKey.Fits)
    (hrefs : ∀ zone, after.cache.refs (.zone zone) = after.standing zone + held' zone)
    (hevolves : ∀ zone, 0 < after.cache.refs (.zone zone) →
      before.cache.Evolves after.cache (.zone zone))
    (hready : ∀ zone, 0 < after.standing zone → 0 < before.standing zone ∨
      ∃ summary, before.cache.peek? (.zone zone) = some (.zone summary)) :
    after.Balanced held' := by
  refine ⟨hcache, hrefs, fun {zone} hpos => ?_⟩
  obtain ⟨summary, hpeek⟩ := (hready zone hpos).elim h.ready id
  refine ⟨summary, (hevolves zone ?_).keeps hpeek⟩
  rw [hrefs]
  omega

/-- What touches neither bodies nor places carries the account over, with the references it takes or
gives back. -/
theorem carriesAccounts_cache (world : World) (cache : Cache CacheKey Bundle)
    (effects : List Effect) (hcache : world.Accounts flights → cache.Sound CacheKey.Fits ∧
      (∀ zone, cache.refs (.zone zone) + movesTo flights zone =
        world.cache.refs (.zone zone) + movesTo flights' zone) ∧
      (∀ zone, 0 < cache.refs (.zone zone) → world.cache.Evolves cache (.zone zone)) ∧
      ∀ flight ∈ flights', flight ∈ flights ∨ flight.Supported cache) :
    CarriesAccounts flights flights' world { world with cache := cache, effects := effects } := by
  refine carriesAccounts_of_balanced (world.keepsSound_beside cache world.changes effects)
    (List.append_nil world.changes).symm fun _ h _ _ => ?_
  obtain ⟨hsound, hrefs, hevolves, hsupported⟩ := hcache h
  refine ⟨h.balanced.step hsound (fun zone => ?_) hevolves fun _ hpos => .inl hpos, hevolves,
    hsupported⟩
  have hbefore := h.balanced.refs zone
  have hafter := hrefs zone
  change cache.refs (.zone zone) = world.standing zone + _
  omega

/-- What is done to the surroundings has no part in the account. -/
theorem carriesAccounts_effects (world : World) (effects : List Effect) :
    CarriesAccounts flights flights world { world with effects := effects } :=
  world.carriesAccounts_cache world.cache effects fun h =>
    ⟨h.balanced.cache, fun _ => rfl, fun _ _ => .refl _ _, fun _ hmem => .inl hmem⟩

end World

/-- To stand in a zone is to hold the entry of the zone. -/
theorem BodyLocation.holds_zone (location : BodyLocation) (zone : ZoneId) :
    location.holds (.zone zone) = location.standsIn zone := by
  cases location with
  | nowhere => rfl
  | vacated other scene => rfl
  | inside other scene place spot => simp [holds, standsIn, eq_comm]

/-- Those who stand in a zone are those who hold its entry. -/
theorem World.standing_eq (world : World) (zone : ZoneId) :
    world.standing zone = world.headcount (·.holds (.zone zone)) := by
  simp only [World.headcount, BodyLocation.holds_zone]
  rfl

/-- Nobody stands in a zone who is in no place. -/
theorem BodyLocation.standsIn_of_place? {location : BodyLocation} (h : location.place? = none)
    (zone : ZoneId) : location.standsIn zone = false := by
  cases location with
  | nowhere => rfl
  | vacated other scene => rfl
  | inside other scene place spot => cases h

/-- A change that is no rezoning leaves a body that stays in its place in its zone. -/
theorem BodyChange.standsIn_of_stayed {change : BodyChange} (hkept : change.rezones = false)
    (hstayed : change.changedPlace = false) (zone : ZoneId) :
    change.before.standsIn zone = change.after.standsIn zone := by
  obtain ⟨entity, identity, before, after⟩ := change
  have hplace : before.place? = after.place? := not_not.mp (of_decide_eq_false hstayed)
  cases before with
  | nowhere => exact (after.standsIn_of_place? hplace.symm zone).symm
  | vacated other scene => exact (after.standsIn_of_place? hplace.symm zone).symm
  | inside other scene place spot =>
    cases after with
    | nowhere => cases hplace
    | vacated other' scene' => cases hplace
    | inside other' scene' place' spot' =>
      cases hplace
      simp only [rezones, BodyLocation.place?, BodyLocation.zone?, Option.isSome_some,
        Bool.true_and, decide_true, decide_eq_false_iff_not, ne_eq, not_not,
        Option.some.injEq] at hkept
      rw [hkept]
      rfl

namespace World

variable {before after world : World} {held : ZoneId → Nat} {flights : List Flight}

/-- Dropping a place records no change. -/
theorem changes_dropIfEmpty (world : World) (place : PlaceId) :
    (world.dropIfEmpty place).changes = world.changes := by
  unfold dropIfEmpty
  split
  · rfl
  · split
    · rfl
    · rfl

/-- Clearing out of a place records no change of its own. -/
theorem changes_vacate (world : World) (change : BodyChange) :
    (world.vacate change).changes = world.changes := by
  rcases world.vacate_cases change with hstays | ⟨zone, scene, place, location, -, hleaves⟩
  · rw [hstays]
  · rw [hleaves, changes_dropIfEmpty]
    rfl

/-! ## Operations on bodies -/

variable {entity : EntityId} {change : Option BodyChange}

/-- An account stays right when a body moves, unless it changes its zone without changing its place.
The zone that it comes to stand in has to be one that a move is held for. -/
theorem Balanced.follows (h : before.Balanced held) (hfollows : Follows change before after)
    (hkept : ∀ moved ∈ change, moved.rezones = false)
    (hentered : ∀ moved ∈ change, ∀ zone, moved.after.standsIn zone = true →
      0 < held zone ∧ ∃ summary, before.cache.peek? (.zone zone) = some (.zone summary)) :
    after.Balanced held ∧ ∀ zone, 0 < after.cache.refs (.zone zone) →
      before.cache.Evolves after.cache (.zone zone) := by
  have hzone : ∀ zone, after.cache.refs (.zone zone) = after.standing zone + held zone ∧
      (0 < after.cache.refs (.zone zone) → before.cache.Evolves after.cache (.zone zone)) ∧
      (0 < after.standing zone → 0 < before.standing zone ∨
        ∃ moved ∈ change, moved.after.standsIn zone = true) := by
    intro zone
    have hrefs := h.refs zone
    rw [standing_eq] at hrefs
    simp only [standing_eq, ← BodyLocation.holds_zone]
    refine hfollows.refs h.cache hrefs (fun moved hmoved hstayed => ?_)
      fun moved hmoved hholds => (hentered moved hmoved zone
        ((moved.after.holds_zone zone).symm.trans hholds)).1
    rw [BodyLocation.holds_zone, BodyLocation.holds_zone]
    exact BodyChange.standsIn_of_stayed (hkept moved hmoved) hstayed zone
  refine ⟨h.step (hfollows.sound h.cache) (fun zone => (hzone zone).1)
    (fun zone => (hzone zone).2.1) fun zone hpos => ?_, fun zone => (hzone zone).2.1⟩
  rcases (hzone zone).2.2 hpos with hstood | ⟨moved, hmoved, hstands⟩
  · exact .inl hstood
  · exact .inr (hentered moved hmoved zone hstands).2

/-- A body that goes to no other place comes to stand in no zone. -/
theorem Balanced.leaves (h : before.Balanced held) (hfollows : Follows change before after)
    (houtdoors : ∀ moved ∈ change, moved.after.place? = none) :
    after.Balanced held ∧ ∀ zone, 0 < after.cache.refs (.zone zone) →
      before.cache.Evolves after.cache (.zone zone) := by
  refine h.follows hfollows (fun moved hmoved => ?_) fun moved hmoved zone hstands => ?_
  · rw [BodyChange.rezones, houtdoors moved hmoved]
    cases moved.before.place? <;> rfl
  · rw [BodyLocation.standsIn_of_place? (houtdoors moved hmoved)] at hstands
    cases hstands

variable {zone : ZoneId} {place : PlaceId} {location : LocationId}
  {result : Except CommitError BodyChange}

/-- Moving a body through a zone that a move is held for keeps the account right, unless the body
changes its zone without changing its place. -/
theorem CommitOutcome.balanced
    (outcome : CommitOutcome world entity zone place location result after)
    (hlabeled : world.Labeled) (houses : world.Houses world.stays [place])
    (h : world.Balanced held) (hheld : 0 < held zone)
    (hready : ∃ summary, world.cache.peek? (.zone zone) = some (.zone summary))
    (hsettled : ∀ change, result = .ok change → change.rezones = false) :
    after.Balanced held ∧ ∀ other, 0 < after.cache.refs (.zone other) →
      world.cache.Evolves after.cache (.zone other) := by
  have hfollows := outcome.follows hlabeled houses
  cases result with
  | error error => exact h.leaves hfollows nofun
  | ok change =>
    obtain ⟨body, host, -, -, hchange⟩ := outcome.change_eq
    refine h.follows hfollows (fun moved hmoved => ?_) fun moved hmoved other hstands => ?_
    · exact hsettled moved (congrArg Except.ok (Option.some.inj hmoved))
    · have hother : zone = other := by
        rw [← Option.some.inj hmoved, hchange] at hstands
        exact of_decide_eq_true hstands
      rw [← hother]
      exact ⟨hheld, hready⟩

/-! ## Accounts that are carried over -/

/-- Leaving a place records the change that it returns. -/
theorem LeaveOutcome.changes {change : Option BodyChange}
    (outcome : LeaveOutcome world entity change after) :
    after.changes = world.changes ++ change.toList := by
  cases outcome with
  | outside => exact (List.append_nil _).symm
  | leaves => exact congrArg (· ++ _) (changes_vacate _ _)

/-- A new status is no change of a location. -/
theorem StatusOutcome.changes {identity : Identity} {status : OccupantStatus}
    (outcome : StatusOutcome world identity status after) : after.changes = world.changes := by
  cases outcome with
  | same => rfl
  | alone => rfl
  | shown => rw [broadcast_eq]; rfl

/-- Removing a body only adds to the changes. -/
theorem RemoveOutcome.changes {identity : Identity} (outcome : RemoveOutcome world identity after) :
    ∃ new, after.changes = world.changes ++ new := by
  cases outcome with
  | unknown => exact ⟨[], (List.append_nil _).symm⟩
  | removes named leaves => exact ⟨_, leaves.changes⟩

/-- Entering a place records the change that it returns, and nothing if it fails. -/
theorem CommitOutcome.changes
    (outcome : CommitOutcome world entity zone place location result after) :
    after.changes = world.changes ++ result.toOption.toList := by
  cases outcome with
  | bodyless => exact (changes_dropIfEmpty _ _).trans (List.append_nil _).symm
  | placeless => exact (List.append_nil _).symm
  | full => exact (changes_dropIfEmpty _ _).trans (List.append_nil _).symm
  | shifts =>
    rw [broadcast_eq]
    rfl
  | enters =>
    rw [broadcast_eq]
    exact congrArg (· ++ _) (changes_vacate _ _)

/-- Leaving a place carries the account over. -/
theorem carriesAccounts_leavePlace (world : World) (entity : EntityId) :
    CarriesAccounts flights flights world (world.leavePlace entity).2 := by
  have outcome := leavePlace_outcome world entity
  refine carriesAccounts_of_balanced (world.keepsSound_leavePlace entity) outcome.changes
    fun _ h _ _ => ?_
  obtain ⟨hbalanced, hevolves⟩ := h.balanced.leaves
    (outcome.follows h.sound.registers.labeled h.sound.houses) outcome.outdoors
  exact ⟨hbalanced, hevolves, fun _ hmem => .inl hmem⟩

/-- A new status carries the account over. -/
theorem carriesAccounts_setStatus (world : World) (identity : Identity) (status : OccupantStatus) :
    CarriesAccounts flights flights world (world.setStatus identity status) := by
  have outcome := setStatus_outcome world identity status
  refine carriesAccounts_of_balanced (world.keepsSound_setStatus identity status)
    (outcome.changes.trans (List.append_nil _).symm) fun _ h _ _ => ?_
  obtain ⟨hbalanced, hevolves⟩ :=
    h.balanced.leaves (outcome.follows h.sound.registers.labeled) nofun
  exact ⟨hbalanced, hevolves, fun _ hmem => .inl hmem⟩

/-- Making a body carries the account over. -/
theorem carriesAccounts_createBody (world : World) (identity : Identity) :
    CarriesAccounts flights flights world (world.createBody identity).2 := by
  have hchanges : (world.createBody identity).2.changes = world.changes := by
    unfold createBody
    split
    · rfl
    · rfl
  refine carriesAccounts_of_balanced (world.keepsSound_createBody identity)
    (hchanges.trans (List.append_nil _).symm) fun _ h hafter _ => ?_
  obtain ⟨hbalanced, hevolves⟩ :=
    h.balanced.leaves (follows_createBody h.sound.registers identity hafter.entityIds) nofun
  exact ⟨hbalanced, hevolves, fun _ hmem => .inl hmem⟩

/-- Removing a body carries the account over. -/
theorem carriesAccounts_removeBody (world : World) (identity : Identity) :
    CarriesAccounts flights flights world (world.removeBody identity).2 := by
  have outcome := removeBody_outcome world identity
  obtain ⟨new, hchanges⟩ := outcome.changes
  refine carriesAccounts_of_balanced (world.keepsSound_removeBody identity) hchanges
    fun _ h _ _ => ?_
  obtain ⟨moved, houtdoors, hfollows⟩ := outcome.follows h.sound
  obtain ⟨hbalanced, hevolves⟩ := h.balanced.leaves hfollows houtdoors
  exact ⟨hbalanced, hevolves, fun _ hmem => .inl hmem⟩

/-- Finding a place for a scene records no change. -/
theorem changes_placeFor (world : World) (model : SceneModel) :
    (world.placeFor model).2.changes = world.changes := by
  unfold placeFor
  split
  · rfl
  · rfl

/-- A balanced world stays balanced when a place is found or made for a scene. -/
theorem Balanced.placeFor (h : world.Balanced held) (model : SceneModel) :
    (world.placeFor model).2.Balanced held := by
  have hcache := cache_placeFor world model
  have hstanding := (sameBodies_placeFor world model).standing
  refine h.step ?_ (fun zone => ?_) (fun zone _ => ?_) fun zone hpos => ?_
  · rw [hcache]
    exact h.cache
  · rw [hcache, hstanding]
    exact h.refs zone
  · rw [hcache]
    exact .refl _ _
  · rw [hstanding] at hpos
    exact .inl hpos

end World

/-- Going into the place of a scene carries the account over if one of the moves was told of the
zone. -/
theorem MoveRequest.EntryOutcome.carriesAccounts {request : MoveRequest} {world after : World}
    {zone : ZoneSummary} {model : SceneModel} {answer : Answer} {flights : List Flight}
    {resolution : Resolution CacheKey Bundle}
    (outcome : EntryOutcome request world zone model answer after)
    (hmem : ⟨request, .resolvingScene zone resolution⟩ ∈ flights) :
    World.CarriesAccounts flights flights world after := by
  have hkeeps := outcome.keepsSound
  suffices h : ∀ {result}, World.CommitOutcome (world.placeFor model).2 request.entity zone.zone
      (world.placeFor model).1 request.target.location result after →
      World.CarriesAccounts flights flights world after by
    cases outcome with
    | unlisted => exact .refl _ _
    | refused commit => exact h commit
    | entered commit => exact h commit
  intro result commit
  have hcache := world.cache_placeFor model
  have hafter := commit.changes
  rw [world.changes_placeFor model] at hafter
  refine World.carriesAccounts_of_balanced hkeeps hafter fun hregular h hunwrapped hnew => ?_
  have hmade := World.sameBodies_placeFor world model
  have hhoused := (h.sound.houses.placeFor model
    (commit.sameCounters.unwrapped hunwrapped).placeIds).1
  rw [← hmade.stays] at hhoused
  obtain ⟨hzone, hready⟩ := h.supported _ hmem
  have hheld := movesTo_pos hmem
  rw [← hzone] at hready hheld
  rw [← hcache] at hready ⊢
  obtain ⟨hbalanced, hevolves⟩ := commit.balanced
    (h.sound.registers.labeled.of_sameNames hmade.sameNames) hhoused (h.balanced.placeFor model)
    hheld ⟨zone, hready⟩ fun change hresult => hnew change (by
      rw [hresult]
      exact List.mem_singleton_self change)
  exact ⟨hbalanced, hevolves, fun _ hmem => .inl hmem⟩

end SharedWorld
