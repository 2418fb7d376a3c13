import SharedWorld.Proofs.Bodies
import SharedWorld.Proofs.References

/-!
# What a change of a body's location takes along

A body in a place holds a reference on the cache entries of its zone and of its scene. Whatever is
done to a body, the references that are taken and given back are those of the change of its location
that is noted, if there is one, and so are the bodies that are counted at locations of any kind:
`World.Follows` says this once for each operation. A body that moves within its place keeps the
references it has, whatever its zone.
-/

namespace SharedWorld

/-- Whether a body at the location holds a reference on the entry under `key`. -/
def BodyLocation.holds (location : BodyLocation) (key : CacheKey) : Bool :=
  match location with
  | .inside zone scene _ _ => key = .zone zone || key = .scene scene
  | .nowhere | .vacated _ _ => false

/-- Nobody holds an entry who is in no place. -/
theorem BodyLocation.holds_of_place? {location : BodyLocation} (h : location.place? = none)
    (key : CacheKey) : location.holds key = false := by
  cases location with
  | nowhere => rfl
  | vacated zone scene => rfl
  | inside zone scene place spot => cases h

namespace Cache

variable {cache : Cache CacheKey Bundle} {Fits : CacheKey → Bundle → Prop}

/-- The cache after the references of a body's stay are given back. -/
def leave (cache : Cache CacheKey Bundle) : BodyLocation → Cache CacheKey Bundle
  | .inside zone scene _ _ => (cache.release (.zone zone)).release (.scene scene)
  | .nowhere | .vacated _ _ => cache

/-- The cache after the references of a body's stay are taken. -/
def arrive (cache : Cache CacheKey Bundle) : BodyLocation → Cache CacheKey Bundle
  | .inside zone scene _ _ => ((cache.retain (.zone zone)).2.retain (.scene scene)).2
  | .nowhere | .vacated _ _ => cache

/-- The cache after a body's location has changed. -/
def follow (cache : Cache CacheKey Bundle) (change : BodyChange) : Cache CacheKey Bundle :=
  if change.changedPlace then (cache.leave change.before).arrive change.after else cache

/-- Leaving a location gives back just the references that it holds. -/
theorem Sound.leave (h : cache.Sound Fits) (location : BodyLocation) :
    (cache.leave location).Sound Fits ∧
      (∀ key, (cache.leave location).refs key =
        cache.refs key - if location.holds key then 1 else 0) ∧
      ∀ key, 0 < (cache.leave location).refs key → cache.Evolves (cache.leave location) key := by
  cases location with
  | nowhere => exact ⟨h, fun _ => rfl, fun _ _ => .refl _ _⟩
  | vacated zone scene => exact ⟨h, fun _ => rfl, fun _ _ => .refl _ _⟩
  | inside zone scene place location =>
    obtain ⟨hzone, hrefs, hevolves⟩ := h.release (.zone zone)
    obtain ⟨hscene, hrefs', hevolves'⟩ := hzone.release (.scene scene)
    refine ⟨hscene, fun key => ?_, fun key hpos => (hevolves key ?_).trans (hevolves' key hpos)⟩
    · rw [Cache.leave, hrefs', hrefs]
      cases key with
      | zone other => simp [BodyLocation.holds]
      | scene other => simp [BodyLocation.holds]
    · have hless := hrefs' key
      rw [Cache.leave] at hpos
      omega

/-- What is referenced is there. -/
theorem isSome_of_refs {key : CacheKey} (hpos : 0 < cache.refs key) :
    (cache.entries.get? key).isSome = true := by
  unfold Cache.refs at hpos
  cases hentry : cache.entries.get? key with
  | none =>
    rw [hentry] at hpos
    exact absurd hpos (Nat.lt_irrefl 0)
  | some entry => rfl

/-- An entry that is referenced is referenced once more if the body comes to hold it. -/
theorem Sound.arrive (h : cache.Sound Fits) (location : BodyLocation) :
    (cache.arrive location).Sound Fits ∧
      (∀ key, (location.holds key = true → 0 < cache.refs key) →
        (cache.arrive location).refs key = cache.refs key + if location.holds key then 1 else 0) ∧
      ∀ key, cache.Evolves (cache.arrive location) key := by
  cases location with
  | nowhere => exact ⟨h, fun _ _ => rfl, fun _ => .refl _ _⟩
  | vacated zone scene => exact ⟨h, fun _ _ => rfl, fun _ => .refl _ _⟩
  | inside zone scene place location =>
    obtain ⟨hzone, hrefs, hevolves⟩ := h.retain (.zone zone)
    obtain ⟨hscene, hrefs', hevolves'⟩ := hzone.retain (.scene scene)
    refine ⟨hscene, fun key hheld => ?_, fun key => (hevolves key).trans (hevolves' key)⟩
    rw [Cache.arrive, hrefs', hrefs]
    cases key with
    | zone other =>
      by_cases heq : other = zone
      · subst heq
        simp [BodyLocation.holds, isSome_of_refs (hheld (by simp [BodyLocation.holds]))]
      · simp [BodyLocation.holds, heq]
    | scene other =>
      by_cases heq : other = scene
      · subst heq
        have hpos := hheld (by simp [BodyLocation.holds])
        have hzoned : 0 < (cache.retain (.zone zone)).2.refs (.scene other) := by
          rw [hrefs]
          omega
        simp [BodyLocation.holds, isSome_of_refs hzoned]
      · simp [BodyLocation.holds, heq]

/-- A change counts an entry down if the body gives its reference up, and up if it takes one. What a
body comes to hold has to be referenced already, whoever holds it. -/
theorem Sound.follow (h : cache.Sound Fits) (change : BodyChange) :
    (cache.follow change).Sound Fits ∧
      ∀ key held, change.before.holds key = change.after.holds key ∨
          change.changedPlace = true →
        (change.after.holds key = true → change.changedPlace = true → 0 < held) →
        (if change.before.holds key then 1 else 0) + held ≤ cache.refs key →
        (cache.follow change).refs key + (if change.before.holds key then 1 else 0) =
            cache.refs key + (if change.after.holds key then 1 else 0) ∧
          (0 < (cache.follow change).refs key → cache.Evolves (cache.follow change) key) := by
  obtain ⟨hleft, hrefs, hevolves⟩ := h.leave change.before
  obtain ⟨harrived, hrefs', hevolves'⟩ := hleft.arrive change.after
  unfold Cache.follow
  cases hmoved : change.changedPlace with
  | false =>
    refine ⟨h, fun key held hsame _ _ => ⟨?_, fun _ => .refl _ _⟩⟩
    rw [if_neg Bool.false_ne_true, hsame.resolve_right Bool.false_ne_true]
  | true =>
    rw [if_pos rfl]
    refine ⟨harrived, fun key held _ hheld hle => ?_⟩
    have hbefore := hrefs key
    have hafter := hrefs' key fun hholds => by
      have hpos := hheld hholds rfl
      omega
    refine ⟨by omega, fun hpos => ?_⟩
    cases hholds : change.after.holds key with
    | true =>
      have hpos := hheld hholds rfl
      exact (hevolves key (by omega)).trans (hevolves' key)
    | false =>
      rw [hholds] at hafter
      simp only [Bool.false_eq_true, if_false, Nat.add_zero] at hafter
      rw [hafter] at hpos
      exact (hevolves key hpos).trans (hevolves' key)

end Cache

namespace World

variable {before after world : World} {entity : EntityId} {p : BodyLocation → Bool}

/-- How many bodies are at a location of the given kind. -/
def headcount (world : World) (p : BodyLocation → Bool) : Nat :=
  world.bodies.values.countP (p ·.location)

/-- What an operation does to the cache and to the bodies is what the change of a location tells, if
there is one. Locations outside of places are not counted. -/
structure Follows (change : Option BodyChange) (before after : World) : Prop where
  cache : after.cache = change.elim before.cache before.cache.follow
  headcount : ∀ {p : BodyLocation → Bool},
    (∀ location, location.place? = none → p location = false) →
    after.headcount p + change.elim 0 (fun change => if p change.before then 1 else 0) =
      before.headcount p + change.elim 0 fun change => if p change.after then 1 else 0
  /-- A body that moves was counted where it was. -/
  counted : ∀ p : BodyLocation → Bool, ∀ moved ∈ change,
    (if p moved.before then 1 else 0) ≤ before.headcount p

/-- Headcounts depend on the bodies alone. -/
theorem SameBodies.headcount (h : before.SameBodies after) (p : BodyLocation → Bool) :
    after.headcount p = before.headcount p := by
  rw [World.headcount, World.headcount, h.bodies]

/-- Replacing a body counts it where it is then. -/
theorem headcount_replace {body : Body} (h : world.Labeled)
    (hbody : world.bodies.get? entity = some body) (body' : Body)
    (hentity : body'.entity = body.entity) (p : BodyLocation → Bool) :
    (world.replace body').headcount p + (if p body.location then 1 else 0) =
      world.headcount p + if p body'.location then 1 else 0 := by
  have htotal := Table.total_insert world.bodies body'.entity body'
    fun body => if p body.location then 1 else 0
  rw [hentity, h hbody, hbody, Option.elim_some] at htotal
  rw [headcount, headcount, Table.countP_values, Table.countP_values, replace, hentity, h hbody]
  exact htotal

/-- A body is counted where it is. -/
theorem le_headcount {body : Body} (hbody : world.bodies.get? entity = some body)
    (p : BodyLocation → Bool) : (if p body.location then 1 else 0) ≤ world.headcount p := by
  have htotal := Table.total_erase world.bodies entity fun body => if p body.location then 1 else 0
  rw [hbody, Option.elim_some] at htotal
  rw [headcount, Table.countP_values, ← htotal]
  exact Nat.le_add_left _ _

/-- The references follow when neither bodies nor the cache change. -/
theorem follows_of_same (hbodies : before.SameBodies after)
    (hcache : after.cache = before.cache) : Follows none before after where
  cache := hcache
  headcount _ := hbodies.headcount _
  counted := nofun

/-! ## What follows for the references -/

/-- The cache stays sound when its references follow a body. -/
theorem Follows.sound {change : Option BodyChange} {Fits : CacheKey → Bundle → Prop}
    (h : Follows change before after) (hsound : before.cache.Sound Fits) :
    after.cache.Sound Fits := by
  rw [h.cache]
  cases change with
  | none => exact hsound
  | some moved => exact (hsound.follow moved).1

/-- If an entry is referenced once for each body that holds it, and by others as often as is said,
then it still is after a change. What a body comes to hold others have to hold already, and a body
that stays in its place has to hold what it held. -/
theorem Follows.refs {change : Option BodyChange} {Fits : CacheKey → Bundle → Prop} {key : CacheKey}
    {held : Nat} (h : Follows change before after) (hsound : before.cache.Sound Fits)
    (hrefs : before.cache.refs key = before.headcount (·.holds key) + held)
    (hstayed : ∀ moved ∈ change, moved.changedPlace = false →
      moved.before.holds key = moved.after.holds key)
    (hentered : ∀ moved ∈ change, moved.after.holds key = true → 0 < held) :
    after.cache.refs key = after.headcount (·.holds key) + held ∧
      (0 < after.cache.refs key → before.cache.Evolves after.cache key) ∧
      (0 < after.headcount (·.holds key) → 0 < before.headcount (·.holds key) ∨
        ∃ moved ∈ change, moved.after.holds key = true) := by
  have hcounted := h.headcount fun location hnone => location.holds_of_place? hnone key
  have hcache := h.cache
  cases change with
  | none =>
    have hsame : after.cache = before.cache := hcache
    have hcount : after.headcount (·.holds key) = before.headcount (·.holds key) := hcounted
    rw [hsame, hcount]
    exact ⟨hrefs, fun _ => .refl _ _, .inl⟩
  | some moved =>
    have hfollowed : after.cache = before.cache.follow moved := hcache
    simp only [Option.elim_some] at hcounted
    have hbefore : (if moved.before.holds key then 1 else 0) ≤ before.headcount (·.holds key) :=
      h.counted (·.holds key) moved rfl
    have hstays : moved.before.holds key = moved.after.holds key ∨ moved.changedPlace = true := by
      cases hmoved : moved.changedPlace with
      | true => exact .inr rfl
      | false => exact .inl (hstayed moved rfl hmoved)
    obtain ⟨hcount, hevolves⟩ := (hsound.follow moved).2 key held hstays
      (fun hholds _ => hentered moved rfl hholds) (by omega)
    rw [← hfollowed] at hcount hevolves
    refine ⟨by omega, hevolves, fun hpos => ?_⟩
    cases hholds : moved.after.holds key with
    | true => exact .inr ⟨moved, rfl, hholds⟩
    | false =>
      simp only [hholds, Bool.false_eq_true, if_false] at hcounted
      exact .inl (by omega)

/-! ## Places that are left and dropped -/

/-- Dropping a place leaves the cache alone. -/
theorem cache_dropIfEmpty (world : World) (place : PlaceId) :
    (world.dropIfEmpty place).cache = world.cache := by
  unfold dropIfEmpty
  split
  · rfl
  · split
    · rfl
    · rfl

/-- Finding a place for a scene leaves the cache alone. -/
theorem cache_placeFor (world : World) (model : SceneModel) :
    (world.placeFor model).2.cache = world.cache := by
  unfold placeFor
  split
  · rfl
  · rfl

/-- Undoing a body's stay gives its references back. The place it was in has to be there. -/
theorem cache_vacate (world : World) (change : BodyChange)
    (hplace : ∀ place, change.before.place? = some place →
      ∃ host, world.places.get? place = some host) :
    (world.vacate change).cache = world.cache.leave change.before := by
  cases hbefore : change.before with
  | nowhere => simp only [vacate, hbefore, Cache.leave]
  | vacated zone scene => simp only [vacate, hbefore, Cache.leave]
  | inside zone scene place location =>
    obtain ⟨host, hhost⟩ := hplace place (by rw [hbefore]; rfl)
    simp only [vacate, hbefore, hhost, cache_dropIfEmpty, broadcast_eq]
    rfl

/-- The references follow when a place is dropped. -/
theorem follows_dropIfEmpty (world : World) (place : PlaceId) :
    Follows none world (world.dropIfEmpty place) :=
  follows_of_same (sameBodies_dropIfEmpty world place) (cache_dropIfEmpty world place)

/-! ## Operations on bodies -/

/-- A body that leaves its place goes to no other. -/
theorem LeaveOutcome.outdoors {change : Option BodyChange}
    (outcome : LeaveOutcome world entity change after) :
    ∀ moved ∈ change, moved.after.place? = none := by
  cases outcome with
  | outside => exact nofun
  | leaves =>
    intro moved hmoved
    obtain rfl := Option.some.inj hmoved
    rfl

/-- The references follow a body that leaves its place. -/
theorem LeaveOutcome.follows {change : Option BodyChange}
    (outcome : LeaveOutcome world entity change after) (hlabeled : world.Labeled)
    (houses : world.Houses world.stays []) : Follows change world after := by
  cases outcome with
  | outside => exact follows_of_same ⟨rfl, rfl, rfl⟩ rfl
  | @leaves body zone scene place location found inside =>
    refine ⟨?_, fun {p} hindoors => ?_, ?_⟩
    · have hmoved : (body.changeTo (.vacated zone scene)).changedPlace = true := by
        simp [BodyChange.changedPlace, Body.changeTo, inside, BodyLocation.place?]
      rw [Option.elim_some, Cache.follow, if_pos hmoved]
      refine cache_vacate _ (body.changeTo (.vacated zone scene)) fun place hplace => ?_
      obtain ⟨host, hhost, -⟩ := houses.exists_host found hplace
      exact ⟨host, hhost⟩
    · refine (congrArg (· + _) ((sameBodies_vacate _ _).headcount p)).trans ?_
      exact headcount_replace hlabeled found (body.movedTo (.vacated zone scene)) rfl p
    · rintro p moved hmoved
      obtain rfl := Option.some.inj hmoved
      exact le_headcount found p

/-- The references stay when a body gets a status. -/
theorem StatusOutcome.follows {identity : Identity} {status : OccupantStatus}
    (outcome : StatusOutcome world identity status after) (hlabeled : world.Labeled) :
    Follows none world after := by
  have hmarked : ∀ {entity body}, world.bodies.get? entity = some body → ∀ p : BodyLocation → Bool,
      (world.replace (body.withStatus status)).headcount p = world.headcount p := by
    intro entity body hbody p
    exact Nat.add_right_cancel (headcount_replace hlabeled hbody (body.withStatus status) rfl p)
  cases outcome with
  | same => exact follows_of_same ⟨rfl, rfl, rfl⟩ rfl
  | alone named found outside =>
    exact ⟨rfl, fun _ => hmarked found _, nofun⟩
  | shown named found inside =>
    rw [broadcast_eq]
    exact ⟨rfl, fun _ => hmarked found _, nofun⟩

/-- A body that was just made is nowhere. -/
theorem follows_createBody (hregisters : world.Registers) (identity : Identity)
    (hfresh : (world.createBody identity).2.entityIds.issued < 2 ^ 64) :
    Follows none world (world.createBody identity).2 := by
  cases hknown : world.entities.get? identity with
  | some entity =>
    rw [createBody_of_some hknown]
    exact follows_of_same ⟨rfl, rfl, rfl⟩ rfl
  | none =>
    rw [createBody_of_none hknown] at hfresh ⊢
    refine ⟨rfl, fun {p} hindoors => ?_, nofun⟩
    have htotal := Table.total_insert world.bodies world.entityIds.peek
      ⟨world.entityIds.peek, identity, .nowhere, .active⟩
      fun body => if p body.location then 1 else 0
    rw [hregisters.get?_peek hfresh, hindoors .nowhere rfl] at htotal
    rw [headcount, headcount, Table.countP_values, Table.countP_values]
    exact htotal

/-- The references follow a body that is removed, as one that leaves its place. -/
theorem RemoveOutcome.follows {identity : Identity} (outcome : RemoveOutcome world identity after)
    (hsound : world.Sound) : ∃ change : Option BodyChange,
      (∀ moved ∈ change, moved.after.place? = none) ∧ Follows change world after := by
  cases outcome with
  | unknown => exact ⟨none, nofun, follows_of_same ⟨rfl, rfl, rfl⟩ rfl⟩
  | @removes entity change left named leaves =>
    have hlabeled : ({ world with entities := world.entities.erase identity } : World).Labeled :=
      hsound.registers.labeled
    have hleft := leaves.follows hlabeled (hsound.houses.of_same ⟨rfl, rfl, rfl⟩)
    refine ⟨change, leaves.outdoors, hleft.cache, fun {p} hindoors => ?_, hleft.counted⟩
    have htotal := Table.total_erase left.bodies entity fun body => if p body.location then 1 else 0
    have hgone : (left.bodies.get? entity).elim 0
        (fun body => if p body.location then 1 else 0) = 0 := by
      have hstay := congrFun (leaves.stays hlabeled) entity
      rw [Function.update_self, World.stays] at hstay
      cases hbody : left.bodies.get? entity with
      | none => rfl
      | some body =>
        rw [hbody, Option.bind_some] at hstay
        have houtside : body.location.place? = none := by rw [← body.stay?_place, hstay]; rfl
        rw [Option.elim_some, hindoors _ houtside]
        rfl
    have hsame : World.headcount { left with bodies := left.bodies.erase entity } p =
        left.headcount p := by
      rw [headcount, headcount, Table.countP_values, Table.countP_values, ← htotal, hgone]
      rfl
    rw [hsame]
    exact hleft.headcount hindoors

/-- The references follow a body that enters a place. -/
theorem CommitOutcome.follows {zone : ZoneId} {place : PlaceId} {location : LocationId}
    {result : Except CommitError BodyChange}
    (outcome : CommitOutcome world entity zone place location result after)
    (hlabeled : world.Labeled) (houses : world.Houses world.stays [place]) :
    Follows result.toOption world after := by
  cases outcome with
  | bodyless => exact world.follows_dropIfEmpty place
  | placeless => exact follows_of_same ⟨rfl, rfl, rfl⟩ rfl
  | full => exact world.follows_dropIfEmpty place
  | @shifts body host found hosted here =>
    rw [broadcast_eq]
    refine ⟨?_, fun {p} _ => ?_, ?_⟩
    · have hstayed : (body.changeTo (.inside zone host.scene place location)).changedPlace =
          false := decide_eq_false (not_not_intro here)
      simp only [Except.toOption, Option.elim_some, Cache.follow, hstayed]
      rfl
    · exact headcount_replace hlabeled found
        (body.movedTo (.inside zone host.scene place location)) rfl p
    · rintro p moved hmoved
      obtain rfl := Option.some.inj hmoved
      exact le_headcount found p
  | @enters body host found hosted elsewhere room =>
    rw [broadcast_eq]
    refine ⟨?_, fun {p} _ => ?_, ?_⟩
    · have hmoved : (body.changeTo (.inside zone host.scene place location)).changedPlace =
          true := decide_eq_true elsewhere
      have hleft := cache_vacate
        (world.replace (body.movedTo (.inside zone host.scene place location)))
        (body.changeTo (.inside zone host.scene place location)) fun place hplace => by
          obtain ⟨host, hhost, -⟩ := houses.exists_host found hplace
          exact ⟨host, hhost⟩
      simp only [Except.toOption, Option.elim_some, Cache.follow, hmoved, if_true]
      exact congrArg (Cache.arrive · (.inside zone host.scene place location)) hleft
    · refine (congrArg (· + _) ((sameBodies_vacate _ _).headcount p)).trans ?_
      exact headcount_replace hlabeled found
        (body.movedTo (.inside zone host.scene place location)) rfl p
    · rintro p moved hmoved
      obtain rfl := Option.some.inj hmoved
      exact le_headcount found p

/-- A body that is moved into a place comes from where it was, to the scene of the place. -/
theorem CommitOutcome.change_eq {zone : ZoneId} {place : PlaceId} {location : LocationId}
    {change : BodyChange}
    (outcome : CommitOutcome world entity zone place location (.ok change) after) :
    ∃ body host, world.bodies.get? entity = some body ∧ world.places.get? place = some host ∧
      change = body.changeTo (.inside zone host.scene place location) := by
  cases outcome with
  | @shifts body host found hosted here => exact ⟨body, host, found, hosted, rfl⟩
  | @enters body host found hosted elsewhere room => exact ⟨body, host, found, hosted, rfl⟩

end World

end SharedWorld
