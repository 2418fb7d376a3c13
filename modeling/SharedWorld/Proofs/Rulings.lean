import SharedWorld.Proofs.Receptions
import SharedWorld.Proofs.Timelines

/-!
# What becomes of moves

A move may be suspended twice, and every time it is taken on it finds another world. What becomes of
it can nevertheless be read off the timeline from its beginning to its end, one check after the
other (`MoveRequest.ruling?`). How far a move has come with what has happened so far is described by
`MoveRequest.Follows`, for each standing that a move can have.
-/

namespace SharedWorld

/-! ## Reading a timeline -/

/-- The first happening that something is seen in, and what happens after it. -/
def Happening.first? {α : Type} (see : Happening → Option α) :
    List Happening → Option (α × List Happening)
  | [] => none
  | happening :: later =>
    match see happening with
    | some seen => some (seen, later)
    | none => first? see later

/-- The leg of a move that a happening is. -/
def Happening.legOf? (move : MoveRequest) : Happening → Option Leg
  | .leg work => if work.request = move then some work else none
  | .settled _ _ => none

/-- What the load of a key brings that a happening settles. -/
def Happening.loadOf? (key : CacheKey) : Happening → Option (LoadOutcome Bundle)
  | .leg _ => none
  | .settled name outcome => if name = key then some outcome else none

/-- What becomes of a move. -/
inductive Ruling where
  /-- It is not let into its zone. -/
  | stopped (fault : Fault)
  /-- Its body is not put into a place. -/
  | refused (fault : Fault)
  /-- With the given leg its body is put into the place of a scene of a zone. -/
  | entered (zone : ZoneSummary) (model : SceneModel) (leg : Leg)

/-- What a leg says of its move is what was ruled. -/
def Ruling.Ends (leg : Leg) : Ruling → Prop
  | .stopped fault => leg.admission? = some (.error fault) ∧
    .answer leg.request.listener (.failure fault) ∈ leg.effects
  | .refused fault => .answer leg.request.listener (.failure fault) ∈ leg.effects
  | .entered zone model last => last = leg ∧ ∃ reply,
    leg.request.Welcomes zone model leg.after.world reply ∧
      .answer leg.request.listener (.success (.moved reply)) ∈ leg.effects

namespace MoveRequest

/-- The load that a move takes of a key that it asks for with a leg: what is in the cache then, or
else what the first load of the key brings that is settled later. It takes it with that leg, or else
with its next leg after the load was settled. -/
def take? (move : MoveRequest) (key : CacheKey) (asking : Leg) (later : List Happening) :
    Option (LoadOutcome Bundle × Leg × List Happening) :=
  match asking.before.world.cache.peek? key with
  | some bundle => some (.loaded bundle, asking, later)
  | none => do
    let (load, later) ← Happening.first? (Happening.loadOf? key) later
    let (leg, later) ← Happening.first? (Happening.legOf? move) later
    return (load, leg, later)

/-- What becomes of a move, as the happenings have it. It asks for its zone when it is begun, and
for its scene when it is let into the zone. -/
def ruling? (move : MoveRequest) (happenings : List Happening) : Option Ruling := do
  let (begun, later) ← Happening.first? (Happening.legOf? move) happenings
  let (load, leg, later) ← move.take? (.zone move.target.zone) begun later
  match move.admission load leg.before with
  | .error fault => return .stopped fault
  | .ok zone =>
    let (load, leg, _) ← move.take? (.scene move.target.scene) leg later
    match move.reception zone load leg.before.world with
    | .error fault => return .refused fault
    | .ok model => return .entered zone model leg

end MoveRequest

namespace Happening

variable {α : Type} {see : Happening → Option α} {happenings later : List Happening} {seen : α}

/-- What happens later does not change what happened first. -/
theorem first?_concat_of_some (h : first? see happenings = some (seen, later))
    (happening : Happening) :
    first? see (happenings ++ [happening]) = some (seen, later ++ [happening]) := by
  induction happenings with
  | nil => cases h
  | cons other happenings ih =>
    rw [first?] at h
    rw [List.cons_append, first?]
    cases hother : see other with
    | some found =>
      rw [hother] at h
      cases h
      rfl
    | none =>
      rw [hother] at h
      exact ih h

/-- What was not seen before is seen first in the last happening, if it is seen there. -/
theorem first?_concat_of_none (h : first? see happenings = none) (happening : Happening) :
    first? see (happenings ++ [happening]) = (see happening).map (·, []) := by
  induction happenings with
  | nil =>
    rw [List.nil_append, first?]
    cases see happening with
    | some found => rfl
    | none => rfl
  | cons other happenings ih =>
    rw [first?] at h
    rw [List.cons_append, first?]
    cases hother : see other with
    | some found =>
      rw [hother] at h
      cases h
    | none =>
      rw [hother] at h
      exact ih h

/-- What is not seen in the last happening is not there before it either way. -/
theorem first?_concat_of_unseen (happenings : List Happening) (happening : Happening)
    (h : see happening = none) :
    first? see (happenings ++ [happening]) =
      (first? see happenings).map fun (seen, later) => (seen, later ++ [happening]) := by
  cases hfirst : first? see happenings with
  | some found =>
    obtain ⟨seen, later⟩ := found
    exact first?_concat_of_some hfirst happening
  | none =>
    rw [first?_concat_of_none hfirst, h]
    rfl

/-- A leg that takes place is the last one. -/
theorem legs_concat_leg (happenings : List Happening) (leg : Leg) :
    legs (happenings ++ [.leg leg]) = legs happenings ++ [leg] := by
  rw [legs, List.filterMap_append]
  rfl

/-- Settling an outcome is no leg. -/
theorem legs_concat_settled (happenings : List Happening) (key : CacheKey)
    (outcome : LoadOutcome Bundle) :
    legs (happenings ++ [.settled key outcome]) = legs happenings := by
  rw [legs, List.filterMap_append]
  exact List.append_nil _

end Happening

/-! ## Moves that wait -/

namespace Leg.Reaches

variable {leg : Leg} {zone : ZoneSummary} {inquiry : List Effect}
  {resolution : Resolution CacheKey Bundle} {realm : Realm}

/-- A leg that has got through to the scene finds the bodies and places as they were. -/
theorem sound (reaches : leg.Reaches zone inquiry resolution realm)
    (h : leg.before.world.Sound) : realm.world.Sound := by
  rw [reaches.world_eq]
  exact h.of_same ⟨rfl, rfl, rfl⟩ ⟨rfl, rfl, rfl⟩

/-- A move is received as it would have been before the leg that brings it to its scene. -/
theorem reception_eq (reaches : leg.Reaches zone inquiry resolution realm) (move : MoveRequest)
    (load : LoadOutcome Bundle) :
    move.reception zone load realm.world = move.reception zone load leg.before.world := by
  rw [reaches.world_eq]
  exact MoveRequest.reception_congr rfl ⟨rfl, rfl, rfl⟩

/-- A leg that is turned away from the place of its scene says what a look at the world says. -/
theorem reception_of_failure (reaches : leg.Reaches zone inquiry resolution realm)
    (h : leg.before.world.Sound) {load : LoadOutcome Bundle} {fault : Fault} {world : World}
    (lands : leg.request.land zone load realm.world = (.failure fault, world)) :
    leg.request.reception zone load leg.before.world = .error fault := by
  have hreception := MoveRequest.land_reception (reaches.sound h) lands
  rw [reaches.reception_eq] at hreception
  cases hresult : leg.request.reception zone load leg.before.world with
  | error other =>
    rw [hresult] at hreception
    cases hreception
    rfl
  | ok model =>
    rw [hresult] at hreception
    obtain ⟨-, reply, heq, -⟩ := hreception
    cases heq

/-- A leg that brings its body into a place says so, and tells of the place. -/
theorem reception_of_success (reaches : leg.Reaches zone inquiry resolution realm)
    (h : leg.before.world.Sound) (hafter : leg.after.world.Sound) {load : LoadOutcome Bundle}
    {reply : Reply} {world : World} (bodies : world.SameBodies leg.after.world)
    (places : world.SamePlaces leg.after.world)
    (lands : leg.request.land zone load realm.world = (.success reply, world)) :
    ∃ model moved, leg.request.reception zone load leg.before.world = .ok model ∧
      reply = .moved moved ∧ leg.request.Welcomes zone model leg.after.world moved := by
  have hreception := MoveRequest.land_reception (reaches.sound h) lands
  cases hresult : leg.request.reception zone load realm.world with
  | error fault =>
    rw [hresult] at hreception
    cases hreception
  | ok model =>
    rw [hresult] at hreception
    obtain ⟨-, moved, heq, -⟩ := hreception
    cases heq
    have hworld : world.Sound := hafter.of_same ⟨bodies.bodies.symm, bodies.entities.symm,
      bodies.entityIds.symm⟩ ⟨places.places.symm, places.hosts.symm, places.placeIds.symm⟩
    obtain ⟨model, hmodel, hwelcomes⟩ := MoveRequest.welcomes (reaches.sound h) hworld lands
    exact ⟨model, moved, (reaches.reception_eq _ _).symm.trans hmodel, rfl,
      hwelcomes.of_same places⟩

end Leg.Reaches

/-- After a move was answered, a policy is told, and bodies and places stay as they are. -/
theorem MoveRequest.same_finish_announce (request : MoveRequest) (realm : Realm)
    (held : List CacheKey) (answer : Answer) (entity : EntityId) (zone : ZoneId) :
    realm.world.SameBodies ((request.finish realm held answer).announce entity zone).world ∧
      realm.world.SamePlaces ((request.finish realm held answer).announce entity zone).world := by
  unfold Realm.announce finish
  rw [World.foldl_release]
  split
  · exact ⟨⟨rfl, rfl, rfl⟩, ⟨rfl, rfl, rfl⟩⟩
  · exact ⟨⟨rfl, rfl, rfl⟩, ⟨rfl, rfl, rfl⟩⟩

/-- A leg that looks for its zone asks for no other key before it finds it. -/
theorem Leg.quest_acquires (leg : Leg) {realm : Realm}
    {resolution : Resolution CacheKey Bundle} (h : leg.before.world.cache.SingleFlight)
    (quest : leg.quest? = some (resolution, realm)) :
    realm.world.cache.SingleFlight ∧ ∀ key ≠ .zone leg.request.target.zone,
      realm.world.cache.peek? key = leg.before.world.cache.peek? key := by
  unfold Leg.quest? at quest
  split at quest
  · cases quest
    exact ⟨(Realm.quiet_acquire h _).single, fun key hkey => Cache.peek?_acquire_of_ne _ hkey⟩
  · cases quest
    exact ⟨h, fun _ _ => rfl⟩
  · cases quest

namespace MoveRequest

variable {move : MoveRequest} {key : CacheKey} {happenings later : List Happening}
  {resolution : Resolution CacheKey Bundle} {cache after : Cache CacheKey Bundle} {leg asking : Leg}
  {happening : Happening}

/-- A move waits for a key with a resolution, and has heard what was settled later than it asked. It
was not taken on since. -/
structure Awaits (move : MoveRequest) (key : CacheKey) (later : List Happening)
    (resolution : Resolution CacheKey Bundle) (cache : Cache CacheKey Bundle) : Prop where
  hears : cache.Hears key resolution
    ((Happening.first? (Happening.loadOf? key) later).map (·.1))
  untaken : ∀ {load rest}, Happening.first? (Happening.loadOf? key) later = some (load, rest) →
    Happening.first? (Happening.legOf? move) rest = none

namespace Awaits

/-- Nothing is missed while the cache is quiet. -/
theorem quiet (h : move.Awaits key later resolution cache) (single : cache.SingleFlight)
    (quiet : Cache.Quiet cache after) : move.Awaits key later resolution after :=
  ⟨h.hears.quiet single quiet, h.untaken⟩

/-- What does not concern the move is passed over. -/
theorem pass (h : move.Awaits key later resolution cache)
    (hleg : Happening.legOf? move happening = none)
    (hload : Happening.loadOf? key happening = none) :
    move.Awaits key (later ++ [happening]) resolution cache := by
  have hfirst := Happening.first?_concat_of_unseen later happening hload
  constructor
  · rw [hfirst, Option.map_map]
    exact h.hears
  · intro load rest hrest
    rw [hfirst] at hrest
    obtain ⟨⟨load, old⟩, hold, heq⟩ := Option.map_eq_some_iff.mp hrest
    cases heq
    rw [Happening.first?_concat_of_none (h.untaken hold), hleg]
    rfl

/-- The first load of the key is heard of. -/
theorem settle (h : move.Awaits key later resolution cache) (single : cache.SingleFlight)
    {name : CacheKey} {outcome : LoadOutcome Bundle}
    {arrivals : List (CacheKey × LoadOutcome Bundle)}
    (harrived : cache.arrived = (name, outcome) :: arrivals) :
    move.Awaits key (later ++ [.settled name outcome]) resolution cache.settleNext := by
  have hhears := h.hears.settle single harrived
  cases hfirst : Happening.first? (Happening.loadOf? key) later with
  | some found =>
    obtain ⟨load, rest⟩ := found
    have hlater := Happening.first?_concat_of_some hfirst (.settled name outcome)
    rw [hfirst] at hhears
    constructor
    · rw [hlater]
      exact hhears
    · intro load' rest' hrest
      rw [hlater] at hrest
      cases hrest
      exact Happening.first?_concat_of_none (h.untaken hfirst) _
  | none =>
    have hlater := Happening.first?_concat_of_none hfirst (.settled name outcome)
    rw [hfirst] at hhears
    constructor
    · rw [hlater, Option.map_map]
      change cache.settleNext.Hears key resolution
        (if name = key then some outcome else none) at hhears
      rw [Happening.loadOf?]
      split at hhears
      · rwa [if_pos ‹_›]
      · rwa [if_neg ‹_›]
    · intro load' rest' hrest
      rw [hlater] at hrest
      obtain ⟨found, -, heq⟩ := Option.map_eq_some_iff.mp hrest
      cases heq
      rfl

/-- A leg that finds no load yet leaves the move waiting. -/
theorem waits (h : move.Awaits key later resolution cache)
    (hnone : resolution.outcome? cache = none) (leg : Leg) :
    move.Awaits key (later ++ [.leg leg]) resolution cache := by
  rw [h.hears.outcome?, Option.map_eq_none_iff] at hnone
  have hlater := Happening.first?_concat_of_none hnone (.leg leg)
  have hhears := h.hears
  rw [hnone] at hhears
  constructor
  · rw [hlater]
    exact hhears
  · intro load rest hrest
    rw [hlater] at hrest
    cases hrest

/-- A leg that finds a load takes what was settled first. -/
theorem takes (h : move.Awaits key later resolution cache) {load : LoadOutcome Bundle}
    (hload : resolution.outcome? cache = some load) (hleg : leg.request = move)
    (hasked : asking.before.world.cache.peek? key = none) :
    move.take? key asking (later ++ [.leg leg]) = some (load, leg, []) := by
  rw [h.hears.outcome?] at hload
  obtain ⟨⟨_, rest⟩, hfirst, rfl⟩ := Option.map_eq_some_iff.mp hload
  have htaken := Happening.first?_concat_of_none (h.untaken hfirst) (.leg leg)
  rw [Happening.legOf?, if_pos hleg] at htaken
  simp only [take?, hasked, Happening.first?_concat_of_some hfirst, htaken, Option.bind_eq_bind,
    Option.bind_some, Option.map_some, Option.pure_def]

/-- As long as a move waits, it has not taken the load. -/
theorem untaken_eq (h : move.Awaits key later resolution cache)
    (hasked : asking.before.world.cache.peek? key = none) :
    move.take? key asking later = none := by
  simp only [take?, hasked, Option.bind_eq_bind]
  cases hfirst : Happening.first? (Happening.loadOf? key) later with
  | none => rfl
  | some found =>
    obtain ⟨load, rest⟩ := found
    simp only [Option.bind_some, h.untaken hfirst, Option.bind_none]

end Awaits

/-- A move that has asked for a key either waits for it after a leg, or takes its load with the
leg. -/
def Looks (move : MoveRequest) (key : CacheKey) (asking : Leg) (later : List Happening) (leg : Leg)
    (resolution : Resolution CacheKey Bundle) (cache : Cache CacheKey Bundle) : Prop :=
  match resolution.outcome? cache with
  | none => asking.before.world.cache.peek? key = none ∧ move.Awaits key later resolution cache
  | some load => move.take? key asking later = some (load, leg, [])

/-- It asks for the key with the leg. -/
theorem looks_of_asks (realm : Realm) (h : realm.world.cache.SingleFlight) (leg : Leg)
    (hpeek : realm.world.cache.peek? key = leg.before.world.cache.peek? key) :
    move.Looks key leg [] leg (realm.acquire key).1 (realm.acquire key).2.world.cache := by
  obtain ⟨houtcome, hwaits⟩ := Realm.hears_acquire h key
  unfold Looks
  rw [houtcome, hpeek]
  cases hready : leg.before.world.cache.peek? key with
  | none => exact ⟨rfl, hwaits (hpeek.trans hready), nofun⟩
  | some bundle => simp only [Option.map_some, take?, hready]

/-- It asked for the key before. -/
theorem Awaits.looks (h : move.Awaits key later resolution cache) (hleg : leg.request = move)
    (hasked : asking.before.world.cache.peek? key = none) :
    move.Looks key asking (later ++ [.leg leg]) leg resolution cache := by
  unfold Looks
  cases houtcome : resolution.outcome? cache with
  | none => exact ⟨hasked, h.waits houtcome leg⟩
  | some load => exact h.takes houtcome hleg hasked

/-! ## Moves that are under way -/

/-- What is known of a move that has come so far. -/
inductive Follows (move : MoveRequest) (happenings : List Happening)
    (cache : Cache CacheKey Bundle) : Standing → Prop where
  | queued (unbegun : Happening.first? (Happening.legOf? move) happenings = none) :
    Follows move happenings cache .queued
  /-- Its zone was not there when it was begun. -/
  | zone {begun : Leg} {later : List Happening} {resolution : Resolution CacheKey Bundle}
      (begins : Happening.first? (Happening.legOf? move) happenings = some (begun, later))
      (asked : begun.before.world.cache.peek? (.zone move.target.zone) = none)
      (awaits : move.Awaits (.zone move.target.zone) later resolution cache) :
    Follows move happenings cache (.waits (.resolvingZone resolution))
  /-- Its scene was not there when it was let into its zone. -/
  | scene {begun admitted : Leg} {rest later : List Happening} {load : LoadOutcome Bundle}
      {zone : ZoneSummary} {resolution : Resolution CacheKey Bundle}
      (begins : Happening.first? (Happening.legOf? move) happenings = some (begun, rest))
      (takes : move.take? (.zone move.target.zone) begun rest = some (load, admitted, later))
      (admits : move.admission load admitted.before = .ok zone)
      (asked : admitted.before.world.cache.peek? (.scene move.target.scene) = none)
      (awaits : move.Awaits (.scene move.target.scene) later resolution cache) :
    Follows move happenings cache (.waits (.resolvingScene zone resolution))
  | answered {ruling : Ruling} {leg : Leg} (ruled : move.ruling? happenings = some ruling)
      (mem : leg ∈ Leg.ofMove move (Happening.legs happenings)) (ends : ruling.Ends leg) :
    Follows move happenings cache .answered

/-- What a move took it does not take again. -/
theorem take?_concat {load : LoadOutcome Bundle} {rest : List Happening}
    (h : move.take? key asking later = some (load, leg, rest)) (happening : Happening) :
    move.take? key asking (later ++ [happening]) = some (load, leg, rest ++ [happening]) := by
  unfold take? at h ⊢
  cases hready : asking.before.world.cache.peek? key with
  | some bundle =>
    rw [hready] at h
    cases h
    rfl
  | none =>
    simp only [hready, Option.bind_eq_bind, Option.bind_eq_some_iff, Prod.exists] at h
    obtain ⟨found, after, hload, taking, after', hleg, heq⟩ := h
    cases heq
    simp only [Happening.first?_concat_of_some hload, Happening.first?_concat_of_some hleg,
      Option.bind_eq_bind, Option.bind_some, Option.pure_def]

/-- What was ruled stays so. -/
theorem ruling?_concat {ruling : Ruling} (h : move.ruling? happenings = some ruling)
    (happening : Happening) : move.ruling? (happenings ++ [happening]) = some ruling := by
  unfold ruling? at h ⊢
  simp only [Option.bind_eq_bind, Option.bind_eq_some_iff, Prod.exists] at h
  obtain ⟨begun, later, hbegins, load, leg, rest, htakes, hruled⟩ := h
  simp only [Happening.first?_concat_of_some hbegins, take?_concat htakes, Option.bind_eq_bind,
    Option.bind_some]
  cases hadmission : move.admission load leg.before with
  | error fault =>
    rw [hadmission] at hruled
    exact hruled
  | ok zone =>
    simp only [hadmission, Option.bind_eq_some_iff, Prod.exists] at hruled ⊢
    obtain ⟨load', last, after, htakes', hruled'⟩ := hruled
    exact ⟨load', last, _, take?_concat htakes' happening, hruled'⟩

section Ruled

variable {begun admitted last : Leg} {rest after : List Happening} {zone : ZoneSummary}
  {load sceneLoad : LoadOutcome Bundle}

/-- A move that is not let into its zone is ruled to be stopped. -/
theorem ruling?_of_stopped {fault : Fault}
    (begins : Happening.first? (Happening.legOf? move) happenings = some (begun, rest))
    (takes : move.take? (.zone move.target.zone) begun rest = some (load, admitted, later))
    (stopped : move.admission load admitted.before = .error fault) :
    move.ruling? happenings = some (.stopped fault) := by
  simp only [ruling?, begins, takes, stopped, Option.bind_eq_bind, Option.bind_some,
    Option.pure_def]

/-- A move that gets to its scene is ruled by how the place receives it. -/
theorem ruling?_of_reached
    (begins : Happening.first? (Happening.legOf? move) happenings = some (begun, rest))
    (takes : move.take? (.zone move.target.zone) begun rest = some (load, admitted, later))
    (admits : move.admission load admitted.before = .ok zone)
    (reaches : move.take? (.scene move.target.scene) admitted later =
      some (sceneLoad, last, after)) :
    move.ruling? happenings = some
      (match move.reception zone sceneLoad last.before.world with
        | .error fault => .refused fault
        | .ok model => .entered zone model last) := by
  simp only [ruling?, begins, takes, admits, reaches, Option.bind_eq_bind, Option.bind_some,
    Option.pure_def]
  cases move.reception zone sceneLoad last.before.world with
  | error fault => rfl
  | ok model => rfl

end Ruled

/-- Asking for a key changes nothing that an admission looks at. -/
theorem admission_congr {load : LoadOutcome Bundle} {realm realm' : Realm}
    (hbodies : realm'.world.bodies = realm.world.bodies) (hzones : realm'.zones = realm.zones) :
    move.admission load realm' = move.admission load realm := by
  unfold admission World.body?
  rw [hbodies, hzones]

namespace Follows

variable {standing : Standing} {zone : ZoneSummary} {inquiry : List Effect} {realm : Realm}

/-- What is known of a move stays so when nothing is told to those who wait. -/
theorem quiet (h : move.Follows happenings cache standing) (single : cache.SingleFlight)
    (quiet : Cache.Quiet cache after) : move.Follows happenings after standing := by
  cases h with
  | queued unbegun => exact .queued unbegun
  | zone begins asked awaits => exact .zone begins asked (awaits.quiet single quiet)
  | scene begins takes admits asked awaits =>
    exact .scene begins takes admits asked (awaits.quiet single quiet)
  | answered ruled mem ends => exact .answered ruled mem ends

/-- What is not done for a move does not bring it on. -/
theorem pass (h : move.Follows happenings cache standing) (happening : Happening)
    (hleg : Happening.legOf? move happening = none)
    (hawaits : ∀ {key later resolution}, move.Awaits key later resolution cache →
      move.Awaits key (later ++ [happening]) resolution after) :
    move.Follows (happenings ++ [happening]) after standing := by
  cases h with
  | queued unbegun =>
    refine .queued ?_
    rw [Happening.first?_concat_of_none unbegun, hleg]
    rfl
  | zone begins asked awaits =>
    exact .zone (Happening.first?_concat_of_some begins _) asked (hawaits awaits)
  | scene begins takes admits asked awaits =>
    exact .scene (Happening.first?_concat_of_some begins _) (take?_concat takes _) admits asked
      (hawaits awaits)
  | answered ruled mem ends =>
    refine .answered (ruling?_concat ruled _) ?_ ends
    rw [Happening.legs, List.filterMap_append, Leg.ofMove, List.filter_append]
    exact List.mem_append_left _ mem

/-- A leg that looks for its zone brings its move as far as the zone. -/
theorem looks_zone (h : move.Follows happenings leg.before.world.cache
      (leg.stage?.elim .queued .waits)) (hsingle : leg.before.world.cache.SingleFlight)
    (hleg : leg.request = move) (quest : leg.quest? = some (resolution, realm)) :
    ∃ begun later, Happening.first? (Happening.legOf? move) (happenings ++ [.leg leg]) =
        some (begun, later) ∧
      move.Looks (.zone move.target.zone) begun later leg resolution realm.world.cache := by
  unfold Leg.quest? at quest
  cases hstage : leg.stage? with
  | none =>
    rw [hstage] at h quest
    cases quest
    cases h with
    | queued unbegun =>
      refine ⟨leg, [], ?_, ?_⟩
      · rw [Happening.first?_concat_of_none unbegun, Happening.legOf?, if_pos hleg]
        rfl
      · rw [← hleg]
        exact looks_of_asks _ hsingle leg rfl
  | some stage =>
    rw [hstage] at h quest
    cases stage with
    | resolvingScene => cases quest
    | resolvingZone resolution =>
      cases quest
      cases h with
      | zone begins asked awaits =>
        exact ⟨_, _, Happening.first?_concat_of_some begins _, awaits.looks hleg asked⟩

/-- A leg that has got through to the scene was let into the zone that its move took. -/
theorem looks_scene (h : move.Follows happenings leg.before.world.cache
      (leg.stage?.elim .queued .waits)) (hsingle : leg.before.world.cache.SingleFlight)
    (hleg : leg.request = move) (reaches : leg.Reaches zone inquiry resolution realm) :
    ∃ begun rest load admitted later,
      Happening.first? (Happening.legOf? move) (happenings ++ [.leg leg]) = some (begun, rest) ∧
      move.take? (.zone move.target.zone) begun rest = some (load, admitted, later) ∧
      move.admission load admitted.before = .ok zone ∧
      move.Looks (.scene move.target.scene) admitted later leg resolution realm.world.cache := by
  cases reaches with
  | resumes stage =>
    rw [stage] at h
    cases h with
    | scene begins takes admits asked awaits =>
      exact ⟨_, _, _, _, _, Happening.first?_concat_of_some begins _, take?_concat takes _, admits,
        awaits.looks hleg asked⟩
  | @admitted _ realm load quest taken admitted =>
    obtain ⟨begun, rest, hbegins, hlooks⟩ := h.looks_zone hsingle hleg quest
    rw [Looks, taken] at hlooks
    subst hleg
    have hrealm := Leg.quest_realm quest
    have hcache : (leg.request.inquire load realm).world.cache = realm.world.cache :=
      (congrArg World.cache (leg.request.inquire_world load realm)).trans rfl
    refine ⟨begun, rest, load, leg, [], hbegins, hlooks, ?_, ?_⟩
    · rw [← admitted, hrealm]
      exact (admission_congr rfl rfl).symm
    · obtain ⟨hasked, hpeek⟩ := leg.quest_acquires hsingle quest
      rw [← hcache] at hasked hpeek
      exact looks_of_asks (leg.request.inquire load realm) hasked leg (hpeek _ nofun)

/-- A leg that takes the scene settles what becomes of its move. -/
theorem ruled_of_taken (h : move.Follows happenings leg.before.world.cache
      (leg.stage?.elim .queued .waits)) (hsingle : leg.before.world.cache.SingleFlight)
    (hleg : leg.request = move) (reaches : leg.Reaches zone inquiry resolution realm)
    {load : LoadOutcome Bundle} (taken : resolution.outcome? realm.world.cache = some load) :
    move.ruling? (happenings ++ [.leg leg]) = some
      (match leg.request.reception zone load leg.before.world with
        | .error fault => .refused fault
        | .ok model => .entered zone model leg) := by
  obtain ⟨begun, rest, zoneLoad, admitted, later, hbegins, htakes, hadmits, hlooks⟩ :=
    h.looks_scene hsingle hleg reaches
  rw [Looks, taken] at hlooks
  rw [hleg]
  exact ruling?_of_reached hbegins htakes hadmits hlooks

/-- A leg brings its move on. -/
theorem brings (h : move.Follows happenings leg.before.world.cache
      (leg.stage?.elim .queued .waits)) (hsingle : leg.before.world.cache.SingleFlight)
    (hleg : leg.request = move) (hsound : leg.before.world.Sound)
    (hunwrapped : leg.after.world.Unwrapped) :
    move.Follows (happenings ++ [.leg leg]) leg.after.world.cache leg.standing := by
  have hmem : leg ∈ Leg.ofMove move (Happening.legs (happenings ++ [.leg leg])) := by
    rw [Happening.legs_concat_leg, Leg.ofMove_concat, if_pos hleg]
    exact List.mem_append_right _ (List.mem_singleton.mpr rfl)
  have hafter := leg.keepsSound.sound hsound hunwrapped
  -- A leg that parks has looked for a load that is not there. One that answers has found all that
  -- the ruling asks for.
  have hending := leg.ending
  generalize hrealm : leg.after = after, heffects : leg.effects = effects,
    hparked : leg.parked = flight at hending
  cases hending with
  | awaitsZone quest load =>
    obtain ⟨begun, later, hbegins, hlooks⟩ := h.looks_zone hsingle hleg quest
    rw [Looks, load] at hlooks
    rw [Leg.standing_of_parked hparked]
    exact .zone hbegins hlooks.1 hlooks.2
  | @stopped resolution realm load fault quest taken refused =>
    obtain ⟨begun, later, hbegins, hlooks⟩ := h.looks_zone hsingle hleg quest
    rw [Looks, taken] at hlooks
    have hadmission : leg.admission? = some (.error fault) := by
      rw [Leg.admission?_of_quest quest, taken, Option.map_some, refused]
    rw [hleg, Leg.quest_realm quest] at refused
    have hrefused : move.admission load leg.before = .error fault :=
      (admission_congr rfl rfl).symm.trans refused
    rw [Leg.standing_of_none hparked]
    refine .answered (ruling?_of_stopped hbegins hlooks hrefused) hmem ⟨hadmission, ?_⟩
    rw [heffects]
    exact List.mem_append_right _ (List.mem_singleton.mpr rfl)
  | awaitsScene reaches load =>
    obtain ⟨begun, rest, zoneLoad, admitted, later, hbegins, htakes, hadmits, hlooks⟩ :=
      h.looks_scene hsingle hleg reaches
    rw [Looks, load] at hlooks
    rw [Leg.standing_of_parked hparked]
    exact .scene hbegins htakes hadmits hlooks.1 hlooks.2
  | refused reaches taken lands =>
    have hruled := h.ruled_of_taken hsingle hleg reaches taken
    rw [reaches.reception_of_failure hsound lands] at hruled
    rw [Leg.standing_of_none hparked]
    refine .answered hruled hmem ?_
    rw [Ruling.Ends, heffects]
    exact List.mem_append_right _ (List.mem_singleton.mpr rfl)
  | @entered zone _ _ _ realm _ reply world reaches taken lands =>
    have hruled := h.ruled_of_taken hsingle hleg reaches taken
    have hsame := leg.request.same_finish_announce { realm with world := world } leg.request.keys
      (.success reply) leg.request.entity zone.zone
    rw [← hrealm] at hsame
    obtain ⟨model, moved, hmodel, rfl, hwelcomes⟩ :=
      reaches.reception_of_success hsound hafter hsame.1 hsame.2 lands
    rw [hmodel] at hruled
    rw [Leg.standing_of_none hparked]
    refine .answered hruled hmem ⟨rfl, moved, hwelcomes, ?_⟩
    rw [heffects]
    exact List.mem_append_left _ (List.mem_append_right _ (List.mem_singleton.mpr rfl))

end Follows

/-- What has happened tells how far every move has come. -/
theorem follows_of_timeline {start : Cache CacheKey Bundle} (hstart : start.SingleFlight)
    (htimeline : Timeline start happenings cache)
    (hsound : ∀ leg ∈ Happening.legs happenings,
      leg.before.world.Sound ∧ leg.after.world.Unwrapped) {standing : Standing}
    (hjourney : Journey move (Leg.ofMove move (Happening.legs happenings)) standing) :
    move.Follows happenings cache standing := by
  induction htimeline generalizing standing with
  | start =>
    cases hjourney.queued_of_nil
    exact .queued rfl
  | quiet before quiet ih => exact (ih hsound hjourney).quiet (before.single hstart) quiet
  | @leg happenings leg before ih =>
    rw [Happening.legs_concat_leg] at hsound hjourney
    have hearlier := fun other hmem => hsound other (List.mem_append_left _ hmem)
    obtain ⟨hfound, hunwrapped⟩ :=
      hsound leg (List.mem_append_right _ (List.mem_singleton.mpr rfl))
    have hsingle := before.single hstart
    rw [Leg.ofMove_concat] at hjourney
    by_cases hmine : leg.request = move
    · rw [if_pos hmine] at hjourney
      obtain ⟨hbefore, -, rfl⟩ := hjourney.of_concat
      exact (ih hearlier hbefore).brings hsingle hmine hfound hunwrapped
    · rw [if_neg hmine, List.append_nil] at hjourney
      exact ((ih hearlier hjourney).quiet hsingle (leg.quiet hsingle)).pass _ (if_neg hmine)
        fun hawaits => hawaits.pass (if_neg hmine) rfl
  | settles before arrived ih =>
    rw [Happening.legs_concat_settled] at hsound hjourney
    exact (ih hsound hjourney).pass _ rfl fun hawaits =>
      hawaits.settle (before.single hstart) arrived

/-- Nothing is ruled before a move is answered. -/
theorem Follows.unruled {standing : Standing} (h : move.Follows happenings cache standing)
    (hstanding : standing ≠ .answered) : move.ruling? happenings = none := by
  cases h with
  | queued unbegun => simp only [ruling?, unbegun, Option.bind_eq_bind, Option.bind_none]
  | zone begins asked awaits =>
    simp only [ruling?, begins, awaits.untaken_eq asked, Option.bind_eq_bind, Option.bind_some,
      Option.bind_none]
  | scene begins takes admits asked awaits =>
    simp only [ruling?, begins, takes, admits, awaits.untaken_eq asked, Option.bind_eq_bind,
      Option.bind_some, Option.bind_none]
  | answered => exact absurd rfl hstanding

end MoveRequest

/-! ## What is not done any more -/

namespace Cache

variable {κ π : Type} [Ord κ] [Std.TransOrd κ] [DecidableEq κ]

/-- Giving references back starts no load. -/
theorem started_foldl_release (cache : Cache κ π) (keys : List κ) :
    (keys.foldl release cache).started = cache.started := by
  induction keys generalizing cache with
  | nil => rfl
  | cons key keys ih =>
    refine (ih _).trans ?_
    unfold release
    split
    · rfl
    · split
      · rfl
      · dsimp only
        split
        · rfl
        · rfl
        · rfl

variable [Std.LawfulEqOrd κ]

/-- Acquiring keys starts loads of these keys only. -/
theorem exists_started_foldl_acquire (cache : Cache κ π) (keys : List κ) :
    ∃ loads, (keys.foldl acquire cache).started = cache.started ++ loads ∧
      ∀ key ∈ loads, key ∈ keys := by
  induction keys generalizing cache with
  | nil => exact ⟨[], (List.append_nil _).symm, nofun⟩
  | cons key keys ih =>
    obtain ⟨loads, hloads, hmem⟩ := ih (cache.acquire key)
    have hstarted : (cache.acquire key).started = cache.started ++ cache.misses (.resolve key) :=
      ((cache.resolve key).2.retain_spares key).loads.started.trans
        (cache.resolve_outcome key).started_eq
    refine ⟨cache.misses (.resolve key) ++ loads, ?_, fun other hother => ?_⟩
    · rw [List.foldl_cons, hloads, hstarted, List.append_assoc]
    · rcases List.mem_append.mp hother with hnow | hlater
      · rw [misses] at hnow
        split at hnow
        · rw [List.mem_singleton.mp hnow]
          exact List.mem_cons_self
        · cases hnow
      · exact List.mem_cons_of_mem _ (hmem other hlater)

end Cache

/-- The keys of the loads that are started in the course of a leg. -/
def Leg.loads (leg : Leg) : List CacheKey :=
  leg.after.world.cache.started.drop leg.before.world.cache.started.length

/-- A leg that brings its move no success starts loads of what it takes only. -/
theorem Leg.mem_taken_of_mem_loads {leg : Leg} (h : leg.after.world.cache =
      leg.returned.foldl Cache.release (leg.taken.foldl Cache.acquire leg.before.world.cache))
    {key : CacheKey} (hkey : key ∈ leg.loads) : key ∈ leg.taken := by
  obtain ⟨loads, hloads, hmem⟩ :=
    Cache.exists_started_foldl_acquire leg.before.world.cache leg.taken
  rw [Leg.loads, h, Cache.started_foldl_release, hloads, List.drop_left] at hkey
  exact hmem key hkey

namespace Ruling

/-- The answer is the one that is ruled. A success tells of the place as it is after the leg with
which the body is put there. -/
def Brings (move : MoveRequest) : Ruling → Answer → Prop
  | .stopped fault, answer | .refused fault, answer => answer = .failure fault
  | .entered zone model leg, answer => ∃ reply, answer = .success (.moved reply) ∧
    move.Welcomes zone model leg.after.world reply

/-- Nothing is done in the legs of a move that comes after the check by which it fails: the world
stays as it is, no load is started but that of a zone unless the move is let into it, and no policy
is asked unless it is the one that says no. -/
def Forgoes (move : MoveRequest) (legs : List Leg) : Ruling → Prop
  | .stopped fault => (∀ leg ∈ legs, (∃ effects, leg.Traceless effects) ∧
      ∀ key ∈ leg.loads, key = .zone move.target.zone) ∧
    ((∃ reason, fault = .vetoed reason) ∨ legs.flatMap Leg.ratifications = [])
  | .refused _ => ∀ leg ∈ legs, ∃ effects, leg.Traceless effects
  | .entered _ _ _ => True

end Ruling

namespace Journey

variable {move : MoveRequest} {legs : List Leg} {standing : Standing} {leg : Leg} {fault : Fault}

/-- A move that fails leaves no trace in any leg. -/
theorem traceless (h : Journey move legs standing)
    (hsound : ∀ leg ∈ legs, leg.before.world.Sound ∧ leg.after.world.Unwrapped)
    (hfailed : .answer move.listener (.failure fault) ∈ legs.flatMap Leg.effects) :
    ∀ leg ∈ legs, ∃ effects, leg.Traceless effects := by
  obtain ⟨earlier, last, rfl, hwaits, rfl, hanswer⟩ := h.exists_last_of_answer hfailed
  intro leg hmem
  rcases List.mem_append.mp hmem with hold | hlast
  · obtain ⟨flight, hparked⟩ := hwaits leg hold
    exact ⟨_, Leg.traceless_of_parked hparked⟩
  · obtain ⟨hbefore, hunwrapped⟩ := hsound leg hmem
    cases List.mem_singleton.mp hlast
    exact ⟨_, Leg.traceless_of_failure hbefore hunwrapped.placeIds hanswer⟩

/-- Nobody is asked about a move before its zone is there, and then the one who vetoes it. -/
theorem unasked (h : Journey move legs standing) (hleg : leg ∈ legs)
    (hadmission : leg.admission? = some (.error fault)) :
    (∃ reason, fault = .vetoed reason) ∨ legs.flatMap Leg.ratifications = [] := by
  obtain ⟨⟨earlier, rfl⟩, -⟩ := h.stopped hleg hadmission
  obtain ⟨⟨resolution, realm⟩, hentry, -⟩ := Option.bind_eq_some_iff.mp hadmission
  have hearlier := Leg.asked_of_quest hentry h.of_concat.1.asked
  rw [List.flatMap_append, hearlier, List.flatMap_singleton, List.nil_append]
  cases hlast : leg.ratifications with
  | nil => exact .inr rfl
  | cons ratification rest =>
    have hmem : ratification ∈ leg.ratifications := by
      rw [hlast]
      exact List.mem_cons_self
    obtain ⟨-, hasked⟩ := Leg.asks_of_mem hmem
    rw [hadmission] at hasked
    cases hveto : ratification.veto with
    | none =>
      rw [hveto] at hasked
      cases hasked
    | some reason =>
      rw [hveto] at hasked
      cases hasked
      exact .inl ⟨reason, rfl⟩

/-- What is ruled of a move is what its last leg says, and nothing more is done. -/
theorem forgoes (h : Journey move legs standing)
    (hsound : ∀ leg ∈ legs, leg.before.world.Sound ∧ leg.after.world.Unwrapped) (hleg : leg ∈ legs)
    {ruling : Ruling} (hends : ruling.Ends leg) :
    ∃ answer, ruling.Brings move answer ∧ .answer move.listener answer ∈ leg.effects ∧
      ruling.Forgoes move legs := by
  have hmine := h.mine leg hleg
  cases ruling with
  | stopped fault =>
    obtain ⟨hadmission, hanswer⟩ := hends
    rw [hmine] at hanswer
    obtain ⟨-, htaken, hcache⟩ := h.stopped hleg hadmission
    have htraceless := h.traceless hsound (List.mem_flatMap.mpr ⟨leg, hleg, hanswer⟩)
    refine ⟨_, rfl, hanswer, fun other hother => ⟨htraceless other hother, fun key hkey => ?_⟩,
      h.unasked hleg hadmission⟩
    have hmem : key ∈ legs.flatMap Leg.taken := List.mem_flatMap.mpr
      ⟨other, hother, Leg.mem_taken_of_mem_loads (hcache other hother) hkey⟩
    rw [htaken] at hmem
    exact List.mem_singleton.mp hmem
  | refused fault =>
    rw [Ruling.Ends, hmine] at hends
    exact ⟨_, rfl, hends, h.traceless hsound (List.mem_flatMap.mpr ⟨leg, hleg, hends⟩)⟩
  | entered zone model last =>
    obtain ⟨rfl, reply, hwelcomes, hanswer⟩ := hends
    rw [hmine] at hwelcomes hanswer
    exact ⟨_, ⟨reply, rfl, hwelcomes⟩, hanswer, trivial⟩

end Journey

namespace Server

/-- What has happened in a run tells how far each of its moves has come. -/
theorem run_follows (config : ServerConfig) (loader : Loader CacheKey Bundle)
    (actions : List Action)
    (h : ((Server.new config loader).run actions).world.Unwrapped) {move : MoveRequest}
    {standing : Standing} (hjourney : Journey move
      (Leg.ofMove move ((Server.new config loader).collect legs actions)) standing) :
    move.Follows ((Server.new config loader).collect happenings actions)
      ((Server.new config loader).run actions).world.cache standing := by
  have hlegs := legs_happenings (Server.new config loader) actions
  rw [← hlegs] at hjourney
  refine MoveRequest.follows_of_timeline (Cache.singleFlight_new _ _)
    (run_timeline config loader actions) ?_ hjourney
  rw [hlegs]
  exact fun leg hleg => sound_of_mem_legs config loader hleg h

/-- What becomes of a move is what a plain reading of the run says, however often it is suspended
and whatever happens meanwhile: it is answered as it is ruled, and with nothing else. -/
theorem run_ruling (config : ServerConfig) (loader : Loader CacheKey Bundle)
    (actions : List Action)
    (hbodies : ((Server.new config loader).run actions).world.entityIds.issued < 2 ^ 64)
    (hplaces : ((Server.new config loader).run actions).world.placeIds.issued < 2 ^ 64)
    {dispatch : Dispatch} {move : MoveRequest}
    (hdispatch : dispatch ∈ (Server.new config loader).collect dispatches actions)
    (hmove : dispatch.move = some move) :
    match move.ruling? ((Server.new config loader).collect happenings actions) with
    | none => ∀ answer,
      .answer move.listener answer ∉ ((Server.new config loader).run actions).deeds
    | some ruling => ∃ answer, ruling.Brings move answer ∧
      (∀ other, .answer move.listener other ∈ ((Server.new config loader).run actions).deeds ↔
        other = answer) ∧
      ruling.Forgoes move (Leg.ofMove move ((Server.new config loader).collect legs actions)) := by
  have horderly := run_orderly config loader actions
  obtain ⟨standing, hjourney, hanswered, -⟩ :=
    (run_travels config loader actions).journey horderly hdispatch hmove
  have hsound : ∀ leg ∈ (Server.new config loader).collect legs actions,
      leg.before.world.Sound ∧ leg.after.world.Unwrapped :=
    fun leg hleg => sound_of_mem_legs config loader hleg ⟨hbodies, hplaces⟩
  have hlegs := legs_happenings (Server.new config loader) actions
  have hfollows := run_follows config loader actions ⟨hbodies, hplaces⟩ hjourney
  rw [← answered_deeds] at hanswered
  by_cases hstanding : standing = .answered
  · subst hstanding
    cases hfollows with
    | @answered ruling leg ruled mem ends =>
      rw [hlegs] at mem
      obtain ⟨answer, hbrings, hanswer, hforgoes⟩ := hjourney.forgoes
        (fun leg hleg => hsound leg (List.mem_filter.mp hleg).1) mem ends
      have hdeed := mem_deeds_of_leg (new_builtIn config loader) (List.mem_filter.mp mem).1 hanswer
      have honce := horderly.accounted.once
      rw [← answered_deeds] at honce
      rw [ruled]
      refine ⟨answer, hbrings, fun other => ⟨fun hother => ?_, ?_⟩, hforgoes⟩
      · exact Effect.answer_unique honce hother hdeed
      · rintro rfl
        exact hdeed
  · rw [hfollows.unruled hstanding]
    exact fun answer hanswer => hstanding (hanswered.mpr
      (List.mem_filterMap.mpr ⟨_, hanswer, rfl⟩))

/-- The move of the first participant of the meeting. -/
def meetingMove : MoveRequest := ⟨1, ⟨1, 1, 1⟩, 0, ⟨⟨"ada"⟩, 1, 0⟩⟩

/-- The first participant of the meeting waits for its zone and for its scene, and is received. -/
theorem meeting_ruling : ∃ zone model leg reply,
    meetingMove.ruling? ((Server.new {} .town).collect happenings meeting) =
        some (.entered zone model leg) ∧
      meetingMove.Welcomes zone model leg.after.world reply ∧
      ∀ other, .answer meetingMove.listener other ∈ ((Server.new {} .town).run meeting).deeds ↔
        other = .success (.moved reply) := by
  have hdispatch : ⟨⟨⟨"ada"⟩, 1, 0⟩, some meetingMove⟩ ∈
      (Server.new {} .town).collect dispatches meeting := List.mem_cons_self
  have hruling := run_ruling {} .town meeting (by decide +kernel) (by decide +kernel) hdispatch rfl
  obtain ⟨zone, model, leg, hruled⟩ : ∃ zone model leg,
      meetingMove.ruling? ((Server.new {} .town).collect happenings meeting) =
        some (.entered zone model leg) := ⟨_, _, _, rfl⟩
  rw [hruled] at hruling
  obtain ⟨_, ⟨reply, rfl, hwelcomes⟩, hanswers, -⟩ := hruling
  exact ⟨zone, model, leg, reply, hruled, hwelcomes, hanswers⟩

end Server

end SharedWorld
