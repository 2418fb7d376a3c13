import SharedWorld.Proofs.Ledger
import SharedWorld.Proofs.Occupancies
import SharedWorld.Proofs.Rulings

/-!
# Where moves end that succeed

A move names a zone, a scene and a location, and the loads of the zone's and of the scene's key
bring a zone and a scene. Only the kind of what they bring is looked at. The location is the one
that was asked for, but the zone and the scene that the body enters, that the reply tells of, and
whose policy and place have the say are those that were brought (`Server.run_destination`). So a
success means the requested destination exactly if the loads brought what their keys name. -/

namespace SharedWorld

variable {Fits : CacheKey → Bundle → Prop}

/-! ## Payloads that fit their keys -/

/-- No operation puts a payload under a key that it does not fit. -/
theorem World.fits_bookkeeping : World.Bookkeeping fun _ _ before after =>
    before.cache.Sound Fits → after.cache.Sound Fits where
  trans first rest h := rest (first h)
  perm _ _ := id
  effects _ _ := id
  leavePlace world entity h := ((leavePlace_outcome world entity).recounts h).sound
  enters _ _ _ outcome h := (outcome.recounts h).sound
  finish flight _ answer h := (flight.request.recounts_finish h flight.held answer).sound
  takesZone _ _ h := (Realm.acquire_sound h _).1
  takesScene _ _ _ h := (Realm.acquire_sound h _).1
  createBody world identity h := by
    rw [world.cache_createBody]
    exact h
  removeBody world identity h := ((removeBody_outcome world identity).recounts h).sound
  setStatus world identity status h := by
    rw [(setStatus_outcome world identity status).cache_eq]
    exact h

/-- A leg brings nothing into the cache that does not fit its key. -/
theorem Leg.fits (leg : Leg) (h : leg.before.world.cache.Sound Fits) :
    leg.after.world.cache.Sound Fits := by
  obtain ⟨request, stage?, before⟩ := leg
  cases stage? with
  | none => exact World.fits_bookkeeping.launch request [] before h
  | some stage => exact World.fits_bookkeeping.step ⟨request, stage⟩ [] before h

/-- What a move hears from a happening fits its key. -/
def Happening.Tells (Fits : CacheKey → Bundle → Prop) : Happening → Prop
  | .leg work => work.before.world.cache.Sound Fits
  | .settled key outcome => ∀ payload, outcome = .loaded payload → Fits key payload

namespace Server

variable {config : ServerConfig} {loader : Loader CacheKey Bundle} {actions : List Action}

/-- As long as what is brought for a key fits it, so does what the cache holds of it. -/
theorem run_fits (hloader : loader.Tells Fits) (hactions : ∀ action ∈ actions, action.Tells Fits) :
    ((Server.new config loader).run actions).world.cache.Sound Fits := by
  induction actions using List.reverseRecOn with
  | nil => exact Cache.sound_new _ hloader
  | append_singleton earlier action ih =>
    have hearlier := ih fun other hmem => hactions other (List.mem_append_left _ hmem)
    have haction := hactions action (List.mem_append_right _ (List.mem_singleton_self _))
    have hbuiltIn := run_builtIn (new_builtIn config loader) earlier
    rw [run_append]
    refine World.fits_bookkeeping.act (act_outcome _ action) hbuiltIn ?_ (fun h => h.settleNext.1)
      (fun _ => id) hearlier
    rintro key outcome rfl h
    exact (h.report haction).1

/-- So does what moves hear of their loads. -/
theorem happenings_tell (hloader : loader.Tells Fits)
    (hactions : ∀ action ∈ actions, action.Tells Fits) :
    ∀ happening ∈ (Server.new config loader).collect happenings actions,
      happening.Tells Fits := by
  intro happening hmem
  obtain ⟨earlier, action, later, rfl, hnow⟩ := exists_action_of_mem_collect hmem
  have hfits : ((Server.new config loader).run earlier).world.cache.Sound Fits :=
    run_fits hloader fun other hother => hactions other (List.mem_append_left _ hother)
  have hbuiltIn := run_builtIn (new_builtIn config loader) earlier
  generalize (Server.new config loader).run earlier = server at hnow hfits hbuiltIn
  have hlegs : ∀ leg ∈ server.legs action, leg.before.world.cache.Sound Fits := by
    intro leg hleg
    obtain ⟨served, -, hpath⟩ := (moves_of_mem_legs hleg).path hbuiltIn
    exact (hpath.around (R := fun before after => before.world.cache.Sound Fits →
      after.world.cache.Sound Fits) (fun _ => id) (fun first rest h => rest (first h))
        (fun leg => leg.fits) hleg).1 hfits
  have hmapped : happening ∈ (server.legs action).map Happening.leg → happening.Tells Fits := by
    intro hmem
    obtain ⟨leg, hleg, rfl⟩ := List.mem_map.mp hmem
    exact hlegs leg hleg
  cases action with
  | settle =>
    obtain ⟨arrival, harrival, rfl⟩ := Option.map_eq_some_iff.mp (Option.mem_toList.mp hnow)
    intro payload heq
    refine hfits.arrived_fits (List.mem_of_mem_head? ?_)
    rw [harrival, ← heq]
    exact Option.mem_some_self _
  | _ => exact hmapped hnow

end Server

/-! ## What a ruling rests on -/

/-- What is seen first was seen in one of the happenings, and the later ones come after it. -/
theorem Happening.mem_of_first? {α : Type} {see : Happening → Option α}
    {happenings later : List Happening} {seen : α}
    (h : first? see happenings = some (seen, later)) :
    (∃ happening ∈ happenings, see happening = some seen) ∧ later ⊆ happenings := by
  induction happenings with
  | nil => cases h
  | cons other happenings ih =>
    rw [first?] at h
    cases hother : see other with
    | some found =>
      rw [hother] at h
      cases h
      exact ⟨⟨other, List.mem_cons_self, hother⟩, List.subset_cons_self _ _⟩
    | none =>
      rw [hother] at h
      obtain ⟨⟨happening, hmem, hsee⟩, hlater⟩ := ih h
      exact ⟨⟨happening, List.mem_cons_of_mem _ hmem, hsee⟩, List.subset_cons_of_subset _ hlater⟩

/-- A leg of a move is seen where it takes place. -/
theorem Happening.eq_of_legOf? {move : MoveRequest} {happening : Happening} {leg : Leg}
    (h : legOf? move happening = some leg) : happening = .leg leg := by
  cases happening with
  | leg work =>
    rw [legOf?] at h
    split at h
    · exact congrArg Happening.leg (Option.some.inj h)
    · cases h
  | settled key outcome => cases h

/-- The outcome of a key is seen where the key is settled. -/
theorem Happening.eq_of_loadOf? {key : CacheKey} {happening : Happening}
    {outcome : LoadOutcome Bundle} (h : loadOf? key happening = some outcome) :
    happening = .settled key outcome := by
  cases happening with
  | leg work => cases h
  | settled name outcome' =>
    rw [loadOf?] at h
    split at h
    · cases h
      rw [‹name = key›]
    · cases h

namespace MoveRequest

variable {move : MoveRequest} {happenings later rest : List Happening} {key : CacheKey}
  {asking leg : Leg} {load : LoadOutcome Bundle}

/-- The leg that takes a move on is among what happened. -/
theorem fits_of_first? (hfits : ∀ happening ∈ happenings, happening.Tells Fits)
    (h : Happening.first? (Happening.legOf? move) happenings = some (leg, later)) :
    leg.before.world.cache.Sound Fits ∧ ∀ happening ∈ later, happening.Tells Fits := by
  obtain ⟨⟨happening, hmem, hsee⟩, hlater⟩ := Happening.mem_of_first? h
  have hleg := hfits happening hmem
  rw [Happening.eq_of_legOf? hsee] at hleg
  exact ⟨hleg, fun other hother => hfits other (hlater hother)⟩

/-- What a move takes of a key fits it. -/
theorem fits_of_take? (hasking : asking.before.world.cache.Sound Fits)
    (hfits : ∀ happening ∈ later, happening.Tells Fits)
    (h : move.take? key asking later = some (load, leg, rest)) :
    (∀ payload, load = .loaded payload → Fits key payload) ∧
      leg.before.world.cache.Sound Fits ∧ ∀ happening ∈ rest, happening.Tells Fits := by
  unfold take? at h
  cases hready : asking.before.world.cache.peek? key with
  | some bundle =>
    rw [hready] at h
    cases h
    refine ⟨?_, hasking, hfits⟩
    rintro payload ⟨⟩
    exact hasking.ready_fits hready
  | none =>
    simp only [hready, Option.bind_eq_bind, Option.bind_eq_some_iff, Prod.exists] at h
    obtain ⟨outcome, after, hload, taking, after', hleg, heq⟩ := h
    cases heq
    obtain ⟨⟨happening, hmem, hsee⟩, hafter⟩ := Happening.mem_of_first? hload
    have htold := hfits happening hmem
    rw [Happening.eq_of_loadOf? hsee] at htold
    exact ⟨htold, fits_of_first? (fun other hother => hfits other (hafter hother)) hleg⟩

/-- Only a scene is received. -/
theorem reception_ok {zone : ZoneSummary} {world : World} {model : SceneModel}
    (h : move.reception zone load world = .ok model) : load = .loaded (.scene model) := by
  unfold reception at h
  split at h
  · split at h
    · split at h
      · cases h
      · dsimp only at h
        split at h
        · cases h
        · cases h
          rfl
    · cases h
  · cases h

/-- The zone and the scene that a move enters are those that its loads have brought. -/
theorem ruling?_fits (hfits : ∀ happening ∈ happenings, happening.Tells Fits)
    {zone : ZoneSummary} {model : SceneModel} {last : Leg}
    (h : move.ruling? happenings = some (.entered zone model last)) :
    Fits (.zone move.target.zone) (.zone zone) ∧
      Fits (.scene move.target.scene) (.scene model) := by
  unfold ruling? at h
  simp only [Option.bind_eq_bind, Option.bind_eq_some_iff, Prod.exists] at h
  obtain ⟨begun, later, hbegins, zoneLoad, admitted, rest, htakes, hruled⟩ := h
  obtain ⟨hbegun, hlater⟩ := fits_of_first? hfits hbegins
  obtain ⟨hzone, hadmitted, hrest⟩ := fits_of_take? hbegun hlater htakes
  cases hadmission : move.admission zoneLoad admitted.before with
  | error fault =>
    rw [hadmission] at hruled
    cases hruled
  | ok summary =>
    simp only [hadmission, Option.bind_eq_some_iff, Prod.exists] at hruled
    obtain ⟨sceneLoad, taking, after, htakes', hruled⟩ := hruled
    obtain ⟨hscene, -⟩ := fits_of_take? hadmitted hrest htakes'
    cases hreception : move.reception summary sceneLoad taking.before.world with
    | error fault =>
      rw [hreception] at hruled
      cases hruled
    | ok model' =>
      rw [hreception] at hruled
      cases hruled
      obtain ⟨-, -, hload, -⟩ := inquiry?_of_admission hadmission
      exact ⟨hzone _ hload, hscene _ (reception_ok hreception)⟩

end MoveRequest

/-! ## Destinations -/

/-- A move that was answered with the reply has ended at the spot. -/
structure MoveRequest.EndsAt (move : MoveRequest) (legs : List Leg) (reply : MoveReply)
    (spot : MoveTarget) : Prop where
  told : reply.zone.zone = spot.zone ∧ reply.scene = spot.scene ∧ reply.location = spot.location
  /-- After the leg that brings the reply, which is the last one, the body is at the spot, in the
  place of its scene. -/
  arrived : ∃ earlier last body host, legs = earlier ++ [last] ∧
    .answer move.listener (.success (.moved reply)) ∈ last.effects ∧
    last.after.world.body? move.entity = some body ∧
    body.location = .inside spot.zone spot.scene reply.place spot.location ∧
    last.after.world.host? spot.scene = some reply.place ∧
    last.after.world.place? reply.place = some host ∧ host.scene = spot.scene ∧
    host.occupants.get? move.entity = some body.occupantInfo
  /-- One policy was asked about the move, and it is the one that the zone was under then. -/
  ratified : ∃ leg ratification, leg ∈ legs ∧ legs.flatMap Leg.ratifications = [ratification] ∧
    ratification ∈ leg.ratifications ∧
    leg.before.world.body? move.entity = some ratification.body ∧
    ratification.policy = (leg.before.zones.policyFor spot.zone).name ∧
    (leg.before.zones.policyFor spot.zone).verdict (leg.before.zones.policyFor spot.zone).calls
      ratification.body reply.zone = none

/-- A leg that ends its move answers it. -/
theorem Ruling.Ends.exists_answer {leg : Leg} {ruling : Ruling} (h : ruling.Ends leg) :
    ∃ answer, .answer leg.request.listener answer ∈ leg.effects := by
  cases ruling with
  | stopped fault => exact ⟨_, h.2⟩
  | refused fault => exact ⟨_, h⟩
  | entered zone model last =>
    obtain ⟨-, reply, -, hanswer⟩ := h
    exact ⟨_, hanswer⟩

/-- A move ends in the zone that it was let into and in the scene that received it. -/
theorem Journey.endsAt {move : MoveRequest} {earlier : List Leg} {last : Leg} {standing : Standing}
    (h : Journey move (earlier ++ [last]) standing) (hsound : last.before.world.Sound)
    (hunwrapped : last.after.world.Unwrapped) {zone : ZoneSummary} {model : SceneModel}
    {moved : MoveReply} (hwelcomes : move.Welcomes zone model last.after.world moved)
    (hlast : .answer move.listener (.success (.moved moved)) ∈ last.effects) :
    move.EndsAt (earlier ++ [last]) moved ⟨zone.zone, model.scene, move.target.location⟩ := by
  have hmine := h.mine
  have hrequest := hmine last (List.mem_append_right _ (List.mem_singleton_self _))
  have hanswer : .answer last.request.listener (.success (.moved moved)) ∈ last.effects := by
    rw [hrequest]
    exact hlast
  obtain ⟨entered, _, _, _, _, body, scene, _, reaches, hreply, hzone, hbody, hlocation, -⟩ :=
    Leg.entered_of_success hsound.registers.labeled hanswer
  cases hreply
  obtain rfl : entered = zone := hzone.symm.trans hwelcomes.zone
  rw [hrequest] at hbody
  rw [hwelcomes.location] at hlocation
  have hafter := last.keepsSound.sound hsound hunwrapped
  obtain ⟨host, hhost, rfl, hin⟩ := hafter.exists_host_of_inside hbody hlocation
  obtain ⟨host', hhost', hscene⟩ := hafter.houses.host_iff.mp hwelcomes.place
  cases hhost.symm.trans hhost'
  rw [hscene] at hlocation
  obtain ⟨ratification, hone, hratified, hveto⟩ := h.letIn reaches
  have hasked : ratification ∈ (earlier ++ [last]).flatMap Leg.ratifications := by
    rw [hone]
    exact List.mem_singleton_self _
  obtain ⟨leg, hleg, hratification⟩ := List.mem_flatMap.mp hasked
  obtain ⟨asks, -⟩ := Leg.asks_of_mem hratification
  have hpolicy := asks.policy
  have hverdict := asks.veto.symm.trans hveto
  rw [hratified] at hpolicy hverdict
  refine ⟨⟨congrArg ZoneSummary.zone hzone, hwelcomes.scene, hwelcomes.location⟩,
    ⟨earlier, last, body, host, rfl, hlast, hbody, hlocation, hwelcomes.place, hhost, hscene, hin⟩,
    leg, ratification, hleg, hone, hratification, ?_, hpolicy, ?_⟩
  · rw [← asks.body, hmine leg hleg]
  · rw [hzone]
    exact hverdict

namespace Server

/-- A move that succeeded was ruled to enter with its last leg, and was received as it was told. -/
theorem exists_entered (config : ServerConfig) (loader : Loader CacheKey Bundle)
    (actions : List Action)
    (h : ((Server.new config loader).run actions).world.Unwrapped) {dispatch : Dispatch}
    {move : MoveRequest}
    (hdispatch : dispatch ∈ (Server.new config loader).collect dispatches actions)
    (hmove : dispatch.move = some move) {reply : Reply}
    (hanswer : .answer move.listener (.success reply) ∈
      ((Server.new config loader).run actions).deeds) :
    ∃ earlier last zone model moved, Journey move (earlier ++ [last]) .answered ∧
      Leg.ofMove move ((Server.new config loader).collect legs actions) = earlier ++ [last] ∧
      last ∈ (Server.new config loader).collect legs actions ∧ last.request = move ∧
      move.ruling? ((Server.new config loader).collect happenings actions) =
        some (.entered zone model last) ∧
      reply = .moved moved ∧ move.Welcomes zone model last.after.world moved ∧
      .answer move.listener (.success reply) ∈ last.effects := by
  obtain ⟨hjourney, earlier, last, hsplit, hwaits, hmine, -, hlast⟩ :=
    exists_last_leg config loader actions hdispatch hmove hanswer
  have hfollows := run_follows config loader actions h hjourney
  have hbuiltIn := new_builtIn config loader
  have hmem : last ∈ (Server.new config loader).collect legs actions := by
    have hof : last ∈ Leg.ofMove move ((Server.new config loader).collect legs actions) := by
      rw [hsplit]
      exact List.mem_append_right _ (List.mem_singleton_self _)
    exact (List.mem_filter.mp hof).1
  have hunique : ∀ other, .answer last.request.listener other ∈ last.effects →
      other = .success reply := by
    intro other hother
    rw [hmine] at hother
    have honce := (run_orderly config loader actions).accounted.once
    rw [← answered_deeds] at honce
    exact Effect.answer_unique honce (mem_deeds_of_leg hbuiltIn hmem hother) hanswer
  cases hfollows with
  | @answered ruling leg ruled mem ends =>
    -- All legs but the last one were parked, so the one that the ruling tells of is the last.
    have hthis : leg = last := by
      rw [legs_happenings, hsplit] at mem
      rcases List.mem_append.mp mem with hold | hnew
      · obtain ⟨flight, hparked⟩ := hwaits leg hold
        obtain ⟨answer, hsaid⟩ := ends.exists_answer
        exact absurd hsaid (Leg.unanswered_of_parked hparked answer)
      · exact List.mem_singleton.mp hnew
    subst hthis
    cases ruling with
    | stopped fault => cases hunique _ ends.2
    | refused fault => cases hunique _ ends
    | entered zone model other =>
      obtain ⟨rfl, moved, hwelcomes, hmoved⟩ := ends
      cases hunique _ hmoved
      rw [hmine] at hwelcomes
      rw [hsplit] at hjourney
      exact ⟨earlier, other, zone, model, moved, hjourney, hsplit, hmem, hmine, ruled, rfl,
        hwelcomes, hlast⟩

/-- Whatever the loader brings and whatever is reported, a move that succeeds ends in the zone and
the scene that its loads have brought: there its body is, this the reply tells, and the policy of
this zone let it in. So it ends at its target exactly if these are the zone and the scene of the
target. Of what is brought nothing more is known than what is known of all that is brought for the
keys of the target. -/
theorem run_destination (config : ServerConfig) (loader : Loader CacheKey Bundle)
    (actions : List Action)
    (hbodies : ((Server.new config loader).run actions).world.entityIds.issued < 2 ^ 64)
    (hplaces : ((Server.new config loader).run actions).world.placeIds.issued < 2 ^ 64)
    {dispatch : Dispatch} {move : MoveRequest}
    (hdispatch : dispatch ∈ (Server.new config loader).collect dispatches actions)
    (hmove : dispatch.move = some move) {reply : Reply}
    (hanswer : .answer move.listener (.success reply) ∈
      ((Server.new config loader).run actions).deeds) :
    ∃ zone model moved, reply = .moved moved ∧
      move.EndsAt (Leg.ofMove move ((Server.new config loader).collect legs actions)) moved
        ⟨zone.zone, model.scene, move.target.location⟩ ∧
      (move.EndsAt (Leg.ofMove move ((Server.new config loader).collect legs actions)) moved
          move.target ↔ zone.zone = move.target.zone ∧ model.scene = move.target.scene) ∧
      ∀ Fits : CacheKey → Bundle → Prop, loader.Tells Fits →
        (∀ action ∈ actions, action.Tells Fits) →
        Fits (.zone move.target.zone) (.zone zone) ∧
          Fits (.scene move.target.scene) (.scene model) := by
  obtain ⟨earlier, last, zone, model, moved, hjourney, hsplit, hmem, rfl, hruled, rfl, hwelcomes,
    hlast⟩ := exists_entered config loader actions ⟨hbodies, hplaces⟩ hdispatch hmove hanswer
  obtain ⟨hsound, hunwrapped⟩ := sound_of_mem_legs config loader hmem ⟨hbodies, hplaces⟩
  have hends := hjourney.endsAt hsound hunwrapped hwelcomes hlast
  rw [hsplit]
  refine ⟨zone, model, moved, rfl, hends, ⟨fun htarget => ?_, fun ⟨hzone, hscene⟩ => ?_⟩,
    fun Fits hloader hactions => MoveRequest.ruling?_fits (happenings_tell hloader hactions) hruled⟩
  · obtain ⟨hzone, hscene, -⟩ := hends.told
    obtain ⟨hzone', hscene', -⟩ := htarget.told
    exact ⟨hzone.symm.trans hzone', hscene.symm.trans hscene'⟩
  · rwa [hzone, hscene] at hends

/-- The first participant of the meeting ends at its target, as the town has filed its zones and
scenes under their ids. -/
theorem meeting_endsAt : ∃ moved,
    .answer meetingMove.listener (.success (.moved moved)) ∈
      ((Server.new {} .town).run meeting).deeds ∧
    meetingMove.EndsAt (Leg.ofMove meetingMove ((Server.new {} .town).collect legs meeting)) moved
      meetingMove.target := by
  have hdispatch : ⟨⟨⟨"ada"⟩, 1, 0⟩, some meetingMove⟩ ∈
      (Server.new {} .town).collect dispatches meeting := List.mem_cons_self
  have hanswer : .answer meetingMove.listener (.success (.moved ⟨1, ⟨1, "town", []⟩, 1, 1, none,
      some ⟨1, 1, 1, "square", [⟨1, none⟩, ⟨2, none⟩], some 2, []⟩,
      [⟨1, ⟨"ada"⟩, .active, some 1⟩]⟩)) ∈ ((Server.new {} .town).run meeting).deeds := by
    decide +kernel
  obtain ⟨zone, model, moved, heq, -, htarget, hfits⟩ := run_destination {} .town meeting
    (by decide +kernel) (by decide +kernel) hdispatch rfl hanswer
  cases heq
  obtain ⟨hzone, hscene⟩ := hfits (fun key payload => key.Fits payload ∧ key.Names payload)
    (fun hmem => ⟨Loader.town_faithful hmem, Loader.town_names hmem⟩)
    (by simp [meeting, Action.move, Action.Tells])
  exact ⟨_, hanswer, htarget.mpr ⟨hzone.1 _ _ rfl rfl, hscene.2 _ _ rfl rfl⟩⟩

end Server

/-- A store that brings the second zone for the key of the first. -/
def Loader.misfiled : Loader CacheKey Bundle := .immediate fun
  | .zone _ => .loaded (.zone ⟨2, "harbour", []⟩)
  | .scene scene => .loaded (.scene ⟨scene, 1, 1, "square", [⟨1, none⟩], none, []⟩)

namespace Server

/-- Nobody may enter the first zone, and a participant asks to move there. -/
def stray : List Action :=
  [.govern (ZoneRegistry.openToAll.setPolicy 1
      { name := some "guard", verdict := fun _ _ _ => some "closed" }),
    .connect 0 1 ⟨"ada"⟩ none, .follow, .move ⟨"ada"⟩ ⟨1, 1, 1⟩, .serve, .settle, .advance [1],
    .settle, .advance [1]]

/-- The move succeeds all the same. It ends in the second zone, the guard was not asked, and nothing
of what the reply and the body say of the zone is what was asked for. -/
theorem stray_misled :
    ⟨⟨⟨"ada"⟩, 1, 0⟩, some meetingMove⟩ ∈ (Server.new {} .misfiled).collect dispatches stray ∧
    ∃ moved, .answer meetingMove.listener (.success (.moved moved)) ∈
        ((Server.new {} .misfiled).run stray).deeds ∧
      ¬ meetingMove.EndsAt
        (Leg.ofMove meetingMove ((Server.new {} .misfiled).collect legs stray)) moved
        meetingMove.target ∧
      meetingMove.target.zone = 1 ∧ moved.zone.zone = 2 ∧
      (((Server.new {} .misfiled).run stray).world.body? 1).map Body.location =
        some (.inside 2 1 1 1) ∧
      ((Server.new {} .misfiled).run stray).deeds.filterMap Effect.ratified? =
        [⟨none, ⟨1, ⟨"ada"⟩, .nowhere, .active⟩, ⟨2, "harbour", []⟩, none⟩] := by
  refine ⟨List.mem_cons_self, ⟨1, ⟨2, "harbour", []⟩, 1, 1, none,
    some ⟨1, 1, 1, "square", [⟨1, none⟩], none, []⟩, [⟨1, ⟨"ada"⟩, .active, some 1⟩]⟩,
    by decide +kernel, ?_, rfl, rfl, by decide +kernel, by decide +kernel⟩
  intro hends
  exact absurd hends.told.1 (by decide)

end Server

end SharedWorld
