import SharedWorld.Proofs.Ledger
import SharedWorld.Proofs.Occupancies
import SharedWorld.Proofs.Orders

/-!
# Moves are taken on in any order

The moves under way are taken on one body after the other, in an order that nobody should rely on.
What the requests of a body come to can be told at the start (`Pipeline.upshot`), so two orders come
to the same but for what they interleave: the legs of different bodies. Answers, consultations of
policies and loads are the same up to their order (`Pipeline.Agree`), every body goes the same way,
and where the references are accounted for by bodies and moves they are the same as well
(`Server.run_anyOrder`).

What is sent to occupants is not: whom a body meets on its way depends on who went first
(`Server.exchange_differs`). Neither are references, once they are out of account.
-/

namespace SharedWorld

/-! ## Where a body goes -/

/-- Where a leg takes the body of the entity, if it takes it anywhere. -/
def Leg.visit? (entity : EntityId) (leg : Leg) : Option BodyLocation :=
  if leg.request.entity = entity then leg.expected.location? leg.request else none

/-- The locations that legs take the body of the entity to, in their order. -/
def Leg.visits (entity : EntityId) (legs : List Leg) : List BodyLocation :=
  legs.filterMap (visit? entity)

/-- The body after it has gone to the locations, one after the other. -/
def Body.tour (body : Body) (locations : List BodyLocation) : Body :=
  locations.foldl Body.movedTo body

/-- The changes that are noted of a body that goes to the locations, one after the other. -/
def Body.steps : Body → List BodyLocation → List BodyChange
  | _, [] => []
  | body, location :: rest => body.changeTo location :: (body.movedTo location).steps rest

/-- The changes of an entity's location that were not handed out yet, without the places. -/
def World.changesOf (world : World) (entity : EntityId) : List BodyChange :=
  (world.changes.map BodyChange.placeless).filter (·.entity = entity)

/-- The steps of a tour are those of its first part and then those of the rest. -/
theorem Body.steps_append (body : Body) (first rest : List BodyLocation) :
    body.steps (first ++ rest) = body.steps first ++ (body.tour first).steps rest := by
  induction first generalizing body with
  | nil => rfl
  | cons location first ih => exact congrArg (body.changeTo location :: ·) (ih _)

/-- What is noted is noted of the body itself. -/
theorem World.Labeled.entity_of_mem_step {world : World} (h : world.Labeled) {entity : EntityId}
    {location? : Option BodyLocation} {change : BodyChange}
    (hmem : change ∈ world.whereabouts.step entity location?) : change.entity = entity := by
  unfold Whereabouts.step at hmem
  cases hbody : world.bodies.get? entity with
  | none =>
    simp only [World.whereabouts, World.body?, hbody, Option.map_none, List.not_mem_nil] at hmem
  | some body =>
    cases location? with
    | none =>
      simp only [World.whereabouts, World.body?, hbody, Option.map_some, List.not_mem_nil] at hmem
    | some location =>
      simp only [World.whereabouts, World.body?, hbody, Option.map_some, List.mem_singleton] at hmem
      have hname := h hbody
      rwa [hmem]

/-- A body that stays where it is takes no steps. -/
theorem Whereabouts.step_eq (whereabouts : Whereabouts) (entity : EntityId)
    (location? : Option BodyLocation) : whereabouts.step entity location? =
      (whereabouts entity).elim [] (·.steps location?.toList) := by
  unfold step
  cases whereabouts entity with
  | none => rfl
  | some body =>
    cases location? with
    | none => rfl
    | some location => rfl

namespace Leg

variable {origin start finish : Realm} {leg : Leg} {legs : List Leg} {entity : EntityId}

/-- A leg takes a body where it was bound to, and notes that of no other body. -/
theorem MeetsAt.visit (h : leg.MeetsAt origin) (entity : EntityId) :
    leg.after.world.whereabouts entity = (leg.before.world.whereabouts entity).map
        (·.tour ((leg.foreseen origin).visit? entity).toList) ∧
      leg.after.world.changesOf entity = leg.before.world.changesOf entity ++
        (leg.before.world.whereabouts entity).elim []
          (·.steps ((leg.foreseen origin).visit? entity).toList) := by
  have hwhere := h.meets.whereabouts
  have hchanges := h.meets.changes
  have hself : ∀ {other}, ∀ change ∈ leg.before.world.whereabouts.step leg.request.entity other,
      change.entity = leg.request.entity :=
    fun change hmem => h.sound.registers.labeled.entity_of_mem_step hmem
  by_cases hentity : leg.request.entity = entity
  · subst hentity
    have hvisit : (leg.foreseen origin).visit? leg.request.entity =
        (leg.foreseen origin).expected.location? leg.request := if_pos rfl
    rw [hvisit, hwhere, Whereabouts.send_self, World.changesOf, hchanges, List.filter_append,
      List.filter_eq_self.mpr fun change hmem => decide_eq_true (hself change hmem),
      Whereabouts.step_eq]
    refine ⟨?_, rfl⟩
    cases (leg.foreseen origin).expected.location? leg.request with
    | none => rfl
    | some location => rfl
  · have hvisit : (leg.foreseen origin).visit? entity = none := if_neg hentity
    have hnone : (leg.before.world.whereabouts.step leg.request.entity
        ((leg.foreseen origin).expected.location? leg.request)).filter (·.entity = entity) = [] :=
      List.filter_eq_nil_iff.mpr fun change hmem heq =>
        hentity ((hself change hmem).symm.trans (of_decide_eq_true heq))
    rw [hvisit, hwhere, Whereabouts.send_other _ _ (Ne.symm hentity), World.changesOf, hchanges,
      List.filter_append, hnone, ← Whereabouts.step_eq, Whereabouts.step_none]
    exact ⟨(congrFun Option.map_id _).symm, rfl⟩

/-- Along a path, a body goes to the locations that the legs were bound to take it to. -/
theorem Path.tour (h : Path start legs finish) (meets : ∀ leg ∈ legs, leg.MeetsAt origin)
    (entity : EntityId) :
    finish.world.whereabouts entity = (start.world.whereabouts entity).map
        (·.tour (visits entity (legs.map (·.foreseen origin)))) ∧
      finish.world.changesOf entity = start.world.changesOf entity ++
        (start.world.whereabouts entity).elim []
          (·.steps (visits entity (legs.map (·.foreseen origin)))) := by
  induction legs generalizing start with
  | nil =>
    cases h
    refine ⟨(congrFun Option.map_id _).symm, ?_⟩
    cases finish.world.whereabouts entity with
    | none => exact (List.append_nil _).symm
    | some body => exact (List.append_nil _).symm
  | cons leg legs ih =>
    obtain ⟨rfl, hrest⟩ := h
    obtain ⟨hfirst, hlater⟩ := List.forall_mem_cons.mp meets
    obtain ⟨hwhere, hchanges⟩ := hfirst.visit entity
    obtain ⟨hwhere', hchanges'⟩ := ih hrest hlater
    have hvisits : visits entity ((leg :: legs).map (·.foreseen origin)) =
        ((leg.foreseen origin).visit? entity).toList ++
          visits entity (legs.map (·.foreseen origin)) := by
      rw [visits, visits, List.map_cons, List.filterMap_cons]
      cases (leg.foreseen origin).visit? entity with
      | none => rfl
      | some location => rfl
    rw [hwhere', hchanges', hwhere, hchanges, hvisits]
    cases leg.before.world.whereabouts entity with
    | none => exact ⟨rfl, by simp⟩
    | some body =>
      simp only [Option.map_some, Option.elim_some, Body.steps_append, List.append_assoc, and_true]
      rw [Body.tour, Body.tour, Body.tour, List.foldl_append]

end Leg

namespace Pipeline

variable {pipeline : Pipeline} {start : Realm} {order : List EntityId} {entity : EntityId}

/-- What requests come to, their own legs come to. -/
theorem own_of_mem_launchUpshot {requests : List MoveRequest} {leg : Leg}
    (h : leg ∈ (Launch.upshot start requests).legs) : leg.request ∈ requests := by
  induction requests with
  | nil => cases h
  | cons move rest ih =>
    unfold Launch.upshot Leg.upshot at h
    split at h
    · obtain rfl := List.mem_singleton.mp h
      exact List.mem_cons_self
    · rcases List.mem_cons.mp h with rfl | hlater
      · exact List.mem_cons_self
      · exact List.mem_cons_of_mem move (ih hlater)

/-- The moves that a body is bound to make are its own. -/
theorem own_of_mem_upshot (hown : pipeline.Own) {leg : Leg}
    (h : leg ∈ (pipeline.upshot start entity).legs) : leg.request.entity = entity := by
  unfold upshot at h
  cases hflight : pipeline.inFlight.get? entity with
  | none =>
    simp only [hflight, List.not_mem_nil] at h
  | some flight =>
    simp only [hflight] at h
    have hflown := hown (mem_waiting_iff.mpr (.inl ⟨flight, hflight, rfl⟩))
    unfold Leg.upshot at h
    split at h
    · rw [List.mem_singleton.mp h]
      exact hflown
    · rcases List.mem_cons.mp h with rfl | hlater
      · exact hflown
      · exact hown (mem_waiting_iff.mpr (.inr (own_of_mem_launchUpshot hlater)))

/-- Where a body goes is where its own requests take it, whoever else is taken on. -/
theorem visits_upshots (hown : pipeline.Own) (hnodup : order.Nodup) (entity : EntityId) :
    Leg.visits entity (order.flatMap fun other => (pipeline.upshot start other).legs) =
      if entity ∈ order then Leg.visits entity (pipeline.upshot start entity).legs else [] := by
  have hother : ∀ {other}, other ≠ entity →
      Leg.visits entity (pipeline.upshot start other).legs = [] := by
    intro other hne
    refine List.filterMap_eq_nil_iff.mpr fun leg hmem => if_neg fun heq => hne ?_
    exact (own_of_mem_upshot hown hmem).symm.trans heq
  induction order with
  | nil => rfl
  | cons first rest ih =>
    obtain ⟨hnew, hnodup⟩ := List.nodup_cons.mp hnodup
    have hrest := ih hnodup
    rw [Leg.visits, List.flatMap_cons, List.filterMap_append, ← Leg.visits, ← Leg.visits, hrest]
    by_cases hfirst : first = entity
    · subst hfirst
      rw [if_neg hnew, if_pos List.mem_cons_self, List.append_nil]
    · simp [hother hfirst, Ne.symm hfirst]

end Pipeline

/-! ## Who is where -/

/-- What the place of a scene publishes of an entity that is in it. -/
def World.attendance (world : World) (scene : SceneId) (entity : EntityId) : Option OccupantInfo :=
  (world.host? scene).bind fun place =>
    (world.place? place).bind fun host => host.occupants.get? entity

/-- What is published of a stay if it is in the place of the scene. -/
def Stay.attendance (stay : Stay) (scene : SceneId) : Option OccupantInfo :=
  if stay.scene = scene then some stay.info else none

/-- Whether a body attends a scene can be told from its whereabouts. -/
theorem World.stays_attendance (world : World) (scene : SceneId) (entity : EntityId) :
    (world.stays entity).bind (·.attendance scene) =
      (world.whereabouts entity).bind fun body => body.stay?.bind (·.attendance scene) := by
  rw [stays, whereabouts, body?, Option.bind_assoc, Option.bind_map]
  congr 1
  funext body
  obtain ⟨_, _, location, _⟩ := body
  cases location with
  | nowhere => rfl
  | vacated zone scene => rfl
  | inside zone scene place location => rfl

/-- Where the bodies are tells whom the place of each scene publishes. -/
theorem World.Sound.attendance_eq {world : World} (h : world.Sound) (scene : SceneId)
    (entity : EntityId) : world.attendance scene entity =
      (world.whereabouts entity).bind fun body => body.stay?.bind (·.attendance scene) := by
  rw [← World.stays_attendance]
  refine Option.ext fun info => ?_
  simp only [attendance, host?, place?, Option.bind_eq_some_iff, Stay.attendance,
    Option.ite_none_right_eq_some, Option.some.injEq]
  constructor
  · rintro ⟨place, hplace, host, hhost, hinfo⟩
    obtain ⟨host', hhost', hscene⟩ := h.houses.host_iff.mp hplace
    cases hhost.symm.trans hhost'
    exact ⟨_, (h.houses.occupant_iff hhost).mp hinfo, hscene, rfl⟩
  · rintro ⟨stay, hstay, rfl, rfl⟩
    obtain ⟨host, hhost, hscene⟩ := h.houses.housed hstay
    refine ⟨stay.place, h.houses.host_iff.mpr ⟨host, hhost, hscene⟩, host, hhost,
      (h.houses.occupant_iff hhost).mpr ?_⟩
    rw [hscene, hstay]

/-! ## Two orders -/

/-- What policies are asked and told in the course of a leg that comes to what it is bound to come
to. -/
def Leg.consultations (leg : Leg) : List Consultation :=
  leg.ratification?.toList.map Ratification.consultation ++
    (leg.expected.entrance? leg.before leg.request).toList

namespace Leg

variable {origin start finish : Realm} {leg : Leg} {legs : List Leg}

/-- The legs of a path answer whom they were bound to answer. -/
theorem replies_of_meets (meets : ∀ leg ∈ legs, leg.MeetsAt origin) :
    Effect.replies (legs.flatMap Leg.effects) =
      (legs.map (·.foreseen origin)).filterMap Leg.reply? := by
  rw [Effect.replies, List.filterMap_flatMap, List.filterMap_map, List.filterMap_eq_flatMap_toList]
  exact List.flatMap_congr fun leg hmem => (meets leg hmem).meets.replies

/-- They consult the policies that they were bound to consult. -/
theorem consultations_of_meets (meets : ∀ leg ∈ legs, leg.MeetsAt origin) :
    Effect.consultations (legs.flatMap Leg.effects) =
      (legs.map (·.foreseen origin)).flatMap Leg.consultations := by
  rw [Effect.consultations, List.filterMap_flatMap, List.flatMap_map]
  refine List.flatMap_congr fun leg hmem => ?_
  have h := meets leg hmem
  have hratified : leg.ratification?.toList.map Ratification.consultation =
      (leg.foreseen origin).ratification?.toList.map Ratification.consultation := by
    rw [← Option.toList_map, ← Option.toList_map, h.expects.ratification]
  refine h.meets.consultations.trans ?_
  rw [hratified, h.resembles.entrance_eq]
  rfl

/-- They take from the cache what they were bound to take. -/
theorem taken_of_meets (meets : ∀ leg ∈ legs, leg.MeetsAt origin) :
    legs.flatMap Leg.taken = (legs.map (·.foreseen origin)).flatMap Leg.taken := by
  rw [List.flatMap_map]
  exact List.flatMap_congr fun leg hmem => (meets leg hmem).expects.taken

end Leg

/-- Taking moves on in two ways comes to the same, but for the ids of places, for what is sent to
occupants, for recency, and for the order of what is recorded of different bodies. -/
structure Pipeline.Agree (first second : Nat × Pipeline × Realm) : Prop where
  /-- As many requests are answered. -/
  count_eq : first.1 = second.1
  /-- The same requests are answered, and the same but for the place and its occupants. -/
  replies : (Effect.replies first.2.2.world.effects).Perm
    (Effect.replies second.2.2.world.effects)
  /-- The same policies are asked and told the same, and say the same. -/
  consultations : (Effect.consultations first.2.2.world.effects).Perm
    (Effect.consultations second.2.2.world.effects)
  /-- The same moves wait for the same loads. -/
  wait : ∀ entity, (first.2.1.inFlight.get? entity).map Flight.wait =
    (second.2.1.inFlight.get? entity).map Flight.wait
  /-- The same requests are queued behind them. -/
  queue : ∀ entity, first.2.1.queueOf entity = second.2.1.queueOf entity
  /-- Every body is in the same zone and scene and at the same location. -/
  whereabouts : first.2.2.world.whereabouts = second.2.2.world.whereabouts
  /-- The place of each scene publishes the same occupants. -/
  attendance : first.2.2.world.attendance = second.2.2.world.attendance
  /-- The same changes are noted of every body, in the same order. -/
  changes : first.2.2.world.changesOf = second.2.2.world.changesOf
  /-- The same is ready. -/
  ready : first.2.2.world.cache.peek? = second.2.2.world.cache.peek?
  /-- The same loads were started. -/
  loads : first.2.2.world.cache.started.Perm second.2.2.world.cache.started
  /-- As many wait for each load that is pending. -/
  waiting : first.2.2.world.cache.waiting? = second.2.2.world.cache.waiting?

namespace Pipeline

variable {pipeline : Pipeline} {start : Realm} {order : List EntityId}

/-- If all that are under way are taken on, the moves of every body wait as it was told at the
start. -/
theorem Foretold.of_admits {legs : List Leg} {count : Nat} {after : Pipeline}
    (h : pipeline.Foretold start order legs count after) (hadmits : pipeline.Admits start order)
    (entity : EntityId) :
    (after.inFlight.get? entity).map Flight.wait = (pipeline.upshot start entity).wait? ∧
      after.queueOf entity = (pipeline.upshot start entity).queue := by
  by_cases hmem : entity ∈ order
  · exact ⟨h.wait hmem, h.queue_eq hmem⟩
  · have hidle := hadmits.idle hmem
    have hupshot : pipeline.upshot start entity = ⟨[], none, pipeline.queueOf entity⟩ := by
      simp only [upshot, hidle]
    rw [hupshot, h.flight_other hmem, h.queue_other hmem, hidle]
    exact ⟨rfl, rfl⟩

/-- What is foretold of an order that is admitted. -/
theorem Poised.foretold (h : pipeline.Poised start) (hadmits : pipeline.Admits start order) :
    pipeline.Foretold start order (pipeline.legsIn start order)
      (pipeline.advanceIn start order).1 (pipeline.advanceIn start order).2.1 :=
  advanceIn_foretold hadmits.nodup h.tidy h.own start (h.meets hadmits)

/-- Bodies go their own ways, in whatever order they are taken on. -/
theorem Poised.tour (h : pipeline.Poised start) (hadmits : pipeline.Admits start order)
    (entity : EntityId) :
    (pipeline.advanceIn start order).2.2.world.whereabouts entity =
        (start.world.whereabouts entity).map
          (·.tour (Leg.visits entity (pipeline.upshot start entity).legs)) ∧
      (pipeline.advanceIn start order).2.2.world.changesOf entity =
        start.world.changesOf entity ++ (start.world.whereabouts entity).elim []
          (·.steps (Leg.visits entity (pipeline.upshot start entity).legs)) := by
  have htour := (path_legsIn pipeline start order).tour (h.meets hadmits) entity
  rw [(h.foretold hadmits).legs_eq, visits_upshots h.own hadmits.nodup] at htour
  by_cases hmem : entity ∈ order
  · rwa [if_pos hmem] at htour
  · have hupshot : (pipeline.upshot start entity).legs = [] := by
      simp only [upshot, hadmits.idle hmem]
    rw [if_neg hmem] at htour
    rw [hupshot]
    exact htour

/-- In whatever order the moves under way are taken on, it comes to the same. -/
theorem Poised.agree (h : pipeline.Poised start) {first second : List EntityId}
    (hfirst : pipeline.Admits start first) (hsecond : pipeline.Admits start second) :
    Agree (pipeline.advanceIn start first) (pipeline.advanceIn start second) := by
  have hone := h.foretold hfirst
  have htwo := h.foretold hsecond
  have hpath := path_legsIn pipeline start first
  have hpath' := path_legsIn pipeline start second
  -- The legs are the same but for their order, and all that is compared is read off the legs.
  have hlegs : ((pipeline.legsIn start first).map (·.foreseen start)).Perm
      ((pipeline.legsIn start second).map (·.foreseen start)) := by
    rw [hone.legs_eq, htwo.legs_eq]
    exact (hfirst.all.trans hsecond.all.symm).flatMap_right _
  have hready : ∀ {order}, pipeline.Admits start order →
      (pipeline.advanceIn start order).2.2.world.cache.peek? = start.world.cache.peek? := by
    intro order hadmits
    refine funext fun key => Option.ext fun payload => ⟨fun hpeek => ?_, fun hpeek => ?_⟩
    · exact (path_legsIn pipeline start order).precedes.keepsLegInputs.keepsAmple.readiesNothing
        hpeek
    · exact hadmits.spared hpeek
  have hwhereabouts : (pipeline.advanceIn start first).2.2.world.whereabouts =
      (pipeline.advanceIn start second).2.2.world.whereabouts :=
    funext fun entity => (h.tour hfirst entity).1.trans (h.tour hsecond entity).1.symm
  have hdemands := hpath.consults.demands h.single.sound hfirst.spared
  have hdemands' := hpath'.consults.demands h.single.sound hsecond.spared
  have htaken : ((pipeline.legsIn start first).flatMap Leg.taken).Perm
      ((pipeline.legsIn start second).flatMap Leg.taken) := by
    rw [Leg.taken_of_meets (h.meets hfirst), Leg.taken_of_meets (h.meets hsecond)]
    exact hlegs.flatMap_right _
  obtain ⟨hloads, hwaiting⟩ := hdemands.agree hdemands' htaken
  refine
    { count_eq := ?_, replies := ?_, consultations := ?_, wait := fun entity => ?_,
      queue := fun entity => ?_, whereabouts := hwhereabouts, attendance := ?_,
      changes := funext fun entity => ?_, ready := ?_, loads := hloads, waiting := hwaiting }
  · rw [hone.count_eq, htwo.count_eq]
    exact (hlegs.filterMap _).length_eq
  · rw [hpath.recorded, hpath'.recorded, Effect.replies_append, Effect.replies_append,
      Leg.replies_of_meets (h.meets hfirst), Leg.replies_of_meets (h.meets hsecond)]
    exact (hlegs.filterMap _).append_left _
  · rw [hpath.recorded, hpath'.recorded, Effect.consultations_append, Effect.consultations_append,
      Leg.consultations_of_meets (h.meets hfirst), Leg.consultations_of_meets (h.meets hsecond)]
    exact (hlegs.flatMap_right _).append_left _
  · exact (hone.of_admits hfirst entity).1.trans (htwo.of_admits hsecond entity).1.symm
  · exact (hone.of_admits hfirst entity).2.trans (htwo.of_admits hsecond entity).2.symm
  · have hsound := hpath.precedes.keeps.sound h.sound hfirst.unwrapped
    have hsound' := hpath'.precedes.keeps.sound h.sound hsecond.unwrapped
    funext scene entity
    rw [hsound.attendance_eq, hsound'.attendance_eq, hwhereabouts]
  · exact (h.tour hfirst entity).2.trans (h.tour hsecond entity).2.symm
  · exact (hready hfirst).trans (hready hsecond).symm

end Pipeline

/-! ## In a run -/

namespace Server

/-- The moves of a run have heard of their loads what was settled since they asked. -/
theorem run_poised (config : ServerConfig) (loader : Loader CacheKey Bundle)
    (actions : List Action) (h : ((Server.new config loader).run actions).world.Unwrapped) :
    ((Server.new config loader).run actions).simulation.pipeline.Poised
      ((Server.new config loader).run actions).simulation.realm where
  single := (run_timeline config loader actions).single (Cache.singleFlight_new _ _)
  sound := run_sound config loader actions h
  tidy := (run_orderly config loader actions).tidy
  own entity move hmem := by
    obtain ⟨done, hsplit, -⟩ := (run_orderly config loader actions).accounted.order entity
    have hbegun := List.mem_append_right done hmem
    rw [← hsplit] at hbegun
    exact (Accounted.mem_begunFor_iff.mp hbegun).1
  heard {entity flight} hflight := by
    have horderly := run_orderly config loader actions
    obtain ⟨done, hsplit, -⟩ := horderly.accounted.order entity
    have hwaits := Pipeline.mem_waiting_iff.mpr (.inl ⟨flight, hflight, rfl⟩)
    have hbegun := List.mem_append_right done hwaits
    rw [← hsplit] at hbegun
    obtain ⟨rfl, dispatch, hdispatch, hmove⟩ := Accounted.mem_begunFor_iff.mp hbegun
    obtain ⟨standing, hjourney, -, hstanding⟩ :=
      (run_travels config loader actions).journey horderly hdispatch hmove
    rw [hstanding hflight rfl, ← legs_happenings] at hjourney
    have hsound : ∀ leg ∈ Happening.legs ((Server.new config loader).collect happenings actions),
        leg.before.world.Sound ∧ leg.after.world.Unwrapped := by
      rw [legs_happenings]
      exact fun leg hleg => sound_of_mem_legs config loader hleg h
    have hfollows := MoveRequest.follows_of_timeline (Cache.singleFlight_new _ _)
      (run_timeline config loader actions) hsound hjourney
    obtain ⟨request, stage⟩ := flight
    cases hfollows with
    | zone _ _ awaits => exact ⟨_, awaits.hears⟩
    | scene _ _ _ _ awaits => exact ⟨_, awaits.hears⟩

/-- What comes of a server whose moves under way are taken on in an order. -/
abbrev advanced (server : Server) (order : List EntityId) : Nat × Pipeline × Realm :=
  server.simulation.pipeline.advanceIn server.simulation.realm order

/-- What is assumed of an order in which the moves of a server are taken on. -/
abbrev Admits (server : Server) (order : List EntityId) : Prop :=
  server.simulation.pipeline.Admits server.simulation.realm order

end Server

/-! ## References -/

/-- The move waits for its scene, and this is its scene. -/
def Wait.awaits (wait : Wait) (scene : SceneId) : Bool :=
  wait.zone?.isSome && wait.request.target.scene = scene

/-- How a move waits tells for which scene it waits. -/
theorem Flight.awaits_eq (flight : Flight) (scene : SceneId) :
    flight.awaits scene = flight.wait.awaits scene := by
  obtain ⟨request, stage⟩ := flight
  cases stage with
  | resolvingZone resolution => rfl
  | resolvingScene zone resolution => rfl

/-- A move waits as the move that it is. -/
theorem Flight.wait_request (flight : Flight) : flight.wait.request = flight.request := by
  obtain ⟨request, stage⟩ := flight
  cases stage with
  | resolvingZone resolution => rfl
  | resolvingScene zone resolution => rfl

namespace Pipeline.Agree

variable {first second : Nat × Pipeline × Realm}

/-- As many bodies are at locations of a kind that does not look at the place. -/
theorem headcount_eq (h : Agree first second) {p : BodyLocation → Bool}
    (hplaceless : ∀ location, p location.placeless = p location) :
    first.2.2.world.headcount p = second.2.2.world.headcount p := by
  have hbodies : ∀ (world : World) entity, (world.bodies.get? entity).any (p ·.location) =
      (world.whereabouts entity).any (p ·.location) := by
    intro world entity
    rw [World.whereabouts, World.body?, Option.any_map]
    refine congrArg (Option.any · (world.bodies.get? entity)) (funext fun body => ?_)
    exact (hplaceless body.location).symm
  refine Table.countP_values_congr fun entity => ?_
  rw [hbodies, hbodies, h.whereabouts]

/-- As many moves wait in a way that can be told but for the ticket. -/
theorem countP_inFlight_eq (h : Agree first second) {p : Flight → Bool} {q : Wait → Bool}
    (hwait : ∀ flight, p flight = q flight.wait) :
    first.2.1.inFlight.values.countP p = second.2.1.inFlight.values.countP p := by
  have hflights : ∀ flight? : Option Flight, flight?.any p = (flight?.map Flight.wait).any q := by
    intro flight?
    rw [Option.any_map]
    exact congrArg (Option.any · flight?) (funext hwait)
  refine Table.countP_values_congr fun entity => ?_
  rw [hflights, hflights, h.wait]

/-- Two ways that come to the same leave the same references under a key, if these are accounted for
by bodies and moves. -/
theorem refs_eq (h : Agree first second) {key : CacheKey} {p : BodyLocation → Bool}
    {w : Flight → Bool} {q : Wait → Bool}
    (hplaceless : ∀ location, p location.placeless = p location)
    (hwait : ∀ flight, w flight = q flight.wait)
    (hfirst : first.2.2.world.cache.refs key =
      first.2.2.world.headcount p + first.2.1.inFlight.values.countP w)
    (hsecond : second.2.2.world.cache.refs key =
      second.2.2.world.headcount p + second.2.1.inFlight.values.countP w) :
    first.2.2.world.cache.refs key = second.2.2.world.cache.refs key := by
  rw [hfirst, hsecond, h.headcount_eq hplaceless, h.countP_inFlight_eq hwait]

end Pipeline.Agree

namespace Server

variable {config : ServerConfig} {loader : Loader CacheKey Bundle} {actions : List Action}
  {order : List EntityId}

/-- After the moves were taken on, the references on a scene are those of the bodies in it and of
the moves that have got to it. -/
theorem refs_scene_advanced (hloader : loader.Names) (hactions : ∀ action ∈ actions, action.Names)
    (hadmits : ((Server.new config loader).run actions).Admits order) (scene : SceneId) :
    (((Server.new config loader).run actions).advanced order).2.2.world.cache.refs
        (.scene scene) =
      (((Server.new config loader).run actions).advanced order).2.2.world.headcount
          (·.holds (.scene scene)) +
        (((Server.new config loader).run actions).advanced order).2.1.inFlight.values.countP
          (·.awaits scene) := by
  have hnames : ∀ action ∈ actions ++ [.advance order], action.Names :=
    List.forall_mem_append.mpr ⟨hactions, List.forall_mem_singleton.mpr trivial⟩
  have hcarries := carriesTally_run (new_builtIn config loader) hnames
  rw [run_append] at hcarries
  have htally := hcarries.tally (World.tally_new config.idleCapacity hloader) hadmits.unwrapped
  exact htally.tallied.refs scene

/-- The references on a zone are those of the bodies in it and of the moves to it, as long as no
body changed its zone without changing its place. -/
theorem refs_zone_advanced (hloader : loader.Faithful)
    (hactions : ∀ action ∈ actions, action.Faithful)
    (hsettled : ∀ change ∈ (Server.new config loader).history (actions ++ [.advance order]),
      change.rezones = false)
    (hadmits : ((Server.new config loader).run actions).Admits order) (zone : ZoneId) :
    (((Server.new config loader).run actions).advanced order).2.2.world.cache.refs (.zone zone) =
      (((Server.new config loader).run actions).advanced order).2.2.world.headcount
          (·.standsIn zone) +
        (((Server.new config loader).run actions).advanced order).2.1.inFlight.values.countP
          (·.request.target.zone = zone) := by
  have hfaithful : ∀ action ∈ actions ++ [.advance order], action.Faithful :=
    List.forall_mem_append.mpr ⟨hactions, List.forall_mem_singleton.mpr trivial⟩
  have hunwrapped :
      ((Server.new config loader).run (actions ++ [.advance order])).world.Unwrapped := by
    rw [run_append]
    exact hadmits.unwrapped
  have haccounts := (run_accounts (new_builtIn config loader) hfaithful hunwrapped hsettled).2
    (World.accounts_new config.idleCapacity hloader)
  rw [run_append] at haccounts
  exact haccounts.balanced.refs zone

/-- Whatever happened to a server, its moves can be taken on in any order: two orders that are
admitted come to the same. So they do in the references on scenes and zones if bundles are what
their keys name and, for zones, no body ever changed its zone without changing its place. -/
theorem run_anyOrder (config : ServerConfig) (loader : Loader CacheKey Bundle)
    (actions : List Action) {server : Server}
    (hserver : server = (Server.new config loader).run actions) {first second : List EntityId}
    (hfirst : server.Admits first) (hsecond : server.Admits second) :
    Pipeline.Agree (server.advanced first) (server.advanced second) ∧
      (loader.Names → (∀ action ∈ actions, action.Names) → ∀ scene,
        (server.advanced first).2.2.world.cache.refs (.scene scene) =
          (server.advanced second).2.2.world.cache.refs (.scene scene)) ∧
      (loader.Faithful → (∀ action ∈ actions, action.Faithful) →
        (∀ order ∈ [first, second],
          ∀ change ∈ (Server.new config loader).history (actions ++ [.advance order]),
            change.rezones = false) → ∀ zone,
        (server.advanced first).2.2.world.cache.refs (.zone zone) =
          (server.advanced second).2.2.world.cache.refs (.zone zone)) := by
  subst hserver
  have hbefore : ((Server.new config loader).run actions).world.Unwrapped :=
    (Pipeline.path_legsIn _ _ first).precedes.keeps.unwrapped hfirst.unwrapped
  have hagree := (run_poised config loader actions hbefore).agree hfirst hsecond
  have hplaceless : ∀ (location : BodyLocation) scene zone,
      location.placeless.holds (.scene scene) = location.holds (.scene scene) ∧
        location.placeless.standsIn zone = location.standsIn zone := by
    rintro (_ | _ | _) scene zone
    · exact ⟨rfl, rfl⟩
    · exact ⟨rfl, rfl⟩
    · exact ⟨rfl, rfl⟩
  refine ⟨hagree, fun hloader hactions scene => ?_, fun hloader hactions hsettled zone => ?_⟩
  · exact hagree.refs_eq (q := (·.awaits scene)) (fun location => (hplaceless location scene 0).1)
      (fun flight => flight.awaits_eq scene) (refs_scene_advanced hloader hactions hfirst scene)
      (refs_scene_advanced hloader hactions hsecond scene)
  · obtain ⟨hsettled, hsettled'⟩ := List.forall_mem_cons.mp hsettled
    exact hagree.refs_eq (q := fun wait => wait.request.target.zone = zone)
      (fun location => (hplaceless location 0 zone).2)
      (fun flight => by rw [flight.wait_request])
      (refs_zone_advanced hloader hactions hsettled hfirst zone)
      (refs_zone_advanced hloader hactions (List.forall_mem_singleton.mp hsettled') hsecond zone)

end Server

/-! ## An exchange of scenes -/

/-- Whether the bundle is no scene that can be full. -/
def Bundle.isWide : Bundle → Bool
  | .zone _ => true
  | .scene model => model.capacity.isNone

/-- Whether nothing that is there has a capacity: no scene that is ready, none that a move was told
of, and no place. -/
def Pipeline.isWide (pipeline : Pipeline) (realm : Realm) : Bool :=
  (realm.world.cache.entries.keys.all fun key => (realm.world.cache.peek? key).all Bundle.isWide) &&
    (pipeline.inFlight.values.all fun flight =>
      (flight.resolution.outcome? realm.world.cache).all fun
        | .loaded bundle => bundle.isWide
        | .failed _ => true) &&
    realm.world.places.values.all (·.capacity.isNone)

/-- Where nothing has a capacity there is room for all. -/
theorem Pipeline.roomy_of_isWide {pipeline : Pipeline} {realm : Realm}
    (h : pipeline.isWide realm = true) : pipeline.Roomy realm := by
  simp only [isWide, Bool.and_eq_true, List.all_eq_true] at h
  obtain ⟨⟨hready, htold⟩, hplaces⟩ := h
  constructor
  · intro model hinvolved
    have hwide : (Bundle.scene model).isWide = true := by
      cases hinvolved with
      | @ready _ move _ waits ready =>
        obtain ⟨refs, hentry⟩ := Cache.peek?_eq_some_iff.mp ready
        have hall := hready _ (Table.mem_keys_iff.mpr ⟨_, hentry⟩)
        rwa [ready] at hall
      | told waits told =>
        have hall := htold _ (Table.mem_values_iff.mpr ⟨_, waits⟩)
        simp only [Flight.resolution, told] at hall
        exact hall
    exact Option.isNone_iff_eq_none.mp hwide
  · intro model place host _ hhost _
    exact Option.isNone_iff_eq_none.mp (hplaces _ (Table.mem_values_iff.mpr ⟨place, hhost⟩))

/-- A store that has every zone and, under every id, a scene with room for everyone. -/
def Loader.commons : Loader CacheKey Bundle := .immediate fun
  | .zone zone => .loaded (.zone ⟨zone, "commons", []⟩)
  | .scene scene => .loaded (.scene ⟨scene, 1, 1, "green", [⟨1, none⟩], none, []⟩)

/-- All that the commons have is what its key names. -/
theorem Loader.commons_tells :
    Loader.commons.Tells fun key payload => key.Fits payload ∧ key.Names payload := by
  refine @immediate_tells _ _ _ _ fun {key payload} hloaded => ?_
  cases key with
  | zone zone =>
    cases hloaded
    constructor
    · rintro _ _ ⟨⟩ ⟨⟩
      rfl
    · rintro _ _ ⟨⟩
  | scene scene =>
    cases hloaded
    constructor
    · rintro _ _ ⟨⟩
    · rintro _ _ ⟨⟩ ⟨⟩
      rfl

/-- The notice about an occupant that is sent to a participant by an effect, without the place. -/
def Effect.notice? : Effect → Option (Identity × OccupantDelta)
  | .message identity (.occupants _ delta) => some (identity, delta)
  | _ => none

namespace Server

/-- A server that gets all from the commons, keeps what it has and has no use for capacities admits
every order of the bodies that are under way. -/
theorem commons_admits {actions : List Action} {order : List EntityId}
    (himpartial : ((Server.new {} .commons).run actions).simulation.realm.zones.Impartial)
    (h : order.Perm ((Server.new {} .commons).run actions).simulation.pipeline.inFlight.keys ∧
      ((Server.new {} .commons).run actions).simulation.pipeline.isWide
        ((Server.new {} .commons).run actions).simulation.realm = true ∧
      ((Server.new {} .commons).run actions).world.cache.entries.keys.length ≤
        ((Server.new {} .commons).run actions).world.cache.idleCapacity ∧
      (((Server.new {} .commons).run actions).advanced order).2.2.world.entityIds.issued < 2 ^ 64 ∧
      (((Server.new {} .commons).run actions).advanced order).2.2.world.placeIds.issued < 2 ^ 64) :
    ((Server.new {} .commons).run actions).Admits order := by
  obtain ⟨hall, hwide, hroom, hbodies, hplaces⟩ := h
  have hpath := Pipeline.path_legsIn ((Server.new {} .commons).run actions).simulation.pipeline
    ((Server.new {} .commons).run actions).simulation.realm order
  have hpoised := run_poised {} .commons actions
    (hpath.precedes.keeps.unwrapped ⟨hbodies, hplaces⟩)
  exact ⟨hall, himpartial, Pipeline.roomy_of_isWide hwide,
    hpath.precedes.keepsLegInputs.keepsAmple.spares _ hpoised.single.sound (Cache.ample_keys hroom),
    ⟨hbodies, hplaces⟩⟩

/-- Two participants, each in a scene of its own, are about to take the scene of the other, and one
of them wants to go on from there. -/
def exchange : List Action :=
  [.connect 0 1 ⟨"ada"⟩ none, .connect 0 2 ⟨"bob"⟩ none, .follow, .follow,
    .move ⟨"ada"⟩ ⟨1, 1, 1⟩, .move ⟨"bob"⟩ ⟨1, 2, 1⟩, .serve, .serve, .settle, .advance [1, 2],
    .settle, .settle, .advance [1, 2], .move ⟨"ada"⟩ ⟨2, 2, 1⟩, .move ⟨"bob"⟩ ⟨2, 1, 1⟩,
    .move ⟨"ada"⟩ ⟨2, 3, 1⟩, .serve, .serve, .serve, .settle]

/-- Two participants have each gone on to a zone of its own within one place. They are on the way to
another scene, and want to go on from there through the zone of the other. -/
def crossing : List Action :=
  [.connect 0 1 ⟨"ada"⟩ none, .connect 0 2 ⟨"bob"⟩ none, .follow, .follow,
    .move ⟨"ada"⟩ ⟨1, 1, 1⟩, .move ⟨"bob"⟩ ⟨1, 1, 1⟩, .serve, .serve, .settle, .advance [1, 2],
    .settle, .advance [1, 2], .move ⟨"ada"⟩ ⟨2, 1, 1⟩, .move ⟨"bob"⟩ ⟨3, 1, 1⟩, .serve, .serve,
    .settle, .settle, .advance [1, 2], .move ⟨"ada"⟩ ⟨1, 2, 1⟩, .move ⟨"bob"⟩ ⟨1, 2, 1⟩,
    .move ⟨"ada"⟩ ⟨3, 3, 1⟩, .move ⟨"bob"⟩ ⟨2, 3, 1⟩, .serve, .serve, .serve, .serve, .settle]

/-- The exchange and the crossing admit either order of the two. -/
theorem exchange_admits {order : List EntityId} (h : order ∈ [[1, 2], [2, 1]]) :
    ((Server.new {} .commons).run exchange).Admits order ∧
      ((Server.new {} .commons).run crossing).Admits order := by
  simp only [List.mem_cons, List.not_mem_nil, or_false] at h
  rcases h with rfl | rfl
  · exact ⟨commons_admits (fun _ _ _ _ _ _ _ => rfl) (by decide +kernel),
      commons_admits (fun _ _ _ _ _ _ _ => rfl) (by decide +kernel)⟩
  · exact ⟨commons_admits (fun _ _ _ _ _ _ _ => rfl) (by decide +kernel),
      commons_admits (fun _ _ _ _ _ _ _ => rfl) (by decide +kernel)⟩

/-- Whoever goes first in the exchange leaves a place that is dropped and made anew for the other.
It comes to the same, in the references as well. -/
theorem exchange_anyOrder :
    Pipeline.Agree (((Server.new {} .commons).run exchange).advanced [1, 2])
        (((Server.new {} .commons).run exchange).advanced [2, 1]) ∧
      (∀ scene, (((Server.new {} .commons).run exchange).advanced [1, 2]).2.2.world.cache.refs
          (.scene scene) =
        (((Server.new {} .commons).run exchange).advanced [2, 1]).2.2.world.cache.refs
          (.scene scene)) ∧
      (∀ zone, (((Server.new {} .commons).run exchange).advanced [1, 2]).2.2.world.cache.refs
          (.zone zone) =
        (((Server.new {} .commons).run exchange).advanced [2, 1]).2.2.world.cache.refs
          (.zone zone)) ∧
      (((Server.new {} .commons).run exchange).advanced [1, 2]).2.2.world.host? 1 = some 3 ∧
      (((Server.new {} .commons).run exchange).advanced [2, 1]).2.2.world.host? 1 = some 1 := by
  obtain ⟨hagree, hscenes, hzones⟩ := run_anyOrder {} .commons exchange rfl
    (exchange_admits List.mem_cons_self).1
    (exchange_admits (List.mem_cons_of_mem _ List.mem_cons_self)).1
  have hactions : ∀ {Fits}, ∀ action ∈ exchange, action.Tells Fits := by
    simp [exchange, Action.move, Action.Tells]
  refine ⟨hagree, hscenes (fun hmem => (Loader.commons_tells hmem).2) hactions,
    hzones (fun hmem => (Loader.commons_tells hmem).1) hactions ?_, ?_, ?_⟩
  · decide +kernel
  · decide +kernel
  · decide +kernel

/-- What is sent of occupants does depend on the order, and so do references that are out of
account. -/
theorem exchange_differs :
    ((∀ order ∈ [[1, 2], [2, 1]], ((Server.new {} .commons).run exchange).Admits order) ∧
      ¬ ((((Server.new {} .commons).run exchange).advanced [1, 2]).2.2.world.effects.filterMap
          Effect.notice?).Perm
        ((((Server.new {} .commons).run exchange).advanced [2, 1]).2.2.world.effects.filterMap
          Effect.notice?)) ∧
      (∀ order ∈ [[1, 2], [2, 1]], ((Server.new {} .commons).run crossing).Admits order) ∧
      (((Server.new {} .commons).run crossing).advanced [1, 2]).2.2.world.cache.refs (.zone 2) = 1 ∧
      (((Server.new {} .commons).run crossing).advanced [2, 1]).2.2.world.cache.refs (.zone 2) =
        0 :=
  ⟨⟨fun _ h => (exchange_admits h).1, by decide +kernel⟩, fun _ h => (exchange_admits h).2,
    by decide +kernel, by decide +kernel⟩

end Server

end SharedWorld
