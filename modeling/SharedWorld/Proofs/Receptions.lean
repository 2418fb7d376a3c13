import SharedWorld.Proofs.Ratifications

/-!
# How a place receives a body

When the load of its scene is there, one look at the world tells whether a move gets its body into
the place of the scene, and what is wrong if it does not (`MoveRequest.reception`). The place need
not exist yet; the one that would be made then has the say. A reply tells of the place as it is
right after the body came in (`MoveRequest.Welcomes`).
-/

namespace SharedWorld

namespace World

/-- The place that takes those who enter a scene: the one that the scene has, or the one that would
be made for it. -/
def hostFor (world : World) (model : SceneModel) : Place :=
  ((world.host? model.scene).bind world.place?).getD
    { id := world.placeIds.peek, zone := model.zone, scene := model.scene,
      capacity := model.capacity }

/-- Making sure that a scene has a place leads to that place. -/
theorem Sound.placeFor_hostFor {world : World} (h : world.Sound) (model : SceneModel) :
    (world.placeFor model).1 = (world.hostFor model).id ∧
      (world.placeFor model).2.places.get? (world.placeFor model).1 =
        some (world.hostFor model) := by
  unfold placeFor hostFor host?
  cases hhost : world.hosts.get? model.scene with
  | some place =>
    obtain ⟨host, hplace, -⟩ := h.houses.host_iff.mp hhost
    simp only [Option.bind_some, place?, hplace, Option.getD_some]
    exact ⟨(h.houses.id_eq hplace).symm, trivial⟩
  | none =>
    simp only [Option.bind_none, Option.getD_none, IdGenerator.generate]
    exact ⟨trivial, Table.get?_insert_self _ _ _⟩

/-- The place that a move comes into is one of its scene. -/
theorem Sound.scene_hostFor {world : World} (h : world.Sound) (model : SceneModel) :
    (world.hostFor model).scene = model.scene := by
  unfold hostFor host?
  cases hhost : world.hosts.get? model.scene with
  | some place =>
    obtain ⟨host, hplace, hscene⟩ := h.houses.host_iff.mp hhost
    simp only [Option.bind_some, place?, hplace, Option.getD_some]
    exact hscene
  | none => rfl

/-- A body that is inside a scene is an occupant of a place of this scene. -/
theorem Sound.exists_host_of_inside {world : World} (h : world.Sound) {entity : EntityId}
    {body : Body} {zone : ZoneId} {scene : SceneId} {place : PlaceId} {location : LocationId}
    (hbody : world.bodies.get? entity = some body)
    (hlocation : body.location = .inside zone scene place location) :
    ∃ host, world.places.get? place = some host ∧ host.scene = scene ∧
      host.occupants.get? entity = some body.occupantInfo := by
  obtain ⟨host, hhost, hstay, hin⟩ := h.houses.exists_host hbody (by rw [hlocation]; rfl)
  rw [stays, hbody, Option.bind_some, Body.stay?, hlocation] at hstay
  exact ⟨host, hhost, (congrArg Stay.scene (Option.some.inj hstay)).symm, hin⟩

/-- Each entity is that of one occupant of a place at most. -/
theorem Sound.filter_occupants {world : World} (h : world.Sound) {place : PlaceId} {host : Place}
    {entity : EntityId} {info : OccupantInfo} (hhost : world.places.get? place = some host)
    (hinfo : host.occupants.get? entity = some info) :
    host.occupants.values.filter (·.entity = entity) = [info] := by
  have hentity : ∀ {other info}, host.occupants.get? other = some info → info.entity = other := by
    intro other info hget
    obtain ⟨body, hbody, -, -, rfl⟩ := h.houses.exists_body hhost hget
    exact h.registers.labeled hbody
  have hothers : (host.occupants.erase entity).values.filter (·.entity = entity) = [] := by
    refine List.filter_eq_nil_iff.mpr fun other hmem => ?_
    obtain ⟨key, hget⟩ := Table.mem_values_iff.mp hmem
    obtain ⟨hne, hold⟩ := Table.get?_erase_eq_some_iff.mp hget
    rw [hentity hold, decide_eq_true_eq]
    exact hne
  have hthis : [info].filter (·.entity = entity) = [info] :=
    List.filter_cons_of_pos (decide_eq_true (hentity hinfo))
  have hvalues := (host.occupants.values_perm entity).filter (·.entity = entity)
  rw [hinfo, List.filter_append, hothers, List.append_nil, Option.toList_some, hthis] at hvalues
  exact List.perm_singleton.mp hvalues

end World

namespace MoveRequest

/-- What the load of its scene comes to for a move that was let into a zone: the scene that it
enters, or the first thing that is wrong. -/
def reception (move : MoveRequest) (zone : ZoneSummary) (load : LoadOutcome Bundle)
    (world : World) : Except Fault SceneModel :=
  match load with
  | .loaded (.scene model) =>
    if zone.containsScene model.scene then
      match world.body? move.entity with
      | none => .error (.internal (CommitError.noSuchBody move.entity).message)
      | some body =>
        let host := world.hostFor model
        if body.location.place? ≠ some host.id ∧ host.isFull then
          .error (.internal (CommitError.placeFull host.id (host.capacity.getD 0)).message)
        else .ok model
    else .error .noSuchPlace
  | _ => .error .noSuchPlace

/-- The reply tells how the body of a move was received in the place of a scene, in the world as it
was left. -/
structure Welcomes (move : MoveRequest) (zone : ZoneSummary) (model : SceneModel) (world : World)
    (reply : MoveReply) : Prop where
  zone : reply.zone = zone
  scene : reply.scene = model.scene
  location : reply.location = move.target.location
  group : reply.group = (model.findLocation move.target.location).bind (·.group)
  sceneUpdate : reply.sceneUpdate = if move.version < model.version then some model else none
  place : world.host? model.scene = some reply.place
  occupants : ∃ host, world.place? reply.place = some host ∧
    reply.occupants = host.occupants.values
  /-- The body is one of the occupants, and it is at the location. -/
  arrived : ∃ info, reply.occupants.filter (·.entity = move.entity) = [info] ∧
    info.location = some move.target.location

variable {move : MoveRequest} {zone : ZoneSummary} {load : LoadOutcome Bundle}
  {model : SceneModel} {world after : World} {answer : Answer} {reply : MoveReply}

/-- Only bodies and places matter to a reception. -/
theorem reception_congr (hbodies : after.bodies = world.bodies)
    (same : world.SamePlaces after) :
    move.reception zone load after = move.reception zone load world := by
  have hbody : after.body? move.entity = world.body? move.entity :=
    congrArg (Table.get? · move.entity) hbodies
  have hhost : ∀ model, after.hostFor model = world.hostFor model := by
    intro model
    unfold World.hostFor World.host? World.place?
    rw [same.places, same.hosts, same.placeIds]
  unfold reception
  simp only [hbody, hhost]

/-- A move fails by what a look at the world says, and goes on into the scene otherwise. -/
theorem land_reception (h : world.Sound) (hland : move.land zone load world = (answer, after)) :
    match move.reception zone load world with
    | .error fault => answer = .failure fault
    | .ok model => load = .loaded (.scene model) ∧ ∃ reply, answer = .success (.moved reply) ∧
        reply.group = (model.findLocation move.target.location).bind (·.group) ∧
        reply.sceneUpdate = if move.version < model.version then some model else none := by
  unfold land at hland
  unfold reception
  split at hland
  case h_1 model =>
    obtain ⟨hid, hplace⟩ := h.placeFor_hostFor model
    dsimp only
    cases hlisted : zone.containsScene model.scene with
    | false =>
      simp only [commit, hlisted, Bool.not_false, if_true, Prod.mk.injEq] at hland
      simp only [Bool.false_eq_true, if_false]
      exact hland.1.symm
    | true =>
      have hbodies := (world.sameBodies_placeFor model).bodies
      simp only [commit, hlisted, Bool.not_true, Bool.false_eq_true, if_false, World.commitMove,
        hbodies, hplace] at hland
      simp only [if_true, World.body?]
      cases hbody : world.bodies.get? move.entity with
      | none =>
        simp only [hbody, Prod.mk.injEq] at hland
        exact hland.1.symm
      | some body =>
        simp only [hbody] at hland
        dsimp only
        rw [← hid]
        by_cases hhere : body.location.place? = some (world.placeFor model).1
        · -- Who is in the place already is not turned away when it is full.
          simp only [if_pos hhere, Prod.mk.injEq] at hland
          rw [if_neg fun hfull => hfull.1 hhere]
          exact ⟨rfl, _, hland.1.symm, rfl, rfl⟩
        · simp only [if_neg hhere] at hland
          cases hfull : (world.hostFor model).isFull with
          | true =>
            simp only [hfull, if_true, Prod.mk.injEq] at hland
            rw [if_pos ⟨hhere, rfl⟩]
            exact hland.1.symm
          | false =>
            simp only [hfull, Bool.false_eq_true, if_false, Prod.mk.injEq] at hland
            rw [if_neg fun hfull => Bool.false_ne_true hfull.2]
            exact ⟨rfl, _, hland.1.symm, rfl, rfl⟩
  case h_2 hscene =>
    obtain ⟨rfl, -⟩ := Prod.mk.inj hland
    cases load with
    | failed error => rfl
    | loaded bundle =>
      cases bundle with
      | zone summary => rfl
      | scene model => exact absurd rfl (hscene model)

/-- A move is welcome while the places stay the same. -/
theorem Welcomes.of_same (h : move.Welcomes zone model world reply)
    (same : world.SamePlaces after) : move.Welcomes zone model after reply where
  zone := h.zone
  scene := h.scene
  location := h.location
  group := h.group
  sceneUpdate := h.sceneUpdate
  place := (congrArg (Table.get? · model.scene) same.hosts).trans h.place
  occupants := by
    obtain ⟨host, hhost, hoccupants⟩ := h.occupants
    exact ⟨host, (congrArg (Table.get? · reply.place) same.places).trans hhost, hoccupants⟩
  arrived := h.arrived

/-- A success tells how the body was received. -/
theorem welcomes (h : world.Sound) (hafter : after.Sound)
    (hland : move.land zone load world = (.success (.moved reply), after)) :
    ∃ model, move.reception zone load world = .ok model ∧ move.Welcomes zone model after reply := by
  have hreception := land_reception h hland
  cases hmodel : move.reception zone load world with
  | error fault =>
    rw [hmodel] at hreception
    cases hreception
  | ok model =>
    rw [hmodel] at hreception
    obtain ⟨rfl, _, hreply, hgroup, hupdate⟩ := hreception
    cases hreply
    obtain ⟨_, hload, hentry⟩ := land_success hland
    cases hload
    cases hentry with
    | entered commit told =>
      obtain ⟨hplace, hzone, hscene, hspot, hoccupants⟩ := told
      obtain ⟨-, hhost⟩ := h.placeFor_hostFor model
      obtain ⟨body, host, hbody, hhosted, hlocation⟩ := commit.body_arrived
        (h.registers.labeled.of_sameNames (World.sameBodies_placeFor world model).sameNames)
      obtain ⟨host', hhost', hscene', hinfo⟩ := hafter.exists_host_of_inside hbody hlocation
      have hsame : host'.scene = model.scene := by
        cases hhost.symm.trans hhosted
        exact hscene'.trans (h.scene_hostFor model)
      rw [← hplace] at hhost' hoccupants
      refine ⟨model, rfl, hzone, hscene, hspot, hgroup, hupdate,
        hafter.houses.host_iff.mpr ⟨host', hhost', hsame⟩, ⟨host', hhost', ?_⟩,
        body.occupantInfo, ?_, ?_⟩
      · rw [hoccupants, hhost']
        rfl
      · rw [hoccupants, hhost']
        exact hafter.filter_occupants hhost' hinfo
      · rw [Body.occupantInfo, hlocation]
        rfl

end MoveRequest

end SharedWorld
