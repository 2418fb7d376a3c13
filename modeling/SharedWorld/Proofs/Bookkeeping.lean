import SharedWorld.Proofs.Bodies
import SharedWorld.Proofs.Moves

/-!
# What every operation does to the world

Some relation may hold between the world before and after each single operation, and the moves that
are under way then: the world stays sound, or its references are those of the bodies and of the
moves. If it composes, it holds between the states before and after all that a server does.
`World.Bookkeeping` lists what has to be shown of the operations; the rest is the same for all such
relations.
-/

namespace SharedWorld

/-- The relation composes, and each operation of the simulation establishes it between the world
before and after, with the moves that are under way. -/
structure World.Upkeep (R : List Flight → List Flight → World → World → Prop) : Prop where
  trans : ∀ {flights during flights' before middle after}, R flights during before middle →
    R during flights' middle after → R flights flights' before after
  /-- The order in which moves are listed does not matter. -/
  perm : ∀ {flights flights' : List Flight} (world : World), flights.Perm flights' →
    R flights flights' world world
  /-- What is done to the surroundings does not matter. -/
  effects : ∀ {flights} (world : World) (effects : List Effect),
    R flights flights world { world with effects := effects }
  leavePlace : ∀ {flights} (world : World) (entity : EntityId),
    R flights flights world (world.leavePlace entity).2
  /-- A move that was told of its scene goes into the place of the scene. -/
  enters : ∀ {flights} {request : MoveRequest} {zone : ZoneSummary}
    {resolution : Resolution CacheKey Bundle} {outcome : LoadOutcome Bundle} {model : SceneModel}
    {answer : Answer} {world after : World},
    ⟨request, .resolvingScene zone resolution⟩ ∈ flights →
    resolution.outcome? world.cache = some outcome → outcome.asScene = .ok model →
    request.EntryOutcome world zone model answer after → R flights flights world after
  /-- A move that has answered gives back what it holds. -/
  finish : ∀ {others} (flight : Flight) (realm : Realm) (answer : Answer),
    R (flight :: others) others realm.world
      (flight.request.finish realm flight.held answer).world
  /-- A move that is launched takes its zone. -/
  takesZone : ∀ {flights} (request : MoveRequest) (realm : Realm),
    R flights (⟨request, .resolvingZone (realm.acquire (.zone request.target.zone)).1⟩ :: flights)
      realm.world (realm.acquire (.zone request.target.zone)).2.world
  /-- A move that was told of its zone takes its scene. -/
  takesScene : ∀ {flights} {request : MoveRequest} {resolution : Resolution CacheKey Bundle}
    {outcome : LoadOutcome Bundle} {summary : ZoneSummary} (realm : Realm),
    resolution.outcome? realm.world.cache = some outcome → outcome.asZone = .ok summary →
    R (⟨request, .resolvingZone resolution⟩ :: flights)
      (⟨request, .resolvingScene summary
        (realm.acquire (.scene request.target.scene)).1⟩ :: flights)
      realm.world (realm.acquire (.scene request.target.scene)).2.world

/-- The operations by which bodies follow sessions establish the relation, too. -/
structure World.Bookkeeping (R : List Flight → List Flight → World → World → Prop) : Prop
    extends World.Upkeep R where
  createBody : ∀ {flights} (world : World) (identity : Identity),
    R flights flights world (world.createBody identity).2
  removeBody : ∀ {flights} (world : World) (identity : Identity),
    R flights flights world (world.removeBody identity).2
  setStatus : ∀ {flights} (world : World) (identity : Identity) (status : OccupantStatus),
    R flights flights world (world.setStatus identity status)

/-- The moves under way on a server. -/
def Server.underway (server : Server) : List Flight := server.simulation.pipeline.inFlight.values

namespace World.Upkeep

variable {R : List Flight → List Flight → World → World → Prop} {flights : List Flight}

/-- Whatever every operation keeps is kept by doing nothing. -/
theorem refl (book : Upkeep R) (flights : List Flight) (world : World) :
    R flights flights world world := book.perm world (.refl flights)

/-- It is kept by asking a policy. -/
theorem ratify (book : Upkeep R) (realm : Realm) (body : Body) (zone : ZoneSummary) :
    R flights flights realm.world (realm.ratify body zone).2.world :=
  book.effects _ _

/-- It is kept by telling a policy of a body. -/
theorem announce (book : Upkeep R) (realm : Realm) (entity : EntityId) (zone : ZoneId) :
    R flights flights realm.world (realm.announce entity zone).world := by
  unfold Realm.announce
  split
  · exact book.effects _ _
  · exact book.refl _ _

/-! ## Steps of a move -/

section Steps

variable {request : MoveRequest} {realm realm' : Realm} {resolution : Resolution CacheKey Bundle}
  {flight : Option Flight}

/-- A step from the resolution of the scene leaves the move under way or ends it. -/
theorem sceneOutcome (book : Upkeep R) {zone : ZoneSummary}
    (outcome : Flight.SceneOutcome request zone resolution realm flight realm') :
    R (⟨request, .resolvingScene zone resolution⟩ :: flights) (flight.toList ++ flights)
      realm.world realm'.world := by
  have hfinish := @book.finish flights ⟨request, .resolvingScene zone resolution⟩
  cases outcome with
  | waits => exact book.refl _ _
  | missing => exact hfinish realm _
  | @refused _ model _ world load scene commit =>
    have hentry := request.commit_outcome realm.world zone model
    rw [commit] at hentry
    exact book.trans (book.enters List.mem_cons_self load scene hentry)
      (hfinish { realm with world := world } _)
  | @entered _ model _ world load scene commit =>
    have hentry := request.commit_outcome realm.world zone model
    rw [commit] at hentry
    exact book.trans (book.trans (book.enters List.mem_cons_self load scene hentry)
      (hfinish { realm with world := world } _)) (book.announce _ request.entity zone.zone)

/-- A step from the resolution of the zone does so too. -/
theorem zoneOutcome (book : Upkeep R)
    (outcome : Flight.ZoneOutcome request resolution realm flight realm') :
    R (⟨request, .resolvingZone resolution⟩ :: flights) (flight.toList ++ flights) realm.world
      realm'.world := by
  have hfinish := @book.finish flights ⟨request, .resolvingZone resolution⟩
  cases outcome with
  | waits => exact book.refl _ _
  | missing => exact hfinish realm _
  | bodyless => exact hfinish realm _
  | @vetoed _ summary body => exact book.trans (book.ratify realm body summary) (hfinish _ _)
  | @admitted _ summary body _ _ load zone _ _ scene =>
    exact book.trans (book.trans (book.ratify realm body summary)
      (book.takesScene (realm.ratify body summary).2 load zone)) (book.sceneOutcome scene)

/-- It is kept by taking a move on. -/
theorem step (book : Upkeep R) (flight : Flight) (others : List Flight) (realm : Realm) :
    R (flight :: others) ((flight.step realm).1.toList ++ others) realm.world
      (flight.step realm).2.world := by
  obtain ⟨request, stage⟩ := flight
  cases stage with
  | resolvingZone resolution =>
    exact book.zoneOutcome (Flight.stepZone_outcome request resolution realm)
  | resolvingScene zone resolution =>
    exact book.sceneOutcome (Flight.stepScene_outcome request zone resolution realm)

/-- It is kept by beginning a move. -/
theorem launch (book : Upkeep R) (request : MoveRequest) (others : List Flight)
    (realm : Realm) :
    R others ((Flight.launch request realm).1.toList ++ others) realm.world
      (Flight.launch request realm).2.world :=
  book.trans (book.takesZone request realm) (book.zoneOutcome (Flight.stepZone_outcome _ _ _))

end Steps

/-! ## The moves under way -/

/-- What holds between an earlier world and one of the pipeline's, holds on after each step of the
pipeline. -/
theorem invariant (book : Upkeep R) (flights : List Flight) (before : World) :
    Pipeline.Invariant (fun pipeline realm => R flights pipeline.inFlight.values before realm.world)
      (fun entity _ pipeline realm => pipeline.inFlight.get? entity = none ∧
        R flights pipeline.inFlight.values before realm.world) where
  waits {pipeline realm entity flight flight' realm'} h hflight hstep := by
    have hsplit := pipeline.inFlight.values_perm entity
    have hstepped := book.step flight (pipeline.inFlight.erase entity).values realm
    rw [hflight] at hsplit
    rw [hstep] at hstepped
    exact book.trans (book.trans (book.trans h (book.perm realm.world hsplit)) hstepped)
      (book.perm realm'.world (Table.values_insert _ entity flight').symm)
  answers {pipeline realm entity flight realm'} h hflight hstep := by
    have hsplit := pipeline.inFlight.values_perm entity
    have hstepped := book.step flight (pipeline.inFlight.erase entity).values realm
    rw [hflight] at hsplit
    rw [hstep] at hstepped
    exact ⟨Table.get?_erase_self _ _,
      book.trans (book.trans h (book.perm realm.world hsplit)) hstepped⟩
  passes {pipeline realm entity request rest realm'} h hlaunch := by
    have hlaunched := book.launch request pipeline.inFlight.values realm
    rw [hlaunch] at hlaunched
    exact ⟨h.1, book.trans h.2 hlaunched⟩
  parks {pipeline realm entity request rest flight realm'} h hlaunch := by
    have hsplit := pipeline.inFlight.values_perm entity
    have hlaunched := book.launch request pipeline.inFlight.values realm
    rw [h.1] at hsplit
    rw [hlaunch] at hlaunched
    exact book.trans (book.trans h.2 hlaunched) (book.perm realm'.world
      ((hsplit.cons flight).trans (Table.values_insert _ entity flight).symm))
  rests h := h.2

/-- It is kept by handing a move to the pipeline. -/
theorem beginMove (book : Upkeep R) (simulation : Simulation) (request : MoveRequest) :
    R simulation.pipeline.inFlight.values (simulation.beginMove request).pipeline.inFlight.values
      simulation.world (simulation.beginMove request).world :=
  (book.invariant simulation.pipeline.inFlight.values simulation.world).begin request
    (book.refl _ _) fun hidle => ⟨hidle, book.refl _ _⟩

/-! ## Actions of a server -/

variable {server after : Server}

/-- It is kept by dispatching a request. -/
theorem served (book : Upkeep R) {caller : Identity} {request : Request}
    {move : Option MoveRequest} {simulation : Simulation}
    (served : Server.Served server caller request move simulation) :
    R server.underway simulation.pipeline.inFlight.values server.world simulation.world := by
  have hrecord : ∀ layer, R server.underway server.underway server.world (server.world.record
      (.served request.service layer request.method caller)) := fun _ => book.effects _ _
  cases served with
  | unrouted => exact book.effects _ _
  | refused => exact book.effects _ _
  | @left layer entity body =>
    exact book.trans (book.trans (hrecord layer) (book.leavePlace _ entity)) (book.effects _ _)
  | @begun layer move body listener =>
    exact book.trans (hrecord layer) (book.beginMove (server.simulation.withWorld
      (server.world.record (.served request.service layer request.method caller))) move)

/-- An action establishes the relation, if it does so when a body follows a session, when it reports
or settles a load, and when it hands the changes out. -/
theorem act (book : Upkeep R) {action : Server.Action}
    (outcome : Server.ActOutcome server action after) (h : server.BuiltIn)
    (hfollow : ∀ {event}, action = .follow →
      R server.underway server.underway server.world (Server.followSession server.world event))
    (hreport : ∀ {key outcome}, action = .report key outcome →
      R server.underway server.underway server.world
        { server.world with cache := (server.world.cache.report key outcome).2 })
    (hsettle : R server.underway server.underway server.world
      { server.world with cache := server.world.cache.settleNext })
    (htake : action = .takeChanges →
      R server.underway server.underway server.world { server.world with changes := [] }) :
    R server.underway after.underway server.world after.world := by
  cases outcome with
  | reports key outcome => exact hreport rfl
  | ejects body => exact book.leavePlace _ _
  | follows events => exact hfollow rfl
  | @serves caller request rest requests =>
    have hserved := book.served
      (Server.runRequest_served { server with requests := rest } h caller request)
    exact hserved
  | settles => exact hsettle
  | advances bodies => exact (book.invariant _ server.world).advanceIn (book.refl _ _) bodies
  | delivers effects => exact book.effects _ _
  | takesChanges => exact htake rfl
  | _ => exact book.refl _ _

end World.Upkeep

namespace World.Bookkeeping

variable {R : List Flight → List Flight → World → World → Prop} {flights : List Flight}
  {server after : Server}

/-- It is kept by following an event of a session. -/
theorem followSession (book : Bookkeeping R) (world : World) (event : SessionEvent) :
    R flights flights world (Server.followSession world event) := by
  cases event with
  | started key identity => exact book.createBody world identity
  | resumed key identity =>
    exact book.trans (book.createBody world identity) (book.setStatus _ identity .active)
  | disconnected key identity cause => exact book.setStatus world identity .disconnected
  | ended key identity => exact book.removeBody world identity

/-- An action establishes the relation, if it does so when it reports or settles a load or hands the
changes out. -/
theorem act (book : Bookkeeping R) {action : Server.Action}
    (outcome : Server.ActOutcome server action after) (h : server.BuiltIn)
    (hreport : ∀ {key outcome}, action = .report key outcome →
      R server.underway server.underway server.world
        { server.world with cache := (server.world.cache.report key outcome).2 })
    (hsettle : R server.underway server.underway server.world
      { server.world with cache := server.world.cache.settleNext })
    (htake : action = .takeChanges →
      R server.underway server.underway server.world { server.world with changes := [] }) :
    R server.underway after.underway server.world after.world :=
  book.toUpkeep.act outcome h (fun _ => book.followSession _ _) hreport hsettle htake

end World.Bookkeeping

end SharedWorld
