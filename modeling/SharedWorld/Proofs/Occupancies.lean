import SharedWorld.Proofs.Scenes

/-!
# Scenes stay as long as somebody is in them

A move takes its reference on its scene when it was let into its zone, and gives it back when it has
answered. Between two actions of a server the account of the scenes is right for the moves under
way, whatever the server did before (`Server.run_scenesCounted`), and a place that is there at the
start and at the end of a stretch of actions has the same scene at both, made from the same load. -/

namespace SharedWorld

variable {flights : List Flight}

/-! ## Steps of a move -/

/-- A payload that is there is not loaded again when its key, or any other, is asked for. -/
theorem Realm.acquire_preserves {realm : Realm}
    (h : realm.world.cache.Sound CacheKey.Names) (key : CacheKey) :
    realm.world.cache.Preserves (realm.acquire key).2.world.cache where
  evolves _ := (Realm.acquire_sound h key).2.2.1 _
  started {other payload} hpeek := by
    have hresolved := (realm.world.cache.resolve_outcome key).started_eq
    have hretained := (Cache.retain_spares (realm.world.cache.resolve key).2 key).loads.started
    have hmisses : (realm.world.cache.misses (.resolve key)).count other = 0 := by
      rw [Cache.misses]
      by_cases hlacks : realm.world.cache.lacks key = true
      · rw [if_pos hlacks]
        refine List.count_eq_zero.mpr fun hmem => ?_
        rw [List.mem_singleton.mp hmem, Cache.peek?_eq_none_iff.mpr (.inr hlacks)] at hpeek
        cases hpeek
      · rw [if_neg hlacks]
        rfl
    change (Cache.retain (realm.world.cache.resolve key).2 key).2.started.count other = _
    rw [hretained, hresolved, List.count_append, hmisses, Nat.add_zero]

/-- A move under way holds the entry of its scene just while it waits for that. -/
theorem Flight.count_held_scene (flight : Flight) (scene : SceneId) :
    flight.held.count (.scene scene) = if flight.awaits scene then 1 else 0 := by
  obtain ⟨request, stage⟩ := flight
  cases stage with
  | resolvingZone resolution => simp [held, awaits]
  | resolvingScene summary resolution => simp [held, awaits, List.count_cons]

/-- A move that has answered gives back the references it holds. -/
theorem Flight.carriesTally_finish (flight : Flight) (realm : Realm) (answer : Answer) :
    World.CarriesTally (flight :: flights) flights realm.world
      (flight.request.finish realm flight.held answer).world := by
  rw [MoveRequest.finish, World.foldl_release]
  refine realm.world.carriesTally_cache _ _ _ fun h => ?_
  obtain ⟨hsound, hrefs, hevolves⟩ := h.tallied.cache.releases flight.held
  refine ⟨hsound, fun scene => ?_,
    .of_started (h.tallied.cache.releases_spares flight.held).loads.started fun scene => hevolves _,
    fun _ hmem => .inl (List.mem_cons_of_mem _ hmem)⟩
  have hbefore := h.tallied.refs scene
  have hafter := hrefs (.scene scene)
  rw [awaiting_cons] at hbefore ⊢
  rw [flight.count_held_scene] at hafter
  refine (congrArg (· + _) hafter).trans ?_
  omega

namespace Realm

/-- A move that is launched holds no scene yet. -/
theorem carriesTally_acquire_zone (realm : Realm) (request : MoveRequest) :
    World.CarriesTally flights
      (⟨request, .resolvingZone (realm.acquire (.zone request.target.zone)).1⟩ :: flights)
      realm.world (realm.acquire (.zone request.target.zone)).2.world := by
  refine realm.world.carriesTally_cache (realm.acquire _).2.world.cache _ _ fun h => ?_
  obtain ⟨hsound, hrefs, -, -⟩ :=
    Realm.acquire_sound h.tallied.cache (.zone request.target.zone)
  refine ⟨hsound, fun scene => ?_, acquire_preserves h.tallied.cache _, fun flight hmem => ?_⟩
  · rw [awaiting_cons, hrefs, if_neg nofun]
    rfl
  · rcases List.mem_cons.mp hmem with rfl | hold
    · exact .inr trivial
    · exact .inl hold

/-- A move that goes on to its scene takes a reference on it, and is told of it what the cache
holds. -/
theorem carriesTally_acquire_scene (realm : Realm) (request : MoveRequest) (summary : ZoneSummary)
    (resolution : Resolution CacheKey Bundle) :
    World.CarriesTally (⟨request, .resolvingZone resolution⟩ :: flights)
      (⟨request, .resolvingScene summary
        (realm.acquire (.scene request.target.scene)).1⟩ :: flights)
      realm.world (realm.acquire (.scene request.target.scene)).2.world := by
  refine realm.world.carriesTally_cache (realm.acquire _).2.world.cache _ _ fun h => ?_
  obtain ⟨hsound, hrefs, -, hholds⟩ :=
    Realm.acquire_sound h.tallied.cache (.scene request.target.scene)
  refine ⟨hsound, fun scene => ?_, acquire_preserves h.tallied.cache _, fun flight hmem => ?_⟩
  · have hcount : (if CacheKey.scene scene = .scene request.target.scene then 1 else 0) =
        if request.target.scene = scene then 1 else 0 :=
      if_congr ⟨fun heq => (CacheKey.scene.inj heq).symm,
        fun heq => congrArg CacheKey.scene heq.symm⟩ rfl rfl
    rw [awaiting_cons, awaiting_cons, hrefs, hcount]
    simp only [Flight.awaits, decide_eq_true_eq, Bool.false_eq_true, if_false]
    omega
  · rcases List.mem_cons.mp hmem with rfl | hold
    · exact .inr hholds
    · exact .inl (List.mem_cons_of_mem _ hold)

end Realm

/-- Each operation carries the account of the scenes over. -/
theorem World.carriesTally_bookkeeping : World.Bookkeeping World.CarriesTally where
  trans := .trans
  perm := carriesTally_perm
  effects world effects := world.carriesTally_beside world.changes effects
  createBody := carriesTally_createBody
  removeBody := carriesTally_removeBody
  setStatus := carriesTally_setStatus
  leavePlace := carriesTally_leavePlace
  enters hmem load scene outcome := outcome.carriesTally hmem load scene
  finish flight realm answer := flight.carriesTally_finish realm answer
  takesZone request realm := realm.carriesTally_acquire_zone request
  takesScene realm _ _ := realm.carriesTally_acquire_scene _ _ _

/-! ## Actions of a server -/

/-- A loader whose scenes are those of their keys. -/
abbrev Loader.Names (loader : Loader CacheKey Bundle) : Prop := loader.Tells CacheKey.Names

namespace Server

/-- The scenes that an action reports are those of their keys. -/
abbrev Action.Names : Action → Prop := Action.Tells CacheKey.Names

/-- What one action does to the world carries its account over. -/
theorem ActOutcome.carriesTally {server after : Server} {action : Action}
    (outcome : ActOutcome server action after) (h : server.BuiltIn) (hnames : action.Names) :
    World.CarriesTally server.underway after.underway server.world after.world := by
  refine World.carriesTally_bookkeeping.act outcome h (fun {key loaded} hreports => ?_) ?_ fun _ =>
    server.world.carriesTally_beside [] server.world.effects
  · subst hreports
    refine server.world.carriesTally_cache _ _ _ fun h => ?_
    obtain ⟨hsound, hsame⟩ := h.tallied.cache.report hnames
    exact ⟨hsound, fun scene => congrArg (· + _) (hsame.refs _),
      .of_started (Cache.report_reports _ key loaded).started fun scene _ => hsame.evolves _,
      fun _ hmem => .inl hmem⟩
  · refine server.world.carriesTally_cache _ _ _ fun h => ?_
    obtain ⟨hsound, hrefs, hevolves⟩ := h.tallied.cache.settleNext
    exact ⟨hsound, fun scene => congrArg (· + _) (hrefs _),
      .of_started (Cache.started_settleNext _) fun scene => hevolves _, fun _ hmem => .inl hmem⟩

/-- What a run does to the world carries its account over. -/
theorem carriesTally_run {server : Server} (h : server.BuiltIn) {actions : List Action}
    (hnames : ∀ action ∈ actions, action.Names) :
    World.CarriesTally server.underway (server.run actions).underway server.world
      (server.run actions).world := by
  induction actions generalizing server with
  | nil => exact server.world.carriesTally_perm (.refl _)
  | cons action rest ih =>
    have outcome := act_outcome server action
    exact (outcome.carriesTally h (hnames action List.mem_cons_self)).trans
      (ih (outcome.builtIn h) fun action hmem => hnames action (List.mem_cons_of_mem _ hmem))

end Server

/-! ## What the account comes to -/

/-- In a new world nothing is referenced. -/
theorem World.tally_new (idleCapacity : Nat) {loader : Loader CacheKey Bundle}
    (h : loader.Names) : (World.new idleCapacity loader).Tally [] where
  sound := sound_new idleCapacity loader
  tallied := ⟨Cache.sound_new idleCapacity h, fun _ => rfl, nofun⟩
  informed := nofun

namespace Server

/-- The references on scenes are those of the occupants of their places and of the moves that have
got to them. -/
structure ScenesCounted (server : Server) : Prop where
  refs : ∀ scene, server.world.cache.refs (.scene scene) =
    server.world.occupancy scene + awaiting server.underway scene
  /-- A place has occupants, and its scene is ready. -/
  ready : ∀ {place host}, server.world.place? place = some host →
    0 < host.occupants.size ∧
      server.world.cache.status? (.scene host.scene) =
        some (.ready (host.occupants.size + awaiting server.underway host.scene)) ∧
      ∃ model, server.world.cache.peek? (.scene host.scene) = some (.scene model) ∧
        model.scene = host.scene

/-- Where the tally holds, the scenes are counted. -/
theorem scenesCounted {server : Server} (h : server.world.Tally server.underway) :
    server.ScenesCounted where
  refs scene := by
    rw [h.tallied.refs, h.sound.houses.attending_eq]
  ready {place host} hhost := by
    have hsize := h.sound.houses.attending_eq host.scene
    rw [h.sound.houses.occupancy_eq hhost] at hsize
    have hpos := h.sound.houses.attending_pos hhost
    obtain ⟨model, hpeek⟩ := h.tallied.ready hpos
    obtain ⟨refs, hentry⟩ := Cache.peek?_eq_some_iff.mp hpeek
    have hrefs := h.tallied.refs host.scene
    rw [Cache.refs, hentry, hsize] at hrefs
    rw [hsize] at hpos
    refine ⟨hpos, ?_, model, hpeek, h.tallied.cache.ready_fits hpeek _ _ rfl rfl⟩
    rw [Cache.status?, hentry]
    exact congrArg (fun refs => some (EntryStatus.ready refs)) hrefs

/-- Whatever happens to a server, the references on scenes are counted right, and a place that is
there before and after some actions has kept its scene, which was not loaded again. -/
theorem run_scenesCounted (config : ServerConfig) (loader : Loader CacheKey Bundle)
    (actions later : List Action) (hloader : loader.Names)
    (hactions : ∀ action ∈ actions ++ later, action.Names)
    (hbodies : ((Server.new config loader).run (actions ++ later)).world.entityIds.issued < 2 ^ 64)
    (hplaces : ((Server.new config loader).run (actions ++ later)).world.placeIds.issued < 2 ^ 64) :
    ((Server.new config loader).run (actions ++ later)).ScenesCounted ∧
      ∀ {place host host'},
        ((Server.new config loader).run actions).world.place? place = some host →
        ((Server.new config loader).run (actions ++ later)).world.place? place = some host' →
        host'.scene = host.scene ∧
          ((Server.new config loader).run actions).world.cache.Lasts
            ((Server.new config loader).run (actions ++ later)).world.cache
            (.scene host.scene) := by
  have hfirst := carriesTally_run (new_builtIn config loader) fun action hmem =>
    hactions action (List.mem_append_left later hmem)
  have hrest := carriesTally_run (run_builtIn (new_builtIn config loader) actions)
    fun action hmem => hactions action (List.mem_append_right actions hmem)
  rw [run_append] at hbodies hplaces ⊢
  have hafter : (((Server.new config loader).run actions).run later).world.Unwrapped :=
    ⟨hbodies, hplaces⟩
  have htally := hfirst.tally (World.tally_new config.idleCapacity hloader)
    (hrest.keeps.unwrapped hafter)
  refine ⟨scenesCounted (hrest.tally htally hafter), fun {place host host'} hhost hhost' => ?_⟩
  obtain ⟨other, hother, hscene, hlasts⟩ :=
    (hrest.entries htally hafter).scene hhost' (htally.sound.houses.issued hhost)
  obtain rfl : host = other := Option.some.inj (hhost.symm.trans hother)
  exact ⟨hscene, hlasts⟩

end Server

/-- The loader of the town brings everything under its own name. -/
theorem Loader.town_names : Loader.town.Names := by
  refine immediate_tells fun {key payload} hloaded scene model hkey hbundle => ?_
  subst hkey hbundle
  cases hloaded
  rfl

namespace Server

/-- The participant who was taken out of the scene is on the way to another one. -/
def parting : List Action := [.move ⟨"bob"⟩ ⟨1, 2, 1⟩, .serve]

/-- The one who has stayed keeps the scene from being evicted, though nothing idle is kept. -/
theorem parting_scenesCounted :
    ((Server.new { idleCapacity := 0 } .town).run (meeting ++ parting)).world.occupancy 1 = 1 ∧
      awaiting ((Server.new { idleCapacity := 0 } .town).run (meeting ++ parting)).underway 2 = 1 ∧
      ((Server.new { idleCapacity := 0 } .town).run (meeting ++ parting)).ScenesCounted ∧
      ((Server.new { idleCapacity := 0 } .town).run meeting).world.cache.Lasts
        ((Server.new { idleCapacity := 0 } .town).run (meeting ++ parting)).world.cache
        (.scene 1) := by
  obtain ⟨hcounted, hlasts⟩ := run_scenesCounted { idleCapacity := 0 } .town meeting parting
    Loader.town_names (by simp [meeting, parting, Action.move, Action.Tells]) (by decide +kernel)
    (by decide +kernel)
  have hbefore : (((Server.new { idleCapacity := 0 } .town).run meeting).world.place? 1).map
      Place.scene = some 1 := by decide +kernel
  have hafter : (((Server.new { idleCapacity := 0 } .town).run (meeting ++ parting)).world.place?
      1).isSome = true := by decide +kernel
  obtain ⟨host, hhost, hscene⟩ := Option.map_eq_some_iff.mp hbefore
  obtain ⟨host', hhost'⟩ := Option.isSome_iff_exists.mp hafter
  have hlasts := (hlasts hhost hhost').2
  rw [hscene] at hlasts
  exact ⟨by decide +kernel, by decide +kernel, hcounted, hlasts⟩

end Server

end SharedWorld
