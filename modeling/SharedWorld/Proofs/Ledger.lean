import SharedWorld.Proofs.Accounts

/-!
# The account through a run

A move takes its reference on its zone when it is launched and gives it back when it has answered.
Between two steps of the pipeline the moves that hold references are those under way, so the account
of the world is right for them (`World.Accounts`), as long as no body has changed its zone without
changing its place. A change of that kind puts the account wrong at once.
-/

namespace SharedWorld

variable {flights : List Flight}

/-! ## Steps of a move -/

/-- A move under way holds the entry of its own zone once, and that of no other. -/
theorem Flight.count_held_zone (flight : Flight) (zone : ZoneId) :
    flight.held.count (.zone zone) = if flight.request.target.zone = zone then 1 else 0 := by
  obtain ⟨request, stage⟩ := flight
  cases stage with
  | resolvingZone resolution => simp [held, List.count_cons]
  | resolvingScene summary resolution => simp [held, List.count_cons]

/-- A move that has answered gives back the reference on its zone, and that on its scene. -/
theorem Flight.carriesAccounts_finish (flight : Flight) (realm : Realm) (answer : Answer) :
    World.CarriesAccounts (flight :: flights) flights realm.world
      (flight.request.finish realm flight.held answer).world := by
  rw [MoveRequest.finish, World.foldl_release]
  refine realm.world.carriesAccounts_cache _ _ fun h => ?_
  obtain ⟨hsound, hrefs, hevolves⟩ := h.balanced.cache.releases flight.held
  refine ⟨hsound, fun zone => ?_, fun zone => hevolves _, fun flight hmem =>
    .inl (List.mem_cons_of_mem _ hmem)⟩
  have hbefore := h.balanced.refs zone
  have hafter := hrefs (.zone zone)
  rw [movesTo_cons] at hbefore ⊢
  rw [flight.count_held_zone] at hafter
  refine (congrArg (· + _) hafter).trans ?_
  omega

namespace Realm

/-- A move that is launched takes a reference on its zone, and is told of it what the cache
holds. -/
theorem carriesAccounts_acquire_zone (realm : Realm) (request : MoveRequest) :
    World.CarriesAccounts flights
      (⟨request, .resolvingZone (realm.acquire (.zone request.target.zone)).1⟩ :: flights)
      realm.world (realm.acquire (.zone request.target.zone)).2.world := by
  refine realm.world.carriesAccounts_cache (realm.acquire _).2.world.cache _ fun h => ?_
  obtain ⟨hsound, hrefs, hevolves, hholds⟩ :=
    Realm.acquire_sound h.balanced.cache (.zone request.target.zone)
  refine ⟨hsound, fun zone => ?_, fun zone _ => hevolves _, fun flight hmem => ?_⟩
  · have hcount : (if CacheKey.zone zone = .zone request.target.zone then 1 else 0) =
        if request.target.zone = zone then 1 else 0 :=
      if_congr ⟨fun heq => (CacheKey.zone.inj heq).symm,
        fun heq => congrArg CacheKey.zone heq.symm⟩ rfl rfl
    rw [movesTo_cons, hrefs, hcount, Nat.add_assoc, Nat.add_comm (movesTo flights zone)]
  · rcases List.mem_cons.mp hmem with rfl | hold
    · exact .inr hholds
    · exact .inl hold

/-- A move that goes on to its scene knows the zone that the cache holds. -/
theorem carriesAccounts_acquire_scene (realm : Realm) (request : MoveRequest) (scene : SceneId)
    {resolution : Resolution CacheKey Bundle} {outcome : LoadOutcome Bundle} {summary : ZoneSummary}
    (hload : resolution.outcome? realm.world.cache = some outcome)
    (hzone : outcome.asZone = .ok summary) :
    World.CarriesAccounts (⟨request, .resolvingZone resolution⟩ :: flights)
      (⟨request, .resolvingScene summary (realm.acquire (.scene scene)).1⟩ :: flights) realm.world
      (realm.acquire (.scene scene)).2.world := by
  refine realm.world.carriesAccounts_cache (realm.acquire _).2.world.cache _ fun h => ?_
  obtain ⟨hsound, hrefs, hevolves, -⟩ := Realm.acquire_sound h.balanced.cache (.scene scene)
  refine ⟨hsound, fun zone => ?_, fun zone _ => hevolves _, fun flight hmem => ?_⟩
  · rw [movesTo_cons, movesTo_cons, hrefs, if_neg nofun, Nat.add_zero]
  · rcases List.mem_cons.mp hmem with rfl | hold
    · rw [LoadOutcome.eq_of_asZone hzone] at hload
      have hpeek := (h.supported _ List.mem_cons_self : realm.world.cache.Holds _ _).peek? hload
      exact .inr ⟨h.balanced.cache.ready_fits hpeek _ _ rfl rfl, (hevolves _).keeps hpeek⟩
    · exact .inl (List.mem_cons_of_mem _ hold)

end Realm

/-- The order of the moves does not matter to the account. -/
theorem World.carriesAccounts_perm {flights' : List Flight} (world : World)
    (hperm : flights.Perm flights') : CarriesAccounts flights flights' world world :=
  ⟨id, fun h _ => h.perm hperm⟩

/-- Each operation carries the account of the zones over. -/
theorem World.carriesAccounts_bookkeeping : World.Bookkeeping World.CarriesAccounts where
  trans := .trans
  perm := carriesAccounts_perm
  effects := carriesAccounts_effects
  createBody := carriesAccounts_createBody
  removeBody := carriesAccounts_removeBody
  setStatus := carriesAccounts_setStatus
  leavePlace := carriesAccounts_leavePlace
  enters hmem _ _ outcome := outcome.carriesAccounts hmem
  finish flight realm answer := flight.carriesAccounts_finish realm answer
  takesZone request realm := realm.carriesAccounts_acquire_zone request
  takesScene realm load zone := realm.carriesAccounts_acquire_scene _ _ load zone

/-! ## Actions of a server -/

namespace Server

/-- The zones that an action reports are those of their keys. -/
abbrev Action.Faithful : Action → Prop := Action.Tells CacheKey.Fits

/-- The changes of locations that an action hands out. -/
def handedOut (server : Server) : Action → List BodyChange
  | .takeChanges => server.world.changes
  | _ => []

/-- All changes of locations in a run, together with those that were waiting to be handed out. -/
def history (server : Server) (actions : List Action) : List BodyChange :=
  server.collect handedOut actions ++ (server.run actions).world.changes

/-- What one action does to the world carries its account over. -/
theorem ActOutcome.carriesAccounts {server after : Server} {action : Action}
    (outcome : ActOutcome server action after) (h : server.BuiltIn) (hfaithful : action.Faithful)
    (hkept : server.handedOut action = []) :
    World.CarriesAccounts server.underway after.underway server.world after.world := by
  refine World.carriesAccounts_bookkeeping.act outcome h (fun {key outcome} hreports => ?_) ?_
    fun htakes => ?_
  · subst hreports
    refine server.world.carriesAccounts_cache _ _ fun h => ?_
    obtain ⟨hsound, hsame⟩ := h.balanced.cache.report hfaithful
    exact ⟨hsound, fun zone => congrArg (· + _) (hsame.refs _), fun zone _ => hsame.evolves _,
      fun _ hmem => .inl hmem⟩
  · refine server.world.carriesAccounts_cache _ _ fun h => ?_
    obtain ⟨hsound, hrefs, hevolves⟩ := h.balanced.cache.settleNext
    exact ⟨hsound, fun zone => congrArg (· + _) (hrefs _), fun zone => hevolves _,
      fun _ hmem => .inl hmem⟩
  · subst htakes
    have hnone : server.world.changes = [] := hkept
    rw [← hnone]
    exact .refl _ _

/-- An action after which the account of the world is to be right keeps it right. -/
theorem act_accounts {server : Server} (h : server.BuiltIn) {action : Action}
    (hfaithful : action.Faithful) (hafter : (server.act action).world.Regular)
    (hsettled : ∀ change ∈ server.handedOut action, change.rezones = false) :
    server.world.Regular ∧ (server.world.Accounts server.underway →
      (server.act action).world.Accounts (server.act action).underway) := by
  by_cases hkept : server.handedOut action = []
  · have hcarries := (act_outcome server action).carriesAccounts h hfaithful hkept
    exact ⟨hcarries.regular hafter, fun haccounts => hcarries.accounts haccounts hafter⟩
  · cases action with
    | takeChanges =>
      refine ⟨⟨⟨hafter.unwrapped.entityIds, hafter.unwrapped.placeIds⟩, hsettled⟩,
        fun haccounts => ?_⟩
      exact ⟨haccounts.sound.of_same ⟨rfl, rfl, rfl⟩ ⟨rfl, rfl, rfl⟩,
        ⟨haccounts.balanced.cache, haccounts.balanced.refs, haccounts.balanced.ready⟩,
        haccounts.supported⟩
    | _ => exact absurd rfl hkept

/-- The account is right after a run in which no body changed its zone without changing its
place. -/
theorem run_accounts {server : Server} (h : server.BuiltIn) {actions : List Action}
    (hfaithful : ∀ action ∈ actions, action.Faithful)
    (hunwrapped : (server.run actions).world.Unwrapped)
    (hsettled : ∀ change ∈ server.history actions, change.rezones = false) :
    server.world.Regular ∧ (server.world.Accounts server.underway →
      (server.run actions).world.Accounts (server.run actions).underway) := by
  induction actions generalizing server with
  | nil => exact ⟨⟨hunwrapped, hsettled⟩, id⟩
  | cons action rest ih =>
    have hsplit : server.history (action :: rest) =
        server.handedOut action ++ (server.act action).history rest :=
      List.append_assoc _ _ _
    rw [hsplit] at hsettled
    obtain ⟨hregular, hrest⟩ := ih ((act_outcome server action).builtIn h)
      (fun action hmem => hfaithful action (List.mem_cons_of_mem _ hmem)) hunwrapped
      fun change hmem => hsettled change (List.mem_append_right _ hmem)
    obtain ⟨hbefore, hfirst⟩ := act_accounts h (hfaithful action List.mem_cons_self) hregular
      fun change hmem => hsettled change (List.mem_append_left _ hmem)
    exact ⟨hbefore, fun haccounts => hrest (hfirst haccounts)⟩

end Server

/-! ## What the account comes to -/

/-- A loader whose zones are those of their keys. -/
abbrev Loader.Faithful (loader : Loader CacheKey Bundle) : Prop := loader.Tells CacheKey.Fits

/-- In a new world nothing is referenced. -/
theorem World.accounts_new (idleCapacity : Nat) {loader : Loader CacheKey Bundle}
    (h : loader.Faithful) : (World.new idleCapacity loader).Accounts [] where
  sound := sound_new idleCapacity loader
  balanced := ⟨Cache.sound_new idleCapacity h, fun _ => rfl, nofun⟩
  supported := nofun

/-- A move that changes the zone of a body within its place puts the account of the zone wrong: the
body has no reference on it. -/
theorem World.CommitOutcome.miscounts {world after : World} {entity : EntityId} {zone : ZoneId}
    {place : PlaceId} {location : LocationId} {change : BodyChange} {flights : List Flight}
    (outcome : CommitOutcome world entity zone place location (.ok change) after)
    (h : world.Accounts flights) (hrezones : change.rezones = true) :
    after.cache.refs (.zone zone) + 1 = after.standing zone + movesTo flights zone := by
  obtain ⟨body, host, -, -, hchange⟩ := outcome.change_eq
  have hfollows := outcome.follows h.sound.registers.labeled (h.sound.houses.sparing [place])
  have hafter : change.after = .inside zone host.scene place location := by rw [hchange]; rfl
  simp only [BodyChange.rezones, hafter, Bool.and_eq_true, decide_eq_true_eq] at hrezones
  obtain ⟨⟨-, hwithin⟩, hother⟩ := hrezones
  have hcache : after.cache = world.cache := by
    have hstayed : change.changedPlace = false := by
      rw [BodyChange.changedPlace, hafter]
      exact decide_eq_false (not_not_intro hwithin)
    have hfollowed : after.cache = world.cache.follow change := hfollows.cache
    rw [hfollowed, Cache.follow, hstayed]
    rfl
  have hstanding : after.standing zone + (if change.before.standsIn zone then 1 else 0) =
      world.standing zone + if change.after.standsIn zone then 1 else 0 :=
    hfollows.headcount fun location hnone => location.standsIn_of_place? hnone zone
  have hbefore : change.before.standsIn zone = false := by
    obtain ⟨old, scene, spot, hlocation⟩ := BodyLocation.place?_eq_some_iff.mp hwithin
    rw [hlocation] at hother ⊢
    exact decide_eq_false fun heq => hother (congrArg some heq)
  have hstands : change.after.standsIn zone = true := by rw [hafter]; exact decide_eq_true rfl
  rw [hbefore, hstands] at hstanding
  have hrefs := h.balanced.refs zone
  have hmoved : after.standing zone = world.standing zone + 1 := hstanding
  rw [hcache, hrefs, hmoved]
  exact Nat.add_right_comm _ _ _

/-- The references on zones are those of the bodies that stand in them and of the moves under way to
them. -/
structure Server.ZonesCounted (server : Server) : Prop where
  refs : ∀ zone, server.world.cache.refs (.zone zone) =
    server.world.standing zone + server.simulation.pipeline.bound zone
  /-- A zone somebody stands in is ready. -/
  ready : ∀ zone, 0 < server.world.standing zone → server.world.cache.status? (.zone zone) =
    some (.ready (server.world.standing zone + server.simulation.pipeline.bound zone))
  /-- A zone nobody stands in or is on the way to is not referenced. -/
  unused : ∀ zone, server.world.standing zone = 0 → server.simulation.pipeline.bound zone = 0 →
    server.world.cache.refs (.zone zone) = 0

/-- Where the account holds, the zones are counted. -/
theorem Server.zonesCounted {server : Server} (h : server.world.Accounts server.underway) :
    server.ZonesCounted where
  refs := h.balanced.refs
  ready zone hpos := by
    obtain ⟨summary, hpeek⟩ := h.balanced.ready hpos
    obtain ⟨refs, hentry⟩ := Cache.peek?_eq_some_iff.mp hpeek
    have hrefs := h.balanced.refs zone
    rw [Cache.refs, hentry] at hrefs
    rw [Cache.status?, hentry]
    exact congrArg (fun refs => some (EntryStatus.ready refs)) hrefs
  unused zone hstanding hbound := by
    have hrefs := h.balanced.refs zone
    rw [hstanding] at hrefs
    exact hrefs.trans ((Nat.zero_add _).trans hbound)

/-- As long as no body has changed its zone without changing its place, the references on zones are
counted right, whatever happens to a server. A move that puts a body into a place counts them right
exactly when it is not of that kind. -/
theorem Server.run_zonesCounted (config : ServerConfig) (loader : Loader CacheKey Bundle)
    (actions : List Action) (hloader : loader.Faithful)
    (hactions : ∀ action ∈ actions, action.Faithful)
    (hbodies : ((Server.new config loader).run actions).world.entityIds.issued < 2 ^ 64)
    (hplaces : ((Server.new config loader).run actions).world.placeIds.issued < 2 ^ 64)
    (hsettled : ∀ change ∈ (Server.new config loader).history actions, change.rezones = false) :
    ((Server.new config loader).run actions).ZonesCounted ∧
      ∀ {request zone resolution place location change after},
        ⟨request, .resolvingScene zone resolution⟩ ∈
          ((Server.new config loader).run actions).underway →
        ((Server.new config loader).run actions).world.commitMove request.entity zone.zone place
          location = (.ok change, after) →
        ((∀ other, after.cache.refs (.zone other) = after.standing other +
          ((Server.new config loader).run actions).simulation.pipeline.bound other) ↔
            change.rezones = false) := by
  have haccounts := (run_accounts (new_builtIn config loader) hactions ⟨hbodies, hplaces⟩
    hsettled).2 (World.accounts_new config.idleCapacity hloader)
  generalize (Server.new config loader).run actions = server at haccounts
  refine ⟨server.zonesCounted haccounts, fun {request zone resolution place location change after}
    hmem hcommit => ?_⟩
  have outcome := server.world.commitMove_outcome request.entity zone.zone place location
  rw [hcommit] at outcome
  dsimp only at outcome
  constructor
  · intro hcounted
    by_contra hrezones
    have hmissed := outcome.miscounts haccounts (eq_true_of_ne_false hrezones)
    have hright : _ = _ + movesTo server.underway zone.zone := hcounted zone.zone
    omega
  · intro hkept
    obtain ⟨hzone, hready⟩ := haccounts.supported _ hmem
    have hheld := movesTo_pos hmem
    rw [← hzone] at hready hheld
    have hbalanced := outcome.balanced haccounts.sound.registers.labeled
      (haccounts.sound.houses.sparing _) haccounts.balanced hheld ⟨zone, hready⟩
      fun other hother => by
        obtain rfl := Except.ok.inj hother
        exact hkept
    exact hbalanced.1.refs

/-- The loader of the town brings each zone under its own name. -/
theorem Loader.town_faithful : Loader.town.Faithful := by
  refine immediate_tells fun {key payload} hloaded zone summary hkey hbundle => ?_
  subst hkey hbundle
  cases hloaded
  rfl

/-- Nobody changes zones in a meeting, so its zones are counted right. -/
theorem Server.meeting_zonesCounted : ((Server.new {} .town).run meeting).ZonesCounted :=
  (run_zonesCounted {} .town meeting Loader.town_faithful
    (by simp [meeting, Action.move, Action.Tells]) (by decide +kernel) (by decide +kernel)
    (by decide +kernel)).1

/-- A participant enters a scene through one zone and then moves within it through another. -/
def Server.detour : Server :=
  let entered := (((Server.new {} .town).run
    [.connect 0 1 ⟨"ada"⟩ none, .move ⟨"ada"⟩ ⟨1, 1, 1⟩]).receive 0).2
  ((entered.act (.move ⟨"ada"⟩ ⟨2, 1, 2⟩)).receive 0).2

/-- The participant stands in the second zone then, and the reference is on the first. -/
theorem Server.detour_miscounted :
    detour.world.standing 1 = 0 ∧ detour.simulation.pipeline.bound 1 = 0 ∧
      detour.world.cache.refs (.zone 1) = 1 ∧ detour.world.standing 2 = 1 ∧
      detour.simulation.pipeline.bound 2 = 0 ∧ detour.world.cache.refs (.zone 2) = 0 := by
  decide +kernel

end SharedWorld
