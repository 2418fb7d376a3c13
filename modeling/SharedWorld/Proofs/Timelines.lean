import SharedWorld.Proofs.Journeys
import SharedWorld.Proofs.Wakeups

/-!
# When moves hear of their loads

What matters to a move in a run is when it is taken on and when loads are settled. A timeline lists
these happenings in their order. Between two of them, whoever waits for a load hears nothing
(`Cache.Quiet`), so a move that waits has heard exactly what the timeline says: the outcome of the
first load of its key that settled since it asked (`Cache.Hears`).
-/

namespace SharedWorld

namespace Cache

open Std

variable {κ π : Type} [Ord κ] {before after cache : Cache κ π} {key : κ} {ticket : Ticket}
  {resolution : Resolution κ π} {heard : Option (LoadOutcome π)}

/-! ## Between the settling of loads -/

/-- Whoever waits for a load notices no difference between the caches. -/
structure Quiet (before after : Cache κ π) : Prop where
  single : after.SingleFlight
  lists_iff : ∀ {key ticket}, ticket < before.nextTicket →
    (after.Lists key ticket ↔ before.Lists key ticket)
  delivered : after.delivered = before.delivered
  nextTicket : before.nextTicket ≤ after.nextTicket

/-- Nobody is told anything by doing nothing. -/
theorem SingleFlight.quiet_refl (h : cache.SingleFlight) : Quiet cache cache :=
  ⟨h, fun _ => .rfl, rfl, Nat.le_refl _⟩

/-- Where nobody is told anything in any step, nobody is told anything. -/
theorem Quiet.trans {middle : Cache κ π} (first : Quiet before middle) (rest : Quiet middle after) :
    Quiet before after where
  single := rest.single
  lists_iff hissued :=
    (rest.lists_iff (Nat.lt_of_lt_of_le hissued first.nextTicket)).trans (first.lists_iff hissued)
  delivered := rest.delivered.trans first.delivered
  nextTicket := Nat.le_trans first.nextTicket rest.nextTicket

/-- Nobody is told anything by taking references and giving them back. -/
theorem SingleFlight.quiet_of_recounts (h : before.SingleFlight)
    (recounts : Recounts (fun _ _ => True) before after) : Quiet before after where
  single := h.of_spares recounts.spares recounts.sound
  lists_iff _ := lists_congr (recounts.spares.waiters _)
  delivered := recounts.spares.delivered
  nextTicket := Nat.le_of_eq recounts.spares.loads.nextTicket.symm

/-! ## What was heard -/

/-- What a resolution of `key` has heard of its load so far: nothing while its ticket is listed, and
afterwards what the ticket was delivered. -/
inductive Hears (cache : Cache κ π) (key : κ) :
    Resolution κ π → Option (LoadOutcome π) → Prop where
  | waits {ticket : Ticket} (listed : cache.Lists key ticket)
    (only : ∀ {other}, cache.Lists other ticket → other = key)
    (undelivered : cache.delivered.get? ticket = none) : Hears cache key (.waiting key ticket) none
  | told {ticket : Ticket} {outcome : LoadOutcome π}
    (unlisted : ∀ other, ¬ cache.Lists other ticket)
    (delivered : cache.delivered.get? ticket = some outcome) :
    Hears cache key (.waiting key ticket) (some outcome)

/-- What was heard is what there is to take. -/
theorem Hears.outcome? (h : cache.Hears key resolution heard) :
    resolution.outcome? cache = heard := by
  cases h with
  | @waits ticket listed only undelivered =>
    exact Enlists.outcome? ⟨ticket, rfl, listed, undelivered⟩
  | told unlisted delivered =>
    simp only [Resolution.outcome?, Resolution.tryTake, outcomeFor?, delivered]

/-- What a resolution hears stays the same while nobody is told anything. -/
theorem Hears.quiet (h : before.Hears key resolution heard) (single : before.SingleFlight)
    (quiet : Quiet before after) : after.Hears key resolution heard := by
  cases h with
  | waits listed only undelivered =>
    have hissued := single.sound.listed_lt listed
    rw [← quiet.delivered] at undelivered
    exact .waits ((quiet.lists_iff hissued).mpr listed)
      (fun hlists => only ((quiet.lists_iff hissued).mp hlists)) undelivered
  | told unlisted delivered =>
    have hissued := single.sound.delivered_lt delivered
    rw [← quiet.delivered] at delivered
    exact .told (fun other hlists => unlisted other ((quiet.lists_iff hissued).mp hlists)) delivered

/-- Those who wait for a key are those it lists. -/
theorem mem_waiters_iff : ticket ∈ (cache.waiters? key).getD [] ↔ cache.Lists key ticket := by
  rw [lists_iff_exists]
  cases cache.waiters? key with
  | none =>
    constructor
    · intro hmem
      cases hmem
    · rintro ⟨_, hnone, -⟩
      cases hnone
  | some waiters =>
    constructor
    · exact fun hmem => ⟨waiters, rfl, hmem⟩
    · rintro ⟨_, heq, hmem⟩
      cases heq
      exact hmem

variable [DecidableEq κ]

/-- Nobody is told anything by reporting an outcome. -/
theorem SingleFlight.quiet_report (h : cache.SingleFlight) (key : κ) (outcome : LoadOutcome π) :
    Quiet cache (cache.report key outcome).2 where
  single := h.report key outcome
  lists_iff _ := lists_congr ((cache.report_reports key outcome).readers.waiters? _)
  delivered := (cache.report_reports key outcome).readers.delivered
  nextTicket := Nat.le_of_eq (cache.report_reports key outcome).readers.nextTicket.symm

variable {name : κ} {outcome : LoadOutcome π} {rest : List (κ × LoadOutcome π)} [TransOrd κ]

/-- The outcome that arrived first is settled next. -/
theorem settleNext_eq (harrived : cache.arrived = (name, outcome) :: rest) :
    cache.settleNext = ({ cache with arrived := rest } : Cache κ π).settle name outcome := by
  simp only [settleNext, harrived]

/-- Those who wait for the key that is settled next are delivered its outcome. -/
theorem delivered_settleNext_of_lists (harrived : cache.arrived = (name, outcome) :: rest)
    (h : cache.Lists name ticket) : cache.settleNext.delivered.get? ticket = some outcome := by
  rw [settleNext_eq harrived, get?_delivered_settle]
  exact if_pos (mem_waiters_iff.mpr h)

/-- Those who do not wait for it are delivered nothing. -/
theorem delivered_settleNext_of_not_lists (harrived : cache.arrived = (name, outcome) :: rest)
    (h : ¬ cache.Lists name ticket) :
    cache.settleNext.delivered.get? ticket = cache.delivered.get? ticket := by
  rw [settleNext_eq harrived, get?_delivered_settle]
  exact if_neg fun hmem => h (mem_waiters_iff.mp hmem)

variable [LawfulEqOrd κ]

/-- Nobody is told anything by resolving a key. -/
theorem SingleFlight.quiet_resolve (h : cache.SingleFlight) (key : κ) :
    Quiet cache (cache.resolve key).2 := by
  have outcome := cache.resolve_outcome key
  exact ⟨outcome.singleFlight h (h.sound.resolve key).sound,
    fun hissued => outcome.lists_iff hissued _, outcome.delivered_eq, outcome.nextTicket_le⟩

/-- Whoever resolves a key reads it if it is ready, and waits otherwise. -/
theorem SingleFlight.hears_resolve (h : cache.SingleFlight) (key : κ) :
    (cache.resolve key).1.outcome? (cache.resolve key).2 = (cache.peek? key).map .loaded ∧
      (cache.peek? key = none →
        (cache.resolve key).2.Hears key (cache.resolve key).1 none) := by
  have outcome := cache.resolve_outcome key
  cases hpeek : cache.peek? key with
  | some payload =>
    refine ⟨?_, nofun⟩
    obtain ⟨refs, hentry⟩ := peek?_eq_some_iff.mp hpeek
    simp only [resolve, hentry]
    rfl
  | none =>
    obtain ⟨hwaiting, -, hlists⟩ := outcome.unready h.sound hpeek
    obtain ⟨ticket, hticket, -, hnone⟩ := outcome.enlists h hpeek
    have hhears : (cache.resolve key).2.Hears key (cache.resolve key).1 none := by
      rw [hwaiting] at hticket ⊢
      cases hticket
      exact .waits ((hlists key).mpr rfl) (fun hother => (hlists _).mp hother) hnone
    exact ⟨hhears.outcome?, fun _ => hhears⟩

/-- A load that settles takes its key off the list. -/
theorem SingleFlight.lists_settleNext (single : cache.SingleFlight)
    (harrived : cache.arrived = (name, outcome) :: rest) {other : κ} :
    cache.settleNext.Lists other ticket ↔ other ≠ name ∧ cache.Lists other ticket := by
  rw [settleNext_eq harrived]
  exact (single.sound.popArrived harrived).1.lists_settle name outcome other

/-- Of all that settles, a resolution that waits hears the first outcome under its key. -/
theorem Hears.settle (h : cache.Hears key resolution heard)
    (single : cache.SingleFlight) (harrived : cache.arrived = (name, outcome) :: rest) :
    cache.settleNext.Hears key resolution
      (heard.or (if name = key then some outcome else none)) := by
  have hlists : ∀ {other ticket}, cache.settleNext.Lists other ticket ↔
      other ≠ name ∧ cache.Lists other ticket := single.lists_settleNext harrived
  cases h with
  | @waits ticket listed only undelivered =>
    by_cases hname : name = key
    · subst hname
      rw [if_pos rfl]
      refine .told (fun other hother => ?_) (delivered_settleNext_of_lists harrived listed)
      obtain ⟨hne, hold⟩ := hlists.mp hother
      exact hne (only hold)
    · rw [if_neg hname]
      refine .waits (hlists.mpr ⟨Ne.symm hname, listed⟩)
        (fun hother => only (hlists.mp hother).2) ?_
      rw [delivered_settleNext_of_not_lists harrived fun hother => hname (only hother),
        undelivered]
  | @told ticket told unlisted delivered =>
    refine .told (fun other hother => unlisted other (hlists.mp hother).2) ?_
    rw [delivered_settleNext_of_not_lists harrived (unlisted name), delivered]

/-- Acquiring a key leaves the entries of the other keys alone. -/
theorem get?_acquire_of_ne (cache : Cache κ π) {key other : κ} (h : other ≠ key) :
    ((cache.resolve key).2.retain key).2.entries.get? other = cache.entries.get? other := by
  have hresolved : (cache.resolve key).2.entries.get? other = cache.entries.get? other := by
    have houtcome := cache.resolve_outcome key
    generalize (cache.resolve key).1 = resolution, (cache.resolve key).2 = after at houtcome
    cases houtcome with
    | reads =>
      unfold promote
      split
      · rfl
      · rfl
    | joins => exact (Table.get?_insert _ _ _ _).trans (if_neg h)
    | loads =>
      rw [(cache.startLoad_starts key (cache.refs key)).readers.entries]
      exact (Table.get?_insert _ _ _ _).trans (if_neg h)
  rw [← hresolved]
  unfold retain
  split
  · rfl
  · exact (Table.get?_insert _ _ _ _).trans (if_neg h)

/-- Resolving a key leaves the payloads of the others alone. -/
theorem peek?_acquire_of_ne (cache : Cache κ π) {key other : κ} (h : other ≠ key) :
    ((cache.resolve key).2.retain key).2.peek? other = cache.peek? other := by
  rw [peek?, peek?, get?_acquire_of_ne cache h]

end Cache

namespace Realm

/-- Nobody is told anything by resolving a key and taking a reference. -/
theorem quiet_acquire {realm : Realm} (h : realm.world.cache.SingleFlight) (key : CacheKey) :
    Cache.Quiet realm.world.cache (realm.acquire key).2.world.cache := by
  have hresolve := h.quiet_resolve key
  exact hresolve.trans (hresolve.single.quiet_of_recounts
    (hresolve.single.sound.recounts_retain key))

/-- Whoever acquires a key reads it if it is ready, and waits otherwise. -/
theorem hears_acquire {realm : Realm} (h : realm.world.cache.SingleFlight) (key : CacheKey) :
    (realm.acquire key).1.outcome? (realm.acquire key).2.world.cache =
        (realm.world.cache.peek? key).map .loaded ∧
      (realm.world.cache.peek? key = none →
        (realm.acquire key).2.world.cache.Hears key (realm.acquire key).1 none) := by
  obtain ⟨hread, hwaits⟩ := h.hears_resolve key
  have hresolve := h.quiet_resolve key
  have hretain := hresolve.single.quiet_of_recounts
    (hresolve.single.sound.recounts_retain key)
  have hhears := fun hpeek => (hwaits hpeek).quiet hresolve.single hretain
  refine ⟨?_, hhears⟩
  cases hpeek : realm.world.cache.peek? key with
  | none => exact (hhears hpeek).outcome?
  | some payload =>
    obtain ⟨refs, hentry⟩ := Cache.peek?_eq_some_iff.mp hpeek
    have hsettled : (realm.acquire key).1 = .settled (some (.loaded payload)) := by
      simp only [acquire, Cache.resolve, hentry]
    rw [hsettled]
    rfl

end Realm

namespace World

/-- Whoever waits for a load notices no operation of the simulation. -/
theorem quiet_bookkeeping : Bookkeeping fun _ _ before after =>
    before.cache.SingleFlight → Cache.Quiet before.cache after.cache where
  trans first rest h := (first h).trans (rest (first h).single)
  perm _ _ h := h.quiet_refl
  effects _ _ h := h.quiet_refl
  leavePlace world entity h :=
    h.quiet_of_recounts ((leavePlace_outcome world entity).recounts h.sound)
  enters _ _ _ outcome h := h.quiet_of_recounts (outcome.recounts h.sound)
  finish flight _ answer h :=
    h.quiet_of_recounts (flight.request.recounts_finish h.sound flight.held answer)
  takesZone _ _ h := Realm.quiet_acquire h _
  takesScene _ _ _ h := Realm.quiet_acquire h _
  createBody world identity h := by
    rw [world.cache_createBody]
    exact h.quiet_refl
  removeBody world identity h :=
    h.quiet_of_recounts ((removeBody_outcome world identity).recounts h.sound)
  setStatus world identity status h := by
    rw [(setStatus_outcome world identity status).cache_eq]
    exact h.quiet_refl

end World

/-- Nobody is told anything in a leg. -/
theorem Leg.quiet (leg : Leg) : leg.before.world.cache.SingleFlight →
    Cache.Quiet leg.before.world.cache leg.after.world.cache := by
  obtain ⟨request, stage?, before⟩ := leg
  cases stage? with
  | none => exact World.quiet_bookkeeping.launch request [] before
  | some stage => exact World.quiet_bookkeeping.step ⟨request, stage⟩ [] before

/-! ## Timelines -/

/-- What matters to a move that waits. -/
inductive Happening where
  /-- A move is begun or taken on. -/
  | leg (leg : Leg)
  /-- The load of a key is settled. -/
  | settled (key : CacheKey) (outcome : LoadOutcome Bundle)

/-- The legs among the happenings. -/
def Happening.legs (happenings : List Happening) : List Leg :=
  happenings.filterMap fun
    | .leg work => some work
    | .settled _ _ => none

/-- What happens in an action. -/
def Server.happenings (server : Server) : Server.Action → List Happening
  | .settle => (server.world.cache.arrived.head?.map fun arrival =>
      Happening.settled arrival.1 arrival.2).toList
  | action => (server.legs action).map .leg

/-- The happenings lead from one cache to another, and all that the cache goes through meanwhile is
quiet. -/
inductive Timeline (start : Cache CacheKey Bundle) :
    List Happening → Cache CacheKey Bundle → Prop where
  | start : Timeline start [] start
  | quiet {happenings : List Happening} {cache after : Cache CacheKey Bundle}
    (before : Timeline start happenings cache) (quiet : Cache.Quiet cache after) :
    Timeline start happenings after
  | leg {happenings : List Happening} (leg : Leg)
    (before : Timeline start happenings leg.before.world.cache) :
    Timeline start (happenings ++ [.leg leg]) leg.after.world.cache
  | settles {happenings : List Happening} {cache : Cache CacheKey Bundle} {key : CacheKey}
    {outcome : LoadOutcome Bundle} {rest : List (CacheKey × LoadOutcome Bundle)}
    (before : Timeline start happenings cache) (arrived : cache.arrived = (key, outcome) :: rest) :
    Timeline start (happenings ++ [.settled key outcome]) cache.settleNext

namespace Timeline

variable {start cache : Cache CacheKey Bundle} {happenings : List Happening}

/-- There is one load for a key at most, all along a timeline. -/
theorem single (h : Timeline start happenings cache) (hstart : start.SingleFlight) :
    cache.SingleFlight := by
  induction h with
  | start => exact hstart
  | quiet _ quiet => exact quiet.single
  | leg leg _ ih => exact (leg.quiet ih).single
  | settles _ _ ih => exact ih.settleNext

/-- The legs of a path happen one after the other. -/
theorem path {before after : Realm} {legs : List Leg}
    (h : Timeline start happenings before.world.cache) (hpath : Leg.Path before legs after) :
    Timeline start (happenings ++ legs.map .leg) after.world.cache := by
  induction legs generalizing before happenings with
  | nil =>
    cases hpath
    rwa [List.map_nil, List.append_nil]
  | cons leg legs ih =>
    obtain ⟨rfl, hrest⟩ := hpath
    have hlater := ih (.leg leg h) hrest
    rwa [List.append_assoc] at hlater

end Timeline

namespace Server

/-- Whoever waits for a load notices no action that takes no move on and settles no load. -/
theorem quiet_act {server : Server} (h : server.BuiltIn) {action : Action}
    (hmoves : ¬ server.Moves action) (hsettle : action ≠ .settle)
    (hsingle : server.world.cache.SingleFlight) :
    Cache.Quiet server.world.cache (server.act action).world.cache := by
  have hquiet := World.quiet_bookkeeping
  have houtcome := act_outcome server action
  generalize server.act action = after at houtcome
  cases houtcome with
  | reports key outcome => exact hsingle.quiet_report key outcome
  | @ejects identity entity body => exact @hquiet.leavePlace [] _ entity hsingle
  | @follows event => exact @hquiet.followSession _ [] _ event hsingle
  | @serves caller request rest requests =>
    have hserved := hquiet.served
      (runRequest_served { server with requests := rest } h caller request)
    exact hserved hsingle
  | settles => exact absurd rfl hsettle
  | advances bodies => exact absurd (.inl ⟨bodies, rfl⟩) hmoves
  | _ => exact hsingle.quiet_refl

/-- The happenings of an action continue those before it. -/
theorem timeline_act {server : Server} (h : server.BuiltIn) {start : Cache CacheKey Bundle}
    {seen : List Happening} (hstart : start.SingleFlight)
    (htimeline : Timeline start seen server.world.cache) (action : Action) :
    Timeline start (seen ++ server.happenings action) (server.act action).world.cache := by
  have hsingle := htimeline.single hstart
  by_cases hmoves : server.Moves action
  · obtain ⟨served, -, hpath⟩ := hmoves.path h
    have hlegs : server.happenings action = (server.legs action).map .leg := by
      rcases hmoves with ⟨bodies, rfl⟩ | ⟨_, _, _, _, rfl, -⟩
      · rfl
      · rfl
    rw [hlegs]
    refine Timeline.path ?_ hpath
    exact htimeline
  · by_cases hsettle : action = .settle
    · subst hsettle
      cases harrived : server.world.cache.arrived with
      | nil =>
        rw [happenings, harrived, List.head?_nil, Option.map_none, Option.toList_none,
          List.append_nil]
        refine (congrArg (Timeline start _) ?_).mpr htimeline
        change server.world.cache.settleNext = _
        rw [Cache.settleNext, harrived]
      | cons arrival rest =>
        rw [happenings, harrived]
        exact .settles htimeline harrived
    · have hnone : server.happenings action = [] := by
        have hlegs : server.legs action = [] := List.eq_nil_iff_forall_not_mem.mpr fun leg hleg =>
          hmoves (moves_of_mem_legs hleg)
        have heq : server.happenings action = (server.legs action).map .leg := by
          cases action with
          | settle => exact absurd rfl hsettle
          | _ => rfl
        rw [heq, hlegs]
        rfl
      rw [hnone, List.append_nil]
      exact .quiet htimeline (quiet_act h hmoves hsettle hsingle)

/-- The happenings of a run are a timeline. -/
theorem run_timeline (config : ServerConfig) (loader : Loader CacheKey Bundle)
    (actions : List Action) :
    Timeline (Cache.new config.idleCapacity loader)
      ((Server.new config loader).collect happenings actions)
      ((Server.new config loader).run actions).world.cache := by
  have hnew : (Server.new config loader).BuiltIn ∧
      Timeline (Cache.new config.idleCapacity loader) [] (Server.new config loader).world.cache :=
    ⟨new_builtIn config loader, .start⟩
  have hrun := run_collect_induction (P := fun seen server => server.BuiltIn ∧
      Timeline (Cache.new config.idleCapacity loader) seen server.world.cache)
    (fun seen server action ⟨hbuiltIn, htimeline⟩ =>
      ⟨(act_outcome server action).builtIn hbuiltIn,
        timeline_act hbuiltIn (Cache.singleFlight_new _ _) htimeline action⟩) hnew actions
  exact hrun.2

/-- The legs of a run are those of its timeline. -/
theorem legs_happenings (server : Server) (actions : List Action) :
    Happening.legs (server.collect happenings actions) = server.collect legs actions := by
  have hlegs : ∀ legs : List Leg, Happening.legs (legs.map .leg) = legs := by
    intro legs
    rw [Happening.legs, List.filterMap_map]
    exact List.filterMap_some
  induction actions generalizing server with
  | nil => rfl
  | cons action actions ih =>
    rw [collect, collect, Happening.legs, List.filterMap_append]
    refine congrArg₂ (· ++ ·) ?_ (ih _)
    cases action with
    | settle =>
      rw [happenings]
      cases server.world.cache.arrived with
      | nil => rfl
      | cons arrival rest => rfl
    | _ => exact hlegs _

end Server

end SharedWorld
