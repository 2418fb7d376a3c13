import SharedWorld.Proofs.Likenesses
import SharedWorld.Proofs.Wakeups

/-!
# What a move comes to

Behind a loader that reads every load from a store on the spot, nothing is loading once all outcomes
are settled, and whatever the cache holds then is what the store has (`Cache.Rests`). A move that
finds what it needs goes on at once, another one is parked and taken on in later rounds, and a third
one loads anew what was evicted. Each of them comes to what it would come to if it read the store
itself (`MoveRequest.perform`), before the tick in which it began is over
(`Simulation.Works.settle`).
-/

namespace SharedWorld

namespace Cache

open Std

variable {κ π : Type} [Ord κ] {store : κ → LoadOutcome π} {cache after : Cache κ π} {key : κ}
  {resolution : Resolution κ π}

/-! ## A cache at rest -/

/-- The cache loads from the store, and holds what the store has. -/
structure Reads (store : κ → LoadOutcome π) (cache : Cache κ π) : Prop where
  single : cache.SingleFlight
  sound : cache.Sound fun key payload => store key = .loaded payload
  loader : cache.loader = .immediate store

/-- Besides, no load is outstanding. -/
structure Rests (store : κ → LoadOutcome π) (cache : Cache κ π) : Prop
    extends cache.Reads store where
  outstanding : cache.outstanding = []

/-- Besides, the outcome of one load has arrived, for which the resolution waits. -/
structure Awaits (store : κ → LoadOutcome π) (key : κ) (resolution : Resolution κ π)
    (cache : Cache κ π) : Prop extends cache.Reads store where
  loading : cache.loading = []
  arrived : cache.arrived = [(key, store key)]
  enlists : cache.Enlists key resolution

/-- Readers find the same while references are taken and given back. -/
theorem Reads.recounts (h : cache.Reads store)
    (recounts : Recounts (fun key payload => store key = .loaded payload) cache after) :
    after.Reads store where
  single := h.single.of_spares recounts.spares
    ⟨recounts.sound.idle_nodup, recounts.sound.idle_ready, fun _ => trivial, fun _ => trivial,
      fun _ => trivial, recounts.sound.listed_lt, recounts.sound.delivered_lt⟩
  sound := recounts.sound
  loader := recounts.spares.loads.loader.trans h.loader

/-- References do not disturb the rest. -/
theorem Rests.recounts (h : cache.Rests store)
    (recounts : Recounts (fun key payload => store key = .loaded payload) cache after) :
    after.Rests store :=
  ⟨h.toReads.recounts recounts, recounts.spares.loads.outstanding.trans h.outstanding⟩

/-- A resolution waits for the same while references are taken and given back. -/
theorem Awaits.recounts (h : cache.Awaits store key resolution)
    (recounts : Recounts (fun key payload => store key = .loaded payload) cache after) :
    after.Awaits store key resolution where
  toReads := h.toReads.recounts recounts
  loading := recounts.spares.loads.loading.trans h.loading
  arrived := recounts.spares.loads.arrived.trans h.arrived
  enlists := h.enlists.mono (fun hlists => (lists_congr (recounts.spares.waiters _)).mpr hlists)
    recounts.spares.delivered

/-- Nothing is left to be settled in a cache at rest. -/
theorem Rests.arrived (h : cache.Rests store) : cache.arrived = [] :=
  List.map_eq_nil_iff.mp (List.append_eq_nil_iff.mp h.outstanding).2

section

variable [DecidableEq κ] [TransOrd κ]

/-- At rest, a load that is started has its outcome at once. -/
theorem Rests.startLoad (h : cache.Rests store) (key : κ) (refs : Nat) :
    (cache.startLoad key refs).loading = [] ∧
      (cache.startLoad key refs).arrived = [(key, store key)] ∧
      (cache.startLoad key refs).loader = cache.loader := by
  obtain ⟨hloading, harrived⟩ := List.append_eq_nil_iff.mp h.outstanding
  rw [List.map_eq_nil_iff] at harrived
  have hreports : cache.loader.reports (cache.started ++ [key]) = [(key, store key)] := by
    simp [h.loader, Loader.immediate]
  simp [Cache.startLoad, hreports, Cache.report, hloading, harrived]

variable [LawfulEqOrd κ]

/-- Who resolves a key at rest has its outcome, or waits for the load that has brought it. -/
theorem Rests.resolve (h : cache.Rests store) (key : κ) :
    ((cache.resolve key).2.Rests store ∧
        (cache.resolve key).1 = .settled (some (store key))) ∨
      (cache.resolve key).2.Awaits store key (cache.resolve key).1 := by
  have hsound := (h.sound.resolve key).sound
  have hsingle := h.single.act (.resolve key)
  have outcome := cache.resolve_outcome key
  have henlists := outcome.enlists h.single
  change (cache.resolve key).2.SingleFlight at hsingle
  generalize cache.resolve key = resolved at outcome hsound hsingle henlists ⊢
  obtain ⟨resolution, after⟩ := resolved
  cases outcome with
  | @reads payload ready =>
    have hspares := cache.promote_spares key
    rw [h.sound.ready_fits ready]
    exact .inl ⟨h.recounts ⟨hspares, hsound⟩, rfl⟩
  | @joins waiters refs pending =>
    have hpending : cache.isPending key = true := by
      rw [isPending, waiters?_eq_some_iff.mpr ⟨refs, pending⟩]
      rfl
    rw [h.single.pending_iff, h.outstanding] at hpending
    cases hpending
  | loads lacking =>
    obtain ⟨hloading, harrived, hloader⟩ := h.startLoad key (cache.refs key)
    exact .inr ⟨⟨hsingle, hsound, hloader.trans h.loader⟩, hloading, harrived,
      henlists (peek?_eq_none_iff.mpr (.inr lacking))⟩

/-- Settling the outcome that arrived lets the cache rest, and tells who waits for it. -/
theorem Awaits.maintain (h : cache.Awaits store key resolution) :
    cache.maintain.2.Rests store ∧
      resolution.outcome? cache.maintain.2 = some (store key) := by
  have hpopped := h.sound.popArrived h.arrived
  have hsettled : cache.maintain.2 = { cache with arrived := [] }.settle key (store key) := by
    simp [Cache.maintain, h.arrived]
  have hloads := settle_sameLoads { cache with arrived := [] } key (store key)
  refine ⟨⟨⟨h.single.maintain, ?_, ?_⟩, ?_⟩, ?_⟩
  · rw [hsettled]
    exact (hpopped.1.settle hpopped.2).1
  · rw [hsettled]
    exact hloads.loader.trans h.loader
  · rw [outstanding_maintain, h.loading]
  · obtain ⟨ticket, rfl, hlists, -⟩ := h.enlists
    obtain ⟨waiters, hwaiters, hmem⟩ := lists_iff_exists.mp hlists
    have hdelivered := get?_delivered_settle { cache with arrived := [] } key (store key) ticket
    have hsame : ({ cache with arrived := [] } : Cache κ π).waiters? key = some waiters := hwaiters
    rw [hsame, Option.getD_some, if_pos hmem] at hdelivered
    rw [hsettled]
    simp only [Resolution.outcome?, Resolution.tryTake, outcomeFor?, hdelivered]

end

end Cache

/-! ## What a move comes to -/

variable {store : CacheKey → LoadOutcome Bundle} {request : MoveRequest} {zone : ZoneSummary}
  {resolution : Resolution CacheKey Bundle} {realm other result goal : Realm}
  {flight : Option Flight}

namespace MoveRequest

/-- What a move comes to that was let into a zone, if it reads its scene from the store. -/
def enter (request : MoveRequest) (store : CacheKey → LoadOutcome Bundle) (zone : ZoneSummary)
    (realm : Realm) : Realm :=
  match (store (.scene request.target.scene)).asScene with
  | .error _ => request.finish realm [] (.failure .noSuchPlace)
  | .ok model =>
    let (answer, world) := request.commit realm.world zone model
    let realm := request.finish { realm with world := world } [] answer
    match answer with
    | .success _ => realm.announce request.entity zone.zone
    | .failure _ => realm

/-- What a move comes to if it reads its zone and its scene from the store. -/
def perform (request : MoveRequest) (store : CacheKey → LoadOutcome Bundle) (realm : Realm) :
    Realm :=
  match (store (.zone request.target.zone)).asZone with
  | .error _ => request.finish realm [] (.failure .noSuchZone)
  | .ok zone =>
    match realm.world.body? request.entity with
    | none => request.finish realm [] (.failure (.noBody request.entity))
    | some body =>
      match realm.ratify body zone with
      | (some reason, realm) => request.finish realm [] (.failure (.vetoed reason))
      | (none, realm) => request.enter store zone realm

/-- A move enters alike in realms that are alike. -/
theorem alike_enter (h : realm.Alike other) (request : MoveRequest)
    (store : CacheKey → LoadOutcome Bundle) (zone : ZoneSummary) :
    (request.enter store zone realm).Alike (request.enter store zone other) := by
  unfold enter
  cases hscene : (store (.scene request.target.scene)).asScene with
  | error error => exact alike_finish h request _ _ _
  | ok model =>
    dsimp only
    have hcommit := alike_commit h.world request zone model
    generalize request.commit realm.world zone model = committed at hcommit ⊢
    generalize request.commit other.world zone model = committed' at hcommit ⊢
    obtain ⟨answer, world⟩ := committed
    obtain ⟨answer', world'⟩ := committed'
    obtain ⟨rfl, hworld⟩ : answer = answer' ∧ world.Alike world' := hcommit
    have hrealms : Realm.Alike { realm with world := world } { other with world := world' } :=
      ⟨hworld, h.zones⟩
    have hfinished := alike_finish hrealms request [] [] answer
    cases answer with
    | success reply => exact hfinished.announce _ _
    | failure fault => exact hfinished

/-- A move comes to the same in realms that are alike. -/
theorem alike_perform (h : realm.Alike other) (request : MoveRequest)
    (store : CacheKey → LoadOutcome Bundle) :
    (request.perform store realm).Alike (request.perform store other) := by
  unfold perform
  rw [h.body?_eq]
  cases hzone : (store (.zone request.target.zone)).asZone with
  | error error => exact alike_finish h request _ _ _
  | ok zone =>
    dsimp only
    cases hbody : realm.world.body? request.entity with
    | none => exact alike_finish h request _ _ _
    | some body =>
      dsimp only
      have hratify := h.ratify body zone
      generalize realm.ratify body zone = asked at hratify ⊢
      generalize other.ratify body zone = asked' at hratify ⊢
      obtain ⟨verdict, asked⟩ := asked
      obtain ⟨verdict', asked'⟩ := asked'
      obtain ⟨rfl, hasked⟩ : verdict = verdict' ∧ asked.Alike asked' := hratify
      cases verdict with
      | some reason => exact alike_finish hasked request _ _ _
      | none => exact alike_enter hasked request store zone

/-- Entering a place and giving references back does not disturb the rest of the cache. -/
theorem rests_commit {model : SceneModel} {answer : Answer} {world : World}
    (h : realm.world.cache.Rests store)
    (hcommit : request.commit realm.world zone model = (answer, world)) (held : List CacheKey) :
    (request.finish { realm with world := world } held answer).world.cache.Rests store := by
  have hentry := request.commit_outcome realm.world zone model
  rw [hcommit] at hentry
  have hcommitted := hentry.recounts h.sound
  rw [finish, World.foldl_release]
  exact h.recounts (hcommitted.trans (hcommitted.sound.recounts_releases held))

end MoveRequest

namespace Flight

/-- Where the scene is known, the move enters it. -/
theorem SceneOutcome.enters
    (outcome : SceneOutcome request zone resolution realm flight result)
    (h : realm.world.cache.Rests store)
    (hload : resolution.outcome? realm.world.cache =
      some (store (.scene request.target.scene))) :
    flight = none ∧ result.world.cache.Rests store ∧
      result.Alike (request.enter store zone realm) := by
  cases outcome with
  | waits load => cases load.symm.trans hload
  | missing load scene =>
    cases load.symm.trans hload
    refine ⟨rfl, h.recounts (request.recounts_finish h.sound _ _), ?_⟩
    simp only [MoveRequest.enter, scene]
    exact MoveRequest.alike_finish (.refl _) request _ _ _
  | refused load scene commit =>
    cases load.symm.trans hload
    refine ⟨rfl, MoveRequest.rests_commit h commit _, ?_⟩
    simp only [MoveRequest.enter, scene, commit]
    exact MoveRequest.alike_finish (.refl _) request _ _ _
  | entered load scene commit =>
    cases load.symm.trans hload
    refine ⟨rfl, ?_, ?_⟩
    · rw [Realm.cache_announce]
      exact MoveRequest.rests_commit h commit _
    · simp only [MoveRequest.enter, scene, commit]
      exact (MoveRequest.alike_finish (.refl _) request _ _ _).announce _ _

/-- A move is going to come to what it would come to if it read from the store, and nothing but the
load that it waits for is outstanding. -/
inductive HeadsFor (store : CacheKey → LoadOutcome Bundle) (goal : Realm) :
    Option Flight → Realm → Prop where
  /-- It has come to it. -/
  | arrived {realm : Realm} (rests : realm.world.cache.Rests store) (alike : realm.Alike goal) :
    HeadsFor store goal none realm
  /-- It waits for its scene. -/
  | scene {realm : Realm} {request : MoveRequest} {zone : ZoneSummary}
    {resolution : Resolution CacheKey Bundle}
    (awaits : realm.world.cache.Awaits store (.scene request.target.scene) resolution)
    (alike : (request.enter store zone realm).Alike goal) :
    HeadsFor store goal (some ⟨request, .resolvingScene zone resolution⟩) realm
  /-- It waits for its zone. -/
  | zone {realm : Realm} {request : MoveRequest} {resolution : Resolution CacheKey Bundle}
    (awaits : realm.world.cache.Awaits store (.zone request.target.zone) resolution)
    (alike : (request.perform store realm).Alike goal) :
    HeadsFor store goal (some ⟨request, .resolvingZone resolution⟩) realm

/-- For how many loads a move waits at most, one after the other. -/
def stages : Option Flight → Nat
  | none => 0
  | some ⟨_, .resolvingScene _ _⟩ => 1
  | some ⟨_, .resolvingZone _⟩ => 2

/-- A move heads for any realm that is like its goal. -/
theorem HeadsFor.of_alike {goal' : Realm} (h : HeadsFor store goal flight realm)
    (hgoal : goal.Alike goal') : HeadsFor store goal' flight realm := by
  cases h with
  | arrived rests alike => exact .arrived rests (alike.trans hgoal)
  | scene awaits alike => exact .scene awaits (alike.trans hgoal)
  | zone awaits alike => exact .zone awaits (alike.trans hgoal)

end Flight

/-- Who asks for a key at rest has its outcome, or waits for the load that has brought it. -/
theorem Realm.rests_acquire (h : realm.world.cache.Rests store) (key : CacheKey) :
    ((realm.acquire key).2.world.cache.Rests store ∧
        (realm.acquire key).1.outcome? (realm.acquire key).2.world.cache = some (store key)) ∨
      (realm.acquire key).2.world.cache.Awaits store key (realm.acquire key).1 := by
  rcases h.resolve key with ⟨hrests, hload⟩ | hawaits
  · have hsettled : (realm.acquire key).1 = .settled (some (store key)) := hload
    refine .inl ⟨hrests.recounts (hrests.sound.recounts_retain key), ?_⟩
    rw [hsettled]
    rfl
  · exact .inr (hawaits.recounts (hawaits.sound.recounts_retain key))

namespace Flight

/-- A move that asks for its scene at rest enters it, or waits for it. -/
theorem SceneOutcome.headsFor
    (outcome : SceneOutcome request zone (realm.acquire (.scene request.target.scene)).1
      (realm.acquire (.scene request.target.scene)).2 flight result)
    (h : realm.world.cache.Rests store) :
    HeadsFor store (request.enter store zone realm) flight result ∧ stages flight ≤ 1 := by
  have halike := MoveRequest.alike_enter (realm.alike_acquire (.scene request.target.scene)).symm
    request store zone
  rcases Realm.rests_acquire h (.scene request.target.scene) with ⟨hrests, hload⟩ | hawaits
  · obtain ⟨rfl, hresult, hgoal⟩ := outcome.enters hrests hload
    exact ⟨.arrived hresult (hgoal.trans halike), Nat.zero_le _⟩
  · have hload := hawaits.enlists.outcome?
    cases outcome with
    | waits load => exact ⟨.scene hawaits halike, Nat.le_refl _⟩
    | missing load | refused load | entered load => cases load.symm.trans hload

/-- Where the zone is known, the move is ended or goes on to its scene. -/
theorem ZoneOutcome.headsFor (outcome : ZoneOutcome request resolution realm flight result)
    (h : realm.world.cache.Rests store)
    (hload : resolution.outcome? realm.world.cache = some (store (.zone request.target.zone))) :
    HeadsFor store (request.perform store realm) flight result ∧ stages flight ≤ 1 := by
  have hends : ∀ answer, HeadsFor store (request.finish realm [] answer) none
      (request.finish realm [.zone request.target.zone] answer) := fun answer =>
    .arrived (h.recounts (request.recounts_finish h.sound _ answer))
      (MoveRequest.alike_finish (.refl realm) request _ _ answer)
  cases outcome with
  | waits load => cases load.symm.trans hload
  | missing load zone =>
    cases load.symm.trans hload
    simp only [MoveRequest.perform, zone]
    exact ⟨hends _, Nat.zero_le _⟩
  | bodyless load zone gone =>
    cases load.symm.trans hload
    simp only [MoveRequest.perform, zone, gone]
    exact ⟨hends _, Nat.zero_le _⟩
  | @vetoed outcome summary body reason load zone found verdict =>
    cases load.symm.trans hload
    have hratify : realm.ratify body summary = (some reason, (realm.ratify body summary).2) :=
      Prod.ext verdict rfl
    have hasked : (realm.ratify body summary).2.world.cache.Rests store := h
    simp only [MoveRequest.perform, zone, found]
    rw [hratify]
    exact ⟨.arrived (hasked.recounts (request.recounts_finish hasked.sound _ _))
      (MoveRequest.alike_finish (.refl _) request _ _ _), Nat.zero_le _⟩
  | @admitted outcome summary body flight result load zone found verdict scene =>
    cases load.symm.trans hload
    have hratify : realm.ratify body summary = (none, (realm.ratify body summary).2) :=
      Prod.ext verdict rfl
    simp only [MoveRequest.perform, zone, found]
    rw [hratify]
    exact scene.headsFor h

/-- A move that begins at rest heads for what it would come to if it read from the store. -/
theorem launch_headsFor (h : realm.world.cache.Rests store) (request : MoveRequest) :
    HeadsFor store (request.perform store realm) (launch request realm).1
      (launch request realm).2 := by
  have outcome := stepZone_outcome request (realm.acquire (.zone request.target.zone)).1
    (realm.acquire (.zone request.target.zone)).2
  have halike := MoveRequest.alike_perform (realm.alike_acquire (.zone request.target.zone)).symm
    request store
  have hlaunch : launch request realm =
      stepZone request (realm.acquire (.zone request.target.zone)).1
        (realm.acquire (.zone request.target.zone)).2 := rfl
  rw [hlaunch]
  rcases Realm.rests_acquire h (.zone request.target.zone) with ⟨hrests, hload⟩ | hawaits
  · exact (outcome.headsFor hrests hload).1.of_alike halike
  · have hload := hawaits.enlists.outcome?
    generalize stepZone request (realm.acquire (.zone request.target.zone)).1
      (realm.acquire (.zone request.target.zone)).2 = stepped at outcome ⊢
    obtain ⟨flight, result⟩ := stepped
    cases outcome with
    | waits load => exact .zone hawaits halike
    | missing load | bodyless load | vetoed load | admitted load =>
      cases load.symm.trans hload

end Flight

/-- A realm whose outcomes that have arrived are settled. -/
def Realm.maintained (realm : Realm) : Realm :=
  { realm with world := { realm.world with cache := realm.world.cache.maintain.2 } }

/-- Settling what has arrived leaves a realm alike. -/
theorem Realm.alike_maintained (realm : Realm) : realm.Alike realm.maintained :=
  ⟨World.alike_cache realm.world _, rfl⟩

/-- A move that is taken on after the outcome it waits for was settled waits for fewer loads. -/
theorem Flight.HeadsFor.step {flight : Flight} (h : HeadsFor store goal (some flight) realm) :
    HeadsFor store goal (flight.step realm.maintained).1 (flight.step realm.maintained).2 ∧
      stages (flight.step realm.maintained).1 < stages (some flight) := by
  cases h with
  | @scene _ request zone resolution awaits alike =>
    obtain ⟨hrests, hload⟩ := awaits.maintain
    have outcome := stepScene_outcome request zone resolution realm.maintained
    obtain ⟨hnone, hresult, hgoal⟩ := outcome.enters hrests hload
    have hentered := MoveRequest.alike_enter realm.alike_maintained.symm request store zone
    have hstep : Flight.step ⟨request, .resolvingScene zone resolution⟩ realm.maintained =
      (none, (stepScene request zone resolution realm.maintained).2) := Prod.ext hnone rfl
    rw [hstep]
    exact ⟨.arrived hresult ((hgoal.trans hentered).trans alike), Nat.zero_lt_one⟩
  | @zone _ request resolution awaits alike =>
    obtain ⟨hrests, hload⟩ := awaits.maintain
    have outcome := stepZone_outcome request resolution realm.maintained
    obtain ⟨hheads, hstages⟩ := outcome.headsFor hrests hload
    have hperformed := MoveRequest.alike_perform realm.alike_maintained.symm request store
    exact ⟨hheads.of_alike (hperformed.trans alike), Nat.lt_succ_of_le hstages⟩

/-! ## Settling -/

/-- The pipeline in which at most the given move of a body is under way. -/
def Pipeline.carrying (entity : EntityId) : Option Flight → Pipeline
  | none => .empty
  | some flight => { inFlight := Table.empty.insert entity flight }

/-- Taking on the only move is to take on that move. -/
theorem Pipeline.advance_carrying (entity : EntityId) (flight : Flight) (realm : Realm) :
    ((Pipeline.carrying entity (some flight)).advance realm).2 =
      (.carrying entity (flight.step realm).1, (flight.step realm).2) := by
  have hkeys : (Table.empty.insert entity flight).keys = [entity] := rfl
  have hget : (Table.empty.insert entity flight).get? entity = some flight :=
    Table.get?_insert_self _ _ _
  have herase : (Table.empty.insert entity flight).erase entity = Table.empty :=
    Table.erase_insert_self _ _ _
  simp only [Pipeline.advance, carrying, hkeys, advanceIn, advanceBody, hget]
  generalize flight.step realm = stepped
  obtain ⟨parked, result⟩ := stepped
  cases parked with
  | some parked => simp only [Table.insert_insert_self]
  | none =>
    simp only [herase]
    rfl

/-- A move that begins in an empty pipeline is the only one there. -/
theorem Pipeline.begin_empty (realm : Realm) (request : MoveRequest) :
    Pipeline.empty.begin realm request =
      (.carrying request.entity (Flight.launch request realm).1,
        (Flight.launch request realm).2) := by
  have hidle : Pipeline.empty.isMoving request.entity = false := rfl
  have hqueue : Pipeline.empty.queueOf request.entity = [] := rfl
  simp only [begin, hidle, hqueue, start, Launch.run]
  generalize Flight.launch request realm = launched
  obtain ⟨parked, result⟩ := launched
  cases parked with
  | some parked => rfl
  | none => rfl

namespace Simulation

variable {simulation : Simulation} {entity : EntityId}

/-- At most the given move is under way, and it heads for the given realm. -/
structure Works (store : CacheKey → LoadOutcome Bundle) (goal : Realm) (entity : EntityId)
    (flight : Option Flight) (simulation : Simulation) : Prop where
  heads : Flight.HeadsFor store goal flight simulation.realm
  pipeline : simulation.pipeline = .carrying entity flight

/-- A round settles what the move waits for, and takes it on. -/
theorem Works.round {flight : Flight} (h : simulation.Works store goal entity (some flight)) :
    simulation.world.cache.arrived ≠ [] ∧
      simulation.maintain.2.advance.2.kept = simulation.kept ∧
      ∃ next, simulation.maintain.2.advance.2.Works store goal entity next ∧
        Flight.stages next < Flight.stages (some flight) := by
  obtain ⟨hheads, hstages⟩ := h.heads.step
  have hadvance := Pipeline.advance_carrying entity flight simulation.realm.maintained
  rw [← h.pipeline] at hadvance
  have hmaintained : simulation.maintain.2.pipeline.advance simulation.maintain.2.realm =
      simulation.pipeline.advance simulation.realm.maintained := rfl
  refine ⟨?_, rfl, _, ⟨?_, ?_⟩, hstages⟩
  · -- The move waits for one load, and that is all that has arrived.
    have harrived : ∃ arrival, simulation.world.cache.arrived = [arrival] := by
      cases h.heads with
      | scene awaits alike => exact ⟨_, awaits.arrived⟩
      | zone awaits alike => exact ⟨_, awaits.arrived⟩
    obtain ⟨arrival, harrived⟩ := harrived
    rw [harrived]
    exact List.cons_ne_nil _ _
  · have hrealm : simulation.maintain.2.advance.2.realm =
        (flight.step simulation.realm.maintained).2 := congrArg Prod.snd hadvance
    rw [hrealm]
    exact hheads
  · exact congrArg Prod.fst hadvance

/-- Within as many rounds as the move waits for loads, it comes to what it heads for. -/
theorem Works.settleWithin {rounds : Nat} {flight : Option Flight}
    (h : simulation.Works store goal entity flight) (hrounds : Flight.stages flight ≤ rounds) :
    (settleWithin rounds simulation).Works store goal entity none ∧
      (settleWithin rounds simulation).kept = simulation.kept := by
  induction rounds generalizing simulation flight with
  | zero =>
    have hnone : flight = none := by
      cases flight with
      | none => rfl
      | some flight =>
        obtain ⟨-, -, next, -, hless⟩ := h.round
        omega
    subst hnone
    exact ⟨h, rfl⟩
  | succ rounds ih =>
    cases flight with
    | none =>
      cases h.heads with
      | arrived rests alike =>
        rw [settleWithin_of_none rests.arrived]
        exact ⟨h, rfl⟩
    | some flight =>
      obtain ⟨harrived, hkept, next, hworks, hless⟩ := h.round
      rw [settleWithin_of_some harrived]
      obtain ⟨hsettled, hkept'⟩ := ih hworks (by omega)
      exact ⟨hsettled, hkept'.trans hkept⟩

/-- The rounds of a tick are enough. -/
theorem Works.settle {flight : Option Flight} (h : simulation.Works store goal entity flight) :
    simulation.settle.Works store goal entity none ∧ simulation.settle.kept = simulation.kept := by
  refine h.settleWithin ?_
  rw [settlingRounds]
  cases flight with
  | none => exact Nat.zero_le _
  | some flight =>
    have harrived := List.length_pos_iff.mpr h.round.1
    have hstages : Flight.stages (some flight) ≤ 2 := by
      obtain ⟨request, stage⟩ := flight
      cases stage with
      | resolvingZone resolution => exact Nat.le_refl _
      | resolvingScene zone resolution => exact Nat.le_succ _
    omega

/-- Nothing is under way. -/
structure Rests (store : CacheKey → LoadOutcome Bundle) (simulation : Simulation) : Prop where
  cache : simulation.world.cache.Rests store
  pipeline : simulation.pipeline = .empty

/-- Nothing is left to be done in a simulation at rest. -/
theorem Rests.settle_eq (h : simulation.Rests store) : simulation.settle = simulation :=
  settleWithin_of_none h.cache.arrived _

/-- A move that is begun when nothing is under way heads for what it would come to if it read from
the store. -/
theorem Rests.beginMove (h : simulation.Rests store) (request : MoveRequest) :
    (∃ flight, (simulation.beginMove request).Works store
      (request.perform store simulation.realm) request.entity flight) ∧
      (simulation.beginMove request).kept = simulation.kept := by
  have hheads := Flight.launch_headsFor h.cache request
  have hbegin : simulation.beginMove request = { simulation with
      pipeline := .carrying request.entity (Flight.launch request simulation.realm).1
      realm := (Flight.launch request simulation.realm).2 } := by
    rw [Simulation.beginMove, h.pipeline, Pipeline.begin_empty]
  rw [hbegin]
  exact ⟨⟨_, hheads, rfl⟩, rfl⟩

/-- By the end of the tick in which it began, a move comes to what it would come to if it read from
the store, and nothing is under way. -/
theorem Rests.settle_beginMove (h : simulation.Rests store) (request : MoveRequest) :
    (simulation.beginMove request).settle.Rests store ∧
      (simulation.beginMove request).settle.kept = simulation.kept ∧
      (simulation.beginMove request).settle.realm.Alike
        (request.perform store simulation.realm) := by
  obtain ⟨⟨flight, hworks⟩, hkept⟩ := h.beginMove request
  obtain ⟨⟨hheads, hpipeline⟩, hsettled⟩ := hworks.settle
  cases hheads with
  | arrived rests alike => exact ⟨⟨rests, hpipeline⟩, hsettled.trans hkept, alike⟩

end Simulation

end SharedWorld
