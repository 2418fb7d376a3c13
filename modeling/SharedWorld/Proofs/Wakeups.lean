import SharedWorld.Proofs.Accounts
import SharedWorld.Proofs.Resolutions
import SharedWorld.Proofs.Recounts
import SharedWorld.Proofs.Replies

/-!
# Moves that wait are listed

A move is parked when a resolution of it has no outcome, and it is looked at again only after an
outcome was settled. So the ticket of a parked move has to be on the list of the pending entry that
it waits for: what is not listed is never told. Nothing that happens to a cache takes a ticket off
its list but the settling of the entry, which tells its holder (`Cache.Serves`).

When outcomes were settled, some moves have one, and they are taken on one after the other. Each of
them can start further loads; `Pipeline.backlog` bounds how many, so that the rounds of a tick come
to an end (`Simulation.Kept.settleWithin`).
-/

namespace SharedWorld

namespace Cache

open Std

variable {κ π : Type} [Ord κ]

/-- The resolution has its ticket on the list of the pending entry under `key`, and was told
nothing. -/
def Enlists (cache : Cache κ π) (key : κ) (resolution : Resolution κ π) : Prop :=
  ∃ ticket, resolution = .waiting key ticket ∧ cache.Lists key ticket ∧
    cache.delivered.get? ticket = none

/-- A resolution of `key` has an outcome, or is on the list of those who will be told. -/
inductive Serves (cache : Cache κ π) (key : κ) : Resolution κ π → Prop where
  | known (outcome : LoadOutcome π) : Serves cache key (.settled (some outcome))
  | told {ticket : Ticket} {outcome : LoadOutcome π}
    (delivered : cache.delivered.get? ticket = some outcome) :
    Serves cache key (.waiting key ticket)
  | enlisted {resolution : Resolution κ π} (enlisted : cache.Enlists key resolution) :
    Serves cache key resolution

variable {before after cache : Cache κ π} {key : κ} {resolution : Resolution κ π}

/-- A listed ticket has no outcome yet. -/
theorem Enlists.outcome? (h : cache.Enlists key resolution) : resolution.outcome? cache = none := by
  obtain ⟨ticket, rfl, hlists, hnone⟩ := h
  simp only [Resolution.outcome?, Resolution.tryTake, outcomeFor?_of_lists hnone hlists]

/-- Without an outcome, a resolution is on the list. -/
theorem Serves.enlists (h : cache.Serves key resolution)
    (hnone : resolution.outcome? cache = none) : cache.Enlists key resolution := by
  cases h with
  | known outcome => cases hnone
  | told delivered =>
    simp only [Resolution.outcome?, Resolution.tryTake, outcomeFor?, delivered,
      reduceCtorEq] at hnone
  | enlisted enlisted => exact enlisted

/-- Nothing is settled between the caches: who is listed stays listed and nobody is told anything.
At most `count` loads are started. -/
structure Starts (count : Nat) (before after : Cache κ π) : Prop where
  single : after.SingleFlight
  lists : ∀ {key ticket}, before.Lists key ticket → after.Lists key ticket
  delivered : after.delivered = before.delivered
  outstanding : after.outstanding.length ≤ before.outstanding.length + count

/-- Doing nothing starts no load. -/
theorem Starts.refl (h : cache.SingleFlight) : Starts 0 cache cache := ⟨h, id, rfl, Nat.le_refl _⟩

/-- The loads that are started add up. -/
theorem Starts.trans {middle : Cache κ π} {count more : Nat} (first : Starts count before middle)
    (rest : Starts more middle after) : Starts (count + more) before after where
  single := rest.single
  lists hlists := rest.lists (first.lists hlists)
  delivered := rest.delivered.trans first.delivered
  outstanding := by
    have hfirst := first.outstanding
    have hrest := rest.outstanding
    omega

/-- Where nobody is taken off a list or told anything, all are served as before. -/
theorem Enlists.mono (h : before.Enlists key resolution)
    (hlists : ∀ {key ticket}, before.Lists key ticket → after.Lists key ticket)
    (hdelivered : after.delivered = before.delivered) : after.Enlists key resolution := by
  obtain ⟨ticket, hwaiting, hlisted, hnone⟩ := h
  rw [← hdelivered] at hnone
  exact ⟨ticket, hwaiting, hlists hlisted, hnone⟩

/-- A resolution is served while no ticket is taken off the list and nothing is delivered. -/
theorem Serves.mono (h : before.Serves key resolution)
    (hlists : ∀ {key ticket}, before.Lists key ticket → after.Lists key ticket)
    (hdelivered : after.delivered = before.delivered) : after.Serves key resolution := by
  cases h with
  | known outcome => exact .known outcome
  | told delivered =>
    rw [← hdelivered] at delivered
    exact .told delivered
  | enlisted enlisted => exact .enlisted (enlisted.mono hlists hdelivered)

/-- What is on the list stays there while loads are started. -/
theorem Starts.enlists {count : Nat} (h : Starts count before after)
    (henlists : before.Enlists key resolution) : after.Enlists key resolution :=
  henlists.mono h.lists h.delivered

/-- A resolution is served while loads are started. -/
theorem Starts.serves {count : Nat} (h : Starts count before after)
    (hserves : before.Serves key resolution) : after.Serves key resolution :=
  hserves.mono h.lists h.delivered

/-- Taking references or giving them back starts no load. -/
theorem SingleFlight.starts_of_recounts (h : before.SingleFlight)
    (recounts : Recounts (fun _ _ => True) before after) : Starts 0 before after where
  single := h.of_spares recounts.spares recounts.sound
  lists hlists := (lists_congr (recounts.spares.waiters _)).mpr hlists
  delivered := recounts.spares.delivered
  outstanding := Nat.le_of_eq (congrArg List.length recounts.spares.loads.outstanding)

section

variable [DecidableEq κ]

/-- Reporting an outcome starts no load. -/
theorem SingleFlight.starts_report (h : cache.SingleFlight) (key : κ) (outcome : LoadOutcome π) :
    Starts 0 cache (cache.report key outcome).2 where
  single := h.report key outcome
  lists hlists := (lists_congr ((cache.report_reports key outcome).readers.waiters? _)).mpr hlists
  delivered := (cache.report_reports key outcome).readers.delivered
  outstanding := Nat.le_of_eq (cache.report_reports key outcome).outstanding.length_eq

variable [TransOrd κ]

/-- Resolving a key starts at most one load. -/
theorem ResolveOutcome.outstanding_le (outcome : ResolveOutcome cache key resolution after) :
    after.outstanding.length ≤ cache.outstanding.length + 1 := by
  cases outcome with
  | reads ready =>
    rw [(cache.promote_spares key).loads.outstanding]
    exact Nat.le_succ _
  | joins pending => exact Nat.le_succ _
  | loads lacking =>
    exact Nat.le_of_eq (cache.outstanding_startLoad key (cache.refs key)).length_eq

/-- When everything was settled, nothing is left to be. -/
theorem maintain_arrived (cache : Cache κ π) : cache.maintain.2.arrived = [] :=
  (settleAll_sameLoads { cache with arrived := [] } cache.arrived).arrived

/-- Nothing is settled where nothing has arrived. -/
theorem maintain_of_none (h : cache.arrived = []) : cache.maintain = (0, cache) := by
  cases cache
  cases h
  rfl

variable [LawfulEqOrd κ]

/-- Who resolves a key that is not there is listed. -/
theorem ResolveOutcome.enlists (outcome : ResolveOutcome cache key resolution after)
    (h : cache.SingleFlight) (hpeek : cache.peek? key = none) : after.Enlists key resolution := by
  obtain ⟨rfl, -, hlists⟩ := outcome.unready h.sound hpeek
  refine ⟨cache.nextTicket, rfl, (hlists key).mpr rfl, ?_⟩
  cases hdelivered : after.delivered.get? cache.nextTicket with
  | none => rfl
  | some told =>
    rw [outcome.delivered_eq] at hdelivered
    have hissued := h.sound.delivered_lt hdelivered
    exact absurd hissued (Nat.lt_irrefl _)

/-- Who resolves a key is told what is there, or is listed. -/
theorem ResolveOutcome.serves (outcome : ResolveOutcome cache key resolution after)
    (h : cache.SingleFlight) : after.Serves key resolution := by
  cases hpeek : cache.peek? key with
  | none => exact .enlisted (outcome.enlists h hpeek)
  | some payload =>
    cases outcome with
    | reads ready => exact .known _
    | joins pending => simp [Cache.peek?, pending] at hpeek
    | loads lacking => rw [peek?_eq_none_iff.mpr (.inr lacking)] at hpeek; cases hpeek

/-- Resolving a key starts one load at most, and serves the resolution. -/
theorem SingleFlight.starts_resolve (h : cache.SingleFlight) (key : κ) :
    Starts 1 cache (cache.resolve key).2 ∧
      (cache.resolve key).2.Serves key (cache.resolve key).1 := by
  have outcome := cache.resolve_outcome key
  have hsound := h.sound.resolve key
  refine ⟨⟨outcome.singleFlight h hsound.sound, fun hlists => ?_, outcome.delivered_eq,
    outcome.outstanding_le⟩, outcome.serves h⟩
  exact (outcome.lists_iff (h.sound.listed_lt hlists) _).mpr hlists

/-- Who is taken off a list by the settling of an entry is told its outcome. -/
theorem Sound.serves_settle (h : cache.Sound fun _ _ => True) (name : κ) (outcome : LoadOutcome π)
    (hserves : cache.Serves key resolution) :
    (cache.settle name outcome).Serves key resolution := by
  cases hserves with
  | known outcome => exact .known outcome
  | @told ticket told delivered =>
    have hget := cache.get?_delivered_settle name outcome ticket
    split at hget
    · exact .told hget
    · exact .told (hget.trans delivered)
  | enlisted enlisted =>
    obtain ⟨ticket, rfl, hlists, hnone⟩ := enlisted
    have hget := cache.get?_delivered_settle name outcome ticket
    by_cases hunlisted : ticket ∈ (cache.waiters? name).getD []
    · rw [if_pos hunlisted] at hget
      exact .told hget
    · rw [if_neg hunlisted] at hget
      refine .enlisted ⟨ticket, rfl, (h.lists_settle name outcome key).mpr ⟨?_, hlists⟩,
        hget.trans hnone⟩
      rintro rfl
      obtain ⟨waiters, hwaiters, hmem⟩ := lists_iff_exists.mp hlists
      rw [hwaiters] at hunlisted
      exact hunlisted hmem

/-- A resolution is served when outcomes are settled. -/
theorem Sound.serves_settleAll (h : cache.Sound fun _ _ => True)
    (arrivals : List (κ × LoadOutcome π)) (hserves : cache.Serves key resolution) :
    (cache.settleAll arrivals).Serves key resolution := by
  induction arrivals generalizing cache with
  | nil => exact hserves
  | cons arrival rest ih =>
    exact ih (h.settle fun _ _ => trivial).1 (h.serves_settle arrival.1 arrival.2 hserves)

/-- A resolution is served when everything is settled. -/
theorem SingleFlight.serves_maintain (h : cache.SingleFlight)
    (hserves : cache.Serves key resolution) : cache.maintain.2.Serves key resolution := by
  have hpopped : ({ cache with arrived := [] } : Cache κ π).Serves key resolution :=
    hserves.mono id rfl
  exact h.withoutArrived.serves_settleAll cache.arrived hpopped

/-- Settling the outcome that arrived first leaves one load outstanding for each pending entry. -/
theorem SingleFlight.settleNext (h : cache.SingleFlight) : cache.settleNext.SingleFlight := by
  unfold Cache.settleNext
  cases harrived : cache.arrived with
  | nil => exact h
  | cons arrival rest =>
    have hpopped := (h.sound.popArrived harrived).1
    have hloads := settle_sameLoads { cache with arrived := rest } arrival.1 arrival.2
    have hsplit : cache.outstanding.Perm
        (arrival.1 :: ({ cache with arrived := rest } : Cache κ π).outstanding) := by
      simp only [outstanding, harrived, List.map_cons]
      exact List.perm_middle
    have hnodup := List.nodup_cons.mp (hsplit.nodup_iff.mp h.nodup)
    refine ⟨(hpopped.settle fun _ _ => trivial).1, ?_, fun key => ?_⟩
    · rw [hloads.outstanding]
      exact hnodup.2
    · rw [isPending, hpopped.waiters?_settle, hloads.outstanding]
      by_cases heq : key = arrival.1
      · rw [if_pos heq, heq]
        exact iff_of_false Bool.false_ne_true hnodup.1
      · rw [if_neg heq]
        change cache.isPending key = true ↔ _
        rw [h.pending_iff, hsplit.mem_iff, List.mem_cons]
        exact or_iff_right heq

/-- A resolution is served when the outcome that arrived first is settled. -/
theorem SingleFlight.serves_settleNext (h : cache.SingleFlight)
    (hserves : cache.Serves key resolution) : cache.settleNext.Serves key resolution := by
  unfold Cache.settleNext
  cases harrived : cache.arrived with
  | nil => exact hserves
  | cons arrival rest =>
    have hpopped := (h.sound.popArrived harrived).1
    exact hpopped.serves_settle arrival.1 arrival.2 (hserves.mono id rfl)

end

end Cache

/-! ## One move -/

namespace Flight

/-- The key of the entry that a move waits for. -/
def key (flight : Flight) : CacheKey :=
  match flight.stage with
  | .resolvingZone _ => .zone flight.request.target.zone
  | .resolvingScene _ _ => .scene flight.request.target.scene

/-- What a move waits for. -/
def resolution (flight : Flight) : Resolution CacheKey Bundle :=
  match flight.stage with
  | .resolvingZone resolution | .resolvingScene _ resolution => resolution

/-- Whether a move waits for its zone. -/
def awaitsZone (flight : Flight) : Bool :=
  match flight.stage with
  | .resolvingZone _ => true
  | .resolvingScene _ _ => false

/-- How many loads a move can start from where it waits. -/
def toStart (flight : Option Flight) : Nat := flight.elim 0 fun flight =>
  if flight.awaitsZone then 1 else 0

/-- A move that has at most `allowance` loads to start goes on: it has answered, or its ticket is on
the list of the entry that it waits for. -/
structure Proceeds (allowance : Nat) (before : Realm) (flight : Option Flight) (after : Realm) :
    Prop where
  starts : ∃ count, Cache.Starts count before.world.cache after.world.cache ∧
    count + toStart flight ≤ allowance
  waits : ∀ parked, flight = some parked → after.world.cache.Enlists parked.key parked.resolution

/-- Finishing a move starts no load. -/
theorem starts_finish (request : MoveRequest) (realm : Realm)
    (h : realm.world.cache.SingleFlight) (held : List CacheKey) (answer : Answer) :
    Cache.Starts 0 realm.world.cache (request.finish realm held answer).world.cache :=
  h.starts_of_recounts (request.recounts_finish h.sound held answer)

/-- A move that is answered without starting a load has proceeded within any allowance. -/
theorem Proceeds.answered {before after : Realm} {allowance : Nat}
    (h : Cache.Starts 0 before.world.cache after.world.cache) :
    Proceeds allowance before none after :=
  ⟨⟨0, h, Nat.zero_le _⟩, nofun⟩

/-- Resolving a key and taking a reference starts one load at most, and serves the resolution. -/
theorem starts_acquire (realm : Realm) (h : realm.world.cache.SingleFlight) (key : CacheKey) :
    Cache.Starts 1 realm.world.cache (realm.acquire key).2.world.cache ∧
      (realm.acquire key).2.world.cache.Serves key (realm.acquire key).1 := by
  obtain ⟨hresolve, hserves⟩ := h.starts_resolve key
  have hretain := hresolve.single.starts_of_recounts (hresolve.single.sound.recounts_retain key)
  exact ⟨hresolve.trans hretain, hretain.serves hserves⟩

/-- A move that has looked for its scene starts no further load. -/
theorem SceneOutcome.proceeds {request : MoveRequest} {zone : ZoneSummary}
    {resolution : Resolution CacheKey Bundle} {realm realm' : Realm} {flight : Option Flight}
    (outcome : SceneOutcome request zone resolution realm flight realm')
    (h : realm.world.cache.SingleFlight)
    (hserves : realm.world.cache.Serves (.scene request.target.scene) resolution) :
    Proceeds 0 realm flight realm' := by
  cases outcome with
  | waits load =>
    refine ⟨⟨0, .refl h, Nat.le_refl _⟩, fun parked hparked => ?_⟩
    cases hparked
    exact hserves.enlists load
  | missing => exact .answered (starts_finish request realm h _ _)
  | @refused _ model _ world _ _ commit =>
    have hentry := request.commit_outcome realm.world zone model
    rw [commit] at hentry
    have hcommit := h.starts_of_recounts (hentry.recounts h.sound)
    exact .answered (hcommit.trans
      (starts_finish request { realm with world := world } hcommit.single _ _))
  | @entered _ model _ world _ _ commit =>
    have hentry := request.commit_outcome realm.world zone model
    rw [commit] at hentry
    have hcommit := h.starts_of_recounts (hentry.recounts h.sound)
    refine .answered ?_
    rw [Realm.cache_announce]
    exact hcommit.trans
      (starts_finish request { realm with world := world } hcommit.single _ _)

/-- A move that has looked for its zone starts one further load at most. -/
theorem ZoneOutcome.proceeds {request : MoveRequest} {resolution : Resolution CacheKey Bundle}
    {realm realm' : Realm} {flight : Option Flight}
    (outcome : ZoneOutcome request resolution realm flight realm')
    (h : realm.world.cache.SingleFlight)
    (hserves : realm.world.cache.Serves (.zone request.target.zone) resolution) :
    Proceeds 1 realm flight realm' := by
  cases outcome with
  | waits load =>
    refine ⟨⟨0, .refl h, Nat.le_refl _⟩, fun parked hparked => ?_⟩
    cases hparked
    exact hserves.enlists load
  | missing => exact .answered (starts_finish request realm h _ _)
  | bodyless => exact .answered (starts_finish request realm h _ _)
  | @vetoed _ summary body =>
    exact .answered (starts_finish request (realm.ratify body summary).2 h _ _)
  | @admitted _ summary body _ _ _ _ _ _ scene =>
    obtain ⟨hacquire, hscene⟩ := starts_acquire (realm.ratify body summary).2 h
      (.scene request.target.scene)
    obtain ⟨⟨count, hstarts, hcount⟩, hwaits⟩ := scene.proceeds hacquire.single hscene
    exact ⟨⟨1 + count, hacquire.trans hstarts, by omega⟩, hwaits⟩

/-- A move that is taken on has answered, or waits for the next load that it needs. -/
theorem step_proceeds {flight : Flight} {parked : Option Flight} {realm realm' : Realm}
    (h : realm.world.cache.SingleFlight)
    (hserves : realm.world.cache.Serves flight.key flight.resolution)
    (hstep : flight.step realm = (parked, realm')) :
    Proceeds (toStart (some flight)) realm parked realm' := by
  obtain ⟨request, stage⟩ := flight
  cases stage with
  | resolvingZone resolution =>
    have outcome := stepZone_outcome request resolution realm
    rw [show stepZone request resolution realm = _ from hstep] at outcome
    exact outcome.proceeds h hserves
  | resolvingScene zone resolution =>
    have outcome := stepScene_outcome request zone resolution realm
    rw [show stepScene request zone resolution realm = _ from hstep] at outcome
    exact outcome.proceeds h hserves

/-- A move that is begun has answered, or waits for one of the two loads that it needs. -/
theorem launch_proceeds {request : MoveRequest} {parked : Option Flight} {realm realm' : Realm}
    (h : realm.world.cache.SingleFlight) (hlaunch : launch request realm = (parked, realm')) :
    Proceeds 2 realm parked realm' := by
  obtain ⟨hacquire, hserves⟩ := starts_acquire realm h (.zone request.target.zone)
  have outcome : ZoneOutcome request (realm.acquire (.zone request.target.zone)).1
      (realm.acquire (.zone request.target.zone)).2 (launch request realm).1
      (launch request realm).2 := stepZone_outcome _ _ _
  rw [hlaunch] at outcome
  dsimp only at outcome
  obtain ⟨⟨count, hstarts, hcount⟩, hwaits⟩ := outcome.proceeds hacquire.single hserves
  exact ⟨⟨1 + count, hacquire.trans hstarts, by omega⟩, hwaits⟩

end Flight

/-! ## The moves of all bodies -/

namespace Pipeline

variable {pipeline after : Pipeline} {realm realm' : Realm} {cache cache' : Cache CacheKey Bundle}
  {entity : EntityId} {due due' : EntityId → Prop}

/-- Every move under way has what it waits for, or is on the list of those who will be told. Only
those of the bodies that are due can have it. -/
structure Attended (due : EntityId → Prop) (pipeline : Pipeline) (cache : Cache CacheKey Bundle) :
    Prop where
  serves : ∀ {entity flight}, pipeline.inFlight.get? entity = some flight →
    cache.Serves flight.key flight.resolution
  waits : ∀ {entity flight}, pipeline.inFlight.get? entity = some flight → ¬ due entity →
    cache.Enlists flight.key flight.resolution

/-- How many loads there can still be to settle: those that are outstanding, and those that moves
under way and requests behind them can start. -/
def backlog (pipeline : Pipeline) (cache : Cache CacheKey Bundle) : Nat :=
  cache.outstanding.length + pipeline.inFlight.values.countP Flight.awaitsZone +
    2 * pipeline.queued.values.flatten.length

/-- The same while the requests of a body are worked off. -/
def backlogBesides (pipeline : Pipeline) (entity : EntityId) (requests : List MoveRequest)
    (cache : Cache CacheKey Bundle) : Nat :=
  cache.outstanding.length + pipeline.inFlight.values.countP Flight.awaitsZone +
    2 * ((pipeline.queued.erase entity).values.flatten.length + requests.length)

/-- Moves stay attended to when more of them are due. -/
theorem Attended.mono (h : pipeline.Attended due cache)
    (hdue : ∀ {entity flight}, pipeline.inFlight.get? entity = some flight → due entity →
      due' entity) : pipeline.Attended due' cache where
  serves := h.serves
  waits hflight hother := h.waits hflight fun hthis => hother (hdue hflight hthis)

/-- Moves are attended to while loads are started. -/
theorem Attended.starts {count : Nat} (h : pipeline.Attended due cache)
    (hstarts : Cache.Starts count cache cache') : pipeline.Attended due cache' where
  serves hflight := hstarts.serves (h.serves hflight)
  waits hflight hother := hstarts.enlists (h.waits hflight hother)

/-- A move that is on the list is put under way. -/
theorem Attended.insert (h : pipeline.Attended due cache) {flight : Flight}
    (hflight : cache.Enlists flight.key flight.resolution)
    (hafter : after.inFlight = pipeline.inFlight.insert entity flight) :
    after.Attended (fun other => due other ∧ other ≠ entity) cache where
  serves {other flight'} hget := by
    rw [hafter, Table.get?_insert_eq_some_iff] at hget
    rcases hget with ⟨-, rfl⟩ | ⟨-, hold⟩
    · exact .enlisted hflight
    · exact h.serves hold
  waits {other flight'} hget hother := by
    rw [hafter, Table.get?_insert_eq_some_iff] at hget
    rcases hget with ⟨-, rfl⟩ | ⟨hne, hold⟩
    · exact hflight
    · exact h.waits hold fun hdue => hother ⟨hdue, hne⟩

/-- A move that has answered is not under way any more. -/
theorem Attended.erase (h : pipeline.Attended due cache)
    (hafter : after.inFlight = pipeline.inFlight.erase entity) :
    after.Attended (fun other => due other ∧ other ≠ entity) cache where
  serves {other flight} hget := by
    rw [hafter, Table.get?_erase_eq_some_iff] at hget
    exact h.serves hget.2
  waits {other flight} hget hother := by
    rw [hafter, Table.get?_erase_eq_some_iff] at hget
    exact h.waits hget.2 fun hdue => hother ⟨hdue, hget.1⟩

/-- Putting a move under way counts it among those that wait for their zones, if it does. -/
theorem countP_insert (inFlight : Table EntityId Flight) (entity : EntityId) (flight : Flight) :
    (inFlight.insert entity flight).values.countP Flight.awaitsZone =
      (inFlight.erase entity).values.countP Flight.awaitsZone + Flight.toStart (some flight) := by
  rw [(Table.values_insert inFlight entity flight).countP_eq, List.countP_cons]
  rfl

/-- The moves that still wait for their zones are that of one body and those of the others. -/
theorem countP_erase (inFlight : Table EntityId Flight) (entity : EntityId) :
    inFlight.values.countP Flight.awaitsZone =
      (inFlight.erase entity).values.countP Flight.awaitsZone +
        Flight.toStart (inFlight.get? entity) := by
  rw [(inFlight.values_perm entity).countP_eq, List.countP_append, Nat.add_comm]
  cases inFlight.get? entity with
  | none => rfl
  | some flight =>
    rw [Option.toList_some, List.countP_singleton]
    rfl

/-- The queued requests are those of one body and those of the others. -/
theorem length_queued (pipeline : Pipeline) (entity : EntityId) :
    pipeline.queued.values.flatten.length =
      (pipeline.queued.erase entity).values.flatten.length + (pipeline.queueOf entity).length := by
  rw [(pipeline.queued.values_perm entity).flatten.length_eq, List.flatten_append,
    List.length_append, Nat.add_comm, queueOf]
  cases pipeline.queued.get? entity with
  | none => rfl
  | some queue => simp

/-- The moves are attended to, of those that are due all can have what they wait for, and at most
`bound` loads can still come. -/
structure Kept (due : EntityId → Prop) (bound : Nat) (pipeline : Pipeline) (realm : Realm) :
    Prop where
  single : realm.world.cache.SingleFlight
  attended : pipeline.Attended due realm.world.cache
  bounded : pipeline.backlog realm.world.cache ≤ bound

/-- The same while the requests of a body are worked off. -/
structure Works (due : EntityId → Prop) (bound : Nat) (entity : EntityId)
    (requests : List MoveRequest) (pipeline : Pipeline) (realm : Realm) : Prop where
  single : realm.world.cache.SingleFlight
  attended : pipeline.Attended due realm.world.cache
  free : pipeline.inFlight.get? entity = none
  bounded : pipeline.backlogBesides entity requests realm.world.cache ≤ bound

variable {bound : Nat} {flight flight' : Flight} {request : MoveRequest}
  {requests rest : List MoveRequest}

/-- Moves stay kept when more of them are due. -/
theorem Kept.mono (h : Kept due bound pipeline realm)
    (hdue : ∀ {entity flight}, pipeline.inFlight.get? entity = some flight → due entity →
      due' entity) : Kept due' bound pipeline realm :=
  ⟨h.single, h.attended.mono hdue, h.bounded⟩

/-- A move that still waits is due no more. -/
theorem Kept.waits (h : Kept due bound pipeline realm)
    (hflight : pipeline.inFlight.get? entity = some flight)
    (hstep : flight.step realm = (some flight', realm')) :
    Kept (fun other => due other ∧ other ≠ entity) bound
      { pipeline with inFlight := pipeline.inFlight.insert entity flight' } realm' := by
  obtain ⟨⟨count, hstarts, hcount⟩, hwaits⟩ :=
    Flight.step_proceeds h.single (h.attended.serves hflight) hstep
  refine ⟨hstarts.single, (h.attended.starts hstarts).insert (hwaits flight' rfl) rfl, ?_⟩
  have hbounded := h.bounded
  have hloads := hstarts.outstanding
  have hbefore := countP_erase pipeline.inFlight entity
  rw [hflight] at hbefore
  dsimp only [backlog] at hbounded ⊢
  rw [countP_insert]
  omega

/-- A move that has answered makes room for those behind it. -/
theorem Kept.answers (h : Kept due bound pipeline realm)
    (hflight : pipeline.inFlight.get? entity = some flight)
    (hstep : flight.step realm = (none, realm')) :
    Works (fun other => due other ∧ other ≠ entity) bound entity (pipeline.queueOf entity)
      { pipeline with inFlight := pipeline.inFlight.erase entity } realm' := by
  obtain ⟨⟨count, hstarts, hcount⟩, -⟩ :=
    Flight.step_proceeds h.single (h.attended.serves hflight) hstep
  refine ⟨hstarts.single, (h.attended.starts hstarts).erase rfl, Table.get?_erase_self _ _, ?_⟩
  have hbounded := h.bounded
  have hloads := hstarts.outstanding
  have hbefore := countP_erase pipeline.inFlight entity
  have hqueued := pipeline.length_queued entity
  rw [hflight] at hbefore
  dsimp only [backlog, backlogBesides] at hbounded ⊢
  omega

/-- A request that is answered at once makes room for those behind it. -/
theorem Works.passes (h : Works due bound entity (request :: rest) pipeline realm)
    (hlaunch : Flight.launch request realm = (none, realm')) :
    Works due bound entity rest pipeline realm' := by
  obtain ⟨⟨count, hstarts, hcount⟩, -⟩ := Flight.launch_proceeds h.single hlaunch
  refine ⟨hstarts.single, h.attended.starts hstarts, h.free, ?_⟩
  have hbounded := h.bounded
  have hloads := hstarts.outstanding
  dsimp only [backlogBesides, List.length_cons] at hbounded ⊢
  omega

/-- A request that has to wait becomes the move of its body. -/
theorem Works.parks (h : Works due bound entity (request :: rest) pipeline realm)
    (hlaunch : Flight.launch request realm = (some flight, realm')) :
    Kept due bound { pipeline.setQueue entity rest with
      inFlight := pipeline.inFlight.insert entity flight } realm' := by
  obtain ⟨⟨count, hstarts, hcount⟩, hwaits⟩ := Flight.launch_proceeds h.single hlaunch
  have hattended : Pipeline.Attended (fun other => due other ∧ other ≠ entity)
      { pipeline.setQueue entity rest with
        inFlight := pipeline.inFlight.insert entity flight } realm'.world.cache :=
    (h.attended.starts hstarts).insert (hwaits flight rfl) rfl
  refine ⟨hstarts.single, hattended.mono fun _ hdue => hdue.1, ?_⟩
  have hbounded := h.bounded
  have hloads := hstarts.outstanding
  have hbefore := countP_erase pipeline.inFlight entity
  rw [h.free] at hbefore
  have hqueued := (pipeline.setQueue entity rest).length_queued entity
  rw [erase_setQueue, queueOf_setQueue, if_pos rfl] at hqueued
  dsimp only [backlog, backlogBesides, List.length_cons] at hbounded ⊢
  rw [countP_insert]
  omega

/-- There is no request left. -/
theorem Works.rests (h : Works due bound entity [] pipeline realm) :
    Kept due bound (pipeline.setQueue entity []) realm := by
  refine ⟨h.single, ⟨h.attended.serves, h.attended.waits⟩, ?_⟩
  have hbounded := h.bounded
  have hqueued := (pipeline.setQueue entity []).length_queued entity
  rw [erase_setQueue, queueOf_setQueue, if_pos rfl] at hqueued
  rw [backlogBesides] at hbounded
  rw [backlog, hqueued]
  exact hbounded

/-- Taking a move on starts no more loads than it can, and leaves nobody unlisted. -/
theorem kept_invariant (due : EntityId → Prop) (bound : Nat) :
    Pipeline.Invariant (Kept due bound) (Works due bound) where
  waits h hflight hstep := (h.waits hflight hstep).mono fun _ hdue => hdue.1
  answers h hflight hstep := by
    have hanswered := h.answers hflight hstep
    exact ⟨hanswered.single, hanswered.attended.mono fun _ hdue => hdue.1, hanswered.free,
      hanswered.bounded⟩
  passes h hlaunch := h.passes hlaunch
  parks h hlaunch := h.parks hlaunch
  rests h := h.rests

/-- A body whose move was taken on is due no more. -/
theorem Kept.advanceBody (h : Kept due bound pipeline realm) (entity : EntityId) :
    Kept (fun other => due other ∧ other ≠ entity) bound (pipeline.advanceBody realm entity).2.1
      (pipeline.advanceBody realm entity).2.2 := by
  unfold Pipeline.advanceBody
  cases hflight : pipeline.inFlight.get? entity with
  | none =>
    refine h.mono fun {other flight} hother hdue => ⟨hdue, ?_⟩
    rintro rfl
    cases hflight.symm.trans hother
  | some flight =>
    dsimp only
    cases hstep : flight.step realm with
    | mk flight' realm' =>
      cases flight' with
      | some flight' => exact h.waits hflight hstep
      | none =>
        have hstart := (kept_invariant _ bound).start (h.answers hflight hstep)
        exact hstart

/-- The moves are kept when some of them are taken on, and these are due no more. -/
theorem Kept.advanceIn (h : Kept due bound pipeline realm) (bodies : List EntityId) :
    Kept (fun other => due other ∧ other ∉ bodies) bound (pipeline.advanceIn realm bodies).2.1
      (pipeline.advanceIn realm bodies).2.2 := by
  induction bodies generalizing pipeline realm due with
  | nil => exact h.mono fun _ hdue => ⟨hdue, List.not_mem_nil⟩
  | cons entity rest ih =>
    refine (ih (h.advanceBody entity)).mono fun _ hdue => ⟨hdue.1.1, ?_⟩
    rw [List.mem_cons, not_or]
    exact ⟨hdue.1.2, hdue.2⟩

/-- A request that is begun is answered, queued, or on the list of those who will be told. -/
theorem Kept.begin (h : Kept due bound pipeline realm) (request : MoveRequest) :
    Kept due (bound + 2) (pipeline.begin realm request).1 (pipeline.begin realm request).2 := by
  have hbounded := h.bounded
  have hqueued := pipeline.length_queued request.entity
  rw [backlog] at hbounded
  refine (kept_invariant due (bound + 2)).begin request
    ⟨h.single, ⟨h.attended.serves, h.attended.waits⟩, ?_⟩
    fun hidle => ⟨h.single, h.attended, hidle, ?_⟩
  · have hlonger := (pipeline.setQueue request.entity
      (pipeline.queueOf request.entity ++ [request])).length_queued request.entity
    rw [erase_setQueue, queueOf_setQueue, if_pos rfl, List.length_append,
      List.length_singleton] at hlonger
    dsimp only [backlog]
    rw [hlonger]
    change _ + pipeline.inFlight.values.countP _ + _ ≤ _
    omega
  · rw [backlogBesides, List.length_cons]
    omega

end Pipeline

/-! ## The rounds of a tick -/

namespace Simulation

variable {simulation : Simulation} {due : EntityId → Prop} {bound : Nat}

/-- The moves of a simulation are attended to. -/
def Kept (due : EntityId → Prop) (bound : Nat) (simulation : Simulation) : Prop :=
  Pipeline.Kept due bound simulation.pipeline simulation.realm

/-- A tick has one round more than loads can come. -/
theorem settlingRounds_eq (simulation : Simulation) :
    simulation.settlingRounds = simulation.pipeline.backlog simulation.world.cache + 1 := by
  simp only [settlingRounds, Pipeline.backlog, Cache.outstanding, List.length_append,
    List.length_map]
  rfl

/-- Settling outcomes makes every move due. As many loads fewer are outstanding. -/
theorem Kept.maintain (h : simulation.Kept due bound) :
    ∃ fewer, simulation.maintain.1 + fewer = bound ∧
      simulation.maintain.2.Kept (fun _ => True) fewer := by
  have hbounded : simulation.pipeline.backlog simulation.world.cache ≤ bound := h.bounded
  have hsplit : simulation.maintain.1 +
      simulation.pipeline.backlog simulation.world.cache.maintain.2 =
        simulation.pipeline.backlog simulation.world.cache := by
    rw [Pipeline.backlog, Pipeline.backlog, Cache.outstanding_maintain, Cache.outstanding,
      List.length_append, List.length_map]
    change simulation.world.cache.arrived.length + _ = _
    omega
  refine ⟨bound - simulation.maintain.1, by omega, h.single.maintain, ⟨fun hflight => ?_,
    fun _ hdue => absurd trivial hdue⟩, ?_⟩
  · exact h.single.serves_maintain (h.attended.serves hflight)
  · change simulation.pipeline.backlog simulation.world.cache.maintain.2 ≤ _
    omega

/-- Taking every move on leaves none that is due. -/
theorem Kept.advance (h : simulation.Kept due bound) :
    simulation.advance.2.Kept (fun _ => False) bound := by
  have hkeys : Pipeline.Kept (· ∈ simulation.pipeline.inFlight.keys) bound simulation.pipeline
      simulation.realm :=
    Pipeline.Kept.mono h fun hflight _ =>
      List.mem_map_of_mem (f := (·.1)) (Table.get?_eq_some_iff.mp hflight)
  exact (hkeys.advanceIn simulation.pipeline.inFlight.keys).mono
    fun _ hdue => hdue.2 hdue.1

/-- Without an outcome to settle, the rounds are over. -/
theorem settleWithin_of_none (h : simulation.world.cache.arrived = []) (rounds : Nat) :
    settleWithin rounds simulation = simulation := by
  have hcache := Cache.maintain_of_none h
  cases rounds with
  | zero => rfl
  | succ rounds =>
    simp only [settleWithin, maintain, hcache]
    rfl

/-- A round settles what has arrived and takes the moves on. -/
theorem settleWithin_of_some (h : simulation.world.cache.arrived ≠ []) (rounds : Nat) :
    settleWithin (rounds + 1) simulation = settleWithin rounds simulation.maintain.2.advance.2 := by
  cases hmaintain : simulation.maintain with
  | mk count settled =>
    cases count with
    | zero => exact absurd (List.length_eq_zero_iff.mp (congrArg Prod.fst hmaintain)) h
    | succ count => simp only [settleWithin, hmaintain]

/-- Within as many rounds as loads can come, every outcome is settled and no move is left that can
go on. -/
theorem Kept.settleWithin {rounds : Nat} (h : simulation.Kept (fun _ => False) bound)
    (hrounds : bound < rounds) :
    (settleWithin rounds simulation).Kept (fun _ => False) bound ∧
      (settleWithin rounds simulation).world.cache.arrived = [] := by
  induction rounds generalizing simulation bound with
  | zero => exact absurd hrounds (Nat.not_lt_zero _)
  | succ rounds ih =>
    by_cases harrived : simulation.world.cache.arrived = []
    · rw [settleWithin_of_none harrived]
      exact ⟨h, harrived⟩
    · have hsettled : 0 < simulation.maintain.1 := List.length_pos_iff.mpr harrived
      obtain ⟨fewer, hfewer, hmaintained⟩ := h.maintain
      have hround := ih hmaintained.advance (by omega)
      rw [settleWithin_of_some harrived]
      exact ⟨⟨hround.1.single, hround.1.attended,
        Nat.le_trans hround.1.bounded (by omega)⟩, hround.2⟩

/-- The rounds of a tick settle every outcome and leave no move that can go on. -/
theorem Kept.settle (h : simulation.Kept (fun _ => False) bound) :
    simulation.settle.Kept (fun _ => False) bound ∧ simulation.settle.world.cache.arrived = [] := by
  have htight : simulation.Kept (fun _ => False)
      (simulation.pipeline.backlog simulation.world.cache) :=
    ⟨h.single, h.attended, Nat.le_refl _⟩
  have hsettled := htight.settleWithin
    (Nat.lt_of_lt_of_eq (Nat.lt_succ_self _) simulation.settlingRounds_eq.symm)
  exact ⟨⟨hsettled.1.single, hsettled.1.attended, Nat.le_trans hsettled.1.bounded h.bounded⟩,
    hsettled.2⟩

end Simulation

end SharedWorld
