import SharedWorld.Proofs.Occupancies
import SharedWorld.Proofs.Recounts
import SharedWorld.Proofs.Replies
import SharedWorld.Proofs.Waiters

/-!
# Where the replies to completed moves come from

The reply to a completed move was made when the move was committed, with a model of its target scene
(`Server.run_founded`). By then the entry that the model was loaded for may have been evicted or
loaded again; what a move was told of its scene is a model of that scene all the same, as its ticket
was never listed under another key (`Cache.Suits`).
-/

namespace SharedWorld

/-! ## What readers are told -/

namespace Cache

open Std

variable {κ π : Type} [Ord κ] {Fits : κ → π → Prop} {before middle after cache : Cache κ π}
  {key : κ} {resolution : Resolution κ π}

/-- A resolution of `key` brings no payload that does not fit the key, whatever has become of the
entry under `key`. -/
def Suits (Fits : κ → π → Prop) (cache : Cache κ π) (key : κ) : Resolution κ π → Prop
  | .settled outcome => ∀ payload, outcome = some (.loaded payload) → Fits key payload
  | .waiting _ ticket => ticket < cache.nextTicket ∧
    (∀ other, cache.Lists other ticket → other = key) ∧
    ∀ payload, cache.delivered.get? ticket = some (.loaded payload) → Fits key payload

/-- Payloads still fit their keys, and no reader is told of one that does not. -/
structure KeepsFit (Fits : κ → π → Prop) (before after : Cache κ π) : Prop where
  sound : after.Sound Fits
  suits : ∀ {key resolution}, before.Suits Fits key resolution → after.Suits Fits key resolution

/-- A resolution that suits a key brings nothing but what fits it. -/
theorem Suits.fits (h : cache.Suits Fits key resolution) {payload : π}
    (houtcome : resolution.outcome? cache = some (.loaded payload)) : Fits key payload := by
  cases resolution with
  | settled outcome => exact h payload houtcome
  | waiting other ticket => exact h.2.2 payload (delivered_of_outcome? houtcome)

/-- What the entry holds fits its key. -/
theorem Holds.suits (h : cache.Holds key resolution) (hsound : cache.Sound Fits) :
    cache.Suits Fits key resolution := by
  cases resolution with
  | settled outcome => exact fun payload heq => hsound.ready_fits (h payload heq)
  | waiting other ticket =>
    exact ⟨h.1, h.2.1, fun payload htold => hsound.ready_fits (h.2.2 payload htold)⟩

/-- Payloads are kept fitting step by step. -/
theorem KeepsFit.trans (first : KeepsFit Fits before middle) (rest : KeepsFit Fits middle after) :
    KeepsFit Fits before after :=
  ⟨rest.sound, fun h => rest.suits (first.suits h)⟩

/-- What lists no old ticket anew and delivers nothing tells no reader anything. -/
theorem Sound.keepsFit_of_lists (hsound : after.Sound Fits)
    (hlists : ∀ {other ticket}, ticket < before.nextTicket → after.Lists other ticket →
      before.Lists other ticket)
    (hnext : before.nextTicket ≤ after.nextTicket)
    (hdelivered : after.delivered = before.delivered) : KeepsFit Fits before after where
  sound := hsound
  suits {key resolution} h := by
    cases resolution with
    | settled outcome => exact h
    | waiting other ticket =>
      obtain ⟨hissued, honly, htold⟩ := h
      refine ⟨Nat.lt_of_lt_of_le hissued hnext,
        fun other hlist => honly other (hlists hissued hlist), fun payload hpayload => ?_⟩
      rw [hdelivered] at hpayload
      exact htold payload hpayload

/-- Taking references and giving them back keeps payloads fitting. -/
theorem Recounts.keepsFit (h : Recounts Fits before after) : KeepsFit Fits before after :=
  h.sound.keepsFit_of_lists (fun _ => (lists_congr (h.spares.waiters _)).mp)
    (Nat.le_of_eq h.spares.loads.nextTicket.symm) h.spares.delivered

/-- Reporting an outcome that fits its key keeps payloads fitting. -/
theorem Sound.keepsFit_report [DecidableEq κ] (h : cache.Sound Fits) {outcome : LoadOutcome π}
    (hfits : ∀ payload, outcome = .loaded payload → Fits key payload) :
    KeepsFit Fits cache (cache.report key outcome).2 := by
  have hreaders := (cache.report_reports key outcome).readers
  exact (h.report hfits).1.keepsFit_of_lists (fun _ => (lists_congr (hreaders.waiters? _)).mp)
    (Nat.le_of_eq hreaders.nextTicket.symm) hreaders.delivered

section

variable [DecidableEq κ] [TransOrd κ] [LawfulEqOrd κ]

/-- Who resolves a key will be told what fits it, and nobody else is told anything. -/
theorem Sound.keepsFit_resolve (h : cache.Sound Fits) (key : κ) :
    KeepsFit Fits cache (cache.resolve key).2 ∧
      (cache.resolve key).2.Suits Fits key (cache.resolve key).1 := by
  have hresolved := h.resolve key
  have outcome := cache.resolve_outcome key
  exact ⟨hresolved.sound.keepsFit_of_lists (fun hissued => (outcome.lists_iff hissued _).mp)
    outcome.nextTicket_le outcome.delivered_eq, hresolved.holds.suits hresolved.sound⟩

/-- Those who wait for a key are told what was loaded for it. -/
theorem Sound.keepsFit_settle (h : cache.Sound Fits) {name : κ} {outcome : LoadOutcome π}
    (hfits : ∀ payload, outcome = .loaded payload → Fits name payload) :
    KeepsFit Fits cache (cache.settle name outcome) where
  sound := (h.settle hfits).1
  suits {key resolution} hsuits := by
    cases resolution with
    | settled outcome => exact hsuits
    | waiting other ticket =>
      obtain ⟨hissued, honly, htold⟩ := hsuits
      rw [← (settle_sameLoads cache name outcome).nextTicket] at hissued
      refine ⟨hissued, fun other hlist => ?_, fun payload hpayload => ?_⟩
      · exact honly other ((h.lists_settle name outcome other).mp hlist).2
      rw [get?_delivered_settle] at hpayload
      by_cases hmem : ticket ∈ (cache.waiters? name).getD []
      · rw [if_pos hmem] at hpayload
        obtain ⟨waiters, hwaiters⟩ : ∃ waiters, cache.waiters? name = some waiters := by
          cases hwaiters : cache.waiters? name with
          | none =>
            rw [hwaiters] at hmem
            cases hmem
          | some waiters => exact ⟨waiters, rfl⟩
        rw [hwaiters] at hmem
        rw [← honly name (lists_iff_exists.mpr ⟨waiters, hwaiters, hmem⟩)]
        exact hfits payload (Option.some.inj hpayload)
      · rw [if_neg hmem] at hpayload
        exact htold payload hpayload

/-- Settling what arrived first keeps payloads fitting. -/
theorem Sound.keepsFit_settleNext (h : cache.Sound Fits) :
    KeepsFit Fits cache cache.settleNext := by
  unfold Cache.settleNext
  cases harrived : cache.arrived with
  | nil => exact h.recounts_refl.keepsFit
  | cons arrival rest =>
    obtain ⟨hpopped, hfits⟩ := h.popArrived harrived
    have hsettled := hpopped.keepsFit_settle hfits
    exact ⟨hsettled.sound, fun hsuits => hsettled.suits hsuits⟩

end

end Cache

/-! ## Replies and commits -/

/-- The reply is the one to a commit of the move with the given model of its target scene. -/
def MoveRequest.Commits (move : MoveRequest) (model : SceneModel) (reply : MoveReply) : Prop :=
  model.scene = move.target.scene ∧
    ∃ world zone after, move.commit world zone model = (.success (.moved reply), after)

/-- If the effect replies to a completed move, one of the moves that were asked for was
committed. -/
def Effect.Backed (asked : MoveRequest → Prop) (effect : Effect) : Prop :=
  ∀ listener reply, effect = .answer listener (.success (.moved reply)) →
    ∃ move, asked move ∧ move.listener = listener ∧ ∃ model, move.Commits model reply

/-- Between the worlds no reader was told what does not fit, and no completed move was replied to
that was not committed. -/
structure World.Backs (asked : MoveRequest → Prop) (before after : World) : Prop where
  keepsFit : before.cache.KeepsFit CacheKey.Names after.cache
  backed : (∀ effect ∈ before.effects, effect.Backed asked) →
    ∀ effect ∈ after.effects, effect.Backed asked

variable {asked : MoveRequest → Prop}

/-- A failure needs no backing. -/
theorem Effect.backed_failure (asked : MoveRequest → Prop) (listener : Listener) (fault : Fault) :
    (Effect.answer listener (.failure fault)).Backed asked := nofun

/-- An acknowledgement needs no backing. -/
theorem Effect.backed_ack (asked : MoveRequest → Prop) (listener : Listener) :
    (Effect.answer listener (.success .ack)).Backed asked := nofun

/-- A move that was told of a model of its scene is replied to as it was committed. -/
theorem MoveRequest.backed_commit {request : MoveRequest} (hasked : asked request)
    {world after : World} {zone : ZoneSummary} {model : SceneModel}
    (hscene : model.scene = request.target.scene)
    {reply : Reply} (hcommit : request.commit world zone model = (.success reply, after)) :
    (Effect.answer request.listener (.success reply)).Backed asked := by
  rintro listener moved heq
  cases heq
  exact ⟨request, hasked, rfl, model, hscene, world, zone, after, hcommit⟩

namespace World

variable {before after world : World}

/-- Replies are backed step by step. -/
theorem Backs.trans {middle : World} (first : Backs asked before middle)
    (rest : Backs asked middle after) : Backs asked before after :=
  ⟨first.keepsFit.trans rest.keepsFit, fun h => rest.backed (first.backed h)⟩

/-- No reply is given by working on the cache. -/
theorem backs_cache (world : World) {cache : Cache CacheKey Bundle}
    (h : world.cache.KeepsFit CacheKey.Names cache) (changes : List BodyChange) :
    Backs asked world { world with cache := cache, changes := changes } := ⟨h, id⟩

/-- No reply is given by doing nothing. -/
theorem backs_refl (h : world.cache.Sound CacheKey.Names) : Backs asked world world :=
  ⟨h.recounts_refl.keepsFit, id⟩

/-- Recording an effect that is backed leaves the replies backed. -/
theorem backs_record (h : world.cache.Sound CacheKey.Names) {effect : Effect}
    (hbacked : effect.Backed asked) : Backs asked world (world.record effect) where
  keepsFit := h.recounts_refl.keepsFit
  backed hbefore other hother := by
    rcases List.mem_append.mp hother with hold | hnew
    · exact hbefore other hold
    · rw [List.mem_singleton.mp hnew]
      exact hbacked

/-- A message about occupants replies to nothing. -/
theorem Notifies.backs (h : before.Notifies after)
    (hrecounts : before.cache.Recounts CacheKey.Names after.cache) : Backs asked before after where
  keepsFit := hrecounts.keepsFit
  backed hbefore effect hmem := by
    obtain ⟨notices, heffects, hnotices⟩ := h
    rw [heffects] at hmem
    rcases List.mem_append.mp hmem with hold | hnew
    · exact hbefore effect hold
    · obtain ⟨recipient, place, delta, rfl⟩ := hnotices effect hnew
      exact nofun

/-- No reply is given by leaving a place. -/
theorem backs_leavePlace (h : world.cache.Sound CacheKey.Names) (entity : EntityId) :
    Backs asked world (world.leavePlace entity).2 :=
  have outcome := leavePlace_outcome world entity
  outcome.notifies.backs (outcome.recounts h)

end World

/-! ## One move -/

/-- What a move that has got to its scene is told of it is a model of that scene. -/
def Flight.Suited (cache : Cache CacheKey Bundle) (flight : Flight) : Prop :=
  match flight.stage with
  | .resolvingZone _ => True
  | .resolvingScene _ resolution =>
    cache.Suits CacheKey.Names (.scene flight.request.target.scene) resolution

/-- What a move waits for keeps suiting it. -/
theorem Cache.KeepsFit.suited {before after : Cache CacheKey Bundle} {flight : Flight}
    (h : before.KeepsFit CacheKey.Names after) (hflight : flight.Suited before) :
    flight.Suited after := by
  obtain ⟨request, stage⟩ := flight
  cases stage with
  | resolvingZone resolution => trivial
  | resolvingScene zone resolution => exact h.suits hflight

/-- Finishing a move with an answer that is backed leaves the replies backed. -/
theorem MoveRequest.backs_finish (request : MoveRequest) (realm : Realm)
    (h : realm.world.cache.Sound CacheKey.Names) (held : List CacheKey) {answer : Answer}
    (hanswer : (Effect.answer request.listener answer).Backed asked) :
    World.Backs asked realm.world (request.finish realm held answer).world := by
  have hrecord := World.backs_record h hanswer
  rw [finish, World.foldl_release]
  exact hrecord.trans
    (World.backs_cache _ (hrecord.keepsFit.sound.recounts_releases held).keepsFit _)

/-- Going into a place tells its occupants only who is there. -/
theorem MoveRequest.backs_finish_commit {request : MoveRequest} {realm : Realm}
    (h : realm.world.cache.Sound CacheKey.Names) {zone : ZoneSummary} {model : SceneModel}
    {answer : Answer} {after : World}
    (hcommit : request.commit realm.world zone model = (answer, after))
    (hanswer : (Effect.answer request.listener answer).Backed asked) (held : List CacheKey) :
    World.Backs asked realm.world
      (request.finish { realm with world := after } held answer).world := by
  have hentry := request.commit_outcome realm.world zone model
  rw [hcommit] at hentry
  have hentered : World.Backs asked realm.world after := hentry.notifies.backs (hentry.recounts h)
  exact hentered.trans (request.backs_finish { realm with world := after } hentered.keepsFit.sound
    held hanswer)

namespace Realm

variable {realm : Realm}

/-- No reply is given by calling a policy. -/
theorem backs_consult (h : realm.world.cache.Sound CacheKey.Names) (zone : ZoneId)
    (call : PolicyCall) : World.Backs asked realm.world (realm.consult zone call).world :=
  World.backs_record h nofun

/-- No reply is given by telling a policy of a body. -/
theorem backs_announce (h : realm.world.cache.Sound CacheKey.Names) (entity : EntityId)
    (zone : ZoneId) : World.Backs asked realm.world (realm.announce entity zone).world := by
  unfold announce
  split
  · exact backs_consult h zone _
  · exact World.backs_refl h

/-- A key that is resolved brings a resolution that suits it. -/
theorem backs_acquire (asked : MoveRequest → Prop)
    (h : realm.world.cache.Sound CacheKey.Names) (key : CacheKey) :
    World.Backs asked realm.world (realm.acquire key).2.world ∧
      (realm.acquire key).2.world.cache.Suits CacheKey.Names key (realm.acquire key).1 := by
  obtain ⟨hresolve, hsuits⟩ := h.keepsFit_resolve key
  have hretain := (hresolve.sound.recounts_retain key).keepsFit
  exact ⟨realm.world.backs_cache (hresolve.trans hretain) _, hretain.suits hsuits⟩

end Realm

namespace Flight

variable {request : MoveRequest} {resolution : Resolution CacheKey Bundle} {realm realm' : Realm}
  {flight : Option Flight}

/-- The reply to a move that has looked for its scene is backed. -/
theorem SceneOutcome.backs {zone : ZoneSummary}
    (outcome : SceneOutcome request zone resolution realm flight realm') (hasked : asked request)
    (h : realm.world.cache.Sound CacheKey.Names)
    (hsuits : realm.world.cache.Suits CacheKey.Names (.scene request.target.scene) resolution) :
    World.Backs asked realm.world realm'.world ∧
      ∀ parked ∈ flight, parked.Suited realm'.world.cache := by
  cases outcome with
  | waits =>
    refine ⟨World.backs_refl h, fun parked hparked => ?_⟩
    cases hparked
    exact hsuits
  | missing => exact ⟨request.backs_finish realm h _ (Effect.backed_failure _ _ _), nofun⟩
  | refused load scene commit =>
    exact ⟨MoveRequest.backs_finish_commit h commit (Effect.backed_failure _ _ _) _, nofun⟩
  | entered load scene commit =>
    rw [LoadOutcome.eq_of_asScene scene] at load
    have hanswer := MoveRequest.backed_commit hasked (hsuits.fits load _ _ rfl rfl) commit
    have hfinish := MoveRequest.backs_finish_commit h commit hanswer request.keys
    exact ⟨hfinish.trans (Realm.backs_announce hfinish.keepsFit.sound _ _), nofun⟩

/-- The reply to a move that has looked for its zone is backed. -/
theorem ZoneOutcome.backs (outcome : ZoneOutcome request resolution realm flight realm')
    (hasked : asked request) (h : realm.world.cache.Sound CacheKey.Names) :
    World.Backs asked realm.world realm'.world ∧
      ∀ parked ∈ flight, parked.Suited realm'.world.cache := by
  cases outcome with
  | waits =>
    refine ⟨World.backs_refl h, fun parked hparked => ?_⟩
    cases hparked
    trivial
  | missing => exact ⟨request.backs_finish realm h _ (Effect.backed_failure _ _ _), nofun⟩
  | bodyless => exact ⟨request.backs_finish realm h _ (Effect.backed_failure _ _ _), nofun⟩
  | @vetoed _ summary body =>
    have hratify : World.Backs asked realm.world (realm.ratify body summary).2.world :=
      Realm.backs_consult h summary.zone _
    exact ⟨hratify.trans (request.backs_finish _ hratify.keepsFit.sound _
      (Effect.backed_failure _ _ _)), nofun⟩
  | @admitted _ summary body _ _ _ _ _ _ scene =>
    have hratify : World.Backs asked realm.world (realm.ratify body summary).2.world :=
      Realm.backs_consult h summary.zone _
    obtain ⟨hacquire, hsuits⟩ :=
      Realm.backs_acquire asked hratify.keepsFit.sound (.scene request.target.scene)
    obtain ⟨hscene, hparked⟩ := scene.backs hasked hacquire.keepsFit.sound hsuits
    exact ⟨(hratify.trans hacquire).trans hscene, hparked⟩

/-- The reply to a move that is taken on is backed, and what it waits for suits it. -/
theorem step_backs {flight : Flight} (hasked : asked flight.request)
    (h : realm.world.cache.Sound CacheKey.Names) (hsuited : flight.Suited realm.world.cache) :
    World.Backs asked realm.world (flight.step realm).2.world ∧
      ∀ parked ∈ (flight.step realm).1, parked.Suited (flight.step realm).2.world.cache := by
  obtain ⟨request, stage⟩ := flight
  cases stage with
  | resolvingZone resolution => exact (stepZone_outcome request resolution realm).backs hasked h
  | resolvingScene zone resolution =>
    exact (stepScene_outcome request zone resolution realm).backs hasked h hsuited

/-- The reply to a move that begins is backed, and what it waits for suits it. -/
theorem launch_backs (hasked : asked request) (h : realm.world.cache.Sound CacheKey.Names) :
    World.Backs asked realm.world (launch request realm).2.world ∧
      ∀ parked ∈ (launch request realm).1, parked.Suited (launch request realm).2.world.cache := by
  obtain ⟨hacquire, -⟩ := Realm.backs_acquire asked h (.zone request.target.zone)
  obtain ⟨hzone, hparked⟩ := (stepZone_outcome request _ _).backs hasked hacquire.keepsFit.sound
  exact ⟨hacquire.trans hzone, hparked⟩

end Flight

/-! ## The moves of all bodies -/

/-- Every move that was not answered was asked for, and was told only of its scene what is so. No
completed move was replied to that was not committed. -/
structure Pipeline.Founded (asked : MoveRequest → Prop) (pipeline : Pipeline) (world : World) :
    Prop where
  sound : world.cache.Sound CacheKey.Names
  moving : ∀ {entity flight}, pipeline.inFlight.get? entity = some flight →
    asked flight.request ∧ flight.Suited world.cache
  queued : ∀ {entity request}, request ∈ pipeline.queueOf entity → asked request
  backed : ∀ effect ∈ world.effects, effect.Backed asked

namespace Pipeline

variable {pipeline : Pipeline} {world after : World} {entity : EntityId} {flight : Flight}
  {requests : List MoveRequest}

/-- The moves under way stay founded while replies are backed. -/
theorem Founded.backs (h : pipeline.Founded asked world) (hbacks : World.Backs asked world after) :
    pipeline.Founded asked after where
  sound := hbacks.keepsFit.sound
  moving hget := ⟨(h.moving hget).1, hbacks.keepsFit.suited (h.moving hget).2⟩
  queued := h.queued
  backed := hbacks.backed h.backed

/-- The moves under way stay founded when one that was asked for joins them. -/
theorem Founded.insert (h : pipeline.Founded asked world) (hrequest : asked flight.request)
    (hsuited : flight.Suited world.cache) :
    Founded asked { pipeline with inFlight := pipeline.inFlight.insert entity flight } world where
  sound := h.sound
  moving hget := by
    rcases Table.get?_insert_eq_some_iff.mp hget with ⟨-, rfl⟩ | ⟨-, hold⟩
    · exact ⟨hrequest, hsuited⟩
    · exact h.moving hold
  queued := h.queued
  backed := h.backed

/-- The moves under way stay founded when one is taken out. -/
theorem Founded.erase (h : pipeline.Founded asked world) (entity : EntityId) :
    Founded asked { pipeline with inFlight := pipeline.inFlight.erase entity } world :=
  ⟨h.sound, fun hget => h.moving (Table.get?_erase_eq_some_iff.mp hget).2, h.queued, h.backed⟩

/-- The moves stay founded when requests that were asked for are queued. -/
theorem Founded.setQueue (h : pipeline.Founded asked world) (entity : EntityId)
    (hrequests : ∀ request ∈ requests, asked request) :
    (pipeline.setQueue entity requests).Founded asked world where
  sound := h.sound
  moving := h.moving
  queued hmem := by
    rw [queueOf_setQueue] at hmem
    split at hmem
    · exact hrequests _ hmem
    · exact h.queued hmem
  backed := h.backed

/-- The queue that is recorded while the requests of a body are worked off is out of date, but the
requests in it were asked for all the same. -/
theorem founded_invariant (asked : MoveRequest → Prop) :
    Pipeline.Invariant (fun pipeline realm => pipeline.Founded asked realm.world)
      (fun _ requests pipeline realm => pipeline.Founded asked realm.world ∧
        ∀ request ∈ requests, asked request) where
  waits {_ realm _ flight flight' _} h hflight hstep := by
    obtain ⟨hrequest, hsuited⟩ := h.moving hflight
    obtain ⟨hbacks, hparked⟩ := Flight.step_backs hrequest h.sound hsuited
    have hreplied := flight.step_replied realm
    rw [hstep] at hbacks hparked hreplied
    have hsame : flight'.request = flight.request := hreplied.1
    rw [← hsame] at hrequest
    exact (h.backs hbacks).insert hrequest (hparked flight' rfl)
  answers {_ realm entity flight _} h hflight hstep := by
    obtain ⟨hrequest, hsuited⟩ := h.moving hflight
    obtain ⟨hbacks, -⟩ := Flight.step_backs hrequest h.sound hsuited
    rw [hstep] at hbacks
    exact ⟨(h.backs hbacks).erase entity, fun _ hmem => h.queued hmem⟩
  passes {_ realm _ request _ _} := by
    rintro ⟨h, hrequests⟩ hlaunch
    obtain ⟨hbacks, -⟩ := Flight.launch_backs (hrequests request List.mem_cons_self) h.sound
    rw [hlaunch] at hbacks
    exact ⟨h.backs hbacks, fun other hother => hrequests other (List.mem_cons_of_mem _ hother)⟩
  parks {_ realm entity request _ flight _} := by
    rintro ⟨h, hrequests⟩ hlaunch
    have hrequest := hrequests request List.mem_cons_self
    obtain ⟨hbacks, hparked⟩ := Flight.launch_backs hrequest h.sound
    have hreplied := Flight.launch_replied request realm
    rw [hlaunch] at hbacks hparked hreplied
    have hsame : flight.request = request := hreplied.1
    have hrest := (h.backs hbacks).setQueue entity fun other hother =>
      hrequests other (List.mem_cons_of_mem _ hother)
    rw [← hsame] at hrequest
    exact hrest.insert hrequest (hparked flight rfl)
  rests h := h.1.setQueue _ nofun

/-- The moves stay founded when one that was asked for begins. -/
theorem Founded.begin {realm : Realm} (h : pipeline.Founded asked realm.world)
    {request : MoveRequest} (hrequest : asked request) :
    (pipeline.begin realm request).1.Founded asked (pipeline.begin realm request).2.world := by
  refine (founded_invariant asked).begin request (h.setQueue _ fun other hother => ?_)
    fun _ => ⟨h, fun other hother => ?_⟩
  · rcases List.mem_append.mp hother with hold | hnew
    · exact h.queued hold
    · rw [List.mem_singleton.mp hnew]
      exact hrequest
  · rcases List.mem_cons.mp hother with rfl | hold
    · exact hrequest
    · exact h.queued hold

end Pipeline

/-! ## The server -/

namespace Server

variable {server after : Server}

/-- All moves and all replies to completed moves, carried out or not, are founded. -/
structure Founded (asked : MoveRequest → Prop) (server : Server) : Prop where
  pipeline : server.simulation.pipeline.Founded asked server.world
  journal : ∀ effect ∈ server.journal, effect.Backed asked

/-- No reply is given by following an event of a session. -/
theorem backs_followSession {world : World} (h : world.cache.Sound CacheKey.Names)
    (event : SessionEvent) : World.Backs asked world (followSession world event) :=
  (notifies_followSession world event).backs (recounts_followSession h event)

/-- A server stays founded in a world whose replies are backed. -/
theorem Founded.withWorld (h : server.Founded asked) {world : World}
    (hbacks : World.Backs asked server.world world) : (server.withWorld world).Founded asked :=
  ⟨h.pipeline.backs hbacks, h.journal⟩

/-- The moves stay founded when a request is dispatched. -/
theorem Served.founded {caller : Identity} {request : Request} {move : Option MoveRequest}
    {simulation : Simulation} (served : Served server caller request move simulation)
    (hasked : ∀ begun ∈ move, asked begun)
    (h : server.simulation.pipeline.Founded asked server.world) :
    simulation.pipeline.Founded asked simulation.world := by
  have hserved : ∀ layer, World.Backs asked server.world
      (server.world.record (.served request.service layer request.method caller)) :=
    fun _ => World.backs_record h.sound nofun
  cases served with
  | unrouted => exact h.backs (World.backs_record h.sound (Effect.backed_failure _ _ _))
  | refused layer =>
    exact h.backs ((hserved layer).trans
      (World.backs_record (hserved layer).keepsFit.sound (Effect.backed_failure _ _ _)))
  | @left layer entity =>
    have hleft := (hserved layer).trans
      (World.backs_leavePlace (hserved layer).keepsFit.sound entity)
    exact h.backs (hleft.trans (World.backs_record hleft.keepsFit.sound (Effect.backed_ack _ _)))
  | @begun layer move body listener =>
    have hrecorded := h.backs (hserved layer)
    exact hrecorded.begin (hasked move rfl)

/-- An action keeps everything founded, if what it dispatches was asked for. -/
theorem ActOutcome.founded {action : Action} (outcome : ActOutcome server action after)
    (hbuiltIn : server.BuiltIn) (hnames : action.Names)
    (hasked : ∀ dispatch ∈ server.dispatches action, ∀ move ∈ dispatch.move, asked move)
    (h : server.Founded asked) : after.Founded asked := by
  have hsound := h.pipeline.sound
  cases outcome with
  | reports key outcome =>
    exact h.withWorld (server.world.backs_cache (hsound.keepsFit_report hnames) _)
  | ejects body => exact h.withWorld (World.backs_leavePlace hsound _)
  | @follows event rest events =>
    have hfollowed := h.pipeline.backs (backs_followSession hsound event)
    exact ⟨hfollowed, h.journal⟩
  | @serves caller request rest requests =>
    have hserved := runRequest_served { server with requests := rest } hbuiltIn caller request
    have hbegun := hasked ⟨server.listenerFor caller request, server.moveFor? caller request⟩ (by
      rw [dispatches, requests]
      exact List.mem_singleton_self _)
    exact ⟨hserved.founded hbegun h.pipeline, h.journal⟩
  | settles => exact h.withWorld (server.world.backs_cache hsound.keepsFit_settleNext _)
  | advances bodies =>
    have hadvanced := (Pipeline.founded_invariant asked).advanceIn h.pipeline bodies
    exact ⟨hadvanced, h.journal⟩
  | @delivers effect rest effects =>
    have hbacked := h.pipeline.backed
    rw [effects] at hbacked
    refine ⟨⟨hsound, h.pipeline.moving, h.pipeline.queued, fun other hother =>
      hbacked other (List.mem_cons_of_mem _ hother)⟩, fun other hother => ?_⟩
    rcases List.mem_append.mp hother with hold | hnew
    · exact h.journal other hold
    · rw [List.mem_singleton.mp hnew]
      exact hbacked effect List.mem_cons_self
  | takesChanges => exact h.withWorld (server.world.backs_cache hsound.recounts_refl.keepsFit _)
  | _ => exact ⟨h.pipeline, h.journal⟩

/-- A server stays founded in every run of moves that were asked for. -/
theorem Founded.run (h : server.Founded asked) (hbuiltIn : server.BuiltIn) {actions : List Action}
    (hnames : ∀ action ∈ actions, action.Names)
    (hasked : ∀ dispatch ∈ server.collect dispatches actions, ∀ move ∈ dispatch.move, asked move) :
    (server.run actions).Founded asked := by
  induction actions generalizing server with
  | nil => exact h
  | cons action rest ih =>
    have outcome := act_outcome server action
    exact ih (outcome.founded hbuiltIn (hnames action List.mem_cons_self)
        (fun dispatch hmem => hasked dispatch (List.mem_append_left _ hmem)) h)
      (outcome.builtIn hbuiltIn) (fun other hmem => hnames other (List.mem_cons_of_mem _ hmem))
      fun dispatch hmem => hasked dispatch (List.mem_append_right _ hmem)

/-- A new server is founded, as nothing was asked for yet. -/
theorem new_founded (config : ServerConfig) {loader : Loader CacheKey Bundle}
    (hloader : loader.Names) : (Server.new config loader).Founded asked :=
  ⟨⟨(World.tally_new config.idleCapacity hloader).tallied.cache, nofun, nofun, nofun⟩, nofun⟩

/-- The reply to a request that asks for a move and was granted is the one to the commit of that
move, with a model of its target scene. -/
theorem run_founded (config : ServerConfig) {loader : Loader CacheKey Bundle}
    (hloader : loader.Names) {before after : List Action}
    (hactions : ∀ action ∈ before ++ .serve :: after, action.Names) {caller : Identity}
    {request : Request} {rest : List (Identity × Request)}
    (hserved : ((Server.new config loader).run before).requests = (caller, request) :: rest)
    {final : Server} (hfinal : final = (Server.new config loader).run (before ++ .serve :: after))
    {reply : MoveReply} (hreply : .answer
      (((Server.new config loader).run before).listenerFor caller request)
      (.success (.moved reply)) ∈ final.journal ++ final.world.effects) :
    ∃ move model, ((Server.new config loader).run before).moveFor? caller request = some move ∧
      move.Commits model reply := by
  have horderly := run_orderly config loader (before ++ .serve :: after)
  have hdispatch : ⟨((Server.new config loader).run before).listenerFor caller request,
      ((Server.new config loader).run before).moveFor? caller request⟩ ∈
        (Server.new config loader).collect dispatches (before ++ .serve :: after) := by
    rw [collect_append, collect, dispatches, hserved]
    exact List.mem_append_right _ List.mem_cons_self
  have hfounded : final.Founded fun move =>
      ∃ dispatch ∈ (Server.new config loader).collect dispatches (before ++ .serve :: after),
        dispatch.move = some move := by
    rw [hfinal]
    exact (new_founded config hloader).run (new_builtIn config loader) hactions
      fun dispatch hmem move hmove => ⟨dispatch, hmem, hmove⟩
  have hbacked : Effect.Backed _ _ := (List.mem_append.mp hreply).elim (hfounded.journal _)
    (hfounded.pipeline.backed _)
  obtain ⟨move, ⟨dispatch, hmem, hmove⟩, hlistener, model, hcommits⟩ := hbacked _ _ rfl
  -- A listener tells its dispatch.
  rw [horderly.accounted.listener_eq hmem hmove] at hlistener
  have hsame := List.inj_on_of_nodup_map horderly.accounted.listeners_nodup hmem hdispatch hlistener
  rw [hsame] at hmove
  exact ⟨move, model, hmove, hcommits⟩

end Server

end SharedWorld
