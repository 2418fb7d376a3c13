import SharedWorld.Proofs.Demands
import SharedWorld.Proofs.ExpectedOutcomes

/-!
# Moves are taken on in any order

The moves under way are taken on one body after the other, in an order that nobody should rely on.
What the requests of a body come to can be told before the first of them is taken on
(`Pipeline.upshot`), and whoever comes before it, they come to that (`Pipeline.Poised.meets`).
-/

namespace SharedWorld

/-! ## What the requests of a body come to -/

/-- What the requests of a body come to when they are worked off until one has to wait. -/
structure Upshot where
  /-- The legs that are gone through, each as it would go at the start. -/
  legs : List Leg
  /-- How the move waits that is under way then, if one is. -/
  wait? : Option Wait
  /-- The requests behind it. -/
  queue : List MoveRequest

/-- Who is answered by a leg that comes to what it is bound to come to, and what. -/
def Leg.reply? (leg : Leg) : Option (Listener × Answer) := leg.expected.reply? leg.request

/-- What a leg comes to together with the requests behind it, of which it is known what they come to
if they are begun. -/
def Leg.upshot (leg : Leg) (behind : List MoveRequest) (rest : Upshot) : Upshot :=
  match leg.expected.wait? leg.request with
  | some wait => ⟨[leg], some wait, behind⟩
  | none => { rest with legs := leg :: rest.legs }

/-- What requests come to that are begun one after the other, as it can be told at the start. -/
def Launch.upshot (start : Realm) : List MoveRequest → Upshot
  | [] => ⟨[], none, []⟩
  | move :: rest => Leg.upshot ⟨move, none, start⟩ rest (Launch.upshot start rest)

/-- What the requests of a body come to when its move is taken on, as it can be told at the
start. -/
def Pipeline.upshot (pipeline : Pipeline) (start : Realm) (entity : EntityId) : Upshot :=
  match pipeline.inFlight.get? entity with
  | none => ⟨[], none, pipeline.queueOf entity⟩
  | some flight =>
    Leg.upshot ⟨flight.request, some flight.stage, start⟩ (pipeline.queueOf entity)
      (Launch.upshot start (pipeline.queueOf entity))

/-- A leg that does not wait is answered. -/
theorem ExpectedOutcome.length_reply? {expected : ExpectedOutcome} {move : MoveRequest}
    (h : expected.wait? move = none) : (expected.reply? move).toList.length = 1 := by
  cases expected with
  | waits zone? => cases zone? with | _ => cases h
  | fails fault => rfl
  | enters zone model => rfl

/-- A leg that waits brings its move no answer. -/
theorem ExpectedOutcome.reply?_of_wait? {expected : ExpectedOutcome} {move : MoveRequest}
    {wait : Wait} (h : expected.wait? move = some wait) : expected.reply? move = none := by
  cases expected with
  | waits zone? => rfl
  | fails fault => cases h
  | enters zone model => cases h

/-- The leg comes to what it would come to in the realm at the start. -/
structure Leg.MeetsAt (start : Realm) (leg : Leg) : Prop where
  meets : leg.Meets (leg.foreseen start).expected
  expects : leg.Expects start
  resembles : start.Resembles leg.before
  sound : leg.before.world.Sound

/-- The requests of a body have come to what was told: `count` of them were answered in the course
of the legs, one is under way if there is a flight, and the others are queued. -/
structure Upshot.Holds (upshot : Upshot) (start : Realm) (legs : List Leg) (count : Nat)
    (flight? : Option Flight) (queue : List MoveRequest) : Prop where
  legs_eq : legs.map (·.foreseen start) = upshot.legs
  count_eq : count = (upshot.legs.filterMap Leg.reply?).length
  wait : flight?.map Flight.wait = upshot.wait?
  queue_eq : queue = upshot.queue

namespace Upshot

variable {start : Realm} {leg : Leg} {behind queue : List MoveRequest} {rest : Upshot}
  {legs : List Leg} {count : Nat} {flight? : Option Flight}

/-- Before anything was done, the body has done none of what it is bound to do. -/
theorem holds_nil (start : Realm) (queue : List MoveRequest) :
    Holds ⟨[], none, queue⟩ start [] 0 none queue := ⟨rfl, rfl, rfl, rfl⟩

/-- Behind a move that waits the others wait. -/
theorem holds_of_parked (meets : leg.MeetsAt start) {flight : Flight}
    (parked : leg.parked = some flight) :
    ((leg.foreseen start).upshot behind rest).Holds start [leg] 0 (some flight) behind := by
  have hwait : (leg.foreseen start).expected.wait? leg.request = some flight.wait := by
    rw [← meets.meets.wait, parked, Option.map_some]
  have hreply : (leg.foreseen start).reply? = none := ExpectedOutcome.reply?_of_wait? hwait
  have hupshot : (leg.foreseen start).upshot behind rest =
      ⟨[leg.foreseen start], some flight.wait, behind⟩ := by
    unfold Leg.upshot
    rw [show (leg.foreseen start).request = leg.request from rfl, hwait]
  rw [hupshot]
  refine ⟨rfl, ?_, rfl, rfl⟩
  rw [List.filterMap_cons, hreply]
  rfl

/-- After a move that is answered the next one is begun. -/
theorem holds_of_answered (meets : leg.MeetsAt start) (parked : leg.parked = none)
    (h : rest.Holds start legs count flight? queue) :
    ((leg.foreseen start).upshot behind rest).Holds start (leg :: legs) (count + 1) flight?
      queue := by
  have hwait : (leg.foreseen start).expected.wait? leg.request = none := by
    rw [← meets.meets.wait, parked, Option.map_none]
  have hreply : (leg.foreseen start).reply?.toList.length = 1 := ExpectedOutcome.length_reply? hwait
  have hupshot : (leg.foreseen start).upshot behind rest =
      { rest with legs := leg.foreseen start :: rest.legs } := by
    unfold Leg.upshot
    rw [show (leg.foreseen start).request = leg.request from rfl, hwait]
  rw [hupshot]
  refine ⟨congrArg _ h.legs_eq, ?_, h.wait, h.queue_eq⟩
  obtain ⟨reply, hreplies⟩ := List.length_eq_one_iff.mp hreply
  rw [List.filterMap_cons, Option.toList_eq_singleton_iff.mp hreplies, List.length_cons, h.count_eq]

end Upshot

/-- Requests of one body that are begun come to what was told at the start. -/
theorem Launch.run_holds {start : Realm} {requests : List MoveRequest} (realm : Realm)
    (meets : ∀ leg ∈ legs realm requests, leg.MeetsAt start) :
    (upshot start requests).Holds start (legs realm requests) (run realm requests).finished
      (run realm requests).parked (run realm requests).remaining := by
  induction requests generalizing realm with
  | nil => exact Upshot.holds_nil start []
  | cons move rest ih =>
    cases hparked : Leg.parked ⟨move, none, realm⟩ with
    | some flight =>
      obtain ⟨hrun, hlegs⟩ := @run_of_parked _ _ rest _ hparked
      rw [hlegs] at meets
      rw [hrun, hlegs]
      exact Upshot.holds_of_parked (meets _ List.mem_cons_self) hparked
    | none =>
      obtain ⟨hrun, hlegs⟩ := @run_of_answered _ _ rest hparked
      rw [hlegs] at meets
      rw [hrun, hlegs]
      exact Upshot.holds_of_answered (meets _ List.mem_cons_self) hparked
        (ih _ fun other hother => meets other (List.mem_cons_of_mem _ hother))

namespace Pipeline

variable {pipeline : Pipeline} {start : Realm} {entity : EntityId}

/-- Beginning requests leaves the body where the requests have come to. -/
theorem start_eq (hidle : pipeline.inFlight.get? entity = none) (realm : Realm)
    (requests : List MoveRequest) :
    (pipeline.start realm entity requests).1 = (Launch.run realm requests).finished ∧
      (pipeline.start realm entity requests).2.2 = (Launch.run realm requests).realm ∧
      (pipeline.start realm entity requests).2.1.inFlight.get? entity =
        (Launch.run realm requests).parked ∧
      (pipeline.start realm entity requests).2.1.queueOf entity =
        (Launch.run realm requests).remaining := by
  have hqueue := (queueOf_setQueue pipeline entity entity
    (Launch.run realm requests).remaining).trans (if_pos rfl)
  unfold Pipeline.start
  dsimp only
  cases (Launch.run realm requests).parked with
  | some flight => exact ⟨rfl, rfl, Table.get?_insert_self _ _ _, hqueue⟩
  | none => exact ⟨rfl, rfl, hidle, hqueue⟩

/-- Every request waits for its own body. -/
def Own (pipeline : Pipeline) : Prop :=
  ∀ ⦃entity move⦄, move ∈ pipeline.waiting entity → move.entity = entity

/-- The moves of bodies stay their own when those of one body are taken on. -/
theorem Own.of_progress {middle : Pipeline} {realm realm' : Realm} {count : Nat}
    {done : List MoveRequest} (hown : pipeline.Own)
    (hprogress :
      Progress entity (pipeline.waiting entity) pipeline realm count middle realm' done) :
    middle.Own := by
  intro other move hmem
  by_cases hother : other = entity
  · subst hother
    refine hown ?_
    rw [hprogress.split]
    exact List.mem_append_right done hmem
  · rw [hprogress.waiting hother] at hmem
    exact hown hmem

/-- The requests of a body that is taken on come to what was told at the start. -/
theorem advanceBody_holds (hown : pipeline.Own) (realm : Realm) (entity : EntityId)
    (meets : ∀ leg ∈ pipeline.bodyLegs realm entity, leg.MeetsAt start) :
    (pipeline.upshot start entity).Holds start (pipeline.bodyLegs realm entity)
      (pipeline.advanceBody realm entity).1
      ((pipeline.advanceBody realm entity).2.1.inFlight.get? entity)
      ((pipeline.advanceBody realm entity).2.1.queueOf entity) := by
  cases hflight : pipeline.inFlight.get? entity with
  | none =>
    simp only [upshot, advanceBody, bodyLegs, hflight]
    exact Upshot.holds_nil start (pipeline.queueOf entity)
  | some flight =>
    have hupshot : pipeline.upshot start entity = Leg.upshot ⟨flight.request,
        some flight.stage, start⟩ (pipeline.queueOf entity)
          (Launch.upshot start (pipeline.queueOf entity)) := by simp only [upshot, hflight]
    obtain rfl : flight.request.entity = entity :=
      hown (mem_waiting_iff.mpr (.inl ⟨flight, hflight, rfl⟩))
    rw [hupshot]
    cases hparked : Leg.parked ⟨flight.request, some flight.stage, realm⟩ with
    | some flight' =>
      obtain ⟨hadvance, hlegs⟩ := advanceBody_of_parked hflight hparked
      rw [hlegs] at meets
      rw [hadvance, hlegs]
      dsimp only
      rw [Table.get?_insert_self]
      exact Upshot.holds_of_parked (meets _ List.mem_cons_self) hparked
    | none =>
      obtain ⟨hadvance, hlegs⟩ := advanceBody_of_answered hflight hparked
      have hidle : ({ pipeline with inFlight := pipeline.inFlight.erase flight.request.entity } :
          Pipeline).inFlight.get? flight.request.entity = none := Table.get?_erase_self _ _
      obtain ⟨hcount, hrealm, hparks, hremains⟩ := start_eq hidle
        (Leg.after ⟨flight.request, some flight.stage, realm⟩)
        (pipeline.queueOf flight.request.entity)
      rw [hlegs] at meets
      rw [hadvance, hlegs]
      dsimp only
      rw [hcount, hparks, hremains]
      exact Upshot.holds_of_answered (meets _ List.mem_cons_self) hparked
        (Launch.run_holds _ fun other hother => meets other (List.mem_cons_of_mem _ hother))

/-! ## What all bodies come to -/

/-- The bodies of an order were taken on, and their requests came to what was told at the start. The
other bodies are as they were. -/
structure Foretold (pipeline : Pipeline) (start : Realm) (order : List EntityId)
    (legs : List Leg) (count : Nat) (after : Pipeline) : Prop where
  legs_eq : legs.map (·.foreseen start) =
    order.flatMap fun entity => (pipeline.upshot start entity).legs
  count_eq : count = (legs.map (·.foreseen start) |>.filterMap Leg.reply?).length
  wait : ∀ {entity}, entity ∈ order →
    (after.inFlight.get? entity).map Flight.wait = (pipeline.upshot start entity).wait?
  queue_eq : ∀ {entity}, entity ∈ order →
    after.queueOf entity = (pipeline.upshot start entity).queue
  flight_other : ∀ {entity}, entity ∉ order →
    after.inFlight.get? entity = pipeline.inFlight.get? entity
  queue_other : ∀ {entity}, entity ∉ order → after.queueOf entity = pipeline.queueOf entity

/-- What the requests of a body come to depends on nothing but its own. -/
theorem upshot_congr {other : Pipeline} (hflight : other.inFlight.get? entity =
    pipeline.inFlight.get? entity) (hqueue : other.queueOf entity = pipeline.queueOf entity) :
    other.upshot start entity = pipeline.upshot start entity := by
  unfold upshot
  rw [hflight, hqueue]

/-- Bodies that are taken on one after the other come to what was told at the start. -/
theorem advanceIn_foretold {order : List EntityId} (hnodup : order.Nodup) (htidy : pipeline.Tidy)
    (hown : pipeline.Own) (realm : Realm)
    (meets : ∀ leg ∈ pipeline.legsIn realm order, leg.MeetsAt start) :
    pipeline.Foretold start order (pipeline.legsIn realm order)
      (pipeline.advanceIn realm order).1 (pipeline.advanceIn realm order).2.1 := by
  induction order generalizing pipeline realm with
  | nil => exact ⟨rfl, rfl, nofun, nofun, fun _ => rfl, fun _ => rfl⟩
  | cons entity rest ih =>
    obtain ⟨hnew, hnodup⟩ := List.nodup_cons.mp hnodup
    have hlater : ∀ leg ∈ (pipeline.advanceBody realm entity).2.1.legsIn
        (pipeline.advanceBody realm entity).2.2 rest, leg.MeetsAt start :=
      fun leg hmem => meets leg (List.mem_append_right _ hmem)
    have hholds := advanceBody_holds hown realm entity
      fun leg hmem => meets leg (List.mem_append_left _ hmem)
    obtain ⟨done, hprogress⟩ := advanceBody_progress htidy realm entity
    generalize hbody : pipeline.advanceBody realm entity = result at hholds hprogress hlater
    obtain ⟨count, middle, realm'⟩ := result
    dsimp only at hholds hprogress hlater
    have hrest := ih hnodup (hprogress.tidy htidy) (hown.of_progress hprogress) realm' hlater
    -- The bodies that follow are left alone by this one, so what was told of them still holds.
    have hupshot : ∀ {other}, other ∈ rest →
        middle.upshot start other = pipeline.upshot start other := by
      intro other hmem
      have hother : other ≠ entity := by
        rintro rfl
        exact hnew hmem
      exact upshot_congr (hprogress.inFlight_eq hother) (hprogress.queue_eq hother)
    simp only [legsIn, advanceIn, hbody]
    constructor
    case legs_eq =>
      rw [List.map_append, hholds.legs_eq, hrest.legs_eq, List.flatMap_cons]
      exact congrArg _ (List.flatMap_congr fun other hmem => by rw [hupshot hmem])
    case count_eq =>
      rw [List.map_append, List.filterMap_append, List.length_append, ← hrest.count_eq,
        hholds.legs_eq, ← hholds.count_eq]
    case wait =>
      intro other hmem
      rcases List.mem_cons.mp hmem with rfl | hmem
      · rw [hrest.flight_other hnew, hholds.wait]
      · rw [hrest.wait hmem, hupshot hmem]
    case queue_eq =>
      intro other hmem
      rcases List.mem_cons.mp hmem with rfl | hmem
      · rw [hrest.queue_other hnew, hholds.queue_eq]
      · rw [hrest.queue_eq hmem, hupshot hmem]
    case flight_other =>
      intro other hmem
      rw [List.mem_cons, not_or] at hmem
      rw [hrest.flight_other hmem.2, hprogress.inFlight_eq hmem.1]
    case queue_other =>
      intro other hmem
      rw [List.mem_cons, not_or] at hmem
      rw [hrest.queue_other hmem.2, hprogress.queue_eq hmem.1]

/-! ## Which moves are taken on -/

/-- The leg begins a move of the queue of its body, or it takes the move of its body on. -/
def Offers (pipeline : Pipeline) (leg : Leg) : Prop :=
  match leg.stage? with
  | none => leg.request ∈ pipeline.queueOf leg.request.entity
  | some stage => pipeline.inFlight.get? leg.request.entity = some ⟨leg.request, stage⟩

/-- A move that is offered waits for its body. -/
theorem Offers.waits {leg : Leg} (h : pipeline.Offers leg) :
    leg.request ∈ pipeline.waiting leg.request.entity := by
  unfold Offers at h
  split at h
  · exact mem_waiting_iff.mpr (.inr h)
  · exact mem_waiting_iff.mpr (.inl ⟨_, h, rfl⟩)

/-- What is offered of a body depends on the moves of that body alone. -/
theorem Offers.congr {other : Pipeline} {leg : Leg} (h : other.Offers leg)
    (hflight : other.inFlight.get? leg.request.entity =
      pipeline.inFlight.get? leg.request.entity)
    (hqueue : other.queueOf leg.request.entity = pipeline.queueOf leg.request.entity) :
    pipeline.Offers leg := by
  rwa [Offers, ← hflight, ← hqueue]

/-- The legs of requests that are started begin these requests. -/
theorem mem_launchLegs {realm : Realm} {requests : List MoveRequest} {leg : Leg}
    (h : leg ∈ Launch.legs realm requests) : leg.stage? = none ∧ leg.request ∈ requests := by
  induction requests generalizing realm with
  | nil => cases h
  | cons move rest ih =>
    rcases List.mem_cons.mp h with rfl | hlater
    · exact ⟨rfl, List.mem_cons_self⟩
    · split at hlater
      · cases hlater
      · obtain ⟨hstage, hmem⟩ := ih hlater
        exact ⟨hstage, List.mem_cons_of_mem _ hmem⟩

/-- Whatever legs the moves of a body are taken on in, they are offered. -/
theorem offers_of_mem_bodyLegs (hown : pipeline.Own) {realm : Realm} {leg : Leg}
    (h : leg ∈ pipeline.bodyLegs realm entity) :
    leg.request.entity = entity ∧ pipeline.Offers leg := by
  unfold bodyLegs at h
  cases hflight : pipeline.inFlight.get? entity with
  | none =>
    rw [hflight] at h
    cases h
  | some flight =>
    simp only [hflight] at h
    have hmove : flight.request.entity = entity :=
      hown (mem_waiting_iff.mpr (.inl ⟨flight, hflight, rfl⟩))
    rcases List.mem_cons.mp h with rfl | hlater
    · refine ⟨hmove, ?_⟩
      rw [← hmove] at hflight
      exact hflight
    · split at hlater
      · cases hlater
      · obtain ⟨hstage, hmem⟩ := mem_launchLegs hlater
        have hentity := hown (mem_waiting_iff.mpr (.inr hmem))
        refine ⟨hentity, ?_⟩
        rw [Offers, hstage, hentity]
        exact hmem

/-- Whatever is taken on waits at the start already, as long as no body is taken on twice. -/
theorem offers_of_mem_legsIn {order : List EntityId} (hnodup : order.Nodup)
    (htidy : pipeline.Tidy) (hown : pipeline.Own) {realm : Realm} {leg : Leg}
    (h : leg ∈ pipeline.legsIn realm order) :
    leg.request.entity ∈ order ∧ pipeline.Offers leg := by
  induction order generalizing pipeline realm with
  | nil => cases h
  | cons entity rest ih =>
    obtain ⟨hnew, hnodup⟩ := List.nodup_cons.mp hnodup
    rcases List.mem_append.mp h with hnow | hlater
    · obtain ⟨rfl, hoffers⟩ := offers_of_mem_bodyLegs hown hnow
      exact ⟨List.mem_cons_self, hoffers⟩
    · obtain ⟨done, hprogress⟩ := advanceBody_progress htidy realm entity
      obtain ⟨hmem, hoffers⟩ :=
        ih hnodup (hprogress.tidy htidy) (hown.of_progress hprogress) hlater
      have hother : leg.request.entity ≠ entity := ne_of_mem_of_not_mem hmem hnew
      exact ⟨List.mem_cons_of_mem _ hmem,
        hoffers.congr (hprogress.inFlight_eq hother) (hprogress.queue_eq hother)⟩

/-! ## Room for all -/

/-- A move that waits may lead to the model: its scene is ready, or the move was told of it. -/
inductive Involves (pipeline : Pipeline) (realm : Realm) : SceneModel → Prop where
  | ready {entity : EntityId} {move : MoveRequest} {model : SceneModel}
    (waits : move ∈ pipeline.waiting entity)
    (ready : realm.world.cache.peek? (.scene move.target.scene) = some (.scene model)) :
    Involves pipeline realm model
  | told {entity : EntityId} {move : MoveRequest} {zone : ZoneSummary}
    {resolution : Resolution CacheKey Bundle} {model : SceneModel}
    (waits : pipeline.inFlight.get? entity = some ⟨move, .resolvingScene zone resolution⟩)
    (told : resolution.outcome? realm.world.cache = some (.loaded (.scene model))) :
    Involves pipeline realm model

/-- Neither the models that moves may lead to nor the places of their scenes have a capacity. -/
structure Roomy (pipeline : Pipeline) (realm : Realm) : Prop where
  models : ∀ {model}, pipeline.Involves realm model → model.capacity = none
  places : ∀ {model place host}, pipeline.Involves realm model →
    realm.world.place? place = some host → host.scene = model.scene → host.capacity = none

/-- Where a leg that is offered is bound to lead is where it may lead. -/
theorem involves_of_enters {leg : Leg} (hoffers : pipeline.Offers leg) {zone : ZoneSummary}
    {model : SceneModel}
    (h : Leg.expected ⟨leg.request, leg.stage?, start⟩ = .enters zone model) :
    pipeline.Involves start model := by
  unfold Leg.expected at h
  cases hstage : leg.stage? with
  | none =>
    rw [hstage] at h
    exact .ready hoffers.waits (MoveRequest.ready_of_expected h)
  | some stage =>
    rw [hstage] at h
    cases stage with
    | resolvingZone resolution => exact .ready hoffers.waits (MoveRequest.ready_of_expected h)
    | resolvingScene zone resolution =>
      rw [Offers, hstage] at hoffers
      exact .told hoffers (MoveRequest.load_of_outlook h)

/-! ## Whatever the order -/

/-- What the moves of a run are like before they are taken on. -/
structure Poised (pipeline : Pipeline) (start : Realm) : Prop where
  single : start.world.cache.SingleFlight
  sound : start.world.Sound
  tidy : pipeline.Tidy
  own : pipeline.Own
  heard : ∀ {entity flight}, pipeline.inFlight.get? entity = some flight →
    ∃ heard, start.world.cache.Hears flight.key flight.resolution heard

/-- What is assumed of an order: all bodies with moves under way are taken on, each once, policies
look at nothing but the identity of a body and the zone, no place that the moves may lead to can be
full, and meanwhile nothing is evicted and no counter comes round. -/
structure Admits (pipeline : Pipeline) (start : Realm) (order : List EntityId) : Prop where
  all : order.Perm pipeline.inFlight.keys
  impartial : start.zones.Impartial
  roomy : pipeline.Roomy start
  spared : start.world.cache.EvictsNothing (pipeline.advanceIn start order).2.2.world.cache
  unwrapped : (pipeline.advanceIn start order).2.2.world.Unwrapped

variable {order : List EntityId}

/-- The legs of the moves that are taken on make a path. -/
theorem path_legsIn (pipeline : Pipeline) (start : Realm) (order : List EntityId) :
    Leg.Path start (pipeline.legsIn start order) (pipeline.advanceIn start order).2.2 :=
  (Leg.Path.chronicle start).advanceIn [] pipeline start rfl order

/-- No body is taken on twice. -/
theorem Admits.nodup (h : pipeline.Admits start order) : order.Nodup :=
  h.all.nodup_iff.mpr (Table.keys_nodup _)

/-- What is not in the order has no move under way. -/
theorem Admits.idle (h : pipeline.Admits start order) (hnot : entity ∉ order) :
    pipeline.inFlight.get? entity = none := by
  refine Option.eq_none_iff_forall_ne_some.mpr fun flight hflight => hnot ?_
  exact h.all.mem_iff.mpr (Table.mem_keys_iff.mpr ⟨flight, hflight⟩)

/-- Where nothing is evicted and places have room, every leg comes to what it would come to at the
start. -/
theorem Poised.meets (h : pipeline.Poised start) (hadmits : pipeline.Admits start order) :
    ∀ leg ∈ pipeline.legsIn start order, leg.MeetsAt start := by
  have hpath := path_legsIn pipeline start order
  have hoffers := fun leg (hleg : leg ∈ pipeline.legsIn start order) =>
    (offers_of_mem_legsIn hadmits.nodup h.tidy h.own hleg).2
  have hfinds := fun leg (hleg : leg ∈ pipeline.legsIn start order) =>
    hpath.resembles h.single h.sound hadmits.unwrapped hadmits.spared hleg
  have hexpects : ∀ leg ∈ pipeline.legsIn start order, leg.Expects start := by
    intro leg hleg
    refine leg.expects_of_resembles h.single hadmits.impartial (hfinds leg hleg).1
      fun stage hstage => ?_
    have hflight := hoffers leg hleg
    rw [Offers, show leg.stage? = some stage from hstage] at hflight
    exact h.heard hflight
  have hinvolves : ∀ leg ∈ pipeline.legsIn start order, ∀ zone model,
      leg.expected = .enters zone model → pipeline.Involves start model :=
    fun leg hleg zone model henters =>
      involves_of_enters (hoffers leg hleg) ((hexpects leg hleg).expected.symm.trans henters)
  -- The places that were there have room, and so do those that are made on the way.
  let Wide : SceneId → Option Nat → Prop := fun scene capacity =>
    ∀ model, pipeline.Involves start model → scene = model.scene → capacity = none
  have hmodel : ∀ leg ∈ pipeline.legsIn start order, ∀ zone model,
      leg.expected = .enters zone model → Wide model.scene model.capacity :=
    fun leg hleg zone model henters _ _ _ =>
      hadmits.roomy.models (hinvolves leg hleg zone model henters)
  have hplaces := hpath.preserves (P := fun realm => realm.world.AllPlaces Wide)
    (fun _ _ hhost _ hinvolved => hadmits.roomy.places hinvolved hhost) fun leg hleg hbefore =>
      leg.allPlaces (hfinds leg hleg).1.quiet.single (hfinds leg hleg).2.1 (hfinds leg hleg).2.2
        hbefore (hmodel leg hleg)
  intro leg hleg
  obtain ⟨hlike, hsound, hunwrapped⟩ := hfinds leg hleg
  refine ⟨?_, hexpects leg hleg, hlike, hsound⟩
  rw [← (hexpects leg hleg).expected]
  exact leg.meets hlike.quiet.single (hexpects leg hleg).heard hsound hunwrapped
    fun zone model henters => (hplaces leg hleg).hostFor hsound model
      (hmodel leg hleg zone model henters) model (hinvolves leg hleg zone model henters) rfl

end Pipeline

end SharedWorld
