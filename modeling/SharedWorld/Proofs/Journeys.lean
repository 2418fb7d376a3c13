import Mathlib.Data.List.Induction
import SharedWorld.Proofs.Consistency
import SharedWorld.Proofs.Legs

/-!
# The journeys of moves

The legs of one move, picked out of all legs of a run, are its journey: it is begun once, each leg
takes it on from where the one before left it, and the last one answers it. The moves of one body
make their journeys one after the other, in the order in which they were begun (`Traveled`).
-/

namespace SharedWorld

/-- How far a move has come. -/
inductive Standing where
  /-- It was not begun. -/
  | queued
  | waits (stage : Stage)
  | answered
  deriving DecidableEq, Repr

/-- How far a move has come with a leg. -/
def Leg.standing (leg : Leg) : Standing :=
  match leg.parked with
  | some flight => .waits flight.stage
  | none => .answered

/-- The legs of one move so far, and how far it has come with them. -/
inductive Journey (request : MoveRequest) : List Leg → Standing → Prop where
  | unbegun : Journey request [] .queued
  | begins (leg : Leg) (mine : leg.request = request) (begins : leg.stage? = none) :
    Journey request [leg] leg.standing
  | resumes {legs : List Leg} {stage : Stage} (before : Journey request legs (.waits stage))
    (leg : Leg) (mine : leg.request = request) (resumes : leg.stage? = some stage) :
    Journey request (legs ++ [leg]) leg.standing

/-- A move that waits keeps its request. -/
theorem Leg.Ending.request_eq {leg : Leg} {flight : Flight} {after : Realm} {effects : List Effect}
    (ending : leg.Ending (some flight) after effects) : flight.request = leg.request := by
  cases ending with
  | awaitsZone => rfl
  | awaitsScene => rfl

/-- A move waits as the move that it is. -/
theorem Leg.request_of_parked {leg : Leg} {flight : Flight} (h : leg.parked = some flight) :
    flight.request = leg.request := by
  have hending := leg.ending
  rw [h] at hending
  exact hending.request_eq

/-- A move that is parked waits. -/
theorem Leg.standing_of_parked {leg : Leg} {flight : Flight} (h : leg.parked = some flight) :
    leg.standing = .waits flight.stage := by rw [Leg.standing, h]

/-- A move that is not parked is answered. -/
theorem Leg.standing_of_none {leg : Leg} (h : leg.parked = none) : leg.standing = .answered := by
  rw [Leg.standing, h]

namespace Journey

variable {request : MoveRequest} {legs : List Leg} {standing : Standing}

/-- Every leg of a journey is one of its move. -/
theorem mine (h : Journey request legs standing) : ∀ leg ∈ legs, leg.request = request := by
  induction h with
  | unbegun => exact List.forall_mem_nil _
  | begins leg mine _ => exact List.forall_mem_singleton.mpr mine
  | resumes _ leg mine _ ih =>
    intro other hmem
    rcases List.mem_append.mp hmem with hold | hnew
    · exact ih other hold
    · rw [List.mem_singleton.mp hnew]
      exact mine

/-- The last leg of a journey takes the move on from where the legs before it have brought it. -/
theorem of_concat {leg : Leg} (h : Journey request (legs ++ [leg]) standing) :
    Journey request legs (leg.stage?.elim .queued .waits) ∧ leg.request = request ∧
      standing = leg.standing := by
  generalize hlegs : legs ++ [leg] = trip at h
  cases h with
  | unbegun => exact absurd hlegs (List.append_ne_nil_of_right_ne_nil _ (List.cons_ne_nil _ _))
  | begins other mine begins =>
    obtain ⟨rfl, hleg⟩ := List.append_inj' (hlegs.trans (List.nil_append _).symm) rfl
    cases hleg
    rw [begins]
    exact ⟨.unbegun, mine, rfl⟩
  | resumes before other mine resumes =>
    obtain ⟨rfl, hleg⟩ := List.append_inj' hlegs rfl
    cases hleg
    rw [resumes]
    exact ⟨before, mine, rfl⟩

/-- A move without a leg was not begun. -/
theorem queued_of_nil (h : Journey request [] standing) : standing = .queued := by
  generalize hlegs : ([] : List Leg) = trip at h
  cases h with
  | unbegun => rfl
  | begins => cases hlegs
  | resumes => exact absurd hlegs.symm (List.append_ne_nil_of_right_ne_nil _ (List.cons_ne_nil _ _))

/-- The first legs of a journey are a journey. -/
theorem of_append {rest : List Leg} (h : Journey request (legs ++ rest) standing) :
    ∃ standing, Journey request legs standing := by
  induction rest using List.reverseRecOn generalizing standing with
  | nil =>
    rw [List.append_nil] at h
    exact ⟨standing, h⟩
  | append_singleton rest leg ih =>
    rw [← List.append_assoc] at h
    exact ih h.of_concat.1

/-- Until it is answered, a move waits after each of its legs. -/
theorem parked (h : Journey request legs standing) (hstanding : standing ≠ .answered) :
    ∀ leg ∈ legs, ∃ flight, leg.parked = some flight := by
  have hwaits : ∀ leg : Leg, leg.standing ≠ .answered → ∃ flight, leg.parked = some flight := by
    intro leg hleg
    cases hparked : leg.parked with
    | some flight => exact ⟨flight, rfl⟩
    | none => exact absurd (Leg.standing_of_none hparked) hleg
  induction h with
  | unbegun => exact List.forall_mem_nil _
  | begins leg => exact List.forall_mem_singleton.mpr (hwaits leg hstanding)
  | resumes _ leg _ _ ih =>
    intro other hmem
    rcases List.mem_append.mp hmem with hold | hnew
    · exact ih nofun other hold
    · rw [List.mem_singleton.mp hnew]
      exact hwaits leg hstanding

/-- No leg follows the one with which the move is answered. -/
theorem last_of_answered {earlier later : List Leg} {leg : Leg}
    (h : Journey request (earlier ++ leg :: later) standing) (hparked : leg.parked = none) :
    later = [] := by
  cases later with
  | nil => rfl
  | cons next later =>
    rw [show earlier ++ leg :: next :: later = (earlier ++ [leg] ++ [next]) ++ later by
      simp only [List.append_assoc, List.cons_append, List.nil_append]] at h
    obtain ⟨_, hnext⟩ := h.of_append
    have hstanding := hnext.of_concat.1.of_concat.2.2
    rw [Leg.standing_of_none hparked] at hstanding
    cases hstage : next.stage? with
    | _ => rw [hstage] at hstanding; cases hstanding

/-- A journey that is over has a last leg, with which the move was answered. -/
theorem exists_last (h : Journey request legs .answered) :
    ∃ earlier last, legs = earlier ++ [last] ∧
      (∀ leg ∈ earlier, ∃ flight, leg.parked = some flight) ∧ last.request = request ∧
      last.parked = none := by
  generalize hstanding : Standing.answered = standing at h
  have hnone : ∀ leg : Leg, Standing.answered = leg.standing → leg.parked = none := by
    intro leg heq
    unfold Leg.standing at heq
    split at heq
    · cases heq
    · assumption
  cases h with
  | unbegun => cases hstanding
  | begins leg mine => exact ⟨[], leg, rfl, List.forall_mem_nil _, mine, hnone leg hstanding⟩
  | resumes before leg mine =>
    exact ⟨_, leg, rfl, before.parked nofun, mine, hnone leg hstanding⟩

end Journey

/-! ## The moves of one body -/

/-- The legs of the moves of one body. -/
def Leg.ofBody (entity : EntityId) (legs : List Leg) : List Leg :=
  legs.filter (·.request.entity = entity)

/-- The legs of one move. -/
def Leg.ofMove (request : MoveRequest) (legs : List Leg) : List Leg :=
  legs.filter (·.request = request)

/-- The last leg belongs to its own move. -/
theorem Leg.ofMove_concat (request : MoveRequest) (legs : List Leg) (leg : Leg) :
    Leg.ofMove request (legs ++ [leg]) =
      Leg.ofMove request legs ++ if leg.request = request then [leg] else [] := by
  rw [ofMove, List.filter_append]
  by_cases h : leg.request = request
  · simp only [ofMove, List.filter_cons, h, decide_true, if_true, List.filter_nil]
  · simp only [ofMove, List.filter_cons, h, decide_false, Bool.false_eq_true, if_false,
      List.filter_nil]

/-- The legs of a move in two lists are those in the one and then those in the other. -/
theorem Leg.ofMove_append (request : MoveRequest) (legs legs' : List Leg) :
    Leg.ofMove request (legs ++ legs') = Leg.ofMove request legs ++ Leg.ofMove request legs' :=
  List.filter_append _ _

/-- The legs of a move are among those of its body. -/
theorem Leg.ofMove_ofBody (request : MoveRequest) (legs : List Leg) :
    Leg.ofMove request (Leg.ofBody request.entity legs) = Leg.ofMove request legs := by
  rw [ofMove, ofMove, ofBody, List.filter_filter]
  refine List.filter_congr fun leg _ => ?_
  by_cases heq : leg.request = request
  · simp only [heq, decide_true, Bool.and_self]
  · simp only [heq, decide_false, Bool.false_and]

/-- All legs of a journey are those of its move. -/
theorem Journey.ofMove_self {request : MoveRequest} {legs : List Leg} {standing : Standing}
    (h : Journey request legs standing) : Leg.ofMove request legs = legs :=
  List.filter_eq_self.mpr fun leg hleg => decide_eq_true (h.mine leg hleg)

/-- A journey has no leg of another move. -/
theorem Journey.ofMove_other {request other : MoveRequest} {legs : List Leg} {standing : Standing}
    (h : Journey request legs standing) (hother : request ≠ other) :
    Leg.ofMove other legs = [] :=
  List.filter_eq_nil_iff.mpr fun leg hleg => by
    rw [h.mine leg hleg, decide_eq_true_eq]
    exact hother

/-- The legs of the move that a body has under way, if it has one. -/
def Underway : Option Flight → List Leg → Prop
  | none, legs => legs = []
  | some flight, legs => Journey flight.request legs (.waits flight.stage)

/-- A move that is not under way has no leg of the current journey. -/
theorem Underway.ofMove_other {flight? : Option Flight} {legs : List Leg} {move : MoveRequest}
    (h : Underway flight? legs) (hother : ∀ flight, flight? = some flight → flight.request ≠ move) :
    Leg.ofMove move legs = [] := by
  cases flight? with
  | none => rw [show legs = [] from h, Leg.ofMove, List.filter_nil]
  | some flight => exact Journey.ofMove_other h (hother flight rfl)

/-- Of the moves begun for a body, the first ones have made their journeys, one after the other; the
next one is under way, and the others wait behind it. -/
def Traveled (begun : List MoveRequest) (legs : List Leg) (flight : Option Flight)
    (queue : List MoveRequest) : Prop :=
  ∃ finished trips current, begun = finished ++ ((flight.map (·.request)).toList ++ queue) ∧
    List.Forall₂ (fun request trip => Journey request trip .answered) finished trips ∧
    legs = trips.flatten ++ current ∧ Underway flight current

namespace Traveled

variable {begun queue rest : List MoveRequest} {legs : List Leg} {flight flight' : Flight}
  {request : MoveRequest} {leg : Leg}

/-- The move under way and those behind it were begun. -/
theorem mem_begun {flight : Option Flight} (h : Traveled begun legs flight queue)
    (hmem : request ∈ (flight.map (·.request)).toList ++ queue) : request ∈ begun := by
  obtain ⟨finished, -, -, rfl, -⟩ := h
  exact List.mem_append_right finished hmem

/-- The move under way is taken on and still waits. -/
theorem waits (h : Traveled begun legs (some flight) queue) (mine : leg.request = flight.request)
    (resumes : leg.stage? = some flight.stage) (parked : leg.parked = some flight') :
    Traveled begun (legs ++ [leg]) (some flight') queue := by
  obtain ⟨finished, trips, current, rfl, htrips, rfl, hcurrent⟩ := h
  have hrequest : flight'.request = flight.request := (Leg.request_of_parked parked).trans mine
  refine ⟨finished, trips, current ++ [leg], ?_, htrips, List.append_assoc _ _ _, ?_⟩
  · rw [Option.map_some, Option.map_some, hrequest]
  · have hjourney := Journey.resumes hcurrent leg mine resumes
    rw [Leg.standing_of_parked parked] at hjourney
    rw [Underway, hrequest]
    exact hjourney

/-- The move under way is answered. -/
theorem answers (h : Traveled begun legs (some flight) queue)
    (mine : leg.request = flight.request) (resumes : leg.stage? = some flight.stage)
    (parked : leg.parked = none) : Traveled begun (legs ++ [leg]) none queue := by
  obtain ⟨finished, trips, current, rfl, htrips, rfl, hcurrent⟩ := h
  have hjourney := Journey.resumes hcurrent leg mine resumes
  rw [Leg.standing_of_none parked] at hjourney
  refine ⟨finished ++ [flight.request], trips ++ [current ++ [leg]], [], ?_,
    List.rel_append htrips (.cons hjourney .nil), ?_, rfl⟩
  · simp only [Option.map_some, Option.toList_some, Option.map_none, Option.toList_none,
      List.append_assoc, List.nil_append]
  · simp only [List.flatten_append, List.flatten_cons, List.flatten_nil, List.append_nil,
      List.append_assoc]

/-- The next move is begun and answered at once. -/
theorem passes (h : Traveled begun legs none (request :: rest)) (mine : leg.request = request)
    (begins : leg.stage? = none) (parked : leg.parked = none) :
    Traveled begun (legs ++ [leg]) none rest := by
  obtain ⟨finished, trips, current, rfl, htrips, rfl, rfl⟩ := h
  have hjourney := Journey.begins leg mine begins
  rw [Leg.standing_of_none parked] at hjourney
  refine ⟨finished ++ [request], trips ++ [[leg]], [], ?_,
    List.rel_append htrips (.cons hjourney .nil), ?_, rfl⟩
  · simp only [Option.map_none, Option.toList_none, List.append_assoc, List.nil_append,
      List.singleton_append]
  · simp only [List.flatten_append, List.flatten_cons, List.flatten_nil, List.append_nil]

/-- The next move is begun and waits. -/
theorem parks (h : Traveled begun legs none (request :: rest)) (mine : leg.request = request)
    (begins : leg.stage? = none) (parked : leg.parked = some flight) :
    Traveled begun (legs ++ [leg]) (some flight) rest := by
  obtain ⟨finished, trips, current, rfl, htrips, rfl, rfl⟩ := h
  have hrequest : flight.request = request := (Leg.request_of_parked parked).trans mine
  have hjourney := Journey.begins leg mine begins
  rw [Leg.standing_of_parked parked] at hjourney
  refine ⟨finished, trips, [leg], ?_, htrips, ?_, ?_⟩
  · simp only [Option.map_none, Option.toList_none, List.nil_append, Option.map_some, hrequest,
      Option.toList_some, List.singleton_append]
  · rw [List.append_nil]
  · rw [Underway, hrequest]
    exact hjourney

/-- Another move is begun behind those that wait. -/
theorem concat {flight : Option Flight} (h : Traveled begun legs flight queue)
    (move : MoveRequest) : Traveled (begun ++ [move]) legs flight (queue ++ [move]) := by
  obtain ⟨finished, trips, current, rfl, htrips, rfl, hcurrent⟩ := h
  exact ⟨finished, trips, current, by simp only [List.append_assoc], htrips, rfl, hcurrent⟩

end Traveled

/-! ## The moves of all bodies -/

namespace Pipeline

variable {begun : EntityId → List MoveRequest} {past : List Leg}

/-- The last leg belongs to its own body. -/
theorem ofBody_concat_self {legs : List Leg} {leg : Leg} {entity : EntityId}
    (h : leg.request.entity = entity) :
    Leg.ofBody entity (legs ++ [leg]) = Leg.ofBody entity legs ++ [leg] := by
  rw [Leg.ofBody, List.filter_append]
  simp only [Leg.ofBody, List.filter_cons, h, decide_true, if_true, List.filter_nil]

/-- The last leg belongs to no other body. -/
theorem ofBody_concat_other {legs : List Leg} {leg : Leg} {entity other : EntityId}
    (h : leg.request.entity = entity) (hother : other ≠ entity) :
    Leg.ofBody other (legs ++ [leg]) = Leg.ofBody other legs := by
  rw [Leg.ofBody, List.filter_append]
  simp only [Leg.ofBody, List.filter_cons, h, hother.symm, decide_false, Bool.false_eq_true,
    if_false, List.filter_nil, List.append_nil]

/-- Whatever order the moves are taken on in, those of each body travel one after the other. -/
theorem traveled_chronicle (begun : EntityId → List MoveRequest) (past : List Leg)
    (hbegun : ∀ {entity request}, request ∈ begun entity → request.entity = entity) :
    Chronicle
      (fun legs pipeline _ => ∀ entity, Traveled (begun entity) (Leg.ofBody entity (past ++ legs))
        (pipeline.inFlight.get? entity) (pipeline.queueOf entity))
      (fun entity requests legs pipeline _ => pipeline.inFlight.get? entity = none ∧
        Traveled (begun entity) (Leg.ofBody entity (past ++ legs)) none requests ∧
          ∀ other, other ≠ entity → Traveled (begun other) (Leg.ofBody other (past ++ legs))
            (pipeline.inFlight.get? other) (pipeline.queueOf other)) where
  waits {legs pipeline realm entity flight flight'} h hflight leg hleg hparked := by
    have hthis := h entity
    rw [hflight] at hthis
    have hmine : leg.request = flight.request := congrArg Leg.request hleg
    have hentity : leg.request.entity = entity :=
      hbegun (hthis.mem_begun (List.mem_cons.mpr (.inl hmine)))
    -- The leg belongs to this body, so the legs of the others are those they had.
    intro other
    rw [← List.append_assoc]
    by_cases hother : other = entity
    · subst hother
      rw [ofBody_concat_self hentity, Table.get?_insert_self]
      exact hthis.waits hmine (congrArg Leg.stage? hleg) hparked
    · rw [ofBody_concat_other hentity hother, Table.get?_insert, if_neg hother]
      exact h other
  answers {legs pipeline realm entity flight} h hflight leg hleg hparked := by
    have hthis := h entity
    rw [hflight] at hthis
    have hmine : leg.request = flight.request := congrArg Leg.request hleg
    have hentity : leg.request.entity = entity :=
      hbegun (hthis.mem_begun (List.mem_cons.mpr (.inl hmine)))
    rw [← List.append_assoc]
    refine ⟨Table.get?_erase_self _ _, ?_, fun other hother => ?_⟩
    · rw [ofBody_concat_self hentity]
      exact hthis.answers hmine (congrArg Leg.stage? hleg) hparked
    · rw [ofBody_concat_other hentity hother, Table.get?_erase, if_neg hother]
      exact h other
  passes {legs pipeline realm entity request rest} h leg hleg hparked := by
    have hmine : leg.request = request := congrArg Leg.request hleg
    have hentity : leg.request.entity = entity :=
      hbegun (h.2.1.mem_begun (List.mem_cons.mpr (.inl hmine)))
    rw [← List.append_assoc]
    refine ⟨h.1, ?_, fun other hother => ?_⟩
    · rw [ofBody_concat_self hentity]
      exact h.2.1.passes hmine (congrArg Leg.stage? hleg) hparked
    · rw [ofBody_concat_other hentity hother]
      exact h.2.2 other hother
  parks {legs pipeline realm entity request rest flight} h leg hleg hparked := by
    have hmine : leg.request = request := congrArg Leg.request hleg
    have hentity : leg.request.entity = entity :=
      hbegun (h.2.1.mem_begun (List.mem_cons.mpr (.inl hmine)))
    intro other
    rw [← List.append_assoc]
    have hqueue := pipeline.queueOf_setQueue entity other rest
    change (queueOf { pipeline.setQueue entity rest with
      inFlight := pipeline.inFlight.insert entity flight } other) = _ at hqueue
    rw [hqueue]
    by_cases hother : other = entity
    · subst hother
      rw [ofBody_concat_self hentity, Table.get?_insert_self, if_pos rfl]
      exact h.2.1.parks hmine (congrArg Leg.stage? hleg) hparked
    · rw [ofBody_concat_other hentity hother, Table.get?_insert, if_neg hother, if_neg hother]
      exact h.2.2 other hother
  rests {legs pipeline realm entity} h other := by
    rw [queueOf_setQueue]
    by_cases hother : other = entity
    · subst hother
      rw [if_pos rfl]
      change Traveled _ _ (pipeline.inFlight.get? other) []
      rw [h.1]
      exact h.2.1
    · rw [if_neg hother]
      exact h.2.2 other hother

end Pipeline

/-! ## Journeys in a run -/

namespace Server

variable {server : Server} {seen : List Dispatch} {past : List Leg}

/-- The last dispatch begins its move, if it has one, behind those before it. -/
theorem begunFor_concat (seen : List Dispatch) (dispatch : Dispatch) (entity : EntityId) :
    begunFor (seen ++ [dispatch]) entity =
      begunFor seen entity ++ dispatch.move.toList.filter (·.entity = entity) := by
  rw [begunFor, List.filterMap_append, List.filter_append]
  cases hmove : dispatch.move with
  | none => rw [List.filterMap_cons_none hmove]; rfl
  | some move => rw [List.filterMap_cons_some hmove]; rfl

/-- Of each body, the moves that were dispatched have traveled the legs so far. -/
def Travels (seen : List Dispatch) (past : List Leg) (server : Server) : Prop :=
  ∀ entity, Traveled (begunFor seen entity) (Leg.ofBody entity past)
    (server.simulation.pipeline.inFlight.get? entity) (server.simulation.pipeline.queueOf entity)

/-- What takes no move on and begins none leaves all where they are. -/
theorem Travels.quiet (h : server.Travels seen past) {after : Server} {action : Action}
    (hdispatches : server.dispatches action = []) (hlegs : server.legs action = [])
    (hpipeline : after.simulation.pipeline = server.simulation.pipeline) :
    after.Travels (seen ++ server.dispatches action) (past ++ server.legs action) := by
  rw [hdispatches, hlegs, List.append_nil, List.append_nil, Travels, hpipeline]
  exact h

/-- A move that is begun travels behind those of its body. -/
theorem Travels.begin (h : server.Travels seen past) (htidy : server.simulation.pipeline.Tidy)
    (move : MoveRequest) (listener : Listener) (realm : Realm) (entity : EntityId) :
    Traveled (begunFor (seen ++ [⟨listener, some move⟩]) entity)
      (Leg.ofBody entity (past ++ server.simulation.pipeline.beginLegs realm move))
      ((server.simulation.pipeline.begin realm move).1.inFlight.get? entity)
      ((server.simulation.pipeline.begin realm move).1.queueOf entity) := by
  have hself : begunFor (seen ++ [⟨listener, some move⟩]) move.entity =
      begunFor seen move.entity ++ [move] := by
    rw [begunFor_concat]
    simp only [Option.toList_some, List.filter_cons, decide_true, if_true, List.filter_nil]
  have hother : ∀ {other}, other ≠ move.entity →
      begunFor (seen ++ [⟨listener, some move⟩]) other = begunFor seen other := by
    intro other hne
    rw [begunFor_concat]
    simp only [Option.toList_some, List.filter_cons, hne.symm, decide_false, Bool.false_eq_true,
      if_false, List.filter_nil, List.append_nil]
  have hthis := h move.entity
  have hchronicle := Pipeline.traveled_chronicle (begunFor (seen ++ [⟨listener, some move⟩])) past
    fun hmem => (Accounted.mem_begunFor_iff.mp hmem).1
  refine hchronicle.begin [] server.simulation.pipeline realm move (fun _ other => ?_)
    (fun hidle => ?_) entity
  · rw [List.append_nil, Pipeline.queueOf_setQueue]
    by_cases heq : other = move.entity
    · subst heq
      rw [if_pos rfl, hself]
      exact hthis.concat move
    · rw [if_neg heq, hother heq]
      exact h other
  · rw [List.append_nil, hself]
    rw [hidle, htidy hidle] at hthis
    rw [htidy hidle]
    refine ⟨hidle, hthis.concat move, fun other hne => ?_⟩
    rw [hother hne]
    exact h other

/-- An action takes the moves on, each from where it is. -/
theorem Travels.act (h : server.Travels seen past) (horderly : server.Orderly seen)
    (action : Action) :
    (server.act action).Travels (seen ++ server.dispatches action)
      (past ++ server.legs action) := by
  have houtcome := act_outcome server action
  generalize hafter : server.act action = after at houtcome
  cases houtcome with
  | @serves caller request rest requests =>
    have hserved := runRequest_served { server with requests := rest } horderly.builtIn caller
      request
    rw [dispatches, legs, requests]
    dsimp only
    cases hmove : server.moveFor? caller request with
    | none =>
      rw [show ({ server with requests := rest } : Server).moveFor? caller request = none from
        hmove] at hserved
      intro entity
      rw [begunFor_concat, List.append_nil, hserved.answered.1]
      simp only [Option.toList_none, List.filter_nil, List.append_nil]
      exact h entity
    | some move =>
      have hbegun := runRequest_begun { server with requests := rest } horderly.builtIn hmove
      intro entity
      rw [hbegun]
      have hbegin := h.begin horderly.tidy move (server.listenerFor caller request)
        (server.opened caller request).realm entity
      change Traveled _ _
        (((opened { server with requests := rest } caller request).pipeline.begin _
          _).1.inFlight.get? entity)
        (Pipeline.queueOf ((opened { server with requests := rest } caller
          request).pipeline.begin _ _).1 entity)
      rw [opened_pipeline]
      exact hbegin
  | servesNothing requests =>
    exact h.quiet (by rw [dispatches, requests]) (by rw [legs, requests]) rfl
  | advances bodies =>
    rw [show server.dispatches (.advance bodies) = [] from rfl, List.append_nil]
    have hchronicle := Pipeline.traveled_chronicle (begunFor seen) past
      fun hmem => (Accounted.mem_begunFor_iff.mp hmem).1
    have hadvance := hchronicle.advanceIn [] server.simulation.pipeline server.simulation.realm
      (fun entity => by
        rw [List.append_nil]
        exact h entity) bodies
    exact hadvance
  | _ => exact h.quiet rfl rfl rfl

/-- In every run, the moves that were dispatched travel the legs that take place. -/
theorem run_travels (config : ServerConfig) (loader : Loader CacheKey Bundle)
    (actions : List Action) :
    ((Server.new config loader).run actions).Travels
      ((Server.new config loader).collect dispatches actions)
      ((Server.new config loader).collect legs actions) := by
  induction actions using List.reverseRecOn with
  | nil => exact fun _ => ⟨[], [], [], rfl, .nil, rfl, rfl⟩
  | append_singleton actions action ih =>
    have hact := ih.act (run_orderly config loader actions) action
    rw [run_append, collect_append, collect_append]
    simp only [collect, List.append_nil]
    exact hact

/-! ## The legs of one move -/

/-- Among trips of different moves, the legs of one of the moves are its trip. -/
theorem ofMove_flatten {finished : List MoveRequest} {trips : List (List Leg)}
    (htrips : List.Forall₂ (fun request trip => Journey request trip .answered) finished trips)
    (hnodup : finished.Nodup) (move : MoveRequest) :
    (move ∉ finished → Leg.ofMove move trips.flatten = []) ∧
      (move ∈ finished → Journey move (Leg.ofMove move trips.flatten) .answered) := by
  induction htrips with
  | nil => exact ⟨fun _ => rfl, nofun⟩
  | @cons request trip finished trips hjourney htrips ih =>
    obtain ⟨hnew, hnodup⟩ := List.nodup_cons.mp hnodup
    obtain ⟨hout, hin⟩ := ih hnodup
    rw [List.flatten_cons, Leg.ofMove_append]
    constructor
    · intro hmem
      rw [List.mem_cons, not_or] at hmem
      rw [hjourney.ofMove_other (Ne.symm hmem.1)]
      exact hout hmem.2
    · intro hmem
      by_cases heq : request = move
      · subst heq
        rw [hjourney.ofMove_self, hout hnew, List.append_nil]
        exact hjourney
      · rw [hjourney.ofMove_other heq]
        exact hin ((List.mem_cons.mp hmem).resolve_left (Ne.symm heq))

/-- Every move that was begun has a journey behind it, which is over when the move is answered. If
the move is under way, its journey has led to where it waits. -/
theorem Travels.journey (h : server.Travels seen past) (horderly : server.Orderly seen)
    {dispatch : Dispatch} {move : MoveRequest} (hdispatch : dispatch ∈ seen)
    (hmove : dispatch.move = some move) :
    ∃ standing, Journey move (Leg.ofMove move past) standing ∧
      (standing = .answered ↔ move.listener ∈ server.answered) ∧
      ∀ {flight}, server.simulation.pipeline.inFlight.get? move.entity = some flight →
        flight.request = move → standing = .waits flight.stage := by
  have hbegun : move ∈ begunFor seen move.entity :=
    Accounted.mem_begunFor_iff.mpr ⟨rfl, dispatch, hdispatch, hmove⟩
  obtain ⟨finished, trips, current, hsplit, htrips, hlegs, hcurrent⟩ := h move.entity
  have hnodup : (finished ++ server.simulation.pipeline.waiting move.entity).Nodup := by
    rw [Pipeline.waiting, ← hsplit]
    exact (horderly.accounted.begun_nodup move.entity).of_map _
  obtain ⟨hfinished, hwaiting, hapart⟩ := List.nodup_append.mp hnodup
  obtain ⟨hout, hin⟩ := ofMove_flatten htrips hfinished move
  have hofMove : Leg.ofMove move past =
      Leg.ofMove move trips.flatten ++ Leg.ofMove move current := by
    rw [← Leg.ofMove_ofBody, hlegs, Leg.ofMove_append]
  rw [hsplit] at hbegun
  rcases List.mem_append.mp hbegun with hmem | hmem
  · -- The move is answered: its trip is one of those that are over, and no later leg is its own.
    have hidle : move ∉ server.simulation.pipeline.waiting move.entity :=
      fun hwaits => hapart move hmem move hwaits rfl
    have hnone : ∀ flight, server.simulation.pipeline.inFlight.get? move.entity = some flight →
        flight.request ≠ move := fun flight hflight heq =>
      hidle (Pipeline.mem_waiting_iff.mpr (.inl ⟨flight, hflight, heq⟩))
    refine ⟨.answered, ?_, iff_of_true rfl ?_, fun hflight heq => absurd heq (hnone _ hflight)⟩
    · rw [hofMove, hcurrent.ofMove_other hnone, List.append_nil]
      exact hin hmem
    · rw [← hsplit] at hbegun
      exact horderly.accounted.answered_of_begun hbegun hidle
  · -- The move waits, so no trip that is over was its own.
    have hwaits : move ∈ server.simulation.pipeline.waiting move.entity := hmem
    have hnone := hout fun hfin => hapart move hfin move hwaits rfl
    have hunanswered := horderly.accounted.unanswered hwaits
    rcases Pipeline.mem_waiting_iff.mp hwaits with ⟨flight, hflight, heq⟩ | hqueued
    · rw [hflight] at hcurrent
      have hcurrent : Journey flight.request current (.waits flight.stage) := hcurrent
      refine ⟨.waits flight.stage, ?_, iff_of_false (fun heq => by cases heq) hunanswered,
        fun hother _ => ?_⟩
      · subst heq
        rw [hofMove, hnone, List.nil_append, hcurrent.ofMove_self]
        exact hcurrent
      · cases hflight.symm.trans hother
        rfl
    · -- It stands behind the move that is under way, and has not set out.
      have hbehind : ∀ flight, server.simulation.pipeline.inFlight.get? move.entity =
          some flight → flight.request ≠ move := by
        intro flight hflight heq
        rw [Pipeline.waiting, hflight] at hwaiting
        rw [Option.map_some, heq] at hwaiting
        exact (List.nodup_cons.mp hwaiting).1 hqueued
      refine ⟨.queued, ?_, iff_of_false (fun heq => by cases heq) hunanswered,
        fun hflight heq => absurd heq (hbehind _ hflight)⟩
      rw [hofMove, hnone, hcurrent.ofMove_other hbehind, List.append_nil]
      exact .unbegun

/-- A leg takes a move on that was begun. -/
theorem Travels.dispatched (h : server.Travels seen past) {leg : Leg} (hleg : leg ∈ past) :
    ∃ dispatch ∈ seen, dispatch.move = some leg.request := by
  have hmem : leg ∈ Leg.ofBody leg.request.entity past :=
    List.mem_filter.mpr ⟨hleg, decide_eq_true rfl⟩
  obtain ⟨finished, trips, current, hsplit, htrips, hlegs, hcurrent⟩ := h leg.request.entity
  suffices hbegun : leg.request ∈ begunFor seen leg.request.entity from
    (Accounted.mem_begunFor_iff.mp hbegun).2
  rw [hlegs] at hmem
  rw [hsplit]
  rcases List.mem_append.mp hmem with htrip | hnow
  · obtain ⟨trip, htrip, hin⟩ := List.mem_flatten.mp htrip
    obtain ⟨index, hindex, rfl⟩ := List.getElem_of_mem htrip
    have hlength := htrips.length_eq
    have hjourney := (List.forall₂_iff_get.mp htrips).2 index
      (Nat.lt_of_lt_of_eq hindex hlength.symm) hindex
    rw [show leg.request = _ from hjourney.mine leg hin]
    exact List.mem_append_left _ (List.get_mem _ _)
  · cases hflight : server.simulation.pipeline.inFlight.get? leg.request.entity with
    | none =>
      rw [hflight] at hcurrent
      rw [show current = [] from hcurrent] at hnow
      cases hnow
    | some flight =>
      rw [hflight] at hcurrent
      rw [show leg.request = flight.request from Journey.mine hcurrent leg hnow]
      exact List.mem_append_right _ (List.mem_append_left _ (List.mem_singleton.mpr rfl))

end Server

/-! ## What was done to the surroundings -/

namespace Effect

/-- The effect is no call of a policy. -/
def Uncalled (effect : Effect) : Prop := ∀ policy call, effect ≠ .consulted policy call

/-- A notice calls no policy. -/
theorem IsNotice.uncalled {effect : Effect} (h : effect.IsNotice) : effect.Uncalled := by
  obtain ⟨recipient, place, delta, rfl⟩ := h
  exact nofun

/-- Where no listener is answered twice, an answer tells what it is. -/
theorem answer_unique {effects : List Effect} (h : (answered effects).Nodup)
    {listener : Listener} {result result' : Answer} (first : .answer listener result ∈ effects)
    (second : .answer listener result' ∈ effects) : result = result' := by
  induction effects with
  | nil => cases first
  | cons effect rest ih =>
    have hlater : ∀ {result}, .answer listener result ∈ rest → listener ∈ answered rest :=
      fun hmem => List.mem_filterMap.mpr ⟨_, hmem, rfl⟩
    rcases List.mem_cons.mp first with rfl | hfirst
    · rcases List.mem_cons.mp second with heq | hsecond
      · cases heq
        rfl
      · exact absurd (hlater hsecond) (List.nodup_cons.mp h).1
    · rcases List.mem_cons.mp second with rfl | hsecond
      · exact absurd (hlater hfirst) (List.nodup_cons.mp h).1
      · refine ih ?_ hfirst hsecond
        exact h.sublist (List.Sublist.filterMap _ (List.sublist_cons_self _ _))

end Effect

/-- A leg after which its move does not wait answers it. -/
theorem Leg.Ending.exists_answer {leg : Leg} {after : Realm} {effects : List Effect}
    (ending : leg.Ending none after effects) :
    ∃ result, .answer leg.request.listener result ∈ effects := by
  cases ending with
  | stopped => exact ⟨_, List.mem_append_right _ (List.mem_singleton.mpr rfl)⟩
  | refused => exact ⟨_, List.mem_append_right _ (List.mem_singleton.mpr rfl)⟩
  | entered =>
    exact ⟨_, List.mem_append_left _ (List.mem_append_right _ (List.mem_singleton.mpr rfl))⟩

/-- A leg after which nothing waits answers its move. -/
theorem Leg.exists_answer {leg : Leg} (h : leg.parked = none) :
    ∃ result, .answer leg.request.listener result ∈ leg.effects := by
  have hending := leg.ending
  rw [h] at hending
  exact hending.exists_answer

namespace Server

variable {server after : Server}

/-- All that was done to the surroundings, whether it was carried out already or not. -/
def deeds (server : Server) : List Effect := server.journal ++ server.world.effects

/-- The answers among the deeds are those that were given. -/
theorem answered_deeds (server : Server) : Effect.answered server.deeds = server.answered :=
  Effect.answered_append _ _

/-- What is recorded in the world adds to the deeds. -/
theorem deeds_eq {effects : List Effect} (hjournal : after.journal = server.journal)
    (heffects : after.world.effects = server.world.effects ++ effects) :
    after.deeds = server.deeds ++ effects := by
  rw [deeds, deeds, hjournal, heffects, List.append_assoc]

/-- Deeds that only notify or answer call no policy. -/
theorem exists_deeds_of_notifies (hjournal : after.journal = server.journal)
    (h : server.world.Notifies after.world) :
    ∃ others, after.deeds = server.deeds ++ others ∧ ∀ effect ∈ others, effect.Uncalled := by
  obtain ⟨notices, heffects, hnotices⟩ := h
  exact ⟨notices, deeds_eq hjournal heffects, fun effect hmem => (hnotices effect hmem).uncalled⟩

/-- A request that is no move calls no policy. -/
theorem Served.deeds {caller : Identity} {request : Request} {simulation : Simulation}
    (served : Served server caller request none simulation) :
    ∃ others, simulation.world.effects = server.world.effects ++ others ∧
      ∀ effect ∈ others, effect.Uncalled := by
  cases served with
  | unrouted => exact ⟨[_], rfl, List.forall_mem_singleton.mpr nofun⟩
  | refused layer fault =>
    refine ⟨[_, _], List.append_assoc _ [_] [_], fun effect hmem => ?_⟩
    simp only [List.mem_cons, List.not_mem_nil, or_false] at hmem
    rcases hmem with rfl | rfl
    · exact nofun
    · exact nofun
  | @left layer entity =>
    obtain ⟨notices, heffects, hnotices⟩ := (World.leavePlace_outcome (server.world.record
      (.served request.service layer request.method caller)) entity).notifies
    refine ⟨.served request.service layer request.method caller :: (notices ++
      [.answer (server.listenerFor caller request) (.success .ack)]), ?_, fun effect hmem => ?_⟩
    · change (World.leavePlace _ entity).2.effects ++ _ = _
      rw [heffects]
      simp only [World.record, List.append_assoc, List.cons_append, List.nil_append]
    · rcases List.mem_cons.mp hmem with rfl | hmem
      · exact nofun
      · rcases List.mem_append.mp hmem with hnotice | hanswer
        · exact (hnotices effect hnotice).uncalled
        · rw [List.mem_singleton.mp hanswer]
          exact nofun

/-- An action adds to the deeds what its legs do. What else it adds calls no policy. -/
theorem deeds_act (h : server.BuiltIn) (action : Action) :
    ∃ others, (server.act action).deeds =
        server.deeds ++ (others ++ (server.legs action).flatMap Leg.effects) ∧
      ∀ effect ∈ others, effect.Uncalled := by
  by_cases hmoves : server.Moves action
  · obtain ⟨served, hserved, hpath⟩ := hmoves.path h
    refine ⟨served, deeds_eq ?_ ?_, fun effect hmem => ?_⟩
    · rcases hmoves with ⟨bodies, rfl⟩ | ⟨caller, request, rest, move, rfl, hrequests, -⟩
      · rfl
      · rw [act_serve hrequests]
        rfl
    · have hrecorded := hpath.recorded
      rw [List.append_assoc] at hrecorded
      exact hrecorded
    · obtain ⟨_, _, _, _, rfl⟩ := hserved effect hmem
      exact nofun
  · have hlegs : server.legs action = [] := List.eq_nil_iff_forall_not_mem.mpr fun leg hleg =>
      hmoves (moves_of_mem_legs hleg)
    rw [hlegs]
    suffices hothers : ∃ others, (server.act action).deeds = server.deeds ++ others ∧
        ∀ effect ∈ others, effect.Uncalled by
      obtain ⟨others, hdeeds, huncalled⟩ := hothers
      exact ⟨others, hdeeds.trans (by rw [List.flatMap_nil, List.append_nil]), huncalled⟩
    have houtcome := act_outcome server action
    generalize server.act action = after at houtcome
    cases houtcome with
    | ejects =>
      exact exists_deeds_of_notifies rfl (World.leavePlace_outcome server.world _).notifies
    | follows => exact exists_deeds_of_notifies rfl (notifies_followSession server.world _)
    | @serves caller request rest requests =>
      have hserved := runRequest_served { server with requests := rest } h caller request
      cases hmove : server.moveFor? caller request with
      | some move =>
        exact absurd (.inr ⟨caller, request, rest, move, rfl, requests, hmove⟩) hmoves
      | none =>
        rw [show ({ server with requests := rest } : Server).moveFor? caller request = none from
          hmove] at hserved
        obtain ⟨others, heffects, huncalled⟩ := hserved.deeds
        exact ⟨others, deeds_eq rfl heffects, huncalled⟩
    | advances bodies => exact absurd (.inl ⟨bodies, rfl⟩) hmoves
    | @delivers effect rest effects =>
      refine ⟨[], ?_, List.forall_mem_nil _⟩
      change (server.journal ++ [effect]) ++ rest = _
      rw [deeds, effects, List.append_nil, List.append_assoc]
      rfl
    | _ =>
      exact ⟨[], deeds_eq rfl (List.append_nil server.world.effects).symm, List.forall_mem_nil _⟩

/-- What the legs of a run did is among the deeds. -/
theorem mem_deeds_of_leg (h : server.BuiltIn) {actions : List Action} {leg : Leg}
    (hleg : leg ∈ server.collect legs actions) {effect : Effect} (heffect : effect ∈ leg.effects) :
    effect ∈ (server.run actions).deeds := by
  induction actions using List.reverseRecOn with
  | nil => cases hleg
  | append_singleton actions action ih =>
    obtain ⟨others, hdeeds, -⟩ := deeds_act (run_builtIn h actions) action
    rw [run_append]
    change effect ∈ ((server.run actions).act action).deeds
    rw [hdeeds]
    rw [collect_append] at hleg
    rcases List.mem_append.mp hleg with hold | hnew
    · exact List.mem_append_left _ (ih hold)
    · simp only [collect, List.append_nil] at hnew
      exact List.mem_append_right _ (List.mem_append_right _
        (List.mem_flatMap.mpr ⟨leg, hnew, heffect⟩))

/-- A move is answered by the last of its legs. -/
theorem exists_last_leg (config : ServerConfig) (loader : Loader CacheKey Bundle)
    (actions : List Action) {dispatch : Dispatch} {move : MoveRequest} {answer : Answer}
    (hdispatch : dispatch ∈ (Server.new config loader).collect dispatches actions)
    (hmove : dispatch.move = some move)
    (hanswer : .answer move.listener answer ∈ ((Server.new config loader).run actions).deeds) :
    Journey move (Leg.ofMove move ((Server.new config loader).collect legs actions)) .answered ∧
      ∃ earlier last, Leg.ofMove move ((Server.new config loader).collect legs actions) =
        earlier ++ [last] ∧ (∀ leg ∈ earlier, ∃ flight, leg.parked = some flight) ∧
        last.request = move ∧ last.parked = none ∧
        .answer move.listener answer ∈ last.effects := by
  have horderly := run_orderly config loader actions
  obtain ⟨standing, hjourney, hstanding, -⟩ :=
    (run_travels config loader actions).journey horderly hdispatch hmove
  have hanswered : move.listener ∈ ((Server.new config loader).run actions).answered := by
    rw [← answered_deeds]
    exact List.mem_filterMap.mpr ⟨_, hanswer, rfl⟩
  rw [hstanding.mpr hanswered] at hjourney
  obtain ⟨earlier, last, hsplit, hwaits, hmine, hparked⟩ := hjourney.exists_last
  obtain ⟨result, hresult⟩ := Leg.exists_answer hparked
  have hlast : last ∈ earlier ++ [last] :=
    List.mem_append_right earlier (List.mem_singleton.mpr rfl)
  rw [← hsplit] at hlast
  have hleg := (List.mem_filter.mp hlast).1
  have hdeed := mem_deeds_of_leg (new_builtIn config loader) hleg hresult
  have honce := horderly.accounted.once
  rw [← answered_deeds] at honce
  rw [hmine] at hresult hdeed
  rw [Effect.answer_unique honce hanswer hdeed]
  exact ⟨hjourney, earlier, last, hsplit, hwaits, hmine, hparked, hresult⟩

end Server

end SharedWorld
