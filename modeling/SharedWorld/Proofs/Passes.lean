import SharedWorld.Proofs.Recounts
import SharedWorld.Proofs.Refusals

/-!
# A move is worked off in a few passes

A move that is taken on goes round a loop: each pass looks at what the move waits for, and either
answers it, leaves it waiting, or lets it go on from its zone to its scene. The requests of one body
are begun in another loop, which goes on as long as they are answered at once. A loop is given here
by its body, which passes a state on or leaves with a result, so that it is a result that either of
them ends, and in how many passes (`Flight.step_loops`, `Launch.run_loops`).

A move resolves its zone when it is begun and its scene when it is let into the zone. As it never
goes back, it resolves each of them at most once in all its legs together (`Leg.consults`,
`Journey.taken_prefix`). -/

namespace SharedWorld

/-! ## Loops -/

/-- A loop with the given body that begins with a state leaves with a result, after a number of
passes. -/
inductive Loops {σ ρ : Type} (pass : σ → σ ⊕ ρ) : Nat → σ → ρ → Prop where
  | leaves {state : σ} {result : ρ} (leaves : pass state = .inr result) : Loops pass 1 state result
  | repeats {passes : Nat} {state next : σ} {result : ρ} (goes : pass state = .inl next)
    (rest : Loops pass passes next result) : Loops pass (passes + 1) state result

/-- One pass over a move: it waits, it is answered, or it goes on to its scene. -/
def Flight.pass : Flight × Realm → (Flight × Realm) ⊕ (Option Flight × Realm)
  | (⟨request, .resolvingZone resolution⟩, realm) =>
    match resolution.tryTake realm.world.cache with
    | (none, resolution) => .inr (some ⟨request, .resolvingZone resolution⟩, realm)
    | (some outcome, resolution) =>
      let held := Flight.held ⟨request, .resolvingZone resolution⟩
      match outcome.asZone with
      | .error _ => .inr (none, request.finish realm held (.failure .noSuchZone))
      | .ok zone =>
        match realm.world.body? request.entity with
        | none => .inr (none, request.finish realm held (.failure (.noBody request.entity)))
        | some body =>
          match realm.ratify body zone with
          | (some reason, realm) =>
            .inr (none, request.finish realm held (.failure (.vetoed reason)))
          | (none, realm) =>
            let (resolution, realm) := realm.acquire (.scene request.target.scene)
            .inl (⟨request, .resolvingScene zone resolution⟩, realm)
  | (⟨request, .resolvingScene zone resolution⟩, realm) =>
    .inr (Flight.stepScene request zone resolution realm)

/-- One pass over the requests of one body, with the number of those that were answered: the next
one is begun. -/
def Launch.pass : Nat × List MoveRequest × Realm → (Nat × List MoveRequest × Realm) ⊕ Launch
  | (finished, [], realm) => .inr ⟨finished, none, [], realm⟩
  | (finished, request :: rest, realm) =>
    match Flight.launch request realm with
    | (some flight, realm) => .inr ⟨finished, some flight, rest, realm⟩
    | (none, realm) => .inl (finished + 1, rest, realm)

/-- What a pass comes to: a result, which is that of the move as it was, or the move at its scene,
to be taken on from there. -/
theorem Flight.pass_cases (flight : Flight) (realm : Realm) :
    Flight.pass (flight, realm) = .inr (flight.step realm) ∨
      ∃ zone resolution realm', Flight.pass (flight, realm) =
          .inl (⟨flight.request, .resolvingScene zone resolution⟩, realm') ∧
        flight.step realm = Flight.stepScene flight.request zone resolution realm' := by
  obtain ⟨request, stage⟩ := flight
  cases stage with
  | resolvingScene zone resolution => exact .inl rfl
  | resolvingZone resolution =>
    unfold pass step
    dsimp only
    unfold stepZone
    rcases resolution.tryTake realm.world.cache with ⟨_ | load, resolution⟩
    · exact .inl rfl
    · dsimp only
      cases load.asZone with
      | error => exact .inl rfl
      | ok zone =>
        dsimp only
        cases realm.world.body? request.entity with
        | none => exact .inl rfl
        | some body =>
          dsimp only
          rcases realm.ratify body zone with ⟨_ | veto, realm⟩
          · exact .inr ⟨zone, _, _, rfl, rfl⟩
          · exact .inl rfl

/-- A move that is taken on is looked at twice at most. -/
theorem Flight.step_loops (flight : Flight) (realm : Realm) :
    ∃ passes ≤ 2, Loops Flight.pass passes (flight, realm) (flight.step realm) := by
  rcases flight.pass_cases realm with hpass | ⟨zone, resolution, realm', hpass, hstep⟩
  · exact ⟨1, by omega, .leaves hpass⟩
  · exact ⟨2, by omega, .repeats hpass (.leaves (congrArg Sum.inr hstep.symm))⟩

/-- The requests of a body are begun until one waits or none is left. -/
theorem Launch.run_loops (requests : List MoveRequest) (realm : Realm) :
    ∃ passes ≤ requests.length + 1,
      Loops Launch.pass passes (0, requests, realm) (Launch.run realm requests) := by
  suffices h : ∀ finished, ∃ passes ≤ requests.length + 1,
      Loops Launch.pass passes (finished, requests, realm)
        { Launch.run realm requests with
          finished := finished + (Launch.run realm requests).finished } by
    simpa using h 0
  induction requests generalizing realm with
  | nil => exact fun finished => ⟨1, by simp, .leaves rfl⟩
  | cons request rest ih =>
    intro finished
    rcases hlaunch : Flight.launch request realm with ⟨_ | flight, realm'⟩
    · obtain ⟨passes, hpasses, hrest⟩ := ih realm' (finished + 1)
      have hgoes : Launch.pass (finished, request :: rest, realm) =
          .inl (finished + 1, rest, realm') := by
        simp only [pass, hlaunch]
      refine ⟨passes + 1, by simpa using hpasses, .repeats hgoes ?_⟩
      simpa only [Launch.run, hlaunch, Nat.add_assoc, Nat.add_comm 1] using hrest
    · have hleaves : Launch.pass (finished, request :: rest, realm) =
          .inr ⟨finished, some flight, rest, realm'⟩ := by
        simp only [pass, hlaunch]
      refine ⟨1, by simp, ?_⟩
      simpa only [Launch.run, hlaunch, Nat.add_zero] using Loops.leaves hleaves

/-! ## What is resolved -/

namespace Cache

variable {κ π : Type} [Ord κ] [Std.TransOrd κ] [DecidableEq κ] {before middle after : Cache κ π}
  {keys more : List κ}

/-- One cache becomes the other by resolving the listed keys, in this order, and by taking
references and giving them back in between. -/
inductive Consults (before : Cache κ π) : List κ → Cache κ π → Prop where
  | refl : Consults before [] before
  | resolves {keys : List κ} {after : Cache κ π} (h : Consults before keys after) (key : κ) :
    Consults before (keys ++ [key]) (after.resolve key).2
  | retains {keys : List κ} {after : Cache κ π} (h : Consults before keys after) (key : κ) :
    Consults before keys (after.retain key).2
  | releases {keys : List κ} {after : Cache κ π} (h : Consults before keys after) (key : κ) :
    Consults before keys (after.release key)

/-- The keys that were consulted add up step by step. -/
theorem Consults.trans (first : before.Consults keys middle) (rest : middle.Consults more after) :
    before.Consults (keys ++ more) after := by
  induction rest with
  | refl => rwa [List.append_nil]
  | resolves _ key ih =>
    rw [← List.append_assoc]
    exact ih.resolves key
  | retains _ key ih => exact ih.retains key
  | releases _ key ih => exact ih.releases key

/-- Resolving further keys consults these as well. -/
theorem Consults.acquires (h : before.Consults keys after) (more : List κ) :
    before.Consults (keys ++ more) (more.foldl Cache.acquire after) := by
  induction more generalizing keys after with
  | nil => rwa [List.append_nil]
  | cons key more ih =>
    have hrest := ih ((h.resolves key).retains key)
    rwa [List.append_assoc] at hrest

/-- Giving references back consults nothing. -/
theorem Consults.releasesAll (h : before.Consults keys after) (held : List κ) :
    before.Consults keys (held.foldl Cache.release after) := by
  induction held generalizing after with
  | nil => exact h
  | cons key held ih => exact ih (h.releases key)

end Cache

namespace World

variable {world after : World}

/-- A body that leaves a place resolves nothing. -/
theorem consults_vacate (world : World) (change : BodyChange) :
    world.cache.Consults [] (world.vacate change).cache := by
  rcases world.vacate_cases change with hstays | ⟨zone, scene, place, location, -, hleaves⟩
  · rw [hstays]
    exact .refl
  · rw [hleaves, cache_dropIfEmpty]
    exact (Cache.Consults.refl.releases (CacheKey.zone zone)).releases (.scene scene)

/-- Nor does one that is put into a place. -/
theorem CommitOutcome.consults {entity : EntityId} {zone : ZoneId} {place : PlaceId}
    {location : LocationId} {result : Except CommitError BodyChange}
    (outcome : CommitOutcome world entity zone place location result after) :
    world.cache.Consults [] after.cache := by
  cases outcome with
  | bodyless => rw [cache_dropIfEmpty]; exact .refl
  | placeless => exact .refl
  | full => rw [cache_dropIfEmpty]; exact .refl
  | shifts => rw [note, broadcast_eq]; exact .refl
  | @enters body host =>
    rw [note, broadcast_eq]
    have hvacate := consults_vacate
      (world.replace (body.movedTo (.inside zone host.scene place location)))
      (body.changeTo (.inside zone host.scene place location))
    exact (hvacate.retains (.zone zone)).retains (.scene host.scene)

end World

/-- Landing a move consults nothing. -/
theorem MoveRequest.consults_land {request : MoveRequest} {zone : ZoneSummary}
    {load : LoadOutcome Bundle} {world after : World} {answer : Answer}
    (h : request.land zone load world = (answer, after)) :
    world.cache.Consults [] after.cache := by
  rcases land_cases h with ⟨-, rfl⟩ | ⟨model, -, hentry⟩
  · exact .refl
  · rw [← world.cache_placeFor model]
    cases hentry with
    | unlisted =>
      rw [world.cache_placeFor model]
      exact .refl
    | refused commit => exact commit.consults
    | entered commit => exact commit.consults

namespace Leg

variable {leg : Leg} {zone : ZoneSummary} {inquiry : List Effect}
  {resolution : Resolution CacheKey Bundle} {realm : Realm}

/-- A leg that looks for its zone has resolved it, if it begins the move. -/
theorem consults_of_quest (quest : leg.quest? = some (resolution, realm)) :
    leg.before.world.cache.Consults
      (if leg.stage? = none then [.zone leg.request.target.zone] else []) realm.world.cache := by
  rw [(quest_cache quest).1]
  exact Cache.Consults.refl.acquires _

/-- A leg that has got through to the scene has resolved all that it takes. -/
theorem Reaches.consults (reaches : leg.Reaches zone inquiry resolution realm) :
    leg.before.world.cache.Consults leg.taken realm.world.cache := by
  rw [reaches.held.1]
  exact Cache.Consults.refl.acquires _

/-- Finishing a move consults nothing. -/
theorem consults_finish {request : MoveRequest} {realm : Realm} {cache : Cache CacheKey Bundle}
    {keys : List CacheKey} (h : cache.Consults keys realm.world.cache) (held : List CacheKey)
    (answer : Answer) : cache.Consults keys (request.finish realm held answer).world.cache := by
  rw [MoveRequest.finish, World.foldl_release]
  exact h.releasesAll held

/-- A leg resolves exactly the keys that it is said to take. -/
theorem consults (leg : Leg) : leg.before.world.cache.Consults leg.taken leg.after.world.cache := by
  have hending := leg.ending
  generalize leg.after = after, leg.effects = effects, leg.parked = flight at hending
  cases hending with
  | awaitsZone quest load =>
    rw [taken_of_waits quest load]
    exact consults_of_quest quest
  | @stopped resolution realm load fault quest outcome refused =>
    rw [(taken_of_stopped quest outcome refused).1]
    refine consults_finish ?_ _ _
    rw [MoveRequest.inquire_world]
    exact consults_of_quest quest
  | awaitsScene reaches load => exact reaches.consults
  | refused reaches outcome lands =>
    have hlanded := reaches.consults.trans (MoveRequest.consults_land lands)
    rw [List.append_nil] at hlanded
    exact consults_finish hlanded _ _
  | entered reaches outcome lands noticed quiet =>
    have hlanded := reaches.consults.trans (MoveRequest.consults_land lands)
    rw [List.append_nil] at hlanded
    rw [Realm.cache_announce]
    exact consults_finish hlanded _ _

/-- What a move holds before a leg and what the leg takes are its zone, or its zone and its
scene. -/
theorem held_taken_prefix (leg : Leg) :
    (leg.stage?.elim [] fun stage => Flight.held ⟨leg.request, stage⟩) ++ leg.taken <+:
      leg.request.keys := by
  have hzone : [.zone leg.request.target.zone] <+: leg.request.keys :=
    ⟨[.scene leg.request.target.scene], rfl⟩
  have hending := leg.ending
  generalize leg.after = after, leg.effects = effects, leg.parked = flight at hending
  cases hending with
  | awaitsZone quest load =>
    rw [taken_of_waits quest load, (quest_cache quest).2]
    exact hzone
  | stopped quest outcome refused =>
    rw [(taken_of_stopped quest outcome refused).1, (quest_cache quest).2]
    exact hzone
  | awaitsScene reaches =>
    simp only [reaches.held.2.1, List.prefix_rfl]
  | refused reaches =>
    simp only [reaches.held.2.1, List.prefix_rfl]
  | entered reaches =>
    simp only [reaches.held.2.1, List.prefix_rfl]

end Leg

/-- In all its legs together, a move resolves its zone and then its scene, each once at most. -/
theorem Journey.taken_prefix {request : MoveRequest} {legs : List Leg} {standing : Standing}
    (h : Journey request legs standing) : legs.flatMap Leg.taken <+: request.keys := by
  cases h with
  | unbegun => exact List.nil_prefix
  | begins leg mine begins =>
    have hleg := leg.held_taken_prefix
    rw [begins, mine] at hleg
    rwa [List.flatMap_singleton]
  | @resumes earlier stage before leg mine resumes =>
    -- A move that waits has given nothing back, so it holds all that it has taken.
    obtain ⟨htaken, hreturned⟩ := before.balance
    rw [hreturned nofun, List.nil_append] at htaken
    have hleg := leg.held_taken_prefix
    rw [resumes, mine] at hleg
    rw [List.flatMap_append, List.flatMap_singleton, htaken]
    exact hleg

end SharedWorld
