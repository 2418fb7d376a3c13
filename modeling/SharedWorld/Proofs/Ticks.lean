import Mathlib.Logic.Relation
import SharedWorld.Proofs.Wakeups

/-!
# No move stays parked that can go on

A tick is a thread among others: while it follows the sessions, runs requests, settles loads and
takes moves on, connections come and go, requests arrive and loads complete at any time. Moves are
taken on only in rounds in which something was settled, and only those that were under way when the
round began; a load can complete, and a queued request can be begun, when a round has passed it by.
Still, whenever no tick is under way, every move that was not answered is on the list of a pending
entry whose load is still to be settled (`Server.reaches_wakeful`).
-/

namespace SharedWorld.Server

/-- How far the thread of the ticks is. -/
inductive Phase where
  /-- No tick is under way. -/
  | idle
  /-- Bodies follow the sessions, and requests are run. -/
  | serving
  /-- Outcomes are settled. `any` tells whether there were any in this round. -/
  | settling (any : Bool)
  /-- The moves of the listed bodies are still to be taken on in this round. -/
  | advancing (due : List EntityId)

/-- The actions that are not the tick's own. Handing out effects and changes is counted among them,
as it may happen at any time. -/
def Action.isForeign : Action → Bool
  | .follow | .serve | .settle | .advance _ => false
  | _ => true

/-- What can happen next, while a tick is under way or not. -/
inductive Next : Phase × Server → Phase × Server → Prop where
  | foreign {phase : Phase} {server : Server} {action : Action}
    (foreign : action.isForeign = true) : Next (phase, server) (phase, server.act action)
  | begins {server : Server} : Next (.idle, server) (.serving, server)
  | follows {server : Server} : Next (.serving, server) (.serving, server.act .follow)
  | serves {server : Server} : Next (.serving, server) (.serving, server.act .serve)
  /-- The first round begins. -/
  | turns {server : Server} : Next (.serving, server) (.settling false, server)
  | settles {any : Bool} {server : Server} :
    Next (.settling any, server) (.settling true, server.act .settle)
  /-- No outcome is left, and some were settled. The moves under way are taken on in any order. -/
  | lists {server : Server} {due : List EntityId} (none : server.world.cache.arrived = [])
    (all : due.Perm server.simulation.pipeline.inFlight.keys) :
    Next (.settling true, server) (.advancing due, server)
  | advances {entity : EntityId} {due : List EntityId} {server : Server} :
    Next (.advancing (entity :: due), server) (.advancing due, server.act (.advance [entity]))
  /-- The next round begins. -/
  | rounds {server : Server} : Next (.advancing [], server) (.settling false, server)
  /-- No outcome is left, and none was settled in this round. -/
  | ends {server : Server} (none : server.world.cache.arrived = []) :
    Next (.settling false, server) (.idle, server)

/-- What can happen sooner or later. -/
abbrev Reaches : Phase × Server → Phase × Server → Prop := Relation.ReflTransGen Next

/-- The bodies whose moves can have what they wait for without having been taken on. -/
def Phase.due : Phase → EntityId → Prop
  | .idle, _ | .serving, _ | .settling false, _ => False
  | .settling true, _ => True
  | .advancing due, entity => entity ∈ due

/-- The moves are attended to, and only those that are due can go on. -/
structure Attentive (phase : Phase) (server : Server) : Prop where
  orderly : ∃ seen, server.Orderly seen
  kept : ∃ bound, server.simulation.Kept phase.due bound

variable {phase : Phase} {server after : Server} {due due' : EntityId → Prop} {bound : Nat}

/-! ## What one action preserves -/

/-- What touches only the cache, and settles nothing there, leaves the moves attended to. -/
theorem kept_withWorld (h : server.simulation.Kept due bound) {world : World}
    (hstarts : Cache.Starts 0 server.world.cache world.cache) :
    (server.withWorld world).simulation.Kept due bound := by
  have hbounded : server.simulation.pipeline.backlog server.world.cache ≤ bound := h.bounded
  have hloads := hstarts.outstanding
  refine ⟨hstarts.single, h.attended.starts hstarts, ?_⟩
  change server.simulation.pipeline.backlog world.cache ≤ bound
  dsimp only [Pipeline.backlog] at hbounded ⊢
  omega

/-- Running a request keeps the moves attended to: one that is begun is listed at once. -/
theorem Served.kept {caller : Identity} {request : Request} {move : Option MoveRequest}
    {simulation : Simulation} (served : Served server caller request move simulation)
    (h : server.simulation.Kept due bound) : ∃ bound', simulation.Kept due bound' := by
  cases served with
  | unrouted => exact ⟨bound, kept_withWorld h (.refl h.single)⟩
  | refused => exact ⟨bound, kept_withWorld h (.refl h.single)⟩
  | @left layer entity body =>
    have hleave := (World.leavePlace_outcome (server.world.record
      (.served request.service layer request.method caller)) entity).recounts h.single.sound
    exact ⟨bound, kept_withWorld h (h.single.starts_of_recounts hleave)⟩
  | @begun layer move body listener =>
    have hrecord : (server.withWorld (server.world.record
        (.served request.service layer request.method caller))).simulation.Kept due bound :=
      kept_withWorld h (.refl h.single)
    exact ⟨bound + 2, Pipeline.Kept.begin hrecord move⟩

/-- An action of other threads leaves the moves attended to. -/
theorem ActOutcome.kept {action : Action} (outcome : ActOutcome server action after)
    (hforeign : action.isForeign = true) (h : server.simulation.Kept due bound) :
    after.simulation.Kept due bound := by
  cases outcome with
  | reports key outcome => exact kept_withWorld h (h.single.starts_report key outcome)
  | @ejects identity entity body =>
    have hleave := (server.world.leavePlace_outcome entity).recounts h.single.sound
    exact kept_withWorld h (h.single.starts_of_recounts hleave)
  | governs zones => exact ⟨h.single, ⟨h.attended.serves, h.attended.waits⟩, h.bounded⟩
  | delivers effects => exact kept_withWorld h (.refl h.single)
  | takesChanges => exact kept_withWorld h (.refl h.single)
  | follows | followsNothing | serves | servesNothing | settles | advances => cases hforeign
  | _ => exact h

/-- Settling an outcome makes every move due. -/
theorem kept_settle (h : server.simulation.Kept due bound) :
    ∃ bound', (server.act .settle).simulation.Kept (fun _ => True) bound' :=
  ⟨_, h.single.settleNext, ⟨fun hflight => h.single.serves_settleNext (h.attended.serves hflight),
    fun _ hdue => absurd trivial hdue⟩, Nat.le_refl _⟩

/-- The moves are kept when an event of a session is followed. -/
theorem kept_follow (h : server.simulation.Kept due bound) :
    (server.act .follow).simulation.Kept due bound := by
  have outcome := act_outcome server .follow
  generalize server.act .follow = after at outcome ⊢
  cases outcome with
  | @follows event rest events =>
    exact kept_withWorld h
      (h.single.starts_of_recounts (recounts_followSession h.single.sound event))
  | followsNothing => exact h

/-- The moves are kept when a request is dispatched. -/
theorem kept_serve (hbuiltIn : server.BuiltIn) (h : server.simulation.Kept due bound) :
    ∃ bound', (server.act .serve).simulation.Kept due bound' := by
  have outcome := act_outcome server .serve
  generalize server.act .serve = after at outcome ⊢
  cases outcome with
  | @serves caller request rest requests =>
    have hserved := runRequest_served { server with requests := rest } hbuiltIn caller request
    exact hserved.kept h
  | servesNothing => exact ⟨bound, h⟩

/-- The moves are kept when some of them are taken on, and these are due no more. -/
theorem kept_advance (h : server.simulation.Kept due bound) (bodies : List EntityId) :
    (server.act (.advance bodies)).simulation.Kept (fun other => due other ∧ other ∉ bodies)
      bound :=
  Pipeline.Kept.advanceIn h bodies

/-- Whatever happens next, the moves stay attended to. -/
theorem Next.attentive {start finish : Phase × Server} (next : Next start finish)
    (h : start.2.Attentive start.1) : finish.2.Attentive finish.1 := by
  obtain ⟨⟨seen, horderly⟩, bound, hkept⟩ := h
  have hact : ∀ action, ∃ seen, (start.2.act action).Orderly seen :=
    fun action => ⟨_, (act_outcome start.2 action).orderly horderly⟩
  cases next with
  | @foreign phase server action foreign =>
    exact ⟨hact action, bound, (act_outcome server action).kept foreign hkept⟩
  | begins => exact ⟨⟨seen, horderly⟩, bound, hkept⟩
  | follows => exact ⟨hact .follow, bound, kept_follow hkept⟩
  | serves => exact ⟨hact .serve, kept_serve horderly.builtIn hkept⟩
  | turns => exact ⟨⟨seen, horderly⟩, bound, hkept⟩
  | settles => exact ⟨hact .settle, kept_settle hkept⟩
  | lists none all =>
    refine ⟨⟨seen, horderly⟩, bound, hkept.mono fun hflight _ => all.mem_iff.mpr ?_⟩
    exact List.mem_map_of_mem (Table.get?_eq_some_iff.mp hflight)
  | @advances entity due server =>
    refine ⟨hact (.advance [entity]), bound, (kept_advance hkept [entity]).mono fun _ hdue => ?_⟩
    exact (List.mem_cons.mp hdue.1).resolve_left fun heq => hdue.2 (List.mem_singleton.mpr heq)
  | rounds => exact ⟨⟨seen, horderly⟩, bound, hkept.mono fun _ hdue => List.not_mem_nil hdue⟩
  | ends none => exact ⟨⟨seen, horderly⟩, bound, hkept⟩

/-- A server that attends to its moves does so whatever it comes to. -/
theorem Reaches.attentive {start finish : Phase × Server} (h : Reaches start finish)
    (hstart : start.2.Attentive start.1) : finish.2.Attentive finish.1 := by
  induction h with
  | refl => exact hstart
  | tail _ next ih => exact next.attentive ih

/-- A new server attends to its moves, as there are none. -/
theorem new_attentive (config : ServerConfig) (loader : Loader CacheKey Bundle) :
    (Server.new config loader).Attentive .idle :=
  ⟨⟨[], new_orderly config loader⟩, _, Cache.singleFlight_new config.idleCapacity loader,
    ⟨nofun, nofun⟩, Nat.le_refl _⟩

/-! ## A tick that nothing disturbs -/

section Undisturbed

variable {kind : Action → Prop} {start finish : Server}

/-- What actions that a phase allows lead to is reached in the phase. -/
theorem Leads.reaches (h : Leads kind start finish)
    (hnext : ∀ action, kind action → ∀ server, Next (phase, server) (phase, server.act action)) :
    Reaches (phase, start) (phase, finish) := by
  obtain ⟨actions, hall, rfl⟩ := h
  induction actions generalizing start with
  | nil => exact .refl
  | cons action rest ih =>
    exact .head (hnext action (hall action List.mem_cons_self) start)
      (ih fun other hmem => hall other (List.mem_cons_of_mem _ hmem))

/-- What can take place as a tick opens is reached while it serves. -/
theorem Leads.reaches_opening (h : Leads Action.Opening start finish) :
    Reaches (.serving, start) (.serving, finish) := by
  refine h.reaches fun action hopening server => ?_
  cases hopening with
  | follow => exact .follows
  | expire now grace => exact .foreign rfl
  | serve => exact .serves
  | deliver => exact .foreign rfl

/-- What can take place as a tick closes is reached in every phase. -/
theorem Leads.reaches_closing (h : Leads Action.Closing start finish) :
    Reaches (phase, start) (phase, finish) := by
  refine h.reaches fun action hclosing server => ?_
  cases hclosing with
  | deliver => exact .foreign rfl
  | takeChanges => exact .foreign rfl

/-- Handing things out does not touch the cache. -/
theorem Leads.cache_closing (h : Leads Action.Closing start finish) :
    finish.world.cache = start.world.cache := by
  obtain ⟨actions, hall, rfl⟩ := h
  induction actions generalizing start with
  | nil => rfl
  | cons action rest ih =>
    refine (ih fun other hmem => hall other (List.mem_cons_of_mem _ hmem)).trans ?_
    have outcome := act_outcome start action
    have hclosing := hall action List.mem_cons_self
    generalize start.act action = after at outcome ⊢
    cases hclosing with
    | deliver => cases outcome <;> rfl
    | takeChanges => cases outcome; rfl

/-- If there are outcomes, the settling of all of them is a round. -/
theorem reaches_maintain (server : Server) (h : server.world.cache.arrived ≠ []) :
    Reaches (.settling false, server)
      (.settling true, { server with simulation := server.simulation.maintain.2 }) := by
  obtain ⟨actions, hall, hrun⟩ := leads_maintain server
  rw [← hrun]
  cases actions with
  | nil =>
    have harrived : server.world.cache.arrived = [] := by
      have hmaintain := server.world.cache.maintain_arrived
      rwa [show server.world.cache.maintain.2 = server.world.cache from
        congrArg (fun server => server.world.cache) hrun.symm] at hmaintain
    exact absurd harrived h
  | cons action rest =>
    cases hall action List.mem_cons_self
    have hrest : Leads (Action.settle = ·) (server.act .settle)
        ((server.act .settle).run rest) :=
      ⟨rest, fun other hmem => hall other (List.mem_cons_of_mem _ hmem), rfl⟩
    refine .head .settles (hrest.reaches fun other heq server => ?_)
    cases heq
    exact .settles

/-- The moves of a round are taken on one after the other. -/
theorem reaches_advance (server : Server) (due : List EntityId) :
    Reaches (.advancing due, server) (.advancing [], server.act (.advance due)) := by
  induction due generalizing server with
  | nil => exact .refl
  | cons entity rest ih => exact .head .advances (ih (server.act (.advance [entity])))

/-- What the rounds of a tick come to is reached while it settles. -/
theorem reaches_settleWithin (rounds : Nat) (server : Server) :
    Reaches (.settling false, server)
      (.settling false, { server with simulation := server.simulation.settleWithin rounds }) := by
  induction rounds generalizing server with
  | zero => exact .refl
  | succ rounds ih =>
    by_cases harrived : server.world.cache.arrived = []
    · rw [Simulation.settleWithin_of_none harrived]
    · rw [Simulation.settleWithin_of_some harrived]
      have hlists : Next
          (.settling true, { server with simulation := server.simulation.maintain.2 })
          (.advancing server.simulation.pipeline.inFlight.keys,
            { server with simulation := server.simulation.maintain.2 }) :=
        .lists server.world.cache.maintain_arrived (.refl _)
      have hmoves := reaches_advance { server with simulation := server.simulation.maintain.2 }
        server.simulation.pipeline.inFlight.keys
      exact (((reaches_maintain server harrived).tail hlists).trans (hmoves.tail .rounds)).trans
        (ih _)

/-- A tick that nothing disturbs comes to its end, and no outcome is left to be settled. -/
theorem Attentive.receiveIn (h : server.Attentive .idle) (order : List Identity) (now : Instant) :
    Reaches (.idle, server) (.idle, (server.receiveIn order now).2) ∧
      (server.receiveIn order now).2.world.cache.arrived = [] := by
  obtain ⟨served, hopen, hclose⟩ := server.exists_served order now
  have hserving : Reaches (.idle, server) (.serving, served) := .head .begins hopen.reaches_opening
  obtain ⟨bound, hkept⟩ := (hserving.attentive h).kept
  have hsettled := hkept.settle.2
  have hrounds := reaches_settleWithin served.simulation.settlingRounds served
  refine ⟨((hserving.tail .turns).trans (hrounds.tail (.ends hsettled))).trans
    hclose.reaches_closing, ?_⟩
  rw [hclose.cache_closing]
  exact hsettled

end Undisturbed

/-! ## Between ticks -/

/-- Requests wait only behind moves under way, and each of these waits for a load that is still to
be settled. -/
structure Wakeful (server : Server) : Prop where
  queued : ∀ {entity}, server.simulation.pipeline.queueOf entity ≠ [] →
    server.simulation.pipeline.isMoving entity = true
  /-- The entry that a move waits for is pending, the move's ticket is among its waiters, and its
  load is not among those that were settled. -/
  waits : ∀ {entity flight}, server.simulation.pipeline.inFlight.get? entity = some flight →
    ∃ ticket waiters refs, flight.resolution = .waiting flight.key ticket ∧
      server.world.cache.entries.get? flight.key = some ⟨.pending waiters, refs⟩ ∧
      ticket ∈ waiters ∧ flight.key ∈ server.world.cache.outstanding
  /-- No move has the outcome that it waits for. -/
  unready : ∀ {entity flight}, server.simulation.pipeline.inFlight.get? entity = some flight →
    flight.resolution.outcome? server.world.cache = none

/-- A server that attends to its moves between ticks wakes every move that can go on. -/
theorem Attentive.wakeful (h : server.Attentive .idle) : server.Wakeful := by
  obtain ⟨⟨seen, horderly⟩, bound, hkept⟩ := h
  refine ⟨fun {entity} hqueued => ?_, fun {entity flight} hflight => ?_, fun hflight => ?_⟩
  · cases hflight : server.simulation.pipeline.inFlight.get? entity with
    | none => exact absurd (horderly.tidy hflight) hqueued
    | some flight => exact Table.contains_iff.mpr ⟨flight, hflight⟩
  · obtain ⟨ticket, hwaiting, hlists, -⟩ := hkept.attended.waits hflight id
    obtain ⟨waiters, hwaiters, hmem⟩ := Cache.lists_iff_exists.mp hlists
    obtain ⟨refs, hentry⟩ := Cache.waiters?_eq_some_iff.mp hwaiters
    refine ⟨ticket, waiters, refs, hwaiting, hentry, hmem, (hkept.single.pending_iff _).mp ?_⟩
    exact congrArg Option.isSome hwaiters
  · exact (hkept.attended.waits hflight id).outcome?

/-- Whenever no tick is under way, every move under way waits for a load that is still to be
settled, in whatever order loads, requests and ticks came. A tick that nothing disturbs leads to
such a state, whatever the order in which sessions expire, and leaves no outcome to be settled. -/
theorem reaches_wakeful (config : ServerConfig) (loader : Loader CacheKey Bundle)
    (h : Reaches (.idle, Server.new config loader) (.idle, server)) :
    server.Wakeful ∧ ∀ order now,
      Reaches (.idle, server) (.idle, (server.receiveIn order now).2) ∧
        (server.receiveIn order now).2.Wakeful ∧
        (server.receiveIn order now).2.world.cache.arrived = [] := by
  have hattentive : server.Attentive .idle := h.attentive (new_attentive config loader)
  refine ⟨hattentive.wakeful, fun order now => ?_⟩
  obtain ⟨hreaches, harrived⟩ := hattentive.receiveIn order now
  have hafter : (server.receiveIn order now).2.Attentive .idle := hreaches.attentive hattentive
  exact ⟨hreaches, hafter.wakeful, harrived⟩

/-- What other threads do can be done at any time. -/
theorem reaches_foreign (server : Server) (actions : List Action)
    (h : ∀ action ∈ actions, action.isForeign = true) :
    Reaches (phase, server) (phase, server.run actions) :=
  Leads.reaches ⟨actions, h, rfl⟩ fun _ hforeign _ => .foreign hforeign

/-- Two moves of one participant arrive, and a tick begins the first. The zone it waits for is
loaded then, and the next tick takes it on. -/
def stalled : Server :=
  let begun := (((Server.new {} .manual).run [.connect 0 1 ⟨"ada"⟩ none, .move ⟨"ada"⟩ ⟨1, 1, 1⟩,
    .move ⟨"ada"⟩ ⟨2, 2, 1⟩]).receive 0).2
  ((begun.run [.report (.zone 1) (.loaded (.zone ⟨1, "town", []⟩))]).receive 0).2

/-- A server can get to where a move waits for its load. -/
theorem reaches_stalled : Reaches (.idle, Server.new {} .manual) (.idle, stalled) := by
  have hnew := new_attentive {} .manual
  have harrived : Reaches (.idle, Server.new {} .manual) (.idle, (Server.new {} .manual).run
      [.connect 0 1 ⟨"ada"⟩ none, .move ⟨"ada"⟩ ⟨1, 1, 1⟩, .move ⟨"ada"⟩ ⟨2, 2, 1⟩]) :=
    reaches_foreign _ _ (by simp [Action.isForeign, Action.move])
  have hbegun := harrived.trans (Attentive.receiveIn (harrived.attentive hnew) [] 0).1
  have hloaded := hbegun.trans (reaches_foreign _
    [.report (.zone 1) (.loaded (.zone ⟨1, "town", []⟩))] (by simp [Action.isForeign]))
  exact hloaded.trans (Attentive.receiveIn (Reaches.attentive hloaded hnew) [] 0).1

/-- The first move waits for its scene then, and the second is queued behind it. -/
theorem stalled_wakeful :
    stalled.simulation.pipeline.inFlight.values.map Flight.key = [.scene 1] ∧
      stalled.simulation.pipeline.queuedCount 1 = 1 ∧
      stalled.Wakeful ∧ ∀ order now,
        Reaches (.idle, stalled) (.idle, (stalled.receiveIn order now).2) ∧
          (stalled.receiveIn order now).2.Wakeful ∧
          (stalled.receiveIn order now).2.world.cache.arrived = [] :=
  ⟨by decide +kernel, by decide +kernel, reaches_wakeful {} .manual reaches_stalled⟩

end SharedWorld.Server
