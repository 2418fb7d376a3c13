import SharedWorld.Proofs.Passes
import SharedWorld.Proofs.Ticks

/-!
# The rounds of a tick come to an end

At the end of a tick, outcomes are settled and moves are taken on in rounds, until a round has
nothing to settle. No queue gets shorter with each of them: a load that is settled lets a move start
its next one, and a move that is answered lets the requests behind it start theirs. What does get
smaller is `Server.backlog`, the loads that can still come: those that are outstanding, one for each
move that waits for its zone, and two for each request that waits behind a move. Every outcome that
is settled lowers it, and nothing raises it, as no move asks for its zone or its scene twice. Other
threads may report loads at any time meanwhile; these were outstanding before (`Server.run_halts`).
-/

namespace SharedWorld

/-- An outcome that is settled was outstanding. -/
theorem Cache.outstanding_settleNext {κ π : Type} [Ord κ] [Std.TransOrd κ] [DecidableEq κ]
    {cache : Cache κ π} (h : cache.arrived ≠ []) :
    cache.settleNext.outstanding.length + 1 = cache.outstanding.length := by
  obtain ⟨⟨key, outcome⟩, rest, harrived⟩ := List.exists_cons_of_ne_nil h
  have hloads := settle_sameLoads { cache with arrived := rest } key outcome
  have hnext : cache.settleNext = { cache with arrived := rest }.settle key outcome := by
    simp only [settleNext, harrived]
  rw [hnext, hloads.outstanding]
  simp [outstanding, harrived, Nat.add_assoc]

namespace Server

variable {server : Server} {action : Action}

/-! ## What can still come -/

/-- How many loads there can still be to settle. -/
def backlog (server : Server) : Nat :=
  server.simulation.pipeline.backlog server.world.cache

/-- One load is outstanding for each pending entry, and every move under way waits on the list of
one, or has what it waits for. -/
def Attended (server : Server) : Prop := server.simulation.Kept (fun _ => True) server.backlog

/-- Moves that are kept in a server are attended to. -/
theorem attended_of_kept {due : EntityId → Prop} {bound : Nat}
    (h : server.simulation.Kept due bound) : server.Attended :=
  ⟨h.single, h.attended.mono fun _ _ => trivial, Nat.le_refl _⟩

/-- What other threads do starts no load. -/
theorem Attended.foreign (h : server.Attended) (hforeign : action.isForeign = true) :
    (server.act action).Attended ∧ (server.act action).backlog ≤ server.backlog := by
  have hkept := (act_outcome server action).kept hforeign h
  exact ⟨attended_of_kept hkept, hkept.bounded⟩

/-- A move that is taken on starts no more loads than were to be expected. -/
theorem Attended.advance (h : server.Attended) (bodies : List EntityId) :
    (server.act (.advance bodies)).Attended ∧
      (server.act (.advance bodies)).backlog ≤ server.backlog := by
  have hkept := kept_advance h bodies
  exact ⟨attended_of_kept hkept, hkept.bounded⟩

/-- An outcome that is settled is no more to come. -/
theorem Attended.settle (h : server.Attended) (harrived : server.world.cache.arrived ≠ []) :
    (server.act .settle).Attended ∧ (server.act .settle).backlog + 1 = server.backlog := by
  obtain ⟨bound, hkept⟩ := kept_settle h
  refine ⟨attended_of_kept hkept, ?_⟩
  have hload := Cache.outstanding_settleNext harrived
  change server.simulation.pipeline.backlog server.world.cache.settleNext + 1 = _
  rw [backlog, Pipeline.backlog, Pipeline.backlog]
  omega

/-- Whatever an action is, the moves are attended to after it. -/
theorem Attended.act (h : server.Attended) (hbuiltIn : server.BuiltIn) (action : Action) :
    (server.act action).Attended := by
  cases action with
  | follow => exact attended_of_kept (kept_follow h)
  | serve =>
    obtain ⟨bound, hkept⟩ := kept_serve hbuiltIn h
    exact attended_of_kept hkept
  | settle =>
    obtain ⟨bound, hkept⟩ := kept_settle h
    exact attended_of_kept hkept
  | advance bodies => exact (h.advance bodies).1
  | _ => exact (h.foreign rfl).1

/-- In every run, the moves that wait are attended to. -/
theorem run_attended (config : ServerConfig) (loader : Loader CacheKey Bundle)
    (actions : List Action) : ((Server.new config loader).run actions).Attended := by
  obtain ⟨-, bound, hkept⟩ := new_attentive config loader
  have hrun := run_induction (P := fun server => server.BuiltIn ∧ server.Attended)
    (fun server action h => ⟨(act_outcome server action).builtIn h.1, h.2.act h.1 action⟩)
    ⟨new_builtIn config loader, attended_of_kept hkept⟩ actions
  exact hrun.2

/-! ## The loop of a tick -/

/-- How far the loop is in which a tick settles outcomes and takes moves on. -/
inductive Cycle where
  /-- Outcomes are settled; so many of them were in this round. -/
  | settling (settled : Nat)
  /-- The moves of the listed bodies are still to be taken on in this round. -/
  | advancing (due : List EntityId)
  /-- The loop was left. -/
  | ended

namespace Cycle

/-- How many further rounds the present one has given rise to. -/
def credit : Cycle → Nat
  | .settling settled => settled
  | .advancing _ => 1
  | .ended => 0

/-- How far it still is to the end of the loop, if no further outcome is settled. -/
def rank : Cycle → Nat
  | .settling (_ + 1) => 3
  | .advancing _ => 2
  | .settling 0 => 1
  | .ended => 0

/-- How many moves are still to be taken on in the round. -/
def due : Cycle → Nat
  | .advancing due => due.length
  | _ => 0

end Cycle

/-- The loop of a tick at work. -/
structure Sweep where
  /-- The number of rounds that were begun. -/
  rounds : Nat
  cycle : Cycle
  server : Server

namespace Sweep

/-- The loop begins its first round. -/
def start (server : Server) : Sweep := ⟨1, .settling 0, server⟩

/-- What the loop does next. -/
inductive Next : Sweep → Sweep → Prop where
  | settles {rounds settled : Nat} {server : Server} (arrived : server.world.cache.arrived ≠ []) :
    Next ⟨rounds, .settling settled, server⟩ ⟨rounds, .settling (settled + 1), server.act .settle⟩
  /-- No outcome is left, and some were settled. The moves under way are taken on in any order. -/
  | lists {rounds settled : Nat} {server : Server} {due : List EntityId}
    (none : server.world.cache.arrived = [])
    (all : due.Perm server.simulation.pipeline.inFlight.keys) :
    Next ⟨rounds, .settling (settled + 1), server⟩ ⟨rounds, .advancing due, server⟩
  | advances {rounds : Nat} {entity : EntityId} {due : List EntityId} {server : Server} :
    Next ⟨rounds, .advancing (entity :: due), server⟩
      ⟨rounds, .advancing due, server.act (.advance [entity])⟩
  /-- The next round begins. -/
  | repeats {rounds : Nat} {server : Server} :
    Next ⟨rounds, .advancing [], server⟩ ⟨rounds + 1, .settling 0, server⟩
  /-- There was nothing to settle in this round. -/
  | leaves {rounds : Nat} {server : Server} (none : server.world.cache.arrived = []) :
    Next ⟨rounds, .settling 0, server⟩ ⟨rounds, .ended, server⟩

/-- What other threads do meanwhile. -/
inductive Meanwhile : Sweep → Sweep → Prop where
  | acts {action : Action} (foreign : action.isForeign = true) (sweep : Sweep) :
    Meanwhile sweep { sweep with server := sweep.server.act action }

/-- What the loop and the other threads can come to. -/
abbrev Reaches : Sweep → Sweep → Prop :=
  Relation.ReflTransGen fun sweep later => sweep.Next later ∨ sweep.Meanwhile later

/-- The next thing that the loop does, with whatever the other threads do before it. -/
def Onward (sweep later : Sweep) : Prop :=
  ∃ found, Relation.ReflTransGen Meanwhile sweep found ∧ found.Next later

variable {sweep found later : Sweep}

/-- The loop is never held up. -/
theorem exists_next (h : sweep.cycle ≠ .ended) : ∃ later, sweep.Next later := by
  obtain ⟨rounds, cycle, server⟩ := sweep
  cases cycle with
  | ended => exact absurd rfl h
  | advancing due =>
    cases due with
    | nil => exact ⟨_, .repeats⟩
    | cons entity due => exact ⟨_, .advances⟩
  | settling settled =>
    by_cases harrived : server.world.cache.arrived = []
    · cases settled with
      | zero => exact ⟨_, .leaves harrived⟩
      | succ settled => exact ⟨_, .lists harrived (.refl _)⟩
    · exact ⟨_, .settles harrived⟩

/-! ## What each step uses up -/

/-- Either less can still come, or no more can and the loop is closer to its end; and a round that
is begun is paid for by an outcome that was settled. -/
structure Drops (found later : Sweep) : Prop where
  attended : later.server.Attended
  lower : later.server.backlog < found.server.backlog ∨
    later.server.backlog ≤ found.server.backlog ∧ (later.cycle.rank < found.cycle.rank ∨
      later.cycle.rank = found.cycle.rank ∧ later.cycle.due < found.cycle.due)
  paid : later.rounds + later.cycle.credit + later.server.backlog ≤
    found.rounds + found.cycle.credit + found.server.backlog

/-- Every step of the loop brings it closer to its end. -/
theorem Next.drops (next : found.Next later) (h : found.server.Attended) : found.Drops later := by
  cases next with
  | @settles rounds settled server arrived =>
    have hsettle : (server.act .settle).Attended ∧
        (server.act .settle).backlog + 1 = server.backlog := h.settle arrived
    refine ⟨hsettle.1, .inl ?_, ?_⟩
    · dsimp only
      omega
    · dsimp only [Cycle.credit]
      omega
  | lists => exact ⟨h, .inr ⟨Nat.le_refl _, .inl (by simp [Cycle.rank])⟩, by simp [Cycle.credit]⟩
  | @advances rounds entity due server =>
    obtain ⟨hafter, hbacklog⟩ := h.advance [entity]
    exact ⟨hafter, .inr ⟨hbacklog, .inr ⟨rfl, Nat.lt_succ_self due.length⟩⟩,
      Nat.add_le_add_left hbacklog _⟩
  | repeats => exact ⟨h, .inr ⟨Nat.le_refl _, .inl (by simp [Cycle.rank])⟩, by simp [Cycle.credit]⟩
  | leaves => exact ⟨h, .inr ⟨Nat.le_refl _, .inl (by simp [Cycle.rank])⟩, by simp [Cycle.credit]⟩

/-- What other threads do does not touch the loop, and no more can come by it. -/
theorem Meanwhile.keeps (meanwhile : sweep.Meanwhile found) (h : sweep.server.Attended) :
    found.server.Attended ∧ found.server.backlog ≤ sweep.server.backlog ∧
      found.rounds = sweep.rounds ∧ found.cycle = sweep.cycle := by
  cases meanwhile with
  | acts foreign =>
    obtain ⟨hafter, hbacklog⟩ := h.foreign foreign
    exact ⟨hafter, hbacklog, rfl, rfl⟩

/-- What other threads do meanwhile does not set the loop back. -/
theorem keeps_of_meanwhile (h : Relation.ReflTransGen Meanwhile sweep found)
    (hattended : sweep.server.Attended) :
    found.server.Attended ∧ found.server.backlog ≤ sweep.server.backlog ∧
      found.cycle = sweep.cycle := by
  induction h with
  | refl => exact ⟨hattended, Nat.le_refl _, rfl⟩
  | tail _ meanwhile ih =>
    obtain ⟨hfound, hbacklog, hcycle⟩ := ih
    obtain ⟨hafter, hless, -, hsame⟩ := meanwhile.keeps hfound
    exact ⟨hafter, Nat.le_trans hless hbacklog, hsame.trans hcycle⟩

/-- However the other threads go on, no round is begun that was not paid for. -/
theorem Reaches.paid (h : Reaches sweep later) (hattended : sweep.server.Attended) :
    later.server.Attended ∧ later.rounds + later.cycle.credit + later.server.backlog ≤
      sweep.rounds + sweep.cycle.credit + sweep.server.backlog := by
  induction h with
  | refl => exact ⟨hattended, Nat.le_refl _⟩
  | tail _ step ih =>
    obtain ⟨hfound, hpaid⟩ := ih
    rcases step with next | meanwhile
    · have hdrops := next.drops hfound
      exact ⟨hdrops.attended, Nat.le_trans hdrops.paid hpaid⟩
    · obtain ⟨hafter, hless, hrounds, hcycle⟩ := meanwhile.keeps hfound
      refine ⟨hafter, ?_⟩
      rw [hrounds, hcycle]
      omega

/-- The loop does not go on for ever, however often the other threads act before each of its
steps. -/
theorem acc_onward (sweep : Sweep) (h : sweep.server.Attended) :
    Acc (fun later sweep => sweep.Onward later) sweep :=
  .intro sweep fun later ⟨found, meanwhile, next⟩ =>
    have hkeeps := keeps_of_meanwhile meanwhile h
    acc_onward later (next.drops hkeeps.1).attended
termination_by (sweep.server.backlog, sweep.cycle.rank, sweep.cycle.due)
decreasing_by
  -- What happens in between lowers the backlog or leaves it, and does not change the cycle.
  have hlower := (next.drops hkeeps.1).lower
  rw [hkeeps.2.2] at hlower
  have := hkeeps.2.1
  simp only [Prod.lex_def]
  omega

/-! ## A loop that nothing disturbs -/

/-- What the loop comes to by itself. -/
abbrev Alone : Sweep → Sweep → Prop := Relation.ReflTransGen Next

/-- Settling where no outcome has arrived does nothing. -/
theorem act_settle_of_none (h : server.world.cache.arrived = []) : server.act .settle = server := by
  have hnext : server.world.cache.settleNext = server.world.cache := by
    simp only [Cache.settleNext, h]
  rw [act, hnext]
  rfl

/-- By itself, the loop settles outcome after outcome. -/
theorem alone_settles (rounds settled : Nat) (server : Server) (actions : List Action)
    (hall : ∀ action ∈ actions, action = .settle) :
    ∃ more, Alone ⟨rounds, .settling settled, server⟩
        ⟨rounds, .settling (settled + more), server.run actions⟩ ∧
      (more = 0 → server.run actions = server) := by
  induction actions generalizing settled server with
  | nil => exact ⟨0, .refl, fun _ => rfl⟩
  | cons action rest ih =>
    obtain ⟨hfirst, hrest⟩ := List.forall_mem_cons.mp hall
    subst hfirst
    by_cases harrived : server.world.cache.arrived = []
    · have hrun : server.run (.settle :: rest) = server.run rest :=
        congrArg (·.run rest) (act_settle_of_none harrived)
      rw [hrun]
      exact ih settled server hrest
    · obtain ⟨more, halone, -⟩ := ih (settled + 1) (server.act .settle) hrest
      refine ⟨more + 1, ?_, nofun⟩
      have hsum : settled + (more + 1) = settled + 1 + more := by omega
      rw [hsum]
      exact .head (.settles harrived) halone

/-- If there are outcomes, a round settles all of them. -/
theorem alone_maintain (rounds : Nat) (h : server.world.cache.arrived ≠ []) :
    ∃ settled, Alone ⟨rounds, .settling 0, server⟩
      ⟨rounds, .settling (settled + 1),
        { server with simulation := server.simulation.maintain.2 }⟩ := by
  obtain ⟨actions, hall, hrun⟩ := server.leads_maintain
  obtain ⟨more, halone, hmore⟩ :=
    alone_settles rounds 0 server actions fun action hmem => (hall action hmem).symm
  rw [hrun] at halone hmore
  cases more with
  | zero =>
    have hcache : server.world.cache.maintain.2 = server.world.cache :=
      congrArg (fun server => server.world.cache) (hmore rfl)
    have harrived := server.world.cache.maintain_arrived
    rw [hcache] at harrived
    exact absurd harrived h
  | succ settled =>
    rw [Nat.zero_add] at halone
    exact ⟨settled, halone⟩

/-- The moves of a round are taken on one after the other. -/
theorem alone_advance (rounds : Nat) (server : Server) (due : List EntityId) :
    Alone ⟨rounds, .advancing due, server⟩
      ⟨rounds, .advancing [], server.act (.advance due)⟩ := by
  induction due generalizing server with
  | nil => exact .refl
  | cons entity rest ih => exact .head .advances (ih (server.act (.advance [entity])))

/-- By itself, the loop comes to what the rounds of a tick come to. -/
theorem alone_settleWithin (limit rounds : Nat) (server : Server) :
    ∃ rounds', Alone ⟨rounds, .settling 0, server⟩ ⟨rounds', .settling 0,
      { server with simulation := server.simulation.settleWithin limit }⟩ := by
  induction limit generalizing rounds server with
  | zero => exact ⟨rounds, .refl⟩
  | succ limit ih =>
    by_cases harrived : server.world.cache.arrived = []
    · rw [Simulation.settleWithin_of_none harrived]
      exact ⟨rounds, .refl⟩
    · rw [Simulation.settleWithin_of_some harrived]
      obtain ⟨settled, hsettles⟩ := alone_maintain rounds harrived
      have hlists : Next ⟨rounds, .settling (settled + 1),
            { server with simulation := server.simulation.maintain.2 }⟩
          ⟨rounds, .advancing server.simulation.pipeline.inFlight.keys,
            { server with simulation := server.simulation.maintain.2 }⟩ :=
        .lists server.world.cache.maintain_arrived (.refl _)
      have hmoves := alone_advance rounds
        { server with simulation := server.simulation.maintain.2 }
        server.simulation.pipeline.inFlight.keys
      obtain ⟨rounds', hrest⟩ := ih (rounds + 1)
        { server with simulation := server.simulation.maintain.2.advance.2 }
      exact ⟨rounds', ((hsettles.tail hlists).trans (hmoves.tail .repeats)).trans hrest⟩

/-- Whatever state a tick finds, no outcome is left when it has settled them. -/
theorem arrived_settle (h : server.Attended) :
    server.simulation.settle.world.cache.arrived = [] := by
  by_cases harrived : server.world.cache.arrived = []
  · rw [Simulation.settle, Simulation.settleWithin_of_none harrived]
    exact harrived
  · obtain ⟨fewer, hfewer, hmaintained⟩ := Simulation.Kept.maintain h
    have hsettled : 0 < server.simulation.maintain.1 := List.length_pos_iff.mpr harrived
    have hbacklog : fewer < server.backlog := by omega
    rw [Simulation.settle, Simulation.settlingRounds_eq, Simulation.settleWithin_of_some harrived]
    exact (hmaintained.advance.settleWithin hbacklog).2

/-- A loop that nothing disturbs leaves the simulation settled. -/
theorem alone_settle (h : server.Attended) :
    ∃ rounds, Alone (start server)
      ⟨rounds, .ended, { server with simulation := server.simulation.settle }⟩ := by
  obtain ⟨rounds, halone⟩ := alone_settleWithin server.simulation.settlingRounds 1 server
  exact ⟨rounds, halone.tail (.leaves (arrived_settle h))⟩

end Sweep

/-! ## The tick ends -/

/-- The loops in which the moves of a server are worked off come to an end, given the actions that
led to the server. -/
structure Halts (config : ServerConfig) (loader : Loader CacheKey Bundle) (actions : List Action)
    (server : Server) : Prop where
  /-- In whatever order loads complete meanwhile, there are no more rounds than loads that
  are not settled, moves that wait for their zones and twice the requests that wait behind
  moves, and one. -/
  rounds_le : ∀ {sweep}, Sweep.Reaches (.start server) sweep → sweep.rounds ≤
    server.world.cache.loading.length + server.world.cache.arrived.length +
      server.simulation.zoneFlights + 2 * server.simulation.queuedRequests + 1
  /-- The loop cannot go on for ever. -/
  ends : Acc (fun later sweep => Sweep.Onward sweep later) (.start server)
  /-- Until it is left, it is not held up. -/
  goes_on : ∀ {sweep : Sweep}, sweep.cycle ≠ .ended → ∃ later, sweep.Next later
  /-- This is the loop of each tick, whatever the order in which sessions expire. -/
  receives : ∀ order now, ∃ served rounds, Leads Action.Opening server served ∧
    Sweep.Alone (.start served)
      ⟨rounds, .ended, { served with simulation := served.simulation.settle }⟩ ∧
    Leads Action.Closing { served with simulation := served.simulation.settle }
      (server.receiveIn order now).2
  /-- A move that is taken on is looked at twice at most. -/
  steps : ∀ flight realm, ∃ passes ≤ 2, Loops Flight.pass passes (flight, realm) (flight.step realm)
  /-- The requests of a body are gone through once. -/
  launches : ∀ requests realm, ∃ passes ≤ requests.length + 1,
    Loops Launch.pass passes (0, requests, realm) (Launch.run realm requests)
  /-- From its beginning to its answer a move resolves its zone and then its scene, each once at
  most. -/
  resolves : ∀ {dispatch move}, dispatch ∈ (Server.new config loader).collect dispatches actions →
    dispatch.move = some move →
      (Leg.ofMove move ((Server.new config loader).collect legs actions)).flatMap Leg.taken <+:
        [.zone move.target.zone, .scene move.target.scene]
  /-- A leg of a move resolves nothing else. -/
  consults : ∀ leg : Leg, leg.before.world.cache.Consults leg.taken leg.after.world.cache

/-- Whatever the loader is and whatever has led to the state of a server, the tick ends, and so do
the loops within it. -/
theorem run_halts (config : ServerConfig) (loader : Loader CacheKey Bundle)
    (actions : List Action) :
    Halts config loader actions ((Server.new config loader).run actions) where
  rounds_le {sweep} h := by
    have hpaid := (h.paid (run_attended config loader actions)).2
    have hbound := Simulation.settlingRounds_eq ((Server.new config loader).run actions).simulation
    change Simulation.settlingRounds _ = backlog _ + 1 at hbound
    change sweep.rounds ≤ Simulation.settlingRounds _
    dsimp only [Sweep.start, Cycle.credit] at hpaid
    omega
  ends := Sweep.acc_onward _ (run_attended config loader actions)
  goes_on := Sweep.exists_next
  receives order now := by
    obtain ⟨served, hopen, hclose⟩ :=
      exists_served ((Server.new config loader).run actions) order now
    obtain ⟨opening, -, hserved⟩ := id hopen
    have hattended : served.Attended := by
      rw [← hserved, ← run_append]
      exact run_attended config loader (actions ++ opening)
    obtain ⟨rounds, halone⟩ := Sweep.alone_settle hattended
    exact ⟨served, rounds, hopen, halone, hclose⟩
  steps := Flight.step_loops
  launches := Launch.run_loops
  resolves hdispatch hmove := by
    obtain ⟨standing, hjourney, -⟩ := (run_travels config loader actions).journey
      (run_orderly config loader actions) hdispatch hmove
    exact hjourney.taken_prefix
  consults := Leg.consults

end Server

/-- The bound is met: where each load completes at once, a move takes a round for its zone, one for
its scene, and one that finds nothing to settle. -/
example :
    let served := (Server.new {} (.immediate fun
        | .zone zone => .loaded (.zone ⟨zone, "town", [1]⟩)
        | .scene scene => .loaded (.scene ⟨scene, 1, 1, "square", [⟨1, none⟩], none, []⟩))).run
      [.connect 0 1 ⟨"ada"⟩ none, .follow, .move ⟨"ada"⟩ ⟨1, 1, 1⟩, .serve]
    served.simulation.settlingRounds = 3 ∧
      (served.simulation.settleWithin 1).world.cache.arrived.length = 1 ∧
      (served.simulation.settleWithin 2).world.cache.arrived = [] := by
  decide +kernel

end SharedWorld
