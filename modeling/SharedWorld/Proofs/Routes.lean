import Mathlib.Data.List.Induction
import SharedWorld.Proofs.Listeners

/-!
# Which handler a request reaches

Whether a service handles a method and which handler it runs for it are told by two walks along its
layers, and the router adds a third answer for services that it does not know. All of them agree
with how the services were put together (`Exchange.operate_routes`): a request reaches the handler
last put on the nearest layer that has its method, this handler alone and only once, and a request
that finds no handler is answered by the router and by nobody else.

To tell which handlers were run and how often, services are put together from entries that stand for
handlers, and every handler writes down its entry and its call before it returns.
-/

namespace SharedWorld

variable {η σ : Type}

namespace ServiceTable

/-- A service handles a method exactly if the method is found on one of its layers. -/
theorem handles_eq (table : ServiceTable σ) (method : MethodId) :
    table.handles method = (table.handler? method).isSome := by
  unfold handles handler?
  induction table.layers with
  | nil => rfl
  | cons layer parents ih =>
    rw [List.any_cons, ih, find?, Table.contains]
    cases layer.handlers.get? method with
    | none => rfl
    | some handler => rfl

/-- What is found for a method is the first handler for it on the way up. -/
theorem find?_eq_findSome? (layers : List (Layer σ)) (method : MethodId) :
    (find? layers method).map (·.2) = layers.findSome? (·.handlers.get? method) := by
  induction layers with
  | nil => rfl
  | cons layer parents ih =>
    rw [find?, List.findSome?_cons]
    cases layer.handlers.get? method with
    | none => exact ih
    | some handler => rfl

end ServiceTable

/-- How a service is put together. -/
inductive Assembly (η : Type) where
  /-- A service that handles nothing. -/
  | named (name : String)
  /-- An entry is put on the service's own layer, in place of what was there for the method. -/
  | on (base : Assembly η) (method : MethodId) (entry : η)
  /-- The service falls back on another one, in place of what it fell back on before. -/
  | withParent (base parent : Assembly η)

namespace Assembly

variable {assembly : Assembly η} {method : MethodId} {entry : η}

/-- The service, each entry of which stands for a handler. -/
def build (handler : η → Handler σ) : Assembly η → ServiceTable σ
  | named name => ⟨.named name, []⟩
  | on base method entry =>
    { base.build handler with layer := (base.build handler).layer.on method (handler entry) }
  | withParent base parent => .onTopOf (base.build handler).layer (parent.build handler)

/-- What was put on the service's own layer, the oldest first. -/
def puts : Assembly η → List (MethodId × η)
  | named _ => []
  | on base method entry => base.puts ++ [(method, entry)]
  | withParent base _ => base.puts

/-- What was put on the layers that the service falls back on, the nearest first. -/
def above : Assembly η → List (List (MethodId × η))
  | named _ => []
  | on base _ _ => base.above
  | withParent _ parent => parent.puts :: parent.above

/-- What was put on each layer, from the service's own one up. -/
def chain (assembly : Assembly η) : List (List (MethodId × η)) := assembly.puts :: assembly.above

/-- The entry that was last put for a method. -/
def lastPut? (method : MethodId) (puts : List (MethodId × η)) : Option η :=
  (puts.reverse.find? (·.1 = method)).map (·.2)

/-- The entry that was last put for a method on the nearest layer that has the method. -/
def nearest? (assembly : Assembly η) (method : MethodId) : Option η :=
  assembly.chain.findSome? (lastPut? method)

/-- The last put handler of a method is one that no other was put for the method after. -/
theorem lastPut?_eq_some_iff {puts : List (MethodId × η)} :
    lastPut? method puts = some entry ↔ ∃ earlier later,
      puts = earlier ++ (method, entry) :: later ∧ ∀ put ∈ later, put.1 ≠ method := by
  rw [lastPut?, Option.map_eq_some_iff]
  constructor
  · rintro ⟨put, hfind, rfl⟩
    obtain ⟨hput, later, earlier, hreverse, hlater⟩ := List.find?_eq_some_iff_append.mp hfind
    refine ⟨earlier.reverse, later.reverse, ?_, fun other hother => ?_⟩
    · rw [← of_decide_eq_true hput]
      simpa using congrArg List.reverse hreverse
    · simpa using hlater other (List.mem_reverse.mp hother)
  · rintro ⟨earlier, later, rfl, hlater⟩
    refine ⟨(method, entry), List.find?_eq_some_iff_append.mpr ⟨decide_eq_true rfl, later.reverse,
      earlier.reverse, by simp, fun other hother => ?_⟩, rfl⟩
    simpa using hlater other (List.mem_reverse.mp hother)

/-- There is no put handler of a method just if none was put for it. -/
theorem lastPut?_eq_none_iff {puts : List (MethodId × η)} :
    lastPut? method puts = none ↔ ∀ put ∈ puts, put.1 ≠ method := by
  simp [lastPut?]

/-- The nearest entry stands on a layer below which no layer has the method, and nothing was put for
the method on its layer later. -/
theorem nearest?_eq_some_iff : assembly.nearest? method = some entry ↔
    ∃ below puts above, assembly.chain = below ++ puts :: above ∧
      (∀ nearer ∈ below, ∀ put ∈ nearer, put.1 ≠ method) ∧
      ∃ earlier later, puts = earlier ++ (method, entry) :: later ∧
        ∀ put ∈ later, put.1 ≠ method := by
  rw [nearest?, List.findSome?_eq_some_iff]
  simp only [lastPut?_eq_some_iff, lastPut?_eq_none_iff]
  constructor
  · rintro ⟨below, puts, above, hchain, hput, hbelow⟩
    exact ⟨below, puts, above, hchain, hbelow, hput⟩
  · rintro ⟨below, puts, above, hchain, hbelow, hput⟩
    exact ⟨below, puts, above, hchain, hput, hbelow⟩

variable (handler : η → Handler σ)

/-- The service's own layer has the handlers that were last put on it. -/
theorem build_layer (assembly : Assembly η) (method : MethodId) :
    (assembly.build handler).layer.handlers.get? method =
      (lastPut? method assembly.puts).map handler := by
  induction assembly with
  | named name => rfl
  | on base other entry ih =>
    rw [build, Layer.on, puts, lastPut?, List.reverse_concat, List.find?_cons, Table.get?_insert,
      ih, lastPut?]
    by_cases hmethod : method = other
    · simp [hmethod]
    · simp [hmethod, Ne.symm hmethod]
  | withParent base parent ih => exact ih

/-- So do the layers that the service falls back on. -/
theorem build_parents (assembly : Assembly η) (method : MethodId) :
    (assembly.build handler).parents.map (·.handlers.get? method) =
      assembly.above.map fun puts => (lastPut? method puts).map handler := by
  induction assembly with
  | named name => rfl
  | on base other entry ih => exact ih
  | withParent base parent _ ih =>
    have hlayer := parent.build_layer handler method
    simp only [build, ServiceTable.onTopOf, ServiceTable.layers, above, List.map_cons, hlayer, ih]

/-- The handler that is found for a method is the nearest one that was put for it. -/
theorem build_handler? (assembly : Assembly η) (method : MethodId) :
    ((assembly.build handler).handler? method).map (·.2) =
      (assembly.nearest? method).map handler := by
  have hlayer := assembly.build_layer handler method
  have hparents := assembly.build_parents handler method
  have hlayers : (assembly.build handler).layers.map (·.handlers.get? method) =
      assembly.chain.map fun puts => (lastPut? method puts).map handler := by
    rw [ServiceTable.layers, chain, List.map_cons, List.map_cons, hlayer, hparents]
  calc ((assembly.build handler).handler? method).map (·.2)
    _ = (assembly.build handler).layers.findSome? (·.handlers.get? method) :=
      ServiceTable.find?_eq_findSome? _ method
    _ = ((assembly.build handler).layers.map (·.handlers.get? method)).findSome? id := by
      rw [List.findSome?_map]
      rfl
    _ = assembly.chain.findSome? fun puts => (lastPut? method puts).map handler := by
      rw [hlayers, List.findSome?_map]
      rfl
    _ = (assembly.nearest? method).map handler := by
      rw [nearest?, List.map_findSome?]
      rfl

/-- A service handles a method just if one of its layers does. -/
theorem handles_build (assembly : Assembly η) (method : MethodId) :
    (assembly.build handler).handles method = (assembly.nearest? method).isSome := by
  have hfound := congrArg Option.isSome (assembly.build_handler? handler method)
  rwa [Option.isSome_map, Option.isSome_map, ← ServiceTable.handles_eq] at hfound

end Assembly

/-! ## Handlers that write down that they were run -/

/-- A context with the calls of handlers that were made, the oldest first. -/
structure Recorded (η σ : Type) where
  context : σ
  log : List (η × Call) := []

/-- The handler of an entry. It writes down its entry and its call, and otherwise does what is to be
done for the entry. -/
def Recorded.handler (act : η → Handler σ) (entry : η) : Handler (Recorded η σ) :=
  fun recorded call =>
    let handled := act entry recorded.context call
    { context := ⟨handled.context, recorded.log ++ [(entry, call)]⟩
      use := handled.use
      fault := handled.fault }

/-- What can happen at an exchange whose handlers are recorded. -/
inductive Operation (η σ : Type) where
  | registers (service : ServiceId) (assembly : Assembly η)
  | dispatches (caller : Identity) (request : Request)
  /-- A listener that was kept is used. -/
  | replies (listener : Listener) (answer : Answer)
  /-- A listener that was kept is dropped. -/
  | drops (listener : Listener)
  /-- What handlers act on is changed from outside. -/
  | changes (context : σ)

namespace Operation

/-- What an operation is to the exchange. -/
def event (act : η → Handler σ) (recorded : Recorded η σ) :
    Operation η σ → Exchange.Event (Recorded η σ)
  | registers service assembly => .registers service (assembly.build (Recorded.handler act))
  | dispatches caller request => .dispatches caller request
  | replies listener answer => .replies listener answer
  | drops listener => .drops listener
  | changes context => .changes { recorded with context := context }

/-- The service that an operation registers under the id. -/
def registers? (service : ServiceId) : Operation η σ → Option (Assembly η)
  | registers other assembly => if other = service then some assembly else none
  | _ => none

/-- The service that was last registered under the id. -/
def registered? (service : ServiceId) (operations : List (Operation η σ)) : Option (Assembly η) :=
  operations.reverse.findSome? (·.registers? service)

/-- What is registered under an id was registered there last. -/
theorem registered?_concat (service : ServiceId) (earlier : List (Operation η σ))
    (operation : Operation η σ) : registered? service (earlier ++ [operation]) =
      (operation.registers? service).or (registered? service earlier) := by
  rw [registered?, List.reverse_concat, List.findSome?_cons]
  cases operation.registers? service with
  | none => rfl
  | some assembly => rfl

end Operation

namespace Exchange

/-- The answers that were sent through a listener, the oldest first. -/
def answers (exchange : Exchange σ) (listener : Listener) : List Answer :=
  (exchange.sent.filter (·.1 = listener)).map (·.2)

section Answered

variable {exchange after : Exchange σ} {listener : Listener} {answers : List Answer}

/-- Answers that are added go to the one listener. -/
theorem Adds.answers_eq {kept : List Listener} (h : exchange.Adds listener answers kept after)
    (other : Listener) :
    after.answers other = exchange.answers other ++ if other = listener then answers else [] := by
  rw [Exchange.answers, h.sent, List.filter_append, List.map_append, List.filter_map]
  by_cases heq : other = listener
  · simp [Exchange.answers, heq, Function.comp_def]
  · simp [Exchange.answers, heq, Function.comp_def, Ne.symm heq]

/-- Nobody holds the listener, and it is not issued again, so the answers that were sent through it
are all there will be. -/
structure Settled (listener : Listener) (answers : List Answer) (exchange : Exchange σ) : Prop where
  issued : listener.serial < exchange.router.dispatched
  released : listener ∉ exchange.kept
  answers_eq : exchange.answers listener = answers

/-- Nothing more is answered through a listener that nobody holds, whatever happens. -/
theorem Settled.step (h : exchange.Settled listener answers) (event : Event σ) :
    (exchange.step event).Settled listener answers := by
  cases event with
  | dispatches caller request =>
    have hadds := exchange.adds_dispatches caller request
    have hother : listener ≠ exchange.router.listenerFor caller request := by
      rintro rfl
      exact Nat.lt_irrefl _ h.issued
    refine ⟨?_, ?_, ?_⟩
    · rw [hadds.dispatched]
      exact Nat.lt_succ_of_lt h.issued
    · rw [hadds.kept_eq, List.mem_append, not_or]
      exact ⟨h.released, fun hmem => hother (hadds.only listener hmem)⟩
    · rw [hadds.answers_eq, if_neg hother, List.append_nil, h.answers_eq]
  | replies other answer =>
    unfold Exchange.step
    dsimp only
    by_cases hkept : other ∈ exchange.kept
    · rw [if_pos hkept]
      have hother : other ≠ listener := by
        rintro rfl
        exact h.released hkept
      refine ⟨h.issued, fun hmem => h.released (List.mem_of_mem_erase hmem), ?_⟩
      rw [← h.answers_eq]
      simp [Exchange.answers, hother]
    · rw [if_neg hkept]
      exact h
  | drops other =>
    exact ⟨h.issued, fun hmem => h.released (List.mem_of_mem_erase hmem), h.answers_eq⟩
  | registers service table => exact ⟨h.issued, h.released, h.answers_eq⟩
  | changes context => exact ⟨h.issued, h.released, h.answers_eq⟩

end Answered

variable {act : η → Handler σ} {exchange : Exchange (Recorded η σ)}

/-- An exchange without services. -/
def opened (context : σ) : Exchange (Recorded η σ) := ⟨.empty, ⟨context, []⟩, [], []⟩

/-- The exchange after an operation. -/
def perform (act : η → Handler σ) (exchange : Exchange (Recorded η σ))
    (operation : Operation η σ) : Exchange (Recorded η σ) :=
  exchange.step (operation.event act exchange.context)

/-- The exchange after a list of operations. -/
def operate (act : η → Handler σ) (exchange : Exchange (Recorded η σ))
    (operations : List (Operation η σ)) : Exchange (Recorded η σ) :=
  operations.foldl (perform act) exchange

/-- Nothing more is answered through a listener that nobody holds, whatever is done later. -/
theorem Settled.operate {listener : Listener} {answers : List Answer}
    (h : exchange.Settled listener answers) (operations : List (Operation η σ)) :
    (exchange.operate act operations).Settled listener answers :=
  List.foldlRecOn (motive := Settled listener answers) operations (perform act) h
    fun _ h _ _ => h.step _

/-- Whatever happened before, the books of the exchange are in order. -/
theorem operate_sound (act : η → Handler σ) (context : σ) (operations : List (Operation η σ)) :
    ∃ issued, ((opened context).operate act operations).Sound issued := by
  have hstart : (opened context : Exchange (Recorded η σ)).Sound [] :=
    ⟨nofun, List.nodup_nil, nofun, nofun, nofun⟩
  exact ⟨_, foldl_history_induction (P := fun issued (exchange : Exchange (Recorded η σ)) =>
    exchange.Sound issued)
    (fun _ exchange operation h => h.step (operation.event act exchange.context)) hstart operations⟩

/-- Registering a service puts it under its id, and nothing else touches the services. -/
theorem services_perform (exchange : Exchange (Recorded η σ)) (operation : Operation η σ)
    (service : ServiceId) :
    (exchange.perform act operation).router.services.get? service =
      ((operation.registers? service).map (·.build (Recorded.handler act))).or
        (exchange.router.services.get? service) := by
  cases operation with
  | registers other assembly =>
    have hinsert := Table.get?_insert exchange.router.services other service
      (assembly.build (Recorded.handler act))
    refine hinsert.trans ?_
    by_cases hservice : service = other
    · simp [Operation.registers?, hservice]
    · simp [Operation.registers?, hservice, Ne.symm hservice]
  | dispatches caller request =>
    rcases exchange.router.dispatch_cases exchange.context caller request with
      ⟨fault, -, hdispatch⟩ | ⟨handled, -, hdispatch⟩
    · simp [perform, Operation.event, Exchange.step, Operation.registers?, hdispatch]
    · simp [perform, Operation.event, Exchange.step, Operation.registers?, hdispatch]
  | replies listener answer =>
    unfold perform Operation.event Exchange.step
    dsimp only
    split
    · rfl
    · rfl
  | drops listener => rfl
  | changes context => rfl

/-- The router knows each service as it was last registered. -/
theorem services_operate (act : η → Handler σ) (context : σ) (operations : List (Operation η σ))
    (service : ServiceId) :
    ((opened context).operate act operations).router.services.get? service =
      (Operation.registered? service operations).map (·.build (Recorded.handler act)) := by
  induction operations using List.reverseRecOn with
  | nil => rfl
  | append_singleton earlier operation ih =>
    have hconcat : (opened context).operate act (earlier ++ [operation]) =
        ((opened context).operate act earlier).perform act operation := by simp [operate]
    rw [hconcat, services_perform, ih, Operation.registered?_concat, Option.map_or]

/-! ## Where a request goes -/

/-- What the handler of a request is given. -/
def callFor (exchange : Exchange (Recorded η σ)) (caller : Identity) (request : Request) : Call :=
  ⟨exchange.router.listenerFor caller request, ⟨request.method, request.args⟩⟩

/-- No handler is run for the request. It is answered once with the fault, and whatever happens
later it is not answered again. -/
structure Misses (act : η → Handler σ) (exchange : Exchange (Recorded η σ)) (caller : Identity)
    (request : Request) (fault : Fault) : Prop where
  untouched : (exchange.step (.dispatches caller request)).context = exchange.context
  answered : ∀ later, ((exchange.step (.dispatches caller request)).operate act later).answers
    (exchange.router.listenerFor caller request) = [.failure fault]

/-- The handler of the entry is run for the request, once, and no other one. -/
structure Reaches (act : η → Handler σ) (exchange : Exchange (Recorded η σ)) (caller : Identity)
    (request : Request) (entry : η) (handled : Handled σ) : Prop where
  handled_eq : act entry exchange.context.context (exchange.callFor caller request) = handled
  /-- The handler is given the context as it is, and nothing acts on what it leaves, whether it
  returns a fault or not. -/
  ran : (exchange.step (.dispatches caller request)).context =
    ⟨handled.context, exchange.context.log ++ [(entry, exchange.callFor caller request)]⟩
  kept_eq : (exchange.step (.dispatches caller request)).kept =
    exchange.kept ++ handled.keeps (exchange.router.listenerFor caller request)
  /-- The request is answered by the handler, or for it if it returned a fault without having
  answered. -/
  answers_eq : (exchange.step (.dispatches caller request)).answers
    (exchange.router.listenerFor caller request) = handled.answer?.toList
  /-- A handler that returns a fault, and has neither kept nor used its listener, is answered for,
  and this is the only answer there will be. -/
  failed : ∀ {fault}, handled.use = .dropped → handled.fault = some fault → ∀ later,
    ((exchange.step (.dispatches caller request)).operate act later).answers
      (exchange.router.listenerFor caller request) = [.failure fault]

/-- Where a request goes if the service is registered as told. -/
structure Routes (act : η → Handler σ) (assembly? : Option (Assembly η))
    (exchange : Exchange (Recorded η σ)) (caller : Identity) (request : Request) : Prop where
  registered : exchange.router.services.get? request.service =
    assembly?.map (·.build (Recorded.handler act))
  /-- A handler is run exactly if the service is registered and handles the method. -/
  runs_iff : (∃ run, (exchange.step (.dispatches caller request)).context.log =
      exchange.context.log ++ [run]) ↔
    ∃ table, exchange.router.services.get? request.service = some table ∧
      table.handles request.method = true
  handles_eq : ∀ {assembly}, assembly? = some assembly →
    (assembly.build (Recorded.handler act)).handles request.method =
      (assembly.nearest? request.method).isSome
  reaches : ∀ {assembly entry}, assembly? = some assembly →
    assembly.nearest? request.method = some entry →
    ∃ handled, exchange.Reaches act caller request entry handled
  unknownService : assembly? = none →
    exchange.Misses act caller request (.unknownService request.service)
  unknownMethod : ∀ {assembly}, assembly? = some assembly →
    assembly.nearest? request.method = none →
    exchange.Misses act caller request (.unknownMethod request.service request.method)

variable {caller : Identity} {request : Request}

/-- The listener of the next request was not used before. -/
theorem Sound.answers_listenerFor {issued : List Issue} (h : exchange.Sound issued)
    (caller : Identity) (request : Request) :
    exchange.answers (exchange.router.listenerFor caller request) = [] := by
  have hnew : exchange.router.listenerFor caller request ∉ issued.map (·.listener) := h.fresh rfl
  have hunused := (h.unused hnew).1
  rw [answersTo, List.countP_eq_zero] at hunused
  rw [answers, List.map_eq_nil_iff, List.filter_eq_nil_iff]
  exact hunused

/-- If nobody is left with the listener of a request, its answers are those of the dispatch. -/
theorem Sound.settled {issued : List Issue} (h : exchange.Sound issued) (caller : Identity)
    (request : Request)
    (hkept : ∀ handled, exchange.router.handled? exchange.context caller request = some handled →
      handled.use ≠ .kept) :
    (exchange.step (.dispatches caller request)).Settled
      (exchange.router.listenerFor caller request)
      (exchange.router.dispatch exchange.context caller request).answer.toList := by
  have hadds := exchange.adds_dispatches caller request
  refine ⟨?_, ?_, ?_⟩
  · rw [hadds.dispatched]
    exact Nat.lt_succ_self _
  · rw [hadds.kept_eq, List.mem_append, not_or]
    refine ⟨fun hmem => h.fresh rfl (h.kept_issued _ hmem), ?_⟩
    cases hhandled : exchange.router.handled? exchange.context caller request with
    | none => exact List.not_mem_nil
    | some handled => simp [Handled.keeps, hkept handled hhandled]
  · rw [hadds.answers_eq, if_pos rfl, h.answers_listenerFor, List.nil_append]

/-- A request that cannot be routed misses every handler. -/
theorem Sound.misses {issued : List Issue} (h : exchange.Sound issued) {fault : Fault}
    (hroute : exchange.router.route request.service request.method = .error fault) :
    exchange.Misses act caller request fault := by
  have hdispatch := Router.dispatch_of_error hroute exchange.context caller
  have hhandled : exchange.router.handled? exchange.context caller request = none := by
    simp only [Router.handled?, hroute]
  have hsettled := h.settled caller request (by simp [hhandled])
  rw [hdispatch] at hsettled
  exact ⟨congrArg Dispatched.context hdispatch, fun later => (hsettled.operate later).answers_eq⟩

/-- A request that can be routed reaches its handler. -/
theorem Sound.reaches {issued : List Issue} (h : exchange.Sound issued)
    {layer : Layer (Recorded η σ)} {entry : η}
    (hroute : exchange.router.route request.service request.method =
      .ok (layer, Recorded.handler act entry)) :
    ∃ handled, exchange.Reaches act caller request entry handled := by
  have hdispatch := Router.dispatch_of_ok hroute exchange.context caller
  have hhandled : exchange.router.handled? exchange.context caller request =
      some (Recorded.handler act entry exchange.context (exchange.callFor caller request)) := by
    simp only [Router.handled?, hroute]
    rfl
  have hadds := exchange.adds_dispatches caller request
  have hanswers := hadds.answers_eq (exchange.router.listenerFor caller request)
  rw [if_pos rfl, h.answers_listenerFor, List.nil_append, hdispatch] at hanswers
  rw [hhandled] at hadds
  refine ⟨_, rfl, congrArg Dispatched.context hdispatch, hadds.kept_eq, hanswers, ?_⟩
  intro fault huse hfault later
  have hsettled := h.settled caller request fun handled heq hkept => by
    cases hhandled.symm.trans heq
    cases huse.symm.trans hkept
  have hanswer : (Recorded.handler act entry exchange.context
      (exchange.callFor caller request)).answer? = some (.failure fault) := by
    simp [Handled.answer?, Recorded.handler, huse, hfault]
  rw [(hsettled.operate later).answers_eq, hdispatch]
  exact congrArg Option.toList hanswer

/-- A request that misses every handler runs none. -/
theorem Misses.runs_none {fault : Fault} (h : exchange.Misses act caller request fault) :
    ¬∃ run, (exchange.step (.dispatches caller request)).context.log =
      exchange.context.log ++ [run] := by
  rintro ⟨run, hrun⟩
  rw [h.untouched] at hrun
  simp at hrun

/-- A request that reaches a handler runs that one. -/
theorem Reaches.runs_one {entry : η} {handled : Handled σ}
    (h : exchange.Reaches act caller request entry handled) :
    ∃ run, (exchange.step (.dispatches caller request)).context.log =
      exchange.context.log ++ [run] :=
  ⟨(entry, exchange.callFor caller request), congrArg Recorded.log h.ran⟩

/-- A request to a service that was put together so is routed to the nearest entry. -/
theorem route_build {router : Router (Recorded η σ)} {assembly : Assembly η} {service : ServiceId}
    (hservice : router.services.get? service =
      some (assembly.build (Recorded.handler act))) (method : MethodId) :
    (assembly.nearest? method = none ∧
      router.route service method = .error (.unknownMethod service method)) ∨
    ∃ entry layer, assembly.nearest? method = some entry ∧
      router.route service method = .ok (layer, Recorded.handler act entry) := by
  have hfound := assembly.build_handler? (Recorded.handler act) method
  rw [Router.route, hservice]
  dsimp only
  cases hnearest : assembly.nearest? method with
  | none =>
    rw [hnearest, Option.map_none, Option.map_eq_none_iff] at hfound
    exact .inl ⟨rfl, by rw [hfound]⟩
  | some entry =>
    rw [hnearest, Option.map_some, Option.map_eq_some_iff] at hfound
    obtain ⟨⟨layer, handler⟩, hfind, rfl⟩ := hfound
    exact .inr ⟨entry, layer, rfl, by rw [hfind]⟩

/-- A request for a service that is not registered is refused. -/
theorem Sound.routes_none {issued : List Issue} (h : exchange.Sound issued)
    (hservice : exchange.router.services.get? request.service = none) :
    Routes act none exchange caller request := by
  have hroute : exchange.router.route request.service request.method =
      .error (.unknownService request.service) := by
    rw [Router.route, hservice]
  have hmisses : exchange.Misses act caller request (.unknownService request.service) :=
    h.misses hroute
  refine ⟨hservice, iff_of_false hmisses.runs_none ?_, ?_, ?_, fun _ => hmisses, ?_⟩
  · rintro ⟨table, htable, -⟩
    cases hservice.symm.trans htable
  · rintro _ ⟨⟩
  · rintro _ _ ⟨⟩
  · rintro _ ⟨⟩

/-- A request for a registered service is routed by how the service was assembled. -/
theorem Sound.routes_some {issued : List Issue} (h : exchange.Sound issued)
    {assembly : Assembly η} (hservice : exchange.router.services.get? request.service =
      some (assembly.build (Recorded.handler act))) :
    Routes act (some assembly) exchange caller request := by
  have hhandles := assembly.handles_build (Recorded.handler act) request.method
  have hruns : (∃ table, exchange.router.services.get? request.service = some table ∧
      table.handles request.method = true) ↔ (assembly.nearest? request.method).isSome = true := by
    rw [← hhandles, hservice]
    simp
  rcases route_build hservice request.method with
    ⟨hnearest, hroute⟩ | ⟨entry, layer, hnearest, hroute⟩
  · have hmisses : exchange.Misses act caller request
        (.unknownMethod request.service request.method) := h.misses hroute
    refine ⟨hservice, iff_of_false hmisses.runs_none ?_, ?_, ?_, ?_, ?_⟩
    · rw [hruns, hnearest]
      exact Bool.false_ne_true
    · rintro _ ⟨rfl⟩
      exact hhandles
    · rintro _ other ⟨rfl⟩ hother
      cases hnearest.symm.trans hother
    · rintro ⟨⟩
    · rintro _ ⟨rfl⟩ -
      exact hmisses
  · obtain ⟨handled, hreaches⟩ : ∃ handled, exchange.Reaches act caller request entry handled :=
      h.reaches hroute
    refine ⟨hservice, iff_of_true hreaches.runs_one ?_, ?_, ?_, ?_, ?_⟩
    · rw [hruns, hnearest]
      rfl
    · rintro _ ⟨rfl⟩
      exact hhandles
    · rintro _ other ⟨rfl⟩ hother
      cases hnearest.symm.trans hother
      exact ⟨handled, hreaches⟩
    · rintro ⟨⟩
    · rintro _ ⟨rfl⟩ hnone
      cases hnearest.symm.trans hnone

/-- Whatever was registered, handled and answered before, a request reaches the nearest handler that
was put for its method on the service that was last registered, and no other one, and a request for
which there is none is answered by the router. -/
theorem operate_routes (act : η → Handler σ) (context : σ) (operations : List (Operation η σ))
    (caller : Identity) (request : Request) :
    Routes act (Operation.registered? request.service operations)
      ((opened context).operate act operations) caller request := by
  have hservice := services_operate act context operations request.service
  obtain ⟨issued, hsound⟩ := operate_sound act context operations
  cases hregistered : Operation.registered? request.service operations with
  | none =>
    rw [hregistered, Option.map_none] at hservice
    exact hsound.routes_none hservice
  | some assembly =>
    rw [hregistered, Option.map_some] at hservice
    exact hsound.routes_some hservice

/-- The method is handled on all layers but the first. What was put on the second one last is run,
and nobody else is asked when it fails. -/
example :
    let base : Assembly Nat := .on (.named "base") 7 1
    let echo : Assembly Nat := .withParent (.on (.on (.named "echo") 7 2) 7 3) base
    let front : Assembly Nat := .on (.withParent (.named "front") echo) 8 4
    let fails : Nat → Handler Unit := fun _ context _ => ⟨context, .dropped, some .noSuchZone⟩
    let exchange := (opened ()).operate fails
      [.registers 1 base, .registers 1 front, .dispatches ⟨"ada"⟩ ⟨5, 1, 7, []⟩]
    exchange.context.log.map (·.1) = [3] ∧
      exchange.sent = [(⟨⟨"ada"⟩, 5, 0⟩, .failure .noSuchZone)] := by decide +kernel

end Exchange

end SharedWorld
