import SharedWorld.Message

/-!
# Services

A service is a stack of layers, each binding methods to handlers; a method is handled by the first
layer that has it. The router dispatches a request to the stack registered for its service.

A handler is given a listener for the request. It answers through it before it returns, or keeps it
and answers later, or drops it. If it returns a fault without having answered, the router answers
with that fault, and so it does for a request that no handler is found for.
-/

namespace SharedWorld

/-- The right to answer one dispatched request. -/
structure Listener where
  /-- Whom the answer goes to. -/
  caller : Identity
  request : RequestId
  /-- The number of the dispatch. It tells requests with equal ids apart. -/
  serial : Nat
  deriving DecidableEq, Repr

/-- The message that carries an answer to the request of a listener. -/
def Listener.response (listener : Listener) (answer : Answer) : ServerMessage :=
  .response ⟨listener.request, answer⟩

/-- What a handler is given. -/
structure Call where
  listener : Listener
  /-- The arguments, and the method that was called. -/
  args : Arguments
  deriving DecidableEq, Repr

/-- What a handler did with its listener before it returned. -/
inductive ListenerUse where
  /-- It answered. -/
  | answered (answer : Answer)
  /-- It kept the listener, to answer later. -/
  | kept
  /-- It neither answered nor kept the listener. -/
  | dropped
  deriving DecidableEq, Repr

/-- How a handler returned. -/
structure Handled (σ : Type) where
  /-- The context the handler leaves. -/
  context : σ
  use : ListenerUse
  /-- The fault it returned, if any. -/
  fault : Option Fault := none

/-- The answer that is sent by the end of the dispatch: the handler's own, or the fault of a handler
that has not answered. -/
def Handled.answer? {σ : Type} (handled : Handled σ) : Option Answer :=
  match handled.use with
  | .answered answer => some answer
  | .kept | .dropped => handled.fault.map .failure

/-- Handles the calls of one method. -/
abbrev Handler (σ : Type) := σ → Call → Handled σ

/-- Binds methods to handlers. -/
structure Layer (σ : Type) where
  name : String
  handlers : Table MethodId (Handler σ)

namespace Layer

variable {σ : Type}

/-- A layer without handlers. -/
def named (name : String) : Layer σ := ⟨name, Table.empty⟩

/-- Handle a method, in place of whatever handled it before. -/
def on (layer : Layer σ) (method : MethodId) (handler : Handler σ) : Layer σ :=
  { layer with handlers := layer.handlers.insert method handler }

end Layer

/-- A service: a layer and those it falls back on, the nearest first. -/
structure ServiceTable (σ : Type) where
  layer : Layer σ
  parents : List (Layer σ) := []

namespace ServiceTable

variable {σ : Type}

/-- The name of the service's own layer. -/
def name (table : ServiceTable σ) : String := table.layer.name

/-- All layers of the service, in the order in which they are tried. -/
def layers (table : ServiceTable σ) : List (Layer σ) := table.layer :: table.parents

/-- A service whose layer falls back on another service. -/
def onTopOf (layer : Layer σ) (parent : ServiceTable σ) : ServiceTable σ := ⟨layer, parent.layers⟩

/-- The first of the layers that has the method, and its handler there. -/
def find? (layers : List (Layer σ)) (method : MethodId) : Option (Layer σ × Handler σ) :=
  match layers with
  | [] => none
  | layer :: parents =>
    match layer.handlers.get? method with
    | some handler => some (layer, handler)
    | none => find? parents method

/-- The layer that handles a method, and the handler. -/
def handler? (table : ServiceTable σ) (method : MethodId) : Option (Layer σ × Handler σ) :=
  find? table.layers method

/-- Whether some layer handles the method. -/
def handles (table : ServiceTable σ) (method : MethodId) : Bool :=
  table.layers.any fun layer => layer.handlers.contains method

end ServiceTable

/-- Dispatches requests to services. -/
structure Router (σ : Type) where
  services : Table ServiceId (ServiceTable σ) := Table.empty
  /-- How many requests were dispatched. -/
  dispatched : Nat := 0

/-- The outcome of a dispatch. -/
structure Dispatched (σ : Type) where
  router : Router σ
  /-- The context the handler left, or the one given if none was run. -/
  context : σ
  listener : Listener
  /-- The answer to the request, if it was answered in the dispatch. -/
  answer : Option Answer

namespace Router

variable {σ : Type}

/-- A router without services. -/
def empty : Router σ := {}

/-- Register a service, in place of whatever was registered under the id. -/
def register (router : Router σ) (service : ServiceId) (table : ServiceTable σ) : Router σ :=
  { router with services := router.services.insert service table }

/-- Whether a service is registered under the id. -/
def hasService (router : Router σ) (service : ServiceId) : Bool :=
  router.services.contains service

/-- The handler for a method of a service with the layer it is in, or the fault of the caller. -/
def route (router : Router σ) (service : ServiceId) (method : MethodId) :
    Except Fault (Layer σ × Handler σ) :=
  match router.services.get? service with
  | none => .error (.unknownService service)
  | some table =>
    match table.handler? method with
    | none => .error (.unknownMethod service method)
    | some found => .ok found

/-- Dispatch a request on behalf of `caller`. -/
def dispatch (router : Router σ) (context : σ) (caller : Identity) (request : Request) :
    Dispatched σ :=
  let listener : Listener := ⟨caller, request.request, router.dispatched⟩
  let router := { router with dispatched := router.dispatched + 1 }
  match router.route request.service request.method with
  | .error fault => ⟨router, context, listener, some (.failure fault)⟩
  | .ok (_, handler) =>
    let handled := handler context ⟨listener, ⟨request.method, request.args⟩⟩
    ⟨router, handled.context, listener, handled.answer?⟩

end Router

end SharedWorld
