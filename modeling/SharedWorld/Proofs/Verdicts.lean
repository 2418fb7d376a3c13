import SharedWorld.Proofs.Arrivals

/-!
# One verdict for each transition

A client hands a request to its sender only if no transition is pending, and a transition that is
pending ends with one verdict for its observer. What an event can do to the pending transition is
listed once (`Client.Turn`). So the transitions that were granted are those whose observers were
told, in this order, followed by the one that is pending (`Client.run_settles`). As every request
has an id of its own, an answer to any request but the pending one is stale. -/

namespace SharedWorld

namespace ClientEffect

/-- The request that an effect hands to the sender, whether it could be sent or not. -/
def handed? : ClientEffect → Option Request
  | .sent request | .unsent request _ => some request
  | _ => none

/-- The observer that an effect gives a verdict, and the target of its transition. -/
def verdict? : ClientEffect → Option (Option String × MoveTarget)
  | .succeeded observer target _ | .failed observer target _ => some (observer, target)
  | _ => none

/-- The requests that are handed to the sender in the course of the effects, the oldest first. -/
def handed (effects : List ClientEffect) : List Request := effects.filterMap handed?

/-- The observers that are given a verdict in the course of the effects, the first one first. -/
def verdicts (effects : List ClientEffect) : List (Option String × MoveTarget) :=
  effects.filterMap verdict?

/-- Requests are handed over in the order of the effects. -/
theorem handed_append (first rest : List ClientEffect) :
    handed (first ++ rest) = handed first ++ handed rest := List.filterMap_append

/-- Verdicts are given in the order of the effects. -/
theorem verdicts_append (first rest : List ClientEffect) :
    verdicts (first ++ rest) = verdicts first ++ verdicts rest := List.filterMap_append

/-- Calling observers of the membership hands no request over. -/
theorem handed_membership (notices : List MembershipNotice) :
    handed (notices.map .membership) = [] := filterMap_membership (fun _ => rfl) notices

/-- Calling observers of the membership gives no verdict. -/
theorem verdicts_membership (notices : List MembershipNotice) :
    verdicts (notices.map .membership) = [] := filterMap_membership (fun _ => rfl) notices

end ClientEffect

open ClientEffect (handed verdicts)

/-- Who waits for the verdict on a transition, and its target. -/
def PendingTransition.party (pending : PendingTransition) : Option String × MoveTarget :=
  (pending.observer, pending.target)

namespace Client

variable {client after : Client}

/-! ## What an event does to the pending transition -/

/-- The call for a transition that an event makes: how its request ends, the target and the
observer. An order of the server makes one, too. -/
def Event.call? : Event → Option ((Request → Option Fault) × MoveTarget × Option String)
  | .asks target observer send => some (send, target, observer)
  | .hears (.forcedMove zone scene) send => some (send, ⟨zone, scene, 0⟩, none)
  | _ => none

/-- The transitions that an event asks for with success. -/
def grants (client : Client) (event : Event) : List PendingTransition :=
  match event.call? with
  | none => []
  | some (send, target, observer) =>
    match (client.requestTransition send target observer).1 with
    | .ok id => [⟨id, target, observer⟩]
    | .error _ => []

/-- What an event does to the pending transition, with the transitions that it grants, the requests
that it hands to the sender and the observers that it gives a verdict. -/
inductive Turn (client after : Client) :
    List PendingTransition → List Request → List (Option String × MoveTarget) → Prop where
  | stays (same : after.pending = client.pending) (ids : after.requestIds = client.requestIds) :
    Turn client after [] [] []
  /-- A request could not be sent. -/
  | fails {request : Request} (idle : client.pending = none) (still : after.pending = none)
    (ids : after.requestIds = client.requestIds.generate.2)
    (id : request.request = client.requestIds.peek) : Turn client after [] [request] []
  | begins {pending : PendingTransition} {request : Request} (idle : client.pending = none)
    (begun : after.pending = some pending)
    (ids : after.requestIds = client.requestIds.generate.2)
    (id : request.request = client.requestIds.peek) (same : pending.request = request.request) :
    Turn client after [pending] [request] []
  | settles {pending : PendingTransition} (waited : client.pending = some pending)
    (settled : after.pending = none) (ids : after.requestIds = client.requestIds) :
    Turn client after [] [] [pending.party]

/-- A call for a transition is refused, or its request could not be sent, or it is granted. -/
theorem requestTransition_turn (client : Client) (send : Request → Option Fault)
    (target : MoveTarget) (observer : Option String) :
    Turn client (client.requestTransition send target observer).2.client
      (match (client.requestTransition send target observer).1 with
        | .ok id => [⟨id, target, observer⟩]
        | .error _ => [])
      (handed (client.requestTransition send target observer).2.effects)
      (verdicts (client.requestTransition send target observer).2.effects) := by
  unfold requestTransition
  cases hpending : client.pending with
  | some pending => exact .stays rfl rfl
  | none =>
    dsimp only
    split
    · exact .fails hpending rfl rfl rfl
    · exact .begins hpending rfl rfl rfl rfl

/-- Changing the group hands no request over. -/
theorem handed_changeGroup (old new : Option GroupId) : handed (changeGroup old new) = [] :=
  filterMap_changeGroup (fun _ => rfl) (fun _ => rfl) old new

/-- Changing the group gives no verdict. -/
theorem verdicts_changeGroup (old new : Option GroupId) : verdicts (changeGroup old new) = [] :=
  filterMap_changeGroup (fun _ => rfl) (fun _ => rfl) old new

/-- A pending transition that is settled ends with one verdict, whatever the answer is. -/
theorem settle_turn {pending : PendingTransition} (waited : client.pending = some pending)
    (answer : Answer) :
    Turn client ({ client with pending := none }.settle pending answer).client []
      (handed ({ client with pending := none }.settle pending answer).effects)
      (verdicts ({ client with pending := none }.settle pending answer).effects) := by
  cases answer with
  | failure fault => exact .settles waited rfl rfl
  | success reply =>
    cases reply with
    | ack => exact .settles waited rfl rfl
    | values values => exact .settles waited rfl rfl
    | moved reply =>
      have hhanded : handed ({ client with pending := none }.settle pending
          (.success (.moved reply))).effects = [] := by
        rw [settle, applyMove, ClientEffect.handed_append, ClientEffect.handed_append,
          handed_changeGroup, ClientEffect.handed_membership]
        rfl
      have hverdicts : verdicts ({ client with pending := none }.settle pending
          (.success (.moved reply))).effects = [pending.party] := by
        rw [settle, applyMove, ClientEffect.verdicts_append, ClientEffect.verdicts_append,
          verdicts_changeGroup, ClientEffect.verdicts_membership]
        rfl
      rw [hhanded, hverdicts]
      exact .settles waited rfl rfl

/-- Only the answer to the pending request does anything. -/
theorem handleResponse_of_ne {response : Response}
    (h : client.pending.map (·.request) ≠ some response.request) :
    client.handleResponse response = { client := client } := by
  unfold handleResponse
  cases hpending : client.pending with
  | none => rfl
  | some pending =>
    rw [hpending, Option.map_some] at h
    exact if_neg fun heq => h (congrArg some heq)

/-- A response settles the pending transition, or it is no turn of any. -/
theorem handleResponse_turn (client : Client) (response : Response) :
    Turn client (client.handleResponse response).client []
      (handed (client.handleResponse response).effects)
      (verdicts (client.handleResponse response).effects) := by
  by_cases hanswers : client.pending.map (·.request) = some response.request
  · obtain ⟨pending, hpending, hrequest⟩ := Option.map_eq_some_iff.mp hanswers
    have hstep : client.handleResponse response =
        { client with pending := none }.settle pending response.answer := by
      have hanswer := handleResponse_of_pending hpending response.answer
      rwa [hrequest] at hanswer
    rw [hstep]
    exact settle_turn hpending response.answer
  · rw [handleResponse_of_ne hanswers]
    exact .stays rfl rfl

/-- Every event is one of the listed ways to go on. -/
theorem react_turn (client : Client) (event : Event) :
    Turn client (client.react event).client (client.grants event)
      (handed (client.react event).effects) (verdicts (client.react event).effects) := by
  cases event with
  | asks target observer send => exact client.requestTransition_turn send target observer
  | hears message send =>
    cases message with
    | response response => exact client.handleResponse_turn response
    | occupants place delta =>
      have hhanded : handed (client.react (.hears (.occupants place delta) send)).effects = [] :=
        ClientEffect.handed_membership _
      have hverdicts :
          verdicts (client.react (.hears (.occupants place delta) send)).effects = [] :=
        ClientEffect.verdicts_membership _
      rw [hhanded, hverdicts]
      exact .stays rfl rfl
    | forcedMove zone scene =>
      exact client.requestTransition_turn send ⟨zone, scene, 0⟩ none
  | loses =>
    unfold react connectionLost
    cases hpending : client.pending with
    | none => exact .stays rfl rfl
    | some pending => exact .settles hpending rfl rfl
  | watches observer => exact .stays rfl rfl

/-! ## The books of a client -/

variable {past : List PendingTransition} {requests : List Request}
  {calls : List (Option String × MoveTarget)}

/-- The transitions that were granted, the requests that were handed over and the observers that
were told so far add up. -/
structure Balances (past : List PendingTransition) (requests : List Request)
    (calls : List (Option String × MoveTarget)) (client : Client) : Prop where
  first : client.requestIds.first = 1
  /-- Every request has the id that is next. -/
  ids : requests.map (·.request) = IdGenerator.given .request client.requestIds.issued
  /-- The transition that is pending was asked for with the last request. -/
  last : ∀ pending ∈ client.pending,
    (requests.map (·.request)).getLast? = some pending.request
  /-- The observers of all other transitions were told, in the order of the transitions. -/
  each : ∃ settled, past = settled ++ client.pending.toList ∧ calls = settled.map (·.party)

/-- The balance of a new client is even. -/
theorem new_balances (me : Identity) : (Client.new me).Balances [] [] [] :=
  ⟨rfl, rfl, nofun, [], rfl, rfl⟩

/-- A request that is handed over has the next id. -/
theorem Balances.ids_concat (h : client.Balances past requests calls) {request : Request}
    (id : request.request = client.requestIds.peek) :
    (requests ++ [request]).map (·.request) =
      IdGenerator.given .request client.requestIds.generate.2.issued := by
  have hpeek : client.requestIds.peek =
      IdGenerator.peek { first := 1, issued := client.requestIds.issued } := by
    rw [← h.first]
  rw [List.map_append, h.ids, IdGenerator.given, IdGenerator.given, IdGenerator.generate,
    List.range_succ, List.map_append, List.map_singleton, List.map_singleton, id, hpeek]

/-- The balance stays even in each turn. -/
theorem Turn.balances {begun : List PendingTransition} {sent : List Request}
    {heard : List (Option String × MoveTarget)} (turn : Turn client after begun sent heard)
    (h : client.Balances past requests calls) :
    after.Balances (past ++ begun) (requests ++ sent) (calls ++ heard) := by
  obtain ⟨settled, hpast, hcalls⟩ := h.each
  cases turn with
  | stays same ids =>
    simp only [List.append_nil]
    refine ⟨by rw [ids]; exact h.first, by rw [ids]; exact h.ids, by rw [same]; exact h.last,
      settled, ?_, hcalls⟩
    rw [same, hpast]
  | fails idle still ids id =>
    refine ⟨by rw [ids]; exact h.first, by rw [ids]; exact h.ids_concat id, ?_, settled, ?_, ?_⟩
    · rw [still]
      exact nofun
    · rw [List.append_nil, hpast, idle, still]
    · rw [List.append_nil, hcalls]
  | @begins pending request idle begun ids id same =>
    refine ⟨by rw [ids]; exact h.first, by rw [ids]; exact h.ids_concat id, ?_, settled, ?_, ?_⟩
    · rw [begun]
      rintro other ⟨rfl⟩
      rw [List.map_append, List.map_singleton, List.getLast?_concat, same]
    · rw [hpast, idle, begun]
      simp
    · rw [List.append_nil, hcalls]
  | @settles pending waited settled' ids =>
    simp only [List.append_nil]
    refine ⟨by rw [ids]; exact h.first, by rw [ids]; exact h.ids, ?_, settled ++ [pending], ?_, ?_⟩
    · rw [settled']
      exact nofun
    · rw [hpast, waited, settled']
      simp
    · rw [hcalls, List.map_append, List.map_singleton]

/-- The transitions that were granted in the course of the events, the oldest first. -/
def granted (client : Client) (events : List Event) : List PendingTransition :=
  history (fun client event => (client.react event).client) grants client events

/-- The requests that were handed to the sender in the course of the events. -/
def handedOver (client : Client) (events : List Event) : List Request :=
  history (fun client event => (client.react event).client)
    (fun client event => handed (client.react event).effects) client events

/-- The observers that were given a verdict in the course of the events. -/
def told (client : Client) (events : List Event) : List (Option String × MoveTarget) :=
  history (fun client event => (client.react event).client)
    (fun client event => verdicts (client.react event).effects) client events

/-- The balance stays even in every run. -/
theorem Balances.run (h : client.Balances past requests calls) (events : List Event) :
    (client.run events).Balances (past ++ client.granted events)
      (requests ++ client.handedOver events) (calls ++ client.told events) := by
  induction events generalizing client past requests calls with
  | nil =>
    simp only [Client.granted, handedOver, Client.told, history, List.append_nil]
    exact h
  | cons event rest ih =>
    have hrest := ih ((client.react_turn event).balances h)
    simp only [List.append_assoc] at hrest
    exact hrest

/-! ## What the books come to -/

/-- At most one transition is pending, and every transition that was granted ends with one verdict,
given the transitions that were granted, the requests that were handed over and the observers that
were told so far. -/
structure Settles (past : List PendingTransition) (requests : List Request)
    (calls : List (Option String × MoveTarget)) (client : Client) : Prop where
  /-- The observers were told of the transitions that were granted, in the order of these and of
  each once, except of the one that is pending. -/
  each : ∃ settled, past = settled ++ client.pending.toList ∧ calls = settled.map (·.party)
  /-- So an observer was called as often as it had asked with success, but for what is pending. -/
  once : ∀ observer, calls.countP (·.1 = observer) +
    client.pending.toList.countP (·.observer = observer) = past.countP (·.observer = observer)
  /-- An observer is called by the event that ends its transition, and by no other. -/
  moment : ∀ event, verdicts (client.react event).effects =
    if (client.react event).client.pending = client.pending then []
    else (client.pending.map (·.party)).toList
  /-- As long as a transition is pending, no request is handed over. -/
  silent : client.pending.isSome = true → ∀ event, handed (client.react event).effects = []
  /-- A call without success calls no observer and leaves what is pending. If something is, it does
  nothing at all. -/
  refused : ∀ {send target observer fault step},
    client.requestTransition send target observer = (.error fault, step) →
    step.client.pending = client.pending ∧ verdicts step.effects = [] ∧
      (client.pending.isSome = true → step = { client := client })
  /-- No two requests have the same id. -/
  distinct : (requests.map (·.request)).Nodup
  /-- An answer to any request but the pending one changes nothing and calls nobody. -/
  stale : ∀ {response}, client.pending.map (·.request) ≠ some response.request →
    ∀ send, client.handleMessage send (.response response) = { client := client }
  /-- So no answer to a request settles a transition that was asked for with a later one. -/
  outdated : ∀ {earlier request}, requests = earlier ++ [request] →
    ∀ old ∈ earlier, ∀ answer send,
      client.handleMessage send (.response ⟨old.request, answer⟩) = { client := client }

/-- A turn gives its verdict on the pending transition just if that is pending no more. -/
theorem Turn.verdicts_eq {begun : List PendingTransition} {sent : List Request}
    {heard : List (Option String × MoveTarget)} (turn : Turn client after begun sent heard) :
    heard =
      if after.pending = client.pending then [] else (client.pending.map (·.party)).toList := by
  cases turn with
  | stays same ids => rw [if_pos same]
  | fails idle still ids id => rw [idle, still, if_pos rfl]
  | begins idle begun ids id same => simp [idle]
  | settles waited settled ids => simp [waited, settled]

/-- A turn hands nothing over while a transition is pending. -/
theorem Turn.handed_eq_nil {begun : List PendingTransition} {sent : List Request}
    {heard : List (Option String × MoveTarget)} (turn : Turn client after begun sent heard)
    (hpending : client.pending.isSome = true) : sent = [] := by
  cases turn with
  | stays same ids => rfl
  | fails idle still ids id => simp [idle] at hpending
  | begins idle begun ids id same => simp [idle] at hpending
  | settles waited settled ids => rfl

/-- A transition that is refused leaves the pending one alone, and gives no verdict. -/
theorem requestTransition_refused {send : Request → Option Fault} {target : MoveTarget}
    {observer : Option String} {fault : Fault} {step : ClientStep}
    (h : client.requestTransition send target observer = (.error fault, step)) :
    step.client.pending = client.pending ∧ verdicts step.effects = [] ∧
      (client.pending.isSome = true → step = { client := client }) := by
  unfold requestTransition at h
  cases hpending : client.pending with
  | some pending =>
    rw [hpending] at h
    cases h
    exact ⟨hpending, rfl, fun _ => rfl⟩
  | none =>
    rw [hpending] at h
    dsimp only at h
    split at h
    · cases h
      exact ⟨rfl, rfl, nofun⟩
    · cases h

/-- While the balance is even, transitions are settled as they should be. -/
theorem Balances.settles (h : client.Balances past requests calls)
    (hfew : client.requestIds.issued < 2 ^ 64) : client.Settles past requests calls where
  each := h.each
  once observer := by
    obtain ⟨settled, rfl, rfl⟩ := h.each
    rw [List.countP_append, List.countP_map]
    rfl
  moment event := (client.react_turn event).verdicts_eq
  silent hpending event := (client.react_turn event).handed_eq_nil hpending
  refused := requestTransition_refused
  distinct := by
    rw [h.ids]
    exact IdGenerator.nodup_given (Nat.le_of_lt hfew)
  stale hne _ := handleResponse_of_ne hne
  outdated {earlier request} hrequests old hold answer send := by
    apply handleResponse_of_ne
    intro hpending
    obtain ⟨pending, hsome, hid⟩ := Option.map_eq_some_iff.mp hpending
    have hnodup : (requests.map (·.request)).Nodup := by
      rw [h.ids]
      exact IdGenerator.nodup_given (Nat.le_of_lt hfew)
    have hlast := h.last pending hsome
    rw [hrequests, List.map_append, List.map_singleton] at hnodup hlast
    rw [List.getLast?_concat, hid] at hlast
    have hmem : old.request ∈ earlier.map (·.request) := List.mem_map_of_mem hold
    exact (List.nodup_append.mp hnodup).2.2 _ hmem _ (List.mem_singleton_self _)
      (Option.some.inj hlast).symm

/-- Whatever a client is asked for and whatever it hears, as long as fewer than 2^64 requests were
made: at most one transition is pending, nothing is sent meanwhile, every transition that was
granted ends with one call of its observer, and only the answer to its own request can settle it. -/
theorem run_settles (me : Identity) (events : List Event)
    (hfew : ((Client.new me).run events).requestIds.issued < 2 ^ 64) :
    ((Client.new me).run events).Settles ((Client.new me).granted events)
      ((Client.new me).handedOver events) ((Client.new me).told events) :=
  ((new_balances me).run events).settles hfew

/-- A client is asked to go somewhere, and to go elsewhere meanwhile; it hears a forged answer and
an order of the server before the answer. Then a request cannot be sent, and the next one is pending
when the first answer comes once more and the connection is lost. -/
def errands : List Event :=
  [.asks ⟨1, 1, 1⟩ (some "first") fun _ => none, .asks ⟨1, 2, 1⟩ (some "second") fun _ => none,
    .hears (.response ⟨7, .success .ack⟩) fun _ => none, .hears (.forcedMove 1 3) fun _ => none,
    .hears (.response ⟨1, .failure .noSuchPlace⟩) fun _ => none,
    .asks ⟨1, 2, 1⟩ (some "third") fun _ => some .noSuchZone,
    .asks ⟨1, 2, 1⟩ (some "fourth") fun _ => none,
    .hears (.response ⟨1, .failure .noSuchPlace⟩) fun _ => none, .loses]

/-- The first observer and the fourth one are told, once each. -/
theorem errands_settles :
    (Client.new ⟨"ada"⟩).told errands = [(some "first", ⟨1, 1, 1⟩), (some "fourth", ⟨1, 2, 1⟩)] ∧
      ((Client.new ⟨"ada"⟩).handedOver errands).map (·.request) = [1, 2, 3] ∧
      ((Client.new ⟨"ada"⟩).run errands).requestIds.issued < 2 ^ 64 ∧
      ((Client.new ⟨"ada"⟩).run errands).Settles ((Client.new ⟨"ada"⟩).granted errands)
        ((Client.new ⟨"ada"⟩).handedOver errands) ((Client.new ⟨"ada"⟩).told errands) :=
  ⟨by decide +kernel, by decide +kernel, by decide +kernel,
    run_settles ⟨"ada"⟩ errands (by decide +kernel)⟩

end Client

end SharedWorld
