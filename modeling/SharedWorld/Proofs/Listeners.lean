import Mathlib.Data.List.Nodup
import SharedWorld.Proofs.Histories
import SharedWorld.Proofs.Moves

/-!
# How often a request is answered

Handlers of further services can do anything with the listener they are given: answer at once, keep
it and answer at any later time, or drop it, and they can return a fault in each case. A request is
answered once at most (`Exchange.run_answers`), with one exception: the router answers for a handler
that returns a fault without having answered, and does so too if the handler has kept its listener.
The listener still answers when it is used, and the request is answered twice then.
-/

namespace SharedWorld

variable {σ : Type}

/-- Whether a handler kept its listener and returned a fault all the same. -/
def Handled.overlaps (handled : Handled σ) : Bool :=
  decide (handled.use = .kept) && handled.fault.isSome

/-- The listeners that are still there after a handler that was given `listener`. -/
def Handled.keeps (handled : Handled σ) (listener : Listener) : List Listener :=
  if handled.use = .kept then [listener] else []

namespace Router

/-- The listener of the next request. -/
def listenerFor (router : Router σ) (caller : Identity) (request : Request) : Listener :=
  ⟨caller, request.request, router.dispatched⟩

/-- How the handler of a request returns, if there is a handler. -/
def handled? (router : Router σ) (context : σ) (caller : Identity) (request : Request) :
    Option (Handled σ) :=
  match router.route request.service request.method with
  | .error _ => none
  | .ok (_, handler) =>
    some (handler context ⟨router.listenerFor caller request, ⟨request.method, request.args⟩⟩)

/-- How a dispatch ends: without a handler by a fault, and with one by what it leaves. -/
theorem dispatch_cases (router : Router σ) (context : σ) (caller : Identity) (request : Request) :
    (∃ fault, router.handled? context caller request = none ∧
      router.dispatch context caller request =
        ⟨{ router with dispatched := router.dispatched + 1 }, context,
          router.listenerFor caller request, some (.failure fault)⟩) ∨
    ∃ handled, router.handled? context caller request = some handled ∧
      router.dispatch context caller request =
        ⟨{ router with dispatched := router.dispatched + 1 }, handled.context,
          router.listenerFor caller request, handled.answer?⟩ := by
  cases hroute : router.route request.service request.method with
  | error fault =>
    refine .inl ⟨fault, ?_, dispatch_of_error hroute context caller⟩
    simp only [handled?, hroute]
  | ok found =>
    obtain ⟨layer, handler⟩ := found
    refine .inr ⟨_, ?_, dispatch_of_ok hroute context caller⟩
    simp only [handled?, hroute]
    rfl

end Router

/-- A router at work, with the context that handlers act on. -/
structure Exchange (σ : Type) where
  router : Router σ
  context : σ
  /-- The listeners that handlers have kept and nobody has used or dropped. -/
  kept : List Listener := []
  /-- The answers that were sent, the oldest first, each with the listener it was sent through. The
  router answers through the listener it has issued. -/
  sent : List (Listener × Answer) := []

namespace Exchange

/-- What can happen at an exchange. A handler that uses a listener it has kept earlier is two
events: the use, and the dispatch that the handler is run for. -/
inductive Event (σ : Type) where
  | dispatches (caller : Identity) (request : Request)
  /-- A listener that was kept is used. -/
  | replies (listener : Listener) (answer : Answer)
  /-- A listener that was kept is dropped. -/
  | drops (listener : Listener)
  | registers (service : ServiceId) (table : ServiceTable σ)
  /-- The context is changed from outside. -/
  | changes (context : σ)

/-- The exchange after an event. A listener answers once, as answering uses it up. -/
def step (exchange : Exchange σ) : Event σ → Exchange σ
  | .dispatches caller request =>
    let outcome := exchange.router.dispatch exchange.context caller request
    let handled := exchange.router.handled? exchange.context caller request
    { router := outcome.router
      context := outcome.context
      kept := exchange.kept ++ (handled.map (·.keeps outcome.listener)).getD []
      sent := exchange.sent ++ outcome.answer.toList.map (outcome.listener, ·) }
  | .replies listener answer =>
    if listener ∈ exchange.kept then
      { exchange with
        kept := exchange.kept.erase listener
        sent := exchange.sent ++ [(listener, answer)] }
    else exchange
  | .drops listener => { exchange with kept := exchange.kept.erase listener }
  | .registers service table => { exchange with router := exchange.router.register service table }
  | .changes context => { exchange with context := context }

/-- The exchange after a list of events. -/
def run (exchange : Exchange σ) (events : List (Event σ)) : Exchange σ := events.foldl step exchange

/-- How many answers were sent through a listener. -/
def answersTo (exchange : Exchange σ) (listener : Listener) : Nat :=
  exchange.sent.countP (·.1 = listener)

/-- A request that was dispatched: the listener that was issued for it, and whether the handler kept
the listener and returned a fault all the same. -/
structure Issue where
  listener : Listener
  overlaps : Bool

/-- The request that an event dispatches. -/
def issues (exchange : Exchange σ) : Event σ → List Issue
  | .dispatches caller request =>
    [⟨exchange.router.listenerFor caller request,
      (exchange.router.handled? exchange.context caller request).any (·.overlaps)⟩]
  | _ => []

/-- A request is answered at most once, and not at all as long as its listener is kept. But if its
handler kept the listener and returned a fault, it is answered already, and once more at most. -/
def Bounds (exchange : Exchange σ) (issue : Issue) : Prop :=
  if issue.overlaps then
    1 ≤ exchange.answersTo issue.listener ∧
      exchange.answersTo issue.listener + exchange.kept.count issue.listener ≤ 2
  else exchange.answersTo issue.listener + exchange.kept.count issue.listener ≤ 1

/-- The books of an exchange. Listeners are numbered, so a new one was not used or kept before. -/
structure Sound (issued : List Issue) (exchange : Exchange σ) : Prop where
  numbered : ∀ issue ∈ issued, issue.listener.serial < exchange.router.dispatched
  distinct : (issued.map (·.listener)).Nodup
  sent_issued : ∀ response ∈ exchange.sent, response.1 ∈ issued.map (·.listener)
  kept_issued : ∀ listener ∈ exchange.kept, listener ∈ issued.map (·.listener)
  bounds : ∀ issue ∈ issued, exchange.Bounds issue

variable {exchange after : Exchange σ} {issued : List Issue} {issue : Issue}

/-- Answers are not taken back, and each takes a listener that is kept or new. -/
theorem Bounds.of_le (h : exchange.Bounds issue)
    (hmore : exchange.answersTo issue.listener ≤ after.answersTo issue.listener)
    (hless : after.answersTo issue.listener + after.kept.count issue.listener ≤
      exchange.answersTo issue.listener + exchange.kept.count issue.listener) :
    after.Bounds issue := by
  unfold Bounds at h ⊢
  split at h
  · rw [if_pos ‹_›]
    omega
  · rw [if_neg ‹_›]
    omega

/-- A listener that was not issued has not been used or kept. -/
theorem Sound.unused (h : exchange.Sound issued) {listener : Listener}
    (hnew : listener ∉ issued.map (·.listener)) :
    exchange.answersTo listener = 0 ∧ exchange.kept.count listener = 0 := by
  constructor
  · refine List.countP_eq_zero.mpr fun response hmem heq => hnew ?_
    rw [← of_decide_eq_true heq]
    exact h.sent_issued response hmem
  · exact List.count_eq_zero.mpr fun hmem => hnew (h.kept_issued listener hmem)

/-- A listener whose number is to be given next was not issued. -/
theorem Sound.fresh (h : exchange.Sound issued) {listener : Listener}
    (hserial : listener.serial = exchange.router.dispatched) :
    listener ∉ issued.map (·.listener) := by
  intro hmem
  obtain ⟨issue, hissue, rfl⟩ := List.mem_map.mp hmem
  have hlt := h.numbered issue hissue
  omega

/-- What a dispatch adds: an answer through the new listener or none, and the listener itself if it
is kept. -/
structure Adds (exchange : Exchange σ) (listener : Listener) (answers : List Answer)
    (kept : List Listener) (after : Exchange σ) : Prop where
  dispatched : after.router.dispatched = exchange.router.dispatched + 1
  sent : after.sent = exchange.sent ++ answers.map (listener, ·)
  kept_eq : after.kept = exchange.kept ++ kept
  only : ∀ other ∈ kept, other = listener

/-- A dispatch adds the answer that is sent by its end, and the listener if the handler keeps it. -/
theorem adds_dispatches (exchange : Exchange σ) (caller : Identity) (request : Request) :
    exchange.Adds (exchange.router.listenerFor caller request)
      (exchange.router.dispatch exchange.context caller request).answer.toList
      (((exchange.router.handled? exchange.context caller request).map
        (·.keeps (exchange.router.listenerFor caller request))).getD [])
      (exchange.step (.dispatches caller request)) := by
  rcases exchange.router.dispatch_cases exchange.context caller request with
    ⟨fault, hhandled, hdispatch⟩ | ⟨handled, hhandled, hdispatch⟩
  · constructor
    all_goals simp [Exchange.step, hhandled, hdispatch]
  · constructor
    all_goals simp [Exchange.step, hhandled, hdispatch, Handled.keeps]

variable {listener : Listener} {answers : List Answer} {kept : List Listener}

/-- Answers that are added go to the one listener. -/
theorem Adds.answersTo_eq (h : exchange.Adds listener answers kept after) (other : Listener) :
    after.answersTo other =
      exchange.answersTo other + if other = listener then answers.length else 0 := by
  rw [answersTo, h.sent, List.countP_append, List.countP_map]
  by_cases heq : other = listener
  · simp [answersTo, heq, Function.comp_def]
  · simp [answersTo, heq, Function.comp_def, Ne.symm heq]

/-- Listeners that are kept are kept for the one request. -/
theorem Adds.count_eq (h : exchange.Adds listener answers kept after) (other : Listener) :
    after.kept.count other =
      exchange.kept.count other + if other = listener then kept.length else 0 := by
  rw [h.kept_eq, List.count_append]
  by_cases heq : other = listener
  · have hall : kept.count other = kept.length :=
      List.count_eq_length.mpr fun same hsame => heq.trans (h.only same hsame).symm
    rw [if_pos heq, hall]
  · have hnone : kept.count other = 0 :=
      List.count_eq_zero.mpr fun hmem => heq (h.only other hmem)
    rw [if_neg heq, hnone]

/-- A dispatch does not count for the requests before it. -/
theorem Adds.bounds_other (adds : exchange.Adds listener answers kept after)
    (hne : issue.listener ≠ listener) (h : exchange.Bounds issue) : after.Bounds issue := by
  have hanswers := adds.answersTo_eq issue.listener
  have hcount := adds.count_eq issue.listener
  rw [if_neg hne] at hanswers hcount
  exact h.of_le (by omega) (by omega)

/-- For the request itself, only what the dispatch adds counts. -/
theorem Sound.bounds_new (h : exchange.Sound issued)
    (hnew : issue.listener ∉ issued.map (·.listener))
    (adds : exchange.Adds issue.listener answers kept after)
    (hbounds : if issue.overlaps then answers.length = 1 ∧ kept.length = 1
      else answers.length + kept.length ≤ 1) : after.Bounds issue := by
  obtain ⟨hunused, hunkept⟩ := h.unused hnew
  have hanswers := adds.answersTo_eq issue.listener
  have hcount := adds.count_eq issue.listener
  rw [if_pos rfl] at hanswers hcount
  unfold Bounds
  by_cases hoverlaps : issue.overlaps = true
  · rw [if_pos hoverlaps] at hbounds
    rw [if_pos hoverlaps]
    omega
  · rw [if_neg hoverlaps] at hbounds
    rw [if_neg hoverlaps]
    omega

/-- A request is dispatched: it is answered or not, and its listener is kept or not. -/
theorem Sound.dispatch (h : exchange.Sound issued)
    (adds : exchange.Adds issue.listener answers kept after)
    (hserial : issue.listener.serial = exchange.router.dispatched)
    (hbounds : if issue.overlaps then answers.length = 1 ∧ kept.length = 1
      else answers.length + kept.length ≤ 1) : after.Sound (issued ++ [issue]) := by
  have hnew := h.fresh hserial
  have hmap : (issued ++ [issue]).map (·.listener) = issued.map (·.listener) ++ [issue.listener] :=
    List.map_append
  constructor
  case numbered =>
    intro other hmem
    rw [adds.dispatched]
    rcases List.mem_append.mp hmem with hold | hthis
    · exact Nat.lt_succ_of_lt (h.numbered other hold)
    · rw [List.mem_singleton.mp hthis, hserial]
      exact Nat.lt_succ_self _
  case distinct =>
    rw [hmap]
    exact List.nodup_append'.mpr ⟨h.distinct, List.nodup_singleton _,
      List.disjoint_singleton.mpr hnew⟩
  case sent_issued =>
    intro response hmem
    rw [adds.sent] at hmem
    rw [hmap, List.mem_append]
    rcases List.mem_append.mp hmem with hold | hthis
    · exact .inl (h.sent_issued response hold)
    · obtain ⟨answer, -, rfl⟩ := List.mem_map.mp hthis
      exact .inr (List.mem_singleton_self _)
  case kept_issued =>
    intro other hmem
    rw [adds.kept_eq] at hmem
    rw [hmap, List.mem_append]
    rcases List.mem_append.mp hmem with hold | hthis
    · exact .inl (h.kept_issued other hold)
    · exact .inr (List.mem_singleton.mpr (adds.only other hthis))
  case bounds =>
    intro other hmem
    rcases List.mem_append.mp hmem with hold | hthis
    · have hne : other.listener ≠ issue.listener :=
        ne_of_mem_of_not_mem (List.mem_map_of_mem hold) hnew
      exact adds.bounds_other hne (h.bounds other hold)
    · obtain rfl := List.mem_singleton.mp hthis
      exact h.bounds_new hnew adds hbounds

/-- Nothing is answered and no more is kept. -/
theorem Sound.keepsLess (h : exchange.Sound issued)
    (hdispatched : after.router.dispatched = exchange.router.dispatched)
    (hsent : after.sent = exchange.sent) (hkept : after.kept.Sublist exchange.kept) :
    after.Sound issued := by
  refine ⟨by rw [hdispatched]; exact h.numbered, h.distinct, by rw [hsent]; exact h.sent_issued,
    fun listener hmem => h.kept_issued listener (hkept.subset hmem), fun issue hmem => ?_⟩
  have hanswers : after.answersTo issue.listener = exchange.answersTo issue.listener := by
    rw [answersTo, hsent, answersTo]
  have hcount := hkept.count_le issue.listener
  exact (h.bounds issue hmem).of_le (by omega) (by omega)

/-- A listener that is used is not kept any more. -/
theorem Sound.reply (h : exchange.Sound issued) (hmem : listener ∈ exchange.kept)
    (answer : Answer) :
    ({ exchange with
      kept := exchange.kept.erase listener
      sent := exchange.sent ++ [(listener, answer)] } : Exchange σ).Sound issued := by
  refine ⟨h.numbered, h.distinct, fun response hresponse => ?_,
    fun other hother => h.kept_issued other (List.mem_of_mem_erase hother), fun issue hissue => ?_⟩
  · rcases List.mem_append.mp hresponse with hold | hnew
    · exact h.sent_issued response hold
    · rw [List.mem_singleton.mp hnew]
      exact h.kept_issued listener hmem
  · have hkept := List.count_pos_iff.mpr hmem
    refine (h.bounds issue hissue).of_le ?_ ?_
    · simp [answersTo]
    · simp only [answersTo, List.countP_append, List.countP_singleton, List.count_erase]
      by_cases heq : listener = issue.listener
      · subst heq
        simp
        omega
      · simp [heq]

/-- Every event keeps the books in order. -/
theorem Sound.step (h : exchange.Sound issued) (event : Event σ) :
    (exchange.step event).Sound (issued ++ exchange.issues event) := by
  cases event with
  | dispatches caller request =>
    refine h.dispatch (exchange.adds_dispatches caller request) rfl ?_
    rcases exchange.router.dispatch_cases exchange.context caller request with
      ⟨fault, hhandled, hdispatch⟩ | ⟨handled, hhandled, hdispatch⟩
    · simp [hhandled, hdispatch]
    · obtain ⟨context, use, fault⟩ := handled
      cases use <;> cases fault <;>
        simp [hhandled, hdispatch, Handled.overlaps, Handled.answer?, Handled.keeps]
  | replies listener answer =>
    simp only [issues, List.append_nil]
    unfold Exchange.step
    dsimp only
    split
    · exact h.reply ‹_› answer
    · exact h
  | drops listener =>
    simp only [issues, List.append_nil]
    exact h.keepsLess rfl rfl List.erase_sublist
  | registers service table =>
    simp only [issues, List.append_nil]
    exact h.keepsLess rfl rfl (.refl _)
  | changes context =>
    simp only [issues, List.append_nil]
    exact h.keepsLess rfl rfl (.refl _)

/-- How often the requests that were dispatched are answered. -/
structure Answers (issued : List Issue) (exchange : Exchange σ) : Prop where
  /-- Every request has a listener of its own. -/
  distinct : (issued.map (·.listener)).Nodup
  /-- Nobody is answered who did not ask. -/
  asked : ∀ response ∈ exchange.sent, response.1 ∈ issued.map (·.listener)
  /-- A request is answered at most once, and not at all as long as its listener is kept, unless its
  handler kept the listener and returned a fault. -/
  once : ∀ issue ∈ issued, issue.overlaps = false →
    exchange.answersTo issue.listener + exchange.kept.count issue.listener ≤ 1
  /-- If the handler did both, the request is answered already. -/
  early : ∀ issue ∈ issued, issue.overlaps = true → 1 ≤ exchange.answersTo issue.listener
  /-- It is answered again when the listener is used. -/
  again : ∀ issue ∈ issued, issue.overlaps = true → issue.listener ∈ exchange.kept →
    ∀ answer, (exchange.step (.replies issue.listener answer)).answersTo issue.listener = 2
  /-- No request is answered more than twice. -/
  twice : ∀ issue ∈ issued, exchange.answersTo issue.listener ≤ 2

/-- In a sound exchange, every request is answered as often as it should be. -/
theorem Sound.answered (h : exchange.Sound issued) : exchange.Answers issued := by
  refine ⟨h.distinct, h.sent_issued, fun issue hmem hno => ?_, fun issue hmem hyes => ?_,
    fun issue hmem hyes hkept answer => ?_, fun issue hmem => ?_⟩
  · have hbounds := h.bounds issue hmem
    rwa [Bounds, if_neg (by simp [hno])] at hbounds
  · have hbounds := h.bounds issue hmem
    rw [Bounds, if_pos hyes] at hbounds
    exact hbounds.1
  · have hbounds := h.bounds issue hmem
    have hcount := List.count_pos_iff.mpr hkept
    rw [Bounds, if_pos hyes] at hbounds
    have hused : (exchange.step (.replies issue.listener answer)).answersTo issue.listener =
        exchange.answersTo issue.listener + 1 := by
      simp [Exchange.step, hkept, answersTo]
    omega
  · have hbounds := h.bounds issue hmem
    unfold Bounds at hbounds
    split at hbounds
    · omega
    · omega

/-- Whatever handlers do with their listeners, and whenever those that were kept are used, a request
is answered at most once unless its handler kept the listener and returned a fault. A request whose
handler did both is answered by the router, and again when the listener is used. -/
theorem run_answers (router : Router σ) (context : σ) (events : List (Event σ)) :
    (run ⟨router, context, [], []⟩ events).Answers
      (history step issues ⟨router, context, [], []⟩ events) := by
  have hstart : (⟨router, context, [], []⟩ : Exchange σ).Sound [] :=
    ⟨nofun, List.nodup_nil, nofun, nofun, nofun⟩
  have hrun := foldl_history_induction (P := fun issued (exchange : Exchange σ) =>
    exchange.Sound issued) (fun _ _ event h => h.step event) hstart events
  exact hrun.answered

/-- A handler that keeps its listener and returns a fault. -/
def sulk : Handler Unit := fun context _ =>
  { context := context, use := .kept, fault := some .noSuchZone }

/-- A request is handled so, and its listener is used later. -/
def relapse : Exchange Unit :=
  run ⟨Router.empty.register 1 ⟨(Layer.named "base").on 1 sulk, []⟩, (), [], []⟩
    [.dispatches ⟨"ada"⟩ ⟨1, 1, 1, []⟩, .replies ⟨⟨"ada"⟩, 1, 0⟩ (.success .ack)]

/-- The request is answered by the router and by the listener. -/
theorem relapse_answersTwice :
    relapse.sent = [(⟨⟨"ada"⟩, 1, 0⟩, .failure .noSuchZone), (⟨⟨"ada"⟩, 1, 0⟩, .success .ack)] ∧
      relapse.answersTo ⟨⟨"ada"⟩, 1, 0⟩ = 2 := by
  decide +kernel

end Exchange

end SharedWorld
