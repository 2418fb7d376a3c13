import SharedWorld.Proofs.Mailboxes
import SharedWorld.Proofs.News

/-!
# What can come to a participant

A response is sent as the answer to a request and in no other way (`Server.ActOutcome.proper`). The
mailbox that is opened for a participant takes nothing but what is sent to that participant,
whatever becomes of its session (`Server.ActOutcome.inbox_subset`). It may miss messages: the
session may be bound to another connection by then, and the mailbox may be full or closed.
-/

namespace SharedWorld

/-! ## Responses are answers -/

/-- Finishing a move sends no response but its answer. -/
theorem MoveRequest.proper_finish (request : MoveRequest) (realm : Realm)
    (h : realm.world.Proper) (held : List CacheKey) (answer : Answer) :
    (request.finish realm held answer).world.Proper := by
  rw [finish, World.foldl_release]
  exact h.record (Effect.proper_answer _ _)

/-- Calling a policy sends no response. -/
theorem Realm.proper_consult {realm : Realm} (h : realm.world.Proper) (zone : ZoneId)
    (call : PolicyCall) : (realm.consult zone call).world.Proper := h.record nofun

/-- Telling a policy of a body sends no response. -/
theorem Realm.proper_announce {realm : Realm} (h : realm.world.Proper) (entity : EntityId)
    (zone : ZoneId) : (realm.announce entity zone).world.Proper := by
  unfold announce
  split
  · exact proper_consult h zone _
  · exact h

namespace Flight

variable {request : MoveRequest} {resolution : Resolution CacheKey Bundle} {realm realm' : Realm}
  {flight : Option Flight}

/-- A move that has looked for its scene sends no response but its answer. -/
theorem SceneOutcome.proper {zone : ZoneSummary}
    (outcome : SceneOutcome request zone resolution realm flight realm')
    (h : realm.world.Proper) : realm'.world.Proper := by
  cases outcome with
  | waits => exact h
  | missing => exact request.proper_finish realm h _ _
  | @refused _ model _ world load scene commit =>
    have hcommit := (request.commit_outcome realm.world zone model).notifies.proper h
    rw [commit] at hcommit
    exact request.proper_finish { realm with world := world } hcommit _ _
  | @entered _ model _ world load scene commit =>
    have hcommit := (request.commit_outcome realm.world zone model).notifies.proper h
    rw [commit] at hcommit
    exact Realm.proper_announce
      (request.proper_finish { realm with world := world } hcommit _ _) _ _

/-- A move that has looked for its zone sends no response but its answer. -/
theorem ZoneOutcome.proper (outcome : ZoneOutcome request resolution realm flight realm')
    (h : realm.world.Proper) : realm'.world.Proper := by
  have hratify : ∀ body summary, (realm.ratify body summary).2.world.Proper :=
    fun body summary => Realm.proper_consult h summary.zone _
  cases outcome with
  | waits => exact h
  | missing => exact request.proper_finish realm h _ _
  | bodyless => exact request.proper_finish realm h _ _
  | vetoed => exact request.proper_finish _ (hratify _ _) _ _
  | admitted load zone found verdict scene => exact scene.proper (hratify _ _)

/-- Taking a move on sends no response but its answer. -/
theorem proper_step (flight : Flight) (h : realm.world.Proper) :
    (flight.step realm).2.world.Proper := by
  unfold step
  split
  · exact (stepZone_outcome _ _ _).proper h
  · exact (stepScene_outcome _ _ _ _).proper h

/-- Beginning a move sends no response but its answer. -/
theorem proper_launch (request : MoveRequest) (h : realm.world.Proper) :
    (launch request realm).2.world.Proper :=
  (stepZone_outcome request _ (realm.acquire (.zone request.target.zone)).2).proper h

end Flight

/-- Whatever the pipeline does, it sends no response but answers. -/
theorem Pipeline.proper_invariant :
    Pipeline.Invariant (fun _ realm => realm.world.Proper) (fun _ _ _ realm => realm.world.Proper)
    where
  waits {_ _ _ flight _ _} h _ hstep := by
    have hproper := flight.proper_step h
    rwa [hstep] at hproper
  answers {_ _ _ flight _} h _ hstep := by
    have hproper := flight.proper_step h
    rwa [hstep] at hproper
  passes {_ _ _ request _ _} h hlaunch := by
    have hproper := Flight.proper_launch request h
    rwa [hlaunch] at hproper
  parks {_ _ _ request _ _ _} h hlaunch := by
    have hproper := Flight.proper_launch request h
    rwa [hlaunch] at hproper
  rests h := h

/-- Handing a move to the pipeline sends no response but answers. -/
theorem Simulation.proper_beginMove (simulation : Simulation) (request : MoveRequest)
    (h : simulation.world.Proper) : (simulation.beginMove request).world.Proper :=
  Pipeline.proper_invariant.begin request h fun _ => h

namespace Server

variable {server after : Server}

/-- Dispatching a request sends no response but answers. -/
theorem Served.proper {caller : Identity} {request : Request} {move : Option MoveRequest}
    {simulation : Simulation} (served : Served server caller request move simulation)
    (h : server.world.Proper) : simulation.world.Proper := by
  have hserved : ∀ layer, (server.world.record
      (.served request.service layer request.method caller)).Proper := fun _ => h.record nofun
  cases served with
  | unrouted => exact h.record (Effect.proper_answer _ _)
  | refused layer => exact (hserved layer).record (Effect.proper_answer _ _)
  | @left layer entity =>
    have hleft := (World.leavePlace_outcome _ entity).notifies.proper (hserved layer)
    exact hleft.record (Effect.proper_answer _ _)
  | @begun layer move =>
    exact Simulation.proper_beginMove (server.simulation.withWorld (server.world.record
      (.served request.service layer request.method caller))) move (hserved layer)

/-- No response was carried out or is on its way but as the answer to a request. -/
def Proper (server : Server) : Prop :=
  (∀ effect ∈ server.journal, effect.Proper) ∧ server.world.Proper

/-- A new server has sent no response. -/
theorem new_proper (config : ServerConfig) (loader : Loader CacheKey Bundle) :
    (Server.new config loader).Proper := ⟨nofun, nofun⟩

/-- A server sends no response but answers, whatever is done with it. -/
theorem ActOutcome.proper {action : Action} (outcome : ActOutcome server action after)
    (hbuiltIn : server.BuiltIn) (h : server.Proper) : after.Proper := by
  obtain ⟨hjournal, hworld⟩ := h
  cases outcome with
  | ejects body =>
    exact ⟨hjournal, (World.leavePlace_outcome server.world _).notifies.proper hworld⟩
  | follows events =>
    exact ⟨hjournal, (notifies_followSession server.world _).proper hworld⟩
  | @serves caller request rest requests =>
    exact ⟨hjournal,
      (runRequest_served { server with requests := rest } hbuiltIn caller request).proper hworld⟩
  | advances bodies =>
    have hrealm : server.simulation.realm.world.Proper := hworld
    exact ⟨hjournal, Pipeline.proper_invariant.advanceIn hrealm bodies⟩
  | @delivers effect rest effects =>
    rw [World.Proper, effects] at hworld
    refine ⟨fun other hother => ?_,
      fun other hother => hworld other (List.mem_cons_of_mem _ hother)⟩
    rcases List.mem_append.mp hother with hold | hnew
    · exact hjournal other hold
    · obtain rfl := List.mem_singleton.mp hnew
      exact hworld other List.mem_cons_self
  | _ => exact ⟨hjournal, hworld⟩

end Server

/-- A response that a participant hears is the answer to one of its requests. -/
theorem Effect.exists_answer {me : Identity} {response : Response} {effects : List Effect}
    (hproper : ∀ effect ∈ effects, effect.Proper)
    (h : .response response ∈ Effect.heardBy me effects) :
    ∃ listener answer, Effect.answer listener answer ∈ effects ∧ listener.caller = me ∧
      .response response = listener.response answer := by
  obtain ⟨effect, hmem, hheard⟩ := List.mem_filterMap.mp h
  obtain ⟨⟨recipient, message⟩, hdelivery, hmine⟩ := Option.bind_eq_some_iff.mp hheard
  obtain ⟨rfl, rfl⟩ : recipient = me ∧ message = .response response := by
    by_cases hme : recipient = me
    · exact ⟨hme, Option.some.inj ((if_pos hme).symm.trans hmine)⟩
    · exact nomatch (if_neg hme).symm.trans hmine
  cases effect with
  | message other content =>
    cases hdelivery
    exact absurd rfl (hproper _ hmem _ _)
  | answer listener answer =>
    cases hdelivery
    exact ⟨listener, answer, hmem, rfl, rfl⟩
  | consulted policy call => cases hdelivery
  | served service layer method caller => cases hdelivery

/-! ## A mailbox of one's own -/

namespace Registry

variable {registry before after : Registry} {me identity : Identity} {connection : ConnectionId}
  {mailbox : Nat} {capacity : Option Nat}

/-- The mailbox was opened for the participant: nobody else is reached on it. -/
structure Reserves (registry : Registry) (me : Identity) (mailbox : Nat) : Prop where
  issued : mailbox < registry.mailboxes.length
  handle : ∀ {identity handle}, registry.handle? identity = some handle → handle.mailbox = mailbox →
    identity = me

/-- A mailbox stays reserved while the sessions stay the same. -/
theorem Reserves.of_same (h : before.Reserves me mailbox)
    (hsessions : after.sessions = before.sessions)
    (hlength : after.mailboxes.length = before.mailboxes.length) : after.Reserves me mailbox where
  issued := by
    rw [hlength]
    exact h.issued
  handle hreached := by
    rw [handle?, hsessions] at hreached
    exact h.handle hreached

/-- A mailbox stays reserved when some participants are not reached any more. -/
theorem Reserves.of_losesHandles (h : before.Reserves me mailbox)
    (loses : before.LosesHandles after) : after.Reserves me mailbox where
  issued := by
    rw [loses.mailboxes]
    exact h.issued
  handle hreached := h.handle (loses.handle_of_some hreached)

/-- A mailbox stays reserved when another one is opened. -/
theorem Reserves.of_opens (h : before.Reserves me mailbox)
    (opens : before.Opens connection identity capacity after) : after.Reserves me mailbox where
  issued := by
    rw [opens.mailboxes, List.length_append]
    exact Nat.lt_add_right _ h.issued
  handle hreached hmailbox := by
    rcases opens.handle_of_some hreached with ⟨-, hnew⟩ | ⟨-, hbefore⟩
    · exact absurd h.issued (by omega)
    · exact h.handle hbefore hmailbox

/-- A new mailbox is reserved for the participant it is opened for. -/
theorem Opens.reserves (opens : before.Opens connection me capacity after)
    (h : before.SeparateMailboxes) : after.Reserves me before.mailboxes.length where
  issued := by
    rw [opens.mailboxes, List.length_append]
    exact Nat.lt_succ_self _
  handle hreached hmailbox := by
    rcases opens.handle_of_some hreached with ⟨hself, -⟩ | ⟨-, hbefore⟩
    · exact hself
    · exact absurd (h.issued hbefore) (by omega)

/-- A mailbox stays reserved when a message is put into one. -/
theorem Reserves.post (h : registry.Reserves me mailbox) (number : Nat)
    (message : ServerMessage) : (registry.post number message).2.Reserves me mailbox := by
  unfold Registry.post
  split
  · exact h
  · split
    · exact h.of_same rfl (List.length_set)
    · exact h

/-- A mailbox stays reserved when a message is sent. -/
theorem Reserves.send (h : registry.Reserves me mailbox) (identity : Identity)
    (message : ServerMessage) : (registry.send identity message).2.Reserves me mailbox := by
  rw [send_eq]
  split
  · exact h.post _ message
  · exact h

/-- Putting a message into a mailbox adds no other message to it. -/
theorem inbox_post_subset (registry : Registry) (mailbox : Nat) (message : ServerMessage) :
    (registry.post mailbox message).2.inbox mailbox ⊆ registry.inbox mailbox ++ [message] := by
  unfold post
  cases hbox : registry.mailboxes[mailbox]? with
  | none => exact List.subset_append_left _ _
  | some box =>
    dsimp only
    split
    · rw [inbox, inbox, List.getElem?_set_self (List.getElem?_eq_some_iff.mp hbox).1, hbox]
      exact List.Subset.refl _
    · exact List.subset_append_left _ _

/-- The mailbox takes nothing but what is sent to the participant. -/
theorem Reserves.inbox_send (h : registry.Reserves me mailbox) (identity : Identity)
    (message : ServerMessage) :
    (registry.send identity message).2.inbox mailbox ⊆
      registry.inbox mailbox ++ if identity = me then [message] else [] := by
  rw [send_eq]
  cases hreached : registry.handle? identity with
  | none => exact List.subset_append_left _ _
  | some handle =>
    dsimp only
    by_cases hmailbox : handle.mailbox = mailbox
    · rw [if_pos (h.handle hreached hmailbox), hmailbox]
      exact registry.inbox_post_subset mailbox message
    · rw [registry.inbox_post_of_ne hmailbox]
      exact List.subset_append_left _ _

/-- Where mailboxes only lose messages, each of them does. -/
theorem inbox_map_subset (registry : Registry) {change : Mailbox → Mailbox}
    (hchange : ∀ box, (change box).messages ⊆ box.messages) (mailbox : Nat) :
    inbox { registry with mailboxes := registry.mailboxes.map change } mailbox ⊆
      registry.inbox mailbox := by
  rw [inbox, inbox, List.getElem?_map]
  cases registry.mailboxes[mailbox]? with
  | none => exact List.Subset.refl _
  | some box => exact hchange box

/-- Draining a connection adds no message to a mailbox. -/
theorem inbox_drain_subset (registry : Registry) (connection : ConnectionId) (mailbox : Nat) :
    (registry.drain connection).2.inbox mailbox ⊆ registry.inbox mailbox := by
  refine registry.inbox_map_subset (fun box => ?_) mailbox
  split
  · exact List.nil_subset _
  · exact List.Subset.refl _

/-- Hanging up adds no message to a mailbox. -/
theorem inbox_hangUp_subset (registry : Registry) (connection : ConnectionId) (mailbox : Nat) :
    (registry.hangUp connection).2.inbox mailbox ⊆ registry.inbox mailbox := by
  refine registry.inbox_map_subset (fun box => ?_) mailbox
  split
  · exact List.nil_subset _
  · exact List.Subset.refl _

end Registry

namespace Server

variable {server after : Server} {me : Identity} {mailbox : Nat}

/-- What an effect tells a participant comes to its mailbox, or is lost. -/
theorem carryOut_inbox_subset (h : server.registry.Reserves me mailbox) (effect : Effect) :
    (server.carryOut effect).registry.inbox mailbox ⊆
      server.registry.inbox mailbox ++ Effect.heardBy me [effect] := by
  simp only [carryOut, Effect.heardBy, List.filterMap_cons, List.filterMap_nil]
  cases effect.delivery? with
  | none => exact List.subset_append_left _ _
  | some delivery =>
    obtain ⟨recipient, message⟩ := delivery
    have hsend := h.inbox_send recipient message
    dsimp only [Option.bind_some]
    by_cases hme : recipient = me
    · simp only [if_pos hme] at hsend ⊢
      exact hsend
    · simp only [if_neg hme] at hsend ⊢
      exact hsend

/-- A mailbox is never given to another participant. -/
theorem ActOutcome.reserves {action : Action} (outcome : ActOutcome server action after)
    (hseparate : server.registry.SeparateMailboxes) (h : server.registry.Reserves me mailbox) :
    after.registry.Reserves me mailbox := by
  cases outcome with
  | connects now connection identity capacity =>
    exact h.of_opens (Registry.opens_connect hseparate.labeled now connection identity capacity)
  | disconnects now connection cause =>
    exact h.of_losesHandles (Registry.losesHandles_disconnect _ _ _ _)
  | drains connection => exact h.of_same rfl (List.length_map _)
  | hangsUp connection => exact h.of_same rfl (List.length_map _)
  | endsSnapshot snapshot => exact h.of_losesHandles (Registry.losesHandles_endSnapshot _ _)
  | endsSession identity => exact h.of_losesHandles (Registry.losesHandles_endSession _ _)
  | expires order now grace => exact h.of_losesHandles (Registry.losesHandles_expireIn _ _ _ _)
  | orders identity zone scene => exact h.send identity _
  | follows events => exact h.of_same rfl rfl
  | @delivers effect rest effects =>
    simp only [carryOut]
    split
    · exact h.send _ _
    · exact h
  | _ => exact h

/-- What is read from a participant's mailbox, and what is in it then, was in it before or is sent
to the participant. -/
theorem ActOutcome.inbox_subset {action : Action} (outcome : ActOutcome server action after)
    (hseparate : server.registry.SeparateMailboxes) (h : server.registry.Reserves me mailbox)
    (connection : ConnectionId) :
    server.reads connection mailbox action ++ after.registry.inbox mailbox ⊆
      server.registry.inbox mailbox ++ server.sends me action := by
  have hquiet : ∀ {messages}, messages = server.registry.inbox mailbox →
      messages ⊆ server.registry.inbox mailbox ++ server.sends me action := by
    rintro _ rfl
    exact List.subset_append_left _ _
  cases outcome with
  | connects now other identity capacity =>
    have hopens := Registry.opens_connect hseparate.labeled now other identity capacity
    exact hquiet (hopens.inbox_eq h.issued)
  | disconnects now other cause =>
    exact hquiet (Registry.inbox_of_losesHandles (Registry.losesHandles_disconnect _ _ _ _) mailbox)
  | drains other =>
    refine List.append_subset.mpr ⟨?_, ?_⟩
    · rw [reads]
      split
      · exact hquiet rfl
      · exact List.nil_subset _
    · exact List.Subset.trans (server.registry.inbox_drain_subset other mailbox) (hquiet rfl)
  | hangsUp other =>
    exact List.Subset.trans (server.registry.inbox_hangUp_subset other mailbox) (hquiet rfl)
  | endsSnapshot snapshot =>
    exact hquiet (Registry.inbox_of_losesHandles (Registry.losesHandles_endSnapshot _ _) mailbox)
  | endsSession identity =>
    exact hquiet (Registry.inbox_of_losesHandles (Registry.losesHandles_endSession _ _) mailbox)
  | expires order now grace =>
    exact hquiet (Registry.inbox_of_losesHandles (Registry.losesHandles_expireIn _ _ _ _) mailbox)
  | orders identity zone scene => exact h.inbox_send identity _
  | @delivers effect rest effects =>
    simp only [reads, sends, carries, effects]
    exact carryOut_inbox_subset h effect
  | _ => exact hquiet rfl

end Server

end SharedWorld
