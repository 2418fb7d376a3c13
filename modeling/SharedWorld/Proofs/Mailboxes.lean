import SharedWorld.Proofs.Debts
import SharedWorld.Proofs.Views

/-!
# The mailboxes of participants

A message for a participant is put into the mailbox of the connection that its session is bound to,
if there is one. Sessions never share a mailbox (`Registry.SeparateMailboxes`), so while a session
stays bound to a connection, its mailbox takes up exactly what is sent to its participant
(`Server.ActOutcome.inbox_eq`).
-/

namespace SharedWorld

namespace Registry

variable {registry before after : Registry} {me identity other : Identity}
  {connection : ConnectionId} {mailbox : Nat}

/-- The connection that a participant is reached on, with its mailbox. -/
def handle? (registry : Registry) (identity : Identity) : Option ConnectionHandle :=
  (registry.sessions.get? identity).bind Session.handle?

/-- Every session is kept under the identity of its participant. -/
def Labeled (registry : Registry) : Prop :=
  ∀ ⦃identity session⦄, registry.sessions.get? identity = some session →
    session.identity = identity

/-- No two participants are reached on the same mailbox. -/
structure SeparateMailboxes (registry : Registry) : Prop where
  labeled : registry.Labeled
  issued : ∀ {identity handle}, registry.handle? identity = some handle →
    handle.mailbox < registry.mailboxes.length
  distinct : ∀ {identity other handle handle'}, registry.handle? identity = some handle →
    registry.handle? other = some handle' → handle.mailbox = handle'.mailbox → identity = other

/-- Nobody is reached anywhere in an empty registry. -/
theorem separateMailboxes_empty : Registry.empty.SeparateMailboxes := by
  have hnone : ∀ identity, Registry.empty.sessions.get? identity = none := fun _ => rfl
  have hreached : ∀ identity, Registry.empty.handle? identity = none := fun _ => rfl
  constructor
  case labeled =>
    intro identity session hsession
    rw [hnone] at hsession
    cases hsession
  case issued =>
    intro identity handle hhandle
    rw [hreached] at hhandle
    cases hhandle
  case distinct =>
    intro identity other handle handle' hhandle
    rw [hreached] at hhandle
    cases hhandle

/-- Some participants may have lost the mailboxes they were reached on. The others are reached where
they were. -/
structure LosesHandles (before after : Registry) : Prop where
  handle : ∀ identity,
    after.handle? identity = before.handle? identity ∨ after.handle? identity = none
  labeled : before.Labeled → after.Labeled
  mailboxes : after.mailboxes = before.mailboxes

/-- Doing nothing costs nobody a mailbox. -/
theorem LosesHandles.refl (registry : Registry) : registry.LosesHandles registry :=
    ⟨fun _ => .inl rfl, id, rfl⟩

/-- Mailboxes are lost step by step. -/
theorem LosesHandles.trans {middle : Registry} (first : before.LosesHandles middle)
    (rest : middle.LosesHandles after) : before.LosesHandles after where
  handle identity := by
    rcases rest.handle identity with hrest | hrest
    · rw [hrest]
      exact first.handle identity
    · exact .inr hrest
  labeled h := rest.labeled (first.labeled h)
  mailboxes := rest.mailboxes.trans first.mailboxes

/-- Nobody loses a mailbox while the sessions stay the same. -/
theorem losesHandles_of_same (hsessions : after.sessions = before.sessions)
    (hmailboxes : after.mailboxes = before.mailboxes) : before.LosesHandles after :=
  ⟨fun _ => .inl (by rw [handle?, handle?, hsessions]), fun h => by rwa [Labeled, hsessions],
    hmailboxes⟩

/-- Whoever is reached still was reached there before. -/
theorem LosesHandles.handle_of_some (loses : before.LosesHandles after) {handle : ConnectionHandle}
    (h : after.handle? identity = some handle) : before.handle? identity = some handle := by
  rcases loses.handle identity with hsame | hnone
  · rw [← hsame, h]
  · rw [hnone] at h
    cases h

/-- Mailboxes stay separate when some are lost. -/
theorem SeparateMailboxes.of_losesHandles (h : before.SeparateMailboxes)
    (loses : before.LosesHandles after) : after.SeparateMailboxes := by
  constructor
  case labeled => exact loses.labeled h.labeled
  case issued =>
    intro identity handle hhandle
    rw [loses.mailboxes]
    exact h.issued (loses.handle_of_some hhandle)
  case distinct =>
    intro identity other handle handle' hhandle hother hmailbox
    exact h.distinct (loses.handle_of_some hhandle) (loses.handle_of_some hother) hmailbox

/-! ## Changes of sessions -/

/-- Putting a session says where its participant is reached, and nothing of the others. -/
theorem handle?_put (registry : Registry) (session : Session) (identity : Identity) :
    (registry.put session).handle? identity =
      if identity = session.identity then session.handle? else registry.handle? identity := by
  rw [handle?, put, Table.get?_insert]
  split
  · rfl
  · rfl

/-- Sessions stay under their own identities when one is put. -/
theorem labeled_put (h : registry.Labeled) (session : Session) :
    (registry.put session).Labeled := by
  intro identity found hfound
  change (registry.sessions.insert _ _).get? identity = some found at hfound
  rw [Table.get?_insert] at hfound
  split at hfound
  · cases hfound
    exact Eq.symm ‹_›
  · exact h hfound

/-- Losing a connection costs no more than the mailbox of its session. -/
theorem losesHandles_lose (registry : Registry) (now : Instant) (session : Session)
    (cause : Option String) : registry.LosesHandles (registry.lose now session cause) where
  handle identity := by
    have hput := registry.handle?_put (session.unmap now) identity
    rw [lose]
    change (registry.put _).handle? identity = _ ∨ (registry.put _).handle? identity = none
    rw [hput]
    split
    · exact .inr rfl
    · exact .inl rfl
  labeled h := labeled_put h _
  mailboxes := rfl

/-- Ending a session costs no more than its own mailbox. -/
theorem losesHandles_finish (registry : Registry) (session : Session) :
    registry.LosesHandles (registry.finish session) where
  handle identity := by
    change ((registry.sessions.erase session.identity).get? identity).bind _ = _ ∨
      ((registry.sessions.erase session.identity).get? identity).bind _ = none
    rw [Table.get?_erase]
    split
    · exact .inr rfl
    · exact .inl rfl
  labeled h identity found hfound := by
    change (registry.sessions.erase session.identity).get? identity = some found at hfound
    rw [Table.get?_erase] at hfound
    split at hfound
    · cases hfound
    · exact h hfound
  mailboxes := rfl

/-- Freeing a connection costs no more than mailboxes. -/
theorem losesHandles_vacate (registry : Registry) (now : Instant) (connection : ConnectionId)
    (identity : Identity) : registry.LosesHandles (registry.vacate now connection identity) := by
  unfold vacate
  cases registry.connections.get? connection with
  | none => exact .refl registry
  | some previous =>
    have hfreed : registry.LosesHandles
        { registry with connections := registry.connections.erase connection } :=
      losesHandles_of_same rfl rfl
    dsimp only
    split
    · exact hfreed
    · split
      · split
        · exact hfreed.trans (losesHandles_lose _ _ _ _)
        · exact hfreed
      · exact hfreed

/-- Disconnecting costs no more than mailboxes. -/
theorem losesHandles_disconnect (registry : Registry) (now : Instant) (connection : ConnectionId)
    (cause : Option String) : registry.LosesHandles (registry.disconnect now connection cause) := by
  unfold disconnect
  split
  · exact .refl registry
  · have hfreed : registry.LosesHandles
        { registry with connections := registry.connections.erase connection } :=
      losesHandles_of_same rfl rfl
    dsimp only
    split
    · exact hfreed
    · split
      · exact hfreed.trans (losesHandles_lose _ _ _ _)
      · exact hfreed

/-- Ending a session by its snapshot costs no more than mailboxes. -/
theorem losesHandles_endSnapshot (registry : Registry) (snapshot : Session) :
    registry.LosesHandles (registry.endSnapshot snapshot) := by
  unfold endSnapshot
  split
  · exact .refl registry
  · split
    · exact .refl registry
    · split
      · exact .refl registry
      · exact registry.losesHandles_finish _

/-- Ending a session costs no more than mailboxes. -/
theorem losesHandles_endSession (registry : Registry) (identity : Identity) :
    registry.LosesHandles (registry.endSession identity).2 := by
  unfold endSession
  split
  · exact .refl registry
  · exact registry.losesHandles_endSnapshot _

/-- Expiring sessions costs no more than mailboxes. -/
theorem losesHandles_expireIn (registry : Registry) (order : List Identity) (now : Instant)
    (grace : Duration) : registry.LosesHandles (registry.expireIn order now grace).2 := by
  unfold expireIn
  dsimp only
  generalize registry.expired order now grace = expired
  induction expired generalizing registry with
  | nil => exact .refl registry
  | cons session rest ih => exact (registry.losesHandles_finish session).trans (ih _)

/-- A participant is reached on a new mailbox. The others may have lost theirs. -/
structure Opens (before : Registry) (connection : ConnectionId) (identity : Identity)
    (capacity : Option Nat) (after : Registry) : Prop where
  handle : after.handle? identity = some ⟨connection, before.mailboxes.length⟩
  others : ∀ {other}, other ≠ identity →
    after.handle? other = before.handle? other ∨ after.handle? other = none
  labeled : after.Labeled
  mailboxes : after.mailboxes =
    before.mailboxes ++ [{ connection := connection, capacity := capacity }]

/-- A session that is resumed or started is bound to the new connection. -/
theorem exists_bind (h : registry.Labeled) (identity : Identity) (handle : ConnectionHandle) :
    ∃ session : Session, session.identity = identity ∧ session.handle? = some handle ∧
      (registry.bind identity handle).2.sessions = registry.sessions.insert identity session ∧
      (registry.bind identity handle).2.mailboxes = registry.mailboxes := by
  unfold bind
  cases hsession : registry.sessions.get? identity with
  | some session =>
    obtain rfl := h hsession
    exact ⟨(session.resume handle).2, rfl, rfl, rfl, rfl⟩
  | none =>
    exact ⟨.start registry.keys.peek identity handle, rfl, rfl, rfl, rfl⟩

/-- Connecting opens a new mailbox for the participant. -/
theorem opens_connect (h : registry.Labeled) (now : Instant) (connection : ConnectionId)
    (identity : Identity) (capacity : Option Nat) :
    registry.Opens connection identity capacity
      (registry.connect now connection identity capacity).2 := by
  have hadded : registry.Labeled → Labeled { registry with
      mailboxes := registry.mailboxes ++
        [{ connection := connection, capacity := capacity }] } := id
  have hloses := losesHandles_vacate { registry with
    mailboxes := registry.mailboxes ++ [{ connection := connection, capacity := capacity }] }
    now connection identity
  obtain ⟨session, hidentity, hhandle, hsessions, hmailboxes⟩ :=
    exists_bind (hloses.labeled (hadded h)) identity ⟨connection, registry.mailboxes.length⟩
  have hget : ∀ other, (registry.connect now connection identity capacity).2.sessions.get? other =
      if other = identity then some session else (vacate { registry with
        mailboxes := registry.mailboxes ++ [{ connection := connection, capacity := capacity }] }
          now connection identity).sessions.get? other := by
    intro other
    refine (congrArg (Table.get? · other) hsessions).trans ?_
    exact Table.get?_insert _ _ _ _
  constructor
  case handle =>
    rw [handle?, hget, if_pos rfl]
    exact hhandle
  case others =>
    intro other hother
    rw [handle?, hget, if_neg hother]
    exact hloses.handle other
  case labeled =>
    intro other found hfound
    rw [hget] at hfound
    split at hfound
    · cases hfound
      exact hidentity.trans (Eq.symm ‹_›)
    · exact hloses.labeled (hadded h) hfound
  case mailboxes => exact hmailboxes.trans hloses.mailboxes

/-- Whoever is reached is reached on the new mailbox, or was reached there before. -/
theorem Opens.handle_of_some {capacity : Option Nat}
    (opens : before.Opens connection me capacity after) {handle : ConnectionHandle}
    (h : after.handle? identity = some handle) :
    identity = me ∧ handle.mailbox = before.mailboxes.length ∨
      identity ≠ me ∧ before.handle? identity = some handle := by
  by_cases hidentity : identity = me
  · rw [hidentity, opens.handle] at h
    cases h
    exact .inl ⟨hidentity, rfl⟩
  · rcases opens.others hidentity with hsame | hnone
    · exact .inr ⟨hidentity, hsame.symm.trans h⟩
    · rw [hnone] at h
      cases h

/-- Mailboxes stay separate when a new one is opened. -/
theorem SeparateMailboxes.of_opens {capacity : Option Nat} (h : before.SeparateMailboxes)
    (opens : before.Opens connection me capacity after) : after.SeparateMailboxes := by
  have hlength : after.mailboxes.length = before.mailboxes.length + 1 := by
    rw [opens.mailboxes, List.length_append, List.length_singleton]
  constructor
  case labeled => exact opens.labeled
  case issued =>
    intro identity handle hhandle
    rcases opens.handle_of_some hhandle with ⟨-, hmailbox⟩ | ⟨-, hbefore⟩
    · omega
    · have := h.issued hbefore
      omega
  case distinct =>
    intro identity other handle handle' hhandle hother hmailbox
    rcases opens.handle_of_some hhandle with ⟨hfirst, hnew⟩ | ⟨-, hbefore⟩
    · rcases opens.handle_of_some hother with ⟨hsecond, -⟩ | ⟨-, hbefore'⟩
      · rw [hfirst, hsecond]
      · have := h.issued hbefore'
        omega
    · rcases opens.handle_of_some hother with ⟨-, hnew⟩ | ⟨-, hbefore'⟩
      · have := h.issued hbefore
        omega
      · exact h.distinct hbefore hbefore' hmailbox

/-! ## Mailboxes -/

/-- The messages in the mailbox with the given number. -/
def inbox (registry : Registry) (mailbox : Nat) : List ServerMessage :=
  (registry.mailboxes[mailbox]?.map (·.messages)).getD []

/-- The session of the participant is bound to the connection, whose mailbox is open and takes any
number of messages. -/
def Binds (registry : Registry) (me : Identity) (connection : ConnectionId) (mailbox : Nat) :
    Prop :=
  registry.handle? me = some ⟨connection, mailbox⟩ ∧
    registry.mailboxes[mailbox]?.map (fun box => (box.connection, box.isOpen, box.capacity)) =
      some (connection, true, none)

instance (registry : Registry) (me : Identity) (connection : ConnectionId) (mailbox : Nat) :
    Decidable (registry.Binds me connection mailbox) := instDecidableAnd

/-- The mailbox that a participant is bound to is open, without a limit. -/
theorem Binds.exists_box (h : registry.Binds me connection mailbox) :
    ∃ box, registry.mailboxes[mailbox]? = some box ∧ box.connection = connection ∧
      box.isOpen = true ∧ box.capacity = none := by
  obtain ⟨box, hbox, hreached⟩ := Option.map_eq_some_iff.mp h.2
  simp only [Prod.mk.injEq] at hreached
  exact ⟨box, hbox, hreached⟩

/-- Mailboxes stay separate while the sessions stay the same. -/
theorem SeparateMailboxes.of_same (h : before.SeparateMailboxes)
    (hsessions : after.sessions = before.sessions)
    (hlength : after.mailboxes.length = before.mailboxes.length) : after.SeparateMailboxes := by
  have hreached : ∀ identity, after.handle? identity = before.handle? identity :=
    fun _ => by rw [handle?, handle?, hsessions]
  constructor
  case labeled =>
    intro identity session hsession
    rw [hsessions] at hsession
    exact h.labeled hsession
  case issued =>
    intro identity handle hhandle
    rw [hreached] at hhandle
    rw [hlength]
    exact h.issued hhandle
  case distinct =>
    intro identity other handle handle' hhandle hother
    rw [hreached] at hhandle hother
    exact h.distinct hhandle hother

/-- A message is put into the mailbox that its participant is reached on. -/
theorem send_eq (registry : Registry) (identity : Identity) (message : ServerMessage) :
    (registry.send identity message).2 = match registry.handle? identity with
      | some handle => (registry.post handle.mailbox message).2
      | none => registry := by
  unfold send handle?
  cases registry.sessions.get? identity with
  | none => rfl
  | some session =>
    dsimp only [Option.bind_some]
    cases session.handle? with
    | none => rfl
    | some handle =>
      cases hpost : registry.post handle.mailbox message with
      | mk posted registry' => cases posted with
        | true => simp only [hpost]
        | false => simp only [hpost]

/-- Mailboxes stay separate when a message is put into one. -/
theorem SeparateMailboxes.post (h : registry.SeparateMailboxes) (number : Nat)
    (message : ServerMessage) : (registry.post number message).2.SeparateMailboxes := by
  unfold Registry.post
  split
  · exact h
  · split
    · exact h.of_same rfl (List.length_set)
    · exact h

/-- Mailboxes stay separate when a message is sent. -/
theorem SeparateMailboxes.send (h : registry.SeparateMailboxes) (identity : Identity)
    (message : ServerMessage) : (registry.send identity message).2.SeparateMailboxes := by
  rw [send_eq]
  split
  · exact h.post _ message
  · exact h

/-- A mailbox that is not written to keeps its messages. -/
theorem inbox_post_of_ne (registry : Registry) {number : Nat} (hne : number ≠ mailbox)
    (message : ServerMessage) :
    (registry.post number message).2.inbox mailbox = registry.inbox mailbox := by
  unfold Registry.post
  split
  · rfl
  · split
    · rw [inbox, inbox, List.getElem?_set_ne hne]
    · rfl

/-- A mailbox that is open and takes any number of messages takes up what is put into it. -/
theorem Binds.inbox_post (h : registry.Binds me connection mailbox) (message : ServerMessage) :
    (registry.post mailbox message).2.inbox mailbox = registry.inbox mailbox ++ [message] := by
  obtain ⟨box, hbox, -, hopen, hcapacity⟩ := h.exists_box
  have haccepts : box.accepts = true := by
    rw [Mailbox.accepts, hopen, hcapacity]
    rfl
  have hlength : mailbox < registry.mailboxes.length := (List.getElem?_eq_some_iff.mp hbox).1
  simp only [post, hbox, haccepts, if_true, inbox, List.getElem?_set_self hlength, Option.map_some,
    Option.getD_some]

/-- The mailbox of a participant takes up what is sent to the participant, and nothing else. -/
theorem Binds.inbox_send (h : registry.Binds me connection mailbox)
    (hseparate : registry.SeparateMailboxes) (identity : Identity) (message : ServerMessage) :
    (registry.send identity message).2.inbox mailbox =
      registry.inbox mailbox ++ if identity = me then [message] else [] := by
  rw [send_eq]
  by_cases hidentity : identity = me
  · rw [hidentity, h.1, if_pos rfl]
    exact h.inbox_post message
  · rw [if_neg hidentity, List.append_nil]
    cases hreached : registry.handle? identity with
    | none => rfl
    | some handle =>
      apply inbox_post_of_ne
      intro hmailbox
      exact hidentity (hseparate.distinct hreached h.1 hmailbox)

/-- What is in a mailbox stays there when some participants are not reached any more. -/
theorem inbox_of_losesHandles (loses : before.LosesHandles after) (mailbox : Nat) :
    after.inbox mailbox = before.inbox mailbox := by
  rw [inbox, inbox, loses.mailboxes]

/-- What is in a mailbox stays there when another one is opened. -/
theorem Opens.inbox_eq {capacity : Option Nat}
    (opens : before.Opens connection identity capacity after)
    (hmailbox : mailbox < before.mailboxes.length) :
    after.inbox mailbox = before.inbox mailbox := by
  rw [inbox, inbox, opens.mailboxes, List.getElem?_append_left hmailbox]

/-- A mailbox is emptied when its connection is drained. -/
theorem Binds.inbox_drain (h : registry.Binds me connection mailbox) (other : ConnectionId) :
    (registry.drain other).2.inbox mailbox =
      if other = connection then [] else registry.inbox mailbox := by
  obtain ⟨box, hbox, hconnection, -⟩ := h.exists_box
  simp only [drain, inbox, List.getElem?_map, hbox, Option.map_some, Option.getD_some, hconnection]
  by_cases hother : other = connection
  · rw [if_pos hother, if_pos hother.symm]
  · rw [if_neg hother, if_neg fun heq => hother heq.symm]

/-- A connection that is bound was not hung up. -/
theorem Binds.inbox_hangUp (h : registry.Binds me connection mailbox) {other : ConnectionId}
    (hafter : (registry.hangUp other).2.Binds me connection mailbox) :
    (registry.hangUp other).2.inbox mailbox = registry.inbox mailbox := by
  obtain ⟨box, hbox, hconnection, -⟩ := h.exists_box
  obtain ⟨box', hbox', -, hopen, -⟩ := hafter.exists_box
  have hother : connection ≠ other := by
    intro heq
    simp only [hangUp, List.getElem?_map, hbox, Option.map_some, hconnection, heq, if_true,
      Option.some.injEq] at hbox'
    rw [← hbox'] at hopen
    cases hopen
  simp only [hangUp, inbox, List.getElem?_map, hbox, Option.map_some, hconnection, if_neg hother]

end Registry

/-! ## Actions -/

namespace Server

variable {server after : Server} {me : Identity} {connection : ConnectionId} {mailbox : Nat}

/-- Mailboxes stay separate when an effect is carried out. -/
theorem carryOut_separateMailboxes (h : server.registry.SeparateMailboxes) (effect : Effect) :
    (server.carryOut effect).registry.SeparateMailboxes := by
  simp only [carryOut]
  split
  · exact h.send _ _
  · exact h

/-- No action makes two participants share a mailbox. -/
theorem ActOutcome.separateMailboxes {action : Action} (outcome : ActOutcome server action after)
    (h : server.registry.SeparateMailboxes) : after.registry.SeparateMailboxes := by
  cases outcome with
  | connects now connection identity capacity =>
    exact h.of_opens (Registry.opens_connect h.labeled now connection identity capacity)
  | disconnects now connection cause =>
    exact h.of_losesHandles (Registry.losesHandles_disconnect _ _ _ _)
  | drains connection => exact h.of_same rfl (List.length_map _)
  | hangsUp connection => exact h.of_same rfl (List.length_map _)
  | endsSnapshot snapshot => exact h.of_losesHandles (Registry.losesHandles_endSnapshot _ _)
  | endsSession identity => exact h.of_losesHandles (Registry.losesHandles_endSession _ _)
  | expires order now grace => exact h.of_losesHandles (Registry.losesHandles_expireIn _ _ _ _)
  | orders identity zone scene => exact h.send identity _
  | follows events => exact h.of_same rfl rfl
  | delivers effects => exact carryOut_separateMailboxes h _
  | _ => exact h

/-- The messages that an action reads from the mailbox of a connection. -/
def reads (server : Server) (connection : ConnectionId) (mailbox : Nat) :
    Action → List ServerMessage
  | .drain other => if other = connection then server.registry.inbox mailbox else []
  | _ => []

/-- The messages that an action sends to a participant. -/
def sends (server : Server) (me : Identity) : Action → List ServerMessage
  | .order identity zone scene => if identity = me then [.forcedMove zone scene] else []
  | action => Effect.heardBy me (server.carries action)

/-- An effect that is carried out is heard by the participant. -/
theorem carryOut_inbox (hseparate : server.registry.SeparateMailboxes)
    (hbinds : server.registry.Binds me connection mailbox) (effect : Effect) :
    (server.carryOut effect).registry.inbox mailbox =
      server.registry.inbox mailbox ++ Effect.heardBy me [effect] := by
  simp only [carryOut, Effect.heardBy, List.filterMap_cons, List.filterMap_nil]
  cases effect.delivery? with
  | none => exact (List.append_nil _).symm
  | some delivery =>
    obtain ⟨recipient, message⟩ := delivery
    dsimp only [Option.bind_some]
    rw [hbinds.inbox_send hseparate recipient message]
    by_cases hme : recipient = me
    · simp only [if_pos hme]
    · simp only [if_neg hme]

/-- While a session stays bound to a connection, the mailbox of the connection takes up exactly what
is sent to its participant, and loses exactly what is read from it. -/
theorem ActOutcome.inbox_eq {action : Action} (outcome : ActOutcome server action after)
    (hseparate : server.registry.SeparateMailboxes)
    (hbefore : server.registry.Binds me connection mailbox)
    (hafter : after.registry.Binds me connection mailbox) :
    server.reads connection mailbox action ++ after.registry.inbox mailbox =
      server.registry.inbox mailbox ++ server.sends me action := by
  have hquiet : ∀ {messages}, messages = server.registry.inbox mailbox →
      messages = server.registry.inbox mailbox ++ [] := fun h => h.trans (List.append_nil _).symm
  cases outcome with
  | connects now other identity capacity =>
    have hopens := Registry.opens_connect hseparate.labeled now other identity capacity
    exact hquiet (hopens.inbox_eq (hseparate.issued hbefore.1))
  | disconnects now other cause =>
    exact hquiet (Registry.inbox_of_losesHandles (Registry.losesHandles_disconnect _ _ _ _) mailbox)
  | drains other =>
    have hdrain := hbefore.inbox_drain other
    simp only [reads, sends, carries]
    rw [hdrain]
    split
    · rfl
    · exact hquiet rfl
  | hangsUp other => exact hquiet (hbefore.inbox_hangUp hafter)
  | endsSnapshot snapshot =>
    exact hquiet (Registry.inbox_of_losesHandles (Registry.losesHandles_endSnapshot _ _) mailbox)
  | endsSession identity =>
    exact hquiet (Registry.inbox_of_losesHandles (Registry.losesHandles_endSession _ _) mailbox)
  | expires order now grace =>
    exact hquiet (Registry.inbox_of_losesHandles (Registry.losesHandles_expireIn _ _ _ _) mailbox)
  | orders identity zone scene => exact hbefore.inbox_send hseparate identity _
  | @delivers effect rest effects =>
    simp only [reads, sends, carries, effects]
    exact carryOut_inbox hseparate hbefore effect
  | deliversNothing effects =>
    simp only [reads, sends, carries, effects]
    exact hquiet rfl
  | _ => exact hquiet rfl

end Server

end SharedWorld
