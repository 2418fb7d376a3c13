import Mathlib.Data.List.Induction
import SharedWorld.Proofs.Consistency
import SharedWorld.Proofs.SessionEvents

/-!
# Bodies follow sessions

The bodies of a server learn of its sessions by their events, which they follow one by one, while
the registry moves on. Each event is legal when it comes, so the bodies show the sessions as they
were told of so far (`Server.CatchesUp`), and when no event is left they show them as they are.
Nothing else that a server does makes a body, removes one or marks it. Bodies are numbered as the
sessions are for which they were made, so the body of a session keeps its entity for good, and no
other session ever has one of the same entity (`Server.bodies_follow`).
-/

namespace SharedWorld

namespace World

variable {world before middle after : World} {identity : Identity} {entity : EntityId}

/-! ## What marks no body -/

/-- The worlds have bodies of the same names, which are marked the same. -/
structure SameMarks (before after : World) : Prop extends before.SameNames after where
  marks : ∀ entity, (after.bodies.get? entity).map Body.status =
    (before.bodies.get? entity).map Body.status

/-- Bodies that are the same are marked the same. -/
theorem SameBodies.sameMarks (h : before.SameBodies after) : before.SameMarks after :=
  ⟨h.sameNames, fun entity => by rw [h.bodies]⟩

/-- Marks stay the same step by step. -/
theorem SameMarks.trans (first : before.SameMarks middle) (rest : middle.SameMarks after) :
    before.SameMarks after :=
  ⟨first.toSameNames.trans rest.toSameNames, fun entity =>
    (rest.marks entity).trans (first.marks entity)⟩

/-- A body that is moved is marked the same. -/
theorem Labeled.sameMarks_replace (h : world.Labeled) {body : Body}
    (hbody : world.bodies.get? entity = some body) (location : BodyLocation) :
    world.SameMarks (world.replace (body.movedTo location)) := by
  refine ⟨h.sameNames_replace hbody (body.movedTo location) rfl rfl, fun other => ?_⟩
  rw [replace, Table.get?_insert, Body.movedTo, h hbody]
  by_cases heq : other = entity
  · rw [if_pos heq, heq, hbody]
    rfl
  · rw [if_neg heq]

/-- Leaving a place changes nobody's mark. -/
theorem LeaveOutcome.sameMarks {change : Option BodyChange}
    (outcome : LeaveOutcome world entity change after) (h : world.Labeled) :
    world.SameMarks after := by
  cases outcome with
  | outside => exact SameBodies.sameMarks ⟨rfl, rfl, rfl⟩
  | @leaves body zone scene place location found inside =>
    have hmoved := (h.sameMarks_replace found (.vacated zone scene)).trans
      (sameBodies_vacate _ (body.changeTo (.vacated zone scene))).sameMarks
    exact ⟨⟨hmoved.names, hmoved.entities, hmoved.entityIds⟩, hmoved.marks⟩

/-- Entering a place changes nobody's mark. -/
theorem CommitOutcome.sameMarks {zone : ZoneId} {place : PlaceId} {location : LocationId}
    {result : Except CommitError BodyChange}
    (outcome : CommitOutcome world entity zone place location result after)
    (h : world.Labeled) : world.SameMarks after := by
  cases outcome with
  | bodyless => exact (sameBodies_dropIfEmpty world place).sameMarks
  | placeless => exact SameBodies.sameMarks ⟨rfl, rfl, rfl⟩
  | full => exact (sameBodies_dropIfEmpty world place).sameMarks
  | @shifts body host found hosted here =>
    rw [broadcast_eq]
    have hmoved := h.sameMarks_replace found (.inside zone host.scene place location)
    exact ⟨⟨hmoved.names, hmoved.entities, hmoved.entityIds⟩, hmoved.marks⟩
  | @enters body host found hosted elsewhere room =>
    rw [broadcast_eq]
    have hmoved := (h.sameMarks_replace found (.inside zone host.scene place location)).trans
      (sameBodies_vacate _ (body.changeTo (.inside zone host.scene place location))).sameMarks
    exact ⟨⟨hmoved.names, hmoved.entities, hmoved.entityIds⟩, hmoved.marks⟩

/-- A move that goes into the place of a scene marks no body. -/
theorem sameMarks_entry {request : MoveRequest} {zone : ZoneSummary} {model : SceneModel}
    {answer : Answer} (outcome : request.EntryOutcome world zone model answer after)
    (h : world.Labeled) : world.SameMarks after := by
  have hmade := (sameBodies_placeFor world model).sameMarks
  have hlabeled := h.of_sameNames hmade.toSameNames
  cases outcome with
  | unlisted => exact SameBodies.sameMarks ⟨rfl, rfl, rfl⟩
  | refused commit => exact hmade.trans (commit.sameMarks hlabeled)
  | entered commit => exact hmade.trans (commit.sameMarks hlabeled)

/-- Where bodies are kept under their own entities, the simulation marks none of them. -/
theorem sameMarks_upkeep :
    Upkeep fun _ _ before after => before.Labeled → before.SameMarks after where
  trans first rest h := (first h).trans (rest (h.of_sameNames (first h).toSameNames))
  perm world _ _ := SameBodies.sameMarks ⟨rfl, rfl, rfl⟩
  effects world effects _ := SameBodies.sameMarks ⟨rfl, rfl, rfl⟩
  leavePlace world entity h := (leavePlace_outcome world entity).sameMarks h
  enters _ _ _ outcome h := sameMarks_entry outcome h
  finish flight realm answer _ := by
    rw [MoveRequest.finish, foldl_release]
    exact SameBodies.sameMarks ⟨rfl, rfl, rfl⟩
  takesZone request realm _ := SameBodies.sameMarks ⟨rfl, rfl, rfl⟩
  takesScene realm _ _ _ := SameBodies.sameMarks ⟨rfl, rfl, rfl⟩

/-! ## The body of a participant -/

/-- The entity of a participant's body, and how it is marked. -/
def standing? (world : World) (identity : Identity) : Option (EntityId × OccupantStatus) :=
  (world.bodyFor? identity).map fun body => (body.entity, body.status)

/-- Where bodies are marked the same, everyone stands as before. -/
theorem SameMarks.standing?_eq (h : before.SameMarks after) (identity : Identity) :
    after.standing? identity = before.standing? identity := by
  unfold standing? bodyFor? entityFor? body?
  rw [h.entities]
  cases before.entities.get? identity with
  | none => rfl
  | some entity =>
    have hnames := h.names entity
    have hmarks := h.marks entity
    simp only [Option.bind_some]
    cases hbefore : before.bodies.get? entity with
    | none =>
      rw [hbefore, Option.map_none, Option.map_eq_none_iff] at hmarks
      rw [hmarks]
    | some body =>
      rw [hbefore, Option.map_some, Option.map_eq_some_iff] at hnames hmarks
      obtain ⟨named, hnamed, hname⟩ := hnames
      obtain ⟨marked, hmarked, hmark⟩ := hmarks
      cases hnamed.symm.trans hmarked
      rw [hnamed]
      simp only [Option.map_some, hmark, (Prod.mk.inj hname).1]

/-- A registered participant has a body. -/
theorem Registers.standing?_eq_none_iff (h : world.Registers) :
    world.standing? identity = none ↔ world.entities.get? identity = none := by
  unfold standing? bodyFor? entityFor? body?
  cases hentity : world.entities.get? identity with
  | none => simp
  | some entity =>
    obtain ⟨body, hbody, -⟩ := h.entity_iff.mp hentity
    simp [hbody]

/-- Participants have different bodies. -/
theorem Registers.entity_inj (h : world.Registers) {other : Identity}
    (hentity : world.entities.get? identity = some entity)
    (hother : world.entities.get? other = some entity) : identity = other := by
  obtain ⟨body, hbody, hidentity⟩ := h.entity_iff.mp hentity
  obtain ⟨body', hbody', hother⟩ := h.entity_iff.mp hother
  cases hbody.symm.trans hbody'
  exact hidentity.symm.trans hother

/-- A participant stands as the body of its entity does. -/
theorem standing?_of_entity (hentity : world.entities.get? identity = some entity) :
    world.standing? identity =
      (world.bodies.get? entity).map fun body => (body.entity, body.status) := by
  rw [standing?, bodyFor?, entityFor?, hentity]
  rfl

/-- A participant without an entity has no body to stand for it. -/
theorem standing?_of_unknown (hunknown : world.entities.get? identity = none) :
    world.standing? identity = none := by
  rw [standing?, bodyFor?, entityFor?, hunknown]
  rfl

/-- A participant that gets a body is active. -/
theorem Registers.standing?_createBody (h : world.Registers)
    (hfresh : (world.createBody identity).2.entityIds.issued < 2 ^ 64)
    (hnone : world.standing? identity = none) (other : Identity) :
    (world.createBody identity).2.standing? other =
      if other = identity then some (world.entityIds.peek, .active) else world.standing? other := by
  rw [h.standing?_eq_none_iff] at hnone
  rw [createBody_of_none hnone] at hfresh ⊢
  have hpeek := h.get?_peek hfresh
  by_cases heq : other = identity
  · rw [if_pos heq]
    subst heq
    refine (standing?_of_entity (Table.get?_insert_self _ _ _)).trans ?_
    rw [Table.get?_insert_self]
    rfl
  · rw [if_neg heq]
    have hget : (world.entities.insert identity world.entityIds.peek).get? other =
        world.entities.get? other := by rw [Table.get?_insert, if_neg heq]
    cases hother : world.entities.get? other with
    | none =>
      rw [standing?_of_unknown hother]
      exact standing?_of_unknown (hget.trans hother)
    | some entity =>
      rw [standing?_of_entity hother]
      refine (standing?_of_entity (hget.trans hother)).trans ?_
      rw [Table.get?_insert, if_neg]
      rintro rfl
      obtain ⟨body, hbody, -⟩ := h.entity_iff.mp hother
      cases hpeek.symm.trans hbody

/-- A participant that has a body keeps it. -/
theorem createBody_of_standing? {mark : EntityId × OccupantStatus}
    (h : world.standing? identity = some mark) : (world.createBody identity).2 = world := by
  cases hentity : world.entities.get? identity with
  | none =>
    rw [standing?_of_unknown hentity] at h
    cases h
  | some entity => exact createBody_of_some hentity

/-- A participant without a body is not marked. -/
theorem setStatus_of_none (status : OccupantStatus) (hnone : world.bodyFor? identity = none) :
    world.setStatus identity status = world := by
  rw [setStatus, hnone]

/-- A body that is marked anew is replaced. -/
theorem sameBodies_setStatus {body : Body} {status : OccupantStatus}
    (hbody : world.bodyFor? identity = some body) (hstatus : body.status ≠ status) :
    (world.replace (body.withStatus status)).SameBodies (world.setStatus identity status) := by
  rw [setStatus, hbody]
  dsimp only
  rw [if_neg hstatus]
  split
  · exact ⟨rfl, rfl, rfl⟩
  · rw [broadcast_eq]
    exact ⟨rfl, rfl, rfl⟩

/-- The body of a participant is the one that is kept under its entity. -/
theorem Registers.bodyFor?_iff_get? (h : world.Registers) {body : Body} :
    world.bodyFor? identity = some body ↔
      world.entities.get? identity = some body.entity ∧
        world.bodies.get? body.entity = some body := by
  rw [bodyFor?, Option.bind_eq_some_iff]
  constructor
  · rintro ⟨entity, hentity, hbody⟩
    obtain rfl : body.entity = entity := h.labeled hbody
    exact ⟨hentity, hbody⟩
  · rintro ⟨hentity, hbody⟩
    exact ⟨body.entity, hentity, hbody⟩

/-- Marking the body of a participant leaves those of the others. -/
theorem Registers.standing?_setStatus (h : world.Registers) (identity : Identity)
    (status : OccupantStatus) (other : Identity) :
    (world.setStatus identity status).standing? other =
      if other = identity then (world.standing? identity).map fun mark => (mark.1, status)
      else world.standing? other := by
  cases hbody : world.bodyFor? identity with
  | none =>
    rw [setStatus_of_none status hbody]
    by_cases heq : other = identity
    · rw [if_pos heq, heq, standing?, hbody]
      rfl
    · rw [if_neg heq]
  | some body =>
    obtain ⟨hentity, hget⟩ := h.bodyFor?_iff_get?.mp hbody
    by_cases hstatus : body.status = status
    · have hsame : world.setStatus identity status = world := by
        rw [setStatus, hbody]
        exact if_pos hstatus
      rw [hsame]
      by_cases heq : other = identity
      · rw [if_pos heq, heq, standing?, hbody, Option.map_some, Option.map_some, hstatus]
      · rw [if_neg heq]
    · have hreplaced := sameBodies_setStatus hbody hstatus
      rw [hreplaced.sameMarks.standing?_eq]
      by_cases heq : other = identity
      · rw [if_pos heq]
        subst heq
        have hmarked : (world.replace (body.withStatus status)).entities.get? other =
            some body.entity := hentity
        rw [standing?_of_entity hentity, standing?_of_entity hmarked, hget, replace]
        exact congrArg (Option.map _) (Table.get?_insert_self _ _ _)
      · rw [if_neg heq]
        cases hother : world.entities.get? other with
        | none =>
          rw [standing?_of_unknown hother]
          exact standing?_of_unknown hother
        | some entity =>
          have hmarked : (world.replace (body.withStatus status)).entities.get? other =
              some entity := hother
          rw [standing?_of_entity hother, standing?_of_entity hmarked, replace, Table.get?_insert,
            if_neg]
          rintro rfl
          exact heq (h.entity_inj hother hentity)

/-- A body is the one of its participant. -/
theorem Registers.bodyFor?_eq (h : world.Registers) {body : Body}
    (hbody : world.bodies.get? entity = some body) :
    world.bodyFor? body.identity = some body := by
  obtain rfl : body.entity = entity := h.labeled hbody
  exact h.bodyFor?_iff_get?.mpr ⟨h.entity_iff.mpr ⟨body, hbody, rfl⟩, hbody⟩

/-- A participant whose body is removed has none, and the others keep theirs. -/
theorem RemoveOutcome.standing?_eq (outcome : RemoveOutcome world identity after)
    (h : world.Registers) (other : Identity) :
    after.standing? other = if other = identity then none else world.standing? other := by
  cases outcome with
  | unknown unknown =>
    by_cases heq : other = identity
    · rw [if_pos heq, heq]
      exact standing?_of_unknown unknown
    · rw [if_neg heq]
  | @removes entity change left named leaves =>
    have hlabeled : ({ world with entities := world.entities.erase identity } : World).Labeled :=
      h.labeled
    have hmarks := leaves.sameMarks hlabeled
    have hget : left.entities.get? other =
        if other = identity then none else world.entities.get? other := by
      rw [hmarks.entities]
      exact Table.get?_erase _ _ _
    by_cases heq : other = identity
    · rw [if_pos heq]
      rw [if_pos heq] at hget
      exact standing?_of_unknown hget
    · rw [if_neg heq]
      rw [if_neg heq] at hget
      cases hother : world.entities.get? other with
      | none =>
        rw [standing?_of_unknown hother]
        exact standing?_of_unknown (hget.trans hother)
      | some entity' =>
        have hentity : entity' ≠ entity := by
          rintro rfl
          exact heq (h.entity_inj hother named)
        have hbefore : World.standing?
            { world with entities := world.entities.erase identity } other =
              world.standing? other := by
          rw [standing?_of_entity hother]
          refine standing?_of_entity ?_
          rw [Table.get?_erase, if_neg heq, hother]
        have hleft :
            ({ left with bodies := left.bodies.erase entity } : World).entities.get? other =
              some entity' := hget.trans hother
        rw [← hbefore, ← hmarks.standing?_eq, standing?_of_entity (hget.trans hother),
          standing?_of_entity hleft, Table.get?_erase, if_neg hentity]

/-! ## Following one event -/

/-- The bodies present the sessions that are known: each participant with a session has a body,
whose number is that of the session's key, and which is marked active exactly if the session is. -/
def Presents (world : World) (roll : Roll) : Prop := ∀ identity,
  (world.standing? identity).map (fun mark => (mark.1.val, decide (mark.2 = .active))) =
    (roll.get? identity).map fun entry => (entry.1.val, entry.2)

/-- A participant has no body just if it is not on the roll. -/
theorem Presents.standing?_eq_none_iff {roll : Roll} (h : world.Presents roll) :
    world.standing? identity = none ↔ roll.get? identity = none := by
  rw [← Option.map_eq_none_iff, h identity, Option.map_eq_none_iff]

/-- Whoever is on the roll has a body. -/
theorem Presents.exists_standing? {roll : Roll} (h : world.Presents roll)
    {entry : SessionKey × Bool} (hentry : roll.get? identity = some entry) :
    ∃ mark, world.standing? identity = some mark := by
  refine Option.ne_none_iff_exists'.mp fun hnone => ?_
  cases hentry.symm.trans (h.standing?_eq_none_iff.mp hnone)

end World

namespace Server

variable {world : World} {roll : Roll} {event : SessionEvent}

/-- The register of entities stays right when an event of a session is followed. -/
theorem registers_followSession (h : world.Registers) (event : SessionEvent)
    (hfresh : (followSession world event).entityIds.issued < 2 ^ 64) :
    (followSession world event).Registers := by
  cases event with
  | started key identity => exact h.createBody identity hfresh
  | resumed key identity =>
    have houtcome := World.setStatus_outcome (world.createBody identity).2 identity .active
    rw [followSession, houtcome.sameCounters.entityIds] at hfresh
    have hcreated := h.createBody identity hfresh
    exact hcreated.of_sameNames (houtcome.sameNames hcreated.labeled)
  | disconnected key identity cause =>
    have houtcome := World.setStatus_outcome world identity .disconnected
    exact h.of_sameNames (houtcome.sameNames h.labeled)
  | ended key identity => exact (World.removeBody_outcome world identity).registers h

/-- Bodies that present the sessions that are known do so after an event that they follow. The next
body that is made has the number of the next session that starts. -/
theorem presents_followSession (h : world.Registers) (hpresents : world.Presents roll)
    (hallowed : roll.Allows event)
    (hfresh : (followSession world event).entityIds.issued < 2 ^ 64)
    (hnumber : ∀ key, event.issued? = some key → world.entityIds.peek.val = key.val) :
    (followSession world event).Presents (roll.hear event) := by
  cases event with
  | started key identity =>
    intro other
    have hnone := hpresents.standing?_eq_none_iff.mpr hallowed
    rw [followSession, h.standing?_createBody hfresh hnone, Roll.hear, Table.get?_insert]
    split
    · simp [hnumber key rfl]
    · exact hpresents other
  | resumed key identity =>
    obtain ⟨isActive, hentry⟩ := hallowed
    obtain ⟨mark, hmark⟩ := hpresents.exists_standing? hentry
    intro other
    rw [followSession, World.createBody_of_standing? hmark, h.standing?_setStatus, Roll.hear,
      Table.get?_modify]
    split
    · have hidentity := hpresents identity
      rw [hmark, hentry, Option.map_some, Option.map_some, Option.some.injEq] at hidentity
      rw [hmark, hentry]
      simp [(Prod.mk.inj hidentity).1]
    · exact hpresents other
  | disconnected key identity cause =>
    obtain ⟨mark, hmark⟩ := hpresents.exists_standing? hallowed
    intro other
    rw [followSession, h.standing?_setStatus, Roll.hear, Table.get?_modify]
    split
    · have hidentity := hpresents identity
      rw [hmark, show roll.get? identity = some (key, true) from hallowed, Option.map_some,
        Option.map_some, Option.some.injEq] at hidentity
      rw [hmark, show roll.get? identity = some (key, true) from hallowed]
      simp [(Prod.mk.inj hidentity).1]
    · exact hpresents other
  | ended key identity =>
    intro other
    rw [followSession, (world.removeBody_outcome identity).standing?_eq h, Roll.hear,
      Table.get?_erase]
    split
    · rfl
    · exact hpresents other

/-- Following an event of a session takes no entity back. -/
theorem issued_le_followSession (world : World) (event : SessionEvent) :
    world.entityIds.issued ≤ (followSession world event).entityIds.issued := by
  have hcreated : ∀ identity,
      world.entityIds.issued ≤ (world.createBody identity).2.entityIds.issued := by
    intro identity
    cases hknown : world.entities.get? identity with
    | some entity => exact Nat.le_of_eq (by rw [World.createBody_of_some hknown])
    | none =>
      rw [World.createBody_of_none hknown]
      exact Nat.le_succ _
  cases event with
  | started key identity => exact hcreated identity
  | resumed key identity =>
    rw [followSession, (World.setStatus_outcome _ identity .active).sameCounters.entityIds]
    exact hcreated identity
  | disconnected key identity cause =>
    have hsame := (World.setStatus_outcome world identity .disconnected).sameCounters.entityIds
    exact Nat.le_of_eq (congrArg IdGenerator.issued hsame).symm
  | ended key identity =>
    have hsame := (world.removeBody_outcome identity).sameCounters.entityIds
    exact Nat.le_of_eq (congrArg IdGenerator.issued hsame).symm

/-- The number of bodies that an event makes is the number of sessions that it starts. -/
theorem issued_followSession (h : world.Registers) (hpresents : world.Presents roll)
    (hallowed : roll.Allows event) : (followSession world event).entityIds.issued =
      world.entityIds.issued + event.issued?.toList.length := by
  cases event with
  | started key identity =>
    have hnone := h.standing?_eq_none_iff.mp (hpresents.standing?_eq_none_iff.mpr hallowed)
    rw [followSession, World.createBody_of_none hnone]
    rfl
  | resumed key identity =>
    obtain ⟨isActive, hentry⟩ := hallowed
    obtain ⟨mark, hmark⟩ := hpresents.exists_standing? hentry
    rw [followSession, World.createBody_of_standing? hmark,
      (World.setStatus_outcome _ identity .active).sameCounters.entityIds]
    rfl
  | disconnected key identity cause =>
    rw [followSession, (World.setStatus_outcome _ identity .disconnected).sameCounters.entityIds]
    rfl
  | ended key identity =>
    rw [followSession, (world.removeBody_outcome identity).sameCounters.entityIds]
    rfl

end Server

/-! ## Events that were taken -/

namespace Registry

variable {registry before after : Registry} {identity : Identity} {event : SessionEvent}
  {heard rest : List SessionEvent}

/-- The registry with the events that were taken from it. -/
def recalling (registry : Registry) (heard : List SessionEvent) : Registry :=
  { registry with events := heard ++ registry.events }

/-- A change of a session is one beside events that were taken before. -/
theorem Change.recalling (h : before.Change identity event after) (heard : List SessionEvent) :
    (before.recalling heard).Change identity event (after.recalling heard) where
  turn := h.turn
  others := h.others
  free := h.free
  connections := h.connections
  events := by
    change heard ++ after.events = heard ++ before.events ++ [event]
    rw [h.events, List.append_assoc]

/-- The events, together with those that were taken, tell of all sessions. -/
structure Recalls (registry : Registry) (heard : List SessionEvent) : Prop where
  paired : registry.Paired
  keyed : (registry.recalling heard).Keyed
  tells : (registry.recalling heard).Tells

/-- An empty registry tells of all sessions, as there are none. -/
theorem recalls_empty : Registry.empty.Recalls [] := ⟨paired_empty, keyed_empty, tells_empty⟩

/-- Whatever is done with a registry, its events go on telling of all sessions. -/
theorem Recalls.act (h : registry.Recalls heard) (action : Action) :
    (registry.act action).Recalls heard := by
  obtain ⟨events, hchanges⟩ := h.paired.act_changes action
  generalize registry.act action = after at hchanges
  induction hchanges with
  | nil registry => exact h
  | cons first later ih =>
    exact ih ⟨first.paired h.paired, (first.recalling heard).keyed h.keyed,
      (first.recalling heard).tells ⟨h.paired.labeled, h.paired.present, h.paired.inverse⟩ h.tells⟩

/-- Mailboxes have no part in what the events tell. -/
theorem Recalls.withMailboxes (h : registry.Recalls heard) (mailboxes : List Mailbox) :
    Recalls { registry with mailboxes := mailboxes } heard :=
  ⟨⟨h.paired.labeled, h.paired.present, h.paired.inverse⟩,
    ⟨h.keyed.first, h.keyed.issued, h.keyed.registered, h.keyed.distinct⟩,
    ⟨h.tells.roll, h.tells.legal⟩⟩

/-- Sending a message touches nothing but the mailboxes. -/
theorem exists_mailboxes_send (registry : Registry) (identity : Identity)
    (message : ServerMessage) : ∃ mailboxes,
      (registry.send identity message).2 = { registry with mailboxes := mailboxes } := by
  rw [send_eq]
  split
  · unfold post
    split
    · exact ⟨_, rfl⟩
    · split
      · exact ⟨_, rfl⟩
      · exact ⟨_, rfl⟩
  · exact ⟨_, rfl⟩

/-- Sending a message leaves the events as they are. -/
theorem Recalls.send (h : registry.Recalls heard) (identity : Identity) (message : ServerMessage) :
    (registry.send identity message).2.Recalls heard := by
  obtain ⟨mailboxes, hsend⟩ := registry.exists_mailboxes_send identity message
  rw [hsend]
  exact h.withMailboxes mailboxes

/-- An event that is taken was legal, and a session that it starts has the next number. -/
theorem Recalls.take (h : registry.Recalls heard) (hevents : registry.events = event :: rest) :
    Recalls { registry with events := rest } (heard ++ [event]) ∧ (Roll.of heard).Allows event ∧
      ∀ key, event.issued? = some key →
        key = IdGenerator.peek ⟨1, (heard.filterMap SessionEvent.issued?).length⟩ := by
  have hsame : recalling { registry with events := rest } (heard ++ [event]) =
      registry.recalling heard := by
    simp only [recalling, hevents, List.append_assoc, List.singleton_append]
  have hsplit : (registry.recalling heard).events = heard ++ event :: rest :=
    congrArg (heard ++ ·) hevents
  refine ⟨⟨⟨h.paired.labeled, h.paired.present, h.paired.inverse⟩, by rw [hsame]; exact h.keyed,
    by rw [hsame]; exact h.tells⟩, h.tells.legal hsplit, fun key hkey => ?_⟩
  have hissued := h.keyed.issued
  rw [issuedKeys, hsplit, List.filterMap_append, List.filterMap_cons_some hkey] at hissued
  have hnth := congrArg (fun keys => keys[(heard.filterMap SessionEvent.issued?).length]?) hissued
  simp only [List.getElem?_append_right (Nat.le_refl _), Nat.sub_self, List.getElem?_cons_zero,
    List.getElem?_map] at hnth
  obtain ⟨number, hnumber, hpeek⟩ := Option.map_eq_some_iff.mp hnth.symm
  obtain ⟨hlt, hnumber⟩ := List.getElem?_eq_some_iff.mp hnumber
  rw [List.getElem_range] at hnumber
  rw [← hpeek, hnumber]

end Registry

/-! ## One action -/

/-- The simulation makes no bodies. -/
theorem World.entityIds_upkeep :
    Upkeep fun _ _ before after => after.entityIds = before.entityIds where
  trans first rest := rest.trans first
  perm world _ := rfl
  effects world effects := rfl
  leavePlace world entity := (leavePlace_outcome world entity).sameCounters.entityIds
  enters {flights request zone resolution outcome model answer world after} _ _ _ entry := by
    have hmade := (sameBodies_placeFor world model).entityIds
    cases entry with
    | unlisted => rfl
    | refused commit => exact commit.sameCounters.entityIds.trans hmade
    | entered commit => exact commit.sameCounters.entityIds.trans hmade
  finish flight realm answer := by
    rw [MoveRequest.finish, foldl_release]
    rfl
  takesZone request realm := rfl
  takesScene realm _ _ := rfl

namespace Server

variable {server after : Server} {action : Action} {heard : List SessionEvent}

/-- What was heard of the sessions so far is what the bodies present, and together with the events
that are still to be followed it tells of all sessions. -/
structure CatchesUp (heard : List SessionEvent) (server : Server) : Prop where
  recalls : server.registry.Recalls heard
  registers : server.world.Registers
  counted : server.world.entityIds.issued = (heard.filterMap SessionEvent.issued?).length
  presents : server.world.Presents (Roll.of heard)

/-- Only by following an event, the registry forgets one. -/
theorem ActOutcome.recalls (outcome : ActOutcome server action after) (hfollow : action ≠ .follow)
    (h : server.registry.Recalls heard) : after.registry.Recalls heard := by
  cases outcome with
  | connects now connection identity capacity =>
    exact h.act (.connect now connection identity capacity)
  | disconnects now connection cause => exact h.act (.disconnect now connection cause)
  | endsSnapshot snapshot => exact h.act (.endSnapshot snapshot)
  | endsSession identity => exact h.act (.endSession identity)
  | expires order now grace => exact h.act (.expire order now grace)
  | drains connection => exact h.withMailboxes _
  | hangsUp connection => exact h.withMailboxes _
  | orders identity zone scene => exact h.send identity _
  | @delivers effect rest effects =>
    simp only [carryOut]
    split
    · exact h.send _ _
    · exact h
  | follows events => exact absurd rfl hfollow
  | followsNothing events => exact absurd rfl hfollow
  | _ => exact h

/-- Only by following an event, bodies are made, removed or marked. -/
theorem ActOutcome.sameMarks (outcome : ActOutcome server action after) (hbuiltIn : server.BuiltIn)
    (hfollow : action ≠ .follow) (h : server.world.Labeled) : server.world.SameMarks after.world :=
  World.sameMarks_upkeep.act outcome hbuiltIn (fun heq => absurd heq hfollow)
    (fun _ _ => World.SameBodies.sameMarks ⟨rfl, rfl, rfl⟩)
    (fun _ => World.SameBodies.sameMarks ⟨rfl, rfl, rfl⟩)
    (fun _ _ => World.SameBodies.sameMarks ⟨rfl, rfl, rfl⟩) h

/-- No action takes an entity back. -/
theorem ActOutcome.issued_le (outcome : ActOutcome server action after)
    (hbuiltIn : server.BuiltIn) :
    server.world.entityIds.issued ≤ after.world.entityIds.issued := by
  by_cases hfollow : action = .follow
  · subst hfollow
    cases outcome with
    | follows events => exact issued_le_followSession _ _
    | followsNothing events => exact Nat.le_refl _
  · have hsame := World.entityIds_upkeep.act outcome hbuiltIn (fun heq => absurd heq hfollow)
      (fun _ => rfl) rfl fun _ => rfl
    exact Nat.le_of_eq (congrArg IdGenerator.issued hsame).symm

/-- The event that an action follows. -/
def heardBy (server : Server) : Action → List SessionEvent
  | .follow => server.registry.events.take 1
  | _ => []

/-- Only following takes events. -/
theorem heardBy_eq_nil (server : Server) (h : action ≠ .follow) : server.heardBy action = [] := by
  cases action <;> first | rfl | exact absurd rfl h

/-- Each action leaves the bodies up to what was heard. -/
theorem ActOutcome.catchesUp (outcome : ActOutcome server action after)
    (hbuiltIn : server.BuiltIn) (hfresh : after.world.entityIds.issued < 2 ^ 64)
    (h : server.CatchesUp heard) : after.CatchesUp (heard ++ server.heardBy action) := by
  by_cases hfollow : action = .follow
  · subst hfollow
    cases outcome with
    | followsNothing events =>
      rw [heardBy, events, List.take_nil, List.append_nil]
      exact h
    | @follows event rest events =>
      rw [heardBy, events, List.take_succ_cons, List.take_zero]
      obtain ⟨hrecalls, hallowed, hnumber⟩ := h.recalls.take events
      have hissued := issued_followSession h.registers h.presents hallowed
      change (followSession server.world event).entityIds.issued < 2 ^ 64 at hfresh
      refine ⟨hrecalls, registers_followSession h.registers event hfresh, ?_, ?_⟩
      · change (followSession server.world event).entityIds.issued = _
        rw [hissued, h.counted, List.filterMap_append, List.length_append]
        cases hkey : event.issued? <;> simp [hkey]
      · change (followSession server.world event).Presents (Roll.of (heard ++ [event]))
        rw [Roll.of, List.foldl_append]
        refine presents_followSession h.registers h.presents hallowed hfresh fun key hkey => ?_
        rw [hissued, hkey] at hfresh
        rw [hnumber key hkey, IdGenerator.peek_val h.registers.first hfresh, h.counted]
        rw [h.counted] at hfresh
        rw [IdGenerator.peek_val rfl hfresh]
  · have hmarks := outcome.sameMarks hbuiltIn hfollow h.registers.labeled
    rw [server.heardBy_eq_nil hfollow, List.append_nil]
    refine ⟨outcome.recalls hfollow h.recalls, h.registers.of_sameNames hmarks.toSameNames, ?_,
      fun identity => ?_⟩
    · rw [hmarks.entityIds]
      exact h.counted
    · rw [hmarks.standing?_eq]
      exact h.presents identity

end Server

/-! ## Which body is made for which session -/

/-- Marking a session leaves its key. -/
theorem Roll.key_mem_modify {roll : Roll} {keys : List SessionKey} {identity name : Identity}
    {isActive : Bool} (h : ∀ {entry}, roll.get? identity = some entry → entry.1 ∈ keys)
    {entry : SessionKey × Bool}
    (hentry : (roll.modify name fun entry => (entry.1, isActive)).get? identity = some entry) :
    entry.1 ∈ keys := by
  rw [Table.get?_modify] at hentry
  by_cases heq : identity = name
  · rw [if_pos heq] at hentry
    subst heq
    obtain ⟨old, hold, rfl⟩ := Option.map_eq_some_iff.mp hentry
    have hkey := h hold
    exact hkey
  · rw [if_neg heq] at hentry
    exact h hentry

/-- A session that is known has been started. -/
theorem Roll.key_mem_of {identity : Identity} (events : List SessionEvent) :
    ∀ {entry}, (Roll.of events).get? identity = some entry →
      entry.1 ∈ events.filterMap SessionEvent.issued? := by
  induction events using List.reverseRecOn with
  | nil =>
    intro entry h
    cases h
  | append_singleton earlier event ih =>
    intro entry h
    rw [Roll.of, List.foldl_append, List.foldl_cons, List.foldl_nil, ← Roll.of] at h
    rw [List.filterMap_append, List.mem_append]
    cases event with
    | started key starter =>
      rw [Roll.hear, Table.get?_insert] at h
      split at h
      · cases h
        exact .inr (by simp [SessionEvent.issued?])
      · exact .inl (ih h)
    | resumed key resumer => exact .inl (key_mem_modify ih h)
    | disconnected key loser cause => exact .inl (key_mem_modify ih h)
    | ended key leaver =>
      rw [Roll.hear, Table.get?_erase] at h
      split at h
      · cases h
      · exact .inl (ih h)

/-- The body that is made where an event starts a session, with the key of the session. -/
def SessionEvent.bears (event : SessionEvent) (world : World) : List (SessionKey × EntityId) :=
  match event with
  | .started key identity => (world.entityFor? identity).toList.map fun entity => (key, entity)
  | _ => []

namespace Server

variable {server : Server} {heard : List SessionEvent} {made : List (SessionKey × EntityId)}
  {event : SessionEvent} {identity : Identity} {body : Body}

/-- A session that is known has a body, which has its number. -/
theorem CatchesUp.exists_body (h : server.CatchesUp heard) {entry : SessionKey × Bool}
    (hentry : (Roll.of heard).get? identity = some entry) :
    ∃ body, server.world.bodyFor? identity = some body ∧ body.entity.val = entry.1.val ∧
      decide (body.status = .active) = entry.2 := by
  have hpresents := h.presents identity
  rw [hentry, World.standing?, Option.map_map, Option.map_some,
    Option.map_eq_some_iff] at hpresents
  obtain ⟨body, hbody, hmark⟩ := hpresents
  exact ⟨body, hbody, Prod.mk.inj hmark⟩

/-- A body belongs to a session that is known. -/
theorem CatchesUp.exists_entry (h : server.CatchesUp heard)
    (hbody : server.world.bodyFor? identity = some body) :
    ∃ entry, (Roll.of heard).get? identity = some entry ∧ body.entity.val = entry.1.val ∧
      decide (body.status = .active) = entry.2 := by
  have hpresents := h.presents identity
  rw [World.standing?, hbody] at hpresents
  obtain ⟨entry, hentry, hmark⟩ := Option.map_eq_some_iff.mp hpresents.symm
  obtain ⟨hnumber, hstatus⟩ := Prod.mk.inj hmark
  exact ⟨entry, hentry, hnumber.symm, hstatus.symm⟩

/-- The event that was heard last bears a body if it started a session. Both have the same
number. -/
theorem CatchesUp.bears (h : server.CatchesUp (heard ++ [event])) :
    (event.bears server.world).map Prod.fst = event.issued?.toList ∧
      ∀ {key entity}, (key, entity) ∈ event.bears server.world → entity.val = key.val := by
  cases event with
  | started key identity =>
    have hentry : (Roll.of (heard ++ [.started key identity])).get? identity =
        some (key, true) := by
      rw [Roll.of, List.foldl_append]
      exact Table.get?_insert_self _ _ _
    obtain ⟨body, hbody, hnumber, -⟩ := h.exists_body hentry
    have hentity : server.world.entityFor? identity = some body.entity :=
      (h.registers.bodyFor?_iff_get?.mp hbody).1
    simp [SessionEvent.bears, SessionEvent.issued?, hentity, hnumber]
  | resumed key identity => simp [SessionEvent.bears, SessionEvent.issued?]
  | disconnected key identity cause => simp [SessionEvent.bears, SessionEvent.issued?]
  | ended key identity => simp [SessionEvent.bears, SessionEvent.issued?]

/-- The body that an action makes for a session that starts. -/
def born (server : Server) (action : Action) : List (SessionKey × EntityId) :=
  (server.heardBy action).flatMap fun event => event.bears (server.act action).world

/-- An action follows one event at most. -/
theorem heardBy_cases (server : Server) (action : Action) :
    server.heardBy action = [] ∨ ∃ event, server.heardBy action = [event] := by
  by_cases hfollow : action = .follow
  · subst hfollow
    rw [heardBy]
    cases server.registry.events with
    | nil => exact .inl rfl
    | cons event rest => exact .inr ⟨event, rfl⟩
  · exact .inl (server.heardBy_eq_nil hfollow)

/-- The bodies were made for the sessions that started, one for each, and have their numbers. -/
structure Tracks (made : List (SessionKey × EntityId)) (heard : List SessionEvent)
    (server : Server) : Prop extends server.CatchesUp heard where
  keys : made.map Prod.fst = heard.filterMap SessionEvent.issued?
  numbered : ∀ {key entity}, (key, entity) ∈ made → entity.val = key.val

/-- Each action keeps track of the bodies that it makes. -/
theorem Tracks.act (h : server.Tracks made heard) (hbuiltIn : server.BuiltIn) (action : Action)
    (hfresh : (server.act action).world.entityIds.issued < 2 ^ 64) :
    (server.act action).Tracks (made ++ server.born action) (heard ++ server.heardBy action) := by
  have hafter := (act_outcome server action).catchesUp hbuiltIn hfresh h.toCatchesUp
  rcases server.heardBy_cases action with hnone | ⟨event, hevent⟩
  · rw [born, hnone, List.flatMap_nil, List.append_nil, List.append_nil]
    rw [hnone, List.append_nil] at hafter
    exact ⟨hafter, h.keys, h.numbered⟩
  · rw [born, hevent, List.flatMap_singleton]
    rw [hevent] at hafter
    obtain ⟨hkeys, hnumbered⟩ := hafter.bears
    refine ⟨hafter, ?_, fun hmem => ?_⟩
    · rw [List.map_append, List.filterMap_append, h.keys, hkeys]
      cases hissued : event.issued? <;> simp [hissued]
    · rcases List.mem_append.mp hmem with hmem | hmem
      · exact h.numbered hmem
      · exact hnumbered hmem

/-- A new server tracks its sessions, as there are none. -/
theorem new_tracks (config : ServerConfig) (loader : Loader CacheKey Bundle) :
    (Server.new config loader).Tracks [] [] where
  recalls := Registry.recalls_empty
  registers := (World.sound_new config.idleCapacity loader).registers
  counted := rfl
  presents _ := rfl
  keys := rfl
  numbered h := nomatch h

/-- As long as the counter of bodies has not come round, a run keeps track of them. -/
theorem run_tracks (config : ServerConfig) (loader : Loader CacheKey Bundle)
    (actions : List Action)
    (hfresh : ((Server.new config loader).run actions).world.entityIds.issued < 2 ^ 64) :
    ∃ heard, ((Server.new config loader).run actions).Tracks
      ((Server.new config loader).collect born actions) heard := by
  refine (run_collect_induction (P := fun made server => server.BuiltIn ∧
    (server.world.entityIds.issued < 2 ^ 64 → ∃ heard, server.Tracks made heard))
    (fun made server action h => ?_)
    ⟨new_builtIn config loader, fun _ => ⟨[], new_tracks config loader⟩⟩ actions).2 hfresh
  have houtcome := act_outcome server action
  refine ⟨houtcome.builtIn h.1, fun hafter => ?_⟩
  obtain ⟨heard, htracks⟩ := h.2 (Nat.lt_of_le_of_lt (houtcome.issued_le h.1) hafter)
  exact ⟨_, htracks.act h.1 action hafter⟩

/-- Every body was made for a session. -/
theorem Tracks.exists_key (h : server.Tracks made heard)
    (hbody : server.world.bodyFor? identity = some body) : ∃ entry,
      (Roll.of heard).get? identity = some entry ∧ (entry.1, body.entity) ∈ made := by
  obtain ⟨entry, hentry, hnumber, -⟩ := h.exists_entry hbody
  have hissued := Roll.key_mem_of heard hentry
  rw [← h.keys] at hissued
  obtain ⟨⟨key, entity⟩, hmem, rfl⟩ := List.mem_map.mp hissued
  have hentity : body.entity = entity := Id.eq_of_val_eq (hnumber.trans (h.numbered hmem).symm)
  rw [hentity]
  exact ⟨entry, hentry, hmem⟩

/-- Sessions are told apart by their bodies, and bodies by their sessions. -/
theorem Tracks.key_eq_iff (h : server.Tracks made heard) {key key' : SessionKey}
    {entity entity' : EntityId} (hmem : (key, entity) ∈ made) (hmem' : (key', entity') ∈ made) :
    key = key' ↔ entity = entity' := by
  have hnumber := h.numbered hmem
  have hnumber' := h.numbered hmem'
  constructor
  · rintro rfl
    exact Id.eq_of_val_eq (hnumber.trans hnumber'.symm)
  · rintro rfl
    exact Id.eq_of_val_eq (hnumber.symm.trans hnumber')

/-! ## The end of a tick -/

/-- Whether an action is a call of the registry that can bring about an event. -/
def Action.callsRegistry : Action → Bool
  | .connect .. | .disconnect .. | .endSnapshot _ | .endSession _ | .expire .. => true
  | _ => false

/-- Sending a message leaves the events as they are. -/
theorem events_send (registry : Registry) (identity : Identity) (message : ServerMessage) :
    (registry.send identity message).2.events = registry.events := by
  obtain ⟨mailboxes, hsend⟩ := registry.exists_mailboxes_send identity message
  rw [hsend]

/-- Carrying an effect out leaves the events as they are. -/
theorem events_carryOut (server : Server) (effect : Effect) :
    (server.carryOut effect).registry.events = server.registry.events := by
  rw [carryOut]
  dsimp only
  split
  · exact events_send _ _ _
  · rfl

/-- Nothing but calls of the registry brings about an event. -/
theorem ActOutcome.events_eq_nil {after : Server} {action : Action}
    (outcome : ActOutcome server action after) (hcalls : action.callsRegistry = false)
    (h : server.registry.events = []) : after.registry.events = [] := by
  cases outcome with
  | connects | disconnects | endsSnapshot | endsSession | expires => cases hcalls
  | orders identity zone scene => exact (events_send _ _ _).trans h
  | delivers effects => exact (events_carryOut _ _).trans h
  | follows events => cases h.symm.trans events
  | _ => exact h

/-- Carrying the effects out leaves the events as they are. -/
theorem events_flush (server : Server) :
    server.flush.registry.events = server.registry.events :=
  List.foldlRecOn (motive := fun after : Server => after.registry.events = server.registry.events)
    server.world.takeEffects.1 carryOut (b := server.withWorld server.world.takeEffects.2) rfl
    fun after h effect _ => (events_carryOut after effect).trans h

/-- No event is left when all were followed. -/
theorem events_applySessionEvents (server : Server) (events : ServerEvents) :
    (server.applySessionEvents events).2.registry.events = [] := events_flush _

/-- Dispatching requests leaves the registry alone. -/
theorem registry_runRequests (server : Server) : server.runRequests.registry = server.registry :=
  List.foldlRecOn (motive := fun after : Server => after.registry = server.registry)
    server.requests (fun after request => after.runRequest request.1 request.2) rfl
    fun _ h _ _ => h

/-- A tick leaves no event that the bodies did not follow. -/
theorem events_receive (server : Server) (order : List Identity) (now : Instant) :
    (server.receiveIn order now).2.registry.events = [] := by
  unfold receiveIn
  generalize server.applySessionEvents {} = followed
  obtain ⟨events, followed⟩ := followed
  have hended := events_applySessionEvents { followed with
    registry := (followed.registry.expireIn order now followed.config.sessionGrace).2 } events
  dsimp only
  generalize applySessionEvents { followed with
    registry := (followed.registry.expireIn order now followed.config.sessionGrace).2 } events =
    ended at hended ⊢
  rw [← registry_runRequests] at hended
  generalize ended.2.runRequests = served at hended ⊢
  exact (events_flush _).trans hended

/-! ## Runs -/

/-- The bodies are what the sessions ask for, after the given actions. -/
structure Followed (start : Server) (actions : List Action) : Prop where
  /-- A participant has a body exactly if it has a session. -/
  body_iff : ∀ identity, ((start.run actions).world.bodyFor? identity).isSome = true ↔
    ((start.run actions).registry.session? identity).isSome = true
  /-- There are no bodies but those of participants. -/
  bodyFor?_eq : ∀ {entity body}, (start.run actions).world.bodies.get? entity = some body →
    (start.run actions).world.bodyFor? body.identity = some body
  /-- A body is marked active exactly if the session is. -/
  active_iff : ∀ {identity session body},
    (start.run actions).registry.session? identity = some session →
    (start.run actions).world.bodyFor? identity = some body →
    (body.status = .active ↔ session.isActive = true)
  /-- A place shows the status of each body that is in it. This holds until the ids of places come
  round. -/
  shown : (start.run actions).world.placeIds.issued < 2 ^ 64 → ∀ {identity body place},
    (start.run actions).world.bodyFor? identity = some body →
    body.location.place? = some place → ∃ host info,
      (start.run actions).world.places.get? place = some host ∧
        host.occupants.get? body.entity = some info ∧ info.status = body.status
  /-- The body of a session is the one that was made for it. -/
  mem_born : ∀ {identity session body},
    (start.run actions).registry.session? identity = some session →
    (start.run actions).world.bodyFor? identity = some body →
    (session.key, body.entity) ∈ start.collect born actions
  /-- Every body that was ever there was made for a session. -/
  exists_key : ∀ {earlier later}, actions = earlier ++ later → ∀ {entity body},
    (start.run earlier).world.bodies.get? entity = some body →
    ∃ key, (key, entity) ∈ start.collect born actions
  /-- Bodies were made for different sessions exactly if they have different entities, however short
  their lives were. -/
  key_eq_iff : ∀ {key key' entity entity'}, (key, entity) ∈ start.collect born actions →
    (key', entity') ∈ start.collect born actions → (key = key' ↔ entity = entity')
  /-- As long as a participant has the same session, its body has the same entity. The bodies of
  other sessions have, and had, other entities. -/
  entity_eq_iff : ∀ {earlier later}, actions = earlier ++ later →
    (start.run earlier).registry.events = [] → ∀ {identity identity' session session' body body'},
    (start.run actions).registry.session? identity = some session →
    (start.run actions).world.bodyFor? identity = some body →
    (start.run earlier).registry.session? identity' = some session' →
    (start.run earlier).world.bodyFor? identity' = some body' →
    (body'.entity = body.entity ↔ session'.key = session.key)

/-- The bodies follow the sessions of a server. -/
structure Follows (start : Server) : Prop where
  /-- A tick that nothing overlaps ends, after some more actions, without an event that the bodies
  did not follow, whatever was queued up before it. -/
  tick : ∀ actions order now, ∃ ticked,
    ((start.run actions).receiveIn order now).2 = start.run (actions ++ ticked) ∧
      (start.run (actions ++ ticked)).registry.events = []
  /-- It stays so until the registry is called, whatever else overlaps a tick. -/
  quiet : ∀ actions others, (start.run actions).registry.events = [] →
    (∀ action ∈ others, action.callsRegistry = false) →
    (start.run (actions ++ others)).registry.events = []
  /-- Where there is no such event, the bodies are what the sessions ask for. This holds until the
  entities come round. -/
  followed : ∀ actions, (start.run actions).registry.events = [] →
    (start.run actions).world.entityIds.issued < 2 ^ 64 → start.Followed actions

/-- Once all events were followed, what was heard is what is registered. -/
theorem CatchesUp.get?_of (h : server.CatchesUp heard) (hevents : server.registry.events = [])
    (identity : Identity) : (Roll.of heard).get? identity =
      (server.registry.session? identity).map Session.entry := by
  have hroll := h.recalls.tells.roll identity
  rwa [Registry.recalling, hevents, List.append_nil] at hroll

/-- Once all events were followed, exactly the participants with a session have a body. -/
theorem CatchesUp.isSome_bodyFor?_iff (h : server.CatchesUp heard)
    (hevents : server.registry.events = []) (identity : Identity) :
    (server.world.bodyFor? identity).isSome = true ↔
      (server.registry.session? identity).isSome = true := by
  have hentry := h.get?_of hevents identity
  constructor
  · intro hsome
    obtain ⟨body, hbody⟩ := Option.isSome_iff_exists.mp hsome
    obtain ⟨entry, hfound, -⟩ := h.exists_entry hbody
    obtain ⟨session, hsession, -⟩ := Option.map_eq_some_iff.mp (hentry.symm.trans hfound)
    exact Option.isSome_iff_exists.mpr ⟨session, hsession⟩
  · intro hsome
    obtain ⟨session, hsession⟩ := Option.isSome_iff_exists.mp hsome
    rw [hsession] at hentry
    obtain ⟨body, hbody, -⟩ := h.exists_body hentry
    exact Option.isSome_iff_exists.mpr ⟨body, hbody⟩

/-- Once all events were followed, bodies are marked as their sessions are. -/
theorem CatchesUp.active_iff (h : server.CatchesUp heard) (hevents : server.registry.events = [])
    {session : Session} (hsession : server.registry.session? identity = some session)
    (hbody : server.world.bodyFor? identity = some body) :
    body.status = .active ↔ session.isActive = true := by
  obtain ⟨entry, hentry, -, hstatus⟩ := h.exists_entry hbody
  rw [h.get?_of hevents, hsession] at hentry
  cases hentry
  rw [show session.isActive = decide (body.status = .active) from hstatus.symm, decide_eq_true_iff]

/-- The body of a session has been made for it once all events were followed. -/
theorem Tracks.mem_of_session (h : server.Tracks made heard)
    (hevents : server.registry.events = []) {session : Session}
    (hsession : server.registry.session? identity = some session)
    (hbody : server.world.bodyFor? identity = some body) :
    (session.key, body.entity) ∈ made := by
  obtain ⟨entry, hentry, hmem⟩ := h.exists_key hbody
  rw [h.get?_of hevents, hsession] at hentry
  cases hentry
  exact hmem

/-- No run takes an entity back. -/
theorem issued_le_run {server : Server} (h : server.BuiltIn) (actions : List Action) :
    server.world.entityIds.issued ≤ (server.run actions).world.entityIds.issued := by
  induction actions generalizing server with
  | nil => exact Nat.le_refl _
  | cons action rest ih =>
    have houtcome := act_outcome server action
    exact Nat.le_trans (houtcome.issued_le h) (ih (houtcome.builtIn h))

/-- Where all events were followed, the bodies are what the sessions ask for. -/
theorem run_followed (config : ServerConfig) (loader : Loader CacheKey Bundle)
    (actions : List Action)
    (hevents : ((Server.new config loader).run actions).registry.events = [])
    (hfresh : ((Server.new config loader).run actions).world.entityIds.issued < 2 ^ 64) :
    (Server.new config loader).Followed actions := by
  obtain ⟨heard, h⟩ := run_tracks config loader actions hfresh
  have hearlier : ∀ {earlier later}, actions = earlier ++ later →
      ∃ heard, ((Server.new config loader).run earlier).Tracks
        ((Server.new config loader).collect born earlier) heard := by
    rintro earlier later rfl
    have hbuiltIn := run_builtIn (new_builtIn config loader) earlier
    rw [run_append] at hfresh
    exact run_tracks config loader earlier
      (Nat.lt_of_le_of_lt (issued_le_run hbuiltIn later) hfresh)
  -- What was born by then was born by now, so both moments are compared in the list of now.
  have hborn : ∀ {earlier later key entity}, actions = earlier ++ later →
      (key, entity) ∈ (Server.new config loader).collect born earlier →
      (key, entity) ∈ (Server.new config loader).collect born actions := by
    rintro earlier later key entity rfl hmem
    rw [collect_append]
    exact List.mem_append_left _ hmem
  constructor
  case body_iff => exact h.isSome_bodyFor?_iff hevents
  case bodyFor?_eq => exact h.registers.bodyFor?_eq
  case active_iff => exact h.active_iff hevents
  case shown =>
    intro hplaces identity body place hbody hplace
    have hsound := run_sound config loader actions ⟨hfresh, hplaces⟩
    obtain ⟨host, hhost, -, hin⟩ :=
      hsound.houses.exists_host (h.registers.bodyFor?_iff_get?.mp hbody).2 hplace
    exact ⟨host, _, hhost, hin, rfl⟩
  case mem_born => exact h.mem_of_session hevents
  case exists_key =>
    intro earlier later hsplit entity body hbody
    obtain ⟨heard, hthen⟩ := hearlier hsplit
    obtain rfl : body.entity = entity := hthen.registers.labeled hbody
    obtain ⟨entry, -, hmem⟩ := hthen.exists_key (hthen.registers.bodyFor?_eq hbody)
    exact ⟨entry.1, hborn hsplit hmem⟩
  case key_eq_iff => exact h.key_eq_iff
  case entity_eq_iff =>
    intro earlier later hsplit hthen identity identity' session session' body body' hsession hbody
      hsession' hbody'
    obtain ⟨heard, htracks⟩ := hearlier hsplit
    have hmem' := hborn hsplit (htracks.mem_of_session hthen hsession' hbody')
    exact (h.key_eq_iff hmem' (h.mem_of_session hevents hsession hbody)).symm

/-- Where no event is left, none comes until the registry is called. -/
theorem run_quiet {server : Server} (hevents : server.registry.events = []) {others : List Action}
    (hcalls : ∀ action ∈ others, action.callsRegistry = false) :
    (server.run others).registry.events = [] := by
  induction others generalizing server with
  | nil => exact hevents
  | cons action rest ih =>
    rw [List.forall_mem_cons] at hcalls
    exact ih ((act_outcome server action).events_eq_nil hcalls.1 hevents) hcalls.2

/-- At the end of every tick, the bodies are what the sessions ask for. -/
theorem bodies_follow (config : ServerConfig) (loader : Loader CacheKey Bundle) :
    (Server.new config loader).Follows := by
  constructor
  case tick =>
    intro actions order now
    obtain ⟨ticked, hticked⟩ := receive_eq_run ((Server.new config loader).run actions) order now
    rw [← run_append] at hticked
    refine ⟨ticked, hticked, ?_⟩
    rw [← hticked]
    exact events_receive _ order now
  case quiet =>
    intro actions others hevents hcalls
    rw [run_append]
    exact run_quiet hevents hcalls
  case followed => exact run_followed config loader

/-- Before a tick, ada loses her connection, comes back and loses it again, and bob ends his session
and starts another one. -/
def comings : List Action :=
  [.connect 0 1 ⟨"ada"⟩ none, .connect 0 2 ⟨"bob"⟩ none, .disconnect 1 1 none,
    .connect 2 3 ⟨"ada"⟩ none, .endSession ⟨"bob"⟩, .connect 4 2 ⟨"bob"⟩ none,
    .disconnect 5 3 none]

/-- After the tick, ada has her first body still, and bob has a new one. -/
theorem comings_follows :
    let server := (((Server.new {} .town).run comings).receiveIn [] 5).2
    server.world.standing? ⟨"ada"⟩ = some (1, .disconnected) ∧
      server.world.standing? ⟨"bob"⟩ = some (3, .active) ∧
      ∃ ticked, server = (Server.new {} .town).run (comings ++ ticked) ∧
        (Server.new {} .town).Followed (comings ++ ticked) := by
  refine ⟨by decide +kernel, by decide +kernel, ?_⟩
  obtain ⟨ticked, hticked, hevents⟩ := (bodies_follow {} .town).tick comings [] 5
  have hfresh :
      (((Server.new {} .town).run comings).receiveIn [] 5).2.world.entityIds.issued < 2 ^ 64 := by
    decide +kernel
  rw [hticked] at hfresh
  exact ⟨ticked, hticked, (bodies_follow {} .town).followed _ hevents hfresh⟩

end Server

end SharedWorld
