import SharedWorld.Proofs.Accounts

/-!
# Changes of locations replay to the world

The changes of a body's location that were noted so far lead from nowhere to where the body is:
each of them starts where the one before it ended (`World.Replayed`). A body that is removed is out
of any place by then, and its entity is never given to another body, so the log of the entity ends
there. Each operation keeps the log leading to the bodies when what it notes is added.
-/

namespace SharedWorld

/-! ## Replaying changes -/

/-- Where a body is after changes of which each starts where the one before it ended. -/
def BodyLocation.replay (location : BodyLocation) : List BodyChange → Option BodyLocation
  | [] => some location
  | change :: rest => if change.before = location then change.after.replay rest else none

/-- Changes are replayed one after the other. -/
theorem BodyLocation.replay_append (location : BodyLocation) (first rest : List BodyChange) :
    location.replay (first ++ rest) = (location.replay first).bind (·.replay rest) := by
  induction first generalizing location with
  | nil => rfl
  | cons change first ih =>
    rw [List.cons_append, replay, replay]
    split
    · exact ih change.after
    · rfl

/-- A body that is at `here`, or that there is none of any more, was left at `last`. -/
def BodyLocation.IsLast (last : BodyLocation) : Option BodyLocation → Prop
  | some here => here = last
  | none => last.place? = none

namespace World

variable {before after world : World} {entity : EntityId} {log : List BodyChange} {body : Body}

/-- Where the body of an entity is. -/
def location? (world : World) (entity : EntityId) : Option BodyLocation :=
  (world.body? entity).map (·.location)

/-- The log leads from nowhere to where each body is. An entity in it is not given again. -/
structure Replayed (log : List BodyChange) (world : World) : Prop where
  issued : ∀ change ∈ log, change.entity.val ≤ world.entityIds.issued
  replays : ∀ entity, ∃ last,
    BodyLocation.nowhere.replay (log.filter (·.entity = entity)) = some last ∧
      last.IsLast (world.location? entity)

/-- A body is where its record says. -/
theorem location?_of_body (hbody : world.bodies.get? entity = some body) :
    world.location? entity = some body.location := congrArg (Option.map _) hbody

/-- Where bodies are depends on the bodies alone. -/
theorem SameBodies.location?_eq (h : before.SameBodies after) :
    after.location? = before.location? := by
  funext entity
  rw [location?, location?, body?, body?, h.bodies]

/-- Replacing a body changes its own location only. -/
theorem location?_replace (world : World) (body : Body) :
    (world.replace body).location? =
      Function.update world.location? body.entity (some body.location) := by
  funext other
  simp only [location?, body?, replace, Table.get?_insert, Function.update_apply]
  split
  · rfl
  · rfl

/-- Where no body is moved, the log is as good as it was. -/
theorem Replayed.congr (h : before.Replayed log) (hlocation : after.location? = before.location?)
    (hissued : before.entityIds.issued ≤ after.entityIds.issued) : after.Replayed log where
  issued change hmem := Nat.le_trans (h.issued change hmem) hissued
  replays entity := by
    rw [hlocation]
    exact h.replays entity

/-- A body that is moved is where the change that is noted takes it. -/
theorem Replayed.moves (h : before.Replayed log) {location : BodyLocation}
    (hbody : before.location? body.entity = some body.location)
    (hissued : body.entity.val ≤ before.entityIds.issued)
    (hlocation : after.location? = Function.update before.location? body.entity (some location))
    (hids : after.entityIds = before.entityIds) :
    after.Replayed (log ++ [body.changeTo location]) where
  issued change hmem := by
    rw [hids]
    rcases List.mem_append.mp hmem with hold | hnew
    · exact h.issued change hold
    · rwa [List.mem_singleton.mp hnew]
  replays entity := by
    obtain ⟨last, hlast, hends⟩ := h.replays entity
    rw [hlocation, List.filter_append, BodyLocation.replay_append, hlast, Option.bind_some]
    by_cases heq : entity = body.entity
    · subst heq
      rw [hbody] at hends
      have hown : decide ((body.changeTo location).entity = body.entity) = true :=
        decide_eq_true rfl
      rw [List.filter_cons, if_pos hown, List.filter_nil, Function.update_self]
      exact ⟨location, if_pos hends, rfl⟩
    · have hother : ¬decide ((body.changeTo location).entity = entity) = true :=
        fun hsame => heq (of_decide_eq_true hsame).symm
      rw [List.filter_cons, if_neg hother, List.filter_nil, Function.update_of_ne heq]
      exact ⟨last, rfl, hends⟩

/-- A body that is in no place may be removed. -/
theorem Replayed.removes (h : before.Replayed log)
    (houtside : ∀ location, before.location? entity = some location → location.place? = none)
    (hlocation : after.location? = Function.update before.location? entity none)
    (hids : after.entityIds = before.entityIds) : after.Replayed log where
  issued := by
    rw [hids]
    exact h.issued
  replays other := by
    obtain ⟨last, hlast, hends⟩ := h.replays other
    refine ⟨last, hlast, ?_⟩
    rw [hlocation]
    by_cases heq : other = entity
    · subst heq
      rw [Function.update_self]
      cases hhere : before.location? other with
      | none => rwa [hhere] at hends
      | some here =>
        rw [hhere] at hends
        rw [← show here = last from hends]
        exact houtside here hhere
    · rwa [Function.update_of_ne heq]

/-- A body that is made starts nowhere, and so does its log. -/
theorem Replayed.starts (h : before.Replayed log) (hnew : before.entityIds.issued < entity.val)
    (hlocation : after.location? = Function.update before.location? entity (some .nowhere))
    (hissued : before.entityIds.issued ≤ after.entityIds.issued) : after.Replayed log where
  issued change hmem := Nat.le_trans (h.issued change hmem) hissued
  replays other := by
    rw [hlocation]
    by_cases heq : other = entity
    · subst heq
      have hnone : log.filter (·.entity = other) = [] := by
        refine List.filter_eq_nil_iff.mpr fun change hmem hsame => ?_
        have hle := h.issued change hmem
        rw [of_decide_eq_true hsame] at hle
        omega
      rw [hnone, Function.update_self]
      exact ⟨.nowhere, rfl, rfl⟩
    · rw [Function.update_of_ne heq]
      exact h.replays other

/-! ## Operations on bodies -/

/-- The change by which the body of an entity leaves its place, if it is in one. -/
def departure? (world : World) (entity : EntityId) : Option BodyChange :=
  ((world.body? entity).filter (·.location.place?.isSome)).map fun body =>
    body.changeTo body.location.leave

variable {identity : Identity} {change : Option BodyChange}

/-- Leaving a place returns the departure of the body, if it was in one. -/
theorem LeaveOutcome.change_eq (outcome : LeaveOutcome world entity change after) :
    change = world.departure? entity := by
  cases outcome with
  | outside nowhere =>
    unfold departure? body?
    cases hbody : after.bodies.get? entity with
    | none => rfl
    | some body =>
      rw [World.stays, hbody, Option.bind_some] at nowhere
      have houtside : body.location.place? = none := by rw [← body.stay?_place, nowhere]; rfl
      rw [Option.filter_some, houtside]
      rfl
  | @leaves body zone scene place location found inside =>
    simp only [departure?, body?, found, Option.filter_some, inside, BodyLocation.place?,
      Option.isSome_some, if_true, Option.map_some, BodyLocation.leave]

/-- When a body has left, it is where its departure took it, and all others are where they were. -/
theorem LeaveOutcome.location?_eq (outcome : LeaveOutcome world entity change after)
    (h : world.Labeled) : after.location? = change.elim world.location? fun moved =>
      Function.update world.location? entity (some moved.after) := by
  cases outcome with
  | outside => rfl
  | @leaves body zone scene place location found inside =>
    have hvacate := (sameBodies_vacate (world.replace (body.movedTo (.vacated zone scene)))
      (body.changeTo (.vacated zone scene))).location?_eq
    rw [location?_replace] at hvacate
    rw [← h found]
    exact hvacate

/-- The log leads to where the bodies are when one has left its place. -/
theorem LeaveOutcome.replayed (outcome : LeaveOutcome world entity change after)
    (h : world.Labeled) (hissued : ∀ {body}, world.bodies.get? entity = some body →
      entity.val ≤ world.entityIds.issued) (hlog : world.Replayed log) :
    after.Replayed (log ++ change.toList) := by
  have hlocation := outcome.location?_eq h
  have hids := outcome.sameCounters.entityIds
  cases outcome with
  | outside => rwa [Option.toList_none, List.append_nil]
  | @leaves body zone scene place location found inside =>
    obtain rfl := h found
    exact hlog.moves (location?_of_body found) (hissued found) hlocation hids

/-- A body that has left its place is in no place. -/
theorem LeaveOutcome.place?_eq (outcome : LeaveOutcome world entity change after)
    (h : world.Labeled) {location : BodyLocation}
    (hlocation : after.location? entity = some location) : location.place? = none := by
  obtain ⟨body, hbody, rfl⟩ := Option.map_eq_some_iff.mp hlocation
  have hstay := congrFun (outcome.stays h) entity
  rw [Function.update_self, World.stays, show after.bodies.get? entity = some body from hbody,
    Option.bind_some] at hstay
  rw [← body.stay?_place, hstay]
  rfl

/-- Removing a body notes the change by which it leaves its place, if it is in one. -/
theorem RemoveOutcome.replayed (outcome : RemoveOutcome world identity after)
    (h : world.Registers) :
    after.changes = world.changes ++ ((world.entityFor? identity).bind world.departure?).toList ∧
      ∀ {log}, world.Replayed log → after.Replayed
        (log ++ ((world.entityFor? identity).bind world.departure?).toList) := by
  cases outcome with
  | unknown unknown =>
    rw [entityFor?, unknown, Option.bind_none, Option.toList_none, List.append_nil]
    refine ⟨rfl, fun {log} hlog => ?_⟩
    rw [List.append_nil]
    exact hlog
  | @removes entity change left named leaves =>
    have hchange : change = world.departure? entity := leaves.change_eq
    have hlabeled : ({ world with entities := world.entities.erase identity } : World).Labeled :=
      h.labeled
    rw [entityFor?, named, Option.bind_some, ← hchange]
    refine ⟨leaves.changes, fun {log} hlog => ?_⟩
    have hunnamed : World.Replayed log { world with entities := world.entities.erase identity } :=
      ⟨hlog.issued, hlog.replays⟩
    have hleft := leaves.replayed hlabeled (fun hbody => h.issued hbody) hunnamed
    refine hleft.removes (fun location => leaves.place?_eq hlabeled) ?_ rfl
    funext other
    simp only [location?, body?, Table.get?_erase, Function.update_apply]
    split
    · rfl
    · rfl

/-- A new status leaves everyone where they are. -/
theorem StatusOutcome.location?_eq {status : OccupantStatus}
    (outcome : StatusOutcome world identity status after) (h : world.Labeled) :
    after.location? = world.location? := by
  have hmarked : ∀ {entity body}, world.bodies.get? entity = some body →
      (world.replace (body.withStatus status)).location? = world.location? := by
    intro entity body found
    rw [location?_replace]
    refine Function.update_eq_self_iff.mpr ?_
    rw [Body.withStatus, h found, location?_of_body found]
  cases outcome with
  | same => rfl
  | alone named found outside => exact hmarked found
  | shown named found inside =>
    rw [broadcast_eq]
    exact hmarked found

/-- The log leads to where the bodies are when one is made, which is nowhere yet. -/
theorem replayed_createBody (h : world.Registers)
    (hfresh : (world.createBody identity).2.entityIds.issued < 2 ^ 64)
    (hlog : world.Replayed log) : (world.createBody identity).2.Replayed log := by
  cases hknown : world.entities.get? identity with
  | some entity => rwa [createBody_of_some hknown]
  | none =>
    rw [createBody_of_none hknown] at hfresh ⊢
    have hpeek := IdGenerator.peek_val h.first hfresh
    refine hlog.starts (Nat.lt_of_succ_le (Nat.le_of_eq hpeek.symm)) ?_ (Nat.le_succ _)
    exact location?_replace world ⟨world.entityIds.peek, identity, .nowhere, .active⟩

/-- The log leads to where the bodies are when one has entered a place. -/
theorem CommitOutcome.replayed {zone : ZoneId} {place : PlaceId} {location : LocationId}
    {result : Except CommitError BodyChange}
    (outcome : CommitOutcome world entity zone place location result after) (h : world.Registers)
    (hlog : world.Replayed log) : after.Replayed (log ++ result.toOption.toList) := by
  have hids := outcome.sameCounters.entityIds
  have hmoved : ∀ {body : Body} {location : BodyLocation},
      world.bodies.get? entity = some body →
      after.location? = (world.replace (body.movedTo location)).location? →
      after.Replayed (log ++ [body.changeTo location]) := by
    intro body location found hlocation
    obtain rfl := h.labeled found
    rw [location?_replace] at hlocation
    exact hlog.moves (location?_of_body found) (h.issued found) hlocation hids
  cases outcome with
  | bodyless =>
    rw [Except.toOption, Option.toList_none, List.append_nil]
    exact hlog.congr (sameBodies_dropIfEmpty world place).location?_eq
      (Nat.le_of_eq (congrArg _ hids.symm))
  | placeless =>
    rw [Except.toOption, Option.toList_none, List.append_nil]
    exact hlog
  | full =>
    rw [Except.toOption, Option.toList_none, List.append_nil]
    exact hlog.congr (sameBodies_dropIfEmpty world place).location?_eq
      (Nat.le_of_eq (congrArg _ hids.symm))
  | @shifts body host found hosted here =>
    refine hmoved found ?_
    rw [broadcast_eq]
    rfl
  | @enters body host found hosted elsewhere room =>
    refine hmoved found ?_
    rw [broadcast_eq]
    exact (sameBodies_vacate _ _).location?_eq

end World

end SharedWorld
