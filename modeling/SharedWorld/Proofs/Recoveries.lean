import SharedWorld.Proofs.Memberships

/-!
# A mirror recovers entity by entity

Whoever mirrors a set of occupants may miss some of its changes, hear one twice, or hear two in the
other order. A change says all there is to know of its entity, so what a mirror holds of an entity
is what the last change to it says, and nothing that came before. Two accounts of the changes with
the same last change to every entity are interchangeable, and no other two are
(`MembershipTracker.agree_iff_interchangeable`). In particular a mirror is right again as soon as it
heard the latest change to each entity that it was told something wrong of.
-/

namespace SharedWorld

namespace SetDelta

variable {entity : EntityId} {first second sent heard : List SetDelta}

/-- What the last change to an entity says of it: nothing if there is no such change, and
`some none` if it left. -/
def latest? (entity : EntityId) (deltas : List SetDelta) : Option (Option OccupantInfo) :=
  (deltas.reverse.find? (·.entity = entity)).map info?

/-- What was told of an entity last was told in the later deltas, or else in the earlier ones. -/
theorem latest?_append (entity : EntityId) (earlier later : List SetDelta) :
    latest? entity (earlier ++ later) = (latest? entity later).or (latest? entity earlier) := by
  rw [latest?, List.reverse_append, List.find?_append, Option.map_or]
  rfl

/-- What was told of an entity last was told by the last delta, if that is of the entity. -/
theorem latest?_concat (entity : EntityId) (earlier : List SetDelta) (delta : SetDelta) :
    latest? entity (earlier ++ [delta]) =
      if entity = delta.entity then some delta.info? else latest? entity earlier := by
  rw [latest?, List.reverse_concat, List.find?_cons]
  by_cases hentity : entity = delta.entity
  · simp [hentity]
  · simp [hentity, Ne.symm hentity, latest?]

/-- Only the changes to an entity count for it. -/
theorem latest?_filter (entity : EntityId) (deltas : List SetDelta) :
    latest? entity (deltas.filter (·.entity = entity)) = latest? entity deltas := by
  rw [latest?, latest?, ← List.filter_reverse, List.find?_filter]
  simp

/-- Nothing was told of an entity just if no delta is of it. -/
theorem latest?_eq_none_iff {deltas : List SetDelta} :
    latest? entity deltas = none ↔ ∀ delta ∈ deltas, delta.entity ≠ entity := by
  simp [latest?]

/-- Two accounts of the changes to a set have the same last change to every entity. It does not
count whether an occupant was added or updated, only what is said of it. -/
def Agree (first second : List SetDelta) : Prop :=
  ∀ entity, latest? entity first = latest? entity second

/-- What can become of the changes on their way: some are lost, some are heard again later, and some
that are about different entities are swapped. The affected entities are those of the lost and of
the repeated changes. -/
inductive Garbles (sent : List SetDelta) :
    (affected : List EntityId) → (heard : List SetDelta) → Prop where
  | intact : Garbles sent [] sent
  | loses {affected : List EntityId} (before : List SetDelta) (delta : SetDelta)
    (after : List SetDelta)
    (garbles : Garbles sent affected (before ++ delta :: after)) :
    Garbles sent (delta.entity :: affected) (before ++ after)
  | repeats {affected : List EntityId} (before : List SetDelta) (delta : SetDelta)
    (after : List SetDelta)
    (garbles : Garbles sent affected (before ++ after)) (again : delta ∈ before) :
    Garbles sent (delta.entity :: affected) (before ++ delta :: after)
  | swaps {affected : List EntityId} {delta other : SetDelta} (before after : List SetDelta)
    (garbles : Garbles sent affected (before ++ delta :: other :: after))
    (across : delta.entity ≠ other.entity) :
    Garbles sent affected (before ++ other :: delta :: after)

/-- The changes that a mirror hears in the end are right for every affected entity, and wrong for
none. -/
structure Repairs (sent : List SetDelta) (affected : List EntityId) (repair : List SetDelta) :
    Prop where
  mends : ∀ entity ∈ affected, latest? entity repair = latest? entity sent
  spoils : ∀ entity ∉ affected,
    latest? entity repair = none ∨ latest? entity repair = latest? entity sent

/-- Nothing is heard that was not sent. -/
theorem Garbles.subset {affected : List EntityId} (garbles : Garbles sent affected heard) :
    heard ⊆ sent := by
  induction garbles with
  | intact => exact List.Subset.refl sent
  | loses before delta after garbles ih =>
    intro delta hdelta
    refine ih (List.mem_append.mpr ((List.mem_append.mp hdelta).imp_right ?_))
    exact List.mem_cons_of_mem _
  | repeats before delta after garbles again ih =>
    intro other hother
    rcases List.mem_append.mp hother with hbefore | hafter
    · exact ih (List.mem_append_left _ hbefore)
    · rcases List.mem_cons.mp hafter with rfl | hafter
      · exact ih (List.mem_append_left _ again)
      · exact ih (List.mem_append_right _ hafter)
  | swaps before after garbles across ih =>
    intro delta hdelta
    refine ih (List.mem_append.mpr ((List.mem_append.mp hdelta).imp_right fun hafter => ?_))
    simpa [or_left_comm] using hafter

/-- The changes to an entity that is not affected are heard as they were sent. -/
theorem Garbles.filter_eq {affected : List EntityId} (garbles : Garbles sent affected heard)
    (hentity : entity ∉ affected) :
    heard.filter (·.entity = entity) = sent.filter (·.entity = entity) := by
  induction garbles with
  | intact => rfl
  | loses before delta after garbles ih =>
    rw [List.mem_cons, not_or] at hentity
    rw [← ih hentity.2]
    simp [Ne.symm hentity.1]
  | repeats before delta after garbles again ih =>
    rw [List.mem_cons, not_or] at hentity
    rw [← ih hentity.2]
    simp [Ne.symm hentity.1]
  | @swaps affected delta other before after garbles across ih =>
    rw [← ih hentity, List.filter_append, List.filter_append]
    congr 1
    -- At most one of the two changes is about the entity.
    by_cases hdelta : delta.entity = entity
    · have hother : other.entity ≠ entity := fun h => across (hdelta.trans h.symm)
      simp [hdelta, hother]
    · simp [List.filter_cons, hdelta]

/-- Whatever was garbled, the latest changes to the affected entities make up for it. -/
theorem Garbles.agree {affected : List EntityId} {repair : List SetDelta}
    (garbles : Garbles sent affected heard) (repairs : Repairs sent affected repair) :
    Agree sent (heard ++ repair) := by
  intro entity
  rw [latest?_append]
  have hunaffected : entity ∉ affected → latest? entity heard = latest? entity sent := by
    intro hentity
    rw [← latest?_filter, garbles.filter_eq hentity, latest?_filter]
  have hunsent : latest? entity sent = none → latest? entity heard = none := by
    intro hnone
    rw [latest?_eq_none_iff] at hnone ⊢
    exact fun delta hdelta => hnone delta (garbles.subset hdelta)
  have hrepair : latest? entity repair = latest? entity sent →
      latest? entity sent = (latest? entity repair).or (latest? entity heard) := by
    intro heq
    cases hsent : latest? entity sent with
    | none => rw [heq, hsent, hunsent hsent, Option.or_none]
    | some info? => rw [heq, hsent, Option.some_or]
  by_cases hentity : entity ∈ affected
  · exact hrepair (repairs.mends entity hentity)
  · rcases repairs.spoils entity hentity with hnone | heq
    · rw [hnone, hunaffected hentity, Option.none_or]
    · exact hrepair heq

end SetDelta

namespace OccupantSet

/-- The set after a list of changes. -/
def applyAll (set : OccupantSet) (deltas : List SetDelta) : OccupantSet := deltas.foldl apply set

/-- What a set holds of an entity is what the last change to it says. -/
theorem get?_applyAll (set : OccupantSet) (deltas : List SetDelta) (entity : EntityId) :
    (set.applyAll deltas).get? entity =
      (SetDelta.latest? entity deltas).getD (set.get? entity) := by
  induction deltas using List.reverseRecOn with
  | nil => rfl
  | append_singleton earlier delta ih =>
    have hconcat : set.applyAll (earlier ++ [delta]) = (set.applyAll earlier).apply delta := by
      simp [applyAll]
    rw [hconcat, get?_apply, SetDelta.latest?_concat, ih]
    by_cases hentity : entity = delta.entity
    · rw [if_pos hentity, if_pos hentity, Option.getD_some]
    · rw [if_neg hentity, if_neg hentity]

/-- Two accounts of the changes lead to the same set from wherever they start exactly if they
agree. -/
theorem applyAll_eq_iff {first second : List SetDelta} :
    (∀ set : OccupantSet, set.applyAll first = set.applyAll second) ↔
      SetDelta.Agree first second := by
  constructor
  · intro heq entity
    have hget (set : OccupantSet) : (SetDelta.latest? entity first).getD (set.get? entity) =
        (SetDelta.latest? entity second).getD (set.get? entity) := by
      rw [← get?_applyAll, ← get?_applyAll, heq set]
    -- An account that does not mention the entity keeps it, and keeps it out.
    have hout := hget Table.empty
    have hin := hget (OccupantSet.put Table.empty ⟨entity, ⟨""⟩, .active, none⟩)
    rw [put, Table.get?_insert_self] at hin
    rw [Table.get?_empty] at hout
    cases hfirst : SetDelta.latest? entity first with
    | none =>
      cases hsecond : SetDelta.latest? entity second with
      | none => rfl
      | some info? =>
        rw [hfirst, hsecond] at hout hin
        exact absurd (hout.trans hin.symm) (Option.some_ne_none _).symm
    | some info? =>
      cases hsecond : SetDelta.latest? entity second with
      | none =>
        rw [hfirst, hsecond] at hout hin
        exact absurd (hin.symm.trans hout) (Option.some_ne_none _)
      | some info?' =>
        rw [hfirst, hsecond] at hout
        exact congrArg some hout
  · intro hagree set
    refine Table.ext_get? fun entity => ?_
    rw [get?_applyAll, get?_applyAll, hagree entity]

/-- The arrival was lost, and an update makes up for it. -/
example : applyAll Table.empty [.updated ⟨1, ⟨"ada"⟩, .active, some 2⟩] = applyAll Table.empty
    [.added ⟨1, ⟨"ada"⟩, .active, none⟩, .updated ⟨1, ⟨"ada"⟩, .active, some 2⟩] := by decide

end OccupantSet

namespace MembershipTracker

variable {tracker : MembershipTracker} {me : Identity} {collection : String}

/-- The tracker after deltas of some places and collections. -/
def hear (tracker : MembershipTracker) (heard : List (PlaceId × OccupantDelta)) :
    MembershipTracker := tracker.run (heard.map fun message => .applies message.1 message.2)

instance (tracker : MembershipTracker) (place : PlaceId) (delta : OccupantDelta) :
    Decidable (tracker.Heeds place delta) := inferInstanceAs (Decidable (_ ∧ _))

/-- The changes, among those heard, to the set that a tracker mirrors. -/
def heeded (tracker : MembershipTracker) (heard : List (PlaceId × OccupantDelta)) :
    List SetDelta :=
  (heard.filter fun message => tracker.Heeds message.1 message.2).map (·.2.delta)

/-- A tracker hears what is for it, and stays with the place it mirrors. -/
theorem hear_fields (tracker : MembershipTracker) (heard : List (PlaceId × OccupantDelta)) :
    (tracker.hear heard).place = tracker.place ∧
      (tracker.hear heard).occupants = tracker.occupants.applyAll (tracker.heeded heard) := by
  induction heard generalizing tracker with
  | nil => exact ⟨rfl, rfl⟩
  | cons message rest ih =>
    obtain ⟨place, delta⟩ := message
    have hcons : tracker.hear ((place, delta) :: rest) =
        (tracker.apply place delta).tracker.hear rest := rfl
    rw [hcons, heeded, List.filter_cons]
    by_cases heeds : tracker.Heeds place delta
    · have hnext : (tracker.apply place delta).tracker =
          { tracker with
            occupants := tracker.occupants.apply delta.delta
            member := (tracker.occupants.apply delta.delta).hasMember tracker.me } := by
        rw [heeds.apply_eq, reconcile_tracker, heeds.1]
      obtain ⟨hplace, hoccupants⟩ := ih (tracker.apply place delta).tracker
      rw [hnext] at hplace hoccupants ⊢
      rw [if_pos (decide_eq_true heeds)]
      exact ⟨hplace, hoccupants⟩
    · rw [apply_of_not_heeds heeds, if_neg fun h => heeds (of_decide_eq_true h)]
      exact ih tracker

/-- Two accounts of the changes to a set leave the same set behind. A tracker in whatever state that
hears one of them, among deltas that are not for it, mirrors this set in the end, and knows whether
its participant is in it. -/
structure Interchangeable (first second : List SetDelta) : Prop where
  set_eq : ∀ set : OccupantSet, set.applyAll first = set.applyAll second
  mirrored : ∀ {me collection events tracker},
    (forCollection me collection).run events = tracker →
    ∀ {heard}, tracker.heeded heard = first ∨ tracker.heeded heard = second →
      (tracker.hear heard).place = tracker.place ∧
        (tracker.hear heard).occupants = tracker.occupants.applyAll first ∧
        (tracker.hear heard).member = (tracker.occupants.applyAll first).hasMember me

/-- Deltas that agree in what they tell last can be interchanged. -/
theorem interchangeable_of_agree {first second : List SetDelta}
    (hagree : SetDelta.Agree first second) : Interchangeable first second := by
  have hset := OccupantSet.applyAll_eq_iff.mpr hagree
  refine ⟨hset, ?_⟩
  rintro me collection events tracker rfl heard hheard
  have hknows : (((forCollection me collection).run events).hear heard).Knows me collection :=
    (run_knows me collection events).run _
  generalize (forCollection me collection).run events = tracker at hheard hknows ⊢
  obtain ⟨hplace, hoccupants⟩ := tracker.hear_fields heard
  have hfirst : (tracker.hear heard).occupants = tracker.occupants.applyAll first := by
    rcases hheard with hheard | hheard
    · rw [hoccupants, hheard]
    · rw [hoccupants, hheard, hset]
  exact ⟨hplace, hfirst, by rw [hknows.member_eq, hfirst]⟩

/-- Two accounts of the changes to a set are interchangeable exactly if the last change to each
entity is the same. So whatever was lost, repeated or swapped on the way, nothing of it lasts once
the latest change to each affected entity was heard. -/
theorem agree_iff_interchangeable (first second : List SetDelta) :
    (SetDelta.Agree first second ↔ Interchangeable first second) ∧
      ∀ {affected heard repair}, SetDelta.Garbles first affected heard →
        SetDelta.Repairs first affected repair → Interchangeable first (heard ++ repair) :=
  ⟨⟨interchangeable_of_agree, fun h => OccupantSet.applyAll_eq_iff.mp h.set_eq⟩,
    fun garbles repairs => interchangeable_of_agree (garbles.agree repairs)⟩

/-- Ada's arrival and her update are lost, and Bob's arrival is heard once more after he left. The
latest changes to both set the mirror right. -/
theorem lost_and_repeated_recover :
    let ada : OccupantInfo := ⟨1, ⟨"ada"⟩, .active, none⟩
    let bob : OccupantInfo := ⟨2, ⟨"bob"⟩, .active, none⟩
    let sent : List SetDelta := [.added ada, .added bob, .removed 2, .updated ada]
    let heard : List SetDelta := [.added bob, .removed 2, .added bob]
    let repair : List SetDelta := [.updated ada, .removed 2]
    SetDelta.Garbles sent [1, 2, 1] heard ∧ SetDelta.Repairs sent [1, 2, 1] repair ∧
      Interchangeable sent (heard ++ repair) := by
  intro ada bob sent heard repair
  have lost : SetDelta.Garbles sent [1] [.added bob, .removed 2, .updated ada] :=
    .loses [] (.added ada) [.added bob, .removed 2, .updated ada] .intact
  have repeated : SetDelta.Garbles sent [2, 1]
      [.added bob, .removed 2, .updated ada, .added bob] :=
    .repeats [.added bob, .removed 2, .updated ada] (.added bob) [] lost (by decide)
  have swapped : SetDelta.Garbles sent [2, 1]
      [.added bob, .removed 2, .added bob, .updated ada] :=
    .swaps [.added bob, .removed 2] [] repeated (by decide)
  have garbles : SetDelta.Garbles sent [1, 2, 1] heard :=
    .loses [.added bob, .removed 2, .added bob] (.updated ada) [] swapped
  have repairs : SetDelta.Repairs sent [1, 2, 1] repair := by
    refine ⟨by decide, fun entity hentity => .inl ?_⟩
    rw [SetDelta.latest?_eq_none_iff]
    rintro delta hdelta rfl
    revert delta
    decide
  exact ⟨garbles, repairs, (agree_iff_interchangeable sent (heard ++ repair)).2 garbles repairs⟩

end MembershipTracker

end SharedWorld
