import SharedWorld.Client.Basic
import SharedWorld.Proofs.Consistency
import SharedWorld.Proofs.Replies

/-!
# What a participant is shown

A participant that follows every message the simulation has for it has a copy of the place its body
is in, and knows where in the place the body stands (`World.ShownTo`). The answer to a move brings a
full account of the place, and every later change of the place is told to all its occupants. A
participant whose body is in no place may hold an old copy of some place, but one that does not list
it: a body that is taken out of a place is told so itself.
-/

namespace SharedWorld

/-! ## Following messages -/

/-- Where a participant takes itself to be, and whom it sees there. -/
structure View where
  location : Option ClientLocation
  place : Option PlaceId
  occupants : OccupantSet

namespace View

/-- The view of a participant that was shown nothing. -/
def blank : View := ⟨none, none, Table.empty⟩

/-- A view after a message. Every move that is confirmed counts. -/
def hear (view : View) : ServerMessage → View
  | .response ⟨_, .success (.moved reply)⟩ =>
    ⟨some ⟨reply.zone.zone, reply.scene, reply.place, reply.location⟩, some reply.place,
      .ofInfos reply.occupants⟩
  | .occupants place delta =>
    if view.place = some place ∧ delta.collection = occupantsCollection then
      { view with occupants := view.occupants.apply delta.delta }
    else view
  | _ => view

end View

/-- The messages to a participant in the course of the effects. -/
def Effect.heardBy (me : Identity) (effects : List Effect) : List ServerMessage :=
  effects.filterMap fun effect => effect.delivery?.bind fun (recipient, content) =>
    if recipient = me then some content else none

/-- Messages are heard in the order of the effects. -/
theorem Effect.heardBy_append (me : Identity) (first rest : List Effect) :
    Effect.heardBy me (first ++ rest) = Effect.heardBy me first ++ Effect.heardBy me rest :=
  List.filterMap_append

/-- A view after the messages to the participant in the course of the effects. -/
def View.follow (view : View) (me : Identity) (effects : List Effect) : View :=
  (Effect.heardBy me effects).foldl hear view

/-- A view follows effects one after the other. -/
theorem View.follow_append (view : View) (me : Identity) (first rest : List Effect) :
    view.follow me (first ++ rest) = (view.follow me first).follow me rest := by
  rw [follow, Effect.heardBy_append, List.foldl_append]
  rfl

/-- A view stays where nothing takes place. -/
theorem View.follow_nil (view : View) (me : Identity) : view.follow me [] = view := rfl

/-- An answer is heard by the caller of its request. -/
theorem View.follow_answer (view : View) (me : Identity) (listener : Listener) (answer : Answer) :
    view.follow me [.answer listener answer] =
      if listener.caller = me then view.hear (listener.response answer) else view := by
  simp only [follow, Effect.heardBy, List.filterMap_cons, List.filterMap_nil, Effect.delivery?,
    Option.bind_some]
  by_cases hcaller : listener.caller = me
  · simp only [if_pos hcaller, List.foldl_cons, List.foldl_nil]
  · simp only [if_neg hcaller, List.foldl_nil]

/-- A failed request changes no view. -/
theorem View.follow_failure (view : View) (me : Identity) (listener : Listener) (fault : Fault) :
    view.follow me [.answer listener (.failure fault)] = view := by
  rw [follow_answer]
  split
  · rfl
  · rfl

/-- News of another place are ignored. -/
theorem View.hear_of_ne {view : View} {place : PlaceId} (h : view.place ≠ some place)
    (delta : OccupantDelta) : view.hear (.occupants place delta) = view :=
  if_neg fun hboth => h hboth.1

/-- A view applies the deltas of its own place. -/
theorem View.hear_of_eq {view : View} {place : PlaceId} (h : view.place = some place)
    (delta : SetDelta) : view.hear (.occupants place (.ofOccupants delta)) =
      { view with occupants := view.occupants.apply delta } :=
  if_pos ⟨h, rfl⟩

/-- Hearing the same news twice is hearing them once. -/
theorem View.hear_hear (view : View) (place : PlaceId) (delta : SetDelta) :
    (view.hear (.occupants place (.ofOccupants delta))).hear
        (.occupants place (.ofOccupants delta)) =
      view.hear (.occupants place (.ofOccupants delta)) := by
  by_cases hplace : view.place = some place
  · have htwice : (view.occupants.apply delta).apply delta = view.occupants.apply delta := by
      apply Table.ext_get?
      intro entity
      cases delta with
      | added info => simp only [OccupantSet.apply, OccupantSet.put, Table.get?_insert]; grind
      | updated info => simp only [OccupantSet.apply, OccupantSet.put, Table.get?_insert]; grind
      | removed other => simp only [OccupantSet.apply, Table.get?_erase]; grind
    have hagain : ({ view with occupants := view.occupants.apply delta } : View).place =
        some place := hplace
    rw [hear_of_eq hplace, hear_of_eq hagain, htwice]
  · rw [hear_of_ne hplace, hear_of_ne hplace]

/-- News that are sent to a list of participants are heard by those on the list. -/
theorem View.follow_sent (view : View) (me : Identity) (recipients : List Identity)
    (place : PlaceId) (delta : SetDelta) :
    view.follow me (recipients.map (Effect.message · (.occupants place (.ofOccupants delta)))) =
      if me ∈ recipients then view.hear (.occupants place (.ofOccupants delta)) else view := by
  induction recipients generalizing view with
  | nil => simp [follow_nil]
  | cons recipient rest ih =>
    have hsplit := follow_append view me
      [.message recipient (.occupants place (.ofOccupants delta))]
      (rest.map (Effect.message · (.occupants place (.ofOccupants delta))))
    have hfirst : view.follow me [.message recipient (.occupants place (.ofOccupants delta))] =
        if recipient = me then view.hear (.occupants place (.ofOccupants delta)) else view := by
      by_cases hme : recipient = me
      · simp [follow, Effect.heardBy, Effect.delivery?, hme]
      · simp [follow, Effect.heardBy, Effect.delivery?, hme]
    rw [List.map_cons]
    refine hsplit.trans ?_
    rw [hfirst, ih]
    by_cases hme : recipient = me
    · subst hme
      simp only [if_true, List.mem_cons, true_or, hear_hear, ite_self]
    · have hne : me ≠ recipient := fun heq => hme heq.symm
      simp only [if_neg hme, List.mem_cons, hne, false_or]

/-! ## Sets of occupants -/

namespace OccupantSet

variable {set : OccupantSet} {identity : Identity}

/-- The identities of a set are those of its occupants. -/
theorem mem_identities_iff : identity ∈ set.identities ↔
    ∃ entity info, set.get? entity = some info ∧ info.identity = identity := by
  simp only [identities, List.mem_map, Table.mem_values_iff]
  constructor
  · rintro ⟨info, ⟨entity, hinfo⟩, hidentity⟩
    exact ⟨entity, info, hinfo, hidentity⟩
  · rintro ⟨entity, info, hinfo, hidentity⟩
    exact ⟨info, ⟨entity, hinfo⟩, hidentity⟩

/-- A set has the members whose identities are in it. -/
theorem hasMember_iff : set.hasMember identity = true ↔ identity ∈ set.identities := by
  simp only [hasMember, List.contains_iff_mem]

/-- A set does not have the members whose identities are not in it. -/
theorem hasMember_eq_false_iff : set.hasMember identity = false ↔ identity ∉ set.identities := by
  rw [← hasMember_iff, Bool.not_eq_true]

/-- What is known of an entity after some occupants were put into a set. -/
theorem get?_foldl_put {entity : EntityId} {known : Option OccupantInfo}
    (infos : List OccupantInfo) (set : OccupantSet)
    (hinfos : ∀ info ∈ infos, info.entity = entity → known = some info)
    (hknown : (∃ info ∈ infos, info.entity = entity) ∨ set.get? entity = known) :
    (infos.foldl put set).get? entity = known := by
  induction infos generalizing set with
  | nil => simpa using hknown
  | cons info rest ih =>
    have hrest : ∀ info ∈ rest, info.entity = entity → known = some info :=
      fun other hother => hinfos other (List.mem_cons_of_mem _ hother)
    refine ih (set.put info) hrest ?_
    have hput : (set.put info).get? entity =
        if entity = info.entity then some info else set.get? entity := Table.get?_insert _ _ _ _
    by_cases hentity : info.entity = entity
    · right
      rw [hput, if_pos hentity.symm, hinfos info List.mem_cons_self hentity]
    · rcases hknown with ⟨other, hother, hsame⟩ | hset
      · left
        refine ⟨other, (List.mem_cons.mp hother).resolve_left ?_, hsame⟩
        rintro rfl
        exact hentity hsame
      · right
        rw [hput, if_neg fun heq => hentity heq.symm, hset]

/-- A full account of a set gives the set. -/
theorem ofInfos_values (h : ∀ {entity info}, set.get? entity = some info → info.entity = entity) :
    ofInfos set.values = set := by
  apply Table.ext_get?
  intro entity
  apply get?_foldl_put
  · intro info hinfo hentity
    obtain ⟨key, hkey⟩ := Table.mem_values_iff.mp hinfo
    rw [← hentity, h hkey, hkey]
  · cases hget : set.get? entity with
    | none => exact .inr rfl
    | some info => exact .inl ⟨info, Table.mem_values_iff.mpr ⟨entity, hget⟩, h hget⟩

end OccupantSet

/-! ## What a participant should be shown -/

namespace World

variable {before after world : World} {me : Identity} {view view' : View} {place : PlaceId}
  {spare : List PlaceId}

/-- A body of the participant is at the location. -/
def Stands (world : World) (me : Identity) (location : BodyLocation) : Prop :=
  ∃ entity body, world.bodies.get? entity = some body ∧ body.identity = me ∧
    body.location = location

/-- A body of the participant is in the place. -/
def Within (world : World) (me : Identity) (place : PlaceId) : Prop :=
  ∃ location, world.Stands me location ∧ location.place? = some place

/-- The view is what the participant should be shown of the world. -/
structure ShownTo (world : World) (me : Identity) (view : View) : Prop where
  /-- A participant whose body is in a place knows where, and sees the occupants. -/
  inside : ∀ {zone scene place location host}, world.Stands me (.inside zone scene place location) →
    world.places.get? place = some host →
    view = ⟨some ⟨zone, scene, place, location⟩, some place, host.occupants⟩
  /-- A participant whose body is in no place sees a place it is not in. -/
  outside : (∀ {place}, ¬world.Within me place) → view.occupants.hasMember me = false

/-- The occupants of a place are the participants with a body in it. -/
theorem Houses.mem_identities_iff (houses : world.Houses world.stays spare) {host : Place}
    (hhost : world.places.get? place = some host) :
    me ∈ host.occupants.identities ↔ world.Within me place := by
  rw [OccupantSet.mem_identities_iff]
  constructor
  · rintro ⟨entity, info, hinfo, hidentity⟩
    obtain ⟨body, hbody, hplace, -, rfl⟩ := houses.exists_body hhost hinfo
    exact ⟨body.location, ⟨entity, body, hbody, hidentity, rfl⟩, hplace⟩
  · rintro ⟨location, ⟨entity, body, hbody, hidentity, rfl⟩, hplace⟩
    obtain ⟨host', hhost', -, hin⟩ := houses.exists_host hbody hplace
    cases hhost.symm.trans hhost'
    exact ⟨entity, body.occupantInfo, hin, hidentity⟩

/-- A place with a participant's body in it is there. -/
theorem Houses.exists_of_within (houses : world.Houses world.stays spare)
    (h : world.Within me place) : ∃ host, world.places.get? place = some host := by
  obtain ⟨location, ⟨entity, body, hbody, -, rfl⟩, hplace⟩ := h
  obtain ⟨host, hhost, -⟩ := houses.exists_host hbody hplace
  exact ⟨host, hhost⟩

/-- Who is within a place depends on where the bodies stand. -/
theorem within_congr (hstands : ∀ {location}, after.Stands me location ↔ before.Stands me location)
    (place : PlaceId) : after.Within me place ↔ before.Within me place :=
  exists_congr fun _ => and_congr_left fun _ => hstands

/-- A change that leaves the participant's body where it is. What the participant is told meanwhile
has to change its view as the occupants of its own place changed. -/
theorem ShownTo.step (h : before.ShownTo me view) (houses : before.Houses before.stays spare)
    (hstands : ∀ {location}, after.Stands me location ↔ before.Stands me location)
    (hin : ∀ {place host host'}, before.Within me place → before.places.get? place = some host →
      after.places.get? place = some host' → view.place = some place →
      view.occupants = host.occupants → view' = { view with occupants := host'.occupants })
    (hout : (∀ {place}, ¬before.Within me place) → view' = view) : after.ShownTo me view' where
  inside := by
    intro zone scene place location host' hhere hhost'
    have hbefore := hstands.mp hhere
    have hwithin : before.Within me place := ⟨_, hbefore, rfl⟩
    obtain ⟨host, hhost⟩ := houses.exists_of_within hwithin
    have hview := h.inside hbefore hhost
    rw [hin hwithin hhost hhost' (by rw [hview]) (by rw [hview]), hview]
  outside := by
    intro hnowhere
    have hbefore : ∀ {place}, ¬before.Within me place :=
      fun {place} hwithin => hnowhere ((within_congr hstands place).mpr hwithin)
    rw [hout hbefore]
    exact h.outside hbefore

/-- The places that are there before and after have the same occupants. -/
def SameCrowds (before after : World) : Prop :=
  ∀ {place host host'}, before.places.get? place = some host →
    after.places.get? place = some host' → host'.occupants = host.occupants

/-- Where nobody comes and goes, there is nothing to tell. -/
theorem ShownTo.quiet (h : before.ShownTo me view) (houses : before.Houses before.stays spare)
    (hstands : ∀ {location}, after.Stands me location ↔ before.Stands me location)
    (hcrowds : before.SameCrowds after) : after.ShownTo me view := by
  refine h.step houses hstands (fun _ hhost hhost' _ hoccupants => ?_) fun _ => rfl
  rw [hcrowds hhost hhost', ← hoccupants]

/-- A change of the occupants of one place has to be heard by those in it. -/
theorem ShownTo.told (h : before.ShownTo me view) (houses : before.Houses before.stays spare)
    (hstands : ∀ {location}, after.Stands me location ↔ before.Stands me location)
    {host : Place} {delta : SetDelta} {heard : Prop} [Decidable heard]
    (hhost : before.places.get? place = some host)
    (hplace : ∀ {host'}, after.places.get? place = some host' →
      host'.occupants = host.occupants.apply delta)
    (hothers : ∀ {other host host'}, other ≠ place → before.places.get? other = some host →
      after.places.get? other = some host' → host'.occupants = host.occupants)
    (hheard : heard ↔ before.Within me place) :
    after.ShownTo me
      (if heard then view.hear (.occupants place (.ofOccupants delta)) else view) := by
  apply h.step houses hstands
  · intro other old new hwithin hold hnew hview hoccupants
    by_cases hother : other = place
    · subst hother
      cases hhost.symm.trans hold
      rw [if_pos (hheard.mpr hwithin), View.hear_of_eq hview, hplace hnew, hoccupants]
    · have hne : view.place ≠ some place := by
        rw [hview]
        exact fun heq => hother (Option.some.inj heq)
      rw [View.hear_of_ne hne, ite_self, hothers hother hold hnew, ← hoccupants]
  · intro hnowhere
    exact if_neg fun hhears => hnowhere (hheard.mp hhears)

/-- The messages of a broadcast are heard by the occupants, and by one more participant. -/
theorem follow_notices {host : Place} (hhost : world.places.get? place = some host) (view : View)
    (me : Identity) (delta : SetDelta) (also : Option Identity) :
    view.follow me (world.notices place delta also) =
      if me ∈ host.occupants.identities ∨ also = some me then
        view.hear (.occupants place (.ofOccupants delta)) else view := by
  simp only [notices, hhost]
  rw [View.follow_sent]
  refine if_congr ?_ rfl rfl
  simp only [List.mem_append, List.mem_filter, Option.mem_toList, Bool.not_eq_true',
    List.contains_eq_mem, decide_eq_false_iff_not]
  constructor
  · rintro (hin | ⟨halso, -⟩)
    · exact .inl hin
    · exact .inr halso
  · rintro (hin | halso)
    · exact .inl hin
    · by_cases hin : me ∈ host.occupants.identities
      · exact .inl hin
      · exact .inr ⟨halso, hin⟩

/-- The messages about a body that leaves a place are heard by those who stay, and by its
participant. -/
theorem follow_departures {change : BodyChange} {zone : ZoneId} {scene : SceneId}
    {location : LocationId} {host : Place}
    (hbefore : change.before = .inside zone scene place location)
    (hhost : world.places.get? place = some host) (view : View) (me : Identity) :
    view.follow me (world.departures change) =
      if me ∈ OccupantSet.identities (host.occupants.erase change.entity) ∨
          change.identity = me then
        view.hear (.occupants place (.ofOccupants (.removed change.entity))) else view := by
  have hleft : (world.changeOccupants place (Table.erase · change.entity)).places.get? place =
      some { host with occupants := host.occupants.erase change.entity } := by
    simp only [get?_changeOccupants, hhost, Option.map_some, if_true]
  simp only [departures, hbefore]
  rw [follow_notices hleft]
  simp only [Option.some.injEq]

/-! ## Bodies that move -/

variable {entity : EntityId} {body : Body}

/-- No two bodies belong to the same participant. -/
def Distinct (world : World) : Prop :=
  ∀ {entity entity' body body'}, world.bodies.get? entity = some body →
    world.bodies.get? entity' = some body' → body.identity = body'.identity → entity = entity'

/-- Where the register is right, no two bodies are of the same participant. -/
theorem Registers.distinct (h : world.Registers) : world.Distinct := by
  intro entity entity' body body' hbody hbody' hidentity
  have hfirst := h.entity_iff.mpr ⟨body, hbody, hidentity⟩
  have hsecond := h.entity_iff.mpr ⟨body', hbody', rfl⟩
  exact Option.some.inj (hfirst.symm.trans hsecond)

/-- Where a participant stands depends on the bodies alone. -/
theorem SameBodies.stands (h : before.SameBodies after) {location : BodyLocation} :
    after.Stands me location ↔ before.Stands me location := by
  simp only [Stands, h.bodies]

/-- A body that is replaced stands where it did, for everyone it is not moved for. -/
theorem Labeled.stands_replace (h : world.Labeled) (found : world.bodies.get? entity = some body)
    (body' : Body) (hentity : body'.entity = body.entity)
    (hidentity : body'.identity = body.identity)
    (hkept : body.identity = me → body'.location = body.location) {location : BodyLocation} :
    (world.replace body').Stands me location ↔ world.Stands me location := by
  have hget : ∀ other, (world.replace body').bodies.get? other =
      if other = entity then some body' else world.bodies.get? other := by
    intro other
    rw [← h found, ← hentity]
    exact Table.get?_insert _ _ _ _
  constructor
  · rintro ⟨other, old, hold, hme, hlocation⟩
    rw [hget] at hold
    split at hold
    · cases hold
      rw [hidentity] at hme
      rw [hkept hme] at hlocation
      exact ⟨entity, body, found, hme, hlocation⟩
    · exact ⟨other, old, hold, hme, hlocation⟩
  · rintro ⟨other, old, hold, hme, hlocation⟩
    by_cases hother : other = entity
    · rw [hother, found] at hold
      cases hold
      refine ⟨entity, body', ?_, hidentity.trans hme, (hkept hme).trans hlocation⟩
      rw [hget, if_pos rfl]
    · refine ⟨other, old, ?_, hme, hlocation⟩
      rw [hget, if_neg hother, hold]

/-- A body that is replaced stands where it is put. -/
theorem Labeled.stands_replace_self (h : world.Labeled) (hdistinct : world.Distinct)
    (found : world.bodies.get? entity = some body) (body' : Body)
    (hentity : body'.entity = body.entity) (hidentity : body'.identity = body.identity)
    {location : BodyLocation} :
    (world.replace body').Stands body.identity location ↔ body'.location = location := by
  have hget : ∀ other, (world.replace body').bodies.get? other =
      if other = entity then some body' else world.bodies.get? other := by
    intro other
    rw [← h found, ← hentity]
    exact Table.get?_insert _ _ _ _
  constructor
  · rintro ⟨other, old, hold, hme, hlocation⟩
    rw [hget] at hold
    split at hold
    · cases hold
      exact hlocation
    · exact absurd (hdistinct hold found hme) ‹_›
  · intro hlocation
    refine ⟨entity, body', ?_, hidentity, hlocation⟩
    rw [hget, if_pos rfl]

/-- A place that is left when one was dropped was there before. -/
theorem get?_of_dropIfEmpty {other : PlaceId} {host : Place}
    (h : (world.dropIfEmpty place).places.get? other = some host) :
    world.places.get? other = some host := by
  unfold dropIfEmpty at h
  split at h
  · exact h
  · split at h
    · change (world.places.erase place).get? other = some host at h
      rw [Table.get?_erase] at h
      split at h
      · cases h
      · exact h
    · exact h

/-- Undoing a stay takes the body out of the occupants of its place. -/
theorem occupants_vacate {change : BodyChange} {host' : Place}
    (h : (world.vacate change).places.get? place = some host') :
    ∃ host, world.places.get? place = some host ∧ host'.occupants =
      if change.before.place? = some place then host.occupants.erase change.entity
      else host.occupants := by
  by_cases hplace : change.before.place? = some place
  · obtain ⟨zone, scene, location, hbefore⟩ := BodyLocation.place?_eq_some_iff.mp hplace
    simp only [vacate, hbefore] at h
    cases hhost : world.places.get? place with
    | none =>
      simp only [hhost, reduceCtorEq] at h
    | some host =>
      refine ⟨host, rfl, ?_⟩
      simp only [hhost, broadcast_eq] at h
      have hleft := get?_of_dropIfEmpty h
      have hchanged : (world.changeOccupants place (Table.erase · change.entity)).places.get?
          place = some host' := hleft
      simp only [get?_changeOccupants, hhost, Option.map_some, if_true, Option.some.injEq]
        at hchanged
      rw [if_pos hplace, ← hchanged]
  · rw [get?_vacate_of_ne world change hplace] at h
    exact ⟨host', h, by rw [if_neg hplace]⟩

/-- Somebody who is not a body's participant is among those who stay exactly if it is in the
place. -/
theorem Houses.mem_erase_iff (houses : world.Houses world.stays spare) {host : Place}
    (hhost : world.places.get? place = some host) (found : world.bodies.get? entity = some body)
    (hne : body.identity ≠ me) :
    me ∈ OccupantSet.identities (host.occupants.erase entity) ↔ world.Within me place := by
  rw [← houses.mem_identities_iff hhost, OccupantSet.mem_identities_iff,
    OccupantSet.mem_identities_iff]
  constructor
  · rintro ⟨other, info, hinfo, hme⟩
    rw [Table.get?_erase] at hinfo
    split at hinfo
    · cases hinfo
    · exact ⟨other, info, hinfo, hme⟩
  · rintro ⟨other, info, hinfo, hme⟩
    refine ⟨other, info, ?_, hme⟩
    rw [Table.get?_erase, if_neg, hinfo]
    rintro rfl
    obtain ⟨body', hbody', -, -, rfl⟩ := houses.exists_body hhost hinfo
    cases found.symm.trans hbody'
    exact hne hme

/-- Putting what a body tells does not change who is in a place, but for the body's participant. -/
theorem Houses.mem_put_iff (houses : world.Houses world.stays spare) {host : Place}
    {info : OccupantInfo} (hhost : world.places.get? place = some host)
    (found : world.bodies.get? info.entity = some body) (hidentity : info.identity = body.identity)
    (hwithin : body.identity = me → body.location.place? = some place) :
    me ∈ (host.occupants.put info).identities ↔ world.Within me place := by
  have hget : ∀ other, (host.occupants.put info).get? other =
      if other = info.entity then some info else host.occupants.get? other :=
    fun other => Table.get?_insert _ _ _ _
  rw [OccupantSet.mem_identities_iff]
  constructor
  · rintro ⟨other, known, hknown, hme⟩
    rw [hget] at hknown
    split at hknown
    · cases hknown
      have hbody : body.identity = me := hidentity.symm.trans hme
      exact ⟨body.location, ⟨_, body, found, hbody, rfl⟩, hwithin hbody⟩
    · refine (houses.mem_identities_iff hhost).mp ?_
      exact OccupantSet.mem_identities_iff.mpr ⟨other, known, hknown, hme⟩
  · intro hhere
    obtain ⟨other, known, hknown, hme⟩ :=
      OccupantSet.mem_identities_iff.mp ((houses.mem_identities_iff hhost).mpr hhere)
    by_cases hother : other = info.entity
    · refine ⟨other, info, by rw [hget, if_pos hother], ?_⟩
      rw [hother] at hknown
      obtain ⟨body', hbody', -, -, rfl⟩ := houses.exists_body hhost hknown
      cases found.symm.trans hbody'
      exact hidentity.trans hme
    · exact ⟨other, known, by rw [hget, if_neg hother, hknown], hme⟩

/-! ## What the operations on bodies tell -/

/-- A view shows a world as long as its bodies and places stay the same. -/
theorem ShownTo.of_same (h : before.ShownTo me view) (hbodies : after.bodies = before.bodies)
    (hplaces : after.places = before.places) : after.ShownTo me view := by
  refine ⟨fun hhere hhost => ?_, fun hnowhere => h.outside ?_⟩
  · rw [hplaces] at hhost
    refine h.inside ?_ hhost
    simpa only [Stands, hbodies] using hhere
  · intro place hwithin
    refine hnowhere (?_ : after.Within me place)
    simpa only [Within, Stands, hbodies] using hwithin

/-- A participant that follows what the simulation did from one world to the other is shown the
other, if it was shown the one. -/
def Shows (me : Identity) (before after : World) : Prop :=
  ∃ new, after.effects = before.effects ++ new ∧
    ∀ {view}, before.ShownTo me view → after.ShownTo me (view.follow me new)

/-- Nothing has to be shown when nothing is done. -/
theorem Shows.refl (me : Identity) (world : World) : Shows me world world :=
  ⟨[], (List.append_nil _).symm, id⟩

/-- Everything is shown step by step. -/
theorem Shows.trans {middle : World} (first : Shows me before middle)
    (rest : Shows me middle after) : Shows me before after := by
  obtain ⟨new, heffects, hfirst⟩ := first
  obtain ⟨new', heffects', hrest⟩ := rest
  refine ⟨new ++ new', ?_, fun {view} hview => ?_⟩
  · rw [heffects', heffects, List.append_assoc]
  · rw [View.follow_append]
    exact hrest (hfirst hview)

/-- An operation that tells nothing. -/
theorem Shows.of_quiet (heffects : after.effects = before.effects)
    (h : ∀ {view}, before.ShownTo me view → after.ShownTo me view) : Shows me before after :=
  ⟨[], heffects.trans (List.append_nil _).symm, h⟩

/-- Nothing has to be shown while bodies, places and effects stay the same. -/
theorem shows_of_same (hbodies : after.bodies = before.bodies)
    (hplaces : after.places = before.places) (heffects : after.effects = before.effects) :
    Shows me before after :=
  .of_quiet heffects fun hview => hview.of_same hbodies hplaces

/-- A broadcast is heard by the occupants of its place. -/
theorem shows_broadcast {middle : World} {new : List Effect} {host : Place} {delta : SetDelta}
    (heffects : middle.effects = before.effects ++ new)
    (hhost : middle.places.get? place = some host)
    (h : ∀ {view}, before.ShownTo me view → middle.ShownTo me
      (if me ∈ host.occupants.identities then
        (view.follow me new).hear (.occupants place (.ofOccupants delta))
      else view.follow me new)) :
    Shows me before (middle.broadcast place delta none) := by
  rw [broadcast_eq]
  refine ⟨new ++ middle.notices place delta none, ?_, fun {view} hview => ?_⟩
  · rw [heffects, List.append_assoc]
  · rw [View.follow_append, follow_notices hhost]
    simp only [reduceCtorEq, or_false]
    exact (h hview).of_same rfl rfl

/-- The news of a body that leaves its place change the copy of those who are in the place. -/
theorem Houses.follow_departures_of_within (houses : world.Houses world.stays spare)
    (found : world.bodies.get? body.entity = some body) (hne : body.identity ≠ me)
    (hwithin : world.Within me place) (hview : view.place = some place) (location : BodyLocation) :
    view.follow me (world.departures (body.changeTo location)) =
      { view with occupants := if body.location.place? = some place then
          view.occupants.erase body.entity else view.occupants } := by
  cases hbefore : body.location.place? with
  | none =>
    have hnone : world.departures (body.changeTo location) = [] := by
      unfold departures Body.changeTo
      cases hlocation : body.location with
      | nowhere => rfl
      | vacated zone scene => rfl
      | inside zone scene old spot => rw [hlocation] at hbefore; cases hbefore
    rw [hnone, if_neg nofun]
    rfl
  | some old =>
    obtain ⟨zone, scene, spot, hlocation⟩ := BodyLocation.place?_eq_some_iff.mp hbefore
    obtain ⟨host, hhost, -⟩ := houses.exists_host found hbefore
    have hchange : (body.changeTo location).before = .inside zone scene old spot := hlocation
    rw [follow_departures hchange hhost]
    by_cases hold : old = place
    · subst hold
      have hheard := (houses.mem_erase_iff hhost found hne).mpr hwithin
      rw [if_pos (.inl hheard), if_pos rfl, View.hear_of_eq hview]
      rfl
    · have helsewhere : view.place ≠ some old := by
        rw [hview]
        exact fun heq => hold (Option.some.inj heq).symm
      rw [View.hear_of_ne helsewhere, ite_self, if_neg fun heq => hold (Option.some.inj heq)]

/-- Those who are in no place do not hear them. -/
theorem Houses.follow_departures_of_outside (houses : world.Houses world.stays spare)
    (found : world.bodies.get? body.entity = some body) (hne : body.identity ≠ me)
    (hnowhere : ∀ {place}, ¬world.Within me place) (location : BodyLocation) :
    view.follow me (world.departures (body.changeTo location)) = view := by
  cases hlocation : body.location with
  | nowhere => simp only [departures, Body.changeTo, hlocation, View.follow_nil]
  | vacated zone scene => simp only [departures, Body.changeTo, hlocation, View.follow_nil]
  | inside zone scene place spot =>
    have hplace : body.location.place? = some place := by rw [hlocation]; rfl
    obtain ⟨host, hhost, -⟩ := houses.exists_host found hplace
    have hchange : (body.changeTo location).before = .inside zone scene place spot := hlocation
    rw [follow_departures hchange hhost, if_neg]
    rintro (hheard | hme)
    · exact hnowhere ((houses.mem_erase_iff hhost found hne).mp hheard)
    · exact hne hme

/-- A body that is taken out of its place is told so, and so are those who stay. -/
theorem LeaveOutcome.shows {change : Option BodyChange}
    (outcome : LeaveOutcome world entity change after) (hlabeled : world.Labeled)
    (hdistinct : world.Distinct) (houses : world.Houses world.stays []) (me : Identity) :
    Shows me world after := by
  cases outcome with
  | outside => exact .refl me _
  | @leaves body zone scene place location found inside =>
    generalize hleft : body.changeTo (.vacated zone scene) = change
    have hbefore : change.before = .inside zone scene place location := by
      rw [← hleft, ← inside]
      rfl
    have hentity : change.entity = body.entity := by rw [← hleft]; rfl
    have hidentity : change.identity = body.identity := by rw [← hleft]; rfl
    have hfound : world.bodies.get? body.entity = some body := by rw [hlabeled found, found]
    have hplace : body.location.place? = some place := by rw [inside]; rfl
    obtain ⟨host, hhost, -⟩ := houses.exists_host found hplace
    have hmoved := sameBodies_vacate (world.replace (body.movedTo (.vacated zone scene))) change
    refine ⟨world.departures change, effects_vacate _ _, fun {view} hview => ?_⟩
    suffices h : ((world.replace (body.movedTo (.vacated zone scene))).vacate change).ShownTo me
        (view.follow me (world.departures change)) from h.of_same rfl rfl
    by_cases hme : body.identity = me
    · -- Whoever leaves is told of its own leaving, and takes itself out of what it was shown.
      subst hme
      have hstands : ∀ {location'}, ((world.replace (body.movedTo (.vacated zone scene))).vacate
          change).Stands body.identity location' ↔ .vacated zone scene = location' :=
        hmoved.stands.trans (hlabeled.stands_replace_self hdistinct found
          (body.movedTo (.vacated zone scene)) rfl rfl)
      constructor
      · intro zone' scene' place' location' host' hhere _
        cases hstands.mp hhere
      · intro _
        have hshown := hview.inside ⟨entity, body, found, rfl, inside⟩ hhost
        rw [follow_departures hbefore hhost, if_pos (.inr hidentity), hshown, View.hear_of_eq rfl,
          OccupantSet.hasMember_eq_false_iff, OccupantSet.mem_identities_iff]
        rintro ⟨other, info, hinfo, hother⟩
        change (Table.erase host.occupants change.entity).get? other = some info at hinfo
        rw [Table.get?_erase] at hinfo
        split at hinfo
        · cases hinfo
        · obtain ⟨body', hbody', -, -, rfl⟩ := houses.exists_body hhost hinfo
          refine absurd ?_ ‹¬other = change.entity›
          rw [hentity]
          exact hdistinct hbody' hfound hother
    · have hstands : ∀ {location'}, ((world.replace (body.movedTo (.vacated zone scene))).vacate
          change).Stands me location' ↔ world.Stands me location' :=
        hmoved.stands.trans (hlabeled.stands_replace found
          (body.movedTo (.vacated zone scene)) rfl rfl fun heq => absurd heq hme)
      subst hleft
      apply hview.step houses hstands
      · intro place' old new hwithin hold hnew hshown hoccupants
        obtain ⟨old', hold', hleft⟩ := occupants_vacate hnew
        cases hold.symm.trans hold'
        rw [houses.follow_departures_of_within hfound hme hwithin hshown, hleft, hoccupants]
        rfl
      · intro hnowhere
        exact houses.follow_departures_of_outside hfound hme hnowhere _

/-- Those who are in the place of a body are told what has changed about the body. -/
theorem shows_update (hlabeled : world.Labeled) (houses : world.Houses world.stays spare)
    (found : world.bodies.get? entity = some body) (inside : body.location.place? = some place)
    (body' : Body) (hentity : body'.entity = body.entity)
    (hidentity : body'.identity = body.identity)
    (hkept : body.identity = me → body'.location = body.location) :
    Shows me world (((world.replace body').changeOccupants place
      (OccupantSet.update · body'.occupantInfo)).broadcast place (.updated body'.occupantInfo)
        none) := by
  obtain ⟨host, hosted, -, hin⟩ := houses.exists_host found inside
  have hinfo : body'.occupantInfo.entity = entity := hentity.trans (hlabeled found)
  rw [← hinfo] at found hin
  rw [changeOccupants_update (world.replace body') body'.occupantInfo hosted
    (Table.contains_iff.mpr ⟨_, hin⟩)]
  have hget : ∀ other, ((world.replace body').changeOccupants place
      (OccupantSet.put · body'.occupantInfo)).places.get? other =
      (world.places.get? other).map fun host => if other = place then
        { host with occupants := host.occupants.put body'.occupantInfo } else host :=
    fun other => get?_changeOccupants _ place other _
  have hput := hget place
  simp only [hosted, Option.map_some, if_true] at hput
  have hstands : ∀ {location}, ((world.replace body').changeOccupants place
      (OccupantSet.put · body'.occupantInfo)).Stands me location ↔ world.Stands me location :=
    hlabeled.stands_replace found body' hentity hidentity hkept
  refine shows_broadcast (List.append_nil _).symm hput fun {view} hview => ?_
  apply hview.told houses hstands hosted
  · intro host' hhost'
    cases hput.symm.trans hhost'
    rfl
  · intro other old new hother hold hnew
    have hsame := (hget other).symm.trans hnew
    rw [hold, Option.map_some, if_neg hother] at hsame
    rw [Option.some.inj hsame]
  · exact houses.mem_put_iff hosted found hidentity fun _ => inside

/-- Everyone in the place is shown the new status of a body. -/
theorem StatusOutcome.shows {identity : Identity} {status : OccupantStatus}
    (outcome : StatusOutcome world identity status after) (hlabeled : world.Labeled)
    (houses : world.Houses world.stays []) (me : Identity) : Shows me world after := by
  cases outcome with
  | same => exact .refl me _
  | @alone entity body named found outside =>
    refine .of_quiet rfl fun {view} hview => ?_
    apply hview.quiet houses
      (hlabeled.stands_replace found (body.withStatus status) rfl rfl fun _ => rfl)
    intro place host host' hhost hhost'
    cases hhost.symm.trans hhost'
    rfl
  | @shown entity body place named found inside =>
    exact shows_update hlabeled houses found inside (body.withStatus status) rfl rfl fun _ => rfl

/-- A new body is in no place, so nobody has to be told of it. -/
theorem shows_createBody (hregisters : world.Registers) (identity : Identity)
    (hfresh : (world.createBody identity).2.entityIds.issued < 2 ^ 64) (me : Identity) :
    Shows me world (world.createBody identity).2 := by
  cases hknown : world.entities.get? identity with
  | some entity => rw [createBody_of_some hknown]; exact .refl me world
  | none =>
    rw [createBody_of_none hknown] at hfresh ⊢
    have hpeek := hregisters.get?_peek hfresh
    refine .of_quiet rfl fun {view} hview => ⟨?_, fun hnowhere => hview.outside ?_⟩
    · rintro zone scene place location host ⟨entity, body, hbody, hme, hlocation⟩ hhost
      change (Table.insert _ _ _).get? entity = some body at hbody
      rw [Table.get?_insert] at hbody
      split at hbody
      · cases hbody
        cases hlocation
      · exact hview.inside ⟨entity, body, hbody, hme, hlocation⟩ hhost
    · rintro place ⟨location, ⟨entity, body, hbody, hme, hlocation⟩, hplace⟩
      refine hnowhere ⟨location, ⟨entity, body, ?_, hme, hlocation⟩, hplace⟩
      change (Table.insert _ _ _).get? entity = some body
      rw [Table.get?_insert, if_neg, hbody]
      rintro rfl
      rw [hpeek] at hbody
      cases hbody

/-- A body that is removed leaves its place first. -/
theorem RemoveOutcome.shows {identity : Identity} (outcome : RemoveOutcome world identity after)
    (h : world.Sound) (me : Identity) : Shows me world after := by
  cases outcome with
  | unknown => exact .refl me _
  | @removes entity change left named leaves =>
    have hlabeled : ({ world with entities := world.entities.erase identity } : World).Labeled :=
      h.registers.labeled
    have hleft := leaves.shows hlabeled h.registers.distinct (h.houses.of_same ⟨rfl, rfl, rfl⟩) me
    have hstay := congrFun (leaves.stays hlabeled) entity
    rw [Function.update_self, World.stays] at hstay
    have hget : ∀ {other body}, (left.bodies.erase entity).get? other = some body →
        left.bodies.get? other = some body := by
      intro other body hbody
      rw [Table.get?_erase] at hbody
      split at hbody
      · cases hbody
      · exact hbody
    have herase : Shows me left { left with bodies := left.bodies.erase entity } := by
      refine .of_quiet rfl fun {view} hview => ⟨?_, fun hnowhere => hview.outside ?_⟩
      · rintro zone scene place location host ⟨other, body, hbody, hrest⟩ hhost
        exact hview.inside ⟨other, body, hget hbody, hrest⟩ hhost
      · rintro place ⟨location, ⟨other, body, hbody, hme, rfl⟩, hplace⟩
        refine hnowhere ⟨body.location, ⟨other, body, ?_, hme, rfl⟩, hplace⟩
        change (left.bodies.erase entity).get? other = some body
        rw [Table.get?_erase, if_neg, hbody]
        rintro rfl
        rw [hbody, Option.bind_some] at hstay
        have hnone := body.stay?_place
        rw [hstay, hplace] at hnone
        cases hnone
    have hstart : Shows me world { world with entities := world.entities.erase identity } :=
      shows_of_same rfl rfl rfl
    exact (hstart.trans hleft).trans herase

variable {zone : ZoneId} {location : LocationId} {result : Except CommitError BodyChange}

/-- A refused move tells nobody anything. -/
theorem CommitOutcome.shows_refused {error : CommitError}
    (outcome : CommitOutcome world entity zone place location (.error error) after)
    (houses : world.Houses world.stays spare) (me : Identity) : Shows me world after := by
  have hdrop : Shows me world (world.dropIfEmpty place) := by
    refine .of_quiet (effects_dropIfEmpty world place) fun {view} hview => ?_
    apply hview.quiet houses (sameBodies_dropIfEmpty world place).stands
    intro other host host' hhost hhost'
    cases hhost.symm.trans (get?_of_dropIfEmpty hhost')
    rfl
  cases outcome with
  | bodyless => exact hdrop
  | placeless => exact .refl me _
  | full => exact hdrop

/-- The others are told of a body that moves. -/
theorem CommitOutcome.shows_others {change : BodyChange}
    (outcome : CommitOutcome world entity zone place location (.ok change) after)
    (hlabeled : world.Labeled) (houses : world.Houses world.stays spare)
    (hne : change.identity ≠ me) : Shows me world after := by
  cases outcome with
  | @shifts body host found hosted here =>
    have hupdate := shows_update hlabeled houses found here
      (body.movedTo (.inside zone host.scene place location)) rfl rfl fun heq => absurd heq hne
    exact hupdate.trans (shows_of_same rfl rfl rfl)
  | @enters body host found hosted elsewhere room =>
    have hfound : world.bodies.get? body.entity = some body := by rw [hlabeled found, found]
    generalize hmoved : BodyLocation.inside zone host.scene place location = target
    have hvacated := sameBodies_vacate (world.replace (body.movedTo target)) (body.changeTo target)
    have hhost := (get?_vacate_of_ne (world.replace (body.movedTo target)) (body.changeTo target)
      elsewhere).trans hosted
    generalize hinfo : arrival body zone host.scene place location = info
    have hentity : info.entity = body.entity := by rw [← hinfo]; rfl
    have hidentity : info.identity = body.identity := by rw [← hinfo]; rfl
    -- The world in which the body is in its new place.
    generalize hentered : ((((world.replace (body.movedTo target)).vacate
      (body.changeTo target)).changeOccupants place (OccupantSet.put · info)).retain
        (.zone zone)).retain (.scene host.scene) = entered
    have heffects : entered.effects = world.effects ++ world.departures (body.changeTo target) := by
      rw [← hentered]
      exact effects_vacate (world.replace (body.movedTo target)) (body.changeTo target)
    have hget : ∀ other, entered.places.get? other =
        (((world.replace (body.movedTo target)).vacate (body.changeTo target)).places.get?
          other).map fun host => if other = place then
            { host with occupants := host.occupants.put info } else host := by
      intro other
      rw [← hentered]
      exact get?_changeOccupants _ place other (OccupantSet.put · info)
    have hput := hget place
    rw [hhost, Option.map_some, if_pos rfl] at hput
    have hstands : ∀ {location}, entered.Stands me location ↔ world.Stands me location := by
      intro location
      rw [← hentered]
      exact hvacated.stands.trans (hlabeled.stands_replace found (body.movedTo target) rfl rfl
        fun heq => absurd heq hne)
    have hheard : me ∈ (host.occupants.put info).identities ↔ world.Within me place := by
      rw [← hentity] at hfound
      exact houses.mem_put_iff hosted hfound hidentity fun heq => absurd heq hne
    refine (shows_broadcast heffects hput fun {view} hview => ?_).trans (shows_of_same rfl rfl rfl)
    apply hview.step houses hstands
    · intro other old new hwithin hold hnew hshown hoccupants
      rw [hget, Option.map_eq_some_iff] at hnew
      obtain ⟨left, hleft, hnew⟩ := hnew
      obtain ⟨old', hold', hremaining⟩ := occupants_vacate hleft
      cases hold.symm.trans hold'
      have hfollow := houses.follow_departures_of_within hfound hne hwithin hshown target
      by_cases hother : other = place
      · subst hother
        cases hosted.symm.trans hold
        rw [if_neg elsewhere] at hfollow
        rw [if_neg (show (body.changeTo target).before.place? ≠ some other from elsewhere)]
          at hremaining
        rw [if_pos rfl] at hnew
        rw [if_pos (hheard.mpr hwithin), hfollow, View.hear_of_eq hshown, ← hnew]
        simp only [hoccupants, hremaining, OccupantSet.apply]
      · have hplace : (view.follow me (world.departures (body.changeTo target))).place ≠
            some place := by
          rw [hfollow]
          exact fun heq => hother (Option.some.inj (hshown.symm.trans heq))
        rw [if_neg hother] at hnew
        rw [View.hear_of_ne hplace, ite_self, hfollow, ← hnew, hremaining, hoccupants]
        rfl
    · intro hnowhere
      rw [if_neg fun hhears => hnowhere (hheard.mp hhears)]
      exact houses.follow_departures_of_outside hfound hne hnowhere _

/-- The body that moves is in its new place then, and nowhere else. -/
theorem CommitOutcome.stands {change : BodyChange}
    (outcome : CommitOutcome world entity zone place location (.ok change) after)
    (hlabeled : world.Labeled) (hdistinct : world.Distinct) :
    ∃ host, world.places.get? place = some host ∧ ∀ {location'},
      after.Stands change.identity location' ↔
        .inside zone host.scene place location = location' := by
  cases outcome with
  | @shifts body host found hosted here =>
    refine ⟨host, hosted, ?_⟩
    rw [broadcast_eq]
    exact hlabeled.stands_replace_self hdistinct found
      (body.movedTo (.inside zone host.scene place location)) rfl rfl
  | @enters body host found hosted elsewhere room =>
    refine ⟨host, hosted, ?_⟩
    rw [broadcast_eq]
    exact (sameBodies_vacate _ _).stands.trans (hlabeled.stands_replace_self hdistinct found
      (body.movedTo (.inside zone host.scene place location)) rfl rfl)

/-- A change is that of a body that is there. -/
theorem CommitOutcome.exists_body {change : BodyChange}
    (outcome : CommitOutcome world entity zone place location (.ok change) after) :
    ∃ body, world.bodies.get? entity = some body ∧ change.identity = body.identity := by
  cases outcome with
  | shifts found => exact ⟨_, found, rfl⟩
  | enters found => exact ⟨_, found, rfl⟩

/-- A place that is made for a scene has nobody in it. -/
theorem shows_placeFor (houses : world.Houses world.stays []) (model : SceneModel)
    (hfresh : (world.placeFor model).2.placeIds.issued < 2 ^ 64) (me : Identity) :
    Shows me world (world.placeFor model).2 := by
  unfold placeFor at hfresh ⊢
  cases hhosts : world.hosts.get? model.scene with
  | some place => exact .refl me world
  | none =>
    simp only [hhosts, IdGenerator.generate] at hfresh ⊢
    refine .of_quiet rfl fun {view} hview => hview.quiet houses Iff.rfl ?_
    intro place host host' hhost hhost'
    have hissued := houses.issued hhost
    change (Table.insert _ _ _).get? place = some host' at hhost'
    rw [Table.get?_insert, if_neg, hhost] at hhost'
    · rw [Option.some.inj hhost']
    · rintro rfl
      rw [IdGenerator.peek_val houses.first hfresh] at hissued
      omega

/-- Nothing is shown by an effect that nobody sees. -/
theorem shows_record {effect : Effect} (h : ∀ view : View, view.follow me [effect] = view) :
    Shows me world (world.record effect) :=
  ⟨[effect], rfl, fun {view} hview => by rw [h]; exact hview.of_same rfl rfl⟩

end World

/-- The request is about a body of its caller, if the body is still there. -/
structure MoveRequest.Owned (request : MoveRequest) (world : World) : Prop where
  issued : request.entity.val ≤ world.entityIds.issued
  caller : ∀ {body}, world.bodies.get? request.entity = some body →
    body.identity = request.listener.caller

/-- A participant that goes into a place is given a full account of it, and those who are there are
told of the participant. -/
theorem MoveRequest.EntryOutcome.shows {request : MoveRequest} {world after : World}
    {zone : ZoneSummary} {model : SceneModel} {answer : Answer}
    (outcome : EntryOutcome request world zone model answer after) (h : world.Sound)
    (hafter : after.Unwrapped) (howned : request.Owned world) (me : Identity) :
    World.Shows me world (after.record (.answer request.listener answer)) := by
  have hkept := outcome.keepsSound.sound h hafter
  have hsame := World.sameBodies_placeFor world model
  have hlabeled : (world.placeFor model).2.Labeled :=
    h.registers.labeled.of_sameNames hsame.sameNames
  have hmade : ∀ {result}, World.CommitOutcome (world.placeFor model).2 request.entity zone.zone
      (world.placeFor model).1 request.target.location result after →
      (world.placeFor model).2.placeIds.issued < 2 ^ 64 :=
    fun commit => (commit.sameCounters.unwrapped hafter).placeIds
  cases outcome with
  | unlisted => exact World.shows_record fun view => view.follow_failure me _ _
  | refused commit =>
    have hhoused := (h.houses.placeFor model (hmade commit)).1
    rw [← hsame.stays] at hhoused
    have hrefused := (World.shows_placeFor h.houses model (hmade commit) me).trans
      (commit.shows_refused hhoused me)
    exact hrefused.trans (World.shows_record fun view => view.follow_failure me _ _)
  | @entered change _ reply commit told =>
    obtain ⟨hhoused, host, hhost, hscene⟩ := h.houses.placeFor model (hmade commit)
    rw [← hsame.stays] at hhoused
    obtain ⟨body, hbody, hidentity⟩ := commit.exists_body
    have hcaller : change.identity = request.listener.caller := by
      rw [hsame.bodies] at hbody
      exact hidentity.trans (howned.caller hbody)
    by_cases hme : request.listener.caller = me
    · subst hme
      have hdistinct : (world.placeFor model).2.Distinct := by
        intro entity entity' body body' hbody hbody'
        rw [hsame.bodies] at hbody hbody'
        exact h.registers.distinct hbody hbody'
      obtain ⟨host', hhost', hstands⟩ := commit.stands hlabeled hdistinct
      cases hhost.symm.trans hhost'
      rw [hcaller] at hstands
      obtain ⟨new, heffects, -⟩ := (world.notifies_placeFor model).trans commit.notifies
      obtain ⟨hplace, hzone, hscene', hlocation, hoccupants⟩ := told
      refine ⟨new ++ [.answer request.listener (.success (.moved reply))], ?_, fun {view} _ => ?_⟩
      · rw [← List.append_assoc, ← heffects]
        rfl
      · suffices hshown : after.ShownTo request.listener.caller
            ((view.follow request.listener.caller new).hear
              (request.listener.response (.success (.moved reply)))) by
          rw [View.follow_append, View.follow_answer, if_pos rfl]
          exact hshown.of_same rfl rfl
        constructor
        · intro zone' scene' place' location' host' hhere hhost'
          cases hstands.mp hhere
          rw [hhost', Option.map_some, Option.getD_some] at hoccupants
          have hvalues : OccupantSet.ofInfos reply.occupants = host'.occupants := by
            rw [hoccupants]
            apply OccupantSet.ofInfos_values
            intro entity info hinfo
            obtain ⟨body, hbody, -, -, rfl⟩ := hkept.houses.exists_body hhost' hinfo
            exact hkept.registers.labeled hbody
          simp only [View.hear, Listener.response, hplace, hzone, hscene', hlocation, hvalues,
            hscene]
        · intro hnowhere
          exact (hnowhere ⟨_, hstands.mpr rfl, rfl⟩).elim
    · have hunmoved : change.identity ≠ me := by
        rw [hcaller]
        exact hme
      have hothers := commit.shows_others hlabeled hhoused hunmoved
      refine ((World.shows_placeFor h.houses model (hmade commit) me).trans hothers).trans ?_
      apply World.shows_record
      intro view
      rw [View.follow_answer, if_neg hme]

end SharedWorld
