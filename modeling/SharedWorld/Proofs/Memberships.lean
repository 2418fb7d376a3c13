import Mathlib.Data.List.Chain
import Mathlib.Data.List.Induction
import SharedWorld.Proofs.Histories
import SharedWorld.Proofs.Mirror

/-!
# Observers are called when the membership flips

A tracker mirrors a set that is kept by entity, but what it tells is about an identity: an occupant
can be replaced by one of another name, be renamed, or leave while another one of the same name
stays. So a delta tells nothing of the membership by itself; it is read off the whole set after
every change, and the observers are called exactly if it is another one than before
(`MembershipTracker.run_flips`). -/

namespace SharedWorld

/-- What is known of the entity of a change after it. -/
def SetDelta.info? : SetDelta → Option OccupantInfo
  | .added info | .updated info => some info
  | .removed _ => none

namespace OccupantSet

/-- Of the entries for one entity the last one counts. -/
theorem get?_ofInfos (infos : List OccupantInfo) (entity : EntityId) :
    (ofInfos infos).get? entity = infos.reverse.find? (·.entity = entity) := by
  induction infos using List.reverseRecOn with
  | nil => rfl
  | append_singleton infos info ih =>
    have hput : ofInfos (infos ++ [info]) = (ofInfos infos).put info := by
      simp [ofInfos]
    rw [hput, put, Table.get?_insert, List.reverse_concat, List.find?_cons, ih]
    by_cases hentity : info.entity = entity
    · simp [hentity]
    · simp [hentity, Ne.symm hentity]

/-- A change is about one entity. -/
theorem get?_apply (set : OccupantSet) (delta : SetDelta) (entity : EntityId) :
    (set.apply delta).get? entity =
      if entity = delta.entity then delta.info? else set.get? entity := by
  cases delta with
  | added info => exact Table.get?_insert set info.entity entity info
  | updated info => exact Table.get?_insert set info.entity entity info
  | removed other => exact Table.get?_erase set other entity

end OccupantSet

namespace MembershipTracker

variable {tracker : MembershipTracker} {me : Identity} {collection : String}

/-! ## What can happen to a tracker -/

/-- What can happen to a tracker. -/
inductive Event where
  /-- An observer is added. -/
  | watches (observer : String)
  /-- A full account of a place is given. -/
  | resets (place : PlaceId) (infos : List OccupantInfo)
  /-- A delta of some place and some collection is heard. -/
  | applies (place : PlaceId) (delta : OccupantDelta)

/-- The observer that an event adds. -/
def Event.observer? : Event → Option String
  | .watches observer => some observer
  | _ => none

/-- What a tracker does at an event. -/
def react (tracker : MembershipTracker) : Event → MembershipUpdate
  | .watches observer => ⟨tracker.watch observer, none, []⟩
  | .resets place infos => tracker.reset place infos
  | .applies place delta => tracker.apply place delta

/-- The tracker after a list of events. -/
def run (tracker : MembershipTracker) (events : List Event) : MembershipTracker :=
  events.foldl (fun tracker event => (tracker.react event).tracker) tracker

/-- The delta is one of the set that the tracker mirrors. -/
def Heeds (tracker : MembershipTracker) (place : PlaceId) (delta : OccupantDelta) : Prop :=
  tracker.place = some place ∧ delta.collection = tracker.collection

/-- A delta that a tracker heeds is applied, and the membership told from it. -/
theorem Heeds.apply_eq {place : PlaceId} {delta : OccupantDelta}
    (h : tracker.Heeds place delta) : tracker.apply place delta = { tracker with
      place := some place, occupants := tracker.occupants.apply delta.delta }.reconcile := by
  rw [← h.1]
  exact if_pos h

/-- A delta that a tracker does not heed changes nothing. -/
theorem apply_of_not_heeds {place : PlaceId} {delta : OccupantDelta}
    (h : ¬tracker.Heeds place delta) : tracker.apply place delta = ⟨tracker, none, []⟩ := if_neg h

/-- The set that an event has the tracker mirror, and of which place. -/
inductive Mirrors (tracker : MembershipTracker) : Event → PlaceId → OccupantSet → Prop where
  | resets (place : PlaceId) (infos : List OccupantInfo) :
    Mirrors tracker (.resets place infos) place (.ofInfos infos)
  | applies {place : PlaceId} {delta : OccupantDelta} (heeds : tracker.Heeds place delta) :
    Mirrors tracker (.applies place delta) place (tracker.occupants.apply delta.delta)

/-- What an event comes to. -/
inductive Outcome (tracker : MembershipTracker) : Event → MembershipUpdate → Prop where
  | registers (observer : String) :
    Outcome tracker (.watches observer) ⟨tracker.watch observer, none, []⟩
  /-- The delta is of another place or collection. -/
  | ignores {place : PlaceId} {delta : OccupantDelta} (foreign : ¬tracker.Heeds place delta) :
    Outcome tracker (.applies place delta) ⟨tracker, none, []⟩
  | stays {event : Event} {place : PlaceId} {set : OccupantSet}
    (mirrors : tracker.Mirrors event place set) (same : set.hasMember tracker.me = tracker.member) :
    Outcome tracker event ⟨{ tracker with place := some place, occupants := set }, none, []⟩
  | flips {event : Event} {place : PlaceId} {set : OccupantSet}
    (mirrors : tracker.Mirrors event place set)
    (flip : set.hasMember tracker.me ≠ tracker.member) :
    Outcome tracker event
      { tracker := { tracker with
          place := some place, occupants := set, member := set.hasMember tracker.me }
        flipped := some (set.hasMember tracker.me)
        notices := tracker.observers.map (⟨·, place, set.hasMember tracker.me⟩) }

/-- A tracker that mirrors another set reads the membership off it. -/
theorem Mirrors.outcome {event : Event} {place : PlaceId} {set : OccupantSet}
    (mirrors : tracker.Mirrors event place set) :
    Outcome tracker event { tracker with place := some place, occupants := set }.reconcile := by
  unfold reconcile
  dsimp only
  split
  · exact .stays mirrors ‹_›
  · exact .flips mirrors ‹_›

/-- Every event comes to one of the listed outcomes. -/
theorem react_outcome (tracker : MembershipTracker) (event : Event) :
    Outcome tracker event (tracker.react event) := by
  cases event with
  | watches observer => exact .registers observer
  | resets place infos => exact (Mirrors.resets place infos).outcome
  | applies place delta =>
    by_cases heeds : tracker.Heeds place delta
    · rw [react, heeds.apply_eq]
      exact (Mirrors.applies heeds).outcome
    · rw [react, apply_of_not_heeds heeds]
      exact .ignores heeds

/-! ## What a tracker knows -/

/-- A tracker of the participant that knows whether the participant is among the occupants. -/
structure Knows (me : Identity) (collection : String) (tracker : MembershipTracker) : Prop where
  me_eq : tracker.me = me
  collection_eq : tracker.collection = collection
  member_eq : tracker.member = tracker.occupants.hasMember me

/-- A tracker goes on knowing whose membership of what it tracks. -/
theorem Outcome.knows {event : Event} {update : MembershipUpdate}
    (outcome : Outcome tracker event update) (h : tracker.Knows me collection) :
    update.tracker.Knows me collection := by
  obtain ⟨rfl, hcollection, hmember⟩ := h
  cases outcome with
  | registers => exact ⟨rfl, hcollection, hmember⟩
  | ignores => exact ⟨rfl, hcollection, hmember⟩
  | stays mirrors same => exact ⟨rfl, hcollection, same.symm⟩
  | flips => exact ⟨rfl, hcollection, rfl⟩

/-- A tracker knows whose membership it tracks in every run. -/
theorem Knows.run {tracker : MembershipTracker} {me : Identity} {collection : String}
    (h : tracker.Knows me collection) (events : List Event) :
    (tracker.run events).Knows me collection :=
  List.foldlRecOn (motive := Knows me collection) events
    (fun tracker event => (tracker.react event).tracker) h
    fun tracker h event _ => (tracker.react_outcome event).knows h

/-- A new tracker knows whose membership it tracks, and goes on to. -/
theorem run_knows (me : Identity) (collection : String) (events : List Event) :
    ((forCollection me collection).run events).Knows me collection := by
  have hstart : (forCollection me collection).Knows me collection := ⟨rfl, rfl, rfl⟩
  exact hstart.run events

/-- The observers are those that were added, in this order. -/
theorem observers_run (tracker : MembershipTracker) (events : List Event) :
    (tracker.run events).observers = tracker.observers ++ events.filterMap Event.observer? := by
  induction events generalizing tracker with
  | nil => simp [run]
  | cons event rest ih =>
    have hnext : (tracker.react event).tracker.observers =
        tracker.observers ++ event.observer?.toList := by
      have outcome := tracker.react_outcome event
      generalize tracker.react event = update at outcome
      cases outcome with
      | registers => rfl
      | ignores => simp [Event.observer?]
      | stays mirrors => cases mirrors <;> simp [Event.observer?]
      | flips mirrors => cases mirrors <;> simp [Event.observer?]
    have hrest : (tracker.run (event :: rest)).observers = _ := ih (tracker.react event).tracker
    rw [hrest, hnext, List.filterMap_cons]
    cases event.observer? with
    | none => simp
    | some observer => simp

/-! ## The calls of one observer -/

/-- The calls of one observer in the course of the events. The observer is named by the number of
those that are told before it, as two of them may bear the same name. -/
def calls (tracker : MembershipTracker) (number : Nat) (events : List Event) :
    List MembershipNotice :=
  history (fun tracker event => (tracker.react event).tracker)
    (fun tracker event => (tracker.react event).notices[number]?.toList) tracker events

/-- The calls that one observer had until the tracker was in its present state: each tells another
membership than the one before, and the last one tells the present one. -/
structure Hears (number : Nat) (calls : List MembershipNotice) (tracker : MembershipTracker) :
    Prop where
  alternate : calls.IsChain fun earlier later => earlier.member ≠ later.member
  last : ∀ notice ∈ calls.getLast?, notice.member = tracker.member
  mine : ∀ notice ∈ calls, tracker.observers[number]? = some notice.observer

/-- An observer hears what it is told in an event. -/
theorem Outcome.hears {number : Nat} {heard : List MembershipNotice} {event : Event}
    {update : MembershipUpdate} (outcome : Outcome tracker event update)
    (h : tracker.Hears number heard) :
    update.tracker.Hears number (heard ++ update.notices[number]?.toList) := by
  obtain ⟨halternate, hlast, hmine⟩ := h
  cases outcome with
  | registers observer =>
    simp only [List.getElem?_nil, Option.toList_none, List.append_nil]
    refine ⟨halternate, hlast, fun notice hnotice => ?_⟩
    have hnumber := hmine notice hnotice
    exact (List.getElem?_append_left (List.getElem?_eq_some_iff.mp hnumber).1).trans hnumber
  | ignores =>
    simp only [List.getElem?_nil, Option.toList_none, List.append_nil]
    exact ⟨halternate, hlast, hmine⟩
  | stays =>
    simp only [List.getElem?_nil, Option.toList_none, List.append_nil]
    exact ⟨halternate, hlast, hmine⟩
  | @flips event place set mirrors flip =>
    rw [List.getElem?_map]
    cases hobserver : tracker.observers[number]? with
    | none =>
      -- Nobody has the number yet, so nobody with it was called.
      have hnobody : heard = [] := List.eq_nil_iff_forall_not_mem.mpr fun notice hnotice => by
        rw [hmine notice hnotice] at hobserver
        cases hobserver
      subst hnobody
      exact ⟨.nil, nofun, nofun⟩
    | some observer =>
      simp only [Option.map_some, Option.toList_some]
      refine ⟨?_, ?_, ?_⟩
      · refine List.isChain_append.mpr
          ⟨halternate, .singleton _, fun earlier hearlier later hlater => ?_⟩
        cases hlater
        rw [hlast earlier hearlier]
        exact flip.symm
      · rw [List.getLast?_concat]
        rintro notice ⟨rfl⟩
        rfl
      · intro notice hnotice
        rcases List.mem_append.mp hnotice with hold | hnew
        · exact hmine notice hold
        · rw [List.mem_singleton.mp hnew]
          exact hobserver

/-- An observer hears all its calls in their order. -/
theorem calls_hears (number : Nat) (tracker : MembershipTracker) (events : List Event) :
    (tracker.run events).Hears number (tracker.calls number events) :=
  foldl_history_induction (P := Hears number)
    (fun _ tracker event h => (tracker.react_outcome event).hears h)
    (show tracker.Hears number [] from ⟨.nil, nofun, nofun⟩) events

/-! ## What the calls tell -/

/-- A tracker knows whether its participant is among the mirrored occupants, after the events that
led to it and after whatever comes next, and its observers are called exactly when this flips. -/
structure Flips (me : Identity) (collection : String) (events : List Event)
    (tracker : MembershipTracker) : Prop where
  member_iff : tracker.member = true ↔
    ∃ entity info, tracker.occupants.get? entity = some info ∧ info.identity = me
  observers_eq : tracker.observers = events.filterMap Event.observer?
  /-- A flip is reported exactly if there is one. -/
  flipped_iff : ∀ event member, (tracker.react event).flipped = some member ↔
    (tracker.react event).tracker.member = member ∧ tracker.member ≠ member
  /-- At a flip every observer is told of it once, in the order in which they were added. -/
  told : ∀ {event member}, (tracker.react event).flipped = some member →
    ∃ place, (tracker.react event).tracker.place = some place ∧
      (tracker.react event).notices = tracker.observers.map (⟨·, place, member⟩)
  /-- Nobody is told otherwise. -/
  untold : ∀ {event}, (tracker.react event).flipped = none → (tracker.react event).notices = []
  /-- A full account is mirrored as it is; of the entries for one entity the last one counts. -/
  reset : ∀ place infos, (tracker.reset place infos).tracker.place = some place ∧
    ∀ entity, (tracker.reset place infos).tracker.occupants.get? entity =
      infos.reverse.find? (·.entity = entity)
  /-- A delta of the mirrored set is applied, and tells of one entity. -/
  applied : ∀ {place delta}, tracker.place = some place → delta.collection = collection →
    (tracker.apply place delta).tracker.place = some place ∧
      ∀ entity, (tracker.apply place delta).tracker.occupants.get? entity =
        if entity = delta.delta.entity then delta.delta.info? else tracker.occupants.get? entity
  /-- A delta of another place or another collection changes nothing. -/
  ignored : ∀ {place delta}, tracker.place ≠ some place ∨ delta.collection ≠ collection →
    tracker.apply place delta = ⟨tracker, none, []⟩
  /-- The calls of each observer are its own, and tell by turns of joining and of leaving. -/
  alternate : ∀ number,
    (∀ notice ∈ (forCollection me collection).calls number events,
      tracker.observers[number]? = some notice.observer) ∧
    (((forCollection me collection).calls number events).map (·.member)).IsChain (· ≠ ·)

/-- A tracker shows a member just if its occupants have one of that identity. -/
theorem Knows.member_iff (h : tracker.Knows me collection) : tracker.member = true ↔
    ∃ entity info, tracker.occupants.get? entity = some info ∧ info.identity = me := by
  rw [h.member_eq, OccupantSet.hasMember_iff, OccupantSet.mem_identities_iff]

/-- An event flips the membership just if it changes it. -/
theorem Outcome.flipped_iff {event : Event} {update : MembershipUpdate}
    (outcome : Outcome tracker event update) (member : Bool) :
    update.flipped = some member ↔ update.tracker.member = member ∧ tracker.member ≠ member := by
  cases outcome with
  | registers => exact iff_of_false nofun fun h => h.2 h.1
  | ignores => exact iff_of_false nofun fun h => h.2 h.1
  | stays => exact iff_of_false nofun fun h => h.2 h.1
  | flips mirrors flip =>
    rw [Option.some.injEq]
    refine ⟨fun heq => ⟨heq, ?_⟩, fun h => h.1⟩
    rw [← heq]
    exact flip.symm

/-- A flip is told to all observers, with the place. -/
theorem Outcome.told {event : Event} {update : MembershipUpdate}
    (outcome : Outcome tracker event update) {member : Bool} (h : update.flipped = some member) :
    ∃ place, update.tracker.place = some place ∧
      update.notices = tracker.observers.map (⟨·, place, member⟩) := by
  cases outcome with
  | registers | ignores | stays => cases h
  | @flips event place =>
    cases h
    exact ⟨place, rfl, rfl⟩

/-- Nobody is called where nothing flips. -/
theorem Outcome.untold {event : Event} {update : MembershipUpdate}
    (outcome : Outcome tracker event update) (h : update.flipped = none) : update.notices = [] := by
  cases outcome with
  | registers | ignores | stays => rfl
  | flips => cases h

/-- Whatever happens to a tracker, it knows after every event whether its participant is among the
mirrored occupants, and its observers are called exactly when this flips. -/
theorem run_flips (me : Identity) (collection : String) (events : List Event) :
    ((forCollection me collection).run events).Flips me collection events := by
  have hknows := run_knows me collection events
  have hobservers := observers_run (forCollection me collection) events
  generalize htracker : (forCollection me collection).run events = tracker at hknows hobservers
  refine ⟨hknows.member_iff, hobservers, fun event => (tracker.react_outcome event).flipped_iff,
    fun {event _} => (tracker.react_outcome event).told,
    fun {event} => (tracker.react_outcome event).untold, fun place infos => ?_,
    fun {place delta} hplace hcollection => ?_, fun {place delta} hforeign => ?_,
    fun number => ?_⟩
  · have hreset : (tracker.reset place infos).tracker =
        { tracker with place := some place, occupants := .ofInfos infos }.reconcile.tracker := rfl
    rw [hreset, reconcile_tracker]
    exact ⟨rfl, OccupantSet.get?_ofInfos infos⟩
  · have hheeds : tracker.Heeds place delta :=
      ⟨hplace, hcollection.trans hknows.collection_eq.symm⟩
    rw [hheeds.apply_eq, reconcile_tracker]
    exact ⟨rfl, OccupantSet.get?_apply tracker.occupants delta.delta⟩
  · refine apply_of_not_heeds ?_
    rintro ⟨hplace, hcollection⟩
    rcases hforeign with hother | hother
    · exact hother hplace
    · exact hother (hcollection.trans hknows.collection_eq)
  · have hhears := calls_hears number (forCollection me collection) events
    rw [htracker] at hhears
    exact ⟨hhears.mine, (List.isChain_map _).mpr hhears.alternate⟩

/-- An occupant leaves while another one of its name stays, and then that one is renamed. -/
example : ((new ⟨"ada"⟩).calls 0 [.watches "lobby",
    .resets 1 [⟨1, ⟨"ada"⟩, .active, none⟩, ⟨2, ⟨"ada"⟩, .active, none⟩],
    .applies 1 (.ofOccupants (.removed 1)),
    .applies 1 (.ofOccupants (.updated ⟨2, ⟨"bob"⟩, .active, none⟩))]) =
      [⟨"lobby", 1, true⟩, ⟨"lobby", 1, false⟩] := by decide +kernel

end MembershipTracker

end SharedWorld
