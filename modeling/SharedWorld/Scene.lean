import SharedWorld.Argument

/-!
# Zones and scenes

A zone groups scenes; a scene is an area with the spots a body can stand at. Both are loaded from a
store under a key, as a bundle. A move target names a spot of a scene of a zone, and travels as the
arguments of a request together with the version of the scene the caller already holds.
-/

namespace SharedWorld

/-- What is known of a resolved zone. -/
structure ZoneSummary where
  zone : ZoneId
  name : String
  /-- The scenes of the zone. An empty list allows every scene. -/
  scenes : List SceneId
  deriving DecidableEq, Repr

/-- Whether `scene` may be entered through the zone. -/
def ZoneSummary.containsScene (summary : ZoneSummary) (scene : SceneId) : Bool :=
  summary.scenes.isEmpty || summary.scenes.contains scene

/-- A spot a body can stand at. -/
structure Location where
  location : LocationId
  /-- The group the spot belongs to, if any. -/
  group : Option GroupId
  deriving DecidableEq, Repr

/-- Numbers the versions of a scene. -/
abbrev SceneVersion := UInt32

/-- A loadable area of a zone. -/
structure SceneModel where
  scene : SceneId
  zone : ZoneId
  version : SceneVersion
  name : String
  locations : List Location
  /-- How many bodies the scene's place holds at most, if there is a bound. -/
  capacity : Option Nat
  /-- Data that belongs to the store and is passed on as it is. -/
  data : List UInt8
  deriving DecidableEq, Repr

/-- The first spot of the scene with the given id. -/
def SceneModel.findLocation (model : SceneModel) (location : LocationId) : Option Location :=
  model.locations.find? (·.location = location)

/-- Where a body wants to go. -/
structure MoveTarget where
  zone : ZoneId
  scene : SceneId
  location : LocationId
  deriving DecidableEq, Repr

namespace MoveTarget

/-- The arguments of a move request: zone, scene, location, and the version of the scene that the
caller holds. -/
def toArguments (target : MoveTarget) (version : SceneVersion) : List Argument :=
  [.word32 (.ofNat target.zone.val), .word32 (.ofNat target.scene.val),
    .word32 (.ofNat target.location.val), .word32 version]

/-- Read a target and a version back. The first argument that does not fit is the fault. -/
def ofArguments (args : Arguments) : Except Fault (MoveTarget × SceneVersion) := do
  let zone ← args.word32 0
  let scene ← args.word32 1
  let location ← args.word32 2
  let version ← args.word32 3
  return (⟨⟨zone.toNat, zone.toNat_lt⟩, ⟨scene.toNat, scene.toNat_lt⟩,
    ⟨location.toNat, location.toNat_lt⟩⟩, version)

end MoveTarget

/-- What is loaded from a store: a zone or a scene. -/
inductive CacheKey where
  | zone (id : ZoneId)
  | scene (id : SceneId)
  deriving DecidableEq, Repr

namespace CacheKey

open Std

instance : ToString CacheKey where
  toString
    | .zone id => "zone:" ++ toString id
    | .scene id => "scene:" ++ toString id

/-- Zones come before scenes, and each are ordered by their ids. -/
instance : Ord CacheKey where
  compare
    | .zone a, .zone b => compare a b
    | .zone _, .scene _ => .lt
    | .scene _, .zone _ => .gt
    | .scene a, .scene b => compare a b

instance : TransOrd CacheKey where
  eq_swap {a b} :=
    match a, b with
    | .zone a, .zone b => OrientedOrd.eq_swap (a := a) (b := b)
    | .zone _, .scene _ => rfl
    | .scene _, .zone _ => rfl
    | .scene a, .scene b => OrientedOrd.eq_swap (a := a) (b := b)
  isLE_trans {a b c} hab hbc :=
    match a, b, c with
    | .zone a, .zone b, .zone c => @TransCmp.isLE_trans ZoneId compare _ a b c hab hbc
    | .zone _, _, .scene _ => rfl
    | .scene a, .scene b, .scene c => @TransCmp.isLE_trans SceneId compare _ a b c hab hbc
    | .zone _, .scene _, .zone _ => nomatch hbc
    | .scene _, .zone _, _ => nomatch hab
    | .scene _, .scene _, .zone _ => nomatch hbc

instance : LawfulEqOrd CacheKey where
  compare_self {a} := by cases a <;> exact compare_self (α := Id _)
  eq_of_compare {a b} h := by
    cases a <;> cases b
    · exact congrArg _ (LawfulEqOrd.eq_of_compare h)
    · cases h
    · cases h
    · exact congrArg _ (LawfulEqOrd.eq_of_compare h)

end CacheKey

/-- Why a load brought nothing. -/
inductive LoadError where
  /-- The store has nothing under the key. -/
  | notFound (key : String)
  /-- The store itself failed. -/
  | store (reason : String)
  /-- The store has something of another kind under the key. -/
  | wrongKind (expected : String)
  /-- The load was given up before it had an outcome. -/
  | abandoned
  deriving DecidableEq, Repr

/-- The text of a load error. -/
def LoadError.message : LoadError → String
  | .notFound key => "Nothing stored under " ++ key
  | .store reason => "Store failure: " ++ reason
  | .wrongKind expected => "Expected a " ++ expected ++ " payload"
  | .abandoned => "Load was abandoned before completing"

/-- What a load brings. -/
inductive Bundle where
  | zone (summary : ZoneSummary)
  | scene (model : SceneModel)
  deriving DecidableEq, Repr

namespace Bundle

/-- The zone in a bundle. -/
def asZone : Bundle → Except LoadError ZoneSummary
  | .zone summary => .ok summary
  | .scene _ => .error (.wrongKind "zone")

/-- The scene in a bundle. -/
def asScene : Bundle → Except LoadError SceneModel
  | .scene model => .ok model
  | .zone _ => .error (.wrongKind "scene")

end Bundle

end SharedWorld
