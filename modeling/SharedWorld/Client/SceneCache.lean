import SharedWorld.Message

/-!
# Scenes a client holds

A client keeps the scene models it was sent, one for each scene, and never replaces one by an older
version.
-/

namespace SharedWorld

/-- The scene models a client was sent. -/
abbrev SceneCache := Table SceneId SceneModel

namespace SceneCache

/-- The version of the model held for a scene, or 0 if there is none. -/
def version (scenes : SceneCache) (scene : SceneId) : SceneVersion :=
  match scenes.get? scene with
  | some model => model.version
  | none => 0

/-- Keep a model, unless a newer one of its scene is held. -/
def keep (scenes : SceneCache) (model : SceneModel) : SceneCache :=
  if model.version < scenes.version model.scene then scenes else scenes.insert model.scene model

end SceneCache

end SharedWorld
