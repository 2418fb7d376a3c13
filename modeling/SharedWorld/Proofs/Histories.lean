import SharedWorld.Table

/-!
# Histories

A run of a state machine is a list of actions, each of which acts on the state it finds. What is
observed of the actions, each in the state it finds, is the history of the run.
-/

namespace SharedWorld

variable {σ α β : Type} (act : σ → α → σ) (observe : σ → α → List β)

/-- All that is observed of the actions of a run, each in the state it finds. -/
def history (state : σ) : List α → List β
  | [] => []
  | action :: rest => observe state action ++ history (act state action) rest

variable {act observe}

/-- The history of a run goes on where the state it leads to is found. -/
theorem history_append (state : σ) (earlier later : List α) :
    history act observe state (earlier ++ later) =
      history act observe state earlier ++
        history act observe (earlier.foldl act state) later := by
  induction earlier generalizing state with
  | nil => simp [history]
  | cons action rest ih => simp [history, ih]

/-- What one action preserves of a state and of the history that led to it, a run preserves. -/
theorem foldl_history_induction {P : List β → σ → Prop}
    (step : ∀ seen state action, P seen state →
      P (seen ++ observe state action) (act state action))
    {seen : List β} {state : σ} (start : P seen state) (actions : List α) :
    P (seen ++ history act observe state actions) (actions.foldl act state) := by
  induction actions generalizing seen state with
  | nil => simpa [history] using start
  | cons action rest ih =>
    rw [history, ← List.append_assoc]
    exact ih (step seen state action start)

end SharedWorld
