import Columnar.Draft.Basic

/-!
# Runs of a draft

The operations on a draft as data, and what a sequence of them does.
-/

namespace Columnar

namespace Draft

/-- An operation on a draft. -/
inductive Action where
  | edit (path : List Step) (edit : Edit)
  | save
  | addRow (value : Value)
  | finish
  | release
  deriving DecidableEq

/-- Does one operation. Of a sealed batch only the success is told. -/
def act (draft : Draft) : Action → Draft × Outcome Unit
  | .edit path change => draft.edit path change
  | .save => draft.save
  | .addRow value => draft.addRow value
  | .finish =>
      let (draft, outcome) := draft.finish
      (draft, ⟨outcome.result.map fun _ => (), outcome.events⟩)
  | .release =>
      let (draft, events) := draft.release
      (draft, ⟨.ok (), events⟩)

/-- The draft after a sequence of operations. -/
def run (draft : Draft) (actions : List Action) : Draft :=
  actions.foldl (fun draft action => (draft.act action).1) draft

/-- The results of a sequence of operations, in order. -/
def results (draft : Draft) : List Action → List (Except Refusal Unit)
  | [] => []
  | action :: rest =>
      let (draft, outcome) := draft.act action
      outcome.result :: results draft rest

/-- A sequence of operations is run part by part. -/
theorem run_append (draft : Draft) (first second : List Action) :
    draft.run (first ++ second) = (draft.run first).run second := by
  simp [run]

end Draft

end Columnar
