import EntityMarkup.Error
import EntityMarkup.Text

/-!
# Recognizers

A recognizer is given the forms of one sentence and finds the entities in it, in any order. It may
fail, and what it answers may depend on what it was asked before: its state goes from one sentence
to the next.

Nothing is assumed about the entities it finds; they are checked when the sentence is rendered.

A recognizer is asked about one sentence after the other; to share one among several runs at the
same time is left out.
-/

namespace EntityMarkup

/-- A way to find entities, with states `σ`. -/
structure Recognizer (σ : Type) where
  /-- The entities of a sentence, and the state after it. -/
  recognize : σ → List Text → Except MarkupError (List Entity) × σ
  /-- The labels that entities can have. -/
  labels : σ → List String

namespace Recognizer

/-- The recognizer whose answer is a function of the forms. -/
def ofFunction {σ : Type} (f : σ → List Text → Except MarkupError (List Entity))
    (labels : σ → List String) : Recognizer σ where
  recognize s forms := (f s forms, s)
  labels := labels

end Recognizer

/-! ## Labels -/

/-- Puts a label into an ascending list of labels, unless it is there. -/
def insertLabel (label : String) : List String → List String
  | [] => [label]
  | other :: rest =>
    if label < other then label :: other :: rest
    else if label = other then other :: rest
    else other :: insertLabel label rest

/-- Labels in ascending order, each once. -/
def ascendingLabels (labels : List String) : List String :=
  labels.foldr insertLabel []

end EntityMarkup
