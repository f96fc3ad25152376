import EntityMarkup.Recognizer

/-!
# Entities that are known already

A `Replay` answers each sentence with the next of the lists it holds, and with no entities when it
has gone through them. It does not look at the forms.
-/

namespace EntityMarkup

/-- Lists of entities, one a sentence, and how many sentences have gone by. -/
structure Replay where
  sentences : List (List Entity)
  next : Nat := 0
  deriving DecidableEq, Repr

namespace Replay

/-- The entities of the next sentence. -/
def entities (r : Replay) : List Entity :=
  r.sentences[r.next]?.getD []

/-- Goes on to the sentence after the next. -/
def advance (r : Replay) : Replay :=
  { r with next := r.next + 1 }

/-- Goes back to the first sentence. -/
def rewind (r : Replay) : Replay :=
  { r with next := 0 }

/-- The recognizer that repeats what it holds. -/
def recognizer : Recognizer Replay where
  recognize r _ := (.ok r.entities, r.advance)
  labels r := ascendingLabels (r.sentences.flatten.map Entity.label)

end Replay

end EntityMarkup
